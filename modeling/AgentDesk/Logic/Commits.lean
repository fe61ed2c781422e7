import AgentDesk.Logic.Provenance
import AgentDesk.Logic.Tokens
import AgentDesk.Logic.Sessions

namespace AgentDesk

open Framework (Program Observer Pool Event Table transcript transcript_ok transcript_next)

variable {S : Type} {c d : Nat} {w w' : World S}

/-! The transactions that the calls of a session make -/

/-- What a session's calls came to: the statements of the transaction that it has open, and the
transactions that it committed. -/
@[ext] structure Book (S : Type) where
  pending : List (Write S)
  committed : List (List (Write S))

namespace Book

def start : Book S := ⟨[], []⟩

def note (b : Book S) : Made S → Book S
  | ⟨.write ws, .ok _⟩ => { b with pending := b.pending ++ ws }
  | ⟨.write _, .error _⟩ => { b with pending := [] }
  | ⟨.query _, .error _⟩ => { b with pending := [] }
  | ⟨.commit, .ok _⟩ =>
    ⟨[], if b.pending.isEmpty then b.committed else b.committed ++ [b.pending]⟩
  | ⟨.commit, .error _⟩ => { b with pending := [] }
  | ⟨.rollback, _⟩ => { b with pending := [] }
  | ⟨.close, _⟩ => { b with pending := [] }
  | _ => b

def ofCalls (cs : List (Made S)) : Book S := cs.foldl note start

theorem ofCalls_snoc (cs : List (Made S)) (x : Made S) :
    ofCalls (cs ++ [x]) = (ofCalls cs).note x := by
  rw [ofCalls, List.foldl_append]
  rfl

/-- A transaction that was committed was pending when its commit returned. -/
theorem exists_commit {cs : List (Made S)} {ws : List (Write S)}
    (h : ws ∈ (ofCalls cs).committed) :
    ∃ pre post, cs = pre ++ ⟨.commit, .ok ()⟩ :: post ∧ (ofCalls pre).pending = ws ∧ ws ≠ [] := by
  induction cs using List.reverseRecOn with
  | nil => cases h
  | append_singleton cs x ih =>
    have later : ws ∈ (ofCalls cs).committed → ∃ pre post,
        cs ++ [x] = pre ++ ⟨.commit, .ok ()⟩ :: post ∧ (ofCalls pre).pending = ws ∧ ws ≠ [] := by
      intro h
      obtain ⟨pre, post, rfl, hrest⟩ := ih h
      exact ⟨pre, post ++ [x], by simp, hrest⟩
    rw [ofCalls_snoc] at h
    obtain ⟨op, r⟩ := x
    cases op with
    | commit =>
      cases r with
      | error e => exact later h
      | ok u =>
        cases hempty : (ofCalls cs).pending.isEmpty with
        | true =>
          simp only [note, hempty, if_true] at h
          exact later h
        | false =>
          simp only [note, hempty, Bool.false_eq_true, if_false, List.mem_append,
            List.mem_singleton] at h
          rcases h with h | rfl
          · exact later h
          · exact ⟨cs, [], rfl, rfl, List.isEmpty_eq_false_iff.mp hempty⟩
    | query q => cases r <;> exact later h
    | write xs => cases r <;> exact later h
    | _ => exact later h

/-- Calls that never commit after a commit have committed one transaction at most. -/
theorem committed_once {cs : List (Made S)} (h : ∀ pre post,
    cs = pre ++ ⟨.commit, .ok ()⟩ :: post → (ofCalls pre).committed = []) :
    (ofCalls cs).committed = [] ∨ ∃ pre post, cs = pre ++ ⟨.commit, .ok ()⟩ :: post ∧
      (ofCalls cs).committed = [(ofCalls pre).pending] := by
  induction cs using List.reverseRecOn with
  | nil => exact Or.inl rfl
  | append_singleton cs x ih =>
    have hbefore : (ofCalls cs).committed = [] ∨ ∃ pre post,
        cs = pre ++ ⟨.commit, .ok ()⟩ :: post ∧ (ofCalls cs).committed = [(ofCalls pre).pending] :=
      ih fun pre post heq => h pre (post ++ [x]) (by rw [heq, List.append_assoc]; rfl)
    have same : ((ofCalls cs).note x).committed = (ofCalls cs).committed →
        (ofCalls (cs ++ [x])).committed = [] ∨ ∃ pre post,
          cs ++ [x] = pre ++ ⟨.commit, .ok ()⟩ :: post ∧
            (ofCalls (cs ++ [x])).committed = [(ofCalls pre).pending] := by
      intro hx
      rw [ofCalls_snoc, hx]
      rcases hbefore with hnil | ⟨pre, post, rfl, hone⟩
      · exact Or.inl hnil
      · exact Or.inr ⟨pre, post ++ [x], by simp, hone⟩
    obtain ⟨op, r⟩ := x
    cases op with
    | commit =>
      cases r with
      | error e => exact same rfl
      | ok u =>
        cases hempty : (ofCalls cs).pending.isEmpty with
        | true => exact same (by simp [note, hempty])
        | false =>
          have hnil := h cs [] rfl
          exact Or.inr ⟨cs, [], rfl, by rw [ofCalls_snoc]; simp [note, hempty, hnil]⟩
    | query q => cases r <;> exact same rfl
    | write ws => cases r <;> exact same rfl
    | _ => exact same rfl

/-- The book and the journal of a session agree on what is pending. -/
theorem pending_note (b : Book S) (s : Journal S) (op : Op S) (r : Res op) (h : b.pending = s.writes) :
    (b.note ⟨op, r⟩).pending = (s.after op r).writes := by
  cases op with
  | query q =>
    cases r with
    | error e => simp [Book.note, Journal.after]
    | ok r => cases q <;> first | exact h | (cases r <;> exact h)
  | write ws => cases r <;> simp [Book.note, Journal.after, h]
  | commit => cases r <;> simp [Book.note, Journal.after, Journal.committed]
  | rollback => cases r <;> simp [Book.note, Journal.after]
  | close => simp [Book.note, Journal.after]
  | embed texts => cases r <;> exact h
  | chat request => cases r <;> exact h
  | aclose => cases r <;> exact h
  | enqueue task => cases r <;> exact h
  | _ => exact h

theorem pending_ofCalls (cs : List (Made S)) : (ofCalls cs).pending =
    (cs.foldl (fun s x => Journal.after s x.1 x.2) Journal.start).writes := by
  induction cs using List.reverseRecOn with
  | nil => rfl
  | append_singleton cs x ih =>
    rw [ofCalls_snoc, List.foldl_append]
    exact pending_note _ _ _ _ ih

end Book

/-- The commits of session `c`. -/
def World.commitsOf (w : World S) (c : Nat) : List (Commit S) :=
  w.commits.filter fun k => k.session == c

/-- A call that was answered fits its question. -/
theorem fits_of_exec {P : Platform} {op : Op S} {reply : Reply S} {r : Res op}
    (he : w.exec P c op reply = some (r, w')) : Ledger.Fits op r := by
  simp only [World.exec, Option.map_eq_some_iff] at he
  obtain ⟨⟨r₁, w₁⟩, he, heq⟩ := he
  cases heq
  change Ledger.Fits op r₁
  cases op with
  | query q =>
    simp only [World.effect] at he
    split at he <;> cases he
    · exact Ledger.fits_query_error q _
    · exact Ledger.fits_eval P _ _ q
  | write ws => exact Ledger.fits_write ws r₁
  | commit => exact Ledger.fits_commit r₁
  | rollback => exact Ledger.fits_rollback r₁
  | close => trivial
  | clock => trivial
  | salt => trivial
  | embed texts => cases r₁ <;> trivial
  | chat request => cases r₁ <;> trivial
  | post url body headers => exact Ledger.fits_post url body headers r₁
  | aclose => exact Ledger.fits_aclose r₁
  | enqueue task => exact Ledger.fits_enqueue task r₁

/-- After a call the book of the session is that of its transaction and its commits. -/
theorem World.writesOf_exec {P : Platform} {op : Op S} {reply : Reply S} {r : Res op} {b : Book S}
    (he : w.exec P c op reply = some (r, w')) (hb : b.pending = w.writesOf c) :
    (b.note ⟨op, r⟩).pending = w'.writesOf c ∧
      (b.note ⟨op, r⟩).committed = b.committed ++
        (w'.commits.drop w.commits.length).map Commit.writes := by
  have hs := World.steps_of_exec he
  have hquiet : w.Quiet w' → b.committed = b.committed ++
      (w'.commits.drop w.commits.length).map Commit.writes := by
    intro hq
    rw [hq.commits, List.drop_length, List.map_nil, List.append_nil]
  have hdropped : ∀ (op : Op S) (r : Res op), ((w.dropTx c).log c op r).writesOf c = [] := by
    intro op r
    have htx : ((w.dropTx c).log c op r).tx? c = none := World.tx?_dropTx_self (w := w)
    rw [World.writesOf, htx]
    rfl
  simp only [World.exec, Option.map_eq_some_iff] at he
  obtain ⟨⟨r₁, w₁⟩, he, heq⟩ := he
  cases heq
  cases op with
  | query q =>
    simp only [World.effect] at he
    split at he
    · cases he
      exact ⟨(hdropped _ _).symm, hquiet ⟨rfl, rfl, rfl⟩⟩
    · cases he
      obtain ⟨tx, htx, hw, -⟩ := World.tx?_noteRead (w := w) (c := c) reply.now q
        (q.eval P reply.choice (w.view c))
      have hq := World.quiet_noteRead (w := w) (c := c) reply.now q
        (q.eval P reply.choice (w.view c))
      refine ⟨?_, hquiet ⟨hq.db, hq.past, hq.commits⟩⟩
      have htx' : ((w.noteRead c reply.now q (q.eval P reply.choice (w.view c))).log c (.query q)
        (.ok (q.eval P reply.choice (w.view c)))).tx? c = some tx := htx
      rw [World.writesOf, htx', Option.map_some, Option.getD_some, hw, ← hb]
      rfl
  | write ws =>
    simp only [World.effect] at he
    split at he
    · cases he
      exact ⟨(hdropped _ _).symm, hquiet ⟨rfl, rfl, rfl⟩⟩
    · split at he
      · cases he
      · split at he
        · cases he
          exact ⟨(hdropped _ _).symm, hquiet ⟨rfl, rfl, rfl⟩⟩
        · cases he
          refine ⟨?_, hquiet ⟨rfl, rfl, rfl⟩⟩
          have hset := World.tx?_setTx_self (w := w)
            { w.txOf c reply.now with writes := (w.txOf c reply.now).writes ++ ws }
            (World.txOf_session reply.now)
          have hlog : ((w.setTx { w.txOf c reply.now with
              writes := (w.txOf c reply.now).writes ++ ws }).log c (.write ws)
                (.ok ())).tx? c = _ := hset
          rw [World.writesOf, hlog, Option.map_some, Option.getD_some, World.txOf_writes, ← hb]
          rfl
  | commit =>
    simp only [World.effect] at he
    split at he
    · cases he
      exact ⟨(hdropped _ _).symm, hquiet ⟨rfl, rfl, rfl⟩⟩
    · cases he
      obtain ⟨hhist, -, hclosed, -⟩ := World.commitTx_cases (w := w) c
      have hw : ((w.commitTx c).log c .commit (.ok ())).writesOf c = [] := by
        have htx : ((w.commitTx c).log c .commit (.ok ())).tx? c = none := hclosed
        rw [World.writesOf, htx]
        rfl
      refine ⟨hw.symm, ?_⟩
      obtain ⟨hnil, hq⟩ | ⟨tx, hc⟩ := hhist
      · simp only [Book.note, hb, hnil, List.isEmpty_nil, if_true]
        exact hquiet ⟨hq.db, hq.past, hq.commits⟩
      · have hpending : b.pending = tx.writes := by
          rw [hb, World.writesOf, hc.open_]
          rfl
        have hdrop : ((w.commitTx c).log c .commit (.ok ())).commits.drop w.commits.length =
            [⟨c, tx.start, tx.writes, w.seen c⟩] := by
          change (w.commitTx c).commits.drop w.commits.length = _
          rw [hc.commits, List.drop_left]
        have hne : tx.writes.isEmpty = false := List.isEmpty_eq_false_iff.mpr hc.some
        simp only [Book.note, hpending, hne, Bool.false_eq_true, if_false, hdrop, List.map_cons,
          List.map_nil]
  | rollback =>
    simp only [World.effect] at he
    split at he <;>
    · cases he
      exact ⟨(hdropped _ _).symm, hquiet ⟨rfl, rfl, rfl⟩⟩
  | close =>
    cases he
    exact ⟨(hdropped _ _).symm, hquiet ⟨rfl, rfl, rfl⟩⟩
  | enqueue task =>
    simp only [World.effect] at he
    split at he <;>
    · cases he
      exact ⟨hb, hquiet ⟨rfl, rfl, rfl⟩⟩
  | _ =>
    cases he
    exact ⟨hb, hquiet ⟨rfl, rfl, rfl⟩⟩

/-- What the calls of a session add to the history are its own commits. -/
theorem World.Steps.commitsOf {op : Op S} {r : Res op} (h : w.Steps c op r w') :
    w'.commitsOf c = w.commitsOf c ++ w'.commits.drop w.commits.length ∧
      ∀ d, d ≠ c → w'.commitsOf d = w.commitsOf d := by
  obtain hq | ⟨-, tx, hc⟩ := h.history
  · unfold World.commitsOf
    rw [hq.commits, List.drop_length, List.append_nil]
    exact ⟨rfl, fun _ _ => rfl⟩
  · unfold World.commitsOf
    rw [hc.commits, List.drop_left]
    refine ⟨?_, fun d hd => ?_⟩
    · rw [List.filter_append, List.filter_singleton, beq_self_eq_true]
      rfl
    · have hne : (c == d) = false := by simpa using Ne.symm hd
      rw [List.filter_append, List.filter_singleton, hne]
      simp

section

variable {J α : Type} {P : Platform} {prog : J → Nat → Program (Op S) Res α}

/-- The books of the sessions are right: what a live session has pending is in its open
transaction, and what it committed is in the history, under keys that it drew. -/
structure Kept (s : Pool J (Op S) Res α (World S)) : Prop where
  sane : s.world.Sane
  fits : ∀ x ∈ s.world.calls, Ledger.Fits x.op x.result
  owned : ∀ k ∈ s.world.commits, World.ownIds k.session k.writes = true
  pending : ∀ (i : Nat) (job : J) (p : Program (Op S) Res α), s.threads[i]? = some (job, some p) →
    (Book.ofCalls (s.world.callsOf i)).pending = s.world.writesOf i
  fresh : ∀ i, s.threads.length ≤ i → s.world.tx? i = none ∧ s.world.callsOf i = []
  committed : ∀ i, (Book.ofCalls (s.world.callsOf i)).committed =
    (s.world.commitsOf i).map Commit.writes

theorem Kept.spawn {s : Pool J (Op S) Res α (World S)} {job : J} (h : Kept s) :
    Kept (s.next (server P) prog (.spawn job)) := by
  refine ⟨h.sane, h.fits, h.owned, ?_, ?_, h.committed⟩
  · intro i job' p hp
    simp only [Pool.next, List.getElem?_append] at hp
    split at hp
    · exact h.pending i job' p hp
    · rename_i hlen
      obtain ⟨htx, hcalls⟩ := h.fresh i (not_lt.mp hlen)
      change (Book.ofCalls (s.world.callsOf i)).pending = s.world.writesOf i
      rw [hcalls, World.writesOf, htx]
      rfl
  · intro i hi
    simp only [Pool.next, List.length_append, List.length_singleton] at hi
    exact h.fresh i (by omega)

theorem Kept.step {s s' : Pool J (Op S) Res α (World S)} {i : Nat} {reply : Reply S} {job : J}
    {op : Op S} {next : Res op → Program (Op S) Res α} {r : Res op}
    (hstep : Pool.Steps (server P) i reply s s' job op next r) (h : Kept s) : Kept s' := by
  have he : s.world.exec P i op reply = some (r, s'.world) := hstep.exec
  have hs := World.steps_of_exec he
  have hlen : i < s.threads.length := (List.getElem?_eq_some_iff.mp hstep.thread).1
  have hown : s'.world.callsOf i = s.world.callsOf i ++ [⟨op, r⟩] := World.callsOf_own hs.calls
  have hother : ∀ j, j ≠ i → s'.world.callsOf j = s.world.callsOf j :=
    fun j hj => World.callsOf_other hs.calls hj
  obtain ⟨hself, hrest⟩ := hs.commitsOf
  obtain ⟨hpending, hcommitted⟩ :=
    World.writesOf_exec he (h.pending i job _ hstep.thread)
  refine ⟨hs.sane h.sane, ?_, ?_, ?_, ?_, ?_⟩
  · intro x hx
    rw [hs.calls, List.mem_append, List.mem_singleton] at hx
    rcases hx with hx | rfl
    · exact h.fits x hx
    · exact fits_of_exec he
  · intro k hk
    obtain hq | ⟨-, tx, hc⟩ := hs.history
    · rw [hq.commits] at hk
      exact h.owned k hk
    · rw [hc.commits, List.mem_append, List.mem_singleton] at hk
      rcases hk with hk | rfl
      · exact h.owned k hk
      · exact (h.sane.sound i tx hc.open_).1
  · intro j job' p hp
    rw [hstep.threads, List.getElem?_set] at hp
    by_cases hij : i = j
    · subst hij
      rw [hown, Book.ofCalls_snoc]
      exact hpending
    · rw [if_neg hij] at hp
      rw [hother j (Ne.symm hij), h.pending j job' p hp, World.writesOf, World.writesOf,
        hs.confined.tx j (Ne.symm hij)]
  · intro j hj
    rw [hstep.threads, List.length_set] at hj
    have hne : j ≠ i := by omega
    rw [hs.confined.tx j hne, hother j hne]
    exact h.fresh j hj
  · intro j
    by_cases hij : j = i
    · subst hij
      rw [hown, Book.ofCalls_snoc, hself, List.map_append, hcommitted, h.committed]
    · rw [hother j hij, hrest j hij]
      exact h.committed j

theorem Kept.kill {s : Pool J (Op S) Res α (World S)} {i : Nat} {job : J}
    {p : Program (Op S) Res α} (ht : s.threads[i]? = some (job, some p)) (h : Kept s) :
    Kept ⟨(server P).abort i s.world, s.threads.set i (job, none)⟩ := by
  have hlen : i < s.threads.length := (List.getElem?_eq_some_iff.mp ht).1
  refine ⟨h.sane.abort i, h.fits, h.owned, ?_, ?_, h.committed⟩
  · intro j job' p' hp
    simp only [List.getElem?_set] at hp
    by_cases hij : i = j
    · subst hij
      rw [if_pos rfl] at hp
      split at hp <;> cases hp
    · rw [if_neg hij] at hp
      have htx : ((server P).abort i s.world).tx? j = s.world.tx? j :=
        World.tx?_dropTx_ne (Ne.symm hij)
      rw [World.writesOf, htx]
      exact h.pending j job' p' hp
  · intro j hj
    simp only [List.length_set] at hj
    obtain ⟨htx, hcalls⟩ := h.fresh j hj
    refine ⟨?_, hcalls⟩
    exact (World.tx?_dropTx_ne (by omega)).trans htx

theorem kept_run (events : List (Event J (Reply S))) :
    Kept (Pool.run (server P) prog ⟨.init, []⟩ events) := by
  refine Pool.run_induction (fun h => h.spawn) (fun hstep h => h.step hstep)
    (fun ht h => h.kill ht) events ?_
  exact ⟨World.sane_init, fun _ h => by simp [World.init] at h, fun _ h => by simp [World.init] at h,
    fun _ _ _ h => by simp at h, fun _ _ => ⟨rfl, rfl⟩, fun _ => rfl⟩

end

/-! The sessions of the deployment -/

section

variable [Field S] [LinearOrder S] [FloorRing S] {cfg : Config S} {workflow : Workflow S}
  {events : List (Event Job (Reply S))}

theorem deployment_kept : Kept (deployment cfg workflow events) := kept_run events

theorem deployment_recorded :
    (deployment cfg workflow events).Recorded (Job.program cfg workflow) World.callsOf :=
  Pool.recorded_run (World.records_callsOf cfg.platform)
    ⟨fun _ _ _ h => by simp at h, fun _ _ => rfl⟩ events

theorem deployment_traced :
    (deployment cfg workflow events).Traced (Job.program cfg workflow) World.callsOf :=
  Pool.traced_run (World.records_callsOf cfg.platform)
    ⟨fun _ _ _ h => by simp at h, fun _ _ => rfl⟩ (fun _ _ _ h => by simp at h) events

/-- The threads of the deployment run the jobs that arrived, in order. -/
theorem deployment_job (cfg : Config S) (workflow : Workflow S)
    (events : List (Event Job (Reply S))) (i : Nat) :
    ((deployment cfg workflow events).threads[i]?).map Prod.fst = (Pool.spawned events)[i]? := by
  have hjobs : (deployment cfg workflow events).threads.map Prod.fst =
      [] ++ Pool.spawned events := Pool.jobs_run events
  rw [List.nil_append] at hjobs
  rw [← hjobs, List.getElem?_map]

theorem fits_of_callsOf {i : Nat} {x : Made S}
    (hx : x ∈ (deployment cfg workflow events).world.callsOf i) : Ledger.Fits x.1 x.2 := by
  obtain ⟨y, hy, rfl⟩ := List.mem_map.mp hx
  exact deployment_kept.fits y (List.mem_filter.mp hy).1

theorem thread_of_job (cfg : Config S) (workflow : Workflow S)
    {events : List (Event Job (Reply S))} {i : Nat} {job : Job}
    (h : (Pool.spawned events)[i]? = some job) :
    ∃ p, (deployment cfg workflow events).threads[i]? = some (job, p) := by
  rw [← deployment_job cfg workflow, Option.map_eq_some_iff] at h
  obtain ⟨⟨job', p⟩, hthread, rfl⟩ := h
  exact ⟨p, hthread⟩

/-- Every call of a session met the demands of an observer that its program obeys. -/
theorem ok_of_call {St : Type} {O : Observer (Op S) Res St} {f : St → Made S → St}
    {Q : Outcome → St → Prop} {s₀ : St} {i : Nat} {job : Job} {pre post : List (Made S)}
    {x : Made S} (hnext : ∀ s op r, Ledger.Fits op r → O.next s op r (f s ⟨op, r⟩))
    (hprog : (job.program cfg workflow i).Obeys O Q s₀)
    (hjob : (Pool.spawned events)[i]? = some job)
    (hcalls : (deployment cfg workflow events).world.callsOf i = pre ++ x :: post) :
    O.ok (pre.foldl f s₀) x.1 := by
  obtain ⟨p, hthread⟩ := thread_of_job cfg workflow hjob
  obtain ⟨q, hq⟩ := deployment_traced i job p hthread
  rw [hcalls] at hq
  refine Program.ok_of_after hnext hprog hq fun y hy => ?_
  have hmem : y ∈ (deployment cfg workflow events).world.callsOf i := by
    rw [hcalls]
    exact List.mem_append_left _ hy
  exact fits_of_callsOf hmem

/-- A session that has come to its end ended as the observer says. -/
theorem ends_of_thread {St : Type} {O : Observer (Op S) Res St} {f : St → Made S → St}
    {Q : Outcome → St → Prop} {s₀ : St} {i : Nat} {job : Job} {o : Outcome}
    (hnext : ∀ s op r, Ledger.Fits op r → O.next s op r (f s ⟨op, r⟩))
    (hprog : (job.program cfg workflow i).Obeys O Q s₀)
    (hthread : (deployment cfg workflow events).threads[i]? = some (job, some (.ret o))) :
    Q o (((deployment cfg workflow events).world.callsOf i).foldl f s₀) :=
  Program.ends_of_after hnext hprog (deployment_recorded.live i job _ hthread)
    fun _ hx => fits_of_callsOf hx

/-- The history of a run is a beginning of that of a longer run. -/
theorem commits_append (more : List (Event Job (Reply S))) :
    (deployment cfg workflow events).world.commits <+:
      (deployment cfg workflow (events ++ more)).world.commits := by
  have hrun : deployment cfg workflow (events ++ more) =
      Pool.run (server cfg.platform) (Job.program cfg workflow)
        (deployment cfg workflow events) more := List.foldl_append
  rw [hrun]
  refine Pool.run_induction (I := fun s : Pool Job (Op S) Res Outcome (World S) =>
    (deployment cfg workflow events).world.commits <+: s.world.commits) ?_ ?_ ?_ more
      List.prefix_rfl
  · exact fun h => h
  · exact fun hstep h => h.trans (World.steps_of_exec hstep.exec).commits
  · exact fun _ h => h

/-- Every commit of the deployment is one that a session made, with the statements that were
pending. -/
theorem call_of_commit {k : Commit S} (hk : k ∈ (deployment cfg workflow events).world.commits) :
    ∃ job pre post, (Pool.spawned events)[k.session]? = some job ∧
      (deployment cfg workflow events).world.callsOf k.session =
        pre ++ ⟨.commit, .ok ()⟩ :: post ∧ (Book.ofCalls pre).pending = k.writes := by
  have hkept : Kept (deployment cfg workflow events) := deployment_kept
  have hmem : k.writes ∈ (Book.ofCalls
      ((deployment cfg workflow events).world.callsOf k.session)).committed := by
    rw [hkept.committed]
    exact List.mem_map_of_mem (List.mem_filter.mpr ⟨hk, beq_self_eq_true _⟩)
  obtain ⟨pre, post, hcalls, hpending, -⟩ := Book.exists_commit hmem
  have hlen : k.session < (deployment cfg workflow events).threads.length := by
    by_contra hge
    rw [(hkept.fresh _ (not_lt.mp hge)).2] at hcalls
    cases pre <;> cases hcalls
  refine ⟨(deployment cfg workflow events).threads[k.session].1, pre, post, ?_, hcalls, hpending⟩
  rw [← deployment_job cfg workflow, List.getElem?_eq_getElem hlen]
  rfl

/-- What the programs of the jobs guarantee of their commits holds of every commit. -/
theorem commit_ok {St : Type} {O : Job → Nat → Observer (Op S) Res St} {f : St → Made S → St}
    {Q : Job → Outcome → St → Prop} {s₀ : St}
    (hnext : ∀ job c s op r, Ledger.Fits op r → (O job c).next s op r (f s ⟨op, r⟩))
    (hprog : ∀ (job : Job) c, (job.program cfg workflow c).Obeys (O job c) (Q job) s₀)
    {k : Commit S} (hk : k ∈ (deployment cfg workflow events).world.commits) :
    ∃ job pre post, (Pool.spawned events)[k.session]? = some job ∧
      (deployment cfg workflow events).world.callsOf k.session =
        pre ++ ⟨.commit, .ok ()⟩ :: post ∧
      (Book.ofCalls pre).pending = k.writes ∧ (O job k.session).ok (pre.foldl f s₀) .commit := by
  obtain ⟨job, pre, post, hjob, hcalls, hpending⟩ := call_of_commit hk
  exact ⟨job, pre, post, hjob, hcalls, hpending,
    ok_of_call (hnext job k.session) (hprog job k.session) hjob hcalls⟩

/-- Every commit is a deed of its session. -/
theorem deed_of_commit {k : Commit S} (hk : k ∈ (deployment cfg workflow events).world.commits) :
    ∃ s, Deed cfg workflow s k.writes := by
  obtain ⟨job, pre, post, -, -, hpending, hok⟩ := commit_ok (f := fun s x => s.after x.1 x.2)
    (fun _ _ _ _ _ hfits => Journal.observer_next.mpr ⟨hfits, rfl⟩)
    (fun job c => Job.program_journaled cfg workflow job c) hk
  have hwrites := (Book.pending_ofCalls pre).symm.trans hpending
  rw [Journal.observer_commit] at hok
  rw [← hwrites]
  rcases hok with hnil | hdeed
  · rw [hnil]
    exact ⟨Journal.start, .plain fun _ h => by cases h⟩
  · exact ⟨_, hdeed⟩

end

/-! Sessions that are watched when they commit -/

variable {α : Type} {cfg : Config S} {cs : List (Made S)}

/-- The observer that demands something of a session's calls whenever it commits. -/
def atCommit (D : List (Made S) → Prop) : Observer (Op S) Res (List (Made S)) where
  ok cs op := match op with
    | .commit => D cs
    | _ => True
  next cs op r cs' := Ledger.Fits op r ∧ cs' = cs ++ [⟨op, r⟩]

def Op.isCommit : Op S → Bool
  | .commit => true
  | _ => false

/-- A program that does not commit meets every demand on commits. -/
theorem obeys_atCommit {D : List (Made S) → Prop} {p : Program (Op S) Res α}
    {Q : α → List (Made S) → Prop} {post : α → Prop} (h : p.Obeys transcript Q cs)
    (hu : p.Uses (fun op => op.isCommit = false) post) :
    p.Obeys (atCommit D) (fun a cs => Q a cs ∧ post a) cs := by
  induction p generalizing cs with
  | ret a => exact ⟨h, hu⟩
  | call op next ih =>
    refine ⟨?_, fun r cs' hn => ?_⟩
    · cases op with
      | commit => exact absurd hu.1 (by simp [Op.isCommit])
      | _ => trivial
    · exact ih r (h.2 r cs' hn.2) (hu.2 r)

section

variable {D : List (Made S) → Prop}

@[simp] theorem atCommit_next {cs cs' : List (Made S)} {op : Op S} {r : Res op} :
    (atCommit D).next cs op r cs' ↔ Ledger.Fits op r ∧ cs' = cs ++ [⟨op, r⟩] := Iff.rfl

@[simp] theorem atCommit_commit : (atCommit D).ok cs .commit ↔ D cs := Iff.rfl

@[simp] theorem atCommit_write (ws : List (Write S)) : (atCommit D).ok cs (.write ws) := trivial

@[simp] theorem atCommit_query (q : Query S) : (atCommit D).ok cs (.query q) := trivial

@[simp] theorem atCommit_embed (texts : List String) : (atCommit D).ok cs (.embed texts) := trivial

@[simp] theorem atCommit_clock : (atCommit D).ok cs .clock := trivial

@[simp] theorem atCommit_salt : (atCommit D).ok cs .salt := trivial

@[simp] theorem atCommit_chat (request : ChatRequest) : (atCommit D).ok cs (.chat request) := trivial

@[simp] theorem atCommit_post (url : String) (body : List Char) (headers : List (String × String)) :
    (atCommit D).ok cs (.post url body headers) := trivial

@[simp] theorem atCommit_aclose : (atCommit D).ok cs .aclose := trivial

@[simp] theorem atCommit_enqueue (task : Task) : (atCommit D).ok cs (.enqueue task) := trivial

@[simp] theorem atCommit_rollback : (atCommit D).ok cs .rollback := trivial

@[simp] theorem atCommit_close : (atCommit D).ok cs .close := trivial

end

/-- The check of the caller commits nothing and leaves the session as it is. -/
theorem requireRole_uncommitted (allowed : List Role) (creds : Option Token) (σ : Session S) :
    (requireRole cfg allowed creds σ).Uses (fun op => op.isCommit = false) fun x => x.2 = σ := by
  have hsubject : ∀ token : Token,
      (subject cfg token .access σ).Uses (fun op => op.isCommit = false) fun x => x.2 = σ := by
    intro token
    have hdecoded : (decodeToken cfg token .access σ).Uses (fun op => op.isCommit = false)
        fun x => x.2 = σ := by
      cases token with
      | malformed m => rfl
      | signed key claims =>
        unfold decodeToken
        simp only
        split
        · rfl
        · refine ⟨rfl, fun now => ?_⟩
          simp only [Program.ret_bind]
          split
          · rfl
          · split <;> rfl
    refine Program.uses_bind hdecoded ?_
    rintro ⟨_ | claims, σ'⟩ hσ
    · exact hσ
    · cases hsub : claims.sub <;> simp only [hsub] <;> exact hσ
  have huser : (getCurrentUser cfg creds σ).Uses (fun op => op.isCommit = false)
      fun x => x.2 = σ := by
    unfold getCurrentUser
    split
    · rfl
    · rfl
    · rename_i token _
      have hid : ∀ handler : Err → M S Uuid,
          (∀ e, (handler e σ).Uses (fun op => op.isCommit = false) fun x => x.2 = σ) →
            (M.except (subject cfg token .access) handler σ).Uses (fun op => op.isCommit = false)
              fun x => x.2 = σ := by
        intro handler hhandler
        refine Program.uses_bind (hsubject token) ?_
        rintro ⟨e | id, σ'⟩ hσ
        · obtain rfl : σ' = σ := hσ
          exact hhandler e
        · exact hσ
      refine Program.uses_bind (hid _ fun e => by cases e <;> rfl) ?_
      rintro ⟨_ | id, σ'⟩ hσ
      · exact hσ
      · refine ⟨rfl, fun r => ?_⟩
        cases r with
        | error e => exact hσ
        | ok row =>
          cases row with
          | none => exact hσ
          | some u =>
            simp only [Program.ret_bind]
            split <;> exact hσ
  refine Program.uses_bind huser ?_
  rintro ⟨_ | u, σ'⟩ hσ
  · exact hσ
  · simp only
    split <;> exact hσ

end AgentDesk
