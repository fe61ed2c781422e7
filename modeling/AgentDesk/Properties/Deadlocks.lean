import AgentDesk.Framework.Waiting
import AgentDesk.Logic.Commits
import AgentDesk.Logic.LockOrder

namespace AgentDesk

open Framework (Program Pool Event Holdings)

variable {S : Type} {P : Platform} {w w' : World S} {c d : Nat} {op : Op S} {r : Res op}
  {ws : List (Write S)} {reply : Reply S} {l : Lock}

/-! The lock table -/

@[simp] theorem locksOf_nil : locksOf ([] : List (Write S)) = ∅ := by
  simp [locksOf]

@[simp] theorem locksOf_append (ws ws' : List (Write S)) :
    locksOf (ws ++ ws') = locksOf ws ∪ locksOf ws' := by
  ext l
  simp [locksOf, or_and_right, exists_or]

/-- The locks of a session's open transaction are those that its calls came to. -/
theorem locksOf_note (b : Book S) (op : Op S) (r : Res op) :
    locksOf (b.note ⟨op, r⟩).pending = holding (locksOf b.pending) op r := by
  cases op with
  | query q => cases r <;> simp [Book.note, holding]
  | write ws => cases r <;> simp [Book.note, holding]
  | commit => cases r <;> simp [Book.note, holding]
  | rollback => simp [Book.note, holding]
  | close => simp [Book.note, holding]
  | _ => rfl

theorem locksOf_ofCalls (cs : List (Made S)) :
    locksOf (Book.ofCalls cs).pending = cs.foldl (fun held x => holding held x.1 x.2) ∅ := by
  induction cs using List.reverseRecOn with
  | nil => exact locksOf_nil
  | append_singleton cs x ih =>
    rw [Book.ofCalls_snoc, List.foldl_append, ← ih]
    exact locksOf_note _ x.1 x.2

/-- A lock that is held was asked for. -/
theorem exists_write {cs : List (Made S)} (h : l ∈ locksOf (Book.ofCalls cs).pending) :
    ∃ pre ws r post, cs = pre ++ ⟨.write ws, r⟩ :: post ∧ l ∈ locksOf ws := by
  induction cs using List.reverseRecOn with
  | nil =>
    have hnone : l ∈ locksOf ([] : List (Write S)) := h
    rw [locksOf_nil] at hnone
    cases hnone
  | append_singleton cs x ih =>
    have later : l ∈ locksOf (Book.ofCalls cs).pending →
        ∃ pre ws r post, cs ++ [x] = pre ++ ⟨.write ws, r⟩ :: post ∧ l ∈ locksOf ws := by
      intro h
      obtain ⟨pre, ws, r, post, rfl, hl⟩ := ih h
      exact ⟨pre, ws, r, post ++ [x], by simp, hl⟩
    rw [Book.ofCalls_snoc, locksOf_note] at h
    obtain ⟨op, r⟩ := x
    cases op with
    | write ws =>
      cases r with
      | error e => cases h
      | ok u =>
        rcases h with h | h
        · exact later h
        · exact ⟨cs, ws, .ok u, [], rfl, h⟩
    | query q =>
      cases r with
      | error e => cases h
      | ok r => exact later h
    | commit => cases h
    | rollback => cases h
    | close => cases h
    | _ => exact later h

namespace World

/-- A session has one transaction at most, and no two hold the same lock. -/
structure Apart (w : World S) : Prop where
  single : (w.txs.map Tx.session).Nodup
  exclusive : ∀ {c d l}, l ∈ locksOf (w.writesOf c) → l ∈ locksOf (w.writesOf d) → c = d

theorem mem_txs_of_lock (h : l ∈ locksOf (w.writesOf c)) :
    ∃ t ∈ w.txs, t.session = c ∧ l ∈ locksOf t.writes := by
  cases htx : w.tx? c with
  | none =>
    rw [writesOf, htx] at h
    simp at h
  | some tx =>
    rw [writesOf, htx] at h
    exact ⟨tx, List.mem_of_find?_eq_some htx, session_of_tx? htx, h⟩

theorem writesOf_of_mem (h : (w.txs.map Tx.session).Nodup) {t : Tx S} (ht : t ∈ w.txs) :
    w.writesOf t.session = t.writes := by
  have hfind : w.tx? t.session = some t := by
    obtain ⟨tx, htx⟩ : ∃ tx, w.tx? t.session = some tx := by
      rw [← Option.isSome_iff_exists, tx?, List.find?_isSome]
      exact ⟨t, ht, beq_self_eq_true _⟩
    have hsame := List.inj_on_of_nodup_map h (List.mem_of_find?_eq_some htx) ht (session_of_tx? htx)
    rw [htx, hsame]
  rw [writesOf, hfind]
  rfl

theorem blocked_iff : w.blocked c ws = true ↔
    ∃ t ∈ w.txs, t.session ≠ c ∧ ∃ l ∈ locksOf ws, l ∈ locksOf t.writes := by
  simp only [blocked, List.any_eq_true, Bool.and_eq_true, bne_iff_ne, Option.any_eq_true,
    beq_iff_eq, locksOf, Set.mem_ofPred_eq]
  constructor
  · intro h
    obtain ⟨t, ht, hne, x, hx, l, hl, y, hy, hlock⟩ := h
    exact ⟨t, ht, hne, l, ⟨y, hy, hlock⟩, x, hx, hl⟩
  · intro h
    obtain ⟨t, ht, hne, l, ⟨y, hy, hlock⟩, x, hx, hl⟩ := h
    exact ⟨t, ht, hne, x, hx, l, hl, y, hy, hlock⟩

theorem blocked_of_none (hexec : w.exec P c op reply = none) :
    ∃ ws, op = .write ws ∧ (w.blocked c ws = true ∨ ownIds c ws = false) := by
  rw [exec, Option.map_eq_none_iff] at hexec
  cases op with
  | write ws =>
    refine ⟨ws, rfl, ?_⟩
    by_contra hfree
    rw [not_or, Bool.not_eq_true, Bool.not_eq_false] at hfree
    simp only [effect, hfree.1, hfree.2] at hexec
    split at hexec
    · cases hexec
    · simp at hexec
      split at hexec
      · cases hexec
      · cases hexec
  | query q =>
    simp only [effect] at hexec
    split at hexec
    · cases hexec
    · cases hexec
  | commit =>
    simp only [effect] at hexec
    split at hexec
    · cases hexec
    · cases hexec
  | rollback =>
    simp only [effect] at hexec
    split at hexec
    · cases hexec
    · cases hexec
  | enqueue task =>
    simp only [effect] at hexec
    split at hexec
    · cases hexec
    · cases hexec
  | _ => cases hexec

theorem none_of_blocked (hblocked : w.blocked c ws = true) (hfault : reply.fault = none) :
    w.exec P c (.write ws) reply = none := by
  simp [exec, effect, hblocked, hfault]

theorem single_dropTx (h : (w.txs.map Tx.session).Nodup) (c : Nat) :
    ((w.dropTx c).txs.map Tx.session).Nodup :=
  h.sublist (List.filter_sublist.map _)

theorem single_setTx (h : (w.txs.map Tx.session).Nodup) (tx : Tx S) :
    ((w.setTx tx).txs.map Tx.session).Nodup := by
  have hrest : ((w.txs.filter fun t => t.session != tx.session).map Tx.session).Nodup :=
    h.sublist (List.filter_sublist.map _)
  refine List.nodup_cons.mpr ⟨fun hmem => ?_, hrest⟩
  obtain ⟨t, ht, hsame⟩ := List.mem_map.mp hmem
  simp [hsame] at ht

theorem single_exec (he : w.exec P c op reply = some (r, w')) (h : (w.txs.map Tx.session).Nodup) :
    (w'.txs.map Tx.session).Nodup := by
  have hdrop := single_dropTx h c
  simp only [exec, Option.map_eq_some_iff] at he
  obtain ⟨⟨r₁, w₁⟩, he, heq⟩ := he
  cases heq
  change (w₁.txs.map Tx.session).Nodup
  cases op with
  | query q =>
    simp only [effect] at he
    split at he
    · cases he
      exact hdrop
    · cases he
      cases q <;> exact single_setTx h _
  | write ws =>
    simp only [effect] at he
    split at he
    · cases he
      exact hdrop
    · split at he
      · cases he
      · split at he
        · cases he
          exact hdrop
        · cases he
          exact single_setTx h _
  | commit =>
    simp only [effect] at he
    split at he
    · cases he
      exact hdrop
    · cases he
      unfold commitTx
      split
      · exact h
      · split
        · exact hdrop
        · exact hdrop
  | rollback =>
    simp only [effect] at he
    split at he
    · cases he
      exact hdrop
    · cases he
      exact hdrop
  | close =>
    cases he
    exact hdrop
  | enqueue task =>
    simp only [effect] at he
    split at he
    · cases he
      exact h
    · cases he
      exact h
  | _ =>
    cases he
    exact h

/-- A session that is not blocked takes the locks that its statements need. -/
theorem lock_of_exec (he : w.exec P c op reply = some (r, w'))
    (hl : l ∈ locksOf (w'.writesOf c)) :
    l ∈ locksOf (w.writesOf c) ∨ ∃ ws, l ∈ locksOf ws ∧ w.blocked c ws = false := by
  obtain ⟨hpending, -⟩ := writesOf_exec (b := ⟨w.writesOf c, []⟩) he rfl
  rw [← hpending, locksOf_note] at hl
  cases op with
  | write ws =>
    cases r with
    | error e => cases hl
    | ok u =>
      rcases hl with hl | hl
      · exact Or.inl hl
      · refine Or.inr ⟨ws, hl, ?_⟩
        cases hblocked : w.blocked c ws with
        | false => rfl
        | true =>
          simp only [exec, effect, hblocked, Option.map_eq_some_iff] at he
          obtain ⟨x, he, heq⟩ := he
          split at he
          · cases he
            cases heq
          · cases he
  | query q =>
    cases r with
    | error e => cases hl
    | ok r => exact Or.inl hl
  | commit => cases hl
  | rollback => cases hl
  | close => cases hl
  | _ => exact Or.inl hl

theorem Apart.exec (h : w.Apart) (he : w.exec P c op reply = some (r, w')) : w'.Apart := by
  refine ⟨single_exec he h.single, ?_⟩
  have hother : ∀ d, d ≠ c → w'.writesOf d = w.writesOf d := by
    intro d hd
    rw [writesOf, (steps_of_exec he).confined.tx d hd, writesOf]
  have hown : ∀ d l, d ≠ c → l ∈ locksOf (w'.writesOf c) → l ∉ locksOf (w.writesOf d) := by
    intro d l hd hl hheld
    rcases lock_of_exec he hl with hold | ⟨ws, hws, hfree⟩
    · exact hd (h.exclusive hheld hold)
    · obtain ⟨t, ht, rfl, hlock⟩ := mem_txs_of_lock hheld
      have hblocked : w.blocked c ws = true := blocked_iff.mpr ⟨t, ht, hd, l, hws, hlock⟩
      rw [hblocked] at hfree
      cases hfree
  intro d e l hd hheld
  by_cases hdc : d = c
  · subst hdc
    by_contra hne
    rw [hother e (Ne.symm hne)] at hheld
    exact hown e l (Ne.symm hne) hd hheld
  · rw [hother d hdc] at hd
    by_cases hec : e = c
    · subst hec
      exact absurd hd (hown d l hdc hheld)
    · rw [hother e hec] at hheld
      exact h.exclusive hd hheld

theorem Apart.abort (h : w.Apart) (c : Nat) : (w.dropTx c).Apart := by
  have hheld : ∀ d l, l ∈ locksOf ((w.dropTx c).writesOf d) → l ∈ locksOf (w.writesOf d) := by
    intro d l hl
    by_cases hdc : d = c
    · subst hdc
      rw [writesOf, tx?_dropTx_self] at hl
      exact absurd hl (by simp)
    · rwa [writesOf, tx?_dropTx_ne hdc] at hl
  exact ⟨single_dropTx h.single c, fun hd he => h.exclusive (hheld _ _ hd) (hheld _ _ he)⟩

end World

/-! The sessions of a deployment -/

/-- The statements that session `i` is about to send. -/
def statements {J α : Type} (s : Pool J (Op S) Res α (World S)) (i : Nat) : List (Write S) :=
  match s.threads[i]? with
  | some (_, some (.call (.write ws) _)) => ws
  | _ => []

/-- The locks that each session holds, and those that it asks for now. -/
def holdings {J α : Type} (s : Pool J (Op S) Res α (World S)) : Holdings Nat Lock where
  held i := locksOf (s.world.writesOf i)
  asked i := locksOf (statements s i)

/-- Session `i` performs this run, and waits for a call. -/
def Performing (cfg : Config S) (s : Pool Job (Op S) Res Outcome (World S)) (i : Nat)
    (runId : Uuid) : Prop :=
  ∃ job op next, s.threads[i]? = some (job, some (.call op next)) ∧ job.Performs cfg i runId

/-- Locks are apart, and a session that was cut off has no transaction. -/
structure Tidy {J α : Type} (s : Pool J (Op S) Res α (World S)) : Prop where
  apart : s.world.Apart
  gone : ∀ i job, s.threads[i]? = some (job, none) → s.world.tx? i = none

/-- A session that asks for a lock is at a call, which asks for it. -/
theorem write_of_asked {J α : Type} {i : Nat} {s : Pool J (Op S) Res α (World S)}
    (h : l ∈ (holdings s).asked i) :
    ∃ job ws next, s.threads[i]? = some (job, some (.call (.write ws) next)) ∧ l ∈ locksOf ws := by
  simp only [holdings, statements] at h
  split at h
  · rename_i job ws next hthread
    exact ⟨job, ws, next, hthread, h⟩
  · rw [locksOf_nil] at h
    cases h

/-- The observer of the locks keeps count of them. -/
theorem claimant_next {own : Uuid → Prop} (held : Set Lock) (op : Op S) (r : Res op)
    (h : Ledger.Fits op r) : (claimant own c).next held op r (holding held op r) := ⟨h, rfl⟩

section

variable [Field S] [LinearOrder S] [FloorRing S] {cfg : Config S} {workflow : Workflow S}
  {events : List (Event Job (Reply S))} {i : Nat} {job : Job}

theorem deployment_tidy : Tidy (deployment cfg workflow events) := by
  refine Pool.run_induction (I := fun s : Pool Job (Op S) Res Outcome (World S) => Tidy s) ?_ ?_ ?_
    events ⟨⟨List.nodup_nil, ?_⟩, fun i job h => by cases h⟩
  · intro s job h
    refine ⟨h.apart, fun i job' hi => h.gone i job' ?_⟩
    simp only [Pool.next, List.getElem?_append] at hi
    split at hi
    · exact hi
    · rw [List.getElem?_singleton] at hi
      split at hi <;> cases hi
  · intro s s' i reply job op next r hstep h
    refine ⟨h.apart.exec hstep.exec, fun j job' hj => ?_⟩
    rw [hstep.threads, List.getElem?_set] at hj
    by_cases hij : i = j
    · rw [if_pos hij] at hj
      split at hj <;> cases hj
    · rw [if_neg hij] at hj
      rw [(World.steps_of_exec hstep.exec).confined.tx j (Ne.symm hij)]
      exact h.gone j job' hj
  · intro s i job p hi h
    refine ⟨h.apart.abort i, fun j job' hj => ?_⟩
    by_cases hij : i = j
    · subst hij
      exact World.tx?_dropTx_self
    · rw [List.getElem?_set_ne hij] at hj
      have hgone := h.gone j job' hj
      rwa [← World.tx?_dropTx_ne (c := i) (Ne.symm hij)] at hgone
  · intro c d l hc
    exact absurd hc (by simp [World.writesOf, World.tx?, World.init])

theorem deployment_snoc (e : Event Job (Reply S)) : deployment cfg workflow (events ++ [e]) =
    (deployment cfg workflow events).next (server cfg.platform) (Job.program cfg workflow) e := by
  rw [deployment, deployment, Pool.run, Pool.run, List.foldl_append]
  rfl

theorem session_orderly {p : Program (Op S) Res Outcome}
    (h : (deployment cfg workflow events).threads[i]? = some (job, some p)) :
    p.Obeys (claimant (job.Performs cfg i) i) (fun _ held => held = ∅)
      (locksOf ((deployment cfg workflow events).world.writesOf i)) := by
  have hprog : (job.program cfg workflow i).Obeys (claimant (job.Performs cfg i) i)
      (fun _ held => held = ∅) ∅ := program_orderly job fun _ h => h
  have hafter := deployment_recorded.live i job p h
  have hobeys := Program.obeys_of_after (f := fun held x => holding held x.1 x.2) claimant_next
    hprog hafter fun _ hx => fits_of_callsOf hx
  rwa [← locksOf_ofCalls, deployment_kept.pending i job p h] at hobeys

/-- A session that holds a lock has something left to do. -/
theorem busy_of_lock
    (h : l ∈ locksOf ((deployment cfg workflow events).world.writesOf i)) :
    ∃ job op next,
      (deployment cfg workflow events).threads[i]? = some (job, some (.call op next)) := by
  have hopen : (deployment cfg workflow events).world.tx? i ≠ none := by
    intro hnone
    rw [World.writesOf, hnone] at h
    exact absurd h (by simp)
  cases hthread : (deployment cfg workflow events).threads[i]? with
  | none => exact absurd (deployment_kept.fresh i (List.getElem?_eq_none_iff.mp hthread)).1 hopen
  | some x =>
    obtain ⟨job, _ | a | ⟨op, next⟩⟩ := x
    · exact absurd (deployment_tidy.gone i job hthread) hopen
    · have hnone : locksOf ((deployment cfg workflow events).world.writesOf i) = ∅ :=
        session_orderly hthread
      rw [hnone] at h
      cases h
    · exact ⟨job, op, next, rfl⟩

/-- A run that a session has locked is its own. -/
theorem performing_of_lock {runId : Uuid}
    (h : .agentRun runId ∈ (holdings (deployment cfg workflow events)).held i) :
    Performing cfg (deployment cfg workflow events) i runId := by
  obtain ⟨job, op, next, hthread⟩ := busy_of_lock h
  refine ⟨job, op, next, hthread, ?_⟩
  have hpending : .agentRun runId ∈
      locksOf (Book.ofCalls ((deployment cfg workflow events).world.callsOf i)).pending := by
    rw [deployment_kept.pending i job _ hthread]
    exact h
  obtain ⟨pre, ws, r, post, hcalls, hl⟩ := exists_write hpending
  have hprog : (job.program cfg workflow i).Obeys (claimant (job.Performs cfg i) i)
      (fun _ held => held = ∅) ∅ := program_orderly job fun _ h => h
  have hjob : (Pool.spawned events)[i]? = some job := by
    rw [← deployment_job cfg workflow, hthread]
    rfl
  have hok := ok_of_call (f := fun held x => holding held x.1 x.2) claimant_next hprog hjob hcalls
  exact hok.2.1 runId hl

/-- A run that a session asks for is its own. -/
theorem performing_of_asked {runId : Uuid}
    (h : .agentRun runId ∈ (holdings (deployment cfg workflow events)).asked i) :
    Performing cfg (deployment cfg workflow events) i runId := by
  obtain ⟨job, ws, next, hthread, hl⟩ := write_of_asked h
  exact ⟨job, _, next, hthread, (session_orderly hthread).1.2.1 runId hl⟩

theorem deployment_ordered : (holdings (deployment cfg workflow events)).Ordered Lock.rank
    {l | l.isRun = true} := by
  refine ⟨fun hi hj => deployment_tidy.apart.exclusive hi hj, fun i l hl => ?_⟩
  obtain ⟨job, ws, next, hthread, hlock⟩ := write_of_asked hl
  exact (session_orderly hthread).1.2.2 l hlock

/-- Sessions that all wait for one another have two among them that perform the same run. -/
theorem performing_of_deadlock {D : Finset Nat}
    (hD : (holdings (deployment cfg workflow events)).Deadlock D) :
    ∃ i ∈ D, ∃ j ∈ D, i ≠ j ∧ ∃ runId,
      Performing cfg (deployment cfg workflow events) i runId ∧
        Performing cfg (deployment cfg workflow events) j runId ∧
          .agentRun runId ∈ (holdings (deployment cfg workflow events)).asked i ∧
            .agentRun runId ∈ (holdings (deployment cfg workflow events)).held j := by
  obtain ⟨i, hi, j, hj, hne, l, hrun, hasked, hheld⟩ := deployment_ordered.deadlock hD
  cases l with
  | agentRun runId =>
    exact ⟨i, hi, j, hj, hne, runId, performing_of_asked hasked, performing_of_lock hheld, hasked,
      hheld⟩
  | _ => cases hrun

/-- A session that cannot make its call waits for another one that has something left to do. -/
theorem waits_of_none {op : Op S} {next : Res op → Program (Op S) Res Outcome}
    (hthread : (deployment cfg workflow events).threads[i]? = some (job, some (.call op next)))
    (hexec : (deployment cfg workflow events).world.exec cfg.platform i op reply = none) :
    ∃ j, (holdings (deployment cfg workflow events)).Waits i j ∧ ∃ job' op' next',
      (deployment cfg workflow events).threads[j]? = some (job', some (.call op' next')) := by
  obtain ⟨ws, rfl, hwaits⟩ := World.blocked_of_none hexec
  have hown : World.ownIds i ws = true := (session_orderly hthread).1.1
  have hblocked := hwaits.resolve_right (by rw [hown]; exact Bool.noConfusion)
  obtain ⟨t, ht, hne, l, hasked, hheld⟩ := World.blocked_iff.mp hblocked
  have hholds : l ∈ (holdings (deployment cfg workflow events)).held t.session := by
    change l ∈ locksOf ((deployment cfg workflow events).world.writesOf t.session)
    rw [World.writesOf_of_mem deployment_tidy.apart.single ht]
    exact hheld
  have hasks : l ∈ (holdings (deployment cfg workflow events)).asked i := by
    simp only [holdings, statements, hthread]
    exact hasked
  exact ⟨t.session, ⟨Ne.symm hne, l, hasks, hholds⟩, busy_of_lock hholds⟩

/-- Where not every session is at rest and no two perform the same run, one can go on. -/
theorem deployment_moves
    (hruns : ∀ i j runId, Performing cfg (deployment cfg workflow events) i runId →
      Performing cfg (deployment cfg workflow events) j runId → i = j)
    (hrest : (deployment cfg workflow events).resting = false) :
    (deployment cfg workflow events).Moves (server cfg.platform) := by
  by_contra hstuck
  have hnone : ∀ i job op next,
      (deployment cfg workflow events).threads[i]? = some (job, some (.call op next)) →
        ∃ reply, (deployment cfg workflow events).world.exec cfg.platform i op reply = none := by
    intro i job op next hthread
    by_contra hmoves
    push Not at hmoves
    exact hstuck ⟨i, job, op, next, hthread, hmoves⟩
  classical
  let D := (Finset.range (deployment cfg workflow events).threads.length).filter fun i =>
    ∃ job op next, (deployment cfg workflow events).threads[i]? = some (job, some (.call op next))
  have hmem : ∀ i, i ∈ D ↔ ∃ job op next,
      (deployment cfg workflow events).threads[i]? = some (job, some (.call op next)) := by
    intro i
    refine Finset.mem_filter.trans ⟨fun h => h.2, fun h => ⟨?_, h⟩⟩
    obtain ⟨job, op, next, hthread⟩ := h
    exact Finset.mem_range.mpr (List.getElem?_eq_some_iff.mp hthread).1
  have hD : (holdings (deployment cfg workflow events)).Deadlock D := by
    refine ⟨?_, fun i hi => ?_⟩
    · rw [Pool.resting, List.all_eq_false] at hrest
      obtain ⟨⟨job, p⟩, hp, hcall⟩ := hrest
      obtain ⟨i, hi⟩ := List.mem_iff_getElem?.mp hp
      rcases p with _ | a | ⟨op, next⟩
      · exact absurd rfl hcall
      · exact absurd rfl hcall
      · exact ⟨i, (hmem i).mpr ⟨job, op, next, hi⟩⟩
    · obtain ⟨job, op, next, hthread⟩ := (hmem i).mp hi
      obtain ⟨reply, hexec⟩ := hnone i job op next hthread
      obtain ⟨j, hwaits, hbusy⟩ := waits_of_none hthread hexec
      exact ⟨j, (hmem j).mpr hbusy, hwaits⟩
  obtain ⟨i, -, j, -, hne, runId, hi, hj, -, -⟩ := performing_of_deadlock hD
  exact hne (hruns i j runId hi hj)

/-- The event starts a session, or neither cuts off one of these nor makes its call fail. -/
def LetsBe (D : Finset Nat) : Event Job (Reply S) → Prop
  | .spawn _ => True
  | .step i reply => i ∈ D → reply.fault = none
  | .kill i => i ∉ D

omit [Field S] [LinearOrder S] [FloorRing S] in
theorem stuck_of_waits {J α : Type} {prog : J → Nat → Program (Op S) Res α}
    {s : Pool J (Op S) Res α (World S)} {j : Nat} (h : (holdings s).Waits i j)
    (hfault : reply.fault = none) : s.next (server P) prog (.step i reply) = s := by
  obtain ⟨hne, l, hasked, hheld⟩ := h
  obtain ⟨job, ws, next, hthread, hl⟩ := write_of_asked hasked
  obtain ⟨t, ht, rfl, hlock⟩ := World.mem_txs_of_lock hheld
  have hblocked : s.world.blocked i ws = true :=
    World.blocked_iff.mpr ⟨t, ht, Ne.symm hne, l, hl, hlock⟩
  have hnone : (server P).exec i (.write ws) reply s.world = none :=
    World.none_of_blocked hblocked hfault
  simp only [Pool.next, Pool.move, hthread, hnone]

omit [Field S] [LinearOrder S] [FloorRing S] in
/-- Sessions that wait for one another go on waiting. -/
theorem deadlock_next {prog : Job → Nat → Program (Op S) Res Outcome}
    {s : Pool Job (Op S) Res Outcome (World S)} {D : Finset Nat} {e : Event Job (Reply S)}
    (hD : (holdings s).Deadlock D) (he : LetsBe D e) :
    (holdings (s.next (server P) prog e)).Deadlock D := by
  have hkept : ∀ {t : Pool Job (Op S) Res Outcome (World S)},
      (∀ i ∈ D, t.threads[i]? = s.threads[i]? ∧ t.world.tx? i = s.world.tx? i) →
        (holdings t).Deadlock D := by
    intro t h
    refine hD.congr (fun i hi => ?_) (fun i hi => ?_)
    · simp only [holdings, World.writesOf, (h i hi).2]
    · simp only [holdings, statements, (h i hi).1]
  cases e with
  | spawn job =>
    refine hkept fun i hi => ⟨?_, rfl⟩
    obtain ⟨j, -, -, l, hasked, -⟩ := hD.2 i hi
    obtain ⟨job', ws, next, hthread, -⟩ := write_of_asked hasked
    exact List.getElem?_append_left (List.getElem?_eq_some_iff.mp hthread).1
  | step j reply =>
    by_cases hj : j ∈ D
    · obtain ⟨i, -, hwaits⟩ := hD.2 j hj
      rw [stuck_of_waits hwaits (he hj)]
      exact hD
    · rcases Pool.step_cases (server P) prog s j reply with hsame | ⟨job, op, next, r, hstep⟩
      · rw [hsame]
        exact hD
      · refine hkept fun i hi => ?_
        have hne : i ≠ j := by
          intro h
          exact hj (h ▸ hi)
        refine ⟨?_, (World.steps_of_exec hstep.exec).confined.tx i hne⟩
        rw [hstep.threads, List.getElem?_set_ne (Ne.symm hne)]
  | kill j =>
    rcases hthread : s.threads[j]? with _ | ⟨job, _ | p⟩
    · simpa only [Pool.next, hthread] using hD
    · simpa only [Pool.next, hthread] using hD
    · simp only [Pool.next, hthread]
      refine hkept fun i hi => ?_
      have hne : i ≠ j := by
        intro h
        exact he (h ▸ hi)
      exact ⟨List.getElem?_set_ne (Ne.symm hne), World.tx?_dropTx_ne hne⟩

/-- In every run sessions that all wait for one another do so until one of them is cut off or fails,
and two of them perform the same agent run. -/
theorem deployment_deadlocks (cfg : Config S) (workflow : Workflow S)
    (events later : List (Event Job (Reply S))) (D : Finset Nat)
    (hD : (holdings (deployment cfg workflow events)).Deadlock D)
    (hlater : ∀ e ∈ later, LetsBe D e) :
    (holdings (deployment cfg workflow (events ++ later))).Deadlock D ∧
      ∃ i ∈ D, ∃ j ∈ D, i ≠ j ∧ ∃ runId,
        Performing cfg (deployment cfg workflow events) i runId ∧
          Performing cfg (deployment cfg workflow events) j runId ∧
            .agentRun runId ∈ (holdings (deployment cfg workflow events)).asked i ∧
              .agentRun runId ∈ (holdings (deployment cfg workflow events)).held j := by
  refine ⟨?_, performing_of_deadlock hD⟩
  induction later using List.reverseRecOn with
  | nil =>
    rw [List.append_nil]
    exact hD
  | append_singleton later e ih =>
    have hbefore := ih fun e he => hlater e (List.mem_append_left _ he)
    rw [← List.append_assoc, deployment_snoc]
    exact deadlock_next hbefore (hlater e (by simp))

omit [Field S] [LinearOrder S] [FloorRing S] in
instance : Decidable (l ∈ locksOf ws) :=
  inferInstanceAs (Decidable (∃ x ∈ ws, x.lock? = some l))

/-- A ticket is rejected, and two workers take up its old run. Session 5 finds nothing to change in
the run and locks the ticket first; session 6 took another time and has locked the run. -/
def crossedRuns : List (Event Job (Reply ℚ)) :=
  draftedTicket ++ .spawn (.byAdmin (.reject ⟨1, 0⟩ ⟨none⟩)) :: calls 4 8 ++
    .spawn (.runAgent ⟨2, 0⟩) :: calls 5 7 ++ .step 5 { Reply.plain with now := 5000 } ::
      .spawn (.runAgent ⟨2, 0⟩) :: calls 6 3 ++ .step 6 { Reply.plain with now := 5000 } :: calls 6 2

theorem crossedRuns_deadlock :
    (holdings (deployment .plain helpfulDraft (crossedRuns ++ (calls 5 2 ++ calls 6 2)))).Deadlock
      {5, 6} ∧ ∃ i ∈ ({5, 6} : Finset Nat), ∃ j ∈ ({5, 6} : Finset Nat), i ≠ j ∧ ∃ runId,
        Performing .plain (deployment .plain helpfulDraft crossedRuns) i runId ∧
          Performing .plain (deployment .plain helpfulDraft crossedRuns) j runId ∧
            .agentRun runId ∈ (holdings (deployment .plain helpfulDraft crossedRuns)).asked i ∧
              .agentRun runId ∈ (holdings (deployment .plain helpfulDraft crossedRuns)).held j := by
  have hrun : .agentRun ⟨2, 0⟩ ∈ locksOf (statements (deployment .plain helpfulDraft crossedRuns) 5) ∧
      .agentRun ⟨2, 0⟩ ∈ locksOf ((deployment .plain helpfulDraft crossedRuns).world.writesOf 6) := by
    decide +kernel
  have hticket : .ticket ⟨1, 0⟩ ∈ locksOf (statements (deployment .plain helpfulDraft crossedRuns) 6) ∧
      .ticket ⟨1, 0⟩ ∈ locksOf ((deployment .plain helpfulDraft crossedRuns).world.writesOf 5) := by
    decide +kernel
  refine deployment_deadlocks .plain helpfulDraft crossedRuns (calls 5 2 ++ calls 6 2) {5, 6}
    ⟨⟨5, by decide⟩, fun i hi => ?_⟩ fun e he => ?_
  · rcases Finset.mem_insert.mp hi with rfl | hi
    · exact ⟨6, by decide, by decide, _, hrun⟩
    · rw [Finset.mem_singleton.mp hi]
      exact ⟨5, by decide, by decide, _, hticket⟩
  · rcases List.mem_append.mp he with he | he
    · rw [List.eq_of_mem_replicate he]
      exact fun _ => rfl
    · rw [List.eq_of_mem_replicate he]
      exact fun _ => rfl

/-- From any point of any run at which no two sessions perform the same agent run, all sessions come
to an end if they get their turns and nobody new arrives, whatever fails. -/
theorem deployment_rests (cfg : Config S) (workflow : Workflow S)
    (events : List (Event Job (Reply S))) (later : Nat → Event Job (Reply S))
    (hruns : ∀ i j runId, Performing cfg (deployment cfg workflow events) i runId →
      Performing cfg (deployment cfg workflow events) j runId → i = j)
    (hlater : ∀ n job, later n ≠ .spawn job)
    (hfair : (deployment cfg workflow events).Fair later) :
    ∃ n, (deployment cfg workflow (events ++ (List.range n).map later)).resting = true := by
  have hrests : ∃ n, (Pool.run (server cfg.platform) (Job.program cfg workflow)
      (deployment cfg workflow events) ((List.range n).map later)).resting = true := by
    refine Pool.rests_of_fair (I := fun s => (∃ events, s = deployment cfg workflow events) ∧
      ∀ i j runId, Performing cfg s i runId → Performing cfg s j runId → i = j)
      ?_ ?_ ⟨⟨events, rfl⟩, hruns⟩ hlater hfair
    · intro s e he hs
      obtain ⟨⟨events, rfl⟩, hruns⟩ := hs
      refine ⟨⟨events ++ [e], (deployment_snoc e).symm⟩, fun i j runId hi hj => ?_⟩
      have hbefore : ∀ i, Performing cfg ((deployment cfg workflow events).next (server cfg.platform)
          (Job.program cfg workflow) e) i runId →
            Performing cfg (deployment cfg workflow events) i runId := by
        intro i h
        obtain ⟨job, op, next, hthread, hperforms⟩ := h
        obtain ⟨op', next', hthread'⟩ := Pool.busy_of_next he hthread
        exact ⟨job, op', next', hthread', hperforms⟩
      exact hruns i j runId (hbefore i hi) (hbefore j hj)
    · intro s hs hrest
      obtain ⟨⟨events, rfl⟩, hruns⟩ := hs
      exact deployment_moves hruns hrest
  obtain ⟨n, hn⟩ := hrests
  refine ⟨n, ?_⟩
  rw [deployment, Pool.run, List.foldl_append]
  exact hn

/-- Session 3 performs a run and has locked its ticket, for which session 4 waits. -/
def runUnderway : List (Event Job (Reply ℚ)) :=
  registration ++ ticketCreation ++ .spawn (.byAdmin (.runWorkflow ⟨1, 0⟩)) :: calls 2 12 ++
    .spawn (.runAgent ⟨2, 0⟩) :: calls 3 7 ++
      .spawn (.byAdmin (.editDraft ⟨1, 0⟩ otherDraft)) :: calls 4 5

theorem runUnderway_rests : ∃ n, (deployment .plain helpfulDraft (runUnderway ++
    (List.range n).map fun n => .step (n % 5) .plain)).resting = true := by
  have hjobs : Pool.spawned runUnderway = [.registerAcme, .createHelp,
      .byAdmin (.runWorkflow ⟨1, 0⟩), .runAgent ⟨2, 0⟩,
      .byAdmin (.editDraft ⟨1, 0⟩ otherDraft)] := rfl
  have hthird : ∀ i runId, Performing .plain (deployment .plain helpfulDraft runUnderway) i runId →
      i = 3 := by
    intro i runId h
    obtain ⟨job, op, next, hthread, hperforms⟩ := h
    have hjob : (Pool.spawned runUnderway)[i]? = some job := by
      rw [← deployment_job .plain helpfulDraft, hthread]
      rfl
    rw [hjobs] at hjob
    rcases hperforms with rfl | ⟨heager, -, -⟩
    · rcases i with _ | _ | _ | _ | _ | i
      · cases hjob
      · cases hjob
      · cases hjob
      · rfl
      · cases hjob
      · cases hjob
    · cases heager
  have hlength : (deployment .plain helpfulDraft runUnderway).threads.length = 5 := by decide +kernel
  refine deployment_rests .plain helpfulDraft runUnderway (fun n => .step (n % 5) .plain) ?_
    (fun n job h => by cases h) ?_
  · intro i j runId hi hj
    rw [hthird i runId hi, hthird j runId hj]
  · intro i job op next hthread n
    have hi := (List.getElem?_eq_some_iff.mp hthread).1
    rw [hlength] at hi
    refine ⟨5 * n + i, .plain, by omega, ?_⟩
    have hturn : (5 * n + i) % 5 = i := by omega
    show Event.step ((5 * n + i) % 5) Reply.plain = .step i .plain
    rw [hturn]

end

end AgentDesk
