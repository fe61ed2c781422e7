import AgentDesk.Logic.Replay

namespace AgentDesk

open Framework (Observer Pool Event Program)

variable {S : Type} [Field S] [LinearOrder S] [FloorRing S] {cfg : Config S} {workflow : Workflow S}
  {events before after : List (Event Job (Reply S))} {i : Nat} {job : Job} {op : Op S} {r : Res op}

/-! The runs of the deployment, call by call -/

/-- The second run goes on from the first by one call of this session. -/
structure Advances (cfg : Config S) (workflow : Workflow S) (before after : List (Event Job (Reply S)))
    (i : Nat) (job : Job) (op : Op S) (r : Res op) : Prop where
  assigned : (Pool.spawned after)[i]? = some job
  exec : ∃ reply, (deployment cfg workflow before).world.exec cfg.platform i op reply =
    some (r, (deployment cfg workflow after).world)
  live : ∃ next, (deployment cfg workflow before).threads[i]? = some (job, some (.call op next))

/-- No session of the deployment is running. -/
def rests (s : Pool Job (Op S) Res Outcome (World S)) : Bool := s.threads.all fun x =>
  match x.2 with
  | some (.call _ _) => false
  | _ => true

omit [Field S] [LinearOrder S] [FloorRing S] in
theorem rests_thread {s : Pool Job (Op S) Res Outcome (World S)} {job : Job}
    {next : Res op → Program (Op S) Res Outcome} (h : rests s = true) :
    s.threads[i]? ≠ some (job, some (.call op next)) := by
  intro hthread
  have hall := List.all_eq_true.mp h _ (List.mem_of_getElem? hthread)
  cases hall

/-- A step makes a call, or the session has to wait or is no more. -/
theorem deployment_step {cond : Nat → World S → (op : Op S) → Res op → World S → Prop} {reply : Reply S}
    (hm : Pool.StepMeets (server cfg.platform) cond (deployment cfg workflow events)
      (.step i reply : Event Job (Reply S))) :
    (deployment cfg workflow (events ++ [.step i reply])).world =
      (deployment cfg workflow events).world ∨
    ∃ job op r, Advances cfg workflow events (events ++ [.step i reply]) i job op r ∧
      cond i (deployment cfg workflow events).world op r
        (deployment cfg workflow (events ++ [.step i reply])).world := by
  have hrun : deployment cfg workflow (events ++ [.step i reply]) =
      (deployment cfg workflow events).next (server cfg.platform) (Job.program cfg workflow)
        (.step i reply) := List.foldl_append
  rcases Pool.step_cases (server cfg.platform) (Job.program cfg workflow)
    (deployment cfg workflow events) i reply with hsame | ⟨job, op, next, r, hstep⟩
  · left
    rw [hrun, hsame]
  · have hassigned : (Pool.spawned (events ++ [.step i reply]))[i]? = some job := by
      rw [← deployment_job cfg workflow, hrun, hstep.threads]
      have hlen := (List.getElem?_eq_some_iff.mp hstep.thread).1
      simp [hlen]
    have hcond := hm job op next hstep.thread r _ hstep.exec
    rw [← hrun] at hcond hstep
    exact Or.inr ⟨job, op, r, ⟨hassigned, ⟨reply, hstep.exec⟩, next, hstep.thread⟩, hcond⟩

/-- What holds at the start and is kept by every call, and by the end of a session that is not busy,
holds in every run whose steps meet the condition and that cuts no busy session off. -/
theorem deployment_induction_sparing
    {cond : Nat → World S → (op : Op S) → Res op → World S → Prop} {busy : Nat → World S → Prop}
    {I : World S → Prop} (hinit : I .init)
    (hcall : ∀ {before after : List (Event Job (Reply S))} {i job op r},
      Advances cfg workflow before after i job op r →
      cond i (deployment cfg workflow before).world op r (deployment cfg workflow after).world →
        I (deployment cfg workflow before).world → I (deployment cfg workflow after).world)
    (hcut : ∀ {w c}, ¬busy c w → I w → I (w.dropTx c))
    (hm : Pool.Meets (server cfg.platform) (Job.program cfg workflow) cond ⟨.init, []⟩ events)
    (hs : Pool.Spares (server cfg.platform) (Job.program cfg workflow) busy ⟨.init, []⟩ events) :
    I (deployment cfg workflow events).world := by
  induction events using List.reverseRecOn with
  | nil => exact hinit
  | append_singleton es e ih =>
    obtain ⟨hrest, hlast⟩ := Pool.meets_snoc.mp hm
    obtain ⟨hspared, hidle⟩ := Pool.spares_snoc.mp hs
    have hI := ih hrest hspared
    have hrun : deployment cfg workflow (es ++ [e]) =
        (deployment cfg workflow es).next (server cfg.platform) (Job.program cfg workflow) e :=
      List.foldl_append
    cases e with
    | spawn job =>
      rw [hrun]
      exact hI
    | step i reply =>
      rcases deployment_step hlast with hsame | ⟨job, op, r, hadvances, hcond⟩
      · rw [hsame]
        exact hI
      · exact hcall hadvances hcond hI
    | kill i =>
      rw [hrun]
      rcases hi : (deployment cfg workflow es).threads[i]? with _ | ⟨job, _ | p⟩
      · simpa only [Pool.next, hi] using hI
      · simpa only [Pool.next, hi] using hI
      · simp only [Pool.next, hi]
        exact hcut (hidle job p hi) hI

/-- The same when any session may be cut off at any time. -/
theorem deployment_induction {cond : Nat → World S → (op : Op S) → Res op → World S → Prop}
    {I : World S → Prop} (hinit : I .init)
    (hcall : ∀ {before after : List (Event Job (Reply S))} {i job op r},
      Advances cfg workflow before after i job op r →
      cond i (deployment cfg workflow before).world op r (deployment cfg workflow after).world →
        I (deployment cfg workflow before).world → I (deployment cfg workflow after).world)
    (hcut : ∀ {w c}, I w → I (w.dropTx c))
    (hm : Pool.Meets (server cfg.platform) (Job.program cfg workflow) cond ⟨.init, []⟩ events) :
    I (deployment cfg workflow events).world := by
  have hs : Pool.Spares (server cfg.platform) (Job.program cfg workflow) (fun _ _ => False)
      ⟨.init, []⟩ events := Pool.spares_of_forall (fun _ _ h => h) events
  exact deployment_induction_sparing hinit hcall (fun _ => hcut) hm hs

/-- What only the calls of a session make it busy with, a session that was cut off is not busy with, if
no busy session is cut off. -/
theorem idle_of_cut {busy : Nat → World S → Prop}
    (hcall : ∀ {w w' : World S} {c d : Nat} {op : Op S} {r : Res op}, d ≠ c →
      w'.calls = w.calls ++ [⟨c, op, r⟩] → busy d w' → busy d w)
    (hdrop : ∀ {w : World S} {c d : Nat}, busy d (w.dropTx c) → busy d w)
    (hs : Pool.Spares (server cfg.platform) (Job.program cfg workflow) busy ⟨.init, []⟩ events)
    (hthread : (deployment cfg workflow events).threads[i]? = some (job, none)) :
    ¬busy i (deployment cfg workflow events).world := by
  induction events using List.reverseRecOn generalizing job with
  | nil => cases hthread
  | append_singleton es e ih =>
    obtain ⟨hspared, hidle⟩ := Pool.spares_snoc.mp hs
    have hrun : deployment cfg workflow (es ++ [e]) =
        (deployment cfg workflow es).next (server cfg.platform) (Job.program cfg workflow) e :=
      List.foldl_append
    rw [hrun] at hthread ⊢
    cases e with
    | spawn job' =>
      simp only [Pool.next, List.getElem?_append] at hthread
      split at hthread
      · exact ih hspared hthread
      · have hmem := List.mem_of_getElem? hthread
        cases List.mem_singleton.mp hmem
    | step j reply =>
      rcases Pool.step_cases (server cfg.platform) (Job.program cfg workflow)
        (deployment cfg workflow es) j reply with hsame | ⟨job', op, next, r, hstep⟩
      · rw [hsame] at hthread ⊢
        exact ih hspared hthread
      · rw [hstep.threads, List.getElem?_set] at hthread
        by_cases hij : j = i
        · rw [if_pos hij] at hthread
          split at hthread <;> cases hthread
        · rw [if_neg hij] at hthread
          have hcalls := (World.steps_of_exec hstep.exec).calls
          exact fun hbusy => ih hspared hthread (hcall (Ne.symm hij) hcalls hbusy)
    | kill j =>
      rcases hj : (deployment cfg workflow es).threads[j]? with _ | ⟨job', _ | p⟩
      · simp only [Pool.next, hj] at hthread ⊢
        exact ih hspared hthread
      · simp only [Pool.next, hj] at hthread ⊢
        exact ih hspared hthread
      · simp only [Pool.next, hj, List.getElem?_set] at hthread ⊢
        by_cases hij : j = i
        · subst hij
          exact fun hbusy => hidle job' p hj (hdrop hbusy)
        · rw [if_neg hij] at hthread
          exact fun hbusy => ih hspared hthread (hdrop hbusy)

namespace Advances

variable (h : Advances cfg workflow before after i job op r)
include h

theorem steps : (deployment cfg workflow before).world.Steps i op r
    (deployment cfg workflow after).world := by
  obtain ⟨reply, hexec⟩ := h.exec
  exact World.steps_of_exec hexec

theorem callsOf : (deployment cfg workflow after).world.callsOf i =
    (deployment cfg workflow before).world.callsOf i ++ [⟨op, r⟩] :=
  World.callsOf_own h.steps.calls

theorem callsOf_ne {j : Nat} (hj : j ≠ i) : (deployment cfg workflow after).world.callsOf j =
    (deployment cfg workflow before).world.callsOf j :=
  World.callsOf_other h.steps.calls hj

/-- The call met the demands of every observer that its program obeys. -/
theorem ok {St : Type} {O : Observer (Op S) Res St} {f : St → Made S → St}
    {Q : Outcome → St → Prop} {s₀ : St}
    (hnext : ∀ s op r, Ledger.Fits op r → O.next s op r (f s ⟨op, r⟩))
    (hprog : (job.program cfg workflow i).Obeys O Q s₀) :
    O.ok (((deployment cfg workflow before).world.callsOf i).foldl f s₀) op :=
  ok_of_call hnext hprog h.assigned h.callsOf

theorem pending : (Book.ofCalls ((deployment cfg workflow before).world.callsOf i)).pending =
    (deployment cfg workflow before).world.writesOf i := by
  obtain ⟨next, hlive⟩ := h.live
  exact deployment_kept.pending i job _ hlive

end Advances

omit [Field S] [LinearOrder S] [FloorRing S] in
/-- What a session has pending is what its ledger says. -/
theorem Book.pending_ledger (cs : List (Made S)) : (Book.ofCalls cs).pending =
    (cs.foldl (fun s x => Ledger.after s x.1 x.2) Ledger.start).writes := by
  have hnote : ∀ (b : Book S) (s : Ledger S) (op : Op S) (r : Res op), b.pending = s.writes →
      (b.note ⟨op, r⟩).pending = (s.after op r).writes := by
    intro b s op r h
    cases op with
    | query q =>
      cases r with
      | error e => simp [Book.note]
      | ok r => cases q <;> first | exact h | (cases r <;> exact h)
    | write ws => cases r <;> simp [Book.note, h]
    | commit => cases r <;> simp [Book.note]
    | rollback => cases r <;> simp [Book.note]
    | close => simp [Book.note]
    | _ => exact h
  induction cs using List.reverseRecOn with
  | nil => rfl
  | append_singleton cs x ih =>
    rw [Book.ofCalls_snoc, List.foldl_append]
    exact hnote _ _ _ _ ih

/-- The statements that a session commits are warranted. -/
theorem Advances.warranted {r : Res (.commit : Op S)}
    (h : Advances cfg workflow before after i job .commit r) :
    ∃ s : Ledger S, s.writes =
      (Book.ofCalls ((deployment cfg workflow before).world.callsOf i)).pending ∧
        ∀ x ∈ s.writes, s.Warrants cfg job i x := by
  have hok := h.ok (O := Ledger.observer cfg job i) (f := fun s x => s.after x.1 x.2)
    (fun _ _ _ hfits => ⟨hfits, rfl⟩) (Job.program_obeys workflow job i)
  exact ⟨_, (Book.pending_ledger _).symm, hok⟩

/-- Only a commit changes what is committed: it applies the statements that were pending, and they
are a deed of the session. -/
theorem Advances.history (h : Advances cfg workflow before after i job op r) :
    (deployment cfg workflow before).world.Quiet (deployment cfg workflow after).world ∨
      op = .commit ∧ ∃ tx s, (deployment cfg workflow before).world.Commits i tx
        (deployment cfg workflow after).world ∧ Deed cfg workflow s tx.writes ∧
          (Book.ofCalls ((deployment cfg workflow before).world.callsOf i)).pending = tx.writes := by
  rcases h.steps.history with hquiet | ⟨rfl, tx, hcommits⟩
  · exact Or.inl hquiet
  · have hpending : (Book.ofCalls ((deployment cfg workflow before).world.callsOf i)).pending =
        tx.writes := by
      rw [h.pending, World.writesOf, hcommits.open_]
      rfl
    have hok := h.ok (f := fun s x => s.after x.1 x.2)
      (fun _ _ _ hfits => Journal.observer_next.mpr ⟨hfits, rfl⟩)
      (Job.program_journaled cfg workflow job i)
    rw [Journal.observer_commit, ← Book.pending_ofCalls, hpending] at hok
    exact Or.inr ⟨rfl, tx, _, hcommits, hok.resolve_left hcommits.some, hpending⟩

theorem Advances.committed_ok {tx : Tx S} {r : Res (.commit : Op S)}
    (h : Advances cfg workflow before after i job .commit r)
    (hcommits : (deployment cfg workflow before).world.Commits i tx
      (deployment cfg workflow after).world) : r = .ok () := by
  obtain ⟨reply, hexec⟩ := h.exec
  cases r with
  | ok u => rfl
  | error e =>
    have hlen := congrArg List.length hcommits.commits
    cases hfault : reply.fault with
    | none => simp [World.exec, World.effect, hfault] at hexec
    | some e' =>
      simp only [World.exec, World.effect, hfault, Option.map_some, Option.some.injEq,
        Prod.mk.injEq] at hexec
      rw [← hexec.2] at hlen
      simp [World.log, World.dropTx] at hlen

/-- A commit that returns and leaves the history as it is had nothing to commit. -/
theorem Advances.idle_of_quiet {r : Res (.commit : Op S)}
    (h : Advances cfg workflow before after i job .commit r) (hok : r = .ok ())
    (hquiet : (deployment cfg workflow before).world.Quiet (deployment cfg workflow after).world) :
    (Book.ofCalls ((deployment cfg workflow before).world.callsOf i)).pending = [] := by
  subst hok
  obtain ⟨reply, hexec⟩ := h.exec
  have hcommitted := (World.writesOf_exec hexec h.pending).2
  rw [hquiet.commits, List.drop_length, List.map_nil, List.append_nil, Book.note] at hcommitted
  by_contra hsome
  rw [List.isEmpty_eq_false_iff.mpr hsome] at hcommitted
  have hlength := congrArg List.length hcommitted
  simp at hlength

/-- A session reads while it has written nothing, so it reads what is committed. -/
theorem Advances.answer {q : Query S} {r : q.Result}
    (h : Advances cfg workflow before after i job (.query q) (.ok r)) :
    (deployment cfg workflow before).world.writesOf i = [] ∧
      ∃ choice, r = q.eval cfg.platform choice (deployment cfg workflow before).world.db := by
  have hidle : (deployment cfg workflow before).world.writesOf i = [] := by
    have hok := h.ok (f := fun s x => s.after x.1 x.2)
      (fun _ _ _ hfits => Journal.observer_next.mpr ⟨hfits, rfl⟩)
      (Job.program_journaled cfg workflow job i)
    rw [← h.pending, Book.pending_ofCalls]
    exact hok
  obtain ⟨reply, hexec⟩ := h.exec
  obtain ⟨-, -, hanswer⟩ := World.query_exec hidle hexec
  exact ⟨hidle, hanswer r rfl⟩

end AgentDesk
