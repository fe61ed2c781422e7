import AgentDesk.Framework.Serial
import AgentDesk.Logic.Lenience
import AgentDesk.Logic.Outcomes

namespace AgentDesk

open Framework (Pool Event Program Table Serial serially)

variable {S α : Type} {cfg : Config S} {workflow : Workflow S} {σ : Session S} {cs : List (Made S)}

/-! What an execution commits once it has rolled back -/

def RolledBack (cs : List (Made S)) : Prop := ∃ x ∈ cs, x.1.rollsBack = true

/-- The statement marks a run as failed and leaves its result alone. -/
def Write.Fails : Write S → Prop
  | .updateAgentRun _ p =>
    (p.status = none ∨ p.status = some .failed) ∧ p.draft = none ∧ p.outcome = none ∧
      p.confidence = none
  | _ => False

/-- After a rollback the transaction that is open only marks runs as failed. -/
def FailsOnly (cs : List (Made S)) : Prop :=
  RolledBack cs → ∀ x ∈ (Book.ofCalls cs).pending, x.Fails

theorem rolledBack_snoc {x : Made S} (hx : x.1.rollsBack = false) :
    RolledBack (cs ++ [x]) ↔ RolledBack cs := by
  constructor
  · rintro ⟨y, hy, hback⟩
    rcases List.mem_append.mp hy with hy | hy
    · exact ⟨y, hy, hback⟩
    · rw [List.mem_singleton.mp hy, hx] at hback
      cases hback
  · rintro ⟨y, hy, hback⟩
    exact ⟨y, List.mem_append_left _ hy, hback⟩

theorem Reading.rolledBack {cs' : List (Made S)} (h : Reading cs cs') :
    RolledBack cs' ↔ RolledBack cs := by
  induction h with
  | refl => rfl
  | snoc _ _ _ hback ih => rw [rolledBack_snoc hback, ih]

theorem routine_straight : Routine FailsOnly fun (_ : Session S) cs => ¬RolledBack cs where
  same h _ _ _ := h
  read h hread := by rwa [hread.rolledBack]
  plain h _ := h
  write h := by rwa [rolledBack_snoc rfl]
  send h _ := ⟨fun hback => absurd hback h, by rwa [rolledBack_snoc rfl]⟩

theorem aloof_straight : Aloof fun (_ : Session S) cs => ¬RolledBack cs where
  deliveries _ h := h
  delivery _ h := h
  post _ _ _ _ h := by rwa [rolledBack_snoc rfl]

theorem lenient_straight : Lenient fun (_ : Session S) cs => ¬RolledBack cs where
  runs _ h := h
  row _ _ h := h

theorem dirtyAgentRun_fails {r : AgentRun} {exc : Err} {finished : Time} {x : Write S}
    (h : dirtyAgentRun ⟨r, AgentRunPatch.apply
      { status := some .failed, error := some (some exc.str), finishedAt := some (some finished) }
      r⟩ = some x) : x.Fails := by
  rcases @dirtyAgentRun_cases S r (AgentRunPatch.apply
    { status := some .failed, error := some (some exc.str), finishedAt := some (some finished) }
    r) with hd | hd
  · rw [hd] at h
    cases h
  · rw [hd] at h
    cases h
    refine ⟨?_, changed_self _, changed_self _, changed_self _⟩
    by_cases hstatus : r.status = .failed
    · exact Or.inl (if_pos hstatus)
    · exact Or.inr (if_neg hstatus)

/-- What is recorded of an exception is that the run failed, and the exception goes on. -/
theorem recordFailure_fails (runId : Uuid) (exc : Err) (σ : Session S) (cs : List (Made S)) :
    (AgentRunService.recordFailure runId exc : M S α).Triple (atCommit FailsOnly)
      (fun _ _ _ => False) (fun _ _ _ => True) σ cs := by
  unfold AgentRunService.recordFailure
  rw [M.triple_bind, triple_rollback]
  refine ⟨trivial, fun _ _ _ => trivial, ?_⟩
  rintro u cs₁ ⟨-, rfl⟩
  rw [M.triple_bind, triple_getAgentRun]
  refine ⟨fun o ho => absurd ho (by simp [Session.agentRun?, Session.expired]),
    fun _ => ⟨trivial, fun _ _ _ => trivial, fun _ _ => trivial, ?_⟩⟩
  rintro r cs₂ ⟨hid, rfl⟩
  change r.id = runId at hid
  subst hid
  rw [M.triple_bind, triple_clock]
  refine ⟨trivial, ?_⟩
  rintro finished cs₃ ⟨-, rfl⟩
  rw [M.triple_bind, triple_setAgentRun]
  have hclosed : (Book.ofCalls (cs ++ [⟨.rollback, .ok u⟩] ++
      [⟨.query (.agentRun r.id), .ok (some r)⟩] ++ [⟨.clock, finished⟩])).pending = [] := by
    simp only [Book.ofCalls_snoc, Book.note]
  simp only [List.append_assoc, List.cons_append, List.nil_append] at hclosed
  simp [commit, Session.expired, Session.putAgentRun]
  rcases hd : @dirtyAgentRun S ⟨r, AgentRunPatch.apply
    { status := some .failed, error := some (some exc.str), finishedAt := some (some finished) }
    r⟩ with _ | x
  · intro _ x hx
    rw [hclosed] at hx
    cases hx
  · refine ⟨trivial, fun _ _ _ => trivial, ?_⟩
    rintro cs₄ ⟨-, rfl⟩ - y hy
    rw [Book.ofCalls_snoc, Book.note, hclosed, List.nil_append] at hy
    rw [List.mem_singleton.mp hy]
    exact dirtyAgentRun_fails hd

/-- No session commits anything else after a rollback. -/
theorem Job.program_failsOnly [Field S] [LinearOrder S] [FloorRing S] (cfg : Config S)
    (workflow : Workflow S) (job : Job) (c : Nat) :
    (job.program cfg workflow c).Obeys (atCommit FailsOnly) (fun _ _ => True) [] := by
  have hstart : ¬RolledBack ([] : List (Made S)) := fun h => by
    obtain ⟨x, hx, -⟩ := h
    cases hx
  refine lenient_straight.program routine_straight
    (enqueueForTicket_keeps routine_straight aloof_straight) ?_ ?_ (fun _ => hstart) job c
  · intro runId exc σ cs
    exact M.triple_mono (recordFailure_fails runId exc σ cs) (fun _ _ _ h => h.elim)
      (fun _ _ _ h => h)
  · intro deliveryId c
    exact (deliverOnce_keeps routine_straight aloof_straight deliveryId true).complies hstart

/-! What an execution has read -/

/-- The call reads the run. -/
def Op.readsRun (runId : Uuid) : Op S → Bool
  | .query (.agentRun id) => id == runId
  | _ => false

/-- A worker has read the run before it commits anything. -/
theorem runAgent_reads [Field S] [LinearOrder S] [FloorRing S] (cfg : Config S)
    (workflow : Workflow S) (runId : Uuid) (c : Nat) :
    ((Job.runAgent runId).program cfg workflow c).Obeys
      (atCommit fun cs => ∃ x ∈ cs, x.1.readsRun runId = true) (fun _ _ => True) [] := by
  have hlater : ∀ {β : Type} (p : Program (Op S) Res β) {cs : List (Made S)},
      (∃ x ∈ cs, x.1.readsRun runId = true) →
        p.Obeys (atCommit fun cs => ∃ x ∈ cs, x.1.readsRun runId = true) (fun _ _ => True) cs := by
    intro β p cs hread
    refine Program.obeys_mono (Program.obeys_invariant
      (I := fun cs => ∃ x ∈ cs, x.1.readsRun runId = true) ?_ p hread) fun _ _ _ => trivial
    intro cs op hread
    refine ⟨by cases op <;> first | exact hread | trivial, ?_⟩
    rintro r _ ⟨-, rfl⟩
    obtain ⟨x, hx, hruns⟩ := hread
    exact ⟨x, List.mem_append_left _ hx, hruns⟩
  have hfirst : ∃ next : Res (.query (.agentRun runId) : Op S) → Program (Op S) Res Outcome,
      (Job.runAgent runId).program cfg workflow c = .call (.query (.agentRun runId)) next := ⟨_, rfl⟩
  obtain ⟨next, hprogram⟩ := hfirst
  rw [hprogram]
  refine ⟨trivial, ?_⟩
  rintro r cs' ⟨-, rfl⟩
  exact hlater (next r) ⟨_, List.mem_append_right _ (List.mem_singleton_self _), beq_self_eq_true _⟩

/-! The runs of the deployment -/

/-- What a finished run stands for. -/
def AgentRun.result (r : AgentRun) :
    AgentRunStatus × Option String × Option AgentRunOutcome × Option ℚ :=
  (r.status, r.draft, r.outcome, r.confidence)

/-- The transaction that the session has open changes the run, or the session has read the run and
changes a ticket or its history. -/
def World.settlesRun (w : World S) (c : Nat) (runId : Uuid) : Bool :=
  (w.writesOf c).any fun x => (x.runPatch runId).isSome ||
    x.isHistory && w.calls.any fun y => y.session == c && y.op.readsRun runId

def World.rolledBack (w : World S) (c : Nat) : Bool :=
  w.calls.any fun x => x.session == c && x.op.rollsBack

/-- Such a transaction is committed while the run is running, or after a rollback when it has
failed. -/
def SettlesOnce (runId : Uuid) (c : Nat) (w : World S) (op : Op S) (r : Res op) (_ : World S) : Prop :=
  op.commits r = true → w.settlesRun c runId = true → ∀ run ∈ w.db.agentRuns.find? runId,
    run.status = .running ∨ run.status = .failed ∧ w.rolledBack c = true

instance (runId : Uuid) (c : Nat) (w : World S) (op : Op S) (r : Res op) (w' : World S) :
    Decidable (SettlesOnce runId c w op r w') := by
  unfold SettlesOnce
  infer_instance

theorem patched_fails {ps : List AgentRunPatch}
    (hps : ∀ p ∈ ps, (p.status = none ∨ p.status = some .failed) ∧ p.draft = none ∧
      p.outcome = none ∧ p.confidence = none) {r : AgentRun} (hr : r.status = .failed) :
    (r.patched ps).result = r.result := by
  induction ps generalizing r with
  | nil => rfl
  | cons p ps ih =>
    obtain ⟨hstatus, hdraft, houtcome, hconfidence⟩ := hps p List.mem_cons_self
    have hfailed : (p.apply r).status = .failed := by
      rcases hstatus with hp | hp <;> simp [AgentRunPatch.apply, hp, hr]
    have hrest := ih (fun p' hp' => hps p' (List.mem_cons_of_mem p hp')) hfailed
    have hfirst : (p.apply r).result = r.result := by
      rw [AgentRun.result, hfailed, ← hr]
      simp [AgentRun.result, AgentRunPatch.apply, hdraft, houtcome, hconfidence]
    exact hrest.trans hfirst

section

variable [Field S] [LinearOrder S] [FloorRing S] {before after : List (Event Job (Reply S))}
  {i : Nat} {job : Job} {runId : Uuid} {run : AgentRun}

/-- Whatever settles a run that is finished is the record of a failure. -/
theorem Advances.fails {tx : Tx S} {r : Res (.commit : Op S)}
    (h : Advances cfg workflow before after i job .commit r)
    (hcond : SettlesOnce runId i (deployment cfg workflow before).world .commit r
      (deployment cfg workflow after).world)
    (hcommits : (deployment cfg workflow before).world.Commits i tx
      (deployment cfg workflow after).world)
    (hrun : (deployment cfg workflow before).world.db.agentRuns.find? runId = some run)
    (hdone : run.status ≠ .running)
    (hsettles : (deployment cfg workflow before).world.settlesRun i runId = true) :
    run.status = .failed ∧ ∀ x ∈ tx.writes, x.Fails := by
  have hok := h.committed_ok hcommits
  subst hok
  rcases hcond rfl hsettles run hrun with hrunning | ⟨hfailed, hback⟩
  · exact absurd hrunning hdone
  · refine ⟨hfailed, ?_⟩
    have hfails := h.ok (O := atCommit FailsOnly) (f := fun cs x => cs ++ [x])
      (fun _ _ _ hfits => ⟨hfits, rfl⟩) (Job.program_failsOnly cfg workflow job i)
    rw [Framework.foldl_snoc, List.nil_append] at hfails
    have hrolled : RolledBack ((deployment cfg workflow before).world.callsOf i) := by
      obtain ⟨x, hx, hback⟩ := List.any_eq_true.mp hback
      rw [Bool.and_eq_true] at hback
      exact ⟨⟨x.op, x.result⟩, List.mem_map.mpr ⟨x, List.mem_filter.mpr ⟨hx, hback.1⟩, rfl⟩, hback.2⟩
    have hpending : (Book.ofCalls ((deployment cfg workflow before).world.callsOf i)).pending =
        tx.writes := by
      rw [h.pending, World.writesOf, hcommits.open_]
      rfl
    rw [← hpending]
    exact hfails hrolled

/-- A finished run keeps its result. -/
theorem Advances.result_kept {op : Op S} {r : Res op}
    (h : Advances cfg workflow before after i job op r)
    (hcond : SettlesOnce runId i (deployment cfg workflow before).world op r
      (deployment cfg workflow after).world)
    (hrun : (deployment cfg workflow before).world.db.agentRuns.find? runId = some run)
    (hdone : run.status ≠ .running) :
    ∃ run', (deployment cfg workflow after).world.db.agentRuns.find? runId = some run' ∧
      run'.result = run.result := by
  rcases h.history with hquiet | ⟨rfl, tx, s, hcommits, hdeed, hpending⟩
  · exact ⟨run, by rw [hquiet.db]; exact hrun, rfl⟩
  · have habsent := (deployment_kept.sane.sound i tx hcommits.open_).2
    have hid : run.id = runId := Table.key_of_find? hrun
    subst hid
    have hmem := Table.mem_of_find? hrun
    rw [hcommits.db]
    by_cases hnone : ∀ id p, .updateAgentRun id p ∉ tx.writes
    · refine ⟨run, Table.find?_of_mem ?_, rfl⟩
      rw [agentRuns_applyAll_new habsent hnone]
      exact List.mem_append_left _ hmem
    · simp only [not_forall, not_not] at hnone
      obtain ⟨id, p, hp⟩ := hnone
      have hfind : (applyAll tx.start (deployment cfg workflow before).world.db
          tx.writes).agentRuns.find? run.id =
            some (run.patched (tx.writes.filterMap (Write.runPatch run.id))) := by
        have hmem' : run.patched (tx.writes.filterMap (Write.runPatch run.id)) ∈
            (applyAll tx.start (deployment cfg workflow before).world.db tx.writes).agentRuns.rows := by
          rw [agentRuns_applyAll (hdeed.runs_apart hp)]
          exact List.mem_map_of_mem hmem
        have hkey := Table.find?_of_mem hmem'
        rwa [show Framework.Keyed.key (run.patched (tx.writes.filterMap (Write.runPatch run.id))) =
          run.id from patched_id _ _] at hkey
      refine ⟨_, hfind, ?_⟩
      cases hps : tx.writes.filterMap (Write.runPatch run.id) with
      | nil => rfl
      | cons p' ps =>
        have hsettles : (deployment cfg workflow before).world.settlesRun i run.id = true := by
          have hp' : p' ∈ tx.writes.filterMap (Write.runPatch run.id) := by
            rw [hps]
            exact List.mem_cons_self
          obtain ⟨x, hx, hpatch⟩ := List.mem_filterMap.mp hp'
          rw [World.settlesRun, ← h.pending, hpending]
          exact List.any_eq_true.mpr ⟨x, hx, by rw [hpatch]; rfl⟩
        obtain ⟨hfailed, hfails⟩ := h.fails hcond hcommits hrun hdone hsettles
        rw [← hps]
        refine patched_fails (fun p hp => ?_) hfailed
        exact hfails _ (mem_runPatches.mp hp)

/-- An execution of a finished run changes neither tickets nor their history. -/
theorem Advances.history_kept {op : Op S} {r : Res op}
    (h : Advances cfg workflow before after i (.runAgent runId) op r)
    (hcond : SettlesOnce runId i (deployment cfg workflow before).world op r
      (deployment cfg workflow after).world)
    (hrun : (deployment cfg workflow before).world.db.agentRuns.find? runId = some run)
    (hdone : run.status ≠ .running) :
    (deployment cfg workflow after).world.db.SameHistory (deployment cfg workflow before).world.db := by
  rcases h.history with hquiet | ⟨rfl, tx, s, hcommits, hdeed, hpending⟩
  · rw [hquiet.db]
    exact ⟨rfl, rfl⟩
  · have habsent := (deployment_kept.sane.sound i tx hcommits.open_).2
    have hnone : ∀ x ∈ tx.writes, x.isHistory = false := by
      intro x hx
      by_contra hhistory
      rw [Bool.not_eq_false] at hhistory
      have hread := h.ok (O := atCommit fun cs => ∃ x ∈ cs, x.1.readsRun runId = true)
        (f := fun cs x => cs ++ [x]) (fun _ _ _ hfits => ⟨hfits, rfl⟩)
        (runAgent_reads cfg workflow runId i)
      rw [Framework.foldl_snoc, List.nil_append] at hread
      obtain ⟨y, hy, hreads⟩ := hread
      have hsettles : (deployment cfg workflow before).world.settlesRun i runId = true := by
        rw [World.settlesRun, ← h.pending, hpending]
        refine List.any_eq_true.mpr ⟨x, hx, ?_⟩
        have hany : ((deployment cfg workflow before).world.calls.any fun y =>
            y.session == i && y.op.readsRun runId) = true := by
          refine List.any_eq_true.mpr ⟨⟨i, y.1, y.2⟩, call_of_callsOf hy, ?_⟩
          rw [Bool.and_eq_true]
          exact ⟨beq_self_eq_true i, hreads⟩
        rw [hhistory, hany, Bool.and_self, Bool.or_true]
      obtain ⟨-, hfails⟩ := h.fails hcond hcommits hrun hdone hsettles
      have hx' := hfails x hx
      cases x with
      | updateAgentRun id p => cases hhistory
      | _ => exact hx'.elim
    have hsame := (history_filter (⟨rfl, rfl⟩ : (deployment cfg workflow before).world.db.SameHistory
      (deployment cfg workflow before).world.db) habsent).2
    rw [List.filter_eq_nil_iff.mpr fun x hx => by rw [hnone x hx]; exact Bool.false_ne_true] at hsame
    rw [hcommits.db]
    exact hsame

/-- A run that has finished keeps its result to the end. -/
theorem deployment_resultKept (hm : Pool.Meets (server cfg.platform) (Job.program cfg workflow)
      (SettlesOnce runId) ⟨.init, []⟩ (before ++ after))
    (hrun : (deployment cfg workflow before).world.db.agentRuns.find? runId = some run)
    (hdone : run.status ≠ .running) :
    ∃ run', (deployment cfg workflow (before ++ after)).world.db.agentRuns.find? runId = some run' ∧
      run'.result = run.result := by
  induction after using List.reverseRecOn with
  | nil => exact ⟨run, by rwa [List.append_nil], rfl⟩
  | append_singleton es e ih =>
    rw [← List.append_assoc] at hm ⊢
    obtain ⟨hrest, hlast⟩ := Pool.meets_snoc.mp hm
    obtain ⟨run₁, hrun₁, hsame⟩ := ih hrest
    have hdone₁ : run₁.status ≠ .running := by
      have hstatus : run₁.status = run.status := congrArg Prod.fst hsame
      rwa [hstatus]
    have hnext : deployment cfg workflow (before ++ es ++ [e]) =
        (deployment cfg workflow (before ++ es)).next (server cfg.platform)
          (Job.program cfg workflow) e := List.foldl_append
    cases e with
    | spawn job =>
      rw [hnext]
      exact ⟨run₁, hrun₁, hsame⟩
    | step i reply =>
      rcases deployment_step hlast with hidle | ⟨job, op, r, hadvances, hcond⟩
      · rw [hidle]
        exact ⟨run₁, hrun₁, hsame⟩
      · obtain ⟨run₂, hrun₂, hsame₂⟩ := hadvances.result_kept hcond hrun₁ hdone₁
        exact ⟨run₂, hrun₂, hsame₂.trans hsame⟩
    | kill i =>
      have hdb : (deployment cfg workflow (before ++ es ++ [.kill i])).world.db =
          (deployment cfg workflow (before ++ es)).world.db := by
        rw [hnext, Pool.next]
        split <;> rfl
      rw [hdb]
      exact ⟨run₁, hrun₁, hsame⟩

end

/-- The run of `draftedTicket` is executed once more, and its first call fails. -/
def spuriousRun : List (Event Job (Reply ℚ)) :=
  [.spawn (.runAgent ⟨2, 0⟩), .step 4 (failing 0 0)]

/-- An organization is registered, a ticket created, and a run on it started and executed. -/
def executedJobs : List (Job × (Nat → Reply ℚ)) :=
  [.registerAcme, .createHelp, .byAdmin (.runWorkflow ⟨1, 0⟩), .runAgent ⟨2, 0⟩].map
    fun job => (job, fun _ => .plain)

/-- The run is executed once more. -/
def repeatedJobs : List (Job × (Nat → Reply ℚ)) := [(.runAgent ⟨2, 0⟩, fun _ => .plain)]

end AgentDesk
