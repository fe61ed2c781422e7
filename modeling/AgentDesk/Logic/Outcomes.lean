import AgentDesk.Logic.Conclusions
import AgentDesk.Logic.Progress

namespace AgentDesk

open Framework (Pool Event Table)

variable {S : Type} {cfg : Config S} {workflow : Workflow S} {start : Time} {db : DB S} {w : World S}
  {runId : Uuid} {ws : List (Write S)}

/-! The patches of a run -/

/-- What the statement changes of the run. -/
def Write.runPatch (runId : Uuid) : Write S → Option AgentRunPatch
  | .updateAgentRun id p => if id = runId then some p else none
  | _ => none

/-- The run after these changes. -/
def AgentRun.patched (r : AgentRun) (ps : List AgentRunPatch) : AgentRun :=
  ps.foldl (fun r p => p.apply r) r

theorem patched_id (r : AgentRun) (ps : List AgentRunPatch) : (r.patched ps).id = r.id := by
  induction ps generalizing r with
  | nil => rfl
  | cons p ps ih => exact ih (p.apply r)

/-- An outcome stays, and one that is written is there in the end. -/
theorem patched_outcome {r : AgentRun} {ps : List AgentRunPatch}
    (hkeep : ∀ p ∈ ps, p.outcome ≠ some none)
    (h : r.outcome ≠ none ∨ ∃ p ∈ ps, ∃ o, p.outcome = some (some o)) :
    (r.patched ps).outcome ≠ none := by
  induction ps generalizing r with
  | nil =>
    rcases h with h | ⟨p, hp, -⟩
    · exact h
    · cases hp
  | cons p ps ih =>
    refine ih (r := p.apply r) (fun p' hp' => hkeep p' (List.mem_cons_of_mem p hp')) ?_
    rcases h with h | ⟨p', hp', o, ho⟩
    · exact Or.inl (OutcomeKept.outcome_apply (hkeep p List.mem_cons_self) h)
    · rcases List.mem_cons.mp hp' with rfl | hp'
      · exact Or.inl (by simp [AgentRunPatch.apply, ho])
      · exact Or.inr ⟨p', hp', o, ho⟩

theorem patched_status {r : AgentRun} {ps : List AgentRunPatch} {st : AgentRunStatus}
    (h : (r.patched ps).status = st) : r.status = st ∨ ∃ p ∈ ps, p.status = some st := by
  induction ps generalizing r with
  | nil => exact Or.inl h
  | cons p ps ih =>
    rcases ih (r := p.apply r) h with hst | ⟨p', hp', hst⟩
    · cases hp : p.status with
      | none => exact Or.inl (by simpa [AgentRunPatch.apply, hp] using hst)
      | some st' =>
        have heq : st' = st := by simpa [AgentRunPatch.apply, hp] using hst
        exact Or.inr ⟨p, List.mem_cons_self, by rw [hp, heq]⟩
    · exact Or.inr ⟨p', List.mem_cons_of_mem p hp', hst⟩

theorem agentRuns_applyAll (hnew : ∀ r, .insert (.agentRun r) ∉ ws) :
    (applyAll start db ws).agentRuns.rows =
      db.agentRuns.rows.map fun r => r.patched (ws.filterMap (Write.runPatch r.id)) := by
  induction ws generalizing db with
  | nil => exact (List.map_id _).symm
  | cons x ws ih =>
    have hrest := @ih (x.apply start db) fun r hr => hnew r (List.mem_cons_of_mem x hr)
    have hfirst : (x.apply start db).agentRuns.rows =
        db.agentRuns.rows.map fun r => r.patched (x.runPatch r.id).toList := by
      cases x with
      | insert row =>
        cases row with
        | agentRun r => exact absurd List.mem_cons_self (hnew r)
        | _ => exact (List.map_id _).symm
      | updateAgentRun id p =>
        change (db.agentRuns.rows.map fun r => if r.id = id then p.apply r else r) = _
        refine List.map_congr_left fun r _ => ?_
        by_cases hid : r.id = id
        · simp [Write.runPatch, hid, AgentRun.patched]
        · simp [Write.runPatch, Ne.symm hid, hid, AgentRun.patched]
      | _ => exact (List.map_id _).symm
    rw [applyAll_cons, hrest, hfirst, List.map_map]
    refine List.map_congr_left fun r _ => ?_
    simp only [Function.comp_apply, patched_id, List.filterMap_cons]
    cases x.runPatch r.id <;> rfl

theorem mem_runPatches {p : AgentRunPatch} :
    p ∈ ws.filterMap (Write.runPatch runId) ↔ .updateAgentRun runId p ∈ ws := by
  rw [List.mem_filterMap]
  constructor
  · rintro ⟨x, hx, hp⟩
    cases x with
    | updateAgentRun id p' =>
      rw [Write.runPatch, Option.ite_none_right_eq_some] at hp
      obtain ⟨rfl, hp⟩ := hp
      cases hp
      exact hx
    | _ => cases hp
  · exact fun h => ⟨_, h, if_pos rfl⟩

/-- The run that the statement creates. -/
def Write.newRun (start : Time) : Write S → Option AgentRun
  | .insert (.agentRun r) => some { r with createdAt := start }
  | _ => none

theorem agentRuns_applyAll_new (habsent : Absent start db ws)
    (hnone : ∀ id p, .updateAgentRun id p ∉ ws) :
    (applyAll start db ws).agentRuns.rows =
      db.agentRuns.rows ++ ws.filterMap (Write.newRun start) := by
  induction ws generalizing db with
  | nil => exact (List.append_nil _).symm
  | cons x ws ih =>
    have hrest := ih habsent.2 fun id p h => hnone id p (List.mem_cons_of_mem x h)
    have hfirst : (x.apply start db).agentRuns.rows =
        db.agentRuns.rows ++ (x.newRun start).toList := by
      cases x with
      | insert row =>
        cases row with
        | agentRun r => exact rows_insert_of_absent rfl (habsent.1 _ rfl)
        | _ => exact (List.append_nil _).symm
      | updateAgentRun id p => exact absurd List.mem_cons_self (hnone id p)
      | _ => exact (List.append_nil _).symm
    rw [applyAll_cons, hrest, hfirst, List.append_assoc, List.filterMap_cons]
    cases x.newRun start <;> rfl

/-! What is committed of the runs -/

theorem Deed.runs_apart {s : Journal S} (h : Deed cfg workflow s ws) {p : AgentRunPatch}
    (hp : .updateAgentRun runId p ∈ ws) (r : AgentRun) : .insert (.agentRun r) ∉ ws := by
  intro hr
  cases h with
  | plain hplain => exact (hplain _ hr).elim
  | created | started | failed | announced | decided => simp at hp hr
  | edited _ hus =>
    rcases List.mem_append.mp hr with hr | hr
    · obtain ⟨p, hsame, -⟩ := hus _ hr
      cases hsame
    · cases List.mem_singleton.mp hr
  | concluded _ _ _ _ _ _ _ hside => exact hside _ hr rfl

theorem Deed.run_started {s : Journal S} (h : Deed cfg workflow s ws) {r : AgentRun}
    (hr : .insert (.agentRun r) ∈ ws) : r.status = .running := by
  cases h with
  | plain hplain => exact (hplain _ hr).elim
  | started _ _ hstatus =>
    simp only [List.mem_cons, Write.insert.injEq, Row.agentRun.injEq, reduceCtorEq,
      List.not_mem_nil, or_false] at hr
    rw [hr]
    exact hstatus
  | created | failed | announced | decided => simp at hr
  | edited _ hus =>
    rcases List.mem_append.mp hr with hr | hr
    · obtain ⟨p, hsame, -⟩ := hus _ hr
      cases hsame
    · cases List.mem_singleton.mp hr
  | concluded _ _ _ _ _ _ _ hside => exact (hside _ hr rfl).elim

/-- There is such a run, and it has an outcome if `decided` says so. -/
def DB.Holds (db : DB S) (runId : Uuid) (decided : Prop) : Prop :=
  ∃ r ∈ db.agentRuns.rows, r.id = runId ∧ (decided → r.outcome ≠ none)

/-- A transaction that changes only runs that there are, takes no outcome away, and completes only
runs that have one then. -/
structure Decent (db : DB S) (ws : List (Write S)) : Prop where
  present : ∀ runId p, .updateAgentRun runId p ∈ ws → db.Holds runId False
  keeps : ∀ runId p, .updateAgentRun runId p ∈ ws → p.outcome ≠ some none
  completes : ∀ runId p, .updateAgentRun runId p ∈ ws → p.status = some .completed →
    db.Holds runId True ∨ ∃ x ∈ ws, x.Concludes runId

theorem Write.Concludes.patch {x : Write S} (h : x.Concludes runId) (hx : x ∈ ws) :
    ∃ p ∈ ws.filterMap (Write.runPatch runId), ∃ o, p.outcome = some (some o) := by
  cases x with
  | updateAgentRun id p =>
    obtain ⟨rfl, o, ho⟩ := h
    exact ⟨p, mem_runPatches.mpr hx, o, ho⟩
  | _ => exact h.elim

section

variable {s : Journal S} (hdeed : Deed cfg workflow s ws) (habsent : Absent start db ws)
  (hdecent : Decent db ws)
include hdeed habsent hdecent

theorem holds_applyAll {decided : Prop} (h : db.Holds runId decided) :
    (applyAll start db ws).Holds runId decided := by
  obtain ⟨r, hr, rfl, hout⟩ := h
  by_cases hnone : ∀ id p, .updateAgentRun id p ∉ ws
  · refine ⟨r, ?_, rfl, hout⟩
    rw [agentRuns_applyAll_new habsent hnone]
    exact List.mem_append_left _ hr
  · simp only [not_forall, not_not] at hnone
    obtain ⟨id, p, hp⟩ := hnone
    refine ⟨r.patched (ws.filterMap (Write.runPatch r.id)), ?_, patched_id _ _, fun hd => ?_⟩
    · rw [agentRuns_applyAll (hdeed.runs_apart hp)]
      exact List.mem_map_of_mem hr
    · exact patched_outcome (fun p hp => hdecent.keeps _ p (mem_runPatches.mp hp)) (Or.inl (hout hd))

omit habsent in
theorem concludes_applyAll {x : Write S} (hx : x ∈ ws) (h : x.Concludes runId) :
    (applyAll start db ws).Holds runId True := by
  obtain ⟨p, hp, o, ho⟩ := h.patch hx
  have hupdate := mem_runPatches.mp hp
  obtain ⟨r, hr, rfl, -⟩ := hdecent.present runId p hupdate
  refine ⟨r.patched (ws.filterMap (Write.runPatch r.id)), ?_, patched_id _ _, fun _ => ?_⟩
  · rw [agentRuns_applyAll (hdeed.runs_apart hupdate)]
    exact List.mem_map_of_mem hr
  · exact patched_outcome (fun p hp => hdecent.keeps _ p (mem_runPatches.mp hp)) (Or.inr ⟨p, hp, o, ho⟩)

/-- Such a transaction leaves no run completed without an outcome. -/
theorem completed_applyAll
    (h : ∀ r ∈ db.agentRuns.rows, r.status = .completed → r.outcome ≠ none) {r : AgentRun}
    (hr : r ∈ (applyAll start db ws).agentRuns.rows) (hstatus : r.status = .completed) :
    r.outcome ≠ none := by
  by_cases hnone : ∀ id p, .updateAgentRun id p ∉ ws
  · rw [agentRuns_applyAll_new habsent hnone, List.mem_append] at hr
    rcases hr with hr | hr
    · exact h r hr hstatus
    · obtain ⟨x, hx, hnew⟩ := List.mem_filterMap.mp hr
      cases x with
      | insert row =>
        cases row with
        | agentRun r' =>
          cases hnew
          have hrunning : r'.status = .running := hdeed.run_started hx
          change r'.status = .completed at hstatus
          rw [hrunning] at hstatus
          cases hstatus
        | _ => cases hnew
      | _ => cases hnew
  · simp only [not_forall, not_not] at hnone
    obtain ⟨id, p, hp⟩ := hnone
    rw [agentRuns_applyAll (hdeed.runs_apart hp)] at hr
    obtain ⟨r₀, hr₀, rfl⟩ := List.mem_map.mp hr
    refine patched_outcome (fun p hp => hdecent.keeps _ p (mem_runPatches.mp hp)) ?_
    rcases patched_status hstatus with hdone | ⟨p', hp', hdone⟩
    · exact Or.inl (h r₀ hr₀ hdone)
    · rcases hdecent.completes _ p' (mem_runPatches.mp hp') hdone with ⟨r₁, hr₁, hid, hout⟩ | ⟨x, hx, hc⟩
      · have hsame : r₁ = r₀ := by
          have hfind := Table.find?_of_mem hr₁
          have hfind₀ := Table.find?_of_mem hr₀
          change db.agentRuns.find? r₁.id = some r₁ at hfind
          rw [hid] at hfind
          exact Option.some.inj (hfind.symm.trans hfind₀)
        rw [← hsame]
        exact Or.inl (hout trivial)
      · exact Or.inr (hc.patch hx)

end

/-- Every completed run has an outcome, and the runs and outcomes that sessions read and wrote are
there. -/
structure World.OutcomesKept (w : World S) : Prop where
  completed : ∀ r ∈ w.db.agentRuns.rows, r.status = .completed → r.outcome ≠ none
  read : ∀ c runId r, ⟨c, .query (.agentRun runId), .ok (some r)⟩ ∈ w.calls →
    w.db.Holds runId (r.outcome ≠ none)
  created : ∀ k ∈ w.commits, ∀ r, .insert (.agentRun r) ∈ k.writes → w.db.Holds r.id False
  written : ∀ k ∈ w.commits, ∀ x ∈ k.writes, ∀ runId, x.Concludes runId → w.db.Holds runId True

theorem DB.Holds.weaken {decided : Prop} (h : db.Holds runId decided) : db.Holds runId False := by
  obtain ⟨r, hr, hid, -⟩ := h
  exact ⟨r, hr, hid, False.elim⟩

section

variable [Field S] [LinearOrder S] [FloorRing S] {events before after : List (Event Job (Reply S))}
  {i : Nat} {job : Job}

/-- A statement that a session wrote is pending or was committed. -/
theorem wrote_cases {x : Write S}
    (h : Wrote ((deployment cfg workflow events).world.callsOf i) x) :
    x ∈ (Book.ofCalls ((deployment cfg workflow events).world.callsOf i)).pending ∨
      ∃ k ∈ (deployment cfg workflow events).world.commits, x ∈ k.writes := by
  rcases h with h | ⟨ws, hws, hx⟩
  · exact Or.inl h
  · rw [deployment_kept.committed i] at hws
    obtain ⟨k, hk, rfl⟩ := List.mem_map.mp hws
    exact Or.inr ⟨k, (List.mem_filter.mp hk).1, hx⟩

omit [Field S] [LinearOrder S] [FloorRing S] in
theorem call_of_callsOf {op : Op S} {r : Res op} (h : ⟨op, r⟩ ∈ w.callsOf i) :
    ⟨i, op, r⟩ ∈ w.calls := by
  obtain ⟨x, hx, heq⟩ := List.mem_map.mp h
  obtain ⟨hmem, hsession⟩ := List.mem_filter.mp hx
  obtain ⟨c, op', r'⟩ := x
  cases heq
  cases eq_of_beq hsession
  exact hmem

/-- The transactions that the sessions commit are decent. -/
theorem Advances.decent {ws : List (Write S)} {s : Journal S} {r : Res (.commit : Op S)}
    (h : Advances cfg workflow before after i job .commit r)
    (hkept : (deployment cfg workflow before).world.OutcomesKept)
    (hpending : (Book.ofCalls ((deployment cfg workflow before).world.callsOf i)).pending = ws)
    (hdeed : Deed cfg workflow s ws) : Decent (deployment cfg workflow before).world.db ws := by
  by_cases hnone : ∀ id p, .updateAgentRun id p ∉ ws
  · exact ⟨fun id p hp => absurd hp (hnone id p), fun id p hp => absurd hp (hnone id p),
      fun id p hp => absurd hp (hnone id p)⟩
  · simp only [not_forall, not_not] at hnone
    obtain ⟨id, p, hp⟩ := hnone
    have hruns : job.runs = true := by
      obtain ⟨s, hwrites, hwarrants⟩ := h.warranted
      rw [hwrites, hpending] at hwarrants
      rcases hwarrants _ hp with hjob | ⟨hruns, -⟩
      · rw [hjob]
        rfl
      · exact hruns
    have hok := h.ok (O := atCommit KeepsOutcomes) (f := fun cs x => cs ++ [x])
      (fun _ _ _ hfits => ⟨hfits, rfl⟩) (Job.program_keepsOutcomes cfg workflow hruns i)
    rw [Framework.foldl_snoc, List.nil_append] at hok
    have hkeeps : KeepsOutcomes ((deployment cfg workflow before).world.callsOf i) := hok
    rw [KeepsOutcomes, hpending] at hkeeps
    refine ⟨fun runId p hp => ?_, fun runId p hp => (hkeeps runId p hp).2.1, fun runId p hp hdone => ?_⟩
    · cases (hkeeps runId p hp).1 with
      | read r hcall => exact (hkept.read i runId r (call_of_callsOf hcall)).weaken
      | created r hwrote hid =>
        rw [← hid]
        rcases wrote_cases hwrote with hnew | ⟨k, hk, hnew⟩
        · rw [hpending] at hnew
          exact absurd hnew (hdeed.runs_apart hp r)
        · exact hkept.created k hk r hnew
    · cases (hkeeps runId p hp).2.2 hdone with
      | read r hcall hr =>
        obtain ⟨r', hr', hid, hout⟩ := hkept.read i runId r (call_of_callsOf hcall)
        exact Or.inl ⟨r', hr', hid, fun _ => hout hr⟩
      | written x hwrote hc =>
        rcases wrote_cases hwrote with hx | ⟨k, hk, hx⟩
        · rw [hpending] at hx
          exact Or.inr ⟨x, hx, hc⟩
        · exact Or.inl (hkept.written k hk x hx runId hc)

theorem Advances.outcomesKept {op : Op S} {r : Res op}
    (h : Advances cfg workflow before after i job op r)
    (hkept : (deployment cfg workflow before).world.OutcomesKept) :
    (deployment cfg workflow after).world.OutcomesKept := by
  have hcalls := h.steps.calls
  rcases h.history with hquiet | ⟨rfl, tx, s, hcommits, hdeed, hpending⟩
  · refine ⟨?_, fun c runId run hcall => ?_, ?_, ?_⟩
    · rw [hquiet.db]
      exact hkept.completed
    · rw [hquiet.db]
      rw [hcalls, List.mem_append, List.mem_singleton] at hcall
      rcases hcall with hcall | hcall
      · exact hkept.read c runId run hcall
      · cases hcall
        obtain ⟨-, choice, hanswer⟩ := h.answer
        have hfind : (deployment cfg workflow before).world.db.agentRuns.find? runId = some run :=
          hanswer.symm
        exact ⟨run, Table.mem_of_find? hfind, Table.key_of_find? hfind, fun hr => hr⟩
    · rw [hquiet.db, hquiet.commits]
      exact hkept.created
    · rw [hquiet.db, hquiet.commits]
      exact hkept.written
  · have hdecent := h.decent hkept hpending hdeed
    have habsent := (deployment_kept.sane.sound i tx hcommits.open_).2
    refine ⟨?_, fun c runId run hcall => ?_, fun k hk run hnew => ?_, fun k hk x hx runId hc => ?_⟩
    · rw [hcommits.db]
      exact fun r hr => completed_applyAll hdeed habsent hdecent hkept.completed hr
    · rw [hcommits.db]
      rw [hcalls, List.mem_append, List.mem_singleton] at hcall
      rcases hcall with hcall | hcall
      · exact holds_applyAll hdeed habsent hdecent (hkept.read c runId run hcall)
      · cases hcall
    · rw [hcommits.db]
      rw [hcommits.commits, List.mem_append, List.mem_singleton] at hk
      rcases hk with hk | rfl
      · exact holds_applyAll hdeed habsent hdecent (hkept.created k hk run hnew)
      · have hnone : ∀ id p, .updateAgentRun id p ∉ tx.writes :=
          fun id p hp => hdeed.runs_apart hp run hnew
        refine ⟨{ run with createdAt := tx.start }, ?_, rfl, False.elim⟩
        rw [agentRuns_applyAll_new habsent hnone]
        exact List.mem_append_right _ (List.mem_filterMap.mpr ⟨_, hnew, rfl⟩)
    · rw [hcommits.db]
      rw [hcommits.commits, List.mem_append, List.mem_singleton] at hk
      rcases hk with hk | rfl
      · exact holds_applyAll hdeed habsent hdecent (hkept.written k hk x hx runId hc)
      · exact concludes_applyAll hdeed hdecent hx hc

/-- In every reachable state the completed runs have an outcome. -/
theorem deployment_outcomesKept (cfg : Config S) (workflow : Workflow S)
    (events : List (Event Job (Reply S))) : (deployment cfg workflow events).world.OutcomesKept := by
  have hm : Pool.Meets (server cfg.platform) (Job.program cfg workflow) (fun _ _ _ _ _ => True)
      ⟨.init, []⟩ events := Pool.meets_of_forall (fun _ _ _ _ _ => trivial) events
  refine deployment_induction (I := World.OutcomesKept) ?_ (fun h _ hkept => h.outcomesKept hkept)
    (fun h => ⟨h.completed, h.read, h.created, h.written⟩) hm
  refine ⟨fun r h => ?_, fun c id r h => ?_, fun k h => ?_, fun k h => ?_⟩ <;>
    exact absurd h List.not_mem_nil

end

end AgentDesk
