import AgentDesk.Logic.Bookkeeping

namespace AgentDesk

open Framework (Program)

variable {S α : Type} {cfg : Config S} {workflow : Workflow S} {σ : Session S} {cs cs' : List (Made S)}
  {runId : Uuid}

/-! The outcomes of runs -/

/-- The statement gives the run an outcome. -/
def Write.Concludes (runId : Uuid) : Write S → Prop
  | .updateAgentRun id p => id = runId ∧ ∃ o, p.outcome = some (some o)
  | _ => False

/-- The statement is in the transaction that the session has open, or in one that it committed. -/
def Wrote (cs : List (Made S)) (x : Write S) : Prop :=
  x ∈ (Book.ofCalls cs).pending ∨ ∃ ws ∈ (Book.ofCalls cs).committed, x ∈ ws

/-- The session knows that there is such a run: it read it, or it created it. -/
inductive Present (cs : List (Made S)) (runId : Uuid) : Prop
  | read (r : AgentRun) (h : ⟨.query (.agentRun runId), .ok (some r)⟩ ∈ cs)
  | created (r : AgentRun) (h : Wrote cs (.insert (.agentRun r))) (hid : r.id = runId)

/-- The session knows that the run has an outcome: it read one, or it wrote one. -/
inductive Concluded (cs : List (Made S)) (runId : Uuid) : Prop
  | read (r : AgentRun) (h : ⟨.query (.agentRun runId), .ok (some r)⟩ ∈ cs) (hr : r.outcome ≠ none)
  | written (x : Write S) (hx : Wrote cs x) (h : x.Concludes runId)

/-- No run in the transaction that is open loses its outcome or is completed without one, and
these are runs that there are. -/
def KeepsOutcomes (cs : List (Made S)) : Prop :=
  ∀ runId p, .updateAgentRun runId p ∈ (Book.ofCalls cs).pending →
    Present cs runId ∧ p.outcome ≠ some none ∧ (p.status = some .completed → Concluded cs runId)

theorem Reading.subset (h : Reading cs cs') : cs ⊆ cs' := by
  induction h with
  | refl => exact fun _ h => h
  | snoc _ _ _ _ ih => exact fun _ hx => List.mem_append_left _ (ih hx)

/-- The calls `cs'` tell at least what `cs` tell. -/
structure Telling (cs cs' : List (Made S)) : Prop where
  calls : cs ⊆ cs'
  writes : ∀ x, Wrote cs x → Wrote cs' x

theorem Reading.telling (h : Reading cs cs') : Telling cs cs' :=
  ⟨h.subset, fun x hx => by rwa [Wrote, h.books]⟩

theorem telling_post (url : String) (body : List Char) (headers : List (String × String))
    (r : Except Err Nat) : Telling cs (cs ++ [⟨.post url body headers, r⟩]) := by
  refine ⟨List.subset_append_left _ _, fun x hx => ?_⟩
  rw [Wrote, Book.ofCalls_snoc]
  exact hx

theorem telling_write (ws : List (Write S)) : Telling cs (cs ++ [⟨.write ws, .ok ()⟩]) := by
  refine ⟨List.subset_append_left _ _, fun x hx => ?_⟩
  rw [Wrote, Book.ofCalls_snoc]
  rcases hx with hx | hx
  · exact Or.inl (List.mem_append_left _ hx)
  · exact Or.inr hx

theorem telling_commit : Telling cs (cs ++ [⟨.commit, .ok ()⟩]) := by
  refine ⟨List.subset_append_left _ _, fun x hx => ?_⟩
  rw [Wrote, Book.ofCalls_snoc]
  right
  rcases hx with hx | ⟨ws, hws, hx⟩
  · have hsome : (Book.ofCalls cs).pending.isEmpty = false :=
      List.isEmpty_eq_false_iff.mpr (List.ne_nil_of_mem hx)
    exact ⟨_, by simp [Book.note, hsome], hx⟩
  · refine ⟨ws, ?_, hx⟩
    simp only [Book.note]
    split
    · exact hws
    · exact List.mem_append_left _ hws

theorem Present.mono (h : Present cs runId) (hcs : Telling cs cs') : Present cs' runId := by
  cases h with
  | read r h => exact .read r (hcs.calls h)
  | created r h hid => exact .created r (hcs.writes _ h) hid

theorem Concluded.mono (h : Concluded cs runId) (hcs : Telling cs cs') : Concluded cs' runId := by
  cases h with
  | read r h hr => exact .read r (hcs.calls h) hr
  | written x hx h => exact .written x (hcs.writes x hx) h

theorem wrote_flush {ws : List (Write S)} {x : Write S} (h : x ∈ ws) :
    Wrote (cs ++ [⟨.write ws, .ok ()⟩]) x := by
  rw [Wrote, Book.ofCalls_snoc]
  exact Or.inl (List.mem_append_right _ h)

/-- What a session makes of a run that it holds: the run keeps the outcome that it had, and it has
one when the session completes it. -/
structure OutcomeKept (cs : List (Made S)) (o : Tracked AgentRun) : Prop where
  id : o.cur.id = o.loaded.id
  present : Present cs o.loaded.id
  known : o.loaded.outcome ≠ none → Concluded cs o.loaded.id
  kept : o.loaded.outcome ≠ none → o.cur.outcome ≠ none
  completed : o.cur.status = .completed → o.loaded.status = .completed ∨ o.cur.outcome ≠ none

namespace OutcomeKept

variable {o : Tracked AgentRun} {p : AgentRunPatch}

theorem mono (h : OutcomeKept cs o) (hcs : Telling cs cs') : OutcomeKept cs' o :=
  ⟨h.id, h.present.mono hcs, fun hout => (h.known hout).mono hcs, h.kept, h.completed⟩

theorem fresh {r : AgentRun} (hrun : Present cs r.id) (h : r.outcome ≠ none → Concluded cs r.id) :
    OutcomeKept cs ⟨r, r⟩ := ⟨rfl, hrun, h, fun h => h, fun h => Or.inl h⟩

/-- A run that the session has just read. -/
theorem ofRead (r : AgentRun) :
    OutcomeKept (cs ++ [⟨.query (.agentRun r.id), .ok (some r)⟩]) ⟨r, r⟩ := by
  have hcall : (⟨.query (.agentRun r.id), .ok (some r)⟩ : Made S) ∈
      cs ++ [⟨.query (.agentRun r.id), .ok (some r)⟩] :=
    List.mem_append_right _ (List.mem_singleton_self _)
  exact fresh (.read r hcall) fun hr => .read r hcall hr

theorem outcome_apply (h : p.outcome ≠ some none) {r : AgentRun} (hr : r.outcome ≠ none) :
    (p.apply r).outcome ≠ none := by
  cases hp : p.outcome with
  | none => simpa [AgentRunPatch.apply, hp] using hr
  | some out =>
    rw [hp] at h
    simpa [AgentRunPatch.apply, hp] using h

theorem set (h : OutcomeKept cs o) (hout : p.outcome ≠ some none)
    (hstatus : p.status = some .completed → o.cur.outcome ≠ none) :
    OutcomeKept cs { o with cur := p.apply o.cur } := by
  refine ⟨h.id, h.present, h.known, fun hl => outcome_apply hout (h.kept hl), fun hdone => ?_⟩
  cases hp : p.status with
  | none =>
    have hcur : o.cur.status = .completed := by simpa [AgentRunPatch.apply, hp] using hdone
    rcases h.completed hcur with hl | hc
    · exact Or.inl hl
    · exact Or.inr (outcome_apply hout hc)
  | some st =>
    have hst : st = .completed := by simpa [AgentRunPatch.apply, hp] using hdone
    exact Or.inr (outcome_apply hout (hstatus (by rw [hp, hst])))

/-- What a flush writes of the run. -/
theorem dirty (h : OutcomeKept cs o) {x : Write S} (hx : dirtyAgentRun o = some x) :
    x = .updateAgentRun o.loaded.id (o.loaded.diff o.cur) ∧
      (o.loaded.diff o.cur).outcome ≠ some none ∧
        ((o.loaded.diff o.cur).status = some .completed →
          Concluded cs o.loaded.id ∨ x.Concludes o.loaded.id) := by
  have heq : x = .updateAgentRun o.loaded.id (o.loaded.diff o.cur) := by
    rcases @dirtyAgentRun_cases S o.loaded o.cur with hd | hd
    · rw [hd] at hx
      cases hx
    · rw [hd] at hx
      exact (Option.some.inj hx).symm
  have hkept : (o.loaded.diff o.cur).outcome ≠ some none := by
    intro hnone
    obtain ⟨hne, hcur⟩ := changed_eq_some.mp hnone
    exact h.kept (fun hl => hne (hl.trans hcur.symm)) hcur
  refine ⟨heq, hkept, fun hdone => ?_⟩
  obtain ⟨hne, hcur⟩ := changed_eq_some.mp hdone
  rcases h.completed hcur with hl | hc
  · exact absurd (hl.trans hcur.symm) hne
  · by_cases hsame : o.loaded.outcome = o.cur.outcome
    · rw [← hsame] at hc
      exact Or.inl (h.known hc)
    · obtain ⟨out, hout⟩ := Option.ne_none_iff_exists'.mp hc
      have hdiff : (o.loaded.diff o.cur).outcome = some (some out) :=
        (changed_eq_some.mpr ⟨hsame, rfl⟩).trans (congrArg some hout)
      subst heq
      exact Or.inr ⟨rfl, out, hdiff⟩

/-- What the session makes of the run once it has been flushed. -/
theorem flushed (h : OutcomeKept cs o) (ws : List (Write S))
    (hws : ∀ x, dirtyAgentRun o = some x → x ∈ ws) :
    OutcomeKept (cs ++ [⟨.write ws, .ok ()⟩]) o.flushed := by
  have hrun : Present (cs ++ [⟨.write ws, .ok ()⟩]) o.cur.id := by
    rw [h.id]
    exact h.present.mono (telling_write ws)
  refine .fresh hrun fun hcur => ?_
  rw [h.id]
  by_cases hsame : o.loaded.outcome = o.cur.outcome
  · rw [← hsame] at hcur
    exact (h.known hcur).mono (telling_write ws)
  · obtain ⟨out, hout⟩ := Option.ne_none_iff_exists'.mp hcur
    have hdiff : (o.loaded.diff o.cur).outcome = some (some out) :=
      (changed_eq_some.mpr ⟨hsame, rfl⟩).trans (congrArg some hout)
    have hdirty : dirtyAgentRun o = some (.updateAgentRun o.loaded.id (o.loaded.diff o.cur) : Write S) := by
      unfold dirtyAgentRun
      refine if_neg fun hempty => ?_
      rw [hempty] at hdiff
      cases hdiff
    have hconcludes : (Write.updateAgentRun o.loaded.id (o.loaded.diff o.cur) : Write S).Concludes
        o.loaded.id := ⟨rfl, out, hdiff⟩
    exact .written _ (wrote_flush (hws _ hdirty)) hconcludes

end OutcomeKept

/-- The session keeps the outcomes of the runs that it holds, and these runs have one. -/
structure Concluding (decided : Set Uuid) (σ : Session S) (cs : List (Made S)) : Prop where
  runs : ∀ o ∈ σ.agentRuns, OutcomeKept cs o
  decided : ∀ o ∈ σ.agentRuns, o.loaded.id ∈ decided → o.cur.outcome ≠ none
  new : ∀ r, .agentRun r ∉ σ.new
  pending : KeepsOutcomes cs

theorem mem_flushed_agentRuns {o : Tracked AgentRun} (h : o ∈ σ.flushed.agentRuns) :
    (∃ o' ∈ σ.agentRuns, o = o'.flushed) ∨ ∃ r, .agentRun r ∈ σ.new ∧ o = ⟨r, r⟩ := by
  have hadopt : ∀ (rows : List (Row S)) (σ : Session S),
      o ∈ (rows.foldl Session.adopt σ).agentRuns →
        o ∈ σ.agentRuns ∨ ∃ r, .agentRun r ∈ rows ∧ o = ⟨r, r⟩ := by
    intro rows
    induction rows with
    | nil => exact fun _ h => Or.inl h
    | cons row rows ih =>
      intro σ h
      rcases ih _ h with h | ⟨r, hr, ho⟩
      · cases row with
        | agentRun r =>
          rcases List.mem_append.mp h with h | h
          · exact Or.inl h
          · exact Or.inr ⟨r, List.mem_cons_self, List.mem_singleton.mp h⟩
        | _ => exact Or.inl h
      · exact Or.inr ⟨r, List.mem_cons_of_mem _ hr, ho⟩
  rcases hadopt σ.new _ h with h | h
  · obtain ⟨o', ho', rfl⟩ := List.mem_map.mp h
    exact Or.inl ⟨o', ho', rfl⟩
  · exact Or.inr h

theorem mem_pending_updateAgentRun {p : AgentRunPatch} (h : .updateAgentRun runId p ∈ σ.pending) :
    ∃ o ∈ σ.agentRuns, dirtyAgentRun o = some (.updateAgentRun runId p : Write S) := by
  simp only [Session.pending, List.mem_append, List.mem_filterMap, List.mem_map] at h
  rcases h with (((⟨o, -, ho⟩ | h) | ⟨o, -, ho⟩) | ⟨o, -, ho⟩) | ⟨row, -, hrow⟩
  · rcases @dirtyTicket_cases S o.loaded o.cur with hd | hd <;> rw [hd] at ho <;> cases ho
  · exact h
  · rcases @dirtyWebhook_cases S o.loaded o.cur with hd | hd <;> rw [hd] at ho <;> cases ho
  · simp only [dirtyDelivery] at ho
    split at ho <;> cases ho
  · cases hrow

theorem mem_pending_of_dirty {o : Tracked AgentRun} {x : Write S} (ho : o ∈ σ.agentRuns)
    (hx : dirtyAgentRun o = some x) : x ∈ σ.pending := by
  simp only [Session.pending, List.mem_append, List.mem_filterMap]
  exact Or.inl (Or.inl (Or.inl (Or.inr ⟨o, ho, hx⟩)))

namespace Concluding

variable {decided : Set Uuid}

theorem start (c : Nat) : Concluding decided (.start c : Session S) [] :=
  ⟨fun _ h => absurd h List.not_mem_nil, fun _ h => absurd h List.not_mem_nil,
    fun _ h => absurd h List.not_mem_nil, fun _ _ h => absurd h List.not_mem_nil⟩

theorem weaken (h : Concluding decided σ cs) : Concluding ∅ σ cs :=
  ⟨h.runs, fun _ _ h => h.elim, h.new, h.pending⟩

/-- A flush, which may adopt runs that have no outcome yet. -/
theorem flush (hruns : ∀ o ∈ σ.agentRuns, OutcomeKept cs o)
    (hdecided : ∀ o ∈ σ.agentRuns, o.loaded.id ∈ decided → o.cur.outcome ≠ none)
    (hnew : ∀ r, .agentRun r ∈ σ.new → r.outcome = none ∧ r.id ∉ decided) (hpending : KeepsOutcomes cs) :
    Concluding decided σ.flushed (cs ++ [⟨.write σ.pending, .ok ()⟩]) := by
  refine ⟨fun o ho => ?_, fun o ho hid => ?_, fun r hr => ?_, fun id p hmem => ?_⟩
  · rcases mem_flushed_agentRuns ho with ⟨o', ho', rfl⟩ | ⟨r, hr, rfl⟩
    · exact (hruns o' ho').flushed _ fun x hx => mem_pending_of_dirty ho' hx
    · have hinsert : .insert (.agentRun r) ∈ σ.pending :=
        List.mem_append_right _ (List.mem_map_of_mem hr)
      exact .fresh (.created r (wrote_flush hinsert) rfl) fun hout => absurd (hnew r hr).1 hout
  · rcases mem_flushed_agentRuns ho with ⟨o', ho', rfl⟩ | ⟨r, hr, rfl⟩
    · refine hdecided o' ho' ?_
      rw [← (hruns o' ho').id]
      exact hid
    · exact absurd hid (hnew r hr).2
  · rw [flushed_new] at hr
    cases hr
  · rw [Book.ofCalls_snoc] at hmem
    rcases List.mem_append.mp hmem with hmem | hmem
    · obtain ⟨hrun, hout, hdone⟩ := hpending id p hmem
      exact ⟨hrun.mono (telling_write _), hout, fun h => (hdone h).mono (telling_write _)⟩
    · obtain ⟨o, ho, hdirty⟩ := mem_pending_updateAgentRun hmem
      obtain ⟨heq, hout, hdone⟩ := (hruns o ho).dirty hdirty
      injection heq with hid hp
      rw [hid, hp]
      refine ⟨(hruns o ho).present.mono (telling_write _), hout, fun h => ?_⟩
      rcases hdone h with hknown | hwritten
      · exact hknown.mono (telling_write _)
      · exact .written _ (wrote_flush (mem_pending_of_dirty ho hdirty)) hwritten

end Concluding

theorem routine_concluding (decided : Set Uuid) : Routine KeepsOutcomes (@Concluding S decided) where
  same h hruns _ hnew := by
    refine ⟨?_, ?_, ?_, h.pending⟩
    · rw [hruns]
      exact h.runs
    · rw [hruns]
      exact h.decided
    · rw [hnew]
      exact h.new
  read h hcs := by
    refine ⟨fun o ho => (h.runs o ho).mono hcs.telling, h.decided, h.new, ?_⟩
    intro id p hmem
    rw [hcs.books] at hmem
    obtain ⟨hrun, hout, hdone⟩ := h.pending id p hmem
    exact ⟨hrun.mono hcs.telling, hout, fun hst => (hdone hst).mono hcs.telling⟩
  plain h hrow := by
    refine ⟨h.runs, h.decided, fun r hr => ?_, h.pending⟩
    rcases List.mem_append.mp hr with hr | hr
    · exact h.new r hr
    · rw [← List.mem_singleton.mp hr] at hrow
      cases hrow
  write h := Concluding.flush h.runs h.decided (fun r hr => absurd hr (h.new r)) h.pending
  send h hnew := by
    refine ⟨h.pending, fun o ho => (h.runs o ho).mono telling_commit, h.decided, h.new, ?_⟩
    intro id p hmem
    rw [Book.ofCalls_snoc] at hmem
    cases hmem

theorem aloof_concluding (decided : Set Uuid) : Aloof (@Concluding S decided) where
  deliveries _ h := ⟨h.runs, h.decided, h.new, h.pending⟩
  delivery d h := by
    refine ⟨h.runs, h.decided, fun r hr => ?_, h.pending⟩
    rcases List.mem_append.mp hr with hr | hr
    · exact h.new r hr
    · cases List.mem_singleton.mp hr
  post {σ} {cs} url body headers r h := by
    have hmore : Telling cs (cs ++ [⟨.post url body headers, r⟩]) := telling_post url body headers r
    refine ⟨fun o ho => (h.runs o ho).mono hmore, h.decided, h.new, fun id p hmem => ?_⟩
    have hbooks : Book.ofCalls (cs ++ [⟨.post url body headers, r⟩]) = Book.ofCalls cs :=
      Book.ofCalls_snoc _ _
    rw [hbooks] at hmem
    obtain ⟨hrun, hout, hdone⟩ := h.pending id p hmem
    exact ⟨hrun.mono hmore, hout, fun hst => (hdone hst).mono hmore⟩

/-! Agent runs -/

section

variable {decided : Set Uuid}

theorem Concluding.setAgentRun (h : Concluding decided σ cs) (runId : Uuid) {p : AgentRunPatch}
    (hout : p.outcome ≠ some none)
    (hstatus : p.status = some .completed → runId ∈ decided) :
    Concluding decided (σ.putAgentRun runId fun o => { o with cur := p.apply o.cur }) cs := by
  refine ⟨fun o ho => ?_, fun o ho => ?_, h.new, h.pending⟩
  · obtain ⟨o', ho', rfl⟩ := List.mem_map.mp ho
    split
    · rename_i hid
      refine (h.runs o' ho').set hout fun hdone => h.decided o' ho' ?_
      rw [hid]
      exact hstatus hdone
    · exact h.runs o' ho'
  · obtain ⟨o', ho', rfl⟩ := List.mem_map.mp ho
    split
    · exact fun hid => OutcomeKept.outcome_apply hout (h.decided o' ho' hid)
    · exact h.decided o' ho'

/-- The run gets an outcome. -/
theorem Concluding.decide (h : Concluding ∅ σ cs) (runId : Uuid) (out : AgentRunOutcome) :
    Concluding {runId} (σ.putAgentRun runId fun o =>
      { o with cur := AgentRunPatch.apply { outcome := some (some out) } o.cur }) cs := by
  have hset := h.setAgentRun runId (p := { outcome := some (some out) }) (by simp) (by simp)
  refine ⟨hset.runs, fun o ho => ?_, hset.new, hset.pending⟩
  obtain ⟨o', -, rfl⟩ := List.mem_map.mp ho
  split
  · exact fun _ => by simp [AgentRunPatch.apply]
  · rename_i hne
    exact fun hid => absurd hid hne

theorem setAgentRun_keeps (runId : Uuid) {p : AgentRunPatch} (hout : p.outcome ≠ some none)
    (hstatus : p.status = some .completed → runId ∈ decided) :
    (setAgentRun runId p : M S Unit).Keeps KeepsOutcomes (Concluding decided) :=
  fun _ _ h => h.setAgentRun runId hout hstatus

theorem getAgentRun_concluding (h : Concluding ∅ σ cs) (runId : Uuid) :
    (getAgentRun runId : M S _).Triple (atCommit KeepsOutcomes)
      (fun _ σ' cs' => Concluding ∅ σ' cs' ∧ Reading cs cs') (fun _ _ _ => True) σ cs := by
  rw [triple_getAgentRun]
  refine ⟨fun _ _ => ⟨h, .refl⟩, fun _ => ⟨trivial, fun _ _ _ => trivial, ?_, ?_⟩⟩
  · rintro cs' ⟨-, rfl⟩
    have hread := reading_query (@Reading.refl S cs) (.agentRun runId) none
    exact ⟨(routine_concluding ∅).read h hread, hread⟩
  · rintro r cs' ⟨hid, rfl⟩
    have hread := reading_query (@Reading.refl S cs) (.agentRun runId) (some r)
    have hkept := (routine_concluding ∅).read h hread
    refine ⟨⟨fun o ho => ?_, fun _ _ h => h.elim, hkept.new, hkept.pending⟩, hread⟩
    rcases List.mem_append.mp ho with ho | ho
    · exact hkept.runs o ho
    · rw [List.mem_singleton.mp ho]
      change r.id = runId at hid
      subst hid
      exact .ofRead r

theorem refreshAgentRun_concluding (h : Concluding ∅ σ cs) (runId : Uuid) :
    (refreshAgentRun runId : M S _).Triple (atCommit KeepsOutcomes)
      (fun _ σ' cs' => Concluding ∅ σ' cs' ∧ Reading cs cs') (fun _ _ _ => True) σ cs := by
  rw [triple_refreshAgentRun]
  refine ⟨trivial, fun _ _ _ => trivial, fun _ _ => trivial, ?_⟩
  rintro r cs' ⟨hid, rfl⟩
  have hread := reading_query (@Reading.refl S cs) (.agentRun runId) (some r)
  have hkept := (routine_concluding ∅).read h hread
  refine ⟨⟨fun o ho => ?_, fun _ _ h => h.elim, hkept.new, hkept.pending⟩, hread⟩
  obtain ⟨o', ho', rfl⟩ := List.mem_map.mp ho
  split
  · change r.id = runId at hid
    subst hid
    exact .ofRead r
  · exact hkept.runs o' ho'

theorem Concluding.add (h : Concluding decided σ cs) {row : Row S} (hrow : ∀ r, row ≠ .agentRun r) :
    Concluding decided { σ with new := σ.new ++ [row] } cs := by
  refine ⟨h.runs, h.decided, fun r hr => ?_, h.pending⟩
  rcases List.mem_append.mp hr with hr | hr
  · exact h.new r hr
  · exact hrow r (List.mem_singleton.mp hr).symm

theorem Concluding.addAudit (h : Concluding decided σ cs) (a : AuditLog) :
    Concluding decided { σ with new := σ.new ++ [.auditLog a] } cs :=
  h.add fun _ hr => by cases hr

theorem Concluding.addEvent (h : Concluding decided σ cs) (e : TicketEvent) :
    Concluding decided { σ with new := σ.new ++ [.ticketEvent e] } cs :=
  h.add fun _ hr => by cases hr

theorem audit_keeps (ticket : Ticket) (event : AuditEvent) (metadata : Meta) :
    (AgentRunService.audit ticket event metadata : M S _).Keeps KeepsOutcomes
      (Concluding decided) :=
  record_keeps (routine_concluding decided) event (fun a _ h => h.addAudit a) _ _ _ _ _

theorem startRun_concluding (h : Concluding ∅ σ cs) (ticketId : Uuid) (actorUserId : Option Uuid) :
    (AgentRunService.startRun ticketId actorUserId).Triple (atCommit KeepsOutcomes)
      (fun _ σ' cs' => Concluding ∅ σ' cs' ∧ (Book.ofCalls cs').pending = []) (fun _ _ _ => True)
      σ cs := by
  unfold AgentRunService.startRun
  rw [M.triple_bind, triple_ticketAttrs]
  refine ⟨fun o _ => ?_, fun _ => trivial⟩
  rw [M.triple_bind, triple_uuid4, M.triple_bind, triple_add, M.triple_bind, triple_flush,
    flushes_of_ne_nil (by simp [Session.pending])]
  refine ⟨trivial, fun _ _ _ => trivial, ?_⟩
  rintro cs₁ ⟨-, rfl⟩
  rw [M.triple_bind]
  have hrecord := record_keeps (routine_concluding (S := S) ∅) .agentRunStarted
    (fun a _ h => h.addAudit a) (some o.cur.organizationId) actorUserId (some "ticket")
    (some ticketId.str) (some [("agent_run_id", .str (Uuid.str ⟨σ.conn, σ.draws⟩))])
  refine M.triple_mono (hrecord _ _ ?_) ?_ (fun _ _ _ h => h)
  · refine Concluding.flush h.runs h.decided (fun r hr => ?_) h.pending
    rcases List.mem_append.mp hr with hr | hr
    · exact absurd hr (h.new r)
    · injection List.mem_singleton.mp hr with hr
      rw [hr]
      exact ⟨rfl, fun h => h⟩
  · intro _ σ₂ cs₂ h₂
    rw [M.triple_bind]
    refine M.triple_mono ((routine_concluding ∅).commit_closed h₂) ?_ (fun _ _ _ h => h)
    intro _ σ₃ cs₃ h₃
    refine M.triple_mono (refreshAgentRun_concluding h₃.1 _) ?_ (fun _ _ _ h => h)
    intro _ σ₄ cs₄ h₄
    refine ⟨h₄.1, ?_⟩
    rw [h₄.2.books]
    exact h₃.2

theorem applyOutcome_concluding (h : Concluding ∅ σ cs) (runId : Uuid) (ticket : Ticket)
    (state : AgentState) :
    (AgentRunService.applyOutcome runId ticket state).Triple (atCommit KeepsOutcomes)
      (fun _ => Concluding {runId}) (fun _ _ _ => True) σ cs := by
  have hmove : ∀ (toStatus : TicketStatus) (message : Option String),
      (TicketService.transition ticket.id toStatus none "agent_run" message true : M S _).Keeps
        KeepsOutcomes (Concluding {runId}) := fun toStatus message =>
    transition_keeps (routine_concluding _) (fun e h => h.addEvent e) _ _ _ _ _
  unfold AgentRunService.applyOutcome
  rw [M.triple_ite]
  refine ⟨fun _ => ?_, fun _ => ?_⟩
  · rw [M.triple_bind, triple_setAgentRun]
    exact ((hmove _ _).bind fun _ => M.Keeps.pure _) _ _ (h.decide runId _)
  · rw [M.triple_bind, triple_setAgentRun]
    exact ((hmove _ _).bind fun _ => (audit_keeps _ _ _).bind fun _ => M.Keeps.pure _) _ _
      (h.decide runId _)

theorem applyResult_concluding (h : Concluding ∅ σ cs) (runId : Uuid) (ticket : Ticket)
    (state : AgentState) :
    (AgentRunService.applyResult runId ticket state).Triple (atCommit KeepsOutcomes)
      (fun _ => Concluding ∅) (fun _ _ _ => True) σ cs := by
  have hset : ∀ p, (setTicket ticket.id p : M S Unit).Keeps KeepsOutcomes (Concluding ∅) :=
    fun p => (routine_concluding ∅).setTicket _ p
  have hfinish : (do
      let finished ← clock
      setAgentRun runId { status := some .completed, finishedAt := some (some finished) }
      commit : M S Unit).Keeps KeepsOutcomes (Concluding {runId}) := by
    refine (routine_concluding _).clock.bind fun finished => ?_
    have hcomplete : (setAgentRun runId
        { status := some .completed, finishedAt := some (some finished) } : M S Unit).Keeps
        KeepsOutcomes (Concluding {runId}) := setAgentRun_keeps runId (by simp) fun _ => rfl
    exact hcomplete.bind fun _ => (routine_concluding _).commit
  unfold AgentRunService.applyResult
  rw [M.triple_bind]
  refine M.triple_mono (audit_keeps ticket _ _ σ cs h) ?_ (fun _ _ _ h => h)
  intro _ σ₁ cs₁ h₁
  rw [M.triple_bind]
  refine M.triple_mono (hset _ σ₁ cs₁ h₁) ?_ (fun _ _ _ h => h)
  intro _ σ₂ cs₂ h₂
  rw [M.triple_bind]
  refine suggestedPriority_triple state (fun sp => ?_) (fun _ => trivial)
  rw [M.triple_bind]
  refine M.triple_mono (hset _ σ₂ cs₂ h₂) ?_ (fun _ _ _ h => h)
  intro _ σ₃ cs₃ h₃
  rw [M.triple_bind]
  refine M.triple_mono (applyOutcome_concluding h₃ runId ticket state) ?_ (fun _ _ _ h => h)
  intro _ σ₄ cs₄ h₄
  exact M.triple_mono (hfinish σ₄ cs₄ h₄) (fun _ _ _ h => h.weaken) (fun _ _ _ h => h)

theorem persistResult_concluding (h : Concluding ∅ σ cs) (hclosed : (Book.ofCalls cs).pending = [])
    (runId : Uuid) (ticket : Ticket) (started : Time) :
    (AgentRunService.persistResult workflow runId ticket started).Triple (atCommit KeepsOutcomes)
      (fun _ => Concluding ∅) (fun _ _ _ => True) σ cs := by
  unfold AgentRunService.persistResult
  rw [M.triple_bind]
  refine M.triple_mono (readOnly_reading (workflow.readOnly _) hclosed) ?_ (fun _ _ _ h => h)
  rintro state σ₁ cs₁ ⟨rfl, hread⟩
  have h₁ := (routine_concluding ∅).read h hread
  rw [M.triple_bind]
  refine M.triple_mono ((routine_concluding ∅).clock σ₁ cs₁ h₁) ?_ (fun _ _ _ h => h)
  intro ended σ₂ cs₂ h₂
  have hfill : (setAgentRun runId (AgentRunService.resultPatch state ((ended - started) / 1000)) :
      M S Unit).Keeps KeepsOutcomes (Concluding ∅) :=
    setAgentRun_keeps runId (by simp [AgentRunService.resultPatch])
      (by simp [AgentRunService.resultPatch])
  rw [M.triple_bind]
  refine M.triple_mono (hfill σ₂ cs₂ h₂) ?_ (fun _ _ _ h => h)
  intro _ σ₃ cs₃ h₃
  rw [M.triple_bind]
  refine M.triple_mono (audit_keeps ticket _ _ σ₃ cs₃ h₃) ?_ (fun _ _ _ h => h)
  intro _ σ₄ cs₄ h₄
  exact applyResult_concluding h₄ runId ticket state

theorem announceResult_concluding (runId ticketId : Uuid) :
    (AgentRunService.announceResult cfg runId ticketId).Keeps KeepsOutcomes (Concluding ∅) := by
  have hrefresh : (refreshAgentRun runId : M S _).Keeps KeepsOutcomes (Concluding ∅) :=
    fun σ cs h => M.triple_mono (refreshAgentRun_concluding h runId) (fun _ _ _ h => h.1)
      (fun _ _ _ h => h)
  have hattrs := (routine_concluding (S := S) ∅).agentRunAttrs runId
  refine hrefresh.bind fun run => M.Keeps.ite ?_ hattrs
  refine ((routine_concluding ∅).refreshTicket ticketId).bind fun _ => ?_
  exact (enqueueForTicket_keeps (routine_concluding ∅) (aloof_concluding ∅) _ _).bind fun _ => hattrs

theorem recordFailure_concluding (runId : Uuid) (exc : Err) (σ : Session S) (cs : List (Made S)) :
    (AgentRunService.recordFailure runId exc : M S α).Triple (atCommit KeepsOutcomes)
      (fun _ => Concluding ∅) (fun _ _ _ => True) σ cs := by
  unfold AgentRunService.recordFailure
  rw [M.triple_bind, triple_rollback]
  refine ⟨trivial, fun _ _ _ => trivial, ?_⟩
  rintro u cs₁ ⟨-, rfl⟩
  have hexpired : Concluding ∅ σ.expired (cs ++ [⟨.rollback, .ok u⟩]) := by
    refine ⟨fun _ h => absurd h List.not_mem_nil, fun _ h => absurd h List.not_mem_nil,
      fun _ h => absurd h List.not_mem_nil, fun id p hmem => ?_⟩
    rw [Book.ofCalls_snoc] at hmem
    cases hmem
  have hfail : ∀ finished : Time, (do
      setAgentRun runId
        { status := some .failed, error := some (some exc.str), finishedAt := some (some finished) }
      commit
      M.raise exc : M S α).Keeps KeepsOutcomes (Concluding ∅) := fun finished =>
    (setAgentRun_keeps runId (by simp) (by simp)).bind fun _ =>
      (routine_concluding ∅).commit.bind fun _ => M.Keeps.raise _
  rw [M.triple_bind]
  refine M.triple_mono (getAgentRun_concluding hexpired runId) ?_ (fun _ _ _ h => h)
  intro r σ₂ cs₂ h₂
  cases r with
  | none => trivial
  | some r => exact ((routine_concluding ∅).clock.bind hfail) σ₂ cs₂ h₂.1

theorem executeRun_concluding (h : Concluding ∅ σ cs) (hclosed : (Book.ofCalls cs).pending = [])
    (runId : Uuid) :
    (AgentRunService.executeRun cfg workflow runId).Triple (atCommit KeepsOutcomes)
      (fun _ => Concluding ∅) (fun _ _ _ => True) σ cs := by
  have hexecute : ∀ (ticket : Ticket) (σ : Session S) (cs : List (Made S)), Concluding ∅ σ cs →
      (Book.ofCalls cs).pending = [] → (do
        let started ← clock
        M.except
          (do
            AgentRunService.persistResult workflow runId ticket started
            AgentRunService.announceResult cfg runId ticket.id)
          (AgentRunService.recordFailure runId) : M S AgentRun).Triple (atCommit KeepsOutcomes)
        (fun _ => Concluding ∅) (fun _ _ _ => True) σ cs := by
    intro ticket σ cs h hclosed
    have hfail := fun e (σ' : Session S) cs' (_ : True) =>
      recordFailure_concluding (α := AgentRun) runId e σ' cs'
    rw [M.triple_bind, triple_clock]
    refine ⟨trivial, ?_⟩
    rintro started cs₁ ⟨-, rfl⟩
    have hread := reading_clock (@Reading.refl S cs) started
    rw [← hread.books] at hclosed
    rw [M.triple_except, M.triple_bind]
    refine M.triple_mono (persistResult_concluding ((routine_concluding ∅).read h hread) hclosed
      runId ticket started) ?_ hfail
    intro _ σ' cs' h'
    exact M.triple_mono (announceResult_concluding runId ticket.id σ' cs' h') (fun _ _ _ h => h) hfail
  unfold AgentRunService.executeRun
  rw [M.triple_bind]
  refine M.triple_mono (getAgentRun_concluding h runId) ?_ (fun _ _ _ h => h)
  intro r σ₁ cs₁ hrun
  obtain ⟨h₁, hread⟩ := hrun
  rw [← hread.books] at hclosed
  cases r with
  | none => trivial
  | some run =>
    simp only
    rw [M.triple_bind, triple_getTicketRow]
    refine ⟨fun o _ => hexecute o.cur σ₁ cs₁ h₁ hclosed,
      fun _ => ⟨trivial, fun _ _ _ => trivial, fun _ _ => trivial, ?_⟩⟩
    rintro t cs₂ ⟨-, rfl⟩
    have hread₂ := reading_query (@Reading.refl S cs₁) (.ticket run.ticketId) (some t)
    rw [← hread₂.books] at hclosed
    exact hexecute t _ _ ((routine_concluding ∅).same ((routine_concluding ∅).read h₁ hread₂) rfl rfl rfl)
      hclosed

end

/-! The jobs -/

theorem runWorkflow_complies {c : Nat} (workflow : Workflow S) (u : User) (ticketId : Uuid)
    (hcs : Reading [] cs) :
    (Api.runWorkflow cfg workflow u ticketId).Complies KeepsOutcomes (.start c) cs := by
  unfold M.Complies Api.runWorkflow
  rw [M.triple_bind]
  refine M.triple_mono (load_reads u.organizationId ticketId) ?_ (fun _ _ _ h => h)
  intro t σ₁ cs₁ hload
  obtain ⟨-, -, hσ, rfl⟩ := hload
  have hread := reading_query hcs (.ticket ticketId) (some t)
  have h₁ : Concluding ∅ σ₁ (cs ++ [⟨.query (.ticket ticketId), .ok (some t)⟩]) := by
    rw [hσ]
    exact (routine_concluding ∅).same ((routine_concluding ∅).read (Concluding.start c) hread) rfl rfl rfl
  rw [M.triple_ite]
  refine ⟨fun _ => trivial, fun _ => ?_⟩
  rw [M.triple_bind]
  refine M.triple_mono (startRun_concluding h₁ ticketId (some u.id)) ?_ (fun _ _ _ h => h)
  intro r σ₂ cs₂ h₂
  rw [M.triple_ite]
  refine ⟨fun _ => ?_, fun _ => ?_⟩
  · exact (M.complies_of_triple (executeRun_concluding h₂.1 h₂.2 r.id)).bind_pure
  · exact (((routine_concluding ∅).enqueue _).bind fun _ => M.Keeps.pure _).complies h₂.1

/-- No session that executes runs loses an outcome or completes a run without one. -/
theorem Job.program_keepsOutcomes [Field S] [LinearOrder S] [FloorRing S] (cfg : Config S)
    (workflow : Workflow S) {job : Job} (hruns : job.runs = true) (c : Nat) :
    (job.program cfg workflow c).Obeys (atCommit KeepsOutcomes) (fun _ _ => True) [] := by
  have done : ∀ {α : Type} {p : M S α}, p.Complies KeepsOutcomes (.start c) [] →
      (p (.start c)).Obeys (atCommit KeepsOutcomes) (fun _ _ => True) [] := by
    intro α p h
    exact Program.obeys_mono h fun _ _ _ => trivial
  cases job with
  | request r =>
    simp only [Job.program, Program.obeys_bind]
    refine done (M.Complies.getDb ?_)
    cases r with
    | authenticated creds action =>
      cases action with
      | runWorkflow ticketId =>
        unfold M.Complies Api.Request.handle
        rw [M.triple_bind]
        have hallowed : (Api.Action.runWorkflow ticketId).allowed ≠ [] := by simp [Api.Action.allowed]
        refine Program.obeys_mono (obeys_atCommit (requireRole_transcript creds hallowed)
          (requireRole_uncommitted _ creds (.start c))) ?_
        rintro ⟨_ | u, σ'⟩ cs' ⟨hread, hσ⟩
        · trivial
        · change σ' = .start c at hσ
          subst hσ
          obtain ⟨token, claims, id, now, -, -, -, -, rfl⟩ := hread
          have hcaller := reading_query (reading_clock (@Reading.refl S []) now) (.user id) (some u)
          exact runWorkflow_complies workflow u ticketId hcaller
      | _ => cases hruns
    | _ => cases hruns
  | runAgent runId =>
    simp only [Job.program, Program.obeys_bind]
    exact done (M.complies_of_triple
      (executeRun_concluding (Concluding.start c) rfl runId)).sessionScope.bind_pure
  | deliverWebhook deliveryId retries => cases hruns

end AgentDesk
