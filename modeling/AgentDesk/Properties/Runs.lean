import AgentDesk.Logic.Execution
import AgentDesk.Api.Jobs

namespace AgentDesk

variable {S : Type} {cfg : Config S} {c : Nat} {db db' : DB S}

/-- A run as `start_run` leaves it. -/
structure AgentRun.Started (r : AgentRun) : Prop where
  status : r.status = .running
  outcome : r.outcome = none
  draft : r.draft = none

/-- The run is failed, and its execution left no trace on the ticket. -/
structure FailedCleanly (db db' : DB S) (runId : Uuid) : Prop where
  run : ∃ r', db'.agentRuns.find? runId = some r' ∧ r'.status = .failed ∧ r'.outcome = none ∧
    r'.draft = none
  tickets : db'.tickets = db.tickets
  ticketEvents : db'.ticketEvents = db.ticketEvents
  auditLogs : db'.auditLogs = db.auditLogs

/-- The execution returned and its result is committed, or it raised and the run is failed. -/
def Settled (workflow : Workflow S) (db db' : DB S) (runId : Uuid) (t : Ticket) :
    Except Err AgentRun → Prop
  | .ok _ => ∃ r', RunResult workflow db db' runId r' t
  | .error _ => FailedCleanly db db' runId

theorem any_commits (cs : List (Call S)) :
    cs.any Call.commits = (persists cs || recordsFailure cs) := by
  conv_lhs => rw [← List.takeWhile_append_dropWhile (p := fun x => !x.rollsBack) (l := cs)]
  rw [List.any_append]
  rfl

theorem FailureRecorded.failedCleanly {r : AgentRun} (h : FailureRecorded db db' r)
    (hr : r.Started) : FailedCleanly db db' r.id := by
  obtain ⟨r', hfind, hstatus, hdraft, houtcome, -⟩ := h.run
  exact ⟨⟨r', hfind, hstatus, houtcome.trans hr.outcome, hdraft.trans hr.draft⟩, h.tickets,
    h.ticketEvents, h.auditLogs⟩

theorem not_failedCleanly_of_find? {r' : AgentRun} {runId : Uuid}
    (hr : db'.agentRuns.find? runId = some r') (h : r'.status ≠ .failed ∨ r'.outcome ≠ none) :
    ¬FailedCleanly db db' runId := by
  rintro ⟨⟨r₁, hfind, hstatus, houtcome, -⟩, -, -, -⟩
  obtain rfl := Option.some.inj (hr.symm.trans hfind)
  exact h.elim (· hstatus) (· houtcome)

/-- An execution that raised left the run failed and no trace, exactly when it recorded the
failure and had committed no result. -/
theorem Executed.failedCleanly_iff {workflow : Workflow S} {past : List (DB S)} {r : AgentRun}
    {t : Ticket} {s : Solo S Tally} (h : Executed workflow db past r t s) (hr : r.Started)
    (hfind : db.agentRuns.find? r.id = some r) :
    FailedCleanly db s.db r.id ↔
      s.tally.flags.persisted = false ∧ s.tally.flags.recorded = true := by
  cases h with
  | nothing hdb _ hflags =>
    obtain ⟨b, hflags⟩ := hflags
    refine iff_of_false ?_ (by simp [hflags])
    exact not_failedCleanly_of_find? (hdb ▸ hfind) (Or.inl (by simp [hr.status]))
  | failure h _ hflags => exact iff_of_true (h.failedCleanly hr) (by simp [hflags])
  | result r' h _ hflags =>
    obtain ⟨b, late, hflags⟩ := hflags
    obtain ⟨state, t', -, hcompleted⟩ := h
    refine iff_of_false ?_ (by simp [hflags])
    exact not_failedCleanly_of_find? hcompleted.run (Or.inl (by simp [hcompleted.status]))
  | both r' db₂ h hfailure hflags =>
    obtain ⟨state, t', -, hcompleted⟩ := h
    have hid : r'.id = r.id := Framework.Table.key_of_find? hcompleted.run
    obtain ⟨r'', hfind'', -, -, houtcome, -⟩ := hfailure.run
    refine iff_of_false ?_ (by simp [hflags])
    exact not_failedCleanly_of_find? (hid ▸ hfind'') (Or.inr (by simp [houtcome, hcompleted.outcome]))

/-- Session 2 starts a run on the ticket; nobody has executed it yet. -/
def startedRun : List (Framework.Event Job (Reply ℚ)) :=
  registration ++ ticketCreation ++ .spawn (.byAdmin (.runWorkflow ⟨1, 0⟩)) :: calls 2 12

def startedTicket : Ticket where
  id := ⟨1, 0⟩
  organizationId := ⟨0, 0⟩
  title := "help"
  description := "it broke"
  priority := .low
  status := .new
  suggestedType := none
  suggestedPriority := none
  draftResponse := none
  finalResponse := none
  createdBy := some ⟨0, 1⟩
  createdAt := 0
  updatedAt := 0

def startedAgentRun : AgentRun where
  id := ⟨2, 0⟩
  ticketId := ⟨1, 0⟩
  organizationId := ⟨0, 0⟩
  status := .running
  classification := none
  retrievedChunkIds := none
  retrievalHit := false
  draft := none
  confidence := none
  outcome := none
  latencyMs := none
  estimatedCostUsd := none
  promptTokens := none
  completionTokens := none
  error := none
  finishedAt := none
  createdAt := 0

end AgentDesk
