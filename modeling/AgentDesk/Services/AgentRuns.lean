import AgentDesk.Services.Tickets
import AgentDesk.Services.Workflow

namespace AgentDesk.AgentRunService

variable {S : Type}

def startRun (ticketId : Uuid) (actorUserId : Option Uuid) : M S AgentRun := do
  let ticket ← ticketAttrs ticketId
  let id ← uuid4
  add (.agentRun
    { id, ticketId, organizationId := ticket.organizationId, status := .running,
      classification := none, retrievedChunkIds := none, retrievalHit := false, draft := none,
      confidence := none, outcome := none, latencyMs := none, estimatedCostUsd := none,
      promptTokens := none, completionTokens := none, error := none, finishedAt := none,
      createdAt := 0 })
  flush
  let _ ← record .agentRunStarted (some ticket.organizationId) actorUserId (some "ticket")
    (some ticketId.str) (some [("agent_run_id", .str id.str)]) false
  commit
  refreshAgentRun id

def initialState (ticket : Ticket) : AgentState :=
  { organizationId := ticket.organizationId
    ticketTitle := ticket.title
    ticketDescription := ticket.description }

/-- The columns of the run that the workflow's result fills. -/
def resultPatch (state : AgentState) (latencyMs : Nat) : AgentRunPatch :=
  let chunkIds := (state.retrieved.getD []).map RetrievedRef.chunkId
  let promptTokens := state.promptTokens.getD 0
  let completionTokens := state.completionTokens.getD 0
  { classification := some state.classification
    retrievedChunkIds := some (some chunkIds)
    retrievalHit := some (state.retrievalHit.getD false)
    draft := some state.draft
    confidence := some state.confidence
    promptTokens := some (some promptTokens)
    completionTokens := some (some completionTokens)
    estimatedCostUsd :=
      some (some (Agent.estimateCost (state.model.getD "mock-1") promptTokens completionTokens))
    latencyMs := some (some latencyMs) }

def confidenceMeta (state : AgentState) : MetaValue := (state.confidence.map MetaValue.float).getD .null

/-- `TicketPriority(sp) if sp else None`. -/
def suggestedPriority (state : AgentState) : M S (Option TicketPriority) :=
  match state.suggestedPriority with
  | none | some "" => pure none
  | some sp =>
    match TicketPriority.ofValue? sp with
    | some p => pure (some p)
    | none => M.raise (.value ("'" ++ sp ++ "' is not a valid TicketPriority"))

def audit (ticket : Ticket) (event : AuditEvent) (metadata : Meta) : M S AuditLog :=
  record event (some ticket.organizationId) none (some "ticket") (some ticket.id.str)
    (some metadata) false

/-- Move the ticket as the workflow decided; anything but an approval request escalates. -/
def applyOutcome (runId : Uuid) (ticket : Ticket) (state : AgentState) : M S Unit := do
  if state.outcome.getD "escalated" = "waiting_approval" then
    setAgentRun runId { outcome := some (some .waitingApproval) }
    let _ ← TicketService.transition ticket.id .waitingApproval none "agent_run"
      (some "AI draft ready for approval") true
  else
    setAgentRun runId { outcome := some (some .escalated) }
    let _ ← TicketService.transition ticket.id .escalated none "agent_run"
      (some "Low confidence; escalated for human handling") true
    let _ ← audit ticket .ticketEscalated [("confidence", confidenceMeta state)]

/-- The rest of the `try` up to the commit, once the run has the result and the first
milestone is recorded. -/
def applyResult (runId : Uuid) (ticket : Ticket) (state : AgentState) : M S Unit := do
  let _ ← audit ticket .draftGenerated [("confidence", confidenceMeta state)]
  setTicket ticket.id { suggestedType := some state.suggestedType }
  let sp ← suggestedPriority state
  setTicket ticket.id { suggestedPriority := some sp, draftResponse := some state.draft }
  applyOutcome runId ticket state
  let finished ← clock
  setAgentRun runId { status := some .completed, finishedAt := some (some finished) }
  commit

/-- The body of the `try` up to the commit. -/
def persistResult (workflow : Workflow S) (runId : Uuid) (ticket : Ticket) (started : Time) :
    M S Unit := do
  let state ← workflow.run (initialState ticket)
  let ended ← clock
  setAgentRun runId (resultPatch state ((ended - started) / 1000))
  let hits := ((state.retrieved.getD []).map RetrievedRef.chunkId).length
  let _ ← audit ticket .retrievalCompleted
    [("hits", .int hits), ("hit", .bool (state.retrievalHit.getD false))]
  applyResult runId ticket state

/-- The rest of the `try`. -/
def announceResult (cfg : Config S) (runId ticketId : Uuid) : M S AgentRun := do
  let run ← refreshAgentRun runId
  if run.outcome = some .escalated then
    let _ ← refreshTicket ticketId
    let _ ← WebhookService.enqueueForTicket cfg ticketId "ticket.escalated"
  agentRunAttrs runId

/-- The `except` clause. -/
def recordFailure {α : Type} (runId : Uuid) (exc : Err) : M S α := do
  rollback
  match ← getAgentRun runId with
  | none => M.raise exc
  | some _ =>
    let finished ← clock
    setAgentRun runId
      { status := some .failed, error := some (some exc.str), finishedAt := some (some finished) }
    commit
    M.raise exc

def executeRun (cfg : Config S) (workflow : Workflow S) (runId : Uuid) : M S AgentRun := do
  match ← getAgentRun runId with
  | none => M.raise (.value "AgentRun not found")
  | some run =>
    match ← getTicketRow run.ticketId with
    | none => M.raise (.value "Ticket not found")
    | some ticket =>
      let started ← clock
      M.except
        (do
          persistResult workflow runId ticket started
          announceResult cfg runId ticket.id)
        (recordFailure runId)

end AgentDesk.AgentRunService
