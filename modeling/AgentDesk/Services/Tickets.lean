import AgentDesk.Services.Webhooks

namespace AgentDesk.TicketService

variable {S : Type}

def createTicket (organizationId actorUserId : Uuid) (title description : String)
    (priority : TicketPriority) : M S Ticket := do
  let id ← uuid4
  add (.ticket
    { id, organizationId, title, description, priority, status := .new, suggestedType := none,
      suggestedPriority := none, draftResponse := none, finalResponse := none,
      createdBy := some actorUserId, createdAt := 0, updatedAt := 0 })
  flush
  let eventId ← uuid4
  add (.ticketEvent
    { id := eventId, ticketId := id, organizationId, eventType := "created", fromStatus := none,
      toStatus := some .new, actorUserId := some actorUserId, message := none, createdAt := 0 })
  let _ ← record .ticketCreated (some organizationId) (some actorUserId) (some "ticket")
    (some id.str) none false
  commit
  refreshTicket id

def listTickets (organizationId : Uuid) (status : Option TicketStatus) : M S (List Ticket) :=
  query (.ticketsOf organizationId status)

def getTicket (organizationId ticketId : Uuid) : M S Ticket := do
  match ← getTicketRow ticketId with
  | none => M.raise (.notFound "Ticket not found")
  | some ticket =>
    if ticket.organizationId ≠ organizationId then M.raise (.notFound "Ticket not found")
    else pure ticket

def listEvents (organizationId ticketId : Uuid) : M S (List TicketEvent) := do
  let _ ← getTicket organizationId ticketId
  query (.eventsOf ticketId)

/-- Validate and apply a status change, appending a history event. Does not commit. -/
def transition (ticketId : Uuid) (toStatus : TicketStatus) (actorUserId : Option Uuid)
    (eventType : String) (message : Option String) (flushes : Bool) : M S Ticket := do
  let ticket ← ticketAttrs ticketId
  if !canTransition ticket.status toStatus then
    M.raise (.invalidTransition ticket.status toStatus)
  else
    setTicket ticketId { status := some toStatus }
    let id ← uuid4
    add (.ticketEvent
      { id, ticketId, organizationId := ticket.organizationId, eventType,
        fromStatus := some ticket.status, toStatus := some toStatus, actorUserId, message,
        createdAt := 0 })
    if flushes then flush
    ticketAttrs ticketId

/-- `(edited_response if edited_response is not None else ticket.draft_response) or ""`. -/
def finalOf (ticket : Ticket) (editedResponse : Option String) : String :=
  (editedResponse.or ticket.draftResponse).getD ""

def approvedMessage (editedResponse : Option String) : String :=
  "Response approved" ++ if editedResponse.isSome then " (edited)" else ""

/-- Approve the draft, or an edited response, and send the approved webhook. -/
def approve (cfg : Config S) (ticketId actorUserId : Uuid) (editedResponse : Option String) :
    M S Ticket := do
  let ticket ← ticketAttrs ticketId
  let final := finalOf ticket editedResponse
  if isBlank final then
    M.raise (.emptyResponse "A non-empty final response is required to approve")
  else
    setTicket ticketId { finalResponse := some (some final) }
    let _ ← transition ticketId .approved (some actorUserId) "approved"
      (some (approvedMessage editedResponse)) true
    let _ ← record .responseApproved (some ticket.organizationId) (some actorUserId)
      (some "ticket") (some ticketId.str) (some [("edited", .bool editedResponse.isSome)]) false
    commit
    let _ ← refreshTicket ticketId
    let _ ← WebhookService.enqueueForTicket cfg ticketId "ticket.approved"
    ticketAttrs ticketId

def reject (ticketId actorUserId : Uuid) (reason : Option String) : M S Ticket := do
  let ticket ← transition ticketId .rejected (some actorUserId) "rejected" reason true
  let _ ← record .responseRejected (some ticket.organizationId) (some actorUserId)
    (some "ticket") (some ticketId.str) (some [("reason", MetaValue.ofOption reason)]) false
  commit
  refreshTicket ticketId

def editDraft (ticketId actorUserId : Uuid) (content : String) : M S Ticket := do
  if isBlank content then M.raise (.emptyResponse "Draft content must not be empty")
  else
    let ticket ← ticketAttrs ticketId
    setTicket ticketId { draftResponse := some (some content) }
    let id ← uuid4
    add (.ticketEvent
      { id, ticketId, organizationId := ticket.organizationId, eventType := "edited",
        fromStatus := none, toStatus := none, actorUserId := some actorUserId,
        message := some "Draft edited", createdAt := 0 })
    commit
    refreshTicket ticketId

end AgentDesk.TicketService
