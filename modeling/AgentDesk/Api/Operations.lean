import AgentDesk.Api.Jobs

namespace AgentDesk

open Framework (Program)

variable {S : Type}

/-- The operations on tickets and their runs, each in a database session of its own. -/
inductive Operation where
  | createTicket (organizationId actorUserId : Uuid) (title description : String)
      (priority : TicketPriority)
  | approve (organizationId ticketId actorUserId : Uuid) (editedResponse : Option String)
  | reject (organizationId ticketId actorUserId : Uuid) (reason : Option String)
  | editDraft (organizationId ticketId actorUserId : Uuid) (content : String)
  | startRun (organizationId ticketId : Uuid) (actorUserId : Option Uuid)
  | executeRun (runId : Uuid)

/-- The ticket is loaded with `get_ticket` before it is changed. -/
def Operation.run (cfg : Config S) (workflow : Workflow S) : Operation → M S Unit
  | .createTicket organizationId actorUserId title description priority => do
    let _ ← TicketService.createTicket organizationId actorUserId title description priority
  | .approve organizationId ticketId actorUserId editedResponse => do
    let _ ← TicketService.getTicket organizationId ticketId
    let _ ← TicketService.approve cfg ticketId actorUserId editedResponse
  | .reject organizationId ticketId actorUserId reason => do
    let _ ← TicketService.getTicket organizationId ticketId
    let _ ← TicketService.reject ticketId actorUserId reason
  | .editDraft organizationId ticketId actorUserId content => do
    let _ ← TicketService.getTicket organizationId ticketId
    let _ ← TicketService.editDraft ticketId actorUserId content
  | .startRun organizationId ticketId actorUserId => do
    let _ ← TicketService.getTicket organizationId ticketId
    let _ ← AgentRunService.startRun ticketId actorUserId
  | .executeRun runId => do
    let _ ← AgentRunService.executeRun cfg workflow runId

/-- An operation in session `c`: a request's session or, for an execution, a worker's. -/
def Operation.program (cfg : Config S) (workflow : Workflow S) (operation : Operation) (c : Nat) :
    Program (Op S) Res (Except Err Unit) :=
  let session : M S Unit := match operation with
    | .executeRun _ => sessionScope (operation.run cfg workflow)
    | _ => getDb (operation.run cfg workflow)
  (session (.start c)).bind fun x => .ret x.1

end AgentDesk
