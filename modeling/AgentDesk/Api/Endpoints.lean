import AgentDesk.Api.Schemas

namespace AgentDesk.Api

variable {S α : Type}

/-- Translate the exceptions that an endpoint catches into HTTP errors. -/
def catching (p : M S α) (status : Err → Option (Nat × String)) : M S α :=
  M.except p fun exc =>
    match status exc with
    | some (code, detail) => M.raise (.http code detail)
    | none => M.raise exc

/-! `auth.py` -/

def register (cfg : Config S) (body : RegisterRequest) : M S Response := do
  let tokens ← catching
    (AuthService.register cfg body.organizationName body.email body.password)
    fun exc => match exc with | .conflict m => some (409, m) | _ => none
  pure ⟨201, .tokens tokens⟩

def login (cfg : Config S) (body : LoginRequest) : M S Response := do
  let (tokens, user) ← M.except (AuthService.authenticate cfg body.email body.password) fun exc =>
    match exc with
    | .auth _ => do
      let _ ← record .loginFailed none none none none (some [("email", .str body.email)]) true
      M.raise (.http 401 "Invalid credentials")
    | _ => M.raise exc
  let _ ← record .loginSuccess (some user.organizationId) (some user.id) none none none true
  pure ⟨200, .tokens tokens⟩

def refresh (cfg : Config S) (body : RefreshRequest) : M S Response := do
  let tokens ← catching (AuthService.refresh cfg body.refreshToken)
    fun exc => match exc with | .auth _ => some (401, "Invalid refresh token") | _ => none
  pure ⟨200, .tokens tokens⟩

/-! `users.py` -/

def listUsers (current : User) : M S Response := do
  let users ← UserService.listUsers current.organizationId
  pure ⟨200, .users (users.map UserOut.of)⟩

def createUser (cfg : Config S) (current : User) (body : UserCreate) : M S Response := do
  let user ← catching
    (UserService.createUser cfg current.organizationId body.email body.password body.role)
    fun exc => match exc with | .conflict m => some (409, m) | _ => none
  pure ⟨201, .user (UserOut.of user)⟩

/-! `tickets.py` and `approvals.py` -/

/-- The 404 of a ticket that is not the caller's. -/
def load (organizationId ticketId : Uuid) : M S Ticket :=
  catching (TicketService.getTicket organizationId ticketId)
    fun exc => match exc with | .notFound _ => some (404, "Ticket not found") | _ => none

def createTicket (current : User) (body : TicketCreate) : M S Response := do
  let ticket ← TicketService.createTicket current.organizationId current.id body.title
    body.description body.priority
  pure ⟨201, .ticket ticket⟩

def listTickets (current : User) (status : Option TicketStatus) : M S Response := do
  let tickets ← TicketService.listTickets current.organizationId status
  pure ⟨200, .tickets tickets⟩

def getTicket (current : User) (ticketId : Uuid) : M S Response := do
  let ticket ← load current.organizationId ticketId
  pure ⟨200, .ticket ticket⟩

def listTicketEvents (current : User) (ticketId : Uuid) : M S Response := do
  let events ← catching (TicketService.listEvents current.organizationId ticketId)
    fun exc => match exc with | .notFound _ => some (404, "Ticket not found") | _ => none
  pure ⟨200, .events (events.map TicketEventOut.of)⟩

/-- The errors that `approve`, `reject` and `edit_draft` translate. -/
def decisionStatus (exc : Err) : Option (Nat × String) :=
  match exc with
  | .emptyResponse m => some (422, m)
  | .invalidTransition _ _ => some (409, exc.str)
  | _ => none

def approve (cfg : Config S) (current : User) (ticketId : Uuid) (body : ApproveRequest) :
    M S Response := do
  let _ ← load current.organizationId ticketId
  let ticket ← catching
    (TicketService.approve cfg ticketId current.id body.editedResponse) decisionStatus
  pure ⟨200, .ticket ticket⟩

def reject (current : User) (ticketId : Uuid) (body : RejectRequest) : M S Response := do
  let _ ← load current.organizationId ticketId
  let ticket ← catching (TicketService.reject ticketId current.id body.reason) decisionStatus
  pure ⟨200, .ticket ticket⟩

def editDraft (current : User) (ticketId : Uuid) (body : EditDraftRequest) : M S Response := do
  let _ ← load current.organizationId ticketId
  let ticket ← catching (TicketService.editDraft ticketId current.id body.content) decisionStatus
  pure ⟨200, .ticket ticket⟩

/-! `agent.py` -/

def runWorkflow (cfg : Config S) (workflow : Workflow S) (current : User) (ticketId : Uuid) :
    M S Response := do
  let ticket ← load current.organizationId ticketId
  if ticket.status = .closed then
    M.raise (.http 409 "Cannot run the workflow on a closed ticket")
  else
    let run ← AgentRunService.startRun ticketId (some current.id)
    if cfg.settings.agentRunEager then
      let run ← AgentRunService.executeRun cfg workflow run.id
      pure ⟨202, .agentRun (AgentRunOut.of run)⟩
    else
      enqueue (.runAgent run.id)
      pure ⟨202, .agentRun (AgentRunOut.of run)⟩

/-! `documents.py` -/

section

variable [Field S] [LinearOrder S] [FloorRing S]

def createDocument (cfg : Config S) (current : User) (body : DocumentCreate) : M S Response := do
  let (document, chunkCount) ← DocumentService.createDocument cfg current.organizationId
    current.id body.title body.content body.sourceType
  pure ⟨201, .document (DocumentOut.of document chunkCount)⟩

def listDocuments (current : User) : M S Response := do
  let results ← DocumentService.listDocuments current.organizationId
  pure ⟨200, .documents (results.map fun x => DocumentOut.of x.1 x.2)⟩

def searchDocuments (cfg : Config S) (current : User) (body : SearchRequest) : M S Response := do
  let hits ← RetrievalService.search cfg current.organizationId body.query body.threshold
    (some body.topK)
  pure ⟨200, .hits (hits.map fun h =>
    ⟨h.chunk.id, h.chunk.documentId, h.chunk.content, roundTo 6 (h.score.getD 0)⟩)⟩

end

/-! `webhooks.py` and `metrics.py` -/

def getWebhook (current : User) : M S Response := do
  let webhook ← WebhookService.getConfig current.organizationId
  pure ⟨200, .webhook (webhook.map WebhookOut.of)⟩

def putWebhook (current : User) (body : WebhookConfig) : M S Response := do
  let webhook ← WebhookService.upsertConfig current.organizationId body.url body.secret
    body.isActive
  pure ⟨200, .webhook (some (WebhookOut.of webhook))⟩

def listDeliveries (current : User) : M S Response := do
  let rows ← query (.deliveriesOf current.organizationId)
  pure ⟨200, .deliveries (rows.map WebhookDeliveryOut.of)⟩

def getMetrics (current : User) : M S Response := do
  let metrics ← MetricsService.compute current.organizationId
  pure ⟨200, .metrics metrics⟩

/-! Routing -/

/-- The requests behind `require_role`. -/
inductive Action where
  | listUsers
  | createUser (body : UserCreate)
  | createTicket (body : TicketCreate)
  | listTickets (status : Option TicketStatus)
  | getTicket (ticketId : Uuid)
  | listTicketEvents (ticketId : Uuid)
  | createDocument (body : DocumentCreate)
  | listDocuments
  | searchDocuments (body : SearchRequest)
  | runWorkflow (ticketId : Uuid)
  | approve (ticketId : Uuid) (body : ApproveRequest)
  | reject (ticketId : Uuid) (body : RejectRequest)
  | editDraft (ticketId : Uuid) (body : EditDraftRequest)
  | getWebhook
  | putWebhook (body : WebhookConfig)
  | listDeliveries
  | getMetrics

inductive Request where
  | register (body : RegisterRequest)
  | login (body : LoginRequest)
  | refresh (body : RefreshRequest)
  | authenticated (creds : Option Token) (action : Action)

/-- The roles that each endpoint passes to `require_role`. -/
def Action.allowed : Action → List Role
  | .listUsers | .createUser _ | .getWebhook | .putWebhook _ | .listDeliveries | .getMetrics =>
    [.admin]
  | .createTicket _ | .createDocument _ | .runWorkflow _ | .approve _ _ | .reject _ _
  | .editDraft _ _ => [.admin, .operator]
  | .listTickets _ | .getTicket _ | .listTicketEvents _ | .listDocuments | .searchDocuments _ =>
    [.admin, .operator, .viewer]

section

variable [Field S] [LinearOrder S] [FloorRing S]

def Action.handle (cfg : Config S) (workflow : Workflow S) (current : User) :
    Action → M S Response
  | .listUsers => Api.listUsers current
  | .createUser body => Api.createUser cfg current body
  | .createTicket body => Api.createTicket current body
  | .listTickets status => Api.listTickets current status
  | .getTicket ticketId => Api.getTicket current ticketId
  | .listTicketEvents ticketId => Api.listTicketEvents current ticketId
  | .createDocument body => Api.createDocument cfg current body
  | .listDocuments => Api.listDocuments current
  | .searchDocuments body => Api.searchDocuments cfg current body
  | .runWorkflow ticketId => Api.runWorkflow cfg workflow current ticketId
  | .approve ticketId body => Api.approve cfg current ticketId body
  | .reject ticketId body => Api.reject current ticketId body
  | .editDraft ticketId body => Api.editDraft current ticketId body
  | .getWebhook => Api.getWebhook current
  | .putWebhook body => Api.putWebhook current body
  | .listDeliveries => Api.listDeliveries current
  | .getMetrics => Api.getMetrics current

def Request.handle (cfg : Config S) (workflow : Workflow S) : Request → M S Response
  | .register body => Api.register cfg body
  | .login body => Api.login cfg body
  | .refresh body => Api.refresh cfg body
  | .authenticated creds action => do
    let current ← requireRole cfg action.allowed creds
    action.handle cfg workflow current

end

end AgentDesk.Api
