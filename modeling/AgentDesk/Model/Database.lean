import AgentDesk.Model.Records
import AgentDesk.Model.Text

namespace AgentDesk

open Framework (Table)

/-- The committed tables. -/
structure DB (S : Type) where
  organizations : Table Organization
  users : Table User
  tickets : Table Ticket
  ticketEvents : Table TicketEvent
  auditLogs : Table AuditLog
  agentRuns : Table AgentRun
  webhooks : Table Webhook
  webhookDeliveries : Table WebhookDelivery
  documents : Table Document
  documentChunks : Table (DocumentChunk S)

def DB.empty {S : Type} : DB S :=
  ⟨.empty, .empty, .empty, .empty, .empty, .empty, .empty, .empty, .empty, .empty⟩

/-- The columns that an UPDATE of a ticket writes; `none` leaves the column alone. -/
structure TicketPatch where
  status : Option TicketStatus := none
  suggestedType : Option (Option String) := none
  suggestedPriority : Option (Option TicketPriority) := none
  draftResponse : Option (Option String) := none
  finalResponse : Option (Option String) := none
  deriving DecidableEq

structure AgentRunPatch where
  status : Option AgentRunStatus := none
  classification : Option (Option Classification) := none
  retrievedChunkIds : Option (Option (List String)) := none
  retrievalHit : Option Bool := none
  draft : Option (Option String) := none
  confidence : Option (Option ℚ) := none
  outcome : Option (Option AgentRunOutcome) := none
  latencyMs : Option (Option Nat) := none
  estimatedCostUsd : Option (Option ℚ) := none
  promptTokens : Option (Option Nat) := none
  completionTokens : Option (Option Nat) := none
  error : Option (Option String) := none
  finishedAt : Option (Option Time) := none
  deriving DecidableEq

structure WebhookPatch where
  url : Option String := none
  secret : Option String := none
  isActive : Option Bool := none
  deriving DecidableEq

structure DeliveryPatch where
  payload : Option Json := none
  status : Option DeliveryStatus := none
  attempts : Option Nat := none
  lastStatusCode : Option (Option Nat) := none
  lastError : Option (Option String) := none
  deriving DecidableEq

def TicketPatch.apply (p : TicketPatch) (t : Ticket) : Ticket :=
  { t with
    status := p.status.getD t.status
    suggestedType := p.suggestedType.getD t.suggestedType
    suggestedPriority := p.suggestedPriority.getD t.suggestedPriority
    draftResponse := p.draftResponse.getD t.draftResponse
    finalResponse := p.finalResponse.getD t.finalResponse }

def AgentRunPatch.apply (p : AgentRunPatch) (r : AgentRun) : AgentRun :=
  { r with
    status := p.status.getD r.status
    classification := p.classification.getD r.classification
    retrievedChunkIds := p.retrievedChunkIds.getD r.retrievedChunkIds
    retrievalHit := p.retrievalHit.getD r.retrievalHit
    draft := p.draft.getD r.draft
    confidence := p.confidence.getD r.confidence
    outcome := p.outcome.getD r.outcome
    latencyMs := p.latencyMs.getD r.latencyMs
    estimatedCostUsd := p.estimatedCostUsd.getD r.estimatedCostUsd
    promptTokens := p.promptTokens.getD r.promptTokens
    completionTokens := p.completionTokens.getD r.completionTokens
    error := p.error.getD r.error
    finishedAt := p.finishedAt.getD r.finishedAt }

def WebhookPatch.apply (p : WebhookPatch) (w : Webhook) : Webhook :=
  { w with
    url := p.url.getD w.url
    secret := p.secret.getD w.secret
    isActive := p.isActive.getD w.isActive }

def DeliveryPatch.apply (p : DeliveryPatch) (d : WebhookDelivery) : WebhookDelivery :=
  { d with
    payload := p.payload.getD d.payload
    status := p.status.getD d.status
    attempts := p.attempts.getD d.attempts
    lastStatusCode := p.lastStatusCode.getD d.lastStatusCode
    lastError := p.lastError.getD d.lastError }

/-- A column is written when its value differs from the one that was loaded. -/
def changed {β : Type} [DecidableEq β] (loaded cur : β) : Option β :=
  if loaded = cur then none else some cur

@[simp] theorem changed_self {β : Type} [DecidableEq β] (a : β) : changed a a = none := by
  simp [changed]

theorem changed_eq_some {β : Type} [DecidableEq β] {a b x : β} :
    changed a b = some x ↔ a ≠ b ∧ b = x := by
  by_cases h : a = b <;> simp [changed, h]

theorem changed_getD {β : Type} [DecidableEq β] (a b : β) : (changed a b).getD a = b := by
  by_cases h : a = b <;> simp [changed, h]

def Ticket.diff (l c : Ticket) : TicketPatch where
  status := changed l.status c.status
  suggestedType := changed l.suggestedType c.suggestedType
  suggestedPriority := changed l.suggestedPriority c.suggestedPriority
  draftResponse := changed l.draftResponse c.draftResponse
  finalResponse := changed l.finalResponse c.finalResponse

def AgentRun.diff (l c : AgentRun) : AgentRunPatch where
  status := changed l.status c.status
  classification := changed l.classification c.classification
  retrievedChunkIds := changed l.retrievedChunkIds c.retrievedChunkIds
  retrievalHit := changed l.retrievalHit c.retrievalHit
  draft := changed l.draft c.draft
  confidence := changed l.confidence c.confidence
  outcome := changed l.outcome c.outcome
  latencyMs := changed l.latencyMs c.latencyMs
  estimatedCostUsd := changed l.estimatedCostUsd c.estimatedCostUsd
  promptTokens := changed l.promptTokens c.promptTokens
  completionTokens := changed l.completionTokens c.completionTokens
  error := changed l.error c.error
  finishedAt := changed l.finishedAt c.finishedAt

def Webhook.diff (l c : Webhook) : WebhookPatch where
  url := changed l.url c.url
  secret := changed l.secret c.secret
  isActive := changed l.isActive c.isActive

def WebhookDelivery.diff (l c : WebhookDelivery) : DeliveryPatch where
  payload := changed l.payload c.payload
  status := changed l.status c.status
  attempts := changed l.attempts c.attempts
  lastStatusCode := changed l.lastStatusCode c.lastStatusCode
  lastError := changed l.lastError c.lastError

/-- A new row of any table. -/
inductive Row (S : Type) where
  | organization (o : Organization)
  | user (u : User)
  | ticket (t : Ticket)
  | ticketEvent (e : TicketEvent)
  | auditLog (a : AuditLog)
  | agentRun (r : AgentRun)
  | webhook (w : Webhook)
  | delivery (d : WebhookDelivery)
  | document (d : Document)
  | chunk (c : DocumentChunk S)

/-- The statements that change the tables. -/
inductive Write (S : Type) where
  | insert (row : Row S)
  | updateTicket (id : Uuid) (p : TicketPatch)
  | updateAgentRun (id : Uuid) (p : AgentRunPatch)
  | updateWebhook (id : Uuid) (p : WebhookPatch)
  | updateDelivery (id : Uuid) (p : DeliveryPatch)

variable {S : Type}

def Row.id : Row S → Uuid
  | .organization o => o.id
  | .user u => u.id
  | .ticket t => t.id
  | .ticketEvent e => e.id
  | .auditLog a => a.id
  | .agentRun r => r.id
  | .webhook w => w.id
  | .delivery d => d.id
  | .document d => d.id
  | .chunk c => c.id

/-- Insert a row; `created_at` is the start of the transaction. -/
def Row.insert (start : Time) (db : DB S) : Row S → DB S
  | .organization o =>
    { db with organizations := db.organizations.insert { o with createdAt := start } }
  | .user u => { db with users := db.users.insert { u with createdAt := start } }
  | .ticket t =>
    { db with tickets := db.tickets.insert { t with createdAt := start, updatedAt := start } }
  | .ticketEvent e =>
    { db with ticketEvents := db.ticketEvents.insert { e with createdAt := start } }
  | .auditLog a => { db with auditLogs := db.auditLogs.insert { a with createdAt := start } }
  | .agentRun r => { db with agentRuns := db.agentRuns.insert { r with createdAt := start } }
  | .webhook w => { db with webhooks := db.webhooks.insert { w with createdAt := start } }
  | .delivery d =>
    { db with webhookDeliveries := db.webhookDeliveries.insert { d with createdAt := start } }
  | .document d => { db with documents := db.documents.insert { d with createdAt := start } }
  | .chunk c => { db with documentChunks := db.documentChunks.insert c }

def Row.isPresent (db : DB S) : Row S → Bool
  | .organization o => (db.organizations.find? o.id).isSome
  | .user u => (db.users.find? u.id).isSome
  | .ticket t => (db.tickets.find? t.id).isSome
  | .ticketEvent e => (db.ticketEvents.find? e.id).isSome
  | .auditLog a => (db.auditLogs.find? a.id).isSome
  | .agentRun r => (db.agentRuns.find? r.id).isSome
  | .webhook w => (db.webhooks.find? w.id).isSome
  | .delivery d => (db.webhookDeliveries.find? d.id).isSome
  | .document d => (db.documents.find? d.id).isSome
  | .chunk c => (db.documentChunks.find? c.id).isSome

/-- The effect of one statement on the tables; an UPDATE of a ticket also renews
`updated_at`. -/
def Write.apply (start : Time) (db : DB S) : Write S → DB S
  | .insert row => row.insert start db
  | .updateTicket id p =>
    { db with tickets :=
        db.tickets.update id (fun t => { p.apply t with updatedAt := start }) (fun _ => rfl) }
  | .updateAgentRun id p =>
    { db with agentRuns := db.agentRuns.update id p.apply (fun _ => rfl) }
  | .updateWebhook id p =>
    { db with webhooks := db.webhooks.update id p.apply (fun _ => rfl) }
  | .updateDelivery id p =>
    { db with webhookDeliveries := db.webhookDeliveries.update id p.apply (fun _ => rfl) }

def applyAll (start : Time) (db : DB S) (ws : List (Write S)) : DB S :=
  ws.foldl (Write.apply start) db

@[simp] theorem applyAll_nil (start : Time) (db : DB S) : applyAll start db [] = db := rfl

@[simp] theorem applyAll_cons (start : Time) (db : DB S) (x : Write S) (ws : List (Write S)) :
    applyAll start db (x :: ws) = applyAll start (x.apply start db) ws := rfl

theorem applyAll_append (start : Time) (db : DB S) (xs ys : List (Write S)) :
    applyAll start db (xs ++ ys) = applyAll start (applyAll start db xs) ys :=
  List.foldl_append

/-- What two open transactions cannot both hold: the lock of a row that is updated, or an
entry of a unique index. -/
inductive Lock where
  | ticket (id : Uuid)
  | agentRun (id : Uuid)
  | webhook (id : Uuid)
  | delivery (id : Uuid)
  | organizationName (name : String)
  | userEmail (organizationId : Uuid) (email : String)
  | webhookOwner (organizationId : Uuid)
  deriving DecidableEq

def Write.lock? : Write S → Option Lock
  | .insert (.organization o) => some (.organizationName o.name)
  | .insert (.user u) => some (.userEmail u.organizationId u.email)
  | .insert (.webhook w) => some (.webhookOwner w.organizationId)
  | .insert _ => none
  | .updateTicket id _ => some (.ticket id)
  | .updateAgentRun id _ => some (.agentRun id)
  | .updateWebhook id _ => some (.webhook id)
  | .updateDelivery id _ => some (.delivery id)

/-- The unique constraints beyond the primary keys: `organizations.name`,
`uq_user_org_email` and `webhooks.organization_id`. -/
def Row.isTaken (db : DB S) : Row S → Bool
  | .organization o => db.organizations.rows.any fun x => x.name == o.name
  | .user u =>
    db.users.rows.any fun x => x.organizationId == u.organizationId && x.email == u.email
  | .webhook w => db.webhooks.rows.any fun x => x.organizationId == w.organizationId
  | _ => false

/-- The statement violates a constraint in these tables. -/
def Write.violates (db : DB S) : Write S → Bool
  | .insert row => row.isPresent db || row.isTaken db
  | _ => false

/-- One of the statements violates a constraint when they are carried out in order. -/
def violatesAny (start : Time) : DB S → List (Write S) → Bool
  | _, [] => false
  | db, x :: ws => x.violates db || violatesAny start (x.apply start db) ws

end AgentDesk
