import AgentDesk.Model.Database
import Mathlib.Data.List.Sort
import Mathlib.Algebra.BigOperators.Group.List.Basic

namespace AgentDesk

variable {S : Type}

/-- The SELECT statements. -/
inductive Query (S : Type) where
  | organizationByName (name : String)
  | user (id : Uuid)
  | userByEmail (email : String)
  | userInOrganization (organizationId : Uuid) (email : String)
  | usersOf (organizationId : Uuid)
  | ticket (id : Uuid)
  | ticketsOf (organizationId : Uuid) (status : Option TicketStatus)
  | eventsOf (ticketId : Uuid)
  | agentRun (id : Uuid)
  | webhookOf (organizationId : Uuid)
  | webhook (id : Uuid)
  | delivery (id : Uuid)
  | deliveriesOf (organizationId : Uuid)
  | document (id : Uuid)
  | documentsOf (organizationId : Uuid)
  | chunksOf (organizationId : Uuid)
  /-- `ORDER BY` a distance expression with `LIMIT`; `closer` is how the server sorts it. -/
  | chunksByDistance (organizationId : Uuid) (distance : List S → Option S)
      (closer : Option S → Option S → Bool) (limit : Nat)
  | countTickets (organizationId : Uuid)
  | ticketsByStatus (organizationId : Uuid)
  | averageLatency (organizationId : Uuid)
  | averageCost (organizationId : Uuid)
  | countCompleted (organizationId : Uuid)
  | countOutcome (organizationId : Uuid) (outcome : AgentRunOutcome)
  | countHits (organizationId : Uuid)
  | countFailedRuns (organizationId : Uuid)
  | countFailedDeliveries (organizationId : Uuid)

@[reducible] def Query.Result : Query S → Type
  | .organizationByName _ => Option Organization
  | .user _ => Option User
  | .userByEmail _ => Option User
  | .userInOrganization _ _ => Option User
  | .usersOf _ => List User
  | .ticket _ => Option Ticket
  | .ticketsOf _ _ => List Ticket
  | .eventsOf _ => List TicketEvent
  | .agentRun _ => Option AgentRun
  | .webhookOf _ => Option Webhook
  | .webhook _ => Option Webhook
  | .delivery _ => Option WebhookDelivery
  | .deliveriesOf _ => List WebhookDelivery
  | .document _ => Option Document
  | .documentsOf _ => List (Document × Nat)
  | .chunksOf _ => List (DocumentChunk S)
  | .chunksByDistance _ _ _ _ => List (DocumentChunk S × Option S)
  | .countTickets _ => Nat
  | .ticketsByStatus _ => List (TicketStatus × Nat)
  | .averageLatency _ => Option ℚ
  | .averageCost _ => Option ℚ
  | .countCompleted _ => Nat
  | .countOutcome _ _ => Nat
  | .countHits _ => Nat
  | .countFailedRuns _ => Nat
  | .countFailedDeliveries _ => Nat

/-- What the server chooses where the statement leaves it open: which of several rows
comes first without ORDER BY, and the rows an approximate index lets it see. -/
structure ServerChoice where
  pick : Nat
  probed : Option (List Uuid)

def pickFrom {ρ : Type} (pick : Nat) (rows : List ρ) : Option ρ := rows[pick]?.or rows.head?

/-- `ORDER BY created_at DESC`. -/
def newestFirst {ρ : Type} (createdAt : ρ → Time) (rows : List ρ) : List ρ :=
  rows.insertionSort fun a b => createdAt b ≤ createdAt a

/-- `ORDER BY created_at ASC`. -/
def oldestFirst {ρ : Type} (createdAt : ρ → Time) (rows : List ρ) : List ρ :=
  rows.insertionSort fun a b => createdAt a ≤ createdAt b

def average (xs : List ℚ) : Option ℚ := if xs.isEmpty then none else some (xs.sum / xs.length)

def ticketStatuses : List TicketStatus :=
  [.new, .triaged, .draftReady, .waitingApproval, .approved, .rejected, .escalated, .closed]

def DB.completedRuns (db : DB S) (organizationId : Uuid) : List AgentRun :=
  db.agentRuns.rows.filter fun r => r.organizationId == organizationId && r.status == .completed

/-- The answer of the server to a statement in the given tables. -/
def Query.eval (P : Platform) (choice : ServerChoice) (db : DB S) : (q : Query S) → q.Result
  | .organizationByName name =>
    pickFrom choice.pick (db.organizations.rows.filter fun o => o.name == name)
  | .user id => db.users.find? id
  | .userByEmail email =>
    pickFrom choice.pick (db.users.rows.filter fun u => P.sqlLower u.email == email)
  | .userInOrganization organizationId email =>
    pickFrom choice.pick (db.users.rows.filter fun u =>
      u.organizationId == organizationId && P.sqlLower u.email == email)
  | .usersOf organizationId =>
    oldestFirst User.createdAt (db.users.rows.filter fun u => u.organizationId == organizationId)
  | .ticket id => db.tickets.find? id
  | .ticketsOf organizationId status =>
    newestFirst Ticket.createdAt (db.tickets.rows.filter fun t =>
      t.organizationId == organizationId && status.all (t.status == ·))
  | .eventsOf ticketId =>
    oldestFirst TicketEvent.createdAt (db.ticketEvents.rows.filter fun e => e.ticketId == ticketId)
  | .agentRun id => db.agentRuns.find? id
  | .webhookOf organizationId =>
    pickFrom choice.pick (db.webhooks.rows.filter fun w => w.organizationId == organizationId)
  | .webhook id => db.webhooks.find? id
  | .delivery id => db.webhookDeliveries.find? id
  | .deliveriesOf organizationId =>
    (newestFirst WebhookDelivery.createdAt
      (db.webhookDeliveries.rows.filter fun d => d.organizationId == organizationId)).take 100
  | .document id => db.documents.find? id
  | .documentsOf organizationId =>
    (newestFirst Document.createdAt
      (db.documents.rows.filter fun d => d.organizationId == organizationId)).map fun d =>
        (d, (db.documentChunks.rows.filter fun c => c.documentId == d.id).length)
  | .chunksOf organizationId =>
    db.documentChunks.rows.filter fun c => c.organizationId == organizationId
  | .chunksByDistance organizationId distance closer limit =>
    let visible := db.documentChunks.rows.filter fun c => choice.probed.all (·.contains c.id)
    ((visible.filter fun c => c.organizationId == organizationId).map fun c =>
      (c, distance c.embedding)).insertionSort (fun a b => closer a.2 b.2 = true) |>.take limit
  | .countTickets organizationId =>
    (db.tickets.rows.filter fun t => t.organizationId == organizationId).length
  | .ticketsByStatus organizationId =>
    (ticketStatuses.map fun s => (s, (db.tickets.rows.filter fun t =>
      t.organizationId == organizationId && t.status == s).length)).filter fun x => x.2 != 0
  | .averageLatency organizationId =>
    average ((db.completedRuns organizationId).filterMap fun r => r.latencyMs.map (Nat.cast ·))
  | .averageCost organizationId =>
    average ((db.completedRuns organizationId).filterMap (·.estimatedCostUsd))
  | .countCompleted organizationId => (db.completedRuns organizationId).length
  | .countOutcome organizationId outcome =>
    ((db.completedRuns organizationId).filter fun r => r.outcome == some outcome).length
  | .countHits organizationId =>
    ((db.completedRuns organizationId).filter (·.retrievalHit)).length
  | .countFailedRuns organizationId =>
    (db.agentRuns.rows.filter fun r =>
      r.organizationId == organizationId && r.status == .failed).length
  | .countFailedDeliveries organizationId =>
    (db.webhookDeliveries.rows.filter fun d =>
      d.organizationId == organizationId && d.status == .failed).length

end AgentDesk
