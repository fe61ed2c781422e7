import AgentDesk.Framework.Table
import AgentDesk.Model.Json
import Mathlib.Data.Rat.Defs

namespace AgentDesk

open Framework (Keyed)

/-- A `uuid4` draw: the session that drew it and its number there. Two draws never meet. -/
structure Uuid where
  session : Nat
  draw : Nat
  deriving DecidableEq

/-- `str(uuid)`. -/
def Uuid.str (u : Uuid) : String := toString u.session ++ "-" ++ toString u.draw

/-- Microseconds. -/
abbrev Time := Nat

inductive TicketStatus where
  | new | triaged | draftReady | waitingApproval | approved | rejected | escalated | closed
  deriving DecidableEq

def TicketStatus.value : TicketStatus → String
  | .new => "new"
  | .triaged => "triaged"
  | .draftReady => "draft_ready"
  | .waitingApproval => "waiting_approval"
  | .approved => "approved"
  | .rejected => "rejected"
  | .escalated => "escalated"
  | .closed => "closed"

inductive TicketPriority where
  | low | medium | high | urgent
  deriving DecidableEq

def TicketPriority.value : TicketPriority → String
  | .low => "low"
  | .medium => "medium"
  | .high => "high"
  | .urgent => "urgent"

/-- `TicketPriority(value)`. -/
def TicketPriority.ofValue? (s : String) : Option TicketPriority :=
  [low, medium, high, urgent].find? fun p => p.value == s

/-- `ALLOWED_TRANSITIONS`. -/
def allowedTransitions : TicketStatus → List TicketStatus
  | .new => [.triaged, .waitingApproval, .escalated, .closed]
  | .triaged => [.draftReady, .waitingApproval, .escalated, .closed]
  | .draftReady => [.waitingApproval, .escalated, .closed]
  | .waitingApproval => [.approved, .rejected, .escalated, .closed]
  | .approved => [.closed]
  | .rejected => [.draftReady, .waitingApproval, .escalated, .closed]
  | .escalated => [.waitingApproval, .closed]
  | .closed => []

def canTransition (current target : TicketStatus) : Bool :=
  (allowedTransitions current).contains target

theorem canTransition_ne {a b : TicketStatus} (h : canTransition a b = true) : a ≠ b := by
  rintro rfl
  cases a <;> simp [canTransition, allowedTransitions] at h

theorem canTransition_approved {a : TicketStatus} :
    canTransition a .approved = true ↔ a = .waitingApproval := by
  cases a <;> decide

theorem canTransition_rejected {a : TicketStatus} :
    canTransition a .rejected = true ↔ a = .waitingApproval := by
  cases a <;> decide

inductive Role where
  | admin | operator | viewer
  deriving DecidableEq

inductive AgentRunStatus where
  | running | completed | failed
  deriving DecidableEq

inductive AgentRunOutcome where
  | waitingApproval | escalated
  deriving DecidableEq

inductive DeliveryStatus where
  | pending | success | failed
  deriving DecidableEq

inductive DocumentSource where
  | manual | upload
  deriving DecidableEq

inductive AuditEvent where
  | ticketCreated | agentRunStarted | retrievalCompleted | draftGenerated | responseApproved
  | responseRejected | ticketEscalated | webhookSent | loginSuccess | loginFailed
  deriving DecidableEq

/-- The values in the `meta` column of an audit row. -/
inductive MetaValue where
  | null
  | bool (b : Bool)
  | int (n : Nat)
  | float (q : ℚ)
  | str (s : String)
  deriving DecidableEq

abbrev Meta := List (String × MetaValue)

def MetaValue.ofOption : Option String → MetaValue
  | none => .null
  | some s => .str s

/-- The classifier's entry in `AgentRun.classification`. -/
structure Classification where
  type : String
  signals : List (String × Nat)
  deriving DecidableEq

structure Organization where
  id : Uuid
  name : String
  createdAt : Time
  deriving DecidableEq

structure User where
  id : Uuid
  organizationId : Uuid
  email : String
  hashedPassword : String
  role : Role
  isActive : Bool
  createdAt : Time
  deriving DecidableEq

structure Ticket where
  id : Uuid
  organizationId : Uuid
  title : String
  description : String
  priority : TicketPriority
  status : TicketStatus
  suggestedType : Option String
  suggestedPriority : Option TicketPriority
  draftResponse : Option String
  finalResponse : Option String
  createdBy : Option Uuid
  createdAt : Time
  updatedAt : Time
  deriving DecidableEq

structure TicketEvent where
  id : Uuid
  ticketId : Uuid
  organizationId : Uuid
  eventType : String
  fromStatus : Option TicketStatus
  toStatus : Option TicketStatus
  actorUserId : Option Uuid
  message : Option String
  createdAt : Time
  deriving DecidableEq

structure AuditLog where
  id : Uuid
  organizationId : Option Uuid
  actorUserId : Option Uuid
  event : AuditEvent
  targetType : Option String
  targetId : Option String
  metadata : Option Meta
  createdAt : Time
  deriving DecidableEq

structure AgentRun where
  id : Uuid
  ticketId : Uuid
  organizationId : Uuid
  status : AgentRunStatus
  classification : Option Classification
  retrievedChunkIds : Option (List String)
  retrievalHit : Bool
  draft : Option String
  confidence : Option ℚ
  outcome : Option AgentRunOutcome
  latencyMs : Option Nat
  estimatedCostUsd : Option ℚ
  promptTokens : Option Nat
  completionTokens : Option Nat
  error : Option String
  finishedAt : Option Time
  createdAt : Time
  deriving DecidableEq

structure Webhook where
  id : Uuid
  organizationId : Uuid
  url : String
  secret : String
  isActive : Bool
  createdAt : Time
  deriving DecidableEq

structure WebhookDelivery where
  id : Uuid
  webhookId : Uuid
  organizationId : Uuid
  event : String
  payload : Json
  status : DeliveryStatus
  attempts : Nat
  lastStatusCode : Option Nat
  lastError : Option String
  createdAt : Time
  deriving DecidableEq

structure Document where
  id : Uuid
  organizationId : Uuid
  title : String
  sourceType : DocumentSource
  content : String
  createdBy : Option Uuid
  createdAt : Time
  deriving DecidableEq

/-- A passage with its embedding, a vector over the scalars `S`. -/
structure DocumentChunk (S : Type) where
  id : Uuid
  organizationId : Uuid
  documentId : Uuid
  chunkIndex : Nat
  content : String
  embedding : List S
  deriving DecidableEq

instance : Keyed Organization Uuid := ⟨Organization.id⟩
instance : Keyed User Uuid := ⟨User.id⟩
instance : Keyed Ticket Uuid := ⟨Ticket.id⟩
instance : Keyed TicketEvent Uuid := ⟨TicketEvent.id⟩
instance : Keyed AuditLog Uuid := ⟨AuditLog.id⟩
instance : Keyed AgentRun Uuid := ⟨AgentRun.id⟩
instance : Keyed Webhook Uuid := ⟨Webhook.id⟩
instance : Keyed WebhookDelivery Uuid := ⟨WebhookDelivery.id⟩
instance : Keyed Document Uuid := ⟨Document.id⟩
instance {S : Type} : Keyed (DocumentChunk S) Uuid := ⟨DocumentChunk.id⟩

end AgentDesk
