import AgentDesk.Services.AgentRuns
import AgentDesk.Services.Accounts
import AgentDesk.Services.Documents
import AgentDesk.Services.Metrics

namespace AgentDesk

variable {S : Type}

/-! Request bodies; a field that pydantic constrains carries the constraint. -/

structure RegisterRequest where
  organizationName : String
  email : String
  password : String
  organizationName_length : 1 ≤ organizationName.length ∧ organizationName.length ≤ 255
  password_length : 8 ≤ password.length ∧ password.length ≤ 128

structure LoginRequest where
  email : String
  password : String
  password_length : 1 ≤ password.length

structure RefreshRequest where
  refreshToken : Token

structure UserCreate where
  email : String
  password : String
  role : Role
  password_length : 8 ≤ password.length ∧ password.length ≤ 128

structure TicketCreate where
  title : String
  description : String
  priority : TicketPriority
  title_length : 1 ≤ title.length ∧ title.length ≤ 255
  description_length : 1 ≤ description.length

structure ApproveRequest where
  editedResponse : Option String

structure RejectRequest where
  reason : Option String

structure EditDraftRequest where
  content : String
  content_length : 1 ≤ content.length

structure DocumentCreate where
  title : String
  content : String
  sourceType : DocumentSource
  title_length : 1 ≤ title.length ∧ title.length ≤ 255
  content_not_blank : isBlank content = false

structure SearchRequest where
  query : String
  threshold : Option ℚ
  topK : Nat
  query_length : 1 ≤ query.length
  threshold_range : ∀ x ∈ threshold, 0 ≤ x ∧ x ≤ 1
  topK_range : 1 ≤ topK ∧ topK ≤ 50

structure WebhookConfig where
  url : String
  secret : String
  isActive : Bool
  secret_length : 16 ≤ secret.length ∧ secret.length ≤ 255

/-! Response bodies -/

structure UserOut where
  id : Uuid
  organizationId : Uuid
  email : String
  role : Role
  isActive : Bool
  deriving DecidableEq

def UserOut.of (u : User) : UserOut := ⟨u.id, u.organizationId, u.email, u.role, u.isActive⟩

structure TicketEventOut where
  id : Uuid
  ticketId : Uuid
  eventType : String
  fromStatus : Option TicketStatus
  toStatus : Option TicketStatus
  actorUserId : Option Uuid
  message : Option String
  createdAt : Time
  deriving DecidableEq

def TicketEventOut.of (e : TicketEvent) : TicketEventOut :=
  ⟨e.id, e.ticketId, e.eventType, e.fromStatus, e.toStatus, e.actorUserId, e.message, e.createdAt⟩

structure AgentRunOut where
  id : Uuid
  ticketId : Uuid
  status : AgentRunStatus
  outcome : Option AgentRunOutcome
  confidence : Option ℚ
  retrievalHit : Bool
  draft : Option String
  latencyMs : Option Nat
  estimatedCostUsd : Option ℚ
  promptTokens : Option Nat
  completionTokens : Option Nat
  createdAt : Time
  finishedAt : Option Time
  deriving DecidableEq

def AgentRunOut.of (r : AgentRun) : AgentRunOut :=
  { id := r.id, ticketId := r.ticketId, status := r.status, outcome := r.outcome,
    confidence := r.confidence, retrievalHit := r.retrievalHit, draft := r.draft,
    latencyMs := r.latencyMs, estimatedCostUsd := r.estimatedCostUsd,
    promptTokens := r.promptTokens, completionTokens := r.completionTokens,
    createdAt := r.createdAt, finishedAt := r.finishedAt }

structure DocumentOut where
  id : Uuid
  organizationId : Uuid
  title : String
  sourceType : DocumentSource
  createdAt : Time
  chunkCount : Nat
  deriving DecidableEq

def DocumentOut.of (d : Document) (chunkCount : Nat) : DocumentOut :=
  ⟨d.id, d.organizationId, d.title, d.sourceType, d.createdAt, chunkCount⟩

structure SearchHit where
  chunkId : Uuid
  documentId : Uuid
  content : String
  score : ℚ
  deriving DecidableEq

/-- The secret is not part of it. -/
structure WebhookOut where
  id : Uuid
  organizationId : Uuid
  url : String
  isActive : Bool
  createdAt : Time
  deriving DecidableEq

def WebhookOut.of (w : Webhook) : WebhookOut :=
  ⟨w.id, w.organizationId, w.url, w.isActive, w.createdAt⟩

structure WebhookDeliveryOut where
  id : Uuid
  event : String
  status : DeliveryStatus
  attempts : Nat
  lastStatusCode : Option Nat
  lastError : Option String
  createdAt : Time
  deriving DecidableEq

def WebhookDeliveryOut.of (d : WebhookDelivery) : WebhookDeliveryOut :=
  ⟨d.id, d.event, d.status, d.attempts, d.lastStatusCode, d.lastError, d.createdAt⟩

inductive Body where
  | tokens (t : TokenPair)
  | user (u : UserOut)
  | users (us : List UserOut)
  | ticket (t : Ticket)
  | tickets (ts : List Ticket)
  | events (es : List TicketEventOut)
  | agentRun (r : AgentRunOut)
  | document (d : DocumentOut)
  | documents (ds : List DocumentOut)
  | hits (hs : List SearchHit)
  | webhook (w : Option WebhookOut)
  | deliveries (ds : List WebhookDeliveryOut)
  | metrics (m : Metrics)
  | detail (s : String)
  deriving DecidableEq

structure Response where
  status : Nat
  body : Body
  deriving DecidableEq

end AgentDesk
