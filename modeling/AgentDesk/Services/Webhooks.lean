import AgentDesk.Model.Config

namespace AgentDesk

variable {S : Type}

/-- `audit_service.record`. -/
def record (event : AuditEvent) (organizationId actorUserId : Option Uuid)
    (targetType targetId : Option String) (metadata : Option Meta) (commits : Bool) :
    M S AuditLog := do
  let id ← uuid4
  let entry : AuditLog :=
    { id, organizationId, actorUserId, event, targetType, targetId, metadata, createdAt := 0 }
  add (.auditLog entry)
  flush
  if commits then commit
  pure entry

namespace WebhookService

def signatureHeader : String := "X-AgentDesk-Signature"
def timestampHeader : String := "X-AgentDesk-Timestamp"
def eventHeader : String := "X-AgentDesk-Event"

def serializePayload (payload : Json) : List Char := payload.dumps

def sign (P : Platform) (secret : String) (body : List Char) : String :=
  "sha256=" ++ P.hmacSha256 secret (String.ofList body)

def verify (P : Platform) (secret : String) (body : List Char) (signature : String) : Bool :=
  sign P secret body == signature

def getConfig (organizationId : Uuid) : M S (Option Webhook) := do
  match ← query (.webhookOf organizationId) with
  | none => pure none
  | some w => some <$> identify w

def upsertConfig (organizationId : Uuid) (url secret : String) (isActive : Bool) :
    M S Webhook := do
  match ← getConfig organizationId with
  | none =>
    let id ← uuid4
    add (.webhook { id, organizationId, url, secret, isActive, createdAt := 0 })
    commit
    refreshWebhook id
  | some webhook =>
    setWebhook webhook.id { url := some url, secret := some secret, isActive := some isActive }
    commit
    refreshWebhook webhook.id

def optional : Option String → Json
  | none => .null
  | some s => .str s

def buildTicketPayload (P : Platform) (ticket : Ticket) (event : String) (deliveryId : Uuid)
    (now : Time) : Json :=
  .obj
    [("event", .str event),
      ("delivery_id", .str deliveryId.str),
      ("organization_id", .str ticket.organizationId.str),
      ("ticket", .obj
        [("id", .str ticket.id.str),
          ("title", .str ticket.title),
          ("status", .str ticket.status.value),
          ("priority", .str ticket.priority.value),
          ("final_response", optional ticket.finalResponse),
          ("updated_at", .str (P.isoformat ticket.updatedAt))]),
      ("sent_at", .str (P.isoformat now))]

def attemptHeaders (P : Platform) (event secret : String) (body : List Char) (now : Time) :
    List (String × String) :=
  [("Content-Type", "application/json"),
    (eventHeader, event),
    (timestampHeader, toString (now / 1000000)),
    (signatureHeader, sign P secret body)]

/-- The POST of one attempt; whatever it raises is recorded and counts as a failure. -/
def attempt (deliveryId : Uuid) (url : String) (body : List Char)
    (headers : List (String × String)) : M S Bool :=
  M.except
    (do
      let status ← post url body headers
      setDelivery deliveryId { lastStatusCode := some (some status) }
      pure (decide (200 ≤ status ∧ status < 300)))
    (fun exc => do
      setDelivery deliveryId { lastError := some (some exc.str) }
      pure false)

/-- `deliver_once` once the endpoint has answered. -/
def settleAttempt (cfg : Config S) (deliveryId : Uuid) (success : Bool) : M S Bool := do
  let delivery ← deliveryAttrs deliveryId
  if success then
    setDelivery deliveryId { status := some .success }
    let _ ← record .webhookSent (some delivery.organizationId) none (some "webhook_delivery")
      (some deliveryId.str)
      (some [("event", .str delivery.event),
        ("status_code", (delivery.lastStatusCode.map MetaValue.int).getD .null)])
      false
  else if cfg.settings.webhookMaxRetries ≤ delivery.attempts then
    setDelivery deliveryId { status := some .failed }
  commit
  pure success

/-- `deliver_once` once the delivery and its webhook are loaded. -/
def performAttempt (cfg : Config S) (delivery : WebhookDelivery) (webhook : Webhook)
    (ownsClient : Bool) : M S Bool := do
  let body := serializePayload delivery.payload
  let now ← clock
  let headers := attemptHeaders cfg.platform delivery.event webhook.secret body now
  setDelivery delivery.id { attempts := some (delivery.attempts + 1) }
  let success ← attempt delivery.id webhook.url body headers
  if ownsClient then aclose
  settleAttempt cfg delivery.id success

/-- Perform a single delivery attempt; true on success (HTTP 2xx). -/
def deliverOnce (cfg : Config S) (deliveryId : Uuid) (ownsClient : Bool) : M S Bool := do
  match ← getDelivery deliveryId with
  | none => pure false
  | some delivery =>
    match ← getWebhook delivery.webhookId with
    | none => pure false
    | some webhook => performAttempt cfg delivery webhook ownsClient

/-- Deliver now, hand the delivery to a worker, or leave it pending. -/
def dispatch (cfg : Config S) (delivery : WebhookDelivery) : M S WebhookDelivery := do
  if !cfg.settings.webhookDispatchEnabled then pure delivery
  else if cfg.settings.webhookDeliveryEager then
    let _ ← deliverOnce cfg delivery.id true
    deliveryAttrs delivery.id
  else
    enqueue (.deliverWebhook delivery.id)
    pure delivery

/-- Record a pending delivery, if the organization has an active webhook, and dispatch it. -/
def enqueueForTicket (cfg : Config S) (ticketId : Uuid) (event : String) :
    M S (Option WebhookDelivery) := do
  let ticket ← ticketAttrs ticketId
  match ← getConfig ticket.organizationId with
  | none => pure none
  | some webhook =>
    if !webhook.isActive then pure none
    else
      let id ← uuid4
      add (.delivery
        { id, webhookId := webhook.id, organizationId := ticket.organizationId, event,
          payload := .obj [], status := .pending, attempts := 0, lastStatusCode := none,
          lastError := none, createdAt := 0 })
      flush
      let now ← clock
      setDelivery id { payload := some (buildTicketPayload cfg.platform ticket event id now) }
      commit
      let delivery ← refreshDelivery id
      some <$> dispatch cfg delivery

end WebhookService

end AgentDesk
