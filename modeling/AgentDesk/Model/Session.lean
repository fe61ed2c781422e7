import AgentDesk.Model.Server

namespace AgentDesk

open Framework (Program)

variable {S α β : Type}

/-- An object of the identity map: the row as it was loaded or last flushed, and the
object's attributes now. -/
structure Tracked (ρ : Type) where
  loaded : ρ
  cur : ρ
  deriving DecidableEq

/-- An `AsyncSession` (`autoflush=False`, `expire_on_commit=False`): the objects it tracks
and the new rows it has not flushed. `draws` counts its `uuid4` calls. -/
structure Session (S : Type) where
  conn : Nat
  draws : Nat
  tickets : List (Tracked Ticket)
  agentRuns : List (Tracked AgentRun)
  webhooks : List (Tracked Webhook)
  deliveries : List (Tracked WebhookDelivery)
  new : List (Row S)

def Session.start (c : Nat) : Session S := ⟨c, 0, [], [], [], [], []⟩

/-- A coroutine over a session: it awaits calls, changes the session and returns or raises. -/
def M (S α : Type) : Type := Session S → Program (Op S) Res (Except Err α × Session S)

namespace M

def pure (a : α) : M S α := fun σ => .ret (.ok a, σ)

def bind (p : M S α) (f : α → M S β) : M S β := fun σ =>
  (p σ).bind fun x => match x with
    | (.ok a, σ') => f a σ'
    | (.error e, σ') => .ret (.error e, σ')

instance : Monad (M S) where
  pure := M.pure
  bind := M.bind

/-- `raise e`. -/
def raise (e : Err) : M S α := fun σ => .ret (.error e, σ)

/-- `try: p except Exception as e: h(e)`. The session keeps what `p` did to it. -/
def except (p : M S α) (h : Err → M S α) : M S α := fun σ =>
  (p σ).bind fun x => match x with
    | (.ok a, σ') => .ret (.ok a, σ')
    | (.error e, σ') => h e σ'

def session : M S (Session S) := fun σ => .ret (.ok σ, σ)

def modify (f : Session S → Session S) : M S Unit := fun σ => .ret (.ok (), f σ)

@[simp] theorem pure_apply (a : α) (σ : Session S) : (Pure.pure a : M S α) σ = .ret (.ok a, σ) := rfl

@[simp] theorem bind_apply (p : M S α) (f : α → M S β) (σ : Session S) :
    (p >>= f) σ = (p σ).bind fun x => match x with
      | (.ok a, σ') => f a σ'
      | (.error e, σ') => .ret (.error e, σ') := rfl

@[simp] theorem raise_apply (e : Err) (σ : Session S) : (raise e : M S α) σ = .ret (.error e, σ) := rfl

end M

/-! Calls -/

def query (q : Query S) : M S q.Result := fun σ => .call (.query q) fun r => .ret (r, σ)

def clock : M S Time := fun σ => .call .clock fun r => .ret (.ok r, σ)

def salt : M S Nat := fun σ => .call .salt fun r => .ret (.ok r, σ)

def embedCall (texts : List String) : M S (List (List S)) := fun σ =>
  .call (.embed texts) fun r => .ret (r, σ)

def chatCall (request : ChatRequest) : M S LLMResult := fun σ =>
  .call (.chat request) fun r => .ret (r, σ)

def post (url : String) (body : List Char) (headers : List (String × String)) : M S Nat := fun σ =>
  .call (.post url body headers) fun r => .ret (r, σ)

def aclose : M S Unit := fun σ => .call .aclose fun r => .ret (r, σ)

def enqueue (task : Task) : M S Unit := fun σ => .call (.enqueue task) fun r => .ret (r, σ)

/-- The primary key default, drawn when the row is added. -/
def uuid4 : M S Uuid := fun σ => .ret (.ok ⟨σ.conn, σ.draws⟩, { σ with draws := σ.draws + 1 })

/-! The unit of work -/

def Tracked.flushed {ρ : Type} (o : Tracked ρ) : Tracked ρ := ⟨o.cur, o.cur⟩

def dirtyTicket (o : Tracked Ticket) : Option (Write S) :=
  let p := o.loaded.diff o.cur
  if p = {} then none else some (.updateTicket o.loaded.id p)

def dirtyAgentRun (o : Tracked AgentRun) : Option (Write S) :=
  let p := o.loaded.diff o.cur
  if p = {} then none else some (.updateAgentRun o.loaded.id p)

def dirtyWebhook (o : Tracked Webhook) : Option (Write S) :=
  let p := o.loaded.diff o.cur
  if p = {} then none else some (.updateWebhook o.loaded.id p)

def dirtyDelivery (o : Tracked WebhookDelivery) : Option (Write S) :=
  let p := o.loaded.diff o.cur
  if p = {} then none else some (.updateDelivery o.loaded.id p)

namespace Session

/-- The statements a flush emits: the changed columns of the dirty objects, by primary
key, and the new rows. -/
def pending (σ : Session S) : List (Write S) :=
  σ.tickets.filterMap dirtyTicket ++ σ.agentRuns.filterMap dirtyAgentRun ++
    σ.webhooks.filterMap dirtyWebhook ++ σ.deliveries.filterMap dirtyDelivery ++
    σ.new.map .insert

/-- A flushed row becomes an object of the identity map. -/
def adopt (σ : Session S) : Row S → Session S
  | .ticket t => { σ with tickets := σ.tickets ++ [⟨t, t⟩] }
  | .agentRun r => { σ with agentRuns := σ.agentRuns ++ [⟨r, r⟩] }
  | .webhook w => { σ with webhooks := σ.webhooks ++ [⟨w, w⟩] }
  | .delivery d => { σ with deliveries := σ.deliveries ++ [⟨d, d⟩] }
  | _ => σ

def flushed (σ : Session S) : Session S :=
  σ.new.foldl adopt
    { σ with
      tickets := σ.tickets.map Tracked.flushed
      agentRuns := σ.agentRuns.map Tracked.flushed
      webhooks := σ.webhooks.map Tracked.flushed
      deliveries := σ.deliveries.map Tracked.flushed
      new := [] }

/-- `rollback` expires every object and expels the new ones. -/
def expired (σ : Session S) : Session S :=
  { σ with tickets := [], agentRuns := [], webhooks := [], deliveries := [], new := [] }

def ticket? (σ : Session S) (id : Uuid) : Option (Tracked Ticket) :=
  σ.tickets.find? fun o => o.loaded.id == id

def agentRun? (σ : Session S) (id : Uuid) : Option (Tracked AgentRun) :=
  σ.agentRuns.find? fun o => o.loaded.id == id

def webhook? (σ : Session S) (id : Uuid) : Option (Tracked Webhook) :=
  σ.webhooks.find? fun o => o.loaded.id == id

def delivery? (σ : Session S) (id : Uuid) : Option (Tracked WebhookDelivery) :=
  σ.deliveries.find? fun o => o.loaded.id == id

def putTicket (σ : Session S) (id : Uuid) (f : Tracked Ticket → Tracked Ticket) : Session S :=
  { σ with tickets := σ.tickets.map fun o => if o.loaded.id = id then f o else o }

def putAgentRun (σ : Session S) (id : Uuid) (f : Tracked AgentRun → Tracked AgentRun) : Session S :=
  { σ with agentRuns := σ.agentRuns.map fun o => if o.loaded.id = id then f o else o }

def putWebhook (σ : Session S) (id : Uuid) (f : Tracked Webhook → Tracked Webhook) : Session S :=
  { σ with webhooks := σ.webhooks.map fun o => if o.loaded.id = id then f o else o }

def putDelivery (σ : Session S) (id : Uuid)
    (f : Tracked WebhookDelivery → Tracked WebhookDelivery) : Session S :=
  { σ with deliveries := σ.deliveries.map fun o => if o.loaded.id = id then f o else o }

end Session

/-- `db.add(row)`. -/
def add (row : Row S) : M S Unit := M.modify fun σ => { σ with new := σ.new ++ [row] }

/-- `await db.flush()`; nothing is sent when nothing is pending. -/
def flush : M S Unit := fun σ =>
  if σ.pending.isEmpty then .ret (.ok (), σ)
  else .call (.write σ.pending) fun r => match r with
    | .ok _ => .ret (.ok (), σ.flushed)
    | .error e => .ret (.error e, σ)

def sendCommit : M S Unit := fun σ => .call .commit fun r => .ret (r, σ)

/-- `await db.commit()`: flush, then COMMIT. -/
def commit : M S Unit := do
  flush
  sendCommit

/-- `await db.rollback()`. -/
def rollback : M S Unit := fun σ => .call .rollback fun r => .ret (r, σ.expired)

/-- Leaving `async with SessionLocal()`. -/
def close : M S Unit := fun σ => .call .close fun _ => .ret (.ok (), σ.expired)

/-- What SQLAlchemy raises for an object that the session does not hold. -/
def detached : Err := .runtime "Instance is not bound to a Session"

def notPresent : Err := .runtime "Could not refresh instance"

/-- `await db.get(Ticket, id)`: the identity map answers before the database. -/
def getTicketRow (id : Uuid) : M S (Option Ticket) := do
  match (← M.session).ticket? id with
  | some o => pure (some o.cur)
  | none =>
    match ← query (.ticket id) with
    | none => pure none
    | some t =>
      M.modify fun σ => { σ with tickets := σ.tickets ++ [⟨t, t⟩] }
      pure (some t)

/-- `await db.get(AgentRun, id)`. -/
def getAgentRun (id : Uuid) : M S (Option AgentRun) := do
  match (← M.session).agentRun? id with
  | some o => pure (some o.cur)
  | none =>
    match ← query (.agentRun id) with
    | none => pure none
    | some r =>
      M.modify fun σ => { σ with agentRuns := σ.agentRuns ++ [⟨r, r⟩] }
      pure (some r)

/-- `await db.get(WebhookDelivery, id)`. -/
def getDelivery (id : Uuid) : M S (Option WebhookDelivery) := do
  match (← M.session).delivery? id with
  | some o => pure (some o.cur)
  | none =>
    match ← query (.delivery id) with
    | none => pure none
    | some d =>
      M.modify fun σ => { σ with deliveries := σ.deliveries ++ [⟨d, d⟩] }
      pure (some d)

/-- A row of `webhooks` that a SELECT returned; a tracked object keeps its attributes. -/
def identify (w : Webhook) : M S Webhook := do
  match (← M.session).webhook? w.id with
  | some o => pure o.cur
  | none =>
    M.modify fun σ => { σ with webhooks := σ.webhooks ++ [⟨w, w⟩] }
    pure w

/-- `await db.get(Webhook, id)`. -/
def getWebhook (id : Uuid) : M S (Option Webhook) := do
  match (← M.session).webhook? id with
  | some o => pure (some o.cur)
  | none =>
    match ← query (.webhook id) with
    | none => pure none
    | some w => some <$> identify w

/-- The attributes of a tracked ticket. -/
def ticketAttrs (id : Uuid) : M S Ticket := do
  match (← M.session).ticket? id with
  | some o => pure o.cur
  | none => M.raise detached

def agentRunAttrs (id : Uuid) : M S AgentRun := do
  match (← M.session).agentRun? id with
  | some o => pure o.cur
  | none => M.raise detached

def deliveryAttrs (id : Uuid) : M S WebhookDelivery := do
  match (← M.session).delivery? id with
  | some o => pure o.cur
  | none => M.raise detached

/-- Attribute assignments on a tracked object. -/
def setTicket (id : Uuid) (p : TicketPatch) : M S Unit :=
  M.modify fun σ => σ.putTicket id fun o => { o with cur := p.apply o.cur }

def setAgentRun (id : Uuid) (p : AgentRunPatch) : M S Unit :=
  M.modify fun σ => σ.putAgentRun id fun o => { o with cur := p.apply o.cur }

def setWebhook (id : Uuid) (p : WebhookPatch) : M S Unit :=
  M.modify fun σ => σ.putWebhook id fun o => { o with cur := p.apply o.cur }

def setDelivery (id : Uuid) (p : DeliveryPatch) : M S Unit :=
  M.modify fun σ => σ.putDelivery id fun o => { o with cur := p.apply o.cur }

/-- `await db.refresh(obj)`: read the row again, over the object's attributes. -/
def refreshTicket (id : Uuid) : M S Ticket := do
  match ← query (.ticket id) with
  | none => M.raise notPresent
  | some t =>
    M.modify fun σ => σ.putTicket id fun _ => ⟨t, t⟩
    pure t

def refreshAgentRun (id : Uuid) : M S AgentRun := do
  match ← query (.agentRun id) with
  | none => M.raise notPresent
  | some r =>
    M.modify fun σ => σ.putAgentRun id fun _ => ⟨r, r⟩
    pure r

def refreshWebhook (id : Uuid) : M S Webhook := do
  match ← query (.webhook id) with
  | none => M.raise notPresent
  | some w =>
    M.modify fun σ => σ.putWebhook id fun _ => ⟨w, w⟩
    pure w

def refreshDelivery (id : Uuid) : M S WebhookDelivery := do
  match ← query (.delivery id) with
  | none => M.raise notPresent
  | some d =>
    M.modify fun σ => σ.putDelivery id fun _ => ⟨d, d⟩
    pure d

def refreshUser (id : Uuid) : M S User := do
  match ← query (.user id) with
  | none => M.raise notPresent
  | some u => pure u

def refreshDocument (id : Uuid) : M S Document := do
  match ← query (.document id) with
  | none => M.raise notPresent
  | some d => pure d

end AgentDesk
