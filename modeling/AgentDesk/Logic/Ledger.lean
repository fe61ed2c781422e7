import AgentDesk.Logic.Triple
import AgentDesk.Api.Jobs

namespace AgentDesk

open Framework (Observer)

variable {S : Type}

/-- What a session knows from its own calls: the writes of its open transaction, the user
row it read, the row of each ticket that it read last, the webhook row it looked up, and the
times it was told. -/
structure Ledger (S : Type) where
  writes : List (Write S)
  user : Option User
  row : Uuid → Option Ticket
  hook : Option Webhook
  clocks : List Time

namespace Ledger

def start : Ledger S := ⟨[], none, fun _ => none, none, []⟩

def after (s : Ledger S) : (op : Op S) → Res op → Ledger S
  | .query (.user _), .ok (some u) => { s with user := some u }
  | .query (.ticket id), .ok row => { s with row := Function.update s.row id row }
  | .query (.webhookOf _), .ok (some w) => { s with hook := some w }
  | .query _, .ok _ => s
  | .query _, .error _ => { s with writes := [] }
  | .write ws, .ok _ => { s with writes := s.writes ++ ws }
  | .write _, .error _ => { s with writes := [] }
  | .commit, _ => { s with writes := [] }
  | .rollback, _ => { s with writes := [] }
  | .close, _ => { s with writes := [] }
  | .clock, now => { s with clocks := now :: s.clocks }
  | _, _ => s

/-- A lookup by key returns a row under that key. -/
def Fits : (op : Op S) → Res op → Prop
  | .query (.user id), .ok (some u) => u.id = id
  | .query (.ticket id), .ok (some t) => t.id = id
  | .query (.agentRun id), .ok (some r) => r.id = id
  | .query (.webhookOf organizationId), .ok (some w) => w.organizationId = organizationId
  | .query (.webhook id), .ok (some w) => w.id = id
  | .query (.delivery id), .ok (some d) => d.id = id
  | _, _ => True

end Ledger

/-! What a commit may write -/

/-- The token that a request carries. -/
def Job.creds : Job → Option Token
  | .request (.authenticated creds _) => creds
  | _ => none

/-- The sessions that may execute an agent run. -/
def Job.runs : Job → Bool
  | .runAgent _ => true
  | .request (.authenticated _ (.runWorkflow _)) => true
  | _ => false

/-- The runs that session `c` may execute: the one its task names, or one it started itself. -/
def Job.Executes (job : Job) (c : Nat) (runId : Uuid) : Prop :=
  job = .runAgent runId ∨ job.runs = true ∧ runId.session = c

namespace Ledger

/-- The caller holds a valid access token of this active user. -/
structure Authenticates (cfg : Config S) (creds : Option Token) (s : Ledger S) (u : User) :
    Prop where
  read : s.user = some u
  active : u.isActive = true
  token : ∃ claims, creds = some (.signed cfg.settings.jwtSecret claims) ∧
    claims.type = some .access ∧ claims.sub = some u.id ∧
      ∃ now ∈ s.clocks, now / 1000000 ≤ claims.exp

/-- The history event and the audit row of an approval by `u`. -/
def RecordsApproval (ws : List (Write S)) (t : Ticket) (u : User) : Prop :=
  (∃ e, .insert (.ticketEvent e) ∈ ws ∧ e.ticketId = t.id ∧ e.eventType = "approved" ∧
    e.actorUserId = some u.id) ∧
  ∃ a, .insert (.auditLog a) ∈ ws ∧ a.event = .responseApproved ∧ a.targetType = some "ticket" ∧
    a.targetId = some t.id.str ∧ a.actorUserId = some u.id

/-- A human of the ticket's organization approves it with a response that is not blank. -/
def Approves (cfg : Config S) (creds : Option Token) (s : Ledger S) (t : Ticket)
    (p : TicketPatch) : Prop :=
  ∃ u final, s.Authenticates cfg creds u ∧ (u.role = .admin ∨ u.role = .operator) ∧
    u.organizationId = t.organizationId ∧ isBlank final = false ∧
      p.finalResponse.getD t.finalResponse = some final ∧ RecordsApproval s.writes t u

/-- The changes of a ticket that was last read as `t`. -/
structure Change (cfg : Config S) (job : Job) (s : Ledger S) (t : Ticket) (p : TicketPatch) :
    Prop where
  allowed : ∀ st, p.status = some st → canTransition t.status st = true
  approval : p.status = some .approved → s.Approves cfg job.creds t p
  final : p.finalResponse ≠ none → p.status = some .approved
  run : job.runs = true →
    p.finalResponse = none ∧ (p.status = some .waitingApproval ∨ p.status = some .escalated)

/-- The ticket that a new row points to, read or created by this session. -/
def Parent (s : Ledger S) (ticketId organizationId : Uuid) : Prop :=
  (∃ t, s.row ticketId = some t ∧ t.organizationId = organizationId) ∨
    ∃ t, .insert (.ticket t) ∈ s.writes ∧ t.id = ticketId ∧ t.organizationId = organizationId

/-- What entitles the session to a statement of the transaction it commits. -/
def Warrants (cfg : Config S) (job : Job) (c : Nat) (s : Ledger S) : Write S → Prop
  | .insert (.user u) => ∃ email, u.email = cfg.platform.lower email
  | .insert (.ticket t) => t.status = .new ∧ t.finalResponse = none
  | .insert (.ticketEvent e) => s.Parent e.ticketId e.organizationId
  | .insert (.agentRun r) => s.Parent r.ticketId r.organizationId ∧ r.status = .running
  | .insert (.delivery d) =>
    ∃ w, s.hook = some w ∧ d.webhookId = w.id ∧ d.organizationId = w.organizationId
  | .insert (.chunk x) => ∃ d, .insert (.document d) ∈ s.writes ∧ d.id = x.documentId ∧
      d.organizationId = x.organizationId
  | .updateTicket id p => ∃ t, s.row id = some t ∧ s.Change cfg job t p
  | .updateAgentRun id _ => job.Executes c id
  | _ => True

/-- A statement that leaves the decision on a ticket to a human. -/
def Undecided : Write S → Prop
  | .updateTicket _ p =>
    p.finalResponse = none ∧ (p.status = some .waitingApproval ∨ p.status = some .escalated)
  | _ => True

/-- The observer of session `c`: whatever it commits is warranted, a run decides nothing, and
the session reads only while it has written nothing. -/
def observer (cfg : Config S) (job : Job) (c : Nat) : Observer (Op S) Res (Ledger S) where
  ok s op := match op with
    | .write ws => job.runs = true → ws.Forall Undecided
    | .commit => ∀ x ∈ s.writes, s.Warrants cfg job c x
    | .query _ => s.writes = []
    | _ => True
  next s op r s' := Fits op r ∧ s' = s.after op r

section

variable {cfg : Config S} {job : Job} {c : Nat} {s s' : Ledger S}

@[simp] theorem after_write (ws : List (Write S)) (u : Unit) :
    s.after (.write ws) (.ok u) = { s with writes := s.writes ++ ws } := rfl

@[simp] theorem after_commit (r : Except Err Unit) :
    s.after .commit r = { s with writes := [] } := rfl

@[simp] theorem after_ticket (id : Uuid) (row : Option Ticket) :
    s.after (.query (.ticket id)) (no_index (.ok row)) = { s with row := Function.update s.row id row } := rfl

@[simp] theorem after_user (id : Uuid) (u : User) :
    s.after (.query (.user id)) (no_index (.ok (some u))) = { s with user := some u } := rfl

@[simp] theorem after_webhookOf (id : Uuid) (w : Webhook) :
    s.after (.query (.webhookOf id)) (no_index (.ok (some w))) = { s with hook := some w } := rfl

@[simp] theorem after_user_none (id : Uuid) :
    s.after (.query (.user id)) (no_index (.ok none)) = s := rfl

@[simp] theorem after_webhookOf_none (id : Uuid) :
    s.after (.query (.webhookOf id)) (no_index (.ok none)) = s := rfl

@[simp] theorem after_agentRun (id : Uuid) (r : Option AgentRun) :
    s.after (.query (.agentRun id)) (no_index (.ok r)) = s := rfl

@[simp] theorem after_webhook (id : Uuid) (w : Option Webhook) :
    s.after (.query (.webhook id)) (no_index (.ok w)) = s := rfl

@[simp] theorem after_delivery (id : Uuid) (d : Option WebhookDelivery) :
    s.after (.query (.delivery id)) (no_index (.ok d)) = s := rfl

@[simp] theorem after_query_error (q : Query S) (e : Err) :
    s.after (.query q) (no_index (.error e)) = { s with writes := [] } := by
  cases q <;> rfl

@[simp] theorem after_write_error (ws : List (Write S)) (e : Err) :
    s.after (.write ws) (.error e) = { s with writes := [] } := rfl

@[simp] theorem after_rollback (r : Except Err Unit) :
    s.after .rollback r = { s with writes := [] } := rfl

@[simp] theorem after_close (r : Unit) : s.after .close r = { s with writes := [] } := rfl

@[simp] theorem after_post (url : String) (body : List Char) (headers : List (String × String))
    (r : Except Err Nat) : s.after (.post url body headers) r = s := rfl

@[simp] theorem after_aclose (r : Except Err Unit) : s.after .aclose r = s := rfl

@[simp] theorem after_enqueue (task : Task) (r : Except Err Unit) :
    s.after (.enqueue task) r = s := rfl

@[simp] theorem after_salt (r : Nat) : s.after .salt r = s := rfl

@[simp] theorem fits_rollback (r : Except Err Unit) : @Fits S .rollback r := by
  cases r <;> trivial

@[simp] theorem fits_close (r : Unit) : @Fits S .close r := trivial

@[simp] theorem fits_clock (r : Time) : @Fits S .clock r := trivial

@[simp] theorem fits_salt (r : Nat) : @Fits S .salt r := trivial

@[simp] theorem fits_post (url : String) (body : List Char) (headers : List (String × String))
    (r : Except Err Nat) : @Fits S (.post url body headers) r := by
  cases r <;> trivial

@[simp] theorem fits_aclose (r : Except Err Unit) : @Fits S .aclose r := by
  cases r <;> trivial

@[simp] theorem fits_enqueue (task : Task) (r : Except Err Unit) : @Fits S (.enqueue task) r := by
  cases r <;> trivial

@[simp] theorem fits_query_error (q : Query S) (e : Err) : Fits (.query q) (no_index (.error e)) := by
  cases q <;> trivial

@[simp] theorem fits_user_none (id : Uuid) :
    @Fits S (.query (.user id)) (no_index (.ok none)) := trivial

@[simp] theorem fits_ticket_none (id : Uuid) :
    @Fits S (.query (.ticket id)) (no_index (.ok none)) := trivial

@[simp] theorem fits_agentRun_none (id : Uuid) :
    @Fits S (.query (.agentRun id)) (no_index (.ok none)) := trivial

@[simp] theorem fits_webhookOf_none (id : Uuid) :
    @Fits S (.query (.webhookOf id)) (no_index (.ok none)) := trivial

@[simp] theorem fits_user (id : Uuid) (u : User) :
    @Fits S (.query (.user id)) (no_index (.ok (some u))) ↔ u.id = id := Iff.rfl

@[simp] theorem fits_ticket (id : Uuid) (t : Ticket) :
    @Fits S (.query (.ticket id)) (no_index (.ok (some t))) ↔ t.id = id := Iff.rfl

@[simp] theorem fits_agentRun (id : Uuid) (r : AgentRun) :
    @Fits S (.query (.agentRun id)) (no_index (.ok (some r))) ↔ r.id = id := Iff.rfl

@[simp] theorem fits_webhookOf (id : Uuid) (w : Webhook) :
    @Fits S (.query (.webhookOf id)) (no_index (.ok (some w))) ↔ w.organizationId = id := Iff.rfl

@[simp] theorem fits_webhook (id : Uuid) (w : Webhook) :
    @Fits S (.query (.webhook id)) (no_index (.ok (some w))) ↔ w.id = id := Iff.rfl

@[simp] theorem fits_delivery (id : Uuid) (d : WebhookDelivery) :
    @Fits S (.query (.delivery id)) (no_index (.ok (some d))) ↔ d.id = id := Iff.rfl

@[simp] theorem after_clock (now : Time) :
    s.after .clock now = { s with clocks := now :: s.clocks } := rfl

@[simp] theorem fits_write (ws : List (Write S)) (r : Except Err Unit) : Fits (.write ws) r := by
  cases r <;> trivial

@[simp] theorem fits_commit (r : Except Err Unit) : @Fits S .commit r := by
  cases r <;> trivial

@[simp] theorem warrants_organization (o : Organization) :
    s.Warrants cfg job c (.insert (.organization o)) := trivial

@[simp] theorem warrants_user (u : User) : s.Warrants cfg job c (.insert (.user u)) ↔
    ∃ email, u.email = cfg.platform.lower email := Iff.rfl

@[simp] theorem warrants_ticket (t : Ticket) : s.Warrants cfg job c (.insert (.ticket t)) ↔
    t.status = .new ∧ t.finalResponse = none := Iff.rfl

@[simp] theorem warrants_ticketEvent (e : TicketEvent) :
    s.Warrants cfg job c (.insert (.ticketEvent e)) ↔ s.Parent e.ticketId e.organizationId :=
  Iff.rfl

@[simp] theorem warrants_auditLog (a : AuditLog) :
    s.Warrants cfg job c (.insert (.auditLog a)) := trivial

@[simp] theorem warrants_agentRun (r : AgentRun) :
    s.Warrants cfg job c (.insert (.agentRun r)) ↔
      s.Parent r.ticketId r.organizationId ∧ r.status = .running := Iff.rfl

@[simp] theorem warrants_webhook (w : Webhook) :
    s.Warrants cfg job c (.insert (.webhook w)) := trivial

@[simp] theorem warrants_delivery (d : WebhookDelivery) :
    s.Warrants cfg job c (.insert (.delivery d)) ↔
      ∃ w, s.hook = some w ∧ d.webhookId = w.id ∧ d.organizationId = w.organizationId := Iff.rfl

@[simp] theorem warrants_document (d : Document) :
    s.Warrants cfg job c (.insert (.document d)) := trivial

@[simp] theorem warrants_chunk (x : DocumentChunk S) :
    s.Warrants cfg job c (.insert (.chunk x)) ↔
      ∃ d, .insert (.document d) ∈ s.writes ∧ d.id = x.documentId ∧
        d.organizationId = x.organizationId := Iff.rfl

@[simp] theorem warrants_updateTicket (id : Uuid) (p : TicketPatch) :
    s.Warrants cfg job c (.updateTicket id p) ↔ ∃ t, s.row id = some t ∧ s.Change cfg job t p :=
  Iff.rfl

@[simp] theorem warrants_updateAgentRun (id : Uuid) (p : AgentRunPatch) :
    s.Warrants cfg job c (.updateAgentRun id p) ↔ job.Executes c id := Iff.rfl

@[simp] theorem warrants_updateWebhook (id : Uuid) (p : WebhookPatch) :
    s.Warrants cfg job c (.updateWebhook id p) := trivial

@[simp] theorem warrants_updateDelivery (id : Uuid) (p : DeliveryPatch) :
    s.Warrants cfg job c (.updateDelivery id p) := trivial

@[simp] theorem observer_next {op : Op S} {r : Res op} :
    (observer cfg job c).next s op r s' ↔ Fits op r ∧ s' = s.after op r := Iff.rfl

@[simp] theorem observer_commit :
    (observer cfg job c).ok s .commit ↔ ∀ x ∈ s.writes, s.Warrants cfg job c x := Iff.rfl

@[simp] theorem observer_query (q : Query S) :
    (observer cfg job c).ok s (.query q) ↔ s.writes = [] := Iff.rfl

@[simp] theorem undecided_insert (row : Row S) : Undecided (.insert row) := trivial

@[simp] theorem undecided_updateTicket (id : Uuid) (p : TicketPatch) :
    @Undecided S (.updateTicket id p) ↔ p.finalResponse = none ∧
      (p.status = some .waitingApproval ∨ p.status = some .escalated) := Iff.rfl

@[simp] theorem undecided_updateAgentRun (id : Uuid) (p : AgentRunPatch) :
    @Undecided S (.updateAgentRun id p) := trivial

@[simp] theorem undecided_updateWebhook (id : Uuid) (p : WebhookPatch) :
    @Undecided S (.updateWebhook id p) := trivial

@[simp] theorem undecided_updateDelivery (id : Uuid) (p : DeliveryPatch) :
    @Undecided S (.updateDelivery id p) := trivial

@[simp] theorem undecided_dirtyAgentRun (o : Tracked AgentRun) :
    (@dirtyAgentRun S o).toList.Forall Undecided := by
  obtain h | h := @dirtyAgentRun_cases S o.loaded o.cur <;> simp [h]

@[simp] theorem undecided_inserts (rows : List (Row S)) :
    rows.Forall (Undecided ∘ Write.insert) :=
  List.forall_iff_forall_mem.mpr fun _ _ => trivial

@[simp] theorem observer_write (ws : List (Write S)) :
    (observer cfg job c).ok s (.write ws) ↔ (job.runs = true → ws.Forall Undecided) := Iff.rfl

@[simp] theorem observer_rollback : (observer cfg job c).ok s .rollback := trivial

@[simp] theorem observer_close : (observer cfg job c).ok s .close := trivial

@[simp] theorem observer_clock : (observer cfg job c).ok s .clock := trivial

@[simp] theorem observer_salt : (observer cfg job c).ok s .salt := trivial

@[simp] theorem observer_embed (texts : List String) :
    (observer cfg job c).ok s (.embed texts) := trivial

@[simp] theorem observer_chat (request : ChatRequest) :
    (observer cfg job c).ok s (.chat request) := trivial

@[simp] theorem observer_post (url : String) (body : List Char)
    (headers : List (String × String)) :
    (observer cfg job c).ok s (.post url body headers) := trivial

@[simp] theorem observer_aclose : (observer cfg job c).ok s .aclose := trivial

@[simp] theorem observer_enqueue (task : Task) :
    (observer cfg job c).ok s (.enqueue task) := trivial

end

end Ledger

end AgentDesk
