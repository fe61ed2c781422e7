import AgentDesk.Logic.Ledger
import AgentDesk.Logic.Tables

namespace AgentDesk

open Framework (Observer)

variable {S : Type}

/-! What the statements of a transaction do to tickets -/

/-- The event that announces a ticket in this status. -/
def TicketStatus.announcement : TicketStatus → Option String
  | .approved => some "ticket.approved"
  | .escalated => some "ticket.escalated"
  | _ => none

/-- A decision that has to be announced: the ticket and the event. -/
def Write.resolution : Write S → Option (Uuid × String)
  | .updateTicket id p => (p.status.bind TicketStatus.announcement).map fun event => (id, event)
  | _ => none

/-- The status that the statement gives a ticket. -/
def Write.moved : Write S → Option TicketStatus
  | .updateTicket _ p => p.status
  | _ => none

/-- The statement records a delivery. -/
def Write.announces : Write S → Bool
  | .insert (.delivery _) => true
  | _ => false

/-- The statement is about a ticket or its history. -/
def Write.isHistory : Write S → Bool
  | .insert (.ticket _) | .insert (.ticketEvent _) | .updateTicket _ _ => true
  | _ => false

/-- The statement has no part in the life of a ticket, its runs or its announcements. -/
def Write.Plain : Write S → Prop
  | .insert (.ticket _) | .insert (.ticketEvent _) | .insert (.agentRun _)
  | .insert (.delivery _) => False
  | .updateTicket _ _ | .updateAgentRun _ _ => False
  | .updateDelivery _ p => p.payload = none
  | _ => True

/-- The announcement that is still owed after a transaction. -/
def owedAfter (owed : Option (Uuid × String)) (ws : List (Write S)) : Option (Uuid × String) :=
  if ws.any Write.announces then none else (ws.findSome? Write.resolution).or owed

/-- What a session knows of its own doings: the statements of its open transaction, the
tickets that it read and has not changed since, the announcement that it owes, the status to
which its last transaction moved a ticket, and the answer to its last look at the webhook of
an organization. It is `lost` when a call failed, or the ticket was gone, while it owed an
announcement, and `strayed` when it read the run it had concluded and found it concluded
otherwise. -/
structure Journal (S : Type) where
  writes : List (Write S)
  row : Uuid → Option Ticket
  owed : Option (Uuid × String)
  concluded : Option TicketStatus
  lost : Bool
  strayed : Bool
  hook : Option (Uuid × Option Webhook)

/-- The run says that it escalated its ticket. -/
def escalates (r : Option AgentRun) : Bool := (r.bind AgentRun.outcome) == some .escalated

namespace Journal

def start : Journal S := ⟨[], fun _ => none, none, none, false, false, none⟩

/-- A call failed. -/
def fail (s : Journal S) : Journal S := { s with lost := s.lost || s.owed.isSome }

/-- The transaction became durable. -/
def committed (s : Journal S) : Journal S where
  writes := []
  row id := if s.writes.any (Write.renews id) then none else s.row id
  owed := owedAfter s.owed s.writes
  concluded := s.writes.findSome? Write.moved
  lost := s.lost
  strayed := s.strayed
  hook := if (s.writes.findSome? Write.moved).isSome then none else s.hook

/-- The run was read again. -/
def reread (s : Journal S) (r : Option AgentRun) : Journal S :=
  { s with strayed :=
      s.strayed || s.concluded.any fun target => escalates r != (target == .escalated) }

def after (s : Journal S) : (op : Op S) → Res op → Journal S
  | .query (.ticket id), .ok none => { s.fail with row := Function.update s.row id none }
  | .query (.ticket id), .ok row => { s with row := Function.update s.row id row }
  | .query (.agentRun _), .ok r => s.reread r
  | .query (.webhookOf id), .ok hook => { s with hook := some (id, hook) }
  | .query _, .ok _ => s
  | .query _, .error _ => { s.fail with writes := [] }
  | .write ws, .ok _ => { s with writes := s.writes ++ ws }
  | .write _, .error _ => { s.fail with writes := [] }
  | .commit, .ok _ => s.committed
  | .commit, .error _ => { s.fail with writes := [] }
  | .rollback, .ok _ => { s with writes := [] }
  | .rollback, .error _ => { s.fail with writes := [] }
  | .close, _ => { s with writes := [] }
  | .embed _, .error _ => s.fail
  | .chat _, .error _ => s.fail
  | .aclose, .error _ => s.fail
  | .enqueue _, .error _ => s.fail
  | _, _ => s

/-- The session owes no announcement, or something went wrong on the way, or it found no
active webhook. -/
def Settled (s : Journal S) : Prop :=
  s.owed = none ∨ s.lost = true ∨ s.strayed = true ∨ ∃ t event hook, s.owed = some (t.id, event) ∧
    s.row t.id = some t ∧ s.hook = some (t.organizationId, hook) ∧
      ∀ h, hook = some h → h.isActive = false

end Journal

/-! The transactions of the sessions -/

/-- Some answers to its calls bring the workflow to this state. -/
def Workflow.Yields (workflow : Workflow S) (state : AgentState) : Prop :=
  ∃ initial σ σ', (workflow.run initial σ).Returns (.ok state, σ')

/-- The history event `e` of the ticket `t`, which the patch `p` moves to `target`. -/
structure Moves (t : Ticket) (p : TicketPatch) (e : TicketEvent) (target : TicketStatus) :
    Prop where
  patch : p.status = some target
  allowed : canTransition t.status target = true
  ticket : e.ticketId = t.id
  organization : e.organizationId = t.organizationId
  source : e.fromStatus = some t.status
  target : e.toStatus = some target

/-- How a human decides. -/
inductive Decides (t : Ticket) (p : TicketPatch) (e : TicketEvent) : TicketStatus → Prop
  | approved (final : String) (hfinal : p.finalResponse.getD t.finalResponse = some final)
      (hevent : e.eventType = "approved") (hdraft : p.draftResponse = none) : Decides t p e .approved
  | rejected (hfinal : p.finalResponse = none) (hevent : e.eventType = "rejected")
      (hdraft : p.draftResponse = none) : Decides t p e .rejected

/-- How a run ends in this state of its workflow; `a` records its confidence. -/
structure Concludes (t : Ticket) (p : TicketPatch) (e : TicketEvent) (a : AuditLog)
    (state : AgentState) : Prop where
  final : p.finalResponse = none
  event : e.eventType = "agent_run"
  audit : a.event = .draftGenerated ∧ a.targetId = some t.id.str ∧
    a.metadata = some [("confidence", AgentRunService.confidenceMeta state)]

/-- What a run writes beside the ticket and its history. -/
def Write.Side (runId : Uuid) : Write S → Prop
  | .updateAgentRun id _ => id = runId
  | .insert (.auditLog _) => True
  | _ => False

/-- Where the outcome of a workflow takes the ticket. -/
def AgentState.target (state : AgentState) : TicketStatus :=
  if state.outcome.getD "escalated" = "waiting_approval" then .waitingApproval else .escalated

/-- What a session may commit, statement by statement. -/
inductive Deed (cfg : Config S) (workflow : Workflow S) (s : Journal S) : List (Write S) → Prop
  | plain {ws : List (Write S)} (h : ∀ x ∈ ws, x.Plain) : Deed cfg workflow s ws
  | created {t : Ticket} {e : TicketEvent} {a : AuditLog} (status : t.status = .new)
      (ticket : e.ticketId = t.id) (organization : e.organizationId = t.organizationId)
      (source : e.fromStatus = none) (target : e.toStatus = some .new)
      (event : e.eventType = "created") :
      Deed cfg workflow s [.insert (.ticket t), .insert (.ticketEvent e), .insert (.auditLog a)]
  | started {t : Ticket} {r : AgentRun} {a : AuditLog} (read : s.row r.ticketId = some t)
      (organization : r.organizationId = t.organizationId) (status : r.status = .running) :
      Deed cfg workflow s [.insert (.agentRun r), .insert (.auditLog a)]
  | edited {t : Ticket} {us : List (Write S)} {e : TicketEvent} (read : s.row t.id = some t)
      (update : ∀ x ∈ us, ∃ p, x = .updateTicket t.id p ∧ p.status = none ∧ p.finalResponse = none)
      (ticket : e.ticketId = t.id) (organization : e.organizationId = t.organizationId)
      (target : e.toStatus = none) (event : e.eventType = "edited") :
      Deed cfg workflow s (us ++ [.insert (.ticketEvent e)])
  | decided {t : Ticket} {p : TicketPatch} {e : TicketEvent} {a : AuditLog} {target : TicketStatus}
      (read : s.row t.id = some t) (free : s.owed = none) (moves : Moves t p e target)
      (decides : Decides t p e target) :
      Deed cfg workflow s [.updateTicket t.id p, .insert (.ticketEvent e), .insert (.auditLog a)]
  | concluded {t : Ticket} {p : TicketPatch} {e : TicketEvent} {a : AuditLog} {runId : Uuid}
      {state : AgentState} {ws : List (Write S)} (read : s.row t.id = some t)
      (free : s.owed = none) (yields : workflow.Yields state) (moves : Moves t p e state.target)
      (concludes : Concludes t p e a state)
      (history : ws.filter Write.isHistory = [.updateTicket t.id p, .insert (.ticketEvent e)])
      (audit : .insert (.auditLog a) ∈ ws) (side : ∀ x ∈ ws, x.isHistory = false → x.Side runId) :
      Deed cfg workflow s ws
  | failed {runId : Uuid} {p : AgentRunPatch} : Deed cfg workflow s [.updateAgentRun runId p]
  | announced {t : Ticket} {event : String} {h : Webhook} {d : WebhookDelivery}
      {p : DeliveryPatch} {now : Time} (read : s.row t.id = some t)
      (owed : s.owed = some (t.id, event) ∨ s.owed = none ∧ s.strayed = true) (hook : s.hook = some (t.organizationId, some h))
      (active : h.isActive = true) (webhook : d.webhookId = h.id)
      (organization : d.organizationId = t.organizationId) (named : d.event = event)
      (payload : p.payload =
        some (WebhookService.buildTicketPayload cfg.platform t event d.id now)) :
      Deed cfg workflow s [.insert (.delivery d), .updateDelivery d.id p]

namespace Journal

/-- The observer of a session: every transaction that it commits is a deed, and it reads only
while it has written nothing. -/
def observer (cfg : Config S) (workflow : Workflow S) : Observer (Op S) Res (Journal S) where
  ok s op := match op with
    | .commit => s.writes = [] ∨ Deed cfg workflow s s.writes
    | .query _ => s.writes = []
    | _ => True
  next s op r s' := Ledger.Fits op r ∧ s' = s.after op r

section

variable {cfg : Config S} {workflow : Workflow S} {s s' : Journal S}

@[simp] theorem observer_next {op : Op S} {r : Res op} :
    (observer cfg workflow).next s op r s' ↔ Ledger.Fits op r ∧ s' = s.after op r := Iff.rfl

@[simp] theorem observer_commit : (observer cfg workflow).ok s .commit ↔
    s.writes = [] ∨ Deed cfg workflow s s.writes := Iff.rfl

@[simp] theorem observer_query (q : Query S) :
    (observer cfg workflow).ok s (.query q) ↔ s.writes = [] := Iff.rfl

@[simp] theorem observer_write (ws : List (Write S)) :
    (observer cfg workflow).ok s (.write ws) := trivial

@[simp] theorem observer_rollback : (observer cfg workflow).ok s .rollback := trivial

@[simp] theorem observer_close : (observer cfg workflow).ok s .close := trivial

@[simp] theorem observer_clock : (observer cfg workflow).ok s .clock := trivial

@[simp] theorem observer_salt : (observer cfg workflow).ok s .salt := trivial

@[simp] theorem observer_embed (texts : List String) :
    (observer cfg workflow).ok s (.embed texts) := trivial

@[simp] theorem observer_chat (request : ChatRequest) :
    (observer cfg workflow).ok s (.chat request) := trivial

@[simp] theorem observer_post (url : String) (body : List Char)
    (headers : List (String × String)) :
    (observer cfg workflow).ok s (.post url body headers) := trivial

@[simp] theorem observer_aclose : (observer cfg workflow).ok s .aclose := trivial

@[simp] theorem observer_enqueue (task : Task) :
    (observer cfg workflow).ok s (.enqueue task) := trivial

end

/-! Call by call -/

section

variable (s : Journal S) (ws : List (Write S)) (row : Uuid → Option Ticket)
  (owed : Option (Uuid × String)) (concluded : Option TicketStatus) (lost strayed : Bool)
  (hook : Option (Uuid × Option Webhook))

@[simp] theorem fail_mk : (Journal.mk ws row owed concluded lost strayed hook).fail =
    ⟨ws, row, owed, concluded, lost || owed.isSome, strayed, hook⟩ := rfl

@[simp] theorem committed_mk : (Journal.mk ws row owed concluded lost strayed hook).committed =
    ⟨[], fun id => if ws.any (Write.renews id) then none else row id, owedAfter owed ws,
      ws.findSome? Write.moved, lost, strayed,
      if (ws.findSome? Write.moved).isSome then none else hook⟩ := rfl

@[simp] theorem reread_mk (r : Option AgentRun) :
    (Journal.mk ws row owed none lost strayed hook).reread r =
      ⟨ws, row, owed, none, lost, strayed, hook⟩ := by
  simp [reread]

@[simp] theorem reread_mk_some (target : TicketStatus) (r : Option AgentRun) :
    (Journal.mk ws row owed (some target) lost strayed hook).reread r =
      ⟨ws, row, owed, some target, lost, strayed || escalates r != (target == .escalated),
        hook⟩ := rfl

@[simp] theorem settled_of_free :
    (Journal.mk ws row none concluded lost strayed hook).Settled := Or.inl rfl

@[simp] theorem settled_of_lost :
    (Journal.mk ws row owed concluded true strayed hook).Settled := Or.inr (Or.inl rfl)

@[simp] theorem settled_of_strayed :
    (Journal.mk ws row owed concluded lost true hook).Settled := Or.inr (Or.inr (Or.inl rfl))

/-- What the session does afterwards does not unsettle it. -/
theorem Settled.later {s s' : Journal S} (h : s.Settled) (howed : s'.owed = s.owed)
    (hlost : s.lost = true → s'.lost = true) (hstrayed : s.strayed = true → s'.strayed = true)
    (hrow : s'.row = s.row) (hhook : s'.hook = s.hook) : s'.Settled := by
  unfold Settled
  rw [howed, hrow, hhook]
  exact h.imp_right (Or.imp hlost (Or.imp_left hstrayed))

@[simp] theorem after_ticket (id : Uuid) (t : Ticket) :
    s.after (.query (.ticket id)) (no_index (.ok (some t))) =
      { s with row := Function.update s.row id (some t) } := rfl

@[simp] theorem after_ticket_none (id : Uuid) :
    s.after (.query (.ticket id)) (no_index (.ok none)) =
      { s.fail with row := Function.update s.row id none } := rfl

@[simp] theorem after_webhookOf (id : Uuid) (h : Option Webhook) :
    s.after (.query (.webhookOf id)) (no_index (.ok h)) = { s with hook := some (id, h) } := rfl

@[simp] theorem after_user (id : Uuid) (u : Option User) :
    s.after (.query (.user id)) (no_index (.ok u)) = s := rfl

@[simp] theorem after_agentRun (id : Uuid) (r : Option AgentRun) :
    s.after (.query (.agentRun id)) (no_index (.ok r)) = s.reread r := rfl

@[simp] theorem after_webhook (id : Uuid) (h : Option Webhook) :
    s.after (.query (.webhook id)) (no_index (.ok h)) = s := rfl

@[simp] theorem after_delivery (id : Uuid) (d : Option WebhookDelivery) :
    s.after (.query (.delivery id)) (no_index (.ok d)) = s := rfl

@[simp] theorem after_document (id : Uuid) (d : Option Document) :
    s.after (.query (.document id)) (no_index (.ok d)) = s := rfl

@[simp] theorem after_query_error (q : Query S) (e : Err) :
    s.after (.query q) (no_index (.error e)) = { s.fail with writes := [] } := by
  cases q <;> rfl

@[simp] theorem after_write (xs : List (Write S)) (u : Unit) :
    s.after (.write xs) (.ok u) = { s with writes := s.writes ++ xs } := rfl

@[simp] theorem after_write_error (xs : List (Write S)) (e : Err) :
    s.after (.write xs) (.error e) = { s.fail with writes := [] } := rfl

@[simp] theorem after_commit (u : Unit) : s.after .commit (.ok u) = s.committed := rfl

@[simp] theorem after_commit_error (e : Err) :
    s.after .commit (.error e) = { s.fail with writes := [] } := rfl

@[simp] theorem after_rollback (u : Unit) :
    s.after .rollback (.ok u) = { s with writes := [] } := rfl

@[simp] theorem after_rollback_error (e : Err) :
    s.after .rollback (.error e) = { s.fail with writes := [] } := rfl

@[simp] theorem after_close (u : Unit) : s.after .close u = { s with writes := [] } := rfl

@[simp] theorem after_clock (now : Time) : s.after .clock now = s := rfl

@[simp] theorem after_salt (n : Nat) : s.after .salt n = s := rfl

@[simp] theorem after_post (url : String) (body : List Char) (headers : List (String × String))
    (r : Except Err Nat) : s.after (.post url body headers) r = s := by
  cases r <;> rfl

@[simp] theorem after_embed (texts : List String) (r : List (List S)) :
    s.after (.embed texts) (no_index (.ok r)) = s := rfl

@[simp] theorem after_embed_error (texts : List String) (e : Err) :
    s.after (.embed texts) (no_index (.error e)) = s.fail := rfl

@[simp] theorem after_chat (request : ChatRequest) (r : LLMResult) :
    s.after (.chat request) (.ok r) = s := rfl

@[simp] theorem after_chat_error (request : ChatRequest) (e : Err) :
    s.after (.chat request) (.error e) = s.fail := rfl

@[simp] theorem after_aclose (u : Unit) : s.after .aclose (.ok u) = s := rfl

@[simp] theorem after_aclose_error (e : Err) : s.after .aclose (.error e) = s.fail := rfl

@[simp] theorem after_enqueue (task : Task) (u : Unit) :
    s.after (.enqueue task) (.ok u) = s := rfl

@[simp] theorem after_enqueue_error (task : Task) (e : Err) :
    s.after (.enqueue task) (.error e) = s.fail := rfl

end

end Journal

/-! The transactions, computed -/

section

variable (id : Uuid) (t : Ticket) (e : TicketEvent) (a : AuditLog) (r : AgentRun)
  (d : WebhookDelivery) (p : TicketPatch) (q : AgentRunPatch) (v : DeliveryPatch)

@[simp] theorem owedAfter_nil (owed : Option (Uuid × String)) :
    owedAfter owed ([] : List (Write S)) = owed := by simp [owedAfter]

@[simp] theorem resolution_insert (row : Row S) : (Write.insert row).resolution = none := rfl

@[simp] theorem resolution_updateTicket : (@Write.updateTicket S id p).resolution =
    (p.status.bind TicketStatus.announcement).map fun event => (id, event) := rfl

@[simp] theorem resolution_updateAgentRun :
    (@Write.updateAgentRun S id q).resolution = none := rfl

@[simp] theorem resolution_updateWebhook (x : WebhookPatch) :
    (@Write.updateWebhook S id x).resolution = none := rfl

@[simp] theorem resolution_updateDelivery :
    (@Write.updateDelivery S id v).resolution = none := rfl

@[simp] theorem moved_insert (row : Row S) : (Write.insert row).moved = none := rfl

@[simp] theorem moved_updateTicket : (@Write.updateTicket S id p).moved = p.status := rfl

@[simp] theorem moved_updateAgentRun : (@Write.updateAgentRun S id q).moved = none := rfl

@[simp] theorem moved_updateWebhook (x : WebhookPatch) :
    (@Write.updateWebhook S id x).moved = none := rfl

@[simp] theorem moved_updateDelivery : (@Write.updateDelivery S id v).moved = none := rfl

@[simp] theorem isHistory_ticketEvent :
    (@Write.insert S (.ticketEvent e)).isHistory = true := rfl

@[simp] theorem isHistory_auditLog : (@Write.insert S (.auditLog a)).isHistory = false := rfl

@[simp] theorem isHistory_updateTicket : (@Write.updateTicket S id p).isHistory = true := rfl

@[simp] theorem isHistory_updateAgentRun :
    (@Write.updateAgentRun S id q).isHistory = false := rfl

@[simp] theorem side_auditLog (k : Uuid) : (@Write.insert S (.auditLog a)).Side k := trivial

@[simp] theorem side_updateAgentRun (k : Uuid) :
    (@Write.updateAgentRun S id q).Side k ↔ id = k := Iff.rfl

@[simp] theorem renews_ticketEvent (k : Uuid) :
    (@Write.insert S (.ticketEvent e)).renews k = false := rfl

@[simp] theorem renews_auditLog (k : Uuid) :
    (@Write.insert S (.auditLog a)).renews k = false := rfl

@[simp] theorem renews_agentRun (k : Uuid) :
    (@Write.insert S (.agentRun r)).renews k = false := rfl

@[simp] theorem renews_delivery (k : Uuid) :
    (@Write.insert S (.delivery d)).renews k = false := rfl

@[simp] theorem renews_updateTicket (k : Uuid) :
    (@Write.updateTicket S id p).renews k = (id == k) := rfl

@[simp] theorem renews_updateAgentRun (k : Uuid) :
    (@Write.updateAgentRun S id q).renews k = false := rfl

@[simp] theorem renews_updateDelivery (k : Uuid) :
    (@Write.updateDelivery S id v).renews k = false := rfl

@[simp] theorem announces_delivery : (@Write.insert S (.delivery d)).announces = true := rfl

@[simp] theorem announces_ticket : (@Write.insert S (.ticket t)).announces = false := rfl

@[simp] theorem announces_ticketEvent :
    (@Write.insert S (.ticketEvent e)).announces = false := rfl

@[simp] theorem announces_auditLog : (@Write.insert S (.auditLog a)).announces = false := rfl

@[simp] theorem announces_agentRun : (@Write.insert S (.agentRun r)).announces = false := rfl

@[simp] theorem announces_updateTicket : (@Write.updateTicket S id p).announces = false := rfl

@[simp] theorem announces_updateAgentRun :
    (@Write.updateAgentRun S id q).announces = false := rfl

@[simp] theorem announces_updateWebhook (x : WebhookPatch) :
    (@Write.updateWebhook S id x).announces = false := rfl

@[simp] theorem announces_updateDelivery :
    (@Write.updateDelivery S id v).announces = false := rfl

theorem renews_of_plain {x : Write S} (h : x.Plain) (id : Uuid) : x.renews id = false := by
  cases x with
  | insert row => cases row <;> first | rfl | exact h.elim
  | updateTicket id p => exact h.elim
  | _ => rfl

theorem isHistory_of_plain {x : Write S} (h : x.Plain) : x.isHistory = false := by
  cases x with
  | insert row => cases row <;> first | rfl | exact h.elim
  | updateTicket id p => exact h.elim
  | _ => rfl

theorem resolution_of_plain {x : Write S} (h : x.Plain) : x.resolution = none := by
  cases x with
  | updateTicket id p => exact h.elim
  | _ => rfl

theorem owedAfter_plain {owed : Option (Uuid × String)} {ws : List (Write S)}
    (h : ∀ x ∈ ws, x.Plain) : owedAfter owed ws = owed := by
  have hannounces : ws.any Write.announces = false := by
    rw [List.any_eq_false]
    intro x hx hann
    have hplain := h x hx
    cases x with
    | insert row => cases row <;> first | exact hplain | exact Bool.noConfusion hann
    | _ => exact Bool.noConfusion hann
  have hresolution : ws.findSome? Write.resolution = none :=
    List.findSome?_eq_none_iff.mpr fun x hx => resolution_of_plain (h x hx)
  simp [owedAfter, hannounces, hresolution]

end

/-! The part of the tables that a ticket's history is in -/

section

variable {start : Time} {db db' : DB S}

/-- The two states have the same tickets with the same events. -/
structure DB.SameHistory (db db' : DB S) : Prop where
  tickets : db'.tickets = db.tickets
  ticketEvents : db'.ticketEvents = db.ticketEvents

theorem sameHistory_apply {x : Write S} (h : db.SameHistory db') :
    (x.apply start db).SameHistory (x.apply start db') := by
  obtain ⟨ht, he⟩ := h
  cases x with
  | insert row =>
    cases row <;> refine ⟨?_, ?_⟩ <;> simp only [Write.apply, Row.insert, ht, he]
  | _ => refine ⟨?_, ?_⟩ <;> simp only [Write.apply, ht, he]

theorem sameHistory_apply_left {x : Write S} (hx : x.isHistory = false) (h : db.SameHistory db') :
    (x.apply start db).SameHistory db' := by
  cases x with
  | insert row => cases row <;> first | exact Bool.noConfusion hx | exact ⟨h.tickets, h.ticketEvents⟩
  | updateTicket id p => exact Bool.noConfusion hx
  | _ => exact ⟨h.tickets, h.ticketEvents⟩

theorem isPresent_sameHistory {row : Row S} (h : db.SameHistory db')
    (hrow : (Write.insert row).isHistory = true) : row.isPresent db' = row.isPresent db := by
  cases row <;> first
    | exact Bool.noConfusion hrow
    | simp only [Row.isPresent, h.tickets, h.ticketEvents]

/-- Only the statements about tickets and events count for the history. -/
theorem history_filter {ws : List (Write S)} (h : db.SameHistory db') (habs : Absent start db ws) :
    Absent start db' (ws.filter Write.isHistory) ∧
      (applyAll start db ws).SameHistory (applyAll start db' (ws.filter Write.isHistory)) := by
  induction ws generalizing db db' with
  | nil => exact ⟨trivial, h⟩
  | cons x ws ih =>
    cases hx : x.isHistory with
    | true =>
      obtain ⟨habs', hsame⟩ := ih (sameHistory_apply h) habs.2
      rw [List.filter_cons_of_pos hx]
      refine ⟨⟨?_, habs'⟩, hsame⟩
      rintro row rfl
      rw [isPresent_sameHistory h hx]
      exact habs.1 row rfl
    | false =>
      rw [List.filter_cons_of_neg (by simp [hx])]
      exact ih (sameHistory_apply_left hx h) habs.2

end

end AgentDesk
