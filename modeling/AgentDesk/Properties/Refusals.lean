import AgentDesk.Logic.Tokens

namespace AgentDesk

open Framework (Observer Program)

variable {S α β : Type}

/-! What the ticket service raises -/

/-- `EmptyResponseError` and `InvalidTransitionError`. -/
def Err.isRefusal : Err → Bool
  | .emptyResponse _ => true
  | .invalidTransition _ _ => true
  | _ => false

/-- The call did not raise an exception of the ticket service. -/
def Op.Foreign : (op : Op S) → Res op → Prop
  | .query _, .error e => e.isRefusal = false
  | .write _, .error e => e.isRefusal = false
  | .commit, .error e => e.isRefusal = false
  | .rollback, .error e => e.isRefusal = false
  | .embed _, .error e => e.isRefusal = false
  | .chat _, .error e => e.isRefusal = false
  | .post _ _ _, .error e => e.isRefusal = false
  | .aclose, .error e => e.isRefusal = false
  | .enqueue _, .error e => e.isRefusal = false
  | _, _ => True

/-- The observer of a session whose calls raise no exception of the ticket service. -/
abbrev foreign : Observer (Op S) Res Unit := Framework.permitting Op.Foreign

/-- The coroutine never refuses of its own accord. -/
def M.Unrefusing (p : M S α) : Prop :=
  ∀ σ, p.Triple foreign (fun _ _ _ => True) (fun e _ _ => e.isRefusal = false) σ ()

namespace M

theorem unrefusing_pure (a : α) : Unrefusing (Pure.pure a : M S α) := fun _ => trivial

theorem unrefusing_raise {e : Err} (h : e.isRefusal = false) : Unrefusing (raise e : M S α) :=
  fun _ => h

theorem unrefusing_modify (f : Session S → Session S) : Unrefusing (modify f) := fun _ => trivial

theorem unrefusing_bind {p : M S α} {f : α → M S β} (hp : p.Unrefusing)
    (hf : ∀ a, (f a).Unrefusing) : (p >>= f).Unrefusing := by
  intro σ
  rw [triple_bind]
  exact triple_mono (hp σ) (fun a σ' _ _ => hf a σ') fun _ _ _ h => h

theorem unrefusing_map {p : M S α} {f : α → β} (hp : p.Unrefusing) : (f <$> p).Unrefusing :=
  unrefusing_bind hp fun a => unrefusing_pure (f a)

theorem unrefusing_except {p : M S α} {h : Err → M S α} (hp : p.Unrefusing)
    (hh : ∀ e, (h e).Unrefusing) : (except p h).Unrefusing := by
  intro σ
  rw [triple_except]
  exact triple_mono (hp σ) (fun _ _ _ _ => trivial) fun e σ' _ _ => hh e σ'

theorem unrefusing_ite {c : Prop} [Decidable c] {p q : M S α} (hp : p.Unrefusing)
    (hq : q.Unrefusing) : (if c then p else q).Unrefusing := by
  split
  · exact hp
  · exact hq

end M

open M (unrefusing_pure unrefusing_raise unrefusing_modify unrefusing_bind unrefusing_map
  unrefusing_except unrefusing_ite)

theorem unrefusing_query (q : Query S) : (query q : M S _).Unrefusing := fun _ =>
  ⟨trivial, fun r _ hr => match r, hr with
    | .error _, hr => hr
    | .ok _, _ => trivial⟩

theorem unrefusing_clock : (clock : M S Time).Unrefusing := fun _ => ⟨trivial, fun _ _ _ => trivial⟩

theorem unrefusing_uuid4 : (uuid4 : M S Uuid).Unrefusing := fun _ => trivial

theorem unrefusing_session : (M.session : M S (Session S)).Unrefusing := fun _ => trivial

theorem unrefusing_post (url : String) (body : List Char) (headers : List (String × String)) :
    (post url body headers : M S Nat).Unrefusing := fun _ =>
  ⟨trivial, fun r _ hr => match r, hr with
    | .error _, hr => hr
    | .ok _, _ => trivial⟩

theorem unrefusing_aclose : (aclose : M S Unit).Unrefusing := fun _ =>
  ⟨trivial, fun r _ hr => match r, hr with
    | .error _, hr => hr
    | .ok _, _ => trivial⟩

theorem unrefusing_enqueue (task : Task) : (enqueue task : M S Unit).Unrefusing := fun _ =>
  ⟨trivial, fun r _ hr => match r, hr with
    | .error _, hr => hr
    | .ok _, _ => trivial⟩

theorem unrefusing_sendCommit : (sendCommit : M S Unit).Unrefusing := fun _ =>
  ⟨trivial, fun r _ hr => match r, hr with
    | .error _, hr => hr
    | .ok _, _ => trivial⟩

theorem unrefusing_flush : (flush : M S Unit).Unrefusing := by
  intro σ
  rw [triple_flush]
  cases σ.pending with
  | nil => trivial
  | cons x ws => exact ⟨trivial, fun _ _ h => h, fun _ _ => trivial⟩

theorem unrefusing_commit : (commit : M S Unit).Unrefusing :=
  unrefusing_bind unrefusing_flush fun _ => unrefusing_sendCommit

theorem unrefusing_ticketAttrs (id : Uuid) : (ticketAttrs id : M S Ticket).Unrefusing := by
  refine unrefusing_bind unrefusing_session fun σ => ?_
  split
  · exact unrefusing_pure _
  · exact unrefusing_raise rfl

theorem unrefusing_deliveryAttrs (id : Uuid) :
    (deliveryAttrs id : M S WebhookDelivery).Unrefusing := by
  refine unrefusing_bind unrefusing_session fun σ => ?_
  split
  · exact unrefusing_pure _
  · exact unrefusing_raise rfl

theorem unrefusing_refreshTicket (id : Uuid) : (refreshTicket id : M S Ticket).Unrefusing := by
  refine unrefusing_bind (unrefusing_query _) fun row => ?_
  split
  · exact unrefusing_raise rfl
  · exact unrefusing_bind (unrefusing_modify _) fun _ => unrefusing_pure _

theorem unrefusing_refreshDelivery (id : Uuid) :
    (refreshDelivery id : M S WebhookDelivery).Unrefusing := by
  refine unrefusing_bind (unrefusing_query _) fun row => ?_
  split
  · exact unrefusing_raise rfl
  · exact unrefusing_bind (unrefusing_modify _) fun _ => unrefusing_pure _

theorem unrefusing_identify (w : Webhook) : (identify w : M S Webhook).Unrefusing := by
  refine unrefusing_bind unrefusing_session fun σ => ?_
  split
  · exact unrefusing_pure _
  · exact unrefusing_bind (unrefusing_modify _) fun _ => unrefusing_pure _

theorem unrefusing_getWebhook (id : Uuid) : (getWebhook id : M S (Option Webhook)).Unrefusing := by
  refine unrefusing_bind unrefusing_session fun σ => ?_
  split
  · exact unrefusing_pure _
  · refine unrefusing_bind (unrefusing_query _) fun row => ?_
    split
    · exact unrefusing_pure _
    · exact unrefusing_map (unrefusing_identify _)

theorem unrefusing_getDelivery (id : Uuid) :
    (getDelivery id : M S (Option WebhookDelivery)).Unrefusing := by
  refine unrefusing_bind unrefusing_session fun σ => ?_
  split
  · exact unrefusing_pure _
  · refine unrefusing_bind (unrefusing_query _) fun row => ?_
    split
    · exact unrefusing_pure _
    · exact unrefusing_bind (unrefusing_modify _) fun _ => unrefusing_pure _

theorem unrefusing_record (event : AuditEvent) (organizationId actorUserId : Option Uuid)
    (targetType targetId : Option String) (metadata : Option Meta) (commits : Bool) :
    (record event organizationId actorUserId targetType targetId metadata commits :
      M S AuditLog).Unrefusing := by
  refine unrefusing_bind unrefusing_uuid4 fun id => ?_
  refine unrefusing_bind (unrefusing_modify _) fun _ => ?_
  refine unrefusing_bind unrefusing_flush fun _ => ?_
  refine unrefusing_ite ?_ (unrefusing_pure _)
  exact unrefusing_bind unrefusing_commit fun _ => unrefusing_pure _

theorem unrefusing_attempt (id : Uuid) (url : String) (body : List Char)
    (headers : List (String × String)) :
    (WebhookService.attempt id url body headers : M S Bool).Unrefusing := by
  refine unrefusing_except ?_ fun e => ?_
  · refine unrefusing_bind (unrefusing_post url body headers) fun status => ?_
    exact unrefusing_bind (unrefusing_modify _) fun _ => unrefusing_pure _
  · exact unrefusing_bind (unrefusing_modify _) fun _ => unrefusing_pure _

theorem unrefusing_settleAttempt (cfg : Config S) (id : Uuid) (success : Bool) :
    (WebhookService.settleAttempt cfg id success).Unrefusing := by
  have finish : (commit >>= fun _ => pure success : M S Bool).Unrefusing :=
    unrefusing_bind unrefusing_commit fun _ => unrefusing_pure _
  refine unrefusing_bind (unrefusing_deliveryAttrs id) fun delivery => ?_
  refine unrefusing_ite ?_ (unrefusing_ite ?_ finish)
  · refine unrefusing_bind (unrefusing_modify _) fun _ => ?_
    exact unrefusing_bind (unrefusing_record _ _ _ _ _ _ _) fun _ => finish
  · exact unrefusing_bind (unrefusing_modify _) fun _ => finish

theorem unrefusing_performAttempt (cfg : Config S) (delivery : WebhookDelivery) (webhook : Webhook)
    (ownsClient : Bool) :
    (WebhookService.performAttempt cfg delivery webhook ownsClient).Unrefusing := by
  refine unrefusing_bind unrefusing_clock fun now => ?_
  refine unrefusing_bind (unrefusing_modify _) fun _ => ?_
  refine unrefusing_bind (unrefusing_attempt _ _ _ _) fun success => ?_
  refine unrefusing_ite ?_ (unrefusing_settleAttempt _ _ _)
  exact unrefusing_bind unrefusing_aclose fun _ => unrefusing_settleAttempt _ _ _

theorem unrefusing_deliverOnce (cfg : Config S) (id : Uuid) (ownsClient : Bool) :
    (WebhookService.deliverOnce cfg id ownsClient).Unrefusing := by
  refine unrefusing_bind (unrefusing_getDelivery id) fun delivery => ?_
  split
  · exact unrefusing_pure _
  · refine unrefusing_bind (unrefusing_getWebhook _) fun webhook => ?_
    split
    · exact unrefusing_pure _
    · exact unrefusing_performAttempt _ _ _ _

theorem unrefusing_dispatch (cfg : Config S) (delivery : WebhookDelivery) :
    (WebhookService.dispatch cfg delivery).Unrefusing := by
  refine unrefusing_ite (unrefusing_pure _) (unrefusing_ite ?_ ?_)
  · refine unrefusing_bind (unrefusing_deliverOnce cfg _ _) fun _ => ?_
    exact unrefusing_deliveryAttrs _
  · exact unrefusing_bind (unrefusing_enqueue _) fun _ => unrefusing_pure _

theorem unrefusing_enqueueForTicket (cfg : Config S) (ticketId : Uuid) (event : String) :
    (WebhookService.enqueueForTicket cfg ticketId event).Unrefusing := by
  refine unrefusing_bind (unrefusing_ticketAttrs ticketId) fun ticket => ?_
  refine unrefusing_bind (unrefusing_bind (unrefusing_query _) fun row => ?_) fun webhook => ?_
  · split
    · exact unrefusing_pure _
    · exact unrefusing_map (unrefusing_identify _)
  · split
    · exact unrefusing_pure _
    · refine unrefusing_ite (unrefusing_pure _) ?_
      refine unrefusing_bind unrefusing_uuid4 fun id => ?_
      refine unrefusing_bind (unrefusing_modify _) fun _ => ?_
      refine unrefusing_bind unrefusing_flush fun _ => ?_
      refine unrefusing_bind unrefusing_clock fun now => ?_
      refine unrefusing_bind (unrefusing_modify _) fun _ => ?_
      refine unrefusing_bind unrefusing_commit fun _ => ?_
      refine unrefusing_bind (unrefusing_refreshDelivery id) fun delivery => ?_
      exact unrefusing_map (unrefusing_dispatch cfg delivery)

/-! Refused calls -/

/-- The calls of the ticket service that validate before they change a loaded ticket. -/
inductive TicketCall where
  | transition (toStatus : TicketStatus) (actorUserId : Option Uuid) (eventType : String)
      (message : Option String) (flushes : Bool)
  | approve (actorUserId : Uuid) (editedResponse : Option String)
  | reject (actorUserId : Uuid) (reason : Option String)
  | editDraft (actorUserId : Uuid) (content : String)

namespace TicketCall

def run (cfg : Config S) (ticketId : Uuid) : TicketCall → M S Ticket
  | .transition toStatus actorUserId eventType message flushes =>
    TicketService.transition ticketId toStatus actorUserId eventType message flushes
  | .approve actorUserId editedResponse =>
    TicketService.approve cfg ticketId actorUserId editedResponse
  | .reject actorUserId reason => TicketService.reject ticketId actorUserId reason
  | .editDraft actorUserId content => TicketService.editDraft ticketId actorUserId content

/-- `ticket.final_response = final`. -/
def assign (final : String) (x : Tracked Ticket) : Tracked Ticket :=
  { x with cur := TicketPatch.apply { finalResponse := some (some final) } x.cur }

/-- The session in which the call is refused: an approval has assigned the final response. -/
def refused (σ : Session S) (ticketId : Uuid) : TicketCall → Session S
  | .approve _ editedResponse => match σ.ticket? ticketId with
    | none => σ
    | some o =>
      let final := TicketService.finalOf o.cur editedResponse
      if isBlank final then σ
      else σ.putTicket ticketId (assign final)
  | _ => σ

/-- The call is not an approval with a final response that is not blank and that the ticket does
not have already. -/
def Keeps (σ : Session S) (ticketId : Uuid) : TicketCall → Prop
  | .approve _ editedResponse => ∀ o, σ.ticket? ticketId = some o →
    isBlank (TicketService.finalOf o.cur editedResponse) = true ∨
      ∀ x ∈ σ.tickets, x.loaded.id = ticketId →
        x.cur.finalResponse = some (TicketService.finalOf o.cur editedResponse)
  | _ => True

end TicketCall

/-- The attributes of the tickets are what they were, and so are the dirty and the new objects:
a flush would send the same statements. -/
structure Session.Untouched (σ σ' : Session S) : Prop where
  tickets : σ'.tickets.map Tracked.cur = σ.tickets.map Tracked.cur
  pending : σ'.pending = σ.pending
  new : σ'.new = σ.new

theorem transition_refused (ticketId : Uuid) (toStatus : TicketStatus) (actorUserId : Option Uuid)
    (eventType : String) (message : Option String) (flushes : Bool) (σ : Session S) :
    (TicketService.transition ticketId toStatus actorUserId eventType message flushes).Triple
      foreign (fun _ _ _ => True) (fun e σ' _ => e.isRefusal = true → σ' = σ) σ () := by
  unfold TicketService.transition
  rw [M.triple_bind, triple_ticketAttrs]
  refine ⟨fun o _ => ?_, fun _ h => absurd h Bool.false_ne_true⟩
  rw [M.triple_ite]
  refine ⟨fun _ _ => rfl, fun _ => ?_⟩
  have rest : (do
      setTicket ticketId { status := some toStatus }
      let id ← uuid4
      add (.ticketEvent
        { id, ticketId, organizationId := o.cur.organizationId, eventType,
          fromStatus := some o.cur.status, toStatus := some toStatus, actorUserId, message,
          createdAt := 0 })
      if flushes then flush
      ticketAttrs ticketId : M S Ticket).Unrefusing := by
    refine unrefusing_bind (unrefusing_modify _) fun _ => ?_
    refine unrefusing_bind unrefusing_uuid4 fun id => ?_
    refine unrefusing_bind (unrefusing_modify _) fun _ => ?_
    refine unrefusing_ite ?_ (unrefusing_ticketAttrs ticketId)
    exact unrefusing_bind unrefusing_flush fun _ => unrefusing_ticketAttrs ticketId
  refine M.triple_mono (rest σ) (fun _ _ _ h => h) fun e _ _ he href => ?_
  rw [he] at href
  cases href

/-- What follows a change of status raises no refusal of its own. -/
theorem after_transition {α : Type} {ticketId : Uuid} {toStatus : TicketStatus}
    {actorUserId : Option Uuid} {eventType : String} {message : Option String} {flushes : Bool}
    {f : Ticket → M S α} (hf : ∀ t, (f t).Unrefusing) (σ : Session S) :
    (TicketService.transition ticketId toStatus actorUserId eventType message flushes >>= f).Triple
      foreign (fun _ _ _ => True) (fun e σ' _ => e.isRefusal = true → σ' = σ) σ () := by
  rw [M.triple_bind]
  refine M.triple_mono (transition_refused _ _ _ _ _ _ σ) (fun t σ' _ _ => ?_) fun _ _ _ h => h
  refine M.triple_mono (hf t σ') (fun _ _ _ h => h) fun e _ _ he href => ?_
  rw [he] at href
  cases href

theorem approve_refused (cfg : Config S) (ticketId actorUserId : Uuid)
    (editedResponse : Option String) (σ : Session S) :
    (TicketService.approve cfg ticketId actorUserId editedResponse).Triple foreign
      (fun _ _ _ => True)
      (fun e σ' _ => e.isRefusal = true →
        σ' = (TicketCall.approve actorUserId editedResponse).refused σ ticketId) σ () := by
  unfold TicketService.approve
  rw [M.triple_bind, triple_ticketAttrs]
  refine ⟨fun o ho => ?_, fun _ h => absurd h Bool.false_ne_true⟩
  rw [M.triple_ite]
  refine ⟨fun hblank _ => ?_, fun hfull => ?_⟩
  · simp only [TicketCall.refused, ho, hblank, if_true]
  · rw [M.triple_bind, triple_setTicket]
    refine M.triple_mono (after_transition (fun t => ?_) _) (fun _ _ _ h => h) ?_
    · refine unrefusing_bind (unrefusing_record _ _ _ _ _ _ _) fun _ => ?_
      refine unrefusing_bind unrefusing_commit fun _ => ?_
      refine unrefusing_bind (unrefusing_refreshTicket ticketId) fun _ => ?_
      refine unrefusing_bind (unrefusing_enqueueForTicket cfg ticketId _) fun _ => ?_
      exact unrefusing_ticketAttrs ticketId
    · intro e σ' _ h href
      rw [h href]
      simp only [TicketCall.refused, ho, if_neg hfull]
      rfl

theorem editDraft_refused (ticketId actorUserId : Uuid) (content : String) (σ : Session S) :
    (TicketService.editDraft ticketId actorUserId content).Triple foreign (fun _ _ _ => True)
      (fun e σ' _ => e.isRefusal = true → σ' = σ) σ () := by
  unfold TicketService.editDraft
  rw [M.triple_ite]
  refine ⟨fun _ _ => rfl, fun _ => ?_⟩
  have rest : (do
      let ticket ← ticketAttrs ticketId
      setTicket ticketId { draftResponse := some (some content) }
      let id ← uuid4
      add (.ticketEvent
        { id, ticketId, organizationId := ticket.organizationId, eventType := "edited",
          fromStatus := none, toStatus := none, actorUserId := some actorUserId,
          message := some "Draft edited", createdAt := 0 })
      commit
      refreshTicket ticketId : M S Ticket).Unrefusing := by
    refine unrefusing_bind (unrefusing_ticketAttrs ticketId) fun ticket => ?_
    refine unrefusing_bind (unrefusing_modify _) fun _ => ?_
    refine unrefusing_bind unrefusing_uuid4 fun id => ?_
    refine unrefusing_bind (unrefusing_modify _) fun _ => ?_
    exact unrefusing_bind unrefusing_commit fun _ => unrefusing_refreshTicket ticketId
  refine M.triple_mono (rest σ) (fun _ _ _ h => h) fun e _ _ he href => ?_
  rw [he] at href
  cases href

theorem ticketCall_refused (cfg : Config S) (ticketId : Uuid) (call : TicketCall) (σ : Session S) :
    (call.run cfg ticketId).Triple foreign (fun _ _ _ => True)
      (fun e σ' _ => e.isRefusal = true → σ' = call.refused σ ticketId) σ () := by
  cases call with
  | transition toStatus actorUserId eventType message flushes =>
    exact transition_refused ticketId toStatus actorUserId eventType message flushes σ
  | approve actorUserId editedResponse => exact approve_refused cfg ticketId actorUserId _ σ
  | reject actorUserId reason =>
    refine after_transition (fun t => ?_) σ
    refine unrefusing_bind (unrefusing_record _ _ _ _ _ _ _) fun _ => ?_
    exact unrefusing_bind unrefusing_commit fun _ => unrefusing_refreshTicket ticketId
  | editDraft actorUserId content => exact editDraft_refused ticketId actorUserId content σ

theorem untouched_refused (σ : Session S) (ticketId : Uuid) (call : TicketCall) :
    σ.Untouched (call.refused σ ticketId) ↔ call.Keeps σ ticketId := by
  have same : σ.Untouched σ := ⟨rfl, rfl, rfl⟩
  cases call with
  | approve actorUserId editedResponse =>
    cases ho : σ.ticket? ticketId with
    | none =>
      simp only [TicketCall.refused, TicketCall.Keeps, ho]
      exact ⟨fun _ o h => (by cases h), fun _ => same⟩
    | some o =>
      simp only [TicketCall.refused, TicketCall.Keeps, ho]
      cases hblank : isBlank (TicketService.finalOf o.cur editedResponse) with
      | true =>
        rw [if_pos rfl]
        refine ⟨fun _ o' h => ?_, fun _ => same⟩
        cases h
        exact Or.inl hblank
      | false =>
        rw [if_neg Bool.false_ne_true]
        constructor
        · intro h o' heq
          cases heq
          refine Or.inr fun x hx hid => ?_
          have hmap := h.tickets
          rw [Session.putTicket, List.map_map, List.map_inj_left] at hmap
          have hcur := congrArg Ticket.finalResponse (hmap x hx)
          simp only [Function.comp_apply, if_pos hid] at hcur
          exact hcur.symm
        · intro h
          have hall := (h o rfl).resolve_left (by rw [hblank]; exact Bool.false_ne_true)
          have hput : σ.putTicket ticketId
              (TicketCall.assign (TicketService.finalOf o.cur editedResponse)) = σ := by
            have htickets : σ.tickets.map (fun x => if x.loaded.id = ticketId then
                TicketCall.assign (TicketService.finalOf o.cur editedResponse) x else x) =
                  σ.tickets := by
              conv_rhs => rw [← List.map_id σ.tickets]
              refine List.map_congr_left fun x hx => ?_
              by_cases hid : x.loaded.id = ticketId
              · rw [if_pos hid, id_eq, TicketCall.assign, ← hall x hx hid]
                rfl
              · rw [if_neg hid, id_eq]
            rw [Session.putTicket, htickets]
          rw [hput]
          exact same
  | transition | reject | editDraft => exact ⟨fun _ => trivial, fun _ => same⟩

/-- A ticket that nobody has worked on yet. -/
def freshTicket : Ticket where
  id := ⟨1, 0⟩
  organizationId := ⟨0, 0⟩
  title := "help"
  description := "it broke"
  priority := .low
  status := .new
  suggestedType := none
  suggestedPriority := none
  draftResponse := none
  finalResponse := none
  createdBy := some ⟨0, 1⟩
  createdAt := 0
  updatedAt := 0

def freshSession : Session ℚ := ⟨5, 0, [⟨freshTicket, freshTicket⟩], [], [], [], []⟩

end AgentDesk
