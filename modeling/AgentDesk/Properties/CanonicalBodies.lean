import AgentDesk.Logic.CanonicalJson
import AgentDesk.Services.Webhooks

namespace AgentDesk

open WebhookService (buildTicketPayload serializePayload sign signatureHeader)

variable {S α β : Type} {cfg : Config S} {P : Platform} {body : List Char} {signature : String}

/-! What an attempt sends -/

/-- If the call sends something, it is this body under this signature. -/
def Op.Sends (body : List Char) (signature : String) : Op S → Prop
  | .post _ b headers => b = body ∧ (signatureHeader, signature) ∈ headers
  | _ => True

/-- Whatever its calls return, the coroutine sends nothing but this body under this signature. -/
def M.Sends (p : M S α) (body : List Char) (signature : String) : Prop :=
  ∀ σ, (p σ).Uses (Op.Sends body signature) fun _ => True

namespace M.Sends

theorem pure (a : α) : (Pure.pure a : M S α).Sends body signature := fun _ => trivial

theorem bind {p : M S β} {f : β → M S α} (hp : p.Sends body signature)
    (hf : ∀ b, (f b).Sends body signature) : (p >>= f).Sends body signature := by
  intro σ
  rw [M.bind_apply]
  refine Framework.Program.uses_bind (hp σ) ?_
  rintro ⟨_ | b, σ'⟩ -
  · trivial
  · exact hf b σ'

theorem ite {c : Prop} [Decidable c] {p q : M S α} (hp : p.Sends body signature)
    (hq : q.Sends body signature) : (if c then p else q).Sends body signature := by
  split
  · exact hp
  · exact hq

theorem except {p : M S α} {h : Err → M S α} (hp : p.Sends body signature)
    (hh : ∀ e, (h e).Sends body signature) : (M.except p h).Sends body signature := by
  intro σ
  refine Framework.Program.uses_bind (hp σ) ?_
  rintro ⟨e | a, σ'⟩ -
  · exact hh e σ'
  · trivial

theorem session : (M.session : M S (Session S)).Sends body signature := fun _ => trivial

theorem raise (e : Err) : (M.raise e : M S α).Sends body signature := fun _ => trivial

theorem modify (f : Session S → Session S) : (M.modify f).Sends body signature := fun _ => trivial

theorem clock : (AgentDesk.clock : M S Time).Sends body signature :=
  fun _ => ⟨trivial, fun _ => trivial⟩

theorem aclose : (AgentDesk.aclose : M S Unit).Sends body signature :=
  fun _ => ⟨trivial, fun _ => trivial⟩

theorem flush : (AgentDesk.flush : M S Unit).Sends body signature := by
  intro σ
  rw [AgentDesk.flush]
  split
  · trivial
  · refine ⟨trivial, fun r => ?_⟩
    cases r <;> trivial

theorem commit : (AgentDesk.commit : M S Unit).Sends body signature :=
  flush.bind fun _ _ => ⟨trivial, fun _ => trivial⟩

theorem deliveryAttrs (id : Uuid) : (AgentDesk.deliveryAttrs id : M S _).Sends body signature := by
  refine M.Sends.session.bind fun σ => ?_
  split
  · exact .pure _
  · exact .raise _

end M.Sends

theorem settleAttempt_sends (deliveryId : Uuid) (success : Bool) :
    (WebhookService.settleAttempt cfg deliveryId success).Sends body signature := by
  have hlast : (do commit; pure success : M S Bool).Sends body signature :=
    M.Sends.commit.bind fun _ => .pure _
  have hrecord : ∀ d : WebhookDelivery, (record .webhookSent (some d.organizationId) none
      (some "webhook_delivery") (some deliveryId.str) (some [("event", .str d.event),
        ("status_code", (d.lastStatusCode.map MetaValue.int).getD .null)]) false : M S _).Sends
          body signature := by
    intro d
    refine M.Sends.bind (fun _ => trivial) fun id => (M.Sends.modify _).bind fun _ => ?_
    exact M.Sends.flush.bind fun _ => (M.Sends.pure _).bind fun _ => .pure _
  refine (M.Sends.deliveryAttrs _).bind fun d => M.Sends.ite ?_ (.ite ?_ hlast)
  · exact (M.Sends.modify _).bind fun _ => (hrecord d).bind fun _ => hlast
  · exact (M.Sends.modify _).bind fun _ => hlast

theorem performAttempt_sends (d : WebhookDelivery) (w : Webhook) (ownsClient : Bool) :
    (WebhookService.performAttempt cfg d w ownsClient).Sends (serializePayload d.payload)
      (sign cfg.platform w.secret (serializePayload d.payload)) := by
  have hattempt : ∀ now, (WebhookService.attempt d.id w.url (serializePayload d.payload)
      (WebhookService.attemptHeaders cfg.platform d.event w.secret (serializePayload d.payload) now) :
        M S Bool).Sends (serializePayload d.payload)
          (sign cfg.platform w.secret (serializePayload d.payload)) := by
    intro now
    refine M.Sends.except ?_ fun e => (M.Sends.modify _).bind fun _ => .pure _
    refine M.Sends.bind ?_ fun status => (M.Sends.modify _).bind fun _ => .pure _
    intro σ
    exact ⟨⟨rfl, by simp [WebhookService.attemptHeaders]⟩, fun _ => trivial⟩
  refine M.Sends.clock.bind fun now => (M.Sends.modify _).bind fun _ => ?_
  refine (hattempt now).bind fun success => M.Sends.ite ?_ (settleAttempt_sends _ _)
  exact M.Sends.aclose.bind fun _ => settleAttempt_sends _ _

/-! The body of a notification -/

section

variable {ticket ticket' : Ticket} {event event' : String} {id id' : Uuid} {now now' : Time}

theorem buildTicketPayload_distinct : (buildTicketPayload P ticket event id now).Distinct := by
  have hticket : (Json.obj
      [("id", .str ticket.id.str), ("title", .str ticket.title),
        ("status", .str ticket.status.value), ("priority", .str ticket.priority.value),
        ("final_response", WebhookService.optional ticket.finalResponse),
        ("updated_at", .str (P.isoformat ticket.updatedAt))]).Distinct := by
    refine .obj (by simp) ?_
    cases ticket.finalResponse <;> simp [WebhookService.optional, Json.Distinct.null, Json.Distinct.str]
  refine .obj (by simp) ?_
  simp [Json.Distinct.str, hticket]

theorem optional_injective {a b : Option String}
    (h : (WebhookService.optional a).dumps = (WebhookService.optional b).dumps) : a = b := by
  cases a with
  | none =>
    cases b with
    | none => rfl
    | some t => cases h
  | some s =>
    cases b with
    | none => cases h
    | some t => exact congrArg some (Json.quote_injective h)

/-- Payloads with the same bytes agree in every field. -/
theorem buildTicketPayload_injective
    (h : serializePayload (buildTicketPayload P ticket event id now) =
      serializePayload (buildTicketPayload P ticket' event' id' now')) :
    buildTicketPayload P ticket event id now = buildTicketPayload P ticket' event' id' now' := by
  have hfields := Json.codes_of_dumps h rfl (by simp)
  simp only [List.map_cons, List.map_nil, List.cons.injEq, and_true] at hfields
  obtain ⟨hevent, hid, horganization, hticket, hsent⟩ := hfields
  have hinner := Json.codes_of_dumps hticket rfl (by simp)
  simp only [List.map_cons, List.map_nil, List.cons.injEq, and_true] at hinner
  obtain ⟨htid, htitle, hstatus, hpriority, hresponse, hupdated⟩ := hinner
  rw [buildTicketPayload, buildTicketPayload, Json.quote_injective hevent,
    Json.quote_injective hid, Json.quote_injective horganization, Json.quote_injective hsent,
    Json.quote_injective htid, Json.quote_injective htitle, Json.quote_injective hstatus,
    Json.quote_injective hpriority, optional_injective hresponse, Json.quote_injective hupdated]

end

/-- Every stored copy of a payload is signed and sent as the same bytes, and these bytes
determine the payload. -/
theorem ticketPayload_canonical (P : Platform) (ticket : Ticket) (event : String) (id : Uuid)
    (now : Time) :
    (∀ v, (buildTicketPayload P ticket event id now).Reorders v →
      serializePayload v = serializePayload (buildTicketPayload P ticket event id now)) ∧
    (∀ (S : Type) (cfg : Config S) (d : WebhookDelivery) (w : Webhook) (ownsClient : Bool),
      (buildTicketPayload P ticket event id now).Reorders d.payload →
        (WebhookService.performAttempt cfg d w ownsClient).Sends
          (serializePayload (buildTicketPayload P ticket event id now))
          (sign cfg.platform w.secret
            (serializePayload (buildTicketPayload P ticket event id now)))) ∧
    ∀ (ticket' : Ticket) (event' : String) (id' : Uuid) (now' : Time),
      buildTicketPayload P ticket event id now ≠ buildTicketPayload P ticket' event' id' now' →
        serializePayload (buildTicketPayload P ticket event id now) ≠
          serializePayload (buildTicketPayload P ticket' event' id' now') := by
  have hsame : ∀ v, (buildTicketPayload P ticket event id now).Reorders v →
      serializePayload v = serializePayload (buildTicketPayload P ticket event id now) :=
    fun v hv => (hv.dumps_eq buildTicketPayload_distinct).1.symm
  refine ⟨hsame, ?_, ?_⟩
  · intro S cfg d w ownsClient hd
    have hsends := @performAttempt_sends S cfg d w ownsClient
    rw [hsame d.payload hd] at hsends
    exact hsends
  · intro ticket' event' id' now' hne hbytes
    exact hne (buildTicketPayload_injective hbytes)

end AgentDesk
