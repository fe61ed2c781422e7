import AgentDesk.Framework.Observer
import AgentDesk.Services.AgentRuns
import AgentDesk.Services.Accounts
import AgentDesk.Services.Documents
import AgentDesk.Services.Metrics

namespace AgentDesk

open Framework (Observer)

variable {S α β St : Type}

/-- What an observer can say about a coroutine: it meets the demands, returns into `Q` or
raises into `E`. -/
def M.Triple (O : Observer (Op S) Res St) (p : M S α) (Q : α → Session S → St → Prop)
    (E : Err → Session S → St → Prop) (σ : Session S) (s : St) : Prop :=
  (p σ).Obeys O (fun x s' => match x.1 with
    | .ok a => Q a x.2 s'
    | .error e => E e x.2 s') s

namespace M

variable {O : Observer (Op S) Res St} {Q : α → Session S → St → Prop}
  {E : Err → Session S → St → Prop} {σ : Session S} {s : St}

theorem triple_mono {p : M S α} {Q' : α → Session S → St → Prop}
    {E' : Err → Session S → St → Prop} (h : p.Triple O Q E σ s)
    (hq : ∀ a σ' s', Q a σ' s' → Q' a σ' s') (he : ∀ e σ' s', E e σ' s' → E' e σ' s') :
    p.Triple O Q' E' σ s := by
  refine Framework.Program.obeys_mono h ?_
  rintro ⟨_ | a, σ'⟩ s' hx
  · exact he _ _ _ hx
  · exact hq _ _ _ hx

@[simp] theorem triple_pure (a : α) : (Pure.pure a : M S α).Triple O Q E σ s ↔ Q a σ s := Iff.rfl

@[simp] theorem triple_raise (e : Err) : (raise e : M S α).Triple O Q E σ s ↔ E e σ s := Iff.rfl

@[simp] theorem triple_bind (p : M S β) (f : β → M S α) :
    (p >>= f).Triple O Q E σ s ↔
      p.Triple O (fun b σ' s' => (f b).Triple O Q E σ' s') E σ s := by
  unfold Triple
  rw [bind_apply, Framework.Program.obeys_bind]
  constructor
  · intro h
    refine Framework.Program.obeys_mono h ?_
    rintro ⟨_ | b, σ'⟩ s' hx <;> exact hx
  · intro h
    refine Framework.Program.obeys_mono h ?_
    rintro ⟨_ | b, σ'⟩ s' hx <;> exact hx

@[simp] theorem triple_map (p : M S β) (f : β → α) :
    (f <$> p).Triple O Q E σ s ↔ p.Triple O (fun b => Q (f b)) E σ s :=
  triple_bind p fun b => Pure.pure (f b)

@[simp] theorem triple_except (p : M S α) (h : Err → M S α) :
    (except p h).Triple O Q E σ s ↔
      p.Triple O Q (fun e σ' s' => (h e).Triple O Q E σ' s') σ s := by
  unfold Triple except
  rw [Framework.Program.obeys_bind]
  constructor
  · intro hx
    refine Framework.Program.obeys_mono hx ?_
    rintro ⟨_ | b, σ'⟩ s' hx <;> exact hx
  · intro hx
    refine Framework.Program.obeys_mono hx ?_
    rintro ⟨_ | b, σ'⟩ s' hx <;> exact hx

theorem triple_ite (c : Prop) [Decidable c] (p q : M S α) :
    (if c then p else q).Triple O Q E σ s ↔
      (c → p.Triple O Q E σ s) ∧ (¬c → q.Triple O Q E σ s) := by
  by_cases h : c <;> simp [h]

@[simp] theorem triple_session {Q : Session S → Session S → St → Prop} :
    (session : M S (Session S)).Triple O Q E σ s ↔ Q σ σ s := Iff.rfl

@[simp] theorem triple_modify {Q : Unit → Session S → St → Prop} (f : Session S → Session S) :
    (modify f).Triple O Q E σ s ↔ Q () (f σ) s := Iff.rfl

end M

section Calls

variable {O : Observer (Op S) Res St} {E : Err → Session S → St → Prop} {σ : Session S} {s : St}

theorem except_forall {β : Type} {P : Except Err β → St → Prop} :
    (∀ r s', P r s') ↔ (∀ e s', P (.error e) s') ∧ ∀ a s', P (.ok a) s' :=
  ⟨fun h => ⟨fun _ => h _, fun _ => h _⟩, fun h r => match r with
    | .error e => h.1 e
    | .ok a => h.2 a⟩

@[simp] theorem triple_query (q : Query S) {Q : q.Result → Session S → St → Prop} :
    @M.Triple S (no_index q.Result) St O (query q) Q E σ s ↔ O.ok s (.query q) ∧
      (∀ e s', O.next s (.query q) (.error e) s' → E e σ s') ∧
        ∀ r s', O.next s (.query q) (.ok r) s' → Q r σ s' :=
  and_congr Iff.rfl except_forall

@[simp] theorem triple_clock {Q : Time → Session S → St → Prop} :
    clock.Triple O Q E σ s ↔ O.ok s .clock ∧ ∀ now s', O.next s .clock now s' → Q now σ s' :=
  Iff.rfl

@[simp] theorem triple_salt {Q : Nat → Session S → St → Prop} :
    salt.Triple O Q E σ s ↔ O.ok s .salt ∧ ∀ n s', O.next s .salt n s' → Q n σ s' := Iff.rfl

@[simp] theorem triple_embedCall (texts : List String) {Q : List (List S) → Session S → St → Prop} :
    (embedCall texts).Triple O Q E σ s ↔ O.ok s (.embed texts) ∧
      (∀ e s', O.next s (.embed texts) (.error e) s' → E e σ s') ∧
        ∀ r s', O.next s (.embed texts) (.ok r) s' → Q r σ s' :=
  and_congr Iff.rfl except_forall

@[simp] theorem triple_chatCall (request : ChatRequest) {Q : LLMResult → Session S → St → Prop} :
    (chatCall request).Triple O Q E σ s ↔ O.ok s (.chat request) ∧
      (∀ e s', O.next s (.chat request) (.error e) s' → E e σ s') ∧
        ∀ r s', O.next s (.chat request) (.ok r) s' → Q r σ s' :=
  and_congr Iff.rfl except_forall

@[simp] theorem triple_post (url : String) (body : List Char) (headers : List (String × String))
    {Q : Nat → Session S → St → Prop} :
    (post url body headers).Triple O Q E σ s ↔ O.ok s (.post url body headers) ∧
      (∀ e s', O.next s (.post url body headers) (.error e) s' → E e σ s') ∧
        ∀ r s', O.next s (.post url body headers) (.ok r) s' → Q r σ s' :=
  and_congr Iff.rfl except_forall

@[simp] theorem triple_aclose {Q : Unit → Session S → St → Prop} :
    aclose.Triple O Q E σ s ↔ O.ok s .aclose ∧
      (∀ e s', O.next s .aclose (.error e) s' → E e σ s') ∧
        ∀ r s', O.next s .aclose (.ok r) s' → Q r σ s' :=
  and_congr Iff.rfl except_forall

@[simp] theorem triple_enqueue (task : Task) {Q : Unit → Session S → St → Prop} :
    (enqueue task).Triple O Q E σ s ↔ O.ok s (.enqueue task) ∧
      (∀ e s', O.next s (.enqueue task) (.error e) s' → E e σ s') ∧
        ∀ r s', O.next s (.enqueue task) (.ok r) s' → Q r σ s' :=
  and_congr Iff.rfl except_forall

@[simp] theorem triple_rollback {Q : Unit → Session S → St → Prop} :
    rollback.Triple O Q E σ s ↔ O.ok s .rollback ∧
      (∀ e s', O.next s .rollback (.error e) s' → E e σ.expired s') ∧
        ∀ r s', O.next s .rollback (.ok r) s' → Q r σ.expired s' :=
  and_congr Iff.rfl except_forall

@[simp] theorem triple_close {Q : Unit → Session S → St → Prop} :
    close.Triple O Q E σ s ↔ O.ok s .close ∧ ∀ r s', O.next s .close r s' → Q () σ.expired s' :=
  Iff.rfl

@[simp] theorem triple_uuid4 {Q : Uuid → Session S → St → Prop} :
    uuid4.Triple O Q E σ s ↔ Q ⟨σ.conn, σ.draws⟩ { σ with draws := σ.draws + 1 } s := Iff.rfl

@[simp] theorem triple_add (row : Row S) {Q : Unit → Session S → St → Prop} :
    (add row).Triple O Q E σ s ↔ Q () { σ with new := σ.new ++ [row] } s := Iff.rfl

/-- What a flush with these pending statements needs. -/
def Flushes (O : Observer (Op S) Res St) (Q : Unit → Session S → St → Prop)
    (E : Err → Session S → St → Prop) (σ : Session S) (s : St) : List (Write S) → Prop
  | [] => Q () σ s
  | x :: ws => O.ok s (.write (x :: ws)) ∧
      (∀ e s', O.next s (.write (x :: ws)) (.error e) s' → E e σ s') ∧
        ∀ s', O.next s (.write (x :: ws)) (.ok ()) s' → Q () σ.flushed s'

@[simp] theorem flushes_nil {Q : Unit → Session S → St → Prop} :
    Flushes O Q E σ s [] ↔ Q () σ s := Iff.rfl

@[simp] theorem flushes_of_ne_nil {Q : Unit → Session S → St → Prop} {ws : List (Write S)}
    (h : ws ≠ []) :
    Flushes O Q E σ s ws ↔ O.ok s (.write ws) ∧
      (∀ e s', O.next s (.write ws) (.error e) s' → E e σ s') ∧
        ∀ s', O.next s (.write ws) (.ok ()) s' → Q () σ.flushed s' := by
  cases ws with
  | nil => exact absurd rfl h
  | cons x ws => rfl

@[simp] theorem triple_flush {Q : Unit → Session S → St → Prop} :
    flush.Triple O Q E σ s ↔ Flushes O Q E σ s σ.pending := by
  cases h : σ.pending with
  | nil => simp [M.Triple, flush, h]
  | cons x ws =>
    simp only [M.Triple, flush, h, List.isEmpty_cons, Bool.false_eq_true, if_false, Flushes]
    rw [← h]
    refine and_congr Iff.rfl ?_
    constructor
    · exact fun hx => ⟨fun e s' => hx (.error e) s', fun s' => hx (.ok ()) s'⟩
    · rintro ⟨he, hq⟩ (e | ⟨⟩) s' hn
      · exact he e s' hn
      · exact hq s' hn

@[simp] theorem triple_sendCommit {Q : Unit → Session S → St → Prop} :
    sendCommit.Triple O Q E σ s ↔ O.ok s .commit ∧
      (∀ e s', O.next s .commit (.error e) s' → E e σ s') ∧
        ∀ r s', O.next s .commit (.ok r) s' → Q r σ s' :=
  and_congr Iff.rfl except_forall

/-! Lookups through the identity map -/

@[simp] theorem triple_getTicketRow (id : Uuid) {Q : Option Ticket → Session S → St → Prop} :
    (getTicketRow id).Triple O Q E σ s ↔
      (∀ o, σ.ticket? id = some o → Q (some o.cur) σ s) ∧
      (σ.ticket? id = none → O.ok s (.query (.ticket id)) ∧
        (∀ e s', O.next s (.query (.ticket id)) (.error e) s' → E e σ s') ∧
        (∀ s', O.next s (.query (.ticket id)) (.ok none) s' → Q none σ s') ∧
        ∀ t s', O.next s (.query (.ticket id)) (.ok (some t)) s' →
          Q (some t) { σ with tickets := σ.tickets ++ [⟨t, t⟩] } s') := by
  unfold getTicketRow
  cases h : σ.ticket? id with
  | some o => simp [h]
  | none =>
    simp only [M.triple_bind, M.triple_session, h, triple_query, reduceCtorEq, false_imp_iff,
      implies_true, true_and, forall_const]
    refine and_congr_right' (and_congr_right' ⟨fun hx => ⟨hx none, fun t => hx (some t)⟩, ?_⟩)
    rintro ⟨hn, ht⟩ (_ | t)
    · exact hn
    · exact ht t

@[simp] theorem triple_getAgentRun (id : Uuid) {Q : Option AgentRun → Session S → St → Prop} :
    (getAgentRun id).Triple O Q E σ s ↔
      (∀ o, σ.agentRun? id = some o → Q (some o.cur) σ s) ∧
      (σ.agentRun? id = none → O.ok s (.query (.agentRun id)) ∧
        (∀ e s', O.next s (.query (.agentRun id)) (.error e) s' → E e σ s') ∧
        (∀ s', O.next s (.query (.agentRun id)) (.ok none) s' → Q none σ s') ∧
        ∀ r s', O.next s (.query (.agentRun id)) (.ok (some r)) s' →
          Q (some r) { σ with agentRuns := σ.agentRuns ++ [⟨r, r⟩] } s') := by
  unfold getAgentRun
  cases h : σ.agentRun? id with
  | some o => simp [h]
  | none =>
    simp only [M.triple_bind, M.triple_session, h, triple_query, reduceCtorEq, false_imp_iff,
      implies_true, true_and, forall_const]
    refine and_congr_right' (and_congr_right' ⟨fun hx => ⟨hx none, fun r => hx (some r)⟩, ?_⟩)
    rintro ⟨hn, ht⟩ (_ | r)
    · exact hn
    · exact ht r

@[simp] theorem triple_getDelivery (id : Uuid)
    {Q : Option WebhookDelivery → Session S → St → Prop} :
    (getDelivery id).Triple O Q E σ s ↔
      (∀ o, σ.delivery? id = some o → Q (some o.cur) σ s) ∧
      (σ.delivery? id = none → O.ok s (.query (.delivery id)) ∧
        (∀ e s', O.next s (.query (.delivery id)) (.error e) s' → E e σ s') ∧
        (∀ s', O.next s (.query (.delivery id)) (.ok none) s' → Q none σ s') ∧
        ∀ d s', O.next s (.query (.delivery id)) (.ok (some d)) s' →
          Q (some d) { σ with deliveries := σ.deliveries ++ [⟨d, d⟩] } s') := by
  unfold getDelivery
  cases h : σ.delivery? id with
  | some o => simp [h]
  | none =>
    simp only [M.triple_bind, M.triple_session, h, triple_query, reduceCtorEq, false_imp_iff,
      implies_true, true_and, forall_const]
    refine and_congr_right' (and_congr_right' ⟨fun hx => ⟨hx none, fun d => hx (some d)⟩, ?_⟩)
    rintro ⟨hn, ht⟩ (_ | d)
    · exact hn
    · exact ht d

@[simp] theorem triple_identify (w : Webhook) {Q : Webhook → Session S → St → Prop} :
    (identify w).Triple O Q E σ s ↔
      (∀ o, σ.webhook? w.id = some o → Q o.cur σ s) ∧
      (σ.webhook? w.id = none → Q w { σ with webhooks := σ.webhooks ++ [⟨w, w⟩] } s) := by
  unfold identify
  cases h : σ.webhook? w.id <;> simp [h]

@[simp] theorem triple_getWebhook (id : Uuid) {Q : Option Webhook → Session S → St → Prop} :
    (getWebhook id).Triple O Q E σ s ↔
      (∀ o, σ.webhook? id = some o → Q (some o.cur) σ s) ∧
      (σ.webhook? id = none → O.ok s (.query (.webhook id)) ∧
        (∀ e s', O.next s (.query (.webhook id)) (.error e) s' → E e σ s') ∧
        (∀ s', O.next s (.query (.webhook id)) (.ok none) s' → Q none σ s') ∧
        ∀ w s', O.next s (.query (.webhook id)) (.ok (some w)) s' →
          (identify w).Triple O (fun w => Q (some w)) E σ s') := by
  unfold getWebhook
  cases h : σ.webhook? id with
  | some o => simp [h]
  | none =>
    simp only [M.triple_bind, M.triple_session, h, triple_query, reduceCtorEq, false_imp_iff,
      implies_true, true_and, forall_const]
    refine and_congr_right' (and_congr_right' ⟨fun hx => ⟨hx none, fun w => ?_⟩, ?_⟩)
    · intro s' hn
      exact (M.triple_map _ _).mp (hx (some w) s' hn)
    · rintro ⟨hn, ht⟩ (_ | w)
      · exact hn
      · exact fun s' hs => (M.triple_map _ _).mpr (ht w s' hs)

@[simp] theorem triple_getConfig (organizationId : Uuid)
    {Q : Option Webhook → Session S → St → Prop} :
    (WebhookService.getConfig organizationId).Triple O Q E σ s ↔
      O.ok s (.query (.webhookOf organizationId)) ∧
      (∀ e s', O.next s (.query (.webhookOf organizationId)) (.error e) s' → E e σ s') ∧
      (∀ s', O.next s (.query (.webhookOf organizationId)) (.ok none) s' → Q none σ s') ∧
      ∀ w s', O.next s (.query (.webhookOf organizationId)) (.ok (some w)) s' →
        (identify w).Triple O (fun w => Q (some w)) E σ s' := by
  unfold WebhookService.getConfig
  simp only [M.triple_bind, triple_query]
  refine and_congr_right' (and_congr_right' ⟨fun hx => ⟨hx none, fun w => ?_⟩, ?_⟩)
  · intro s' hn
    exact (M.triple_map _ _).mp (hx (some w) s' hn)
  · rintro ⟨hn, ht⟩ (_ | w)
    · exact hn
    · exact fun s' hs => (M.triple_map _ _).mpr (ht w s' hs)

@[simp] theorem triple_ticketAttrs (id : Uuid) {Q : Ticket → Session S → St → Prop} :
    (ticketAttrs id).Triple O Q E σ s ↔
      (∀ o, σ.ticket? id = some o → Q o.cur σ s) ∧ (σ.ticket? id = none → E detached σ s) := by
  unfold ticketAttrs
  cases h : σ.ticket? id <;> simp [h]

@[simp] theorem triple_agentRunAttrs (id : Uuid) {Q : AgentRun → Session S → St → Prop} :
    (agentRunAttrs id).Triple O Q E σ s ↔
      (∀ o, σ.agentRun? id = some o → Q o.cur σ s) ∧
      (σ.agentRun? id = none → E detached σ s) := by
  unfold agentRunAttrs
  cases h : σ.agentRun? id <;> simp [h]

@[simp] theorem triple_deliveryAttrs (id : Uuid) {Q : WebhookDelivery → Session S → St → Prop} :
    (deliveryAttrs id).Triple O Q E σ s ↔
      (∀ o, σ.delivery? id = some o → Q o.cur σ s) ∧
      (σ.delivery? id = none → E detached σ s) := by
  unfold deliveryAttrs
  cases h : σ.delivery? id <;> simp [h]

@[simp] theorem triple_setTicket (id : Uuid) (p : TicketPatch)
    {Q : Unit → Session S → St → Prop} :
    (setTicket id p).Triple O Q E σ s ↔
      Q () (σ.putTicket id fun o => { o with cur := p.apply o.cur }) s := Iff.rfl

@[simp] theorem triple_setAgentRun (id : Uuid) (p : AgentRunPatch)
    {Q : Unit → Session S → St → Prop} :
    (setAgentRun id p).Triple O Q E σ s ↔
      Q () (σ.putAgentRun id fun o => { o with cur := p.apply o.cur }) s := Iff.rfl

@[simp] theorem triple_setWebhook (id : Uuid) (p : WebhookPatch)
    {Q : Unit → Session S → St → Prop} :
    (setWebhook id p).Triple O Q E σ s ↔
      Q () (σ.putWebhook id fun o => { o with cur := p.apply o.cur }) s := Iff.rfl

@[simp] theorem triple_setDelivery (id : Uuid) (p : DeliveryPatch)
    {Q : Unit → Session S → St → Prop} :
    (setDelivery id p).Triple O Q E σ s ↔
      Q () (σ.putDelivery id fun o => { o with cur := p.apply o.cur }) s := Iff.rfl

@[simp] theorem triple_refreshTicket (id : Uuid) {Q : Ticket → Session S → St → Prop} :
    (refreshTicket id).Triple O Q E σ s ↔ O.ok s (.query (.ticket id)) ∧
      (∀ e s', O.next s (.query (.ticket id)) (.error e) s' → E e σ s') ∧
      (∀ s', O.next s (.query (.ticket id)) (.ok none) s' → E notPresent σ s') ∧
      ∀ t s', O.next s (.query (.ticket id)) (.ok (some t)) s' →
        Q t (σ.putTicket id fun _ => ⟨t, t⟩) s' := by
  unfold refreshTicket
  simp only [M.triple_bind, triple_query]
  refine and_congr_right' (and_congr_right' ⟨fun hx => ⟨hx none, fun t => hx (some t)⟩, ?_⟩)
  rintro ⟨hn, ht⟩ (_ | t)
  · exact hn
  · exact ht t

@[simp] theorem triple_refreshAgentRun (id : Uuid) {Q : AgentRun → Session S → St → Prop} :
    (refreshAgentRun id).Triple O Q E σ s ↔ O.ok s (.query (.agentRun id)) ∧
      (∀ e s', O.next s (.query (.agentRun id)) (.error e) s' → E e σ s') ∧
      (∀ s', O.next s (.query (.agentRun id)) (.ok none) s' → E notPresent σ s') ∧
      ∀ r s', O.next s (.query (.agentRun id)) (.ok (some r)) s' →
        Q r (σ.putAgentRun id fun _ => ⟨r, r⟩) s' := by
  unfold refreshAgentRun
  simp only [M.triple_bind, triple_query]
  refine and_congr_right' (and_congr_right' ⟨fun hx => ⟨hx none, fun r => hx (some r)⟩, ?_⟩)
  rintro ⟨hn, ht⟩ (_ | r)
  · exact hn
  · exact ht r

@[simp] theorem triple_refreshWebhook (id : Uuid) {Q : Webhook → Session S → St → Prop} :
    (refreshWebhook id).Triple O Q E σ s ↔ O.ok s (.query (.webhook id)) ∧
      (∀ e s', O.next s (.query (.webhook id)) (.error e) s' → E e σ s') ∧
      (∀ s', O.next s (.query (.webhook id)) (.ok none) s' → E notPresent σ s') ∧
      ∀ w s', O.next s (.query (.webhook id)) (.ok (some w)) s' →
        Q w (σ.putWebhook id fun _ => ⟨w, w⟩) s' := by
  unfold refreshWebhook
  simp only [M.triple_bind, triple_query]
  refine and_congr_right' (and_congr_right' ⟨fun hx => ⟨hx none, fun w => hx (some w)⟩, ?_⟩)
  rintro ⟨hn, ht⟩ (_ | w)
  · exact hn
  · exact ht w

@[simp] theorem triple_refreshDelivery (id : Uuid)
    {Q : WebhookDelivery → Session S → St → Prop} :
    (refreshDelivery id).Triple O Q E σ s ↔ O.ok s (.query (.delivery id)) ∧
      (∀ e s', O.next s (.query (.delivery id)) (.error e) s' → E e σ s') ∧
      (∀ s', O.next s (.query (.delivery id)) (.ok none) s' → E notPresent σ s') ∧
      ∀ d s', O.next s (.query (.delivery id)) (.ok (some d)) s' →
        Q d (σ.putDelivery id fun _ => ⟨d, d⟩) s' := by
  unfold refreshDelivery
  simp only [M.triple_bind, triple_query]
  refine and_congr_right' (and_congr_right' ⟨fun hx => ⟨hx none, fun d => hx (some d)⟩, ?_⟩)
  rintro ⟨hn, ht⟩ (_ | d)
  · exact hn
  · exact ht d

@[simp] theorem triple_refreshUser (id : Uuid) {Q : User → Session S → St → Prop} :
    (refreshUser id).Triple O Q E σ s ↔ O.ok s (.query (.user id)) ∧
      (∀ e s', O.next s (.query (.user id)) (.error e) s' → E e σ s') ∧
      (∀ s', O.next s (.query (.user id)) (.ok none) s' → E notPresent σ s') ∧
      ∀ u s', O.next s (.query (.user id)) (.ok (some u)) s' → Q u σ s' := by
  unfold refreshUser
  simp only [M.triple_bind, triple_query]
  refine and_congr_right' (and_congr_right' ⟨fun hx => ⟨hx none, fun u => hx (some u)⟩, ?_⟩)
  rintro ⟨hn, ht⟩ (_ | u)
  · exact hn
  · exact ht u

@[simp] theorem triple_refreshDocument (id : Uuid) {Q : Document → Session S → St → Prop} :
    (refreshDocument id).Triple O Q E σ s ↔ O.ok s (.query (.document id)) ∧
      (∀ e s', O.next s (.query (.document id)) (.error e) s' → E e σ s') ∧
      (∀ s', O.next s (.query (.document id)) (.ok none) s' → E notPresent σ s') ∧
      ∀ d s', O.next s (.query (.document id)) (.ok (some d)) s' → Q d σ s' := by
  unfold refreshDocument
  simp only [M.triple_bind, triple_query]
  refine and_congr_right' (and_congr_right' ⟨fun hx => ⟨hx none, fun d => hx (some d)⟩, ?_⟩)
  rintro ⟨hn, ht⟩ (_ | d)
  · exact hn
  · exact ht d

end Calls

theorem suggestedPriority_triple {O : Observer (Op S) Res St} {s : St}
    {Q : Option TicketPriority → Session S → St → Prop} {E : Err → Session S → St → Prop}
    {σ : Session S} (state : AgentState) (hq : ∀ sp, Q sp σ s) (he : ∀ e, E e σ s) :
    (AgentRunService.suggestedPriority state).Triple O Q E σ s := by
  unfold AgentRunService.suggestedPriority
  split
  · exact hq none
  · exact hq none
  · split
    · exact hq _
    · exact he _

/-! The unit of work, computed -/

@[simp] theorem dirtyTicket_clean (t : Ticket) : @dirtyTicket S ⟨t, t⟩ = none := by
  simp [dirtyTicket, Ticket.diff]

@[simp] theorem dirtyAgentRun_clean (r : AgentRun) : @dirtyAgentRun S ⟨r, r⟩ = none := by
  simp [dirtyAgentRun, AgentRun.diff]

@[simp] theorem dirtyWebhook_clean (w : Webhook) : @dirtyWebhook S ⟨w, w⟩ = none := by
  simp [dirtyWebhook, Webhook.diff]

@[simp] theorem dirtyDelivery_clean (d : WebhookDelivery) :
    @dirtyDelivery S ⟨d, d⟩ = none := by
  simp [dirtyDelivery, WebhookDelivery.diff]

theorem dirtyTicket_cases (l t : Ticket) :
    @dirtyTicket S ⟨l, t⟩ = none ∨ @dirtyTicket S ⟨l, t⟩ = some (.updateTicket l.id (l.diff t)) := by
  simp only [dirtyTicket]
  split
  · exact Or.inl rfl
  · exact Or.inr rfl

theorem dirtyAgentRun_cases (l r : AgentRun) :
    @dirtyAgentRun S ⟨l, r⟩ = none ∨
      @dirtyAgentRun S ⟨l, r⟩ = some (.updateAgentRun l.id (l.diff r)) := by
  simp only [dirtyAgentRun]
  split
  · exact Or.inl rfl
  · exact Or.inr rfl

theorem dirtyWebhook_cases (l w : Webhook) :
    @dirtyWebhook S ⟨l, w⟩ = none ∨
      @dirtyWebhook S ⟨l, w⟩ = some (.updateWebhook l.id (l.diff w)) := by
  simp only [dirtyWebhook]
  split
  · exact Or.inl rfl
  · exact Or.inr rfl

theorem dirtyTicket_of_status {l t : Ticket} (h : l.status ≠ t.status) :
    @dirtyTicket S ⟨l, t⟩ = some (.updateTicket l.id (l.diff t)) := by
  have hne : l.diff t ≠ {} := by
    intro heq
    have := congrArg TicketPatch.status heq
    simp [Ticket.diff, changed, h] at this
  simp [dirtyTicket, hne]

theorem dirtyAgentRun_of_status {l r : AgentRun} (h : l.status ≠ r.status) :
    @dirtyAgentRun S ⟨l, r⟩ = some (.updateAgentRun l.id (l.diff r)) := by
  have hne : l.diff r ≠ {} := by
    intro heq
    have := congrArg AgentRunPatch.status heq
    simp [AgentRun.diff, changed, h] at this
  simp [dirtyAgentRun, hne]

@[simp] theorem filterMap_single {ρ τ : Type} (f : ρ → Option τ) (x : ρ) :
    [x].filterMap f = (f x).toList := by
  cases h : f x <;> simp [h]

@[simp] theorem pending_mk (c n : Nat) (ts : List (Tracked Ticket)) (rs : List (Tracked AgentRun))
    (ws : List (Tracked Webhook)) (ds : List (Tracked WebhookDelivery)) (new : List (Row S)) :
    (Session.mk c n ts rs ws ds new).pending =
      ts.filterMap dirtyTicket ++ (rs.filterMap dirtyAgentRun ++ (ws.filterMap dirtyWebhook ++
        (ds.filterMap dirtyDelivery ++ new.map .insert))) := by
  simp [Session.pending]

@[simp] theorem flushed_mk (c n : Nat) (ts : List (Tracked Ticket)) (rs : List (Tracked AgentRun))
    (ws : List (Tracked Webhook)) (ds : List (Tracked WebhookDelivery)) (new : List (Row S)) :
    (Session.mk c n ts rs ws ds new).flushed =
      new.foldl Session.adopt
        ⟨c, n, ts.map Tracked.flushed, rs.map Tracked.flushed, ws.map Tracked.flushed,
          ds.map Tracked.flushed, []⟩ := rfl

@[simp] theorem dirtyTicket_flushed (ts : List (Tracked Ticket)) :
    ts.filterMap (@dirtyTicket S ∘ Tracked.flushed) = [] := by
  simp [Tracked.flushed]

@[simp] theorem dirtyWebhook_flushed (ws : List (Tracked Webhook)) :
    ws.filterMap (@dirtyWebhook S ∘ Tracked.flushed) = [] := by
  simp [Tracked.flushed]

@[simp] theorem dirtyAgentRun_flushed (rs : List (Tracked AgentRun)) :
    rs.filterMap (@dirtyAgentRun S ∘ Tracked.flushed) = [] := by
  simp [Tracked.flushed]

attribute [simp] Session.adopt Tracked.flushed Session.ticket? Session.agentRun? Session.webhook?
  Session.delivery? Session.expired

section

variable {c n : Nat} {ts : List (Tracked Ticket)} {rs : List (Tracked AgentRun)}
  {ws : List (Tracked Webhook)} {ds : List (Tracked WebhookDelivery)} {new : List (Row S)} {id : Uuid}

@[simp] theorem putTicket_single {o : Tracked Ticket} {f : Tracked Ticket → Tracked Ticket}
    (h : o.loaded.id = id) :
    (Session.mk c n [o] rs ws ds new).putTicket id f = ⟨c, n, [f o], rs, ws, ds, new⟩ := by
  simp [Session.putTicket, h]

/-- The object is the last one and the only one under its key. -/
theorem putTicket_last {pre : List (Tracked Ticket)} {o : Tracked Ticket}
    {f : Tracked Ticket → Tracked Ticket} (hpre : ∀ o ∈ pre, o.loaded.id ≠ id)
    (h : o.loaded.id = id) :
    (Session.mk c n (pre ++ [o]) rs ws ds new).putTicket id f =
      ⟨c, n, pre ++ [f o], rs, ws, ds, new⟩ := by
  have hmap : pre.map (fun o => if o.loaded.id = id then f o else o) = pre := by
    conv_rhs => rw [← List.map_id pre]
    refine List.map_congr_left fun x hx => ?_
    simp [hpre x hx]
  simp [Session.putTicket, h, hmap]

theorem find_last {pre : List (Tracked Ticket)} {o : Tracked Ticket}
    (hpre : ∀ o ∈ pre, o.loaded.id ≠ id) (h : o.loaded.id = id) :
    (pre ++ [o]).find? (fun o => o.loaded.id == id) = some o := by
  have hnone : pre.find? (fun o => o.loaded.id == id) = none := by
    simpa [List.find?_eq_none] using hpre
  simp [List.find?_append, hnone, h]

@[simp] theorem putAgentRun_single {o : Tracked AgentRun} {f : Tracked AgentRun → Tracked AgentRun}
    (h : o.loaded.id = id) :
    (Session.mk c n ts [o] ws ds new).putAgentRun id f = ⟨c, n, ts, [f o], ws, ds, new⟩ := by
  simp [Session.putAgentRun, h]

@[simp] theorem putWebhook_single {o : Tracked Webhook} {f : Tracked Webhook → Tracked Webhook}
    (h : o.loaded.id = id) :
    (Session.mk c n ts rs [o] ds new).putWebhook id f = ⟨c, n, ts, rs, [f o], ds, new⟩ := by
  simp [Session.putWebhook, h]

@[simp] theorem putDelivery_single {o : Tracked WebhookDelivery}
    {f : Tracked WebhookDelivery → Tracked WebhookDelivery} (h : o.loaded.id = id) :
    (Session.mk c n ts rs ws [o] new).putDelivery id f = ⟨c, n, ts, rs, ws, [f o], new⟩ := by
  simp [Session.putDelivery, h]

end

/-! The columns of a patched row -/

section

variable (p : TicketPatch) (t : Ticket)

@[simp] theorem TicketPatch.apply_id : (p.apply t).id = t.id := by rfl
@[simp] theorem TicketPatch.apply_organizationId :
    (p.apply t).organizationId = t.organizationId := by rfl
@[simp] theorem TicketPatch.apply_status : (p.apply t).status = p.status.getD t.status := by rfl
@[simp] theorem TicketPatch.apply_draftResponse :
    (p.apply t).draftResponse = p.draftResponse.getD t.draftResponse := by rfl
@[simp] theorem TicketPatch.apply_finalResponse :
    (p.apply t).finalResponse = p.finalResponse.getD t.finalResponse := by rfl

end

section

variable (p : AgentRunPatch) (r : AgentRun)

@[simp] theorem AgentRunPatch.apply_id : (p.apply r).id = r.id := by rfl
@[simp] theorem AgentRunPatch.apply_ticketId : (p.apply r).ticketId = r.ticketId := by rfl
@[simp] theorem AgentRunPatch.apply_organizationId :
    (p.apply r).organizationId = r.organizationId := by rfl
@[simp] theorem AgentRunPatch.apply_status : (p.apply r).status = p.status.getD r.status := by rfl
@[simp] theorem AgentRunPatch.apply_draft : (p.apply r).draft = p.draft.getD r.draft := by rfl
@[simp] theorem AgentRunPatch.apply_outcome : (p.apply r).outcome = p.outcome.getD r.outcome := by rfl
@[simp] theorem AgentRunPatch.apply_confidence :
    (p.apply r).confidence = p.confidence.getD r.confidence := by rfl

end

section

variable (p : DeliveryPatch) (d : WebhookDelivery)

@[simp] theorem DeliveryPatch.apply_id : (p.apply d).id = d.id := by rfl
@[simp] theorem DeliveryPatch.apply_webhookId : (p.apply d).webhookId = d.webhookId := by rfl
@[simp] theorem DeliveryPatch.apply_organizationId :
    (p.apply d).organizationId = d.organizationId := by rfl
@[simp] theorem DeliveryPatch.apply_event : (p.apply d).event = d.event := by rfl
@[simp] theorem DeliveryPatch.apply_status : (p.apply d).status = p.status.getD d.status := by rfl
@[simp] theorem DeliveryPatch.apply_attempts :
    (p.apply d).attempts = p.attempts.getD d.attempts := by rfl
@[simp] theorem DeliveryPatch.apply_payload :
    (p.apply d).payload = p.payload.getD d.payload := by rfl
@[simp] theorem DeliveryPatch.apply_lastStatusCode :
    (p.apply d).lastStatusCode = p.lastStatusCode.getD d.lastStatusCode := by rfl

end

@[simp] theorem WebhookPatch.apply_id (p : WebhookPatch) (w : Webhook) :
    (p.apply w).id = w.id := by rfl

theorem dirtyTicket_of_transition {l t : Ticket} (h : canTransition l.status t.status = true) :
    @dirtyTicket S ⟨l, t⟩ = some (.updateTicket l.id (l.diff t)) :=
  dirtyTicket_of_status (canTransition_ne h)

theorem dirtyDelivery_of_payload {l d : WebhookDelivery} (h : l.payload ≠ d.payload) :
    @dirtyDelivery S ⟨l, d⟩ = some (.updateDelivery l.id (l.diff d)) := by
  have hne : l.diff d ≠ {} := by
    intro heq
    have := congrArg DeliveryPatch.payload heq
    simp [WebhookDelivery.diff, changed, h] at this
  simp [dirtyDelivery, hne]

@[simp] theorem empty_ne_payload (P : Platform) (t : Ticket) (event : String) (id : Uuid)
    (now : Time) : Json.obj [] ≠ WebhookService.buildTicketPayload P t event id now := by
  simp [WebhookService.buildTicketPayload]

theorem dirtyDelivery_of_attempts {l d : WebhookDelivery} (h : d.attempts = l.attempts + 1) :
    @dirtyDelivery S ⟨l, d⟩ = some (.updateDelivery l.id (l.diff d)) := by
  have hne : l.diff d ≠ {} := by
    intro heq
    have := congrArg DeliveryPatch.attempts heq
    simp [WebhookDelivery.diff, changed, h] at this
  simp [dirtyDelivery, hne]

end AgentDesk
