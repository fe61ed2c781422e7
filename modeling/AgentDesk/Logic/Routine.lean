import AgentDesk.Logic.Commits
import AgentDesk.Logic.Tally

namespace AgentDesk

variable {S α β : Type} {cfg : Config S} {D : List (Made S) → Prop}
  {I : Session S → List (Made S) → Prop} {σ : Session S} {cs : List (Made S)}

/-! Coroutines that keep an invariant of their session -/

/-- The coroutine keeps the invariant of the session and its calls, and meets the demand on its
commits. -/
def M.Keeps (D : List (Made S) → Prop) (I : Session S → List (Made S) → Prop) (p : M S α) : Prop :=
  ∀ (σ : Session S) cs, I σ cs → p.Triple (atCommit D) (fun _ => I) (fun _ _ _ => True) σ cs

namespace M.Keeps

theorem pure (a : α) : (Pure.pure a : M S α).Keeps D I := fun _ _ h => h

theorem raise (e : Err) : (M.raise e : M S α).Keeps D I := fun _ _ _ => trivial

theorem bind {p : M S β} {f : β → M S α} (hp : p.Keeps D I) (hf : ∀ b, (f b).Keeps D I) :
    (p >>= f).Keeps D I := by
  intro σ cs h
  rw [M.triple_bind]
  exact M.triple_mono (hp σ cs h) (fun b σ' cs' h' => hf b σ' cs' h') (fun _ _ _ h => h)

theorem map {p : M S β} {f : β → α} (hp : p.Keeps D I) : (f <$> p).Keeps D I :=
  bind hp fun b => pure (f b)

theorem ite {c : Prop} [Decidable c] {p q : M S α} (hp : p.Keeps D I) (hq : q.Keeps D I) :
    (if c then p else q).Keeps D I := by
  split
  · exact hp
  · exact hq

/-- An exception that is handled wherever it comes from. -/
theorem except {p : M S α} {h : Err → M S α} (hp : p.Keeps D I)
    (hh : ∀ e (σ : Session S) cs, (h e).Triple (atCommit D) (fun _ => I) (fun _ _ _ => True) σ cs) :
    (M.except p h).Keeps D I := by
  intro σ cs hI
  rw [M.triple_except]
  exact M.triple_mono (hp σ cs hI) (fun _ _ _ h => h) (fun e σ' cs' _ => hh e σ' cs')

theorem catching {p : M S α} {status : Err → Option (Nat × String)} (hp : p.Keeps D I) :
    (Api.catching p status).Keeps D I := by
  refine hp.except fun e σ cs => ?_
  cases status e <;> trivial

end M.Keeps

/-- The coroutine meets the demand whenever it commits. -/
def M.Complies (D : List (Made S) → Prop) (p : M S α) (σ : Session S) (cs : List (Made S)) : Prop :=
  p.Triple (atCommit D) (fun _ _ _ => True) (fun _ _ _ => True) σ cs

theorem M.complies_of_triple {p : M S α} {Q : α → Session S → List (Made S) → Prop}
    {E : Err → Session S → List (Made S) → Prop} (h : p.Triple (atCommit D) Q E σ cs) :
    p.Complies D σ cs :=
  M.triple_mono h (fun _ _ _ _ => trivial) (fun _ _ _ _ => trivial)

theorem M.Keeps.complies {p : M S α} (hp : p.Keeps D I) (h : I σ cs) : p.Complies D σ cs :=
  M.complies_of_triple (hp σ cs h)

namespace M.Complies

variable {p : M S α}

theorem bind_pure {f : α → β} (h : p.Complies D σ cs) :
    (do let a ← p; Pure.pure (f a) : M S β).Complies D σ cs := by
  unfold M.Complies
  rw [M.triple_bind]
  exact h

theorem catching {status : Err → Option (Nat × String)} (h : p.Complies D σ cs) :
    (Api.catching p status).Complies D σ cs := by
  unfold M.Complies Api.catching
  rw [M.triple_except]
  refine M.triple_mono h (fun _ _ _ h => h) (fun e _ _ _ => ?_)
  cases status e <;> trivial

theorem sessionScope (h : p.Complies D σ cs) : (AgentDesk.sessionScope p).Complies D σ cs := by
  unfold M.Complies M.Triple AgentDesk.sessionScope
  rw [Framework.Program.obeys_bind]
  refine Framework.Program.obeys_mono h ?_
  rintro ⟨_ | a, σ'⟩ cs' - <;> exact ⟨trivial, fun _ _ _ => trivial⟩

theorem getDb (h : p.Complies D σ cs) : (AgentDesk.getDb p).Complies D σ cs := by
  refine sessionScope ?_
  unfold M.Complies
  rw [M.triple_except]
  refine M.triple_mono h (fun _ _ _ h => h) (fun e _ _ _ => ?_)
  simp

end M.Complies

/-! Calls that leave the books of a session alone -/

/-- These calls and then some that neither write nor end a transaction, and are no POST. -/
inductive Reading (cs : List (Made S)) : List (Made S) → Prop
  | refl : Reading cs cs
  | snoc {cs' : List (Made S)} {x : Made S} (h : Reading cs cs')
      (hx : (Book.ofCalls cs').note x = Book.ofCalls cs') (hpost : x.1.isPost = false)
      (hback : x.1.rollsBack = false) : Reading cs (cs' ++ [x])

section

variable {cs' : List (Made S)}

@[simp] theorem reading_refl : Reading cs cs := .refl

@[simp] theorem reading_query (h : Reading cs cs') (q : Query S) (r : q.Result) :
    Reading cs (cs' ++ [⟨.query q, no_index (.ok r)⟩]) := h.snoc rfl rfl rfl

@[simp] theorem reading_clock (h : Reading cs cs') (now : Time) :
    Reading cs (cs' ++ [⟨.clock, now⟩]) := h.snoc rfl rfl rfl

@[simp] theorem reading_salt (h : Reading cs cs') (n : Nat) :
    Reading cs (cs' ++ [⟨.salt, n⟩]) := h.snoc rfl rfl rfl

@[simp] theorem reading_embed (h : Reading cs cs') (texts : List String)
    (r : Except Err (List (List S))) : Reading cs (cs' ++ [⟨.embed texts, r⟩]) := h.snoc rfl rfl rfl

@[simp] theorem reading_chat (h : Reading cs cs') (request : ChatRequest) (r : Except Err LLMResult) :
    Reading cs (cs' ++ [⟨.chat request, r⟩]) := h.snoc rfl rfl rfl

@[simp] theorem reading_aclose (h : Reading cs cs') (r : Except Err Unit) :
    Reading cs (cs' ++ [⟨.aclose, r⟩]) := h.snoc rfl rfl rfl

@[simp] theorem reading_enqueue (h : Reading cs cs') (task : Task) (r : Except Err Unit) :
    Reading cs (cs' ++ [⟨.enqueue task, r⟩]) := h.snoc rfl rfl rfl

theorem Reading.books (h : Reading cs cs') : Book.ofCalls cs' = Book.ofCalls cs := by
  induction h with
  | refl => rfl
  | snoc _ hx _ _ ih => rw [Book.ofCalls_snoc, hx, ih]

end

/-- The audit events that record facts about tickets. -/
def AuditEvent.isFact : AuditEvent → Bool
  | .ticketCreated | .agentRunStarted | .retrievalCompleted | .draftGenerated | .responseApproved
  | .responseRejected | .ticketEscalated => true
  | _ => false

/-- The row is neither of a ticket's history nor a run or a delivery, nor a fact in the audit log. -/
def Row.isPlain : Row S → Bool
  | .ticketEvent _ | .agentRun _ | .delivery _ => false
  | .auditLog a => !a.event.isFact
  | _ => true

/-- An invariant that concerns the runs and deliveries that a session holds and its new rows, and
that the calls of the endpoints keep, whatever they read. -/
structure Routine (D : List (Made S) → Prop) (I : Session S → List (Made S) → Prop) : Prop where
  same : ∀ {σ σ' : Session S} {cs : List (Made S)}, I σ cs → σ'.agentRuns = σ.agentRuns →
    σ'.deliveries = σ.deliveries → σ'.new = σ.new → I σ' cs
  read : ∀ {σ : Session S} {cs cs' : List (Made S)}, I σ cs → Reading cs cs' → I σ cs'
  plain : ∀ {σ : Session S} {cs : List (Made S)} {row : Row S}, I σ cs → row.isPlain = true →
    I { σ with new := σ.new ++ [row] } cs
  write : ∀ {σ : Session S} {cs : List (Made S)}, I σ cs →
    I σ.flushed (cs ++ [⟨.write σ.pending, .ok ()⟩])
  send : ∀ {σ : Session S} {cs : List (Made S)}, I σ cs → σ.new = [] →
    D cs ∧ I σ (cs ++ [⟨.commit, .ok ()⟩])

/-- An invariant that does not concern deliveries. -/
structure Aloof (I : Session S → List (Made S) → Prop) : Prop where
  deliveries : ∀ {σ : Session S} {cs : List (Made S)} (ds : List (Tracked WebhookDelivery)),
    I σ cs → I { σ with deliveries := ds } cs
  delivery : ∀ {σ : Session S} {cs : List (Made S)} (d : WebhookDelivery), I σ cs →
    I { σ with new := σ.new ++ [.delivery d] } cs
  post : ∀ {σ : Session S} {cs : List (Made S)} (url : String) (body : List Char)
    (headers : List (String × String)) (r : Except Err Nat), I σ cs →
      I σ (cs ++ [⟨.post url body headers, r⟩])

theorem flushed_new (σ : Session S) : σ.flushed.new = [] := by
  have hadopt : ∀ (rows : List (Row S)) (σ : Session S), (rows.foldl Session.adopt σ).new = σ.new := by
    intro rows
    induction rows with
    | nil => exact fun _ => rfl
    | cons row rows ih =>
      intro σ
      rw [List.foldl_cons, ih]
      cases row <;> rfl
  rw [Session.flushed, hadopt]

namespace Routine

variable (h : Routine D I)
include h

/-- A coroutine that reads and assigns only. -/
theorem of_same {p : M S α} (hp : ∀ (σ : Session S) cs, p.Triple (atCommit D)
    (fun _ σ' cs' => σ'.agentRuns = σ.agentRuns ∧ σ'.deliveries = σ.deliveries ∧
      σ'.new = σ.new ∧ Reading cs cs') (fun _ _ _ => True) σ cs) : p.Keeps D I := by
  intro σ cs hI
  refine M.triple_mono (hp σ cs) ?_ (fun _ _ _ _ => trivial)
  intro _ σ' cs' hpost
  obtain ⟨hruns, hdeliveries, hnew, hreading⟩ := hpost
  exact h.same (h.read hI hreading) hruns hdeliveries hnew

theorem query (q : Query S) : (AgentDesk.query q).Keeps D I :=
  h.of_same fun σ cs => by simp

theorem clock : (AgentDesk.clock : M S Time).Keeps D I := h.of_same fun σ cs => by simp

theorem salt : (AgentDesk.salt : M S Nat).Keeps D I := h.of_same fun σ cs => by simp

theorem uuid4 : (AgentDesk.uuid4 : M S Uuid).Keeps D I := h.of_same fun σ cs => by simp

theorem enqueue (task : Task) : (AgentDesk.enqueue task : M S Unit).Keeps D I :=
  h.of_same fun σ cs => by simp

theorem aclose : (AgentDesk.aclose : M S Unit).Keeps D I := h.of_same fun σ cs => by simp

theorem getTicketRow (id : Uuid) : (AgentDesk.getTicketRow id : M S _).Keeps D I :=
  h.of_same fun σ cs => by simp

theorem getWebhook (id : Uuid) : (AgentDesk.getWebhook id : M S _).Keeps D I :=
  h.of_same fun σ cs => by simp

theorem identify (w : Webhook) : (AgentDesk.identify w : M S _).Keeps D I :=
  h.of_same fun σ cs => by simp

theorem ticketAttrs (id : Uuid) : (AgentDesk.ticketAttrs id : M S _).Keeps D I :=
  h.of_same fun σ cs => by simp

theorem agentRunAttrs (id : Uuid) : (AgentDesk.agentRunAttrs id : M S _).Keeps D I :=
  h.of_same fun σ cs => by simp

theorem deliveryAttrs (id : Uuid) : (AgentDesk.deliveryAttrs id : M S _).Keeps D I :=
  h.of_same fun σ cs => by simp

theorem setTicket (id : Uuid) (p : TicketPatch) : (AgentDesk.setTicket id p : M S Unit).Keeps D I :=
  fun _ _ hI => h.same hI rfl rfl rfl

theorem setWebhook (id : Uuid) (p : WebhookPatch) :
    (AgentDesk.setWebhook id p : M S Unit).Keeps D I := fun _ _ hI => h.same hI rfl rfl rfl

theorem refreshTicket (id : Uuid) : (AgentDesk.refreshTicket id : M S _).Keeps D I :=
  h.of_same fun σ cs => by simp [Session.putTicket]

theorem refreshWebhook (id : Uuid) : (AgentDesk.refreshWebhook id : M S _).Keeps D I :=
  h.of_same fun σ cs => by simp [Session.putWebhook]

theorem refreshUser (id : Uuid) : (AgentDesk.refreshUser id : M S _).Keeps D I :=
  h.of_same fun σ cs => by simp

theorem refreshDocument (id : Uuid) : (AgentDesk.refreshDocument id : M S _).Keeps D I :=
  h.of_same fun σ cs => by simp

theorem add {row : Row S} (hrow : row.isPlain = true) : (AgentDesk.add row).Keeps D I :=
  fun _ _ hI => h.plain hI hrow

theorem flush_new {σ : Session S} {cs : List (Made S)} (hI : I σ cs) :
    (AgentDesk.flush : M S Unit).Triple (atCommit D) (fun _ σ' cs' => I σ' cs' ∧ σ'.new = [])
      (fun _ _ _ => True) σ cs := by
  rw [triple_flush]
  cases hpending : σ.pending with
  | nil =>
    have hnew : σ.new = [] := List.map_eq_nil_iff.mp (List.append_eq_nil_iff.mp hpending).2
    rw [flushes_nil]
    exact ⟨hI, hnew⟩
  | cons x ws =>
    rw [← hpending, flushes_of_ne_nil (by rw [hpending]; exact List.cons_ne_nil x ws)]
    refine ⟨trivial, fun _ _ _ => trivial, ?_⟩
    rintro cs' ⟨-, rfl⟩
    exact ⟨h.write hI, flushed_new σ⟩

theorem flush : (AgentDesk.flush : M S Unit).Keeps D I := fun _ _ hI =>
  M.triple_mono (h.flush_new hI) (fun _ _ _ h => h.1) (fun _ _ _ h => h)

/-- After a commit the session has no statements pending. -/
theorem commit_closed {σ : Session S} {cs : List (Made S)} (hI : I σ cs) :
    (AgentDesk.commit : M S Unit).Triple (atCommit D)
      (fun _ σ' cs' => I σ' cs' ∧ (Book.ofCalls cs').pending = []) (fun _ _ _ => True) σ cs := by
  unfold AgentDesk.commit
  rw [M.triple_bind]
  refine M.triple_mono (h.flush_new hI) ?_ (fun _ _ _ h => h)
  intro _ σ' cs' hflushed
  obtain ⟨hD, hsent⟩ := h.send hflushed.1 hflushed.2
  rw [triple_sendCommit]
  refine ⟨hD, fun _ _ _ => trivial, ?_⟩
  rintro u cs'' ⟨-, rfl⟩
  refine ⟨hsent, ?_⟩
  rw [Book.ofCalls_snoc]
  rfl

theorem commit : (AgentDesk.commit : M S Unit).Keeps D I := fun _ _ hI =>
  M.triple_mono (h.commit_closed hI) (fun _ _ _ h => h.1) (fun _ _ _ h => h)

end Routine

/-! Webhooks -/

/-- An audit row that the invariant allows. -/
theorem record_keeps (h : Routine D I) (event : AuditEvent)
    (hadd : ∀ {σ : Session S} {cs : List (Made S)} (a : AuditLog), a.event = event → I σ cs →
      I { σ with new := σ.new ++ [.auditLog a] } cs)
    (organizationId actorUserId : Option Uuid) (targetType targetId : Option String)
    (metadata : Option Meta) :
    (record event organizationId actorUserId targetType targetId metadata false : M S _).Keeps D I := by
  refine h.uuid4.bind fun id => ?_
  have hrow : (add (.auditLog ⟨id, organizationId, actorUserId, event, targetType, targetId,
      metadata, 0⟩) : M S Unit).Keeps D I := fun _ _ hI => hadd _ rfl hI
  exact hrow.bind fun _ => h.flush.bind fun _ => M.Keeps.pure _

/-- A history event that the invariant allows. -/
theorem transition_keeps (h : Routine D I)
    (hadd : ∀ {σ : Session S} {cs : List (Made S)} (e : TicketEvent), I σ cs →
      I { σ with new := σ.new ++ [.ticketEvent e] } cs)
    (ticketId : Uuid) (toStatus : TicketStatus) (actorUserId : Option Uuid) (eventType : String)
    (message : Option String) :
    (TicketService.transition ticketId toStatus actorUserId eventType message true :
      M S _).Keeps D I := by
  have hevent : ∀ e : TicketEvent, (add (.ticketEvent e) : M S Unit).Keeps D I :=
    fun e _ _ hI => hadd e hI
  refine (h.ticketAttrs ticketId).bind fun t => M.Keeps.ite (M.Keeps.raise _) ?_
  refine (h.setTicket _ _).bind fun _ => h.uuid4.bind fun id => (hevent _).bind fun _ => ?_
  exact M.Keeps.ite (h.flush.bind fun _ => h.ticketAttrs _) (h.ticketAttrs _)

section

variable (h : Routine D I)
include h

theorem record_plain_keeps {event : AuditEvent} (hevent : event.isFact = false)
    (organizationId actorUserId : Option Uuid) (targetType targetId : Option String)
    (metadata : Option Meta) :
    (record event organizationId actorUserId targetType targetId metadata false : M S _).Keeps D I := by
  refine record_keeps h event (fun a ha hI => h.plain hI ?_) _ _ _ _ _
  simp [Row.isPlain, ha, hevent]

theorem record_commit_keeps {event : AuditEvent} (hevent : event.isFact = false)
    (organizationId actorUserId : Option Uuid) (targetType targetId : Option String)
    (metadata : Option Meta) :
    (record event organizationId actorUserId targetType targetId metadata true : M S _).Keeps D I := by
  refine h.uuid4.bind fun id => (h.add ?_).bind fun _ => h.flush.bind fun _ => ?_
  · simp [Row.isPlain, hevent]
  · exact h.commit.bind fun _ => M.Keeps.pure _

theorem getConfig_keeps (organizationId : Uuid) :
    (WebhookService.getConfig organizationId : M S _).Keeps D I := by
  refine (h.query _).bind fun w => ?_
  cases w with
  | none => exact M.Keeps.pure _
  | some w => exact (h.identify w).map

theorem upsertConfig_keeps (organizationId : Uuid) (url secret : String) (isActive : Bool) :
    (WebhookService.upsertConfig organizationId url secret isActive : M S _).Keeps D I := by
  refine (getConfig_keeps h organizationId).bind fun w => ?_
  cases w with
  | none =>
    refine h.uuid4.bind fun id => (h.add rfl).bind fun _ => ?_
    exact h.commit.bind fun _ => h.refreshWebhook id
  | some w =>
    exact (h.setWebhook _ _).bind fun _ => h.commit.bind fun _ => h.refreshWebhook _

end

/-! Deliveries -/

section

variable (h : Routine D I) (ha : Aloof I)
include h ha

theorem getDelivery_keeps (id : Uuid) : (getDelivery id : M S _).Keeps D I := by
  intro σ cs hI
  rw [triple_getDelivery]
  refine ⟨fun _ _ => hI, fun _ => ⟨trivial, fun _ _ _ => trivial, ?_, ?_⟩⟩
  · rintro cs' ⟨-, rfl⟩
    exact h.read hI (reading_query .refl _ _)
  · rintro d cs' ⟨-, rfl⟩
    exact ha.deliveries _ (h.read hI (reading_query .refl _ _))

omit h in
theorem setDelivery_keeps (id : Uuid) (p : DeliveryPatch) :
    (setDelivery id p : M S Unit).Keeps D I := fun _ _ hI => ha.deliveries _ hI

theorem refreshDelivery_keeps (id : Uuid) : (refreshDelivery id : M S _).Keeps D I := by
  intro σ cs hI
  rw [triple_refreshDelivery]
  refine ⟨trivial, fun _ _ _ => trivial, fun _ _ => trivial, ?_⟩
  rintro d cs' ⟨-, rfl⟩
  exact ha.deliveries _ (h.read hI (reading_query .refl _ _))

omit h in
theorem attempt_keeps (deliveryId : Uuid) (url : String) (body : List Char)
    (headers : List (String × String)) :
    (WebhookService.attempt deliveryId url body headers : M S _).Keeps D I := by
  intro σ cs hI
  simp [WebhookService.attempt, Session.putDelivery]
  exact ⟨fun e => ha.deliveries _ (ha.post url body headers (.error e) hI),
    fun status => ha.deliveries _ (ha.post url body headers (.ok status) hI)⟩

theorem settleAttempt_keeps (deliveryId : Uuid) (success : Bool) :
    (WebhookService.settleAttempt cfg deliveryId success).Keeps D I := by
  have hlast : (do commit; pure success : M S Bool).Keeps D I :=
    h.commit.bind fun _ => M.Keeps.pure _
  refine (h.deliveryAttrs _).bind fun delivery => M.Keeps.ite ?_ (M.Keeps.ite ?_ hlast)
  · refine (setDelivery_keeps ha _ _).bind fun _ => ?_
    exact (record_plain_keeps h rfl _ _ _ _ _).bind fun _ => hlast
  · exact (setDelivery_keeps ha _ _).bind fun _ => hlast

theorem performAttempt_keeps (d : WebhookDelivery) (w : Webhook) (ownsClient : Bool) :
    (WebhookService.performAttempt cfg d w ownsClient).Keeps D I := by
  refine h.clock.bind fun now => (setDelivery_keeps ha _ _).bind fun _ => ?_
  refine (attempt_keeps ha _ _ _ _).bind fun success => M.Keeps.ite ?_ ?_
  · exact h.aclose.bind fun _ => settleAttempt_keeps h ha _ _
  · exact settleAttempt_keeps h ha _ _

theorem deliverOnce_keeps (deliveryId : Uuid) (ownsClient : Bool) :
    (WebhookService.deliverOnce cfg deliveryId ownsClient).Keeps D I := by
  refine (getDelivery_keeps h ha deliveryId).bind fun d => ?_
  cases d with
  | none => exact M.Keeps.pure _
  | some d =>
    refine (h.getWebhook d.webhookId).bind fun w => ?_
    cases w with
    | none => exact M.Keeps.pure _
    | some w => exact performAttempt_keeps h ha d w ownsClient

theorem dispatch_keeps (d : WebhookDelivery) : (WebhookService.dispatch cfg d).Keeps D I := by
  refine M.Keeps.ite (M.Keeps.pure d) (M.Keeps.ite ?_ ?_)
  · exact (deliverOnce_keeps h ha d.id true).bind fun _ => h.deliveryAttrs d.id
  · exact (h.enqueue _).bind fun _ => M.Keeps.pure d

theorem enqueueForTicket_keeps (ticketId : Uuid) (event : String) :
    (WebhookService.enqueueForTicket cfg ticketId event).Keeps D I := by
  refine (h.ticketAttrs ticketId).bind fun t => (getConfig_keeps h _).bind fun w => ?_
  cases w with
  | none => exact M.Keeps.pure _
  | some w =>
    refine M.Keeps.ite (M.Keeps.pure _) (h.uuid4.bind fun id => ?_)
    have hrow : ∀ d : WebhookDelivery, (add (.delivery d) : M S Unit).Keeps D I :=
      fun d _ _ hI => ha.delivery d hI
    refine (hrow _).bind fun _ => h.flush.bind fun _ => h.clock.bind fun now => ?_
    refine (setDelivery_keeps ha _ _).bind fun _ => h.commit.bind fun _ => ?_
    exact (refreshDelivery_keeps h ha id).bind fun d => (dispatch_keeps h ha d).map

end

/-! Accounts and documents -/

section

variable (h : Routine D I)
include h

theorem tokenPair_keeps (user : User) : (AuthService.tokenPair cfg user).Keeps D I :=
  (h.clock.bind fun _ => M.Keeps.pure _).bind fun _ =>
    (h.clock.bind fun _ => M.Keeps.pure _).bind fun _ => M.Keeps.pure _

theorem hashPassword_keeps (password : String) :
    (hashPassword cfg.platform password : M S String).Keeps D I :=
  h.salt.bind fun _ => M.Keeps.pure _

theorem register_keeps (organizationName email password : String) :
    (AuthService.register cfg organizationName email password).Keeps D I := by
  refine (h.query _).bind fun o => ?_
  cases o with
  | some o => exact M.Keeps.raise _
  | none =>
    refine h.uuid4.bind fun _ => (h.add rfl).bind fun _ => h.flush.bind fun _ => ?_
    refine (hashPassword_keeps h password).bind fun _ => h.uuid4.bind fun id => ?_
    refine (h.add rfl).bind fun _ => h.commit.bind fun _ => ?_
    exact (h.refreshUser id).bind fun u => tokenPair_keeps h u

theorem createUser_keeps (organizationId : Uuid) (email password : String) (role : Role) :
    (UserService.createUser cfg organizationId email password role).Keeps D I := by
  refine (h.query _).bind fun u => ?_
  cases u with
  | some u => exact M.Keeps.raise _
  | none =>
    refine (hashPassword_keeps h password).bind fun _ => h.uuid4.bind fun id => ?_
    exact (h.add rfl).bind fun _ => h.commit.bind fun _ => h.refreshUser id

theorem subject_keeps (token : Token) (expected : TokenType) :
    (subject cfg token expected).Keeps D I := by
  refine M.Keeps.bind ?_ fun claims => ?_
  · cases token with
    | malformed m => exact M.Keeps.raise _
    | signed key claims =>
      refine M.Keeps.ite (M.Keeps.raise _) (h.clock.bind fun now => ?_)
      exact M.Keeps.ite (M.Keeps.raise _) (M.Keeps.ite (M.Keeps.raise _) (M.Keeps.pure _))
  · cases hsub : claims.sub with
    | none => exact M.Keeps.raise _
    | some id => exact M.Keeps.pure id

theorem refresh_keeps (token : Token) : (AuthService.refresh cfg token).Keeps D I := by
  refine ((subject_keeps h token .refresh).except fun e σ cs => ?_).bind fun id => ?_
  · cases e <;> trivial
  · refine (h.query _).bind fun u => ?_
    cases u with
    | none => exact M.Keeps.raise _
    | some u => exact M.Keeps.ite (M.Keeps.raise _) (tokenPair_keeps h u)

theorem addChunks_keeps (organizationId documentId : Uuid) (chunks : List String)
    (vectors : List (List S)) (idx : Nat) :
    (DocumentService.addChunks organizationId documentId idx chunks vectors).Keeps D I := by
  induction chunks generalizing vectors idx with
  | nil =>
    cases vectors with
    | nil => exact M.Keeps.pure ()
    | cons v vectors => exact M.Keeps.raise _
  | cons chunk chunks ih =>
    cases vectors with
    | nil => exact M.Keeps.raise _
    | cons v vectors =>
      exact h.uuid4.bind fun _ => (h.add rfl).bind fun _ => ih vectors (idx + 1)

theorem embed_keeps [Field S] [DecidableEq S] (texts : List String) :
    (embed cfg texts).Keeps D I := by
  unfold embed openaiClient
  split
  · refine (M.Keeps.ite (M.Keeps.raise _) (M.Keeps.ite (M.Keeps.raise _) (M.Keeps.pure _))).bind
      fun _ => ?_
    exact h.of_same fun σ cs => by simp
  · exact M.Keeps.raise _
  · exact M.Keeps.pure _

theorem createDocument_keeps [Field S] [DecidableEq S] (organizationId actorUserId : Uuid)
    (title content : String) (sourceType : DocumentSource) :
    (DocumentService.createDocument cfg organizationId actorUserId title content
      sourceType).Keeps D I := by
  have hrest : ∀ (documentId : Uuid) (chunks : List String) (vectors : List (List S)), (do
      DocumentService.addChunks organizationId documentId 0 chunks vectors
      commit
      let document ← refreshDocument documentId
      pure (document, chunks.length) : M S (Document × Nat)).Keeps D I := by
    intro documentId chunks vectors
    refine (addChunks_keeps h _ _ chunks vectors 0).bind fun _ => h.commit.bind fun _ => ?_
    exact (h.refreshDocument documentId).bind fun _ => M.Keeps.pure _
  refine h.uuid4.bind fun id => (h.add rfl).bind fun _ => h.flush.bind fun _ => ?_
  refine M.Keeps.ite ?_ ?_
  · exact (M.Keeps.pure []).bind fun vectors => hrest id _ vectors
  · exact (embed_keeps h _).bind fun vectors => hrest id _ vectors

theorem compute_keeps (organizationId : Uuid) :
    (MetricsService.compute organizationId : M S Metrics).Keeps D I :=
  (h.query _).bind fun _ => (h.query _).bind fun _ => (h.query _).bind fun _ =>
    (h.query _).bind fun _ => (h.query _).bind fun _ => (h.query _).bind fun _ =>
      (h.query _).bind fun _ => (h.query _).bind fun _ => (h.query _).bind fun _ =>
        (h.query _).bind fun _ => M.Keeps.pure _

omit h in
/-- A coroutine that only reads, while the session has no statements pending. -/
theorem readOnly_reading {p : M S α} (hp : p.ReadOnly) {σ : Session S} {cs : List (Made S)}
    (hclosed : (Book.ofCalls cs).pending = []) :
    p.Triple (atCommit D) (fun _ σ' cs' => σ' = σ ∧ Reading cs cs') (fun _ _ _ => True) σ cs := by
  have huses := Framework.Program.obeys_of_uses (O := atCommit D) (P := fun cs' => Reading cs cs')
    (hp σ) .refl ?_
  · refine Framework.Program.obeys_mono huses ?_
    rintro ⟨_ | a, σ'⟩ cs' ⟨hσ, hreading⟩
    · trivial
    · exact ⟨hσ, hreading⟩
  · intro op cs' hop hreading
    refine ⟨by cases op <;> trivial, ?_⟩
    rintro r _ ⟨-, rfl⟩
    cases op with
    | query q =>
      cases r with
      | error e =>
        refine hreading.snoc ?_ rfl rfl
        rw [← hreading.books] at hclosed
        rw [Book.note, ← hclosed]
      | ok x => exact reading_query hreading q x
    | clock => exact reading_clock hreading r
    | embed texts => exact reading_embed hreading texts r
    | chat request => exact reading_chat hreading request r
    | _ => exact hop.elim

end

end AgentDesk
