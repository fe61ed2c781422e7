import AgentDesk.Logic.Locks

namespace AgentDesk

open Framework (Program)

variable {S α β : Type} {cfg : Config S} {workflow : Workflow S} {own : Uuid → Prop} {c : Nat}
  {K : Set Lock} {σ : Session S}

/-! What a service locks -/

/-- The session holds and needs the locks of its own runs, and one more at most. -/
def Orderly (own : Uuid → Prop) (c : Nat) (σ : Session S) (held : Set Lock) : Prop :=
  ∃ K, Narrow own K ∧ Claimed c K σ held

/-- The coroutine locks in order, and brings the session from `P` to `Q` or raises. -/
def M.Brings (own : Uuid → Prop) (c : Nat) (P : Session S → Set Lock → Prop) (p : M S α)
    (Q : α → Session S → Set Lock → Prop) : Prop :=
  ∀ σ held, P σ held → p.Triple (claimant own c) Q (fun _ => Orderly own c) σ held

theorem Claimed.orderly {held : Set Lock} (h : Claimed c K σ held) (hK : Narrow own K) :
    Orderly own c σ held := ⟨K, hK, h⟩

namespace M

variable {P : Session S → Set Lock → Prop} {Q Q' : α → Session S → Set Lock → Prop}

theorem Needs.brings {p : M S α} (hp : p.Needs own c K) (hK : Narrow own K) :
    p.Brings own c (Claimed c K) fun _ => Claimed c K :=
  fun σ held h => M.triple_mono (hp σ held h) (fun _ _ _ h' => h') (fun _ _ _ h' => h'.orderly hK)

namespace Brings

theorem pure {a : α} (h : ∀ σ held, P σ held → Q a σ held) :
    (Pure.pure a : M S α).Brings own c P Q := h

theorem raise (e : Err) (h : ∀ σ held, P σ held → Orderly own c σ held) :
    (M.raise e : M S α).Brings own c P Q := h

theorem bind {p : M S β} {f : β → M S α} {R : β → Session S → Set Lock → Prop}
    (hp : p.Brings own c P R) (hf : ∀ b, (f b).Brings own c (R b) Q) :
    (p >>= f).Brings own c P Q := by
  intro σ held h
  rw [M.triple_bind]
  exact M.triple_mono (hp σ held h) (fun b σ' held' h' => hf b σ' held' h') (fun _ _ _ h' => h')

/-- Something that makes do with the locks comes first. -/
theorem after {p : M S β} {f : β → M S α} (hK : Narrow own K) (hp : p.Needs own c K)
    (hf : ∀ b, (f b).Brings own c (Claimed c K) Q) : (p >>= f).Brings own c (Claimed c K) Q :=
  (hp.brings hK).bind hf

theorem mono {p : M S α} (hp : p.Brings own c P Q) (hQ : ∀ a σ held, Q a σ held → Q' a σ held) :
    p.Brings own c P Q' :=
  fun σ held h => M.triple_mono (hp σ held h) hQ (fun _ _ _ h' => h')

/-- A session that locks nothing may begin to lock. -/
theorem claim {p : M S α} (hp : p.Brings own c (Claimed c K) Q) : p.Brings own c (Claimed c ∅) Q :=
  fun σ held h => hp σ held (h.mono (Set.empty_subset K))

theorem ite {b : Prop} [Decidable b] {p q : M S α} (hp : p.Brings own c P Q)
    (hq : q.Brings own c P Q) : (if b then p else q).Brings own c P Q := by
  split
  · exact hp
  · exact hq

/-- The handler may follow at any point. -/
theorem except {p : M S α} {h : Err → M S α} (hp : p.Brings own c P Q)
    (hh : ∀ e, (h e).Brings own c (Orderly own c) Q) : (M.except p h).Brings own c P Q := by
  intro σ held hσ
  rw [M.triple_except]
  exact M.triple_mono (hp σ held hσ) (fun _ _ _ h' => h') (fun e σ' held' h' => hh e σ' held' h')

theorem draw {f : Uuid → M S α}
    (hf : ∀ id, id.session = c → (f id).Brings own c (Claimed c K) Q) :
    (uuid4 >>= f).Brings own c (Claimed c K) Q := by
  intro σ held h
  rw [M.triple_bind, triple_uuid4]
  exact hf _ h.conn _ _ (h.draw _)

theorem catching {p : M S α} {status : Err → Option (Nat × String)} (hp : p.Brings own c P Q) :
    (Api.catching p status).Brings own c P Q := by
  intro σ held h
  unfold Api.catching
  rw [M.triple_except]
  refine M.triple_mono (hp σ held h) (fun _ _ _ h' => h') fun e σ' held' h' => ?_
  cases status e <;> exact h'

end Brings

end M

theorem commit_brings (hK : Narrow own K) :
    (commit : M S Unit).Brings own c (Claimed c K) fun _ => Claimed c ∅ :=
  fun _ _ h => M.triple_mono (commit_triple hK h) (fun _ _ _ h' => h')
    (fun _ _ _ h' => h'.orderly hK)

theorem record_needs (hK : Narrow own K) (event : AuditEvent) (organizationId actorUserId : Option Uuid)
    (targetType targetId : Option String) (metadata : Option Meta) (commits : Bool) :
    (record event organizationId actorUserId targetType targetId metadata commits : M S _).Needs
      own c K := by
  unfold record
  refine .draw fun id hid => (add_needs ?_).bind fun _ => (flush_needs hK).bind fun _ => ?_
  · exact Write.within_insert hid fun _ hl => by cases hl
  split
  · exact (commit_needs hK).bind fun _ => .pure _
  · exact .pure _

/-! Deliveries -/

theorem attempt_needs {deliveryId : Uuid} (hid : .delivery deliveryId ∈ K) (url : String)
    (body : List Char) (headers : List (String × String)) :
    (WebhookService.attempt deliveryId url body headers : M S Bool).Needs own c K := by
  refine .except ?_ fun e => (setDelivery_needs hid _).bind fun _ => .pure _
  exact (post_needs _ _ _).bind fun status => (setDelivery_needs hid _).bind fun _ => .pure _

theorem settleAttempt_needs (hK : Narrow own K) {deliveryId : Uuid} (hid : .delivery deliveryId ∈ K)
    (success : Bool) : (WebhookService.settleAttempt cfg deliveryId success).Needs own c K := by
  have hlast : (do commit; pure success : M S Bool).Needs own c K :=
    (commit_needs hK).bind fun _ => .pure _
  unfold WebhookService.settleAttempt
  refine (deliveryAttrs_needs deliveryId).bind fun d => .ite ?_ (.ite ?_ hlast)
  · refine (setDelivery_needs hid _).bind fun _ => ?_
    exact (record_needs hK _ _ _ _ _ _ _).bind fun _ => hlast
  · exact (setDelivery_needs hid _).bind fun _ => hlast

theorem performAttempt_needs (hK : Narrow own K) {d : WebhookDelivery} (hid : .delivery d.id ∈ K)
    (v : Webhook) (ownsClient : Bool) :
    (WebhookService.performAttempt cfg d v ownsClient).Needs own c K := by
  refine clock_needs.bind fun now => (setDelivery_needs hid _).bind fun _ => ?_
  refine (attempt_needs hid _ _ _).bind fun success => .ite ?_ (settleAttempt_needs hK hid success)
  exact aclose_needs.bind fun _ => settleAttempt_needs hK hid success

theorem deliverOnce_brings (deliveryId : Uuid) (ownsClient : Bool) :
    (WebhookService.deliverOnce cfg deliveryId ownsClient).Brings own c (Claimed c ∅)
      fun _ => Orderly own c := by
  refine .after .empty (getDelivery_needs deliveryId) fun r => ?_
  cases r with
  | none => exact .pure fun _ _ h => h.orderly .empty
  | some d =>
    refine .after .empty (getWebhook_needs d.webhookId) fun v => ?_
    cases v with
    | none => exact .pure fun _ _ h => h.orderly .empty
    | some v =>
      have hK : Narrow own {Lock.delivery d.id} := .singleton fun r hr => by cases hr
      refine .claim (((performAttempt_needs hK (Set.mem_singleton _) v ownsClient).brings hK).mono ?_)
      exact fun _ _ _ h => h.orderly hK

/-- What changes no row may follow at any point. -/
theorem Orderly.brings {p : M S α} (hp : ∀ {K}, Narrow own K → p.Needs own c K) :
    p.Brings own c (Orderly own c) fun _ => Orderly own c := by
  intro σ held h
  obtain ⟨K, hK, hσ⟩ := h
  exact M.triple_mono (hp hK σ held hσ) (fun _ _ _ h' => h'.orderly hK)
    (fun _ _ _ h' => h'.orderly hK)

theorem dispatch_brings (d : WebhookDelivery) :
    (WebhookService.dispatch cfg d).Brings own c (Claimed c ∅) fun _ => Orderly own c := by
  refine .ite (.pure fun _ _ h => h.orderly .empty) (.ite ?_ ?_)
  · exact (deliverOnce_brings d.id true).bind fun _ =>
      Orderly.brings fun _ => deliveryAttrs_needs d.id
  · exact .after .empty (enqueue_needs _) fun _ => .pure fun _ _ h => h.orderly .empty

theorem enqueueForTicket_brings (ticketId : Uuid) (event : String) :
    (WebhookService.enqueueForTicket cfg ticketId event).Brings own c (Claimed c ∅)
      fun _ => Orderly own c := by
  refine .after .empty (ticketAttrs_needs ticketId) fun t => ?_
  refine .after .empty (getConfig_needs _) fun r => ?_
  cases r with
  | none => exact .pure fun _ _ h => h.orderly .empty
  | some v =>
    refine .ite (.pure fun _ _ h => h.orderly .empty) (.draw fun id hid => ?_)
    have hK : Narrow own {Lock.delivery id} := .singleton fun r hr => by cases hr
    refine .claim (K := {Lock.delivery id}) (.after hK (add_needs ?_) fun _ => ?_)
    · exact Write.within_insert hid fun _ hl => by cases hl
    refine .after hK (flush_needs hK) fun _ => .after hK clock_needs fun now => ?_
    refine .after hK (setDelivery_needs (Set.mem_singleton _) _) fun _ => (commit_brings hK).bind fun _ => ?_
    refine .after .empty (refreshDelivery_needs id) fun d => ?_
    exact (dispatch_brings d).bind fun _ => .pure fun _ _ h => h

theorem upsertConfig_brings (organizationId : Uuid) (url secret : String) (isActive : Bool) :
    (WebhookService.upsertConfig organizationId url secret isActive : M S _).Brings own c
      (Claimed c ∅) fun _ => Claimed c ∅ := by
  refine .after .empty (getConfig_needs organizationId) fun r => ?_
  cases r with
  | none =>
    refine .draw fun id hid => ?_
    have hK : Narrow own {Lock.webhookOwner organizationId} := .singleton fun r hr => by cases hr
    refine .claim (K := {Lock.webhookOwner organizationId}) (.after hK (add_needs ?_) fun _ => ?_)
    · refine Write.within_insert hid ?_
      rintro l ⟨⟩
      rfl
    exact (commit_brings hK).bind fun _ => (refreshWebhook_needs id).brings .empty
  | some v =>
    have hK : Narrow own {Lock.webhook v.id} := .singleton fun r hr => by cases hr
    refine .claim (K := {Lock.webhook v.id}) (.after hK (setWebhook_needs (Set.mem_singleton _) _) fun _ => ?_)
    exact (commit_brings hK).bind fun _ => (refreshWebhook_needs v.id).brings .empty

/-! Tickets -/

theorem createTicket_brings (organizationId actorUserId : Uuid) (title description : String)
    (priority : TicketPriority) :
    (TicketService.createTicket organizationId actorUserId title description priority : M S _).Brings
      own c (Claimed c ∅) fun _ => Claimed c ∅ := by
  refine .draw fun id hid => .after .empty (add_needs ?_) fun _ => ?_
  · exact Write.within_insert hid fun _ hl => by cases hl
  refine .after .empty (flush_needs .empty) fun _ => .draw fun eventId hevent => ?_
  refine .after .empty (add_needs ?_) fun _ => ?_
  · exact Write.within_insert hevent fun _ hl => by cases hl
  refine .after .empty (record_needs .empty _ _ _ _ _ _ _) fun _ => ?_
  exact (commit_brings .empty).bind fun _ => (refreshTicket_needs id).brings .empty

theorem transition_needs (hK : Narrow own K) {ticketId : Uuid} (hid : .ticket ticketId ∈ K)
    (toStatus : TicketStatus) (actorUserId : Option Uuid) (eventType : String)
    (message : Option String) (flushes : Bool) :
    (TicketService.transition ticketId toStatus actorUserId eventType message flushes : M S _).Needs
      own c K := by
  unfold TicketService.transition
  refine (ticketAttrs_needs ticketId).bind fun t => .ite (.raise _) ?_
  refine (setTicket_needs hid _).bind fun _ => .draw fun id hevent => (add_needs ?_).bind fun _ => ?_
  · exact Write.within_insert hevent fun _ hl => by cases hl
  split
  · exact (flush_needs hK).bind fun _ => ticketAttrs_needs ticketId
  · exact ticketAttrs_needs ticketId

theorem approve_brings (ticketId actorUserId : Uuid) (edited : Option String) :
    (TicketService.approve cfg ticketId actorUserId edited).Brings own c (Claimed c ∅)
      fun _ => Orderly own c := by
  have hK : Narrow own {Lock.ticket ticketId} := .singleton fun r hr => by cases hr
  refine .after .empty (ticketAttrs_needs ticketId) fun t => ?_
  refine .ite (.raise _ fun _ _ h => h.orderly .empty) (.claim (K := {Lock.ticket ticketId}) ?_)
  refine .after hK (setTicket_needs (Set.mem_singleton _) _) fun _ => .after hK (transition_needs hK (Set.mem_singleton _) _ _ _ _ _) fun _ => ?_
  refine .after hK (record_needs hK _ _ _ _ _ _ _) fun _ => (commit_brings hK).bind fun _ => ?_
  refine .after .empty (refreshTicket_needs ticketId) fun _ => ?_
  exact (enqueueForTicket_brings ticketId _).bind fun _ =>
    Orderly.brings fun _ => ticketAttrs_needs ticketId

theorem reject_brings (ticketId actorUserId : Uuid) (reason : Option String) :
    (TicketService.reject ticketId actorUserId reason : M S _).Brings own c (Claimed c ∅)
      fun _ => Claimed c ∅ := by
  have hK : Narrow own {Lock.ticket ticketId} := .singleton fun r hr => by cases hr
  refine .claim (K := {Lock.ticket ticketId}) (.after hK (transition_needs hK (Set.mem_singleton _) _ _ _ _ _) fun t => ?_)
  refine .after hK (record_needs hK _ _ _ _ _ _ _) fun _ => (commit_brings hK).bind fun _ => ?_
  exact (refreshTicket_needs ticketId).brings .empty

theorem editDraft_brings (ticketId actorUserId : Uuid) (content : String) :
    (TicketService.editDraft ticketId actorUserId content : M S _).Brings own c (Claimed c ∅)
      fun _ => Claimed c ∅ := by
  have hK : Narrow own {Lock.ticket ticketId} := .singleton fun r hr => by cases hr
  refine .ite (.raise _ fun _ _ h => h.orderly .empty) ?_
  refine .after .empty (ticketAttrs_needs ticketId) fun t => .claim (K := {Lock.ticket ticketId}) ?_
  refine .after hK (setTicket_needs (Set.mem_singleton _) _) fun _ => .draw fun id hid => ?_
  refine .after hK (add_needs ?_) fun _ => (commit_brings hK).bind fun _ => ?_
  · exact Write.within_insert hid fun _ hl => by cases hl
  · exact (refreshTicket_needs ticketId).brings .empty

/-! Documents -/

section

variable [Field S]

omit [Field S] in
theorem addChunks_needs (organizationId documentId : Uuid) (idx : Nat) (chunks : List String)
    (vectors : List (List S)) :
    (DocumentService.addChunks organizationId documentId idx chunks vectors).Needs own c K := by
  induction chunks generalizing idx vectors with
  | nil =>
    cases vectors with
    | nil => exact .pure _
    | cons vector vectors => exact .raise _
  | cons chunk chunks ih =>
    cases vectors with
    | nil => exact .raise _
    | cons vector vectors =>
      refine .draw fun id hid => (add_needs ?_).bind fun _ => ih (idx + 1) vectors
      exact Write.within_insert hid fun _ hl => by cases hl

theorem createDocument_brings [LinearOrder S] (organizationId actorUserId : Uuid)
    (title content : String) (sourceType : DocumentSource) :
    (DocumentService.createDocument cfg organizationId actorUserId title content sourceType).Brings
      own c (Claimed c ∅) fun _ => Claimed c ∅ := by
  refine .draw fun id hid => .after .empty (add_needs ?_) fun _ => ?_
  · exact Write.within_insert hid fun _ hl => by cases hl
  refine .after .empty (flush_needs .empty) fun _ => ?_
  have hrest : ∀ (chunks : List String) (vectors : List (List S)), (do
      DocumentService.addChunks organizationId id 0 chunks vectors
      commit
      let document ← refreshDocument id
      pure (document, chunks.length) : M S (Document × Nat)).Brings own c (Claimed c ∅)
        fun _ => Claimed c ∅ := by
    intro chunks vectors
    refine .after .empty (addChunks_needs _ _ _ _ _) fun _ => (commit_brings .empty).bind fun _ => ?_
    exact .after .empty (refreshDocument_needs id) fun _ => (M.Needs.pure _).brings .empty
  refine .ite ?_ ?_
  · exact .after .empty (.pure _) fun vectors => hrest _ vectors
  · exact .after .empty (.of_readOnly (readOnly_embedProvider cfg _)) fun vectors => hrest _ vectors

end

/-! Agent runs -/

/-- The new run is the session's own. -/
theorem startRun_brings (ticketId : Uuid) (actorUserId : Option Uuid) :
    (AgentRunService.startRun ticketId actorUserId : M S _).Brings own c (Claimed c ∅)
      fun r σ held => Claimed c ∅ σ held ∧ r.id.session = c := by
  refine .after .empty (ticketAttrs_needs ticketId) fun t => .draw fun id hid => ?_
  refine .after .empty (add_needs ?_) fun _ => .after .empty (flush_needs .empty) fun _ => ?_
  · exact Write.within_insert hid fun _ hl => by cases hl
  refine .after .empty (record_needs .empty _ _ _ _ _ _ _) fun _ => (commit_brings .empty).bind fun _ => ?_
  intro σ held h
  rw [triple_refreshAgentRun]
  refine ⟨trivial, fun e held' hn => ?_, fun held' hn => ?_, fun r held' hn => ⟨?_, ?_⟩⟩
  · exact (h.next (fun _ hne => by cases hne) hn).orderly .empty
  · exact (h.next (fun _ hne => by cases hne) hn).orderly .empty
  · refine (h.next (fun _ hne => by cases hne) hn).putAgentRun fun o _ => ?_
    exact .of_clean (dirtyAgentRun_clean r)
  · have hfits : r.id = id := hn.1
    rw [hfits, hid]

theorem suggestedPriority_needs (state : AgentState) :
    (AgentRunService.suggestedPriority state : M S _).Needs own c K :=
  fun _ _ h => suggestedPriority_triple state (fun _ => h) (fun _ => h)

theorem applyOutcome_needs (hK : Narrow own K) {runId : Uuid} (hrun : .agentRun runId ∈ K)
    {t : Ticket} (ht : .ticket t.id ∈ K) (state : AgentState) :
    (AgentRunService.applyOutcome runId t state : M S Unit).Needs own c K := by
  refine .ite ?_ ?_
  · refine (setAgentRun_needs hrun _).bind fun _ => ?_
    exact (transition_needs hK ht _ _ _ _ _).bind fun _ => .pure _
  · refine (setAgentRun_needs hrun _).bind fun _ => ?_
    refine (transition_needs hK ht _ _ _ _ _).bind fun _ => ?_
    exact (record_needs hK _ _ _ _ _ _ _).bind fun _ => .pure _

theorem persistResult_brings {runId : Uuid} (hrun : own runId) (t : Ticket) (started : Time) :
    (AgentRunService.persistResult workflow runId t started).Brings own c (Claimed c ∅)
      fun _ => Claimed c ∅ := by
  have hK : Narrow own {Lock.agentRun runId, .ticket t.id} := .run hrun t.id
  have hr : Lock.agentRun runId ∈ ({.agentRun runId, .ticket t.id} : Set Lock) := Or.inl rfl
  have ht : Lock.ticket t.id ∈ ({.agentRun runId, .ticket t.id} : Set Lock) := Or.inr rfl
  refine .claim (K := {Lock.agentRun runId, .ticket t.id}) ?_
  refine .after hK (.of_readOnly (workflow.readOnly _)) fun state => .after hK clock_needs fun ended => ?_
  refine .after hK (setAgentRun_needs hr _) fun _ => .after hK (record_needs hK _ _ _ _ _ _ _) fun _ => ?_
  refine .after hK (record_needs hK _ _ _ _ _ _ _) fun _ => .after hK (setTicket_needs ht _) fun _ => ?_
  refine .after hK (suggestedPriority_needs state) fun sp => .after hK (setTicket_needs ht _) fun _ => ?_
  refine .after hK (applyOutcome_needs hK hr ht state) fun _ => .after hK clock_needs fun finished => ?_
  exact .after hK (setAgentRun_needs hr _) fun _ => commit_brings hK

theorem announceResult_brings (runId ticketId : Uuid) :
    (AgentRunService.announceResult cfg runId ticketId).Brings own c (Claimed c ∅)
      fun _ => Orderly own c := by
  have hattrs : (agentRunAttrs runId : M S _).Brings own c (Orderly own c) fun _ => Orderly own c :=
    Orderly.brings fun _ => agentRunAttrs_needs runId
  refine .after .empty (refreshAgentRun_needs runId) fun run => .ite ?_ ?_
  · refine .after .empty (refreshTicket_needs ticketId) fun _ => ?_
    exact (enqueueForTicket_brings ticketId _).bind fun _ => hattrs
  · exact fun σ held h => hattrs σ held (h.orderly .empty)

theorem rollback_brings : (rollback : M S Unit).Brings own c (Orderly own c) fun _ => Claimed c ∅ := by
  intro σ held h
  obtain ⟨K, -, hσ⟩ := h
  rw [triple_rollback]
  refine ⟨trivial, fun e held' hn => ?_, fun r held' hn => ?_⟩
  · rw [hn.2]
    exact hσ.expired.orderly .empty
  · rw [hn.2]
    exact hσ.expired

theorem recordFailure_brings {runId : Uuid} (hrun : own runId) (exc : Err) :
    (AgentRunService.recordFailure runId exc : M S α).Brings own c (Orderly own c)
      fun _ => Orderly own c := by
  have hK : Narrow own {Lock.agentRun runId} := .singleton fun r hr => by
    cases hr
    exact hrun
  refine rollback_brings.bind fun _ => .after .empty (getAgentRun_needs runId) fun r => ?_
  cases r with
  | none => exact .raise _ fun _ _ h => h.orderly .empty
  | some r =>
    refine .claim (K := {Lock.agentRun runId}) (.after hK clock_needs fun finished => ?_)
    refine .after hK (setAgentRun_needs (Set.mem_singleton _) _) fun _ => (commit_brings hK).bind fun _ => ?_
    exact .raise _ fun _ _ h => h.orderly .empty

theorem executeRun_brings {runId : Uuid} (hrun : own runId) :
    (AgentRunService.executeRun cfg workflow runId).Brings own c (Claimed c ∅)
      fun _ => Orderly own c := by
  refine .after .empty (getAgentRun_needs runId) fun r => ?_
  cases r with
  | none => exact .raise _ fun _ _ h => h.orderly .empty
  | some r =>
    refine .after .empty (getTicketRow_needs r.ticketId) fun t => ?_
    cases t with
    | none => exact .raise _ fun _ _ h => h.orderly .empty
    | some t =>
      refine .after .empty clock_needs fun started => .except ?_ fun e => recordFailure_brings hrun e
      exact (persistResult_brings hrun t started).bind fun _ => announceResult_brings runId t.id

/-! Accounts and metrics -/

theorem subject_needs (token : Token) (expected : TokenType) :
    (subject cfg token expected).Needs own c K := by
  have hdecoded : (decodeToken cfg token expected).Needs own c K := by
    cases token with
    | malformed m => exact .raise _
    | signed key claims =>
      refine .ite (.raise _) (clock_needs.bind fun now => .ite (.raise _) (.ite (.raise _) (.pure _)))
  refine hdecoded.bind fun claims => ?_
  cases claims.sub with
  | none => exact .raise _
  | some id => exact .pure id

theorem tokenPair_needs (user : User) : (AuthService.tokenPair cfg user).Needs own c K :=
  M.Needs.bind (clock_needs.bind fun _ => .pure _) fun _ =>
    M.Needs.bind (clock_needs.bind fun _ => .pure _) fun _ => .pure _

theorem refresh_needs (refreshToken : Token) :
    (AuthService.refresh cfg refreshToken).Needs own c K := by
  refine M.Needs.bind ((subject_needs _ _).except fun e => by cases e <;> exact .raise _) fun id => ?_
  refine (query_needs _).bind fun r => ?_
  cases r with
  | none => exact .raise _
  | some u => exact .ite (.raise _) (tokenPair_needs u)

theorem authenticate_needs (email password : String) :
    (AuthService.authenticate cfg email password).Needs own c K := by
  refine (query_needs _).bind fun r => ?_
  cases r with
  | none => exact .raise _
  | some u => exact .ite (.raise _) ((tokenPair_needs u).bind fun _ => .pure _)

theorem requireRole_needs (allowed : List Role) (creds : Option Token) :
    (requireRole cfg allowed creds).Needs own c K := by
  have hcurrent : (getCurrentUser cfg creds).Needs own c K := by
    unfold getCurrentUser
    split
    · exact .raise _
    · exact .raise _
    · refine M.Needs.bind ((subject_needs _ _).except fun e => by cases e <;> exact .raise _) fun id => ?_
      refine (query_needs _).bind fun r => ?_
      cases r with
      | none => exact .raise _
      | some u => exact .ite (.raise _) (.pure u)
  exact hcurrent.bind fun u => .ite (.raise _) (.pure u)

theorem createUser_brings (organizationId : Uuid) (email password : String) (role : Role) :
    (UserService.createUser cfg organizationId email password role).Brings own c (Claimed c ∅)
      fun _ => Claimed c ∅ := by
  refine .after .empty (query_needs _) fun r => ?_
  cases r with
  | some u => exact .raise _ fun _ _ h => h.orderly .empty
  | none =>
    refine .after .empty (salt_needs.bind fun _ => .pure _) fun hashed => .draw fun id hid => ?_
    have hK : Narrow own {Lock.userEmail organizationId (cfg.platform.lower email)} :=
      .singleton fun r hr => by cases hr
    refine .claim (K := {Lock.userEmail organizationId (cfg.platform.lower email)}) ?_
    refine .after hK (add_needs ?_) fun _ => (commit_brings hK).bind fun _ => ?_
    · refine Write.within_insert hid ?_
      rintro l ⟨⟩
      rfl
    · exact (refreshUser_needs id).brings .empty

/-- A commit that locks what ranks above everything held. -/
theorem commit_above {held : Set Lock} (hK : Narrow own K)
    (habove : ∀ k ∈ held, ∀ l ∈ K, k.rank < l.rank) (h : Claimed c K σ ∅) :
    (commit : M S Unit).Triple (claimant own c) (fun _ => Claimed c ∅) (fun _ => Claimed c K) σ
      held := by
  unfold commit
  rw [M.triple_bind, triple_flush]
  have hsend : ∀ {σ' : Session S} {held' : Set Lock}, (∀ {K'}, Claimed c K' σ' ∅) →
      (sendCommit : M S Unit).Triple (claimant own c) (fun _ => Claimed c ∅) (fun _ => Claimed c K) σ'
        held' := by
    intro σ' held' h'
    rw [triple_sendCommit]
    refine ⟨trivial, fun e held'' hn => ?_, fun r held'' hn => ?_⟩
    · rw [hn.2]
      exact h'
    · rw [hn.2]
      exact h'
  by_cases hnone : σ.pending = []
  · rw [hnone, flushes_nil]
    exact hsend (h.settled hnone (Set.empty_subset _))
  · rw [flushes_of_ne_nil hnone]
    obtain ⟨hown, hruns, -⟩ := h.ok hK
    refine ⟨⟨hown, hruns, fun l hl => ?_⟩, fun e held' hn => ?_, fun held' hn => ?_⟩
    · exact Or.inr (Or.inr fun k hk => Or.inr (habove k hk l (h.locks hl)))
    · rw [hn.2]
      exact h
    · exact hsend (h.flushed (Set.empty_subset _))

/-- An organization's name is locked before the address of its first user. -/
theorem register_brings (organizationName email password : String) :
    (AuthService.register cfg organizationName email password).Brings own c (Claimed c ∅)
      fun _ => Orderly own c := by
  have hname : Narrow own {Lock.organizationName organizationName} :=
    .singleton fun r hr => by cases hr
  refine .after .empty (query_needs _) fun r => ?_
  cases r with
  | some o => exact .raise _ fun _ _ h => h.orderly .empty
  | none =>
    refine .draw fun organizationId horg => .claim (K := {Lock.organizationName organizationName}) ?_
    refine .after hname (add_needs ?_) fun _ σ held h => ?_
    · refine Write.within_insert horg ?_
      rintro l ⟨⟩
      rfl
    rw [M.triple_bind]
    refine M.triple_mono (flush_triple hname h) ?_ fun _ _ _ h' => h'.orderly hname
    intro _ σ₁ held₁ hflushed
    obtain ⟨hnamed, hclean⟩ := hflushed
    have haddress : Narrow own {Lock.userEmail organizationId (cfg.platform.lower email)} :=
      .singleton fun r hr => by cases hr
    simp only [hashPassword, M.triple_bind, triple_salt, M.triple_pure, triple_uuid4, triple_add]
    refine ⟨trivial, fun n held₂ hn => ?_⟩
    obtain ⟨-, rfl⟩ := hn
    have hdrawn : Claimed c {Lock.userEmail organizationId (cfg.platform.lower email)}
        { σ₁ with draws := σ₁.draws + 1 } ∅ := hclean.draw _
    refine M.triple_mono (commit_above haddress ?_ (hdrawn.add ?_)) ?_
      fun _ _ _ h' => h'.orderly haddress
    · intro k hk l hl
      rw [Set.mem_singleton_iff.mp (hnamed.held hk), Set.mem_singleton_iff.mp hl]
      exact Nat.zero_lt_one
    · refine Write.within_insert hnamed.conn ?_
      rintro l ⟨⟩
      rfl
    · intro _ σ₂ held₂ hsaved
      have hrest : (do
          let user ← refreshUser ⟨σ₁.conn, σ₁.draws⟩
          AuthService.tokenPair cfg user).Brings own c (Claimed c ∅) fun _ => Claimed c ∅ :=
        M.Needs.brings ((refreshUser_needs _).bind fun user => tokenPair_needs user) .empty
      have hlast := hrest.mono fun _ _ _ h' => h'.orderly (@Narrow.empty own)
      exact (M.triple_bind _ _).mp (hlast σ₂ held₂ hsaved)

theorem compute_needs (organizationId : Uuid) :
    (MetricsService.compute organizationId : M S _).Needs own c K := by
  unfold MetricsService.compute
  refine (query_needs _).bind fun _ => (query_needs _).bind fun _ => (query_needs _).bind fun _ => ?_
  refine (query_needs _).bind fun _ => (query_needs _).bind fun _ => (query_needs _).bind fun _ => ?_
  refine (query_needs _).bind fun _ => (query_needs _).bind fun _ => (query_needs _).bind fun _ => ?_
  exact (query_needs _).bind fun _ => .pure _

/-! Endpoints -/

/-- The session ends where its coroutine does. -/
theorem M.Brings.answer {p : M S α} {P : Session S → Set Lock → Prop}
    {Q : α → Session S → Set Lock → Prop} (hp : p.Brings own c P Q)
    (hQ : ∀ a σ held, Q a σ held → Orderly own c σ held) (f : α → β) :
    (do
      let a ← p
      Pure.pure (f a) : M S β).Brings own c P fun _ => Orderly own c :=
  (hp.mono hQ).bind fun _ => .pure fun _ _ h => h

theorem M.Brings.of_needs {p : M S α} (hp : ∀ {K}, Narrow own K → p.Needs own c K) :
    p.Brings own c (Claimed c ∅) fun _ => Orderly own c :=
  ((hp .empty).brings .empty).mono fun _ _ _ h => h.orderly .empty

theorem getTicket_needs (organizationId id : Uuid) :
    (TicketService.getTicket organizationId id : M S _).Needs own c K := by
  refine (getTicketRow_needs id).bind fun r => ?_
  cases r with
  | none => exact .raise _
  | some t => exact .ite (.raise _) (.pure t)

theorem login_needs (hK : Narrow own K) (body : LoginRequest) :
    (Api.login cfg body).Needs own c K := by
  refine M.Needs.bind ((authenticate_needs _ _).except fun e => ?_) fun x => ?_
  · cases e with
    | auth m => exact (record_needs hK _ _ _ _ _ _ _).bind fun _ => .raise _
    | _ => exact .raise _
  · exact (record_needs hK _ _ _ _ _ _ _).bind fun _ => .pure _

theorem runWorkflow_brings {current : User} (id : Uuid)
    (hown : cfg.settings.agentRunEager = true → ∀ runId : Uuid, runId.session = c → own runId) :
    (Api.runWorkflow cfg workflow current id).Brings own c (Claimed c ∅)
      fun _ => Orderly own c := by
  refine .after .empty (getTicket_needs _ id).catching fun t => ?_
  refine .ite (.raise _ fun _ _ h => h.orderly .empty) ((startRun_brings id _).bind fun r => ?_)
  intro σ held h
  obtain ⟨hσ, hr⟩ := h
  refine (M.triple_ite _ _ _).mpr ⟨fun heager => ?_, fun _ => ?_⟩
  · have hrun : (AgentRunService.executeRun cfg workflow r.id).Brings own c (Claimed c ∅)
        fun _ => Orderly own c := executeRun_brings (hown heager r.id hr)
    exact hrun.answer (fun _ _ _ h => h) _ σ held hσ
  · exact M.Brings.of_needs (fun _ => (enqueue_needs _).bind fun _ => .pure _) σ held hσ

section

variable [Field S] [LinearOrder S] [FloorRing S]

theorem handle_brings (action : Api.Action) (current : User)
    (hown : cfg.settings.agentRunEager = true → (∃ id, action = .runWorkflow id) →
      ∀ runId : Uuid, runId.session = c → own runId) :
    (action.handle cfg workflow current).Brings own c (Claimed c ∅) fun _ => Orderly own c := by
  have hload : ∀ (id : Uuid) {f : Ticket → M S Response},
      (∀ t, (f t).Brings own c (Claimed c ∅) fun _ => Orderly own c) →
        (do
          let t ← Api.load current.organizationId id
          f t : M S Response).Brings own c (Claimed c ∅) fun _ => Orderly own c :=
    fun id f hf => .after .empty (getTicket_needs _ id).catching hf
  have hclaimed : ∀ {γ : Type} (_ : γ) (σ : Session S) held, Claimed c ∅ σ held →
      Orderly own c σ held := fun _ _ _ h => h.orderly .empty
  cases action with
  | listUsers => exact .of_needs fun _ => (query_needs _).bind fun _ => .pure _
  | createUser body => exact (createUser_brings _ _ _ _).catching.answer hclaimed _
  | createTicket body => exact (createTicket_brings _ _ _ _ _).answer hclaimed _
  | listTickets status => exact .of_needs fun _ => (query_needs _).bind fun _ => .pure _
  | getTicket id => exact hload id fun t => .of_needs fun _ => .pure _
  | listTicketEvents id =>
    refine .of_needs fun _ => M.Needs.bind (M.Needs.catching ?_) fun _ => .pure _
    exact (getTicket_needs _ id).bind fun _ => query_needs _
  | createDocument body => exact (createDocument_brings _ _ _ _ _).answer hclaimed _
  | listDocuments => exact .of_needs fun _ => (query_needs _).bind fun _ => .pure _
  | searchDocuments body =>
    exact .of_needs fun _ => (M.Needs.of_readOnly (readOnly_search cfg _ _ _ _)).bind fun _ => .pure _
  | runWorkflow id => exact runWorkflow_brings id fun heager => hown heager ⟨id, rfl⟩
  | approve id body =>
    exact hload id fun t => (approve_brings id _ _).catching.answer (fun _ _ _ h => h) _
  | reject id body => exact hload id fun t => (reject_brings id _ _).catching.answer hclaimed _
  | editDraft id body => exact hload id fun t => (editDraft_brings id _ _).catching.answer hclaimed _
  | getWebhook => exact .of_needs fun _ => (getConfig_needs _).bind fun _ => .pure _
  | putWebhook body => exact (upsertConfig_brings _ _ _ _).answer hclaimed _
  | listDeliveries => exact .of_needs fun _ => (query_needs _).bind fun _ => .pure _
  | getMetrics => exact .of_needs fun _ => (compute_needs _).bind fun _ => .pure _

/-! Whole sessions -/

/-- The runs that session `c` performs: the one its task names, or one it started itself. -/
def Job.Performs (cfg : Config S) (c : Nat) (job : Job) (runId : Uuid) : Prop :=
  job = .runAgent runId ∨ cfg.settings.agentRunEager = true ∧ job.runs = true ∧ runId.session = c

theorem request_brings (r : Api.Request)
    (hown : ∀ runId, (Job.request r).Performs cfg c runId → own runId) :
    (r.handle cfg workflow).Brings own c (Claimed c ∅) fun _ => Orderly own c := by
  cases r with
  | register body => exact (register_brings _ _ _).catching.answer (fun _ _ _ h => h) _
  | login body => exact .of_needs fun hK => login_needs hK body
  | refresh body => exact .of_needs fun _ => (refresh_needs _).catching.bind fun _ => .pure _
  | authenticated creds action =>
    refine .after .empty (requireRole_needs _ creds) fun u => handle_brings action u ?_
    rintro heager ⟨id, rfl⟩ runId hrun
    exact hown runId (Or.inr ⟨heager, rfl, hrun⟩)

omit [Field S] [LinearOrder S] [FloorRing S] in
/-- A session that is closed holds no locks. -/
theorem sessionScope_brings {p : M S α} (hp : p.Brings own c (Claimed c ∅) fun _ => Orderly own c)
    {f : Except Err α × Session S → Program (Op S) Res Outcome}
    (hf : ∀ x, ∃ outcome, f x = .ret outcome) :
    ((sessionScope p (.start c)).bind f).Obeys (claimant own c) (fun _ held => held = ∅) ∅ := by
  unfold sessionScope
  rw [Program.bind_assoc, Program.obeys_bind]
  refine Program.obeys_mono (hp _ _ Claimed.start) fun x held _ => ?_
  refine ⟨trivial, fun _ held' h => ?_⟩
  obtain ⟨outcome, houtcome⟩ := hf (x.1, x.2.expired)
  change (f (x.1, x.2.expired)).Obeys (claimant own c) (fun _ held => held = ∅) held'
  rw [houtcome]
  exact h.2

/-- A job locks in order, and holds nothing when it ends. -/
theorem program_orderly (job : Job) (hown : ∀ runId, job.Performs cfg c runId → own runId) :
    (Job.program cfg workflow job c).Obeys (claimant own c) (fun _ held => held = ∅) ∅ := by
  cases job with
  | request r =>
    refine sessionScope_brings ((request_brings r hown).except fun e => ?_) fun x => ⟨_, rfl⟩
    exact rollback_brings.bind fun _ => .raise _ fun _ _ h => h.orderly .empty
  | runAgent runId =>
    have hrun : (AgentRunService.executeRun cfg workflow runId).Brings own c (Claimed c ∅)
        fun _ => Orderly own c := executeRun_brings (hown runId (Or.inl rfl))
    change Program.Obeys _ (((sessionScope (AgentRunService.executeRun cfg workflow runId) >>=
      fun _ => pure Outcome.finished) (.start c)).bind fun x => .ret (outcomeOf x.1)) _ _
    rw [M.bind_apply, Program.bind_assoc]
    refine sessionScope_brings hrun fun x => ?_
    obtain ⟨_ | a, σ'⟩ := x
    · exact ⟨_, rfl⟩
    · exact ⟨_, rfl⟩
  | deliverWebhook deliveryId retries =>
    change Program.Obeys _ (((sessionScope (WebhookService.deliverOnce cfg deliveryId true) >>=
      fun success => if !success && decide (retries < cfg.settings.webhookMaxRetries) then
        pure (.retry deliveryId (retries + 1) (cfg.settings.webhookBackoffBaseSeconds * 2 ^ retries))
      else pure .finished) (.start c)).bind fun x => .ret (outcomeOf x.1)) _ _
    rw [M.bind_apply, Program.bind_assoc]
    refine sessionScope_brings (deliverOnce_brings deliveryId true) fun x => ?_
    obtain ⟨_ | success, σ'⟩ := x
    · exact ⟨_, rfl⟩
    · simp only
      split
      · exact ⟨_, rfl⟩
      · exact ⟨_, rfl⟩

end

end AgentDesk
