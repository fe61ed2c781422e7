import AgentDesk.Logic.Isolation

namespace AgentDesk

variable {S α β : Type} {cfg : Config S} {organizationId : Uuid} {c : Nat} {known : Set RowKey}

/-! Audit, history and webhooks -/

theorem record_stays (event : AuditEvent) (actorUserId : Option Uuid)
    (targetType targetId : Option String) (metadata : Option Meta) (commits : Bool) :
    (record event (some organizationId) actorUserId targetType targetId metadata commits :
      M S _).Stays organizationId c known fun _ _ => True := by
  unfold record
  refine uuid4_stays.bind fun id known₁ _ hid => ?_
  refine (add_stays ?_).bind fun _ known₂ _ _ => ?_
  · exact local_insert hid (fun h => by cases h) ⟨rfl, fun parent hparent => by cases hparent⟩
  refine flush_stays.bind fun _ known₃ _ _ => ?_
  split
  · exact commit_stays.bind fun _ _ _ _ => .pure fun _ _ => trivial
  · exact .pure fun _ _ => trivial

theorem transition_stays (ticketId : Uuid) (toStatus : TicketStatus) (actorUserId : Option Uuid)
    (eventType : String) (message : Option String) (flushes : Bool) :
    (TicketService.transition ticketId toStatus actorUserId eventType message flushes :
      M S _).Stays organizationId c known fun t known' =>
        (Row.ticket t : Row S).Held organizationId c known' := by
  unfold TicketService.transition
  refine (ticketAttrs_stays ticketId).bind fun t known₁ _ ht => .ite (.raise _) ?_
  refine (setTicket_stays _ _).bind fun _ known₂ hle _ => ?_
  refine uuid4_stays.bind fun id known₃ hle' hid => ?_
  refine (add_stays ?_).bind fun _ known₄ _ _ => ?_
  · refine local_insert hid (fun h => by cases h) ⟨ht.1.filed.organization, ?_⟩
    rintro parent ⟨⟩
    exact ht.2.mono (hle.trans hle')
  have hattrs : ∀ known', (ticketAttrs ticketId : M S _).Stays organizationId c known' fun t known' =>
      (Row.ticket t : Row S).Held organizationId c known' := fun known' =>
    (ticketAttrs_stays ticketId).mono Set.Subset.rfl fun _ _ _ h => h.1
  split
  · exact flush_stays.bind fun _ known₅ _ _ => hattrs known₅
  · exact hattrs known₄

theorem attempt_stays (deliveryId : Uuid) (url : String) (body : List Char)
    (headers : List (String × String)) :
    (WebhookService.attempt deliveryId url body headers : M S _).Stays organizationId c known
      fun _ _ => True := by
  refine .except ?_ fun e known₁ _ => ?_
  · refine (post_stays _ _ _).bind fun status known₁ _ _ => ?_
    exact (setDelivery_stays _ _).bind fun _ _ _ _ => .pure fun _ _ => trivial
  · exact (setDelivery_stays _ _).bind fun _ _ _ _ => .pure fun _ _ => trivial

theorem settleAttempt_stays (deliveryId : Uuid) (success : Bool) :
    (WebhookService.settleAttempt cfg deliveryId success).Stays organizationId c known
      fun _ _ => True := by
  have hlast : ∀ known', (do commit; pure success : M S Bool).Stays organizationId c known'
      fun _ _ => True := fun _ => commit_stays.bind fun _ _ _ _ => .pure fun _ _ => trivial
  unfold WebhookService.settleAttempt
  refine (deliveryAttrs_stays deliveryId).bind fun d known₁ _ hd => .ite ?_ (.ite ?_ (hlast _))
  · refine (setDelivery_stays _ _).bind fun _ known₂ _ _ => ?_
    have horg : d.organizationId = organizationId := Option.some.inj hd.filed.organization
    rw [horg]
    exact (record_stays _ _ _ _ _ _).bind fun _ known₃ _ _ => hlast known₃
  · exact (setDelivery_stays _ _).bind fun _ known₂ _ _ => hlast known₂

theorem performAttempt_stays (d : WebhookDelivery) (v : Webhook) (ownsClient : Bool) :
    (WebhookService.performAttempt cfg d v ownsClient).Stays organizationId c known
      fun _ _ => True := by
  refine clock_stays.bind fun now known₁ _ _ => (setDelivery_stays _ _).bind fun _ known₂ _ _ => ?_
  refine (attempt_stays _ _ _ _).bind fun success known₃ _ _ => .ite ?_ (settleAttempt_stays _ _)
  exact aclose_stays.bind fun _ known₄ _ _ => settleAttempt_stays _ _

theorem deliverOnce_stays {deliveryId : Uuid} (hid : Knows c known ⟨.delivery, deliveryId⟩)
    (ownsClient : Bool) :
    (WebhookService.deliverOnce cfg deliveryId ownsClient).Stays organizationId c known
      fun _ _ => True := by
  refine (getDelivery_stays hid).bind fun r known₁ _ hr => ?_
  cases r with
  | none => exact .pure fun _ _ => trivial
  | some d =>
    refine (getWebhook_stays ((hr d rfl).filed.parent _ rfl)).bind fun v known₂ _ _ => ?_
    cases v with
    | none => exact .pure fun _ _ => trivial
    | some v => exact performAttempt_stays d v ownsClient

theorem dispatch_stays {d : WebhookDelivery}
    (hd : (Row.delivery d : Row S).Held organizationId c known) :
    (WebhookService.dispatch cfg d).Stays organizationId c known fun _ _ => True := by
  refine .ite (.pure fun _ _ => trivial) (.ite ?_ ?_)
  · refine (deliverOnce_stays hd.key true).bind fun _ known₁ _ _ => ?_
    exact (deliveryAttrs_stays d.id).mono Set.Subset.rfl fun _ _ _ _ => trivial
  · exact (enqueue_stays hd.key).bind fun _ _ _ _ => .pure fun _ _ => trivial

theorem enqueueForTicket_stays (ticketId : Uuid) (event : String) :
    (WebhookService.enqueueForTicket cfg ticketId event).Stays organizationId c known
      fun _ _ => True := by
  unfold WebhookService.enqueueForTicket
  refine (ticketAttrs_stays ticketId).bind fun t known₁ _ ht => ?_
  have horg : t.organizationId = organizationId := Option.some.inj ht.1.filed.organization
  rw [horg]
  refine getConfig_stays.bind fun r known₂ _ hr => ?_
  cases r with
  | none => exact .pure fun _ _ => trivial
  | some v =>
    refine .ite (.pure fun _ _ => trivial) (uuid4_stays.bind fun id known₃ hle hid => ?_)
    refine (add_stays ?_).bind fun _ known₄ _ _ => flush_stays.bind fun _ known₅ _ _ => ?_
    · refine local_insert hid (fun h => by cases h) ⟨rfl, ?_⟩
      rintro parent ⟨⟩
      exact (hr v rfl).key.mono hle
    refine clock_stays.bind fun now known₆ _ _ => (setDelivery_stays _ _).bind fun _ known₇ _ _ => ?_
    refine commit_stays.bind fun _ known₈ _ _ => ?_
    refine (refreshDelivery_stays (Or.inr hid)).bind fun d known₉ _ hd => ?_
    exact (dispatch_stays hd).map fun _ _ _ => trivial

theorem upsertConfig_stays (url secret : String) (isActive : Bool) :
    (WebhookService.upsertConfig organizationId url secret isActive : M S _).Stays organizationId c known
      fun _ _ => True := by
  unfold WebhookService.upsertConfig
  refine getConfig_stays.bind fun r known₁ _ hr => ?_
  cases r with
  | none =>
    refine uuid4_stays.bind fun id known₂ _ hid => (add_stays ?_).bind fun _ known₃ _ _ => ?_
    · exact local_insert hid (fun h => by cases h) ⟨rfl, fun parent hparent => by cases hparent⟩
    refine commit_stays.bind fun _ known₄ _ _ => ?_
    exact (refreshWebhook_stays (Or.inr hid)).mono Set.Subset.rfl fun _ _ _ _ => trivial
  | some v =>
    refine (setWebhook_stays _ _).bind fun _ known₂ hle _ => commit_stays.bind fun _ known₃ hle' _ => ?_
    have hkey := (hr v rfl).key.mono (hle.trans hle')
    exact (refreshWebhook_stays hkey).mono Set.Subset.rfl fun _ _ _ _ => trivial

/-! Tickets -/

theorem createTicket_stays (actorUserId : Uuid) (title description : String)
    (priority : TicketPriority) :
    (TicketService.createTicket organizationId actorUserId title description priority :
      M S _).Stays organizationId c known fun _ _ => True := by
  unfold TicketService.createTicket
  refine uuid4_stays.bind fun id known₁ _ hid => (add_stays ?_).bind fun _ known₂ _ _ => ?_
  · exact local_insert hid (fun h => by cases h) ⟨rfl, fun parent hparent => by cases hparent⟩
  refine flush_stays.bind fun _ known₃ _ _ => uuid4_stays.bind fun eventId known₄ _ hevent => ?_
  refine (add_stays ?_).bind fun _ known₅ _ _ => ?_
  · refine local_insert hevent (fun h => by cases h) ⟨rfl, ?_⟩
    rintro parent ⟨⟩
    exact Or.inr hid
  refine (record_stays _ _ _ _ _ _).bind fun _ known₆ _ _ => commit_stays.bind fun _ known₇ _ _ => ?_
  exact (refreshTicket_stays (Or.inr hid)).mono Set.Subset.rfl fun _ _ _ _ => trivial

theorem approve_stays (ticketId actorUserId : Uuid) (edited : Option String) :
    (TicketService.approve cfg ticketId actorUserId edited).Stays organizationId c known
      fun _ _ => True := by
  unfold TicketService.approve
  refine (ticketAttrs_stays ticketId).bind fun t known₁ _ ht => .ite (.raise _) ?_
  have horg : t.organizationId = organizationId := Option.some.inj ht.1.filed.organization
  rw [horg]
  refine (setTicket_stays _ _).bind fun _ known₂ hle₂ _ => ?_
  refine (transition_stays _ _ _ _ _ _).bind fun _ known₃ hle₃ _ => ?_
  refine (record_stays _ _ _ _ _ _).bind fun _ known₄ hle₄ _ => ?_
  refine commit_stays.bind fun _ known₅ hle₅ _ => ?_
  have hknows := ht.2.mono (hle₂.trans (hle₃.trans (hle₄.trans hle₅)))
  refine (refreshTicket_stays hknows).bind fun _ known₆ _ _ => ?_
  refine (enqueueForTicket_stays _ _).bind fun _ known₇ _ _ => ?_
  exact (ticketAttrs_stays ticketId).mono Set.Subset.rfl fun _ _ _ _ => trivial

theorem reject_stays {ticketId : Uuid} (hid : Knows c known ⟨.ticket, ticketId⟩) (actorUserId : Uuid)
    (reason : Option String) :
    (TicketService.reject ticketId actorUserId reason : M S _).Stays organizationId c known
      fun _ _ => True := by
  unfold TicketService.reject
  refine (transition_stays _ _ _ _ _ _).bind fun t known₁ hle₁ ht => ?_
  have horg : t.organizationId = organizationId := Option.some.inj ht.filed.organization
  rw [horg]
  refine (record_stays _ _ _ _ _ _).bind fun _ known₂ hle₂ _ => commit_stays.bind fun _ known₃ hle₃ _ => ?_
  have hknows := hid.mono (hle₁.trans (hle₂.trans hle₃))
  exact (refreshTicket_stays hknows).mono Set.Subset.rfl fun _ _ _ _ => trivial

theorem editDraft_stays (ticketId actorUserId : Uuid) (content : String) :
    (TicketService.editDraft ticketId actorUserId content : M S _).Stays organizationId c known
      fun _ _ => True := by
  unfold TicketService.editDraft
  refine .ite (.raise _) ((ticketAttrs_stays ticketId).bind fun t known₁ _ ht => ?_)
  refine (setTicket_stays _ _).bind fun _ known₂ hle₂ _ => uuid4_stays.bind fun id known₃ hle₃ hid => ?_
  have hknows := ht.2.mono (hle₂.trans hle₃)
  refine (add_stays ?_).bind fun _ known₄ hle₄ _ => commit_stays.bind fun _ known₅ hle₅ _ => ?_
  · refine local_insert hid (fun h => by cases h) ⟨ht.1.filed.organization, ?_⟩
    rintro parent ⟨⟩
    exact hknows
  have hlater := hknows.mono (hle₄.trans hle₅)
  exact (refreshTicket_stays hlater).mono Set.Subset.rfl fun _ _ _ _ => trivial

/-! Providers and retrieval -/

theorem openaiClient_stays : (openaiClient cfg).Stays organizationId c known fun _ _ => True :=
  .ite (.raise _) (.ite (.raise _) (.pure fun _ _ => trivial))

theorem anthropicClient_stays : (anthropicClient cfg).Stays organizationId c known fun _ _ => True :=
  .ite (.raise _) (.ite (.raise _) (.pure fun _ _ => trivial))

theorem complete_stays (prompt : String) (system : Option String) (context : String) :
    (complete cfg prompt system context).Stays organizationId c known fun _ _ => True := by
  unfold complete
  split
  · refine anthropicClient_stays.bind fun _ known₁ _ _ => ?_
    exact (chatCall_stays _).bind fun _ _ _ _ => .pure fun _ _ => trivial
  · refine openaiClient_stays.bind fun _ known₁ _ _ => ?_
    exact (chatCall_stays _).bind fun _ _ _ _ => .pure fun _ _ => trivial
  · exact .pure fun _ _ => trivial

section

variable [Field S]

theorem embed_stays [DecidableEq S] (texts : List String) :
    (embed cfg texts).Stays organizationId c known fun _ _ => True := by
  unfold embed
  split
  · exact openaiClient_stays.bind fun _ known₁ _ _ => embedCall_stays _
  · exact .raise _
  · exact .pure fun _ _ => trivial

theorem search_stays [LinearOrder S] (text : String) (threshold : Option ℚ) (topK : Option Nat) :
    (RetrievalService.search cfg organizationId text threshold topK).Stays organizationId c known
      fun _ _ => True := by
  unfold RetrievalService.search
  refine (embed_stays _).bind fun vectors known₁ _ _ => ?_
  cases vectors.head? with
  | none => exact .raise _
  | some queryVec =>
    refine .ite ?_ ?_
    · refine (query_stays (.chunksByDistance organizationId _ _ _) rfl).bind fun _ known₂ _ _ => ?_
      exact .pure fun _ _ => trivial
    · refine (query_stays (.chunksOf organizationId) rfl).bind fun _ known₂ _ _ => ?_
      exact .pure fun _ _ => trivial

theorem supportWorkflow_stays [LinearOrder S] [FloorRing S] {initial : AgentState}
    (h : initial.organizationId = organizationId) :
    (Agent.runWorkflow cfg initial).Stays organizationId c known fun _ _ => True := by
  subst h
  unfold Agent.runWorkflow Agent.retrieverNode Agent.draftNode
  refine M.Stays.bind (T := fun _ _ => True) ?_ fun state known₁ _ _ => ?_
  · exact (search_stays _ _ _).bind fun _ _ _ _ => .pure fun _ _ => trivial
  refine M.Stays.bind (T := fun _ _ => True) ?_ fun state known₂ _ _ => .pure fun _ _ => trivial
  exact (complete_stays _ _ _).bind fun _ _ _ _ => .pure fun _ _ => trivial

/-! Documents -/

omit [Field S] in
theorem addChunks_stays {documentId : Uuid} (hid : documentId.session = c) (idx : Nat)
    (chunks : List String) (vectors : List (List S)) :
    (DocumentService.addChunks organizationId documentId idx chunks vectors).Stays organizationId c
      known fun _ _ => True := by
  induction chunks generalizing idx vectors known with
  | nil =>
    cases vectors with
    | nil => exact .pure fun _ _ => trivial
    | cons vector vectors => exact .raise _
  | cons chunk chunks ih =>
    cases vectors with
    | nil => exact .raise _
    | cons vector vectors =>
      refine uuid4_stays.bind fun id known₁ _ hchunk => (add_stays ?_).bind fun _ known₂ _ _ => ?_
      · refine local_insert hchunk (fun h => by cases h) ⟨rfl, ?_⟩
        rintro parent ⟨⟩
        exact Or.inr hid
      · exact ih (idx + 1) vectors

theorem createDocument_stays [DecidableEq S] (actorUserId : Uuid) (title content : String)
    (sourceType : DocumentSource) :
    (DocumentService.createDocument cfg organizationId actorUserId title content sourceType).Stays
      organizationId c known fun _ _ => True := by
  unfold DocumentService.createDocument
  refine uuid4_stays.bind fun id known₁ _ hid => (add_stays ?_).bind fun _ known₂ _ _ => ?_
  · exact local_insert hid (fun h => by cases h) ⟨rfl, fun parent hparent => by cases hparent⟩
  refine flush_stays.bind fun _ known₃ _ _ => ?_
  have hrest : ∀ (known' : Set RowKey) (chunks : List String) (vectors : List (List S)), (do
      DocumentService.addChunks organizationId id 0 chunks vectors
      commit
      let document ← refreshDocument id
      pure (document, chunks.length) : M S (Document × Nat)).Stays organizationId c known'
        fun _ _ => True := by
    intro known' chunks vectors
    refine (addChunks_stays hid 0 chunks vectors).bind fun _ known₄ _ _ => ?_
    refine commit_stays.bind fun _ known₅ _ _ => (refreshDocument_stays (Or.inr hid)).bind ?_
    exact fun _ _ _ _ => .pure fun _ _ => trivial
  refine .ite ?_ ?_
  · exact M.Stays.bind (T := fun _ _ => True) (.pure fun _ _ => trivial) fun vectors known' _ _ =>
      hrest known' _ vectors
  · exact (embed_stays _).bind fun vectors known' _ _ => hrest known' _ vectors

end

/-! Agent runs -/

theorem startRun_stays (ticketId : Uuid) (actorUserId : Option Uuid) :
    (AgentRunService.startRun ticketId actorUserId : M S _).Stays organizationId c known
      fun r known' => (Row.agentRun r : Row S).Held organizationId c known' := by
  unfold AgentRunService.startRun
  refine (ticketAttrs_stays ticketId).bind fun t known₁ _ ht => ?_
  have horg : t.organizationId = organizationId := Option.some.inj ht.1.filed.organization
  rw [horg]
  refine uuid4_stays.bind fun id known₂ hle hid => (add_stays ?_).bind fun _ known₃ _ _ => ?_
  · refine local_insert hid (fun h => by cases h) ⟨rfl, ?_⟩
    rintro parent ⟨⟩
    exact ht.2.mono hle
  refine flush_stays.bind fun _ known₄ _ _ => (record_stays _ _ _ _ _ _).bind fun _ known₅ _ _ => ?_
  exact commit_stays.bind fun _ known₆ _ _ => refreshAgentRun_stays (Or.inr hid)

theorem audit_stays {t : Ticket} (ht : (Row.ticket t : Row S).Held organizationId c known)
    (event : AuditEvent) (metadata : Meta) :
    (AgentRunService.audit t event metadata : M S _).Stays organizationId c known fun _ _ => True := by
  have horg : t.organizationId = organizationId := Option.some.inj ht.filed.organization
  unfold AgentRunService.audit
  rw [horg]
  exact record_stays _ _ _ _ _ _

theorem suggestedPriority_stays (state : AgentState) :
    (AgentRunService.suggestedPriority state : M S _).Stays organizationId c known
      fun _ _ => True := by
  unfold AgentRunService.suggestedPriority
  split
  · exact .pure fun _ _ => trivial
  · exact .pure fun _ _ => trivial
  · split
    · exact .pure fun _ _ => trivial
    · exact .raise _

theorem applyOutcome_stays {t : Ticket} (ht : (Row.ticket t : Row S).Held organizationId c known)
    (runId : Uuid) (state : AgentState) :
    (AgentRunService.applyOutcome runId t state : M S Unit).Stays organizationId c known
      fun _ _ => True := by
  refine .ite ?_ ?_
  · refine (setAgentRun_stays _ _).bind fun _ known₁ _ _ => ?_
    exact (transition_stays _ _ _ _ _ _).bind fun _ _ _ _ => .pure fun _ _ => trivial
  · refine (setAgentRun_stays _ _).bind fun _ known₁ hle₁ _ => ?_
    refine (transition_stays _ _ _ _ _ _).bind fun _ known₂ hle₂ _ => ?_
    have hlater := ht.mono (hle₁.trans hle₂)
    exact (audit_stays hlater _ _).bind fun _ _ _ _ => .pure fun _ _ => trivial

theorem applyResult_stays {t : Ticket} (ht : (Row.ticket t : Row S).Held organizationId c known)
    (runId : Uuid) (state : AgentState) :
    (AgentRunService.applyResult runId t state : M S Unit).Stays organizationId c known
      fun _ _ => True := by
  refine (audit_stays ht _ _).bind fun _ known₁ hle₁ _ => ?_
  refine (setTicket_stays _ _).bind fun _ known₂ hle₂ _ => ?_
  refine (suggestedPriority_stays _).bind fun sp known₃ hle₃ _ => ?_
  refine (setTicket_stays _ _).bind fun _ known₄ hle₄ _ => ?_
  have hlater := ht.mono (hle₁.trans (hle₂.trans (hle₃.trans hle₄)))
  refine (applyOutcome_stays hlater runId state).bind fun _ known₅ _ _ => ?_
  refine clock_stays.bind fun finished known₆ _ _ => (setAgentRun_stays _ _).bind fun _ known₇ _ _ => ?_
  exact commit_stays

theorem persistResult_stays [Field S] [LinearOrder S] [FloorRing S] {t : Ticket}
    (ht : (Row.ticket t : Row S).Held organizationId c known) (runId : Uuid) (started : Time) :
    (AgentRunService.persistResult (.support cfg) runId t started).Stays organizationId c known
      fun _ _ => True := by
  have horg : t.organizationId = organizationId := Option.some.inj ht.filed.organization
  refine M.Stays.bind (supportWorkflow_stays horg) fun state known₁ hle₁ _ => ?_
  refine clock_stays.bind fun ended known₂ hle₂ _ => (setAgentRun_stays _ _).bind fun _ known₃ hle₃ _ => ?_
  have hlater := ht.mono (hle₁.trans (hle₂.trans hle₃))
  refine (audit_stays hlater _ _).bind fun _ known₄ hle₄ _ => ?_
  exact applyResult_stays (hlater.mono hle₄) runId state

theorem announceResult_stays {runId ticketId : Uuid} (hrun : Knows c known ⟨.agentRun, runId⟩)
    (hticket : Knows c known ⟨.ticket, ticketId⟩) :
    (AgentRunService.announceResult cfg runId ticketId).Stays organizationId c known
      fun _ _ => True := by
  have hattrs : ∀ known', (agentRunAttrs runId : M S _).Stays organizationId c known'
      fun _ _ => True := fun known' =>
    (agentRunAttrs_stays runId).mono Set.Subset.rfl fun _ _ _ _ => trivial
  refine (refreshAgentRun_stays hrun).bind fun run known₁ hle _ => .ite ?_ (hattrs _)
  refine (refreshTicket_stays (hticket.mono hle)).bind fun _ known₂ _ _ => ?_
  exact (enqueueForTicket_stays _ _).bind fun _ known₃ _ _ => hattrs known₃

theorem recordFailure_stays {runId : Uuid} (hrun : Knows c known ⟨.agentRun, runId⟩) (exc : Err) :
    (AgentRunService.recordFailure runId exc : M S AgentRun).Stays organizationId c known
      fun _ _ => True := by
  refine rollback_stays.bind fun _ known₁ hle _ => ?_
  refine (getAgentRun_stays (hrun.mono hle)).bind fun r known₂ _ _ => ?_
  cases r with
  | none => exact .raise _
  | some run =>
    refine clock_stays.bind fun finished known₃ _ _ => ?_
    exact (setAgentRun_stays _ _).bind fun _ known₄ _ _ => commit_stays.bind fun _ _ _ _ => .raise _

theorem executeRun_stays [Field S] [LinearOrder S] [FloorRing S] {runId : Uuid}
    (hrun : Knows c known ⟨.agentRun, runId⟩) :
    (AgentRunService.executeRun cfg (.support cfg) runId).Stays organizationId c known
      fun _ _ => True := by
  refine (getAgentRun_stays hrun).bind fun r known₁ hle₁ hr => ?_
  cases r with
  | none => exact .raise _
  | some run =>
    refine (getTicketRow_stays ((hr run rfl).filed.parent _ rfl)).bind fun t known₂ hle₂ ht => ?_
    cases t with
    | none => exact .raise _
    | some t =>
      refine clock_stays.bind fun started known₃ hle₃ _ => ?_
      have hlater := (ht t rfl).mono hle₃
      have hrun₃ := hrun.mono (hle₁.trans (hle₂.trans hle₃))
      refine .except ?_ fun e known₄ hle₄ => recordFailure_stays (hrun₃.mono hle₄) e
      refine (persistResult_stays hlater runId started).bind fun _ known₄ hle₄ _ => ?_
      exact announceResult_stays (hrun₃.mono hle₄) (hlater.key.mono hle₄)

/-! Users and metrics -/

theorem createUser_stays (email password : String) (role : Role) :
    (UserService.createUser cfg organizationId email password role).Stays organizationId c known
      fun _ _ => True := by
  unfold UserService.createUser
  refine (query_stays (.userInOrganization organizationId _) rfl).bind fun r known₁ _ _ => ?_
  cases r with
  | some u => exact .raise _
  | none =>
    refine M.Stays.bind (T := fun _ _ => True) ?_ fun hashed known₂ _ _ => ?_
    · exact salt_stays.bind fun _ _ _ _ => .pure fun _ _ => trivial
    refine uuid4_stays.bind fun id known₃ _ hid => (add_stays ?_).bind fun _ known₄ _ _ => ?_
    · exact local_insert hid (fun h => by cases h) ⟨rfl, fun parent hparent => by cases hparent⟩
    exact commit_stays.bind fun _ known₅ _ _ => refreshUser_stays (Or.inr hid)

theorem compute_stays :
    (MetricsService.compute organizationId : M S _).Stays organizationId c known fun _ _ => True := by
  unfold MetricsService.compute
  refine (query_stays (.countTickets organizationId) rfl).bind fun _ _ _ _ => ?_
  refine (query_stays (.ticketsByStatus organizationId) rfl).bind fun _ _ _ _ => ?_
  refine (query_stays (.averageLatency organizationId) rfl).bind fun _ _ _ _ => ?_
  refine (query_stays (.averageCost organizationId) rfl).bind fun _ _ _ _ => ?_
  refine (query_stays (.countCompleted organizationId) rfl).bind fun _ _ _ _ => ?_
  refine (query_stays (.countOutcome organizationId _) rfl).bind fun _ _ _ _ => ?_
  refine (query_stays (.countOutcome organizationId _) rfl).bind fun _ _ _ _ => ?_
  refine (query_stays (.countHits organizationId) rfl).bind fun _ _ _ _ => ?_
  refine (query_stays (.countFailedRuns organizationId) rfl).bind fun _ _ _ _ => ?_
  refine (query_stays (.countFailedDeliveries organizationId) rfl).bind fun _ _ _ _ => ?_
  exact .pure fun _ _ => trivial

end AgentDesk
