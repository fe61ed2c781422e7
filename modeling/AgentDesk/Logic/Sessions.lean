import AgentDesk.Logic.Deeds
import AgentDesk.Api.Operations

namespace AgentDesk

variable {S α : Type} {cfg : Config S} {workflow : Workflow S} {c n : Nat}
  {row : Uuid → Option Ticket} {concluded : Option TicketStatus} {lost strayed : Bool}
  {hook : Option (Uuid × Option Webhook)}

@[simp] theorem plain_organization (o : Organization) :
    (@Write.insert S (.organization o)).Plain := trivial

@[simp] theorem plain_user (u : User) : (@Write.insert S (.user u)).Plain := trivial

@[simp] theorem plain_document (d : Document) : (@Write.insert S (.document d)).Plain := trivial

@[simp] theorem plain_chunk (x : DocumentChunk S) : (Write.insert (.chunk x)).Plain := trivial

theorem tokenPair_journaled (user : User) {σ : Session S} {s : Journal S} :
    (AuthService.tokenPair cfg user).Triple (Journal.observer cfg workflow)
      (fun _ σ' s' => σ' = σ ∧ s' = s) (fun _ _ _ => False) σ s := by
  simp [AuthService.tokenPair, createAccessToken, createRefreshToken, createToken]

theorem register_journaled (organizationName email password : String) :
    (AuthService.register cfg organizationName email password).Journaled cfg workflow
      ⟨c, n, [], [], [], [], []⟩ ⟨[], row, none, none, lost, strayed, hook⟩ := by
  simp [M.Journaled, AuthService.register, hashPassword, commit]
  rintro (_ | o) -
  · simp [Journal.after, deed_plain, owedAfter_none]
    exact fun _ u _ => M.triple_mono (tokenPair_journaled u) (by rintro _ _ _ ⟨-, rfl⟩; simp)
      (fun _ _ _ h => h.elim)
  · simp [Journal.after]

theorem createUser_journaled (organizationId : Uuid) (email password : String) (role : Role) :
    (UserService.createUser cfg organizationId email password role).Journaled cfg workflow
      ⟨c, n, [], [], [], [], []⟩ ⟨[], row, none, none, lost, strayed, hook⟩ := by
  simp [M.Journaled, UserService.createUser, hashPassword, commit]
  rintro (_ | u) -
  · simp [Journal.after, deed_plain, owedAfter_none]
  · simp [Journal.after]

theorem authenticate_journaled (email password : String) {σ : Session S} :
    (AuthService.authenticate cfg email password).Triple (Journal.observer cfg workflow)
      (fun _ σ' s' => σ' = σ ∧ s' = ⟨[], row, none, none, lost, strayed, hook⟩)
      (fun _ σ' s' => σ' = σ ∧ s' = ⟨[], row, none, none, lost, strayed, hook⟩) σ
      ⟨[], row, none, none, lost, strayed, hook⟩ := by
  simp [AuthService.authenticate]
  rintro (_ | u) -
  · simp [Journal.after]
  · simp only [M.triple_ite]
    refine ⟨fun _ => ⟨rfl, rfl⟩, fun _ => ?_⟩
    simp only [M.triple_bind, M.triple_pure]
    exact M.triple_mono (tokenPair_journaled u) (fun _ _ _ h => h) (fun _ _ _ h => h.elim)

theorem subject_journaled (token : Token) (expected : TokenType) {σ : Session S} :
    (subject cfg token expected).Triple (Journal.observer cfg workflow)
      (fun _ σ' s' => σ' = σ ∧ s' = ⟨[], row, none, none, lost, strayed, hook⟩)
      (fun _ _ s' => s' = ⟨[], row, none, none, lost, strayed, hook⟩) σ
      ⟨[], row, none, none, lost, strayed, hook⟩ := by
  cases token with
  | malformed m => simp [subject, decodeToken]
  | signed key claims =>
    cases hsub : claims.sub <;> simp [subject, decodeToken, M.triple_ite, hsub]

theorem refresh_journaled (token : Token) {σ : Session S} :
    (AuthService.refresh cfg token).Journaled cfg workflow σ
      ⟨[], row, none, none, lost, strayed, hook⟩ := by
  unfold M.Journaled AuthService.refresh
  rw [M.triple_bind, M.triple_except]
  refine M.triple_mono (subject_journaled token .refresh) ?_ ?_
  · rintro id _ _ ⟨rfl, rfl⟩
    simp only [M.triple_bind, triple_query]
    refine ⟨rfl, ?_, ?_⟩
    · simp
    · rintro (_ | u) _ ⟨-, rfl⟩
      · simp
      · simp only [M.triple_ite]
        refine ⟨fun _ => by simp, fun _ => ?_⟩
        exact M.triple_mono (tokenPair_journaled u) (by rintro _ _ _ ⟨-, rfl⟩; simp)
          (fun _ _ _ h => h.elim)
  · rintro e _ _ rfl
    cases e <;> simp

theorem getCurrentUser_journaled (creds : Option Token) {σ : Session S} :
    (getCurrentUser cfg creds).Triple (Journal.observer cfg workflow)
      (fun _ σ' s' => σ' = σ ∧ s' = ⟨[], row, none, none, lost, strayed, hook⟩)
      (fun _ _ s' => s' = ⟨[], row, none, none, lost, strayed, hook⟩) σ
      ⟨[], row, none, none, lost, strayed, hook⟩ := by
  unfold getCurrentUser
  split
  · rfl
  · rfl
  · rename_i token _
    rw [M.triple_bind, M.triple_except]
    refine M.triple_mono (subject_journaled token .access) ?_ ?_
    · rintro id _ _ ⟨rfl, rfl⟩
      simp only [M.triple_bind, triple_query]
      refine ⟨rfl, by simp, ?_⟩
      rintro (_ | u) _ ⟨-, rfl⟩
      · simp
      · simp [M.triple_ite]
    · rintro e _ _ rfl
      cases e <;> simp

theorem requireRole_journaled (allowed : List Role) (creds : Option Token) {σ : Session S} :
    (requireRole cfg allowed creds).Triple (Journal.observer cfg workflow)
      (fun _ σ' s' => σ' = σ ∧ s' = ⟨[], row, none, none, lost, strayed, hook⟩)
      (fun _ _ s' => s' = ⟨[], row, none, none, lost, strayed, hook⟩) σ
      ⟨[], row, none, none, lost, strayed, hook⟩ := by
  unfold requireRole
  rw [M.triple_bind]
  refine M.triple_mono (getCurrentUser_journaled creds) ?_ (fun _ _ _ h => h)
  rintro u _ _ ⟨rfl, rfl⟩
  simp [M.triple_ite]

/-! Endpoints -/

theorem M.Journaled.catching {p : M S α} {status : Err → Option (Nat × String)} {σ : Session S}
    {s : Journal S} (h : p.Journaled cfg workflow σ s) :
    (Api.catching p status).Journaled cfg workflow σ s := by
  unfold M.Journaled Api.catching
  rw [M.triple_except]
  refine M.triple_mono h (fun _ _ _ h => h) (fun e _ _ h => ?_)
  cases status e <;> exact h

theorem M.Journaled.bind_pure {p : M S α} {β : Type} {f : α → β} {σ : Session S} {s : Journal S}
    (h : p.Journaled cfg workflow σ s) :
    (do let a ← p; pure (f a) : M S β).Journaled cfg workflow σ s := by
  unfold M.Journaled
  rw [M.triple_bind]
  exact h

/-- What follows `get_ticket` in an operation. -/
theorem getTicket_journaled (organizationId ticketId : Uuid) {f : Ticket → M S α}
    (hf : ∀ t row, t.id = ticketId → row t.id = some t →
      (f t).Journaled cfg workflow ⟨c, n, [⟨t, t⟩], [], [], [], []⟩
        ⟨[], row, none, none, lost, strayed, hook⟩) :
    (do let t ← TicketService.getTicket organizationId ticketId; f t : M S α).Journaled cfg workflow
      ⟨c, n, [], [], [], [], []⟩ ⟨[], row, none, none, lost, strayed, hook⟩ := by
  simp [M.Journaled, TicketService.getTicket, M.triple_ite]
  rintro t rfl -
  exact hf t _ rfl (by simp)

/-- What follows `load` in an endpoint. -/
theorem load_journaled (organizationId ticketId : Uuid) {f : Ticket → M S α}
    (hf : ∀ t row, t.id = ticketId → row t.id = some t →
      (f t).Journaled cfg workflow ⟨c, n, [⟨t, t⟩], [], [], [], []⟩
        ⟨[], row, none, none, lost, strayed, hook⟩) :
    (do let t ← Api.load organizationId ticketId; f t : M S α).Journaled cfg workflow
      ⟨c, n, [], [], [], [], []⟩ ⟨[], row, none, none, lost, strayed, hook⟩ := by
  have hload : (Api.load organizationId ticketId).Triple (Journal.observer cfg workflow)
      (fun t σ' s' => ∃ row', t.id = ticketId ∧ row' t.id = some t ∧
        σ' = ⟨c, n, [⟨t, t⟩], [], [], [], []⟩ ∧
        s' = ⟨[], row', none, none, lost, strayed, hook⟩)
      (fun _ _ s' => s'.Settled) ⟨c, n, [], [], [], [], []⟩
      ⟨[], row, none, none, lost, strayed, hook⟩ := by
    unfold Api.load Api.catching
    rw [M.triple_except]
    refine M.triple_mono (Q := fun t σ' s' => ∃ row', t.id = ticketId ∧ row' t.id = some t ∧
        σ' = ⟨c, n, [⟨t, t⟩], [], [], [], []⟩ ∧
        s' = ⟨[], row', none, none, lost, strayed, hook⟩) (E := fun _ _ s' => s'.Settled) ?_
        (fun _ _ _ h => h) (fun e _ _ h => ?_)
    · simp [TicketService.getTicket, M.triple_ite]
      rintro t rfl -
      simp
    · cases e <;> exact h
  unfold M.Journaled
  rw [M.triple_bind]
  refine M.triple_mono hload ?_ (fun _ _ _ h => h)
  rintro t _ _ ⟨row', ht, hrow, rfl, rfl⟩
  exact hf t row' ht hrow

theorem addChunks_journaled (organizationId documentId : Uuid) :
    ∀ (chunks : List String) (vectors : List (List S)) (idx n : Nat) (new : List (Row S))
      (s : Journal S),
    (DocumentService.addChunks organizationId documentId idx chunks vectors).Triple
      (Journal.observer cfg workflow)
      (fun _ σ' s' => s' = s ∧ ∃ n' more, σ' = ⟨c, n', [], [], [], [], new ++ more⟩ ∧
        ∀ row ∈ more, ∃ x : DocumentChunk S, row = .chunk x)
      (fun _ _ s' => s' = s) ⟨c, n, [], [], [], [], new⟩ s := by
  intro chunks
  induction chunks with
  | nil =>
    rintro (_ | ⟨v, vectors⟩) idx n new s
    · exact ⟨rfl, n, [], by simp⟩
    · rfl
  | cons chunk chunks ih =>
    rintro (_ | ⟨v, vectors⟩) idx n new s
    · rfl
    · simp [DocumentService.addChunks]
      refine M.triple_mono (ih vectors (idx + 1) (n + 1) _ s) ?_ (fun _ _ _ h => h)
      rintro - _ _ ⟨rfl, n', more, rfl, hmore⟩
      refine ⟨rfl, n', _ :: more, ⟨by simp; rfl, ?_⟩⟩
      rintro row (_ | ⟨_, hrow⟩)
      · exact ⟨_, rfl⟩
      · exact hmore row hrow

theorem embed_journaled [Field S] [DecidableEq S] (texts : List String) {σ : Session S}
    {s : Journal S} (hs : s.owed = none) :
    (embed cfg texts).Triple (Journal.observer cfg workflow)
      (fun _ σ' s' => σ' = σ ∧ s' = s) (fun _ _ s' => s' = s) σ s := by
  have hfail : s.fail = s := by
    obtain ⟨writes, row, owed, concluded, lost, strayed, hook⟩ := s
    obtain rfl : owed = none := hs
    simp
  unfold embed openaiClient
  split
  · simp only [M.triple_bind, M.triple_ite, M.triple_raise, M.triple_pure, triple_embedCall]
    refine ⟨fun _ => trivial, fun _ => ⟨fun _ => trivial, fun _ => ⟨trivial, ?_, ?_⟩⟩⟩
    · rintro e _ ⟨-, rfl⟩
      exact hfail
    · rintro r _ ⟨-, rfl⟩
      exact ⟨trivial, rfl⟩
  · rfl
  · simp

theorem createDocument_journaled [Field S] [DecidableEq S] (organizationId actorUserId : Uuid)
    (title content : String) (sourceType : DocumentSource) :
    (DocumentService.createDocument cfg organizationId actorUserId title content
      sourceType).Journaled cfg workflow ⟨c, n, [], [], [], [], []⟩
      ⟨[], row, none, none, lost, strayed, hook⟩ := by
  have finish : ∀ (chunks : List String) (vectors : List (List S)) (d : Document),
      M.Journaled cfg workflow (do
        DocumentService.addChunks organizationId ⟨c, n⟩ 0 chunks vectors
        commit
        let document ← refreshDocument ⟨c, n⟩
        pure (document, chunks.length)) ⟨c, n + 1, [], [], [], [], []⟩
        ⟨[.insert (.document d)], row, none, none, lost, strayed, hook⟩ := by
    intro chunks vectors d
    unfold M.Journaled
    rw [M.triple_bind]
    refine M.triple_mono (addChunks_journaled organizationId ⟨c, n⟩ chunks vectors 0 (n + 1) [] _) ?_
      (by rintro _ _ _ rfl; simp)
    rintro - _ _ ⟨rfl, n', more, rfl, hmore⟩
    have plain : ∀ r ∈ more, (Write.insert r).Plain := by
      intro r hr
      obtain ⟨x, rfl⟩ := hmore r hr
      trivial
    cases more with
    | nil => simp [commit, deed_plain, owedAfter_none]
    | cons r more =>
      simp [commit, owedAfter_none]
      refine deed_plain ?_
      simpa [or_imp, forall_and] using plain
  unfold M.Journaled DocumentService.createDocument
  simp only [M.triple_bind, triple_uuid4, triple_add, triple_flush]
  simp
  split
  · exact finish _ [] _
  · rw [M.triple_bind]
    refine M.triple_mono (embed_journaled _ rfl) ?_ (by rintro _ _ _ rfl; simp)
    rintro vectors _ _ ⟨rfl, rfl⟩
    exact finish _ vectors _

theorem query_journaled (q : Query S) (hq : ∀ (s : Journal S) (r : q.Result),
      s.after (.query q) (no_index (.ok r)) = s) {σ : Session S} :
    (query q).Journaled cfg workflow σ ⟨[], row, none, none, lost, strayed, hook⟩ := by
  simp [M.Journaled, hq]

theorem metrics_journaled (organizationId : Uuid) {σ : Session S} :
    (MetricsService.compute organizationId).Journaled cfg workflow σ
      ⟨[], row, none, none, lost, strayed, hook⟩ := by
  simp [M.Journaled, MetricsService.compute, Journal.after]

theorem runWorkflow_journaled (u : User) (ticketId : Uuid) :
    (Api.runWorkflow cfg workflow u ticketId).Journaled cfg workflow ⟨c, n, [], [], [], [], []⟩
      ⟨[], row, none, none, lost, strayed, hook⟩ := by
  refine load_journaled u.organizationId ticketId fun t row' ht hrow => ?_
  subst ht
  unfold M.Journaled
  rw [M.triple_ite]
  refine ⟨fun _ => by simp, fun _ => ?_⟩
  rw [M.triple_bind]
  refine M.triple_mono (startRun_journaled (some u.id) hrow) ?_ (fun _ _ _ h => h)
  rintro r _ _ ⟨rfl, row'', rfl, hrow''⟩
  rw [M.triple_ite]
  refine ⟨fun _ => ?_, fun _ => ?_⟩
  · exact (executeRun_tracked_journaled hrow'').bind_pure
  · simp

theorem M.Journaled.sessionScope {p : M S α} {σ : Session S} {s : Journal S}
    (h : p.Journaled cfg workflow σ s) : (sessionScope p).Journaled cfg workflow σ s := by
  unfold M.Journaled M.Triple AgentDesk.sessionScope
  rw [Framework.Program.obeys_bind]
  refine Framework.Program.obeys_mono h ?_
  rintro ⟨_ | a, σ'⟩ s' hs <;>
  · refine ⟨trivial, ?_⟩
    rintro _ _ ⟨-, rfl⟩
    exact Journal.Settled.later hs rfl id id rfl rfl

theorem M.Journaled.getDb {p : M S α} {σ : Session S} {s : Journal S}
    (h : p.Journaled cfg workflow σ s) : (getDb p).Journaled cfg workflow σ s := by
  refine M.Journaled.sessionScope ?_
  unfold M.Journaled
  rw [M.triple_except]
  refine M.triple_mono h (fun _ _ _ h => h) (fun e _ s' hs => ?_)
  have later : ∀ lost, (s'.lost = true → lost = true) →
      (⟨[], s'.row, s'.owed, s'.concluded, lost, s'.strayed, s'.hook⟩ : Journal S).Settled :=
    fun lost hl => hs.later rfl hl id rfl rfl
  simp +contextual [Journal.fail, later]

theorem login_journaled (body : LoginRequest) :
    (Api.login cfg body).Journaled cfg workflow ⟨c, n, [], [], [], [], []⟩
      ⟨[], row, none, none, lost, strayed, hook⟩ := by
  unfold M.Journaled Api.login
  rw [M.triple_bind, M.triple_except]
  refine M.triple_mono (authenticate_journaled body.email body.password) ?_ ?_
  · rintro ⟨tokens, user⟩ _ _ ⟨rfl, rfl⟩
    simp [record, commit, deed_plain, owedAfter_none]
  · rintro e _ _ ⟨rfl, rfl⟩
    cases e <;> simp [record, commit, deed_plain, owedAfter_none]

section

variable [Field S] [LinearOrder S] [FloorRing S]

theorem handle_journaled (u : User) (action : Api.Action) :
    (action.handle cfg workflow u).Journaled cfg workflow ⟨c, n, [], [], [], [], []⟩
      ⟨[], row, none, none, lost, strayed, hook⟩ := by
  cases action with
  | listUsers => exact (query_journaled _ fun _ _ => rfl).bind_pure
  | createUser body => exact (createUser_journaled _ _ _ _).catching.bind_pure
  | createTicket body => exact (createTicket_journaled _ _ _ _ _).bind_pure
  | listTickets status => exact (query_journaled _ fun _ _ => rfl).bind_pure
  | getTicket ticketId => exact load_journaled _ ticketId fun _ _ _ _ => by simp [M.Journaled]
  | listTicketEvents ticketId =>
    refine M.Journaled.bind_pure (M.Journaled.catching ?_)
    refine getTicket_journaled _ ticketId fun t row' _ _ => query_journaled _ fun _ _ => rfl
  | createDocument body => exact (createDocument_journaled _ _ _ _ _).bind_pure
  | listDocuments => exact (query_journaled _ fun _ _ => rfl).bind_pure
  | searchDocuments body =>
    refine M.Journaled.bind_pure (M.triple_mono (readOnly_journaled (readOnly_search cfg _ _ _ _))
      ?_ ?_)
    · rintro _ _ _ ⟨-, rfl, -⟩
      simp
    · rintro _ _ _ ⟨-, rfl⟩
      simp
  | runWorkflow ticketId => exact runWorkflow_journaled u ticketId
  | approve ticketId body =>
    refine load_journaled _ ticketId fun t row' ht hrow => ?_
    subst ht
    exact (approve_journaled hrow u.id body.editedResponse).catching.bind_pure
  | reject ticketId body =>
    refine load_journaled _ ticketId fun t row' ht hrow => ?_
    subst ht
    exact (reject_journaled hrow u.id body.reason).catching.bind_pure
  | editDraft ticketId body =>
    refine load_journaled _ ticketId fun t row' ht hrow => ?_
    subst ht
    exact (editDraft_journaled hrow u.id body.content).catching.bind_pure
  | getWebhook =>
    refine M.Journaled.bind_pure ?_
    simp [M.Journaled]
  | putWebhook body => exact (upsertConfig_journaled _ _ _ _).bind_pure
  | listDeliveries => exact (query_journaled _ fun _ _ => rfl).bind_pure
  | getMetrics => exact (metrics_journaled _).bind_pure

/-- Every transaction of every job is a deed, and a job that comes to its end owes nothing. -/
theorem Job.program_journaled (cfg : Config S) (workflow : Workflow S) (job : Job) (c : Nat) :
    (job.program cfg workflow c).Obeys (Journal.observer cfg workflow) (fun _ s => s.Settled)
      Journal.start := by
  have settled : ∀ {α : Type} {p : M S α}, p.Journaled cfg workflow (.start c) .start →
      (p (.start c)).Obeys (Journal.observer cfg workflow) (fun _ s => s.Settled) .start := by
    intro α p h
    refine Framework.Program.obeys_mono h ?_
    rintro ⟨_ | a, σ'⟩ s' hs <;> exact hs
  cases job with
  | request r =>
    simp only [Job.program, Framework.Program.obeys_bind]
    refine settled (M.Journaled.getDb ?_)
    cases r with
    | register body => exact (register_journaled _ _ _).catching.bind_pure
    | login body => exact login_journaled body
    | refresh body => exact (refresh_journaled _).catching.bind_pure
    | authenticated creds action =>
      unfold M.Journaled Api.Request.handle
      rw [M.triple_bind]
      refine M.triple_mono (requireRole_journaled action.allowed creds) ?_
        (by rintro _ _ _ rfl; simp)
      rintro u _ _ ⟨rfl, rfl⟩
      exact handle_journaled u action
  | runAgent runId =>
    simp only [Job.program, Framework.Program.obeys_bind]
    exact settled (executeRun_journaled.sessionScope.bind_pure)
  | deliverWebhook deliveryId retries =>
    simp only [Job.program, Framework.Program.obeys_bind]
    refine settled ?_
    unfold M.Journaled Tasks.deliverWebhook
    rw [M.triple_bind]
    refine M.triple_mono (deliverOnce_journaled deliveryId true (by simp) (by simp)).sessionScope ?_
      (fun _ _ _ h => h)
    intro success _ _ hs
    rw [M.triple_ite]
    exact ⟨fun _ => hs, fun _ => hs⟩

end

/-- The same of the operations on tickets. -/
theorem Operation.program_journaled (cfg : Config S) (workflow : Workflow S)
    (operation : Operation) (c : Nat) :
    (operation.program cfg workflow c).Obeys (Journal.observer cfg workflow)
      (fun _ s => s.Settled) Journal.start := by
  have run : (operation.run cfg workflow).Journaled cfg workflow (.start c) .start := by
    cases operation with
    | createTicket => exact (createTicket_journaled _ _ _ _ _).bind_pure
    | approve organizationId ticketId =>
      refine getTicket_journaled _ ticketId fun t row' ht hrow => ?_
      subst ht
      exact (approve_journaled hrow _ _).bind_pure
    | reject organizationId ticketId =>
      refine getTicket_journaled _ ticketId fun t row' ht hrow => ?_
      subst ht
      exact (reject_journaled hrow _ _).bind_pure
    | editDraft organizationId ticketId =>
      refine getTicket_journaled _ ticketId fun t row' ht hrow => ?_
      subst ht
      exact (editDraft_journaled hrow _ _).bind_pure
    | startRun organizationId ticketId =>
      refine getTicket_journaled _ ticketId fun t row' ht hrow => ?_
      subst ht
      refine M.Journaled.bind_pure (M.triple_mono (startRun_journaled _ hrow) ?_ (fun _ _ _ h => h))
      rintro r _ _ ⟨rfl, row'', rfl, -⟩
      simp
    | executeRun => exact executeRun_journaled.bind_pure
  simp only [Operation.program, Framework.Program.obeys_bind, Framework.Program.obeys_ret]
  have session : ∀ p : M S Unit, p.Journaled cfg workflow (.start c) .start →
      (p (.start c)).Obeys (Journal.observer cfg workflow) (fun _ s => s.Settled) .start := by
    intro p h
    refine Framework.Program.obeys_mono h ?_
    rintro ⟨_ | a, σ'⟩ s' hs <;> exact hs
  cases operation with
  | executeRun => exact session _ run.sessionScope
  | _ => exact session _ run.getDb

end AgentDesk
