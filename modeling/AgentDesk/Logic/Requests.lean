import AgentDesk.Logic.Warrants

namespace AgentDesk

variable {S α : Type} {cfg : Config S} {job : Job} {c n : Nat} {s : Ledger S}

theorem tokenPair_triple (user : User) {σ : Session S} :
    (AuthService.tokenPair cfg user).Triple (Ledger.observer cfg job c)
      (fun _ σ' s' => σ' = σ ∧ s'.writes = s.writes) (fun _ _ _ => False) σ s := by
  simp [AuthService.tokenPair, createAccessToken, createRefreshToken, createToken]

theorem register_warranted (organizationName email password : String) (hs : s.writes = []) :
    (AuthService.register cfg organizationName email password).Warranted cfg job c
      ⟨c, n, [], [], [], [], []⟩ s := by
  simp [M.Warranted, AuthService.register, hashPassword, commit, hs]
  rintro (_ | o) -
  · simp [Ledger.after, hs]
    exact fun u _ => M.warranted_of_triple (tokenPair_triple u)
  · trivial

theorem createUser_warranted (organizationId : Uuid) (email password : String) (role : Role)
    (hs : s.writes = []) :
    (UserService.createUser cfg organizationId email password role).Warranted cfg job c
      ⟨c, n, [], [], [], [], []⟩ s := by
  simp [M.Warranted, UserService.createUser, hashPassword, commit, hs]
  rintro (_ | u) -
  · simp [Ledger.after, hs]
  · trivial

theorem authenticate_triple (email password : String) {σ : Session S} (hs : s.writes = []) :
    (AuthService.authenticate cfg email password).Triple (Ledger.observer cfg job c)
      (fun _ σ' s' => σ' = σ ∧ s'.writes = []) (fun _ σ' s' => σ' = σ ∧ s'.writes = []) σ s := by
  simp [AuthService.authenticate, hs]
  rintro (_ | u) -
  · simp [Ledger.after, hs]
  · simp only [M.triple_ite]
    refine ⟨fun _ => ⟨rfl, hs⟩, fun _ => ?_⟩
    simp only [M.triple_bind, M.triple_pure]
    refine M.triple_mono (tokenPair_triple u) ?_ (fun _ _ _ h => h.elim)
    rintro _ _ s' ⟨rfl, hw⟩
    exact ⟨rfl, hw.trans hs⟩

theorem subject_triple (token : Token) (expected : TokenType) {σ : Session S} (hs : s.writes = []) :
    (subject cfg token expected).Triple (Ledger.observer cfg job c)
      (fun id σ' s' => σ' = σ ∧ s'.writes = [] ∧
        ∃ claims, token = .signed cfg.settings.jwtSecret claims ∧ claims.type = some expected ∧
          claims.sub = some id ∧ ∃ now ∈ s'.clocks, now / 1000000 ≤ claims.exp)
      (fun _ _ _ => True) σ s := by
  cases token with
  | malformed m => simp [subject, decodeToken]
  | signed key claims =>
    simp only [subject, decodeToken, M.triple_bind, M.triple_ite, M.triple_raise, triple_clock]
    refine ⟨fun _ => trivial, fun hkey => ⟨trivial, ?_⟩⟩
    rintro now _ ⟨-, rfl⟩
    refine ⟨fun _ => trivial, fun hexp => ⟨fun _ => trivial, fun htype => ?_⟩⟩
    simp only [ne_eq, not_not] at hkey htype
    rw [M.triple_pure]
    cases hsub : claims.sub with
    | none => trivial
    | some id => exact ⟨rfl, hs, claims, by rw [hkey], htype, hsub, now, by simp, not_lt.mp hexp⟩

theorem refresh_warranted (token : Token) (hs : s.writes = []) {σ : Session S} :
    (AuthService.refresh cfg token).Warranted cfg job c σ s := by
  unfold M.Warranted AuthService.refresh
  rw [M.triple_bind, M.triple_except]
  refine M.triple_mono (subject_triple token .refresh hs) ?_ (fun e _ _ _ => by cases e <;> trivial)
  rintro id _ s' ⟨rfl, hw, -⟩
  simp only [M.triple_bind, triple_query, Ledger.observer_query, hw, true_and]
  refine ⟨fun _ _ _ => trivial, ?_⟩
  rintro (_ | u) s' -
  · trivial
  · simp only [M.triple_ite]
    exact ⟨fun _ => trivial, fun _ => M.warranted_of_triple (tokenPair_triple u)⟩

theorem getCurrentUser_triple (creds : Option Token) {σ : Session S} (hs : s.writes = []) :
    (getCurrentUser cfg creds).Triple (Ledger.observer cfg job c)
      (fun u σ' s' => σ' = σ ∧ s'.writes = [] ∧ s'.Authenticates cfg creds u)
      (fun _ _ _ => True) σ s := by
  unfold getCurrentUser
  split
  · trivial
  · trivial
  · rename_i token _
    rw [M.triple_bind, M.triple_except]
    refine M.triple_mono (subject_triple token .access hs) ?_ (fun e _ _ _ => by cases e <;> trivial)
    rintro id _ s' ⟨rfl, hw, claims, rfl, htype, hsub, now, hnow, hexp⟩
    simp only [M.triple_bind, triple_query, Ledger.observer_query, hw, true_and]
    refine ⟨fun _ _ _ => trivial, ?_⟩
    rintro (_ | u) _ ⟨hu, rfl⟩
    · trivial
    · simp only [M.triple_ite]
      refine ⟨fun _ => trivial, fun hactive => ⟨rfl, hw, rfl, by simpa using hactive, ?_⟩⟩
      exact ⟨claims, rfl, htype, by rw [hsub, hu], now, hnow, hexp⟩

theorem requireRole_triple (allowed : List Role) (creds : Option Token) {σ : Session S}
    (hs : s.writes = []) (hne : allowed ≠ []) :
    (requireRole cfg allowed creds).Triple (Ledger.observer cfg job c)
      (fun u σ' s' => σ' = σ ∧ s'.writes = [] ∧ s'.Authenticates cfg creds u ∧ u.role ∈ allowed)
      (fun _ _ _ => True) σ s := by
  unfold requireRole
  rw [M.triple_bind]
  refine M.triple_mono (getCurrentUser_triple creds hs) ?_ (fun _ _ _ h => h)
  rintro u _ s' ⟨rfl, hw, hu⟩
  simp [M.triple_ite, hne, hw, hu]

/-! Endpoints -/

theorem catching_triple {p : M S α} {status : Err → Option (Nat × String)}
    {Q : α → Session S → Ledger S → Prop} {σ : Session S}
    (h : p.Triple (Ledger.observer cfg job c) Q (fun _ _ _ => True) σ s) :
    (Api.catching p status).Triple (Ledger.observer cfg job c) Q (fun _ _ _ => True) σ s := by
  unfold Api.catching
  rw [M.triple_except]
  refine M.triple_mono h (fun _ _ _ h => h) (fun e _ _ _ => ?_)
  cases status e <;> trivial

theorem load_triple (organizationId ticketId : Uuid) (hs : s.writes = []) :
    (Api.load organizationId ticketId).Triple (Ledger.observer cfg job c)
      (fun t σ' s' => t.id = ticketId ∧ t.organizationId = organizationId ∧
        σ' = ⟨c, n, [⟨t, t⟩], [], [], [], []⟩ ∧
        s' = { s with row := Function.update s.row t.id (some t) })
      (fun _ _ _ => True) ⟨c, n, [], [], [], [], []⟩ s := by
  refine catching_triple ?_
  simp [TicketService.getTicket, M.triple_ite, hs]
  rintro t rfl
  simp

theorem M.Warranted.catching {p : M S α} {status : Err → Option (Nat × String)} {σ : Session S}
    (h : p.Warranted cfg job c σ s) : (Api.catching p status).Warranted cfg job c σ s :=
  catching_triple h

/-- What follows `load` in an endpoint. -/
theorem load_warranted (u : User) (ticketId : Uuid) {creds : Option Token} (hs : s.writes = [])
    (hu : s.Authenticates cfg creds u) {f : Ticket → M S α}
    (hf : ∀ t s', t.id = ticketId → t.organizationId = u.organizationId → s'.writes = [] →
      s'.row t.id = some t → s'.Authenticates cfg creds u →
      (f t).Warranted cfg job c ⟨c, n, [⟨t, t⟩], [], [], [], []⟩ s') :
    (do let t ← Api.load u.organizationId ticketId; f t : M S α).Warranted cfg job c
      ⟨c, n, [], [], [], [], []⟩ s := by
  unfold M.Warranted
  rw [M.triple_bind]
  refine M.triple_mono (load_triple u.organizationId ticketId hs) ?_ (fun _ _ _ h => h)
  rintro t _ _ ⟨ht, horg, rfl, rfl⟩
  exact hf t _ ht horg hs (by simp) ⟨hu.read, hu.active, hu.token⟩

theorem M.Warranted.bind_pure {p : M S α} {β : Type} {f : α → β} {σ : Session S}
    (h : p.Warranted cfg job c σ s) :
    (do let a ← p; pure (f a) : M S β).Warranted cfg job c σ s := by
  unfold M.Warranted
  rw [M.triple_bind]
  exact h

theorem addChunks_triple (organizationId documentId : Uuid) :
    ∀ (chunks : List String) (vectors : List (List S)) (idx n : Nat) (new : List (Row S)),
    (DocumentService.addChunks organizationId documentId idx chunks vectors).Triple
      (Ledger.observer cfg job c)
      (fun _ σ' s' => s' = s ∧ ∃ n' more, σ' = ⟨c, n', [], [], [], [], new ++ more⟩ ∧
        ∀ row ∈ more, ∃ x : DocumentChunk S, row = .chunk x ∧ x.documentId = documentId ∧
          x.organizationId = organizationId)
      (fun _ _ _ => True) ⟨c, n, [], [], [], [], new⟩ s := by
  intro chunks
  induction chunks with
  | nil =>
    rintro (_ | ⟨v, vectors⟩) idx n new
    · exact ⟨rfl, n, [], by simp⟩
    · trivial
  | cons chunk chunks ih =>
    rintro (_ | ⟨v, vectors⟩) idx n new
    · trivial
    · simp [DocumentService.addChunks]
      refine M.triple_mono (ih vectors (idx + 1) (n + 1) _) ?_ (fun _ _ _ h => h)
      rintro - _ _ ⟨rfl, n', more, rfl, hmore⟩
      refine ⟨rfl, n', _ :: more, ⟨by simp; rfl, ?_⟩⟩
      rintro row (_ | ⟨_, hrow⟩)
      · exact ⟨_, rfl, rfl, rfl⟩
      · exact hmore row hrow


theorem embed_triple [Field S] [DecidableEq S] (texts : List String) {σ : Session S} :
    (embed cfg texts).Triple (Ledger.observer cfg job c)
      (fun _ σ' s' => σ' = σ ∧ s' = s) (fun _ _ _ => True) σ s := by
  unfold embed openaiClient
  split
  · simp only [M.triple_bind, M.triple_ite, M.triple_raise, M.triple_pure, triple_embedCall]
    refine ⟨fun _ => trivial, fun _ => ⟨fun _ => trivial, fun _ => ⟨trivial, fun _ _ _ => trivial, ?_⟩⟩⟩
    rintro r _ ⟨-, rfl⟩
    exact ⟨trivial, rfl⟩
  · trivial
  · simp

theorem createDocument_warranted [Field S] [DecidableEq S] (organizationId actorUserId : Uuid)
    (title content : String) (sourceType : DocumentSource) (hs : s.writes = []) :
    (DocumentService.createDocument cfg organizationId actorUserId title content
      sourceType).Warranted cfg job c ⟨c, n, [], [], [], [], []⟩ s := by
  have finish : ∀ (chunks : List String) (vectors : List (List S)) (s : Ledger S) (d : Document),
      s.writes = [.insert (.document d)] → d.id = ⟨c, n⟩ → d.organizationId = organizationId →
      M.Triple (Ledger.observer cfg job c) (do
        DocumentService.addChunks organizationId ⟨c, n⟩ 0 chunks vectors
        commit
        let document ← refreshDocument ⟨c, n⟩
        pure (document, chunks.length)) (fun _ _ _ => True) (fun _ _ _ => True)
        ⟨c, n + 1, [], [], [], [], []⟩ s := by
    intro chunks vectors s d hw hd horg
    rw [M.triple_bind]
    refine M.triple_mono (addChunks_triple organizationId ⟨c, n⟩ chunks vectors 0 (n + 1) []) ?_
      (fun _ _ _ h => h)
    rintro - _ s' ⟨rfl, n', more, rfl, hmore⟩
    have warranted : ∀ s₂ : Ledger S, .insert (.document d) ∈ s₂.writes →
        ∀ row ∈ more, s₂.Warrants cfg job c (.insert row) := by
      intro s₂ hw₂ row hrow
      obtain ⟨y, rfl, hdoc, hy⟩ := hmore row hrow
      exact ⟨d, hw₂, hd.trans hdoc.symm, horg.trans hy.symm⟩
    cases more with
    | nil => simp [commit, hw]
    | cons row more =>
      simp [commit, hw]
      exact ⟨warranted _ (by simp) row (by simp), fun x hx => warranted _ (by simp) x (by simp [hx])⟩
  unfold M.Warranted DocumentService.createDocument
  simp only [M.triple_bind, triple_uuid4, triple_add, triple_flush]
  simp [hs]
  split
  · exact finish _ [] _ _ rfl rfl rfl
  · rw [M.triple_bind]
    refine M.triple_mono (embed_triple _) ?_ (fun _ _ _ _ => trivial)
    rintro vectors _ _ ⟨rfl, rfl⟩
    exact finish _ vectors _ _ rfl rfl rfl

theorem query_warranted (q : Query S) {σ : Session S} (hs : s.writes = []) :
    (query q).Warranted cfg job c σ s := by
  simp [M.Warranted, hs]

theorem metrics_warranted (organizationId : Uuid) {σ : Session S} (hs : s.writes = []) :
    (MetricsService.compute organizationId).Warranted cfg job c σ s := by
  simp [M.Warranted, MetricsService.compute, Ledger.after, hs]

theorem runWorkflow_warranted (workflow : Workflow S) (u : User) (ticketId : Uuid)
    {creds : Option Token} (hs : s.writes = []) (hu : s.Authenticates cfg creds u)
    (hjob : job.runs = true) :
    (Api.runWorkflow cfg workflow u ticketId).Warranted cfg job c ⟨c, n, [], [], [], [], []⟩ s := by
  refine load_warranted u ticketId hs hu fun t s' ht horg hw hrow _ => ?_
  subst ht
  unfold M.Warranted
  rw [M.triple_ite]
  refine ⟨fun _ => trivial, fun _ => ?_⟩
  rw [M.triple_bind]
  refine M.triple_mono (startRun_triple (some u.id) hw hrow) ?_ (fun _ _ _ h => h)
  rintro r _ s'' ⟨hr, rfl, hw', hrow'⟩
  rw [M.triple_ite]
  refine ⟨fun _ => ?_, fun _ => ?_⟩
  · exact (executeRun_tracked_warranted workflow hw' (by rw [hrow', hrow])
      (Or.inr ⟨hjob, hr⟩)).bind_pure
  · simp

theorem sessionScope_warranted {p : M S α} {σ : Session S} (h : p.Warranted cfg job c σ s) :
    (sessionScope p).Warranted cfg job c σ s := by
  unfold M.Warranted M.Triple sessionScope
  rw [Framework.Program.obeys_bind]
  refine Framework.Program.obeys_mono h ?_
  rintro ⟨_ | a, σ'⟩ s' _ <;> exact ⟨trivial, fun _ _ _ => trivial⟩

theorem getDb_warranted {p : M S α} {σ : Session S} (h : p.Warranted cfg job c σ s) :
    (getDb p).Warranted cfg job c σ s := by
  refine sessionScope_warranted ?_
  unfold M.Warranted
  rw [M.triple_except]
  refine M.triple_mono h (fun _ _ _ h => h) (fun e _ _ _ => ?_)
  simp

theorem login_warranted (body : LoginRequest) (hs : s.writes = []) :
    (Api.login cfg body).Warranted cfg job c ⟨c, n, [], [], [], [], []⟩ s := by
  unfold M.Warranted Api.login
  rw [M.triple_bind, M.triple_except]
  refine M.triple_mono (authenticate_triple body.email body.password hs) ?_ ?_
  · rintro ⟨tokens, user⟩ _ s' ⟨rfl, hw⟩
    simp [record, commit, hw]
  · rintro e _ s' ⟨rfl, hw⟩
    cases e <;> simp [record, commit, hw]

section

variable [Field S] [LinearOrder S] [FloorRing S]

theorem handle_warranted (workflow : Workflow S) (u : User) (creds : Option Token)
    (action : Api.Action) (hs : s.writes = []) (hu : s.Authenticates cfg creds u)
    (hrole : u.role ∈ action.allowed) :
    (action.handle cfg workflow u).Warranted cfg (.request (.authenticated creds action)) c
      ⟨c, n, [], [], [], [], []⟩ s := by
  cases action with
  | listUsers => exact (query_warranted _ hs).bind_pure
  | createUser body =>
    exact (createUser_warranted _ _ _ _ hs).catching.bind_pure
  | createTicket body => exact (createTicket_warranted _ _ _ _ _ hs).bind_pure
  | listTickets status => exact (query_warranted _ hs).bind_pure
  | getTicket ticketId =>
    exact load_warranted u ticketId hs hu fun _ _ _ _ _ _ _ => trivial
  | listTicketEvents ticketId =>
    refine M.Warranted.bind_pure (M.Warranted.catching ?_)
    simp [M.Warranted, TicketService.listEvents, TicketService.getTicket, M.triple_ite, hs]
  | createDocument body => exact (createDocument_warranted _ _ _ _ _ hs).bind_pure
  | listDocuments => exact (query_warranted _ hs).bind_pure
  | searchDocuments body =>
    exact (M.warranted_of_triple (readOnly_triple (readOnly_search cfg _ _ _ _) hs)).bind_pure
  | runWorkflow ticketId => exact runWorkflow_warranted workflow u ticketId hs hu rfl
  | approve ticketId body =>
    refine load_warranted u ticketId hs hu fun t s' ht horg hw hrow hu' => ?_
    subst ht
    exact (approve_warranted hw hrow rfl body.editedResponse hu'
      (by simpa [Api.Action.allowed] using hrole) horg.symm).catching.bind_pure
  | reject ticketId body =>
    refine load_warranted u ticketId hs hu fun t s' ht horg hw hrow hu' => ?_
    subst ht
    exact (reject_warranted hw hrow rfl u.id body.reason).catching.bind_pure
  | editDraft ticketId body =>
    refine load_warranted u ticketId hs hu fun t s' ht horg hw hrow hu' => ?_
    subst ht
    exact (editDraft_warranted hw hrow rfl u.id body.content).catching.bind_pure
  | getWebhook => 
    refine M.Warranted.bind_pure ?_
    simp [M.Warranted, hs]
  | putWebhook body => exact (upsertConfig_warranted _ _ _ _ hs).bind_pure
  | listDeliveries => exact (query_warranted _ hs).bind_pure
  | getMetrics => exact (metrics_warranted _ hs).bind_pure

/-- Whatever a session commits, in whatever order its calls are answered, is warranted. -/
theorem Job.program_obeys (workflow : Workflow S) (job : Job) (c : Nat) :
    (job.program cfg workflow c).Obeys (Ledger.observer cfg job c) (fun _ _ => True)
      Ledger.start := by
  cases job with
  | request r =>
    simp only [Job.program, Framework.Program.obeys_bind]
    refine Framework.Program.obeys_mono (getDb_warranted ?_) (fun _ _ _ => trivial)
    cases r with
    | register body => exact (register_warranted _ _ _ rfl).catching.bind_pure
    | login body => exact login_warranted body rfl
    | refresh body => exact (refresh_warranted _ rfl).catching.bind_pure
    | authenticated creds action =>
      have hne : action.allowed ≠ [] := by cases action <;> simp [Api.Action.allowed]
      unfold M.Warranted Api.Request.handle
      rw [M.triple_bind]
      refine M.triple_mono (requireRole_triple action.allowed creds rfl hne) ?_ (fun _ _ _ h => h)
      rintro u _ s' ⟨rfl, hw, hu, hrole⟩
      exact handle_warranted workflow u creds action hw hu hrole
  | runAgent runId =>
    simp only [Job.program, Framework.Program.obeys_bind]
    have h : (Tasks.runAgent cfg workflow runId).Warranted cfg (.runAgent runId) c (.start c)
        .start :=
      (sessionScope_warranted (executeRun_warranted workflow rfl (Or.inl rfl))).bind_pure
    exact Framework.Program.obeys_mono h (fun _ _ _ => trivial)
  | deliverWebhook deliveryId retries =>
    simp only [Job.program, Framework.Program.obeys_bind]
    have h : (Tasks.deliverWebhook cfg deliveryId retries).Warranted cfg
        (.deliverWebhook deliveryId retries) c (.start c) .start := by
      unfold M.Warranted Tasks.deliverWebhook
      rw [M.triple_bind]
      refine M.triple_mono (sessionScope_warranted (deliverOnce_warranted deliveryId true rfl
        (by simp) (by simp))) ?_ (fun _ _ _ h => h)
      intro success _ _ _
      rw [M.triple_ite]
      exact ⟨fun _ => trivial, fun _ => trivial⟩
    exact Framework.Program.obeys_mono h (fun _ _ _ => trivial)

end

end AgentDesk
