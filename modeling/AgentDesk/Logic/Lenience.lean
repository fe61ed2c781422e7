import AgentDesk.Logic.Conclusions

namespace AgentDesk

open Framework (Program)

variable {S α : Type} {cfg : Config S} {workflow : Workflow S} {D : List (Made S) → Prop}
  {I : Session S → List (Made S) → Prop} {σ : Session S} {cs : List (Made S)}

/-! Invariants that every service keeps unless it announces something -/

/-- An invariant that concerns neither the runs that a session holds nor, deliveries apart, the rows
that it adds. -/
structure Lenient (I : Session S → List (Made S) → Prop) : Prop where
  runs : ∀ {σ : Session S} {cs : List (Made S)} (rs : List (Tracked AgentRun)), I σ cs →
    I { σ with agentRuns := rs } cs
  row : ∀ {σ : Session S} {cs : List (Made S)} (row : Row S), (∀ d, row ≠ .delivery d) → I σ cs →
    I { σ with new := σ.new ++ [row] } cs

namespace Lenient

variable (hl : Lenient I)
include hl

theorem add {row : Row S} (hrow : ∀ d, row ≠ .delivery d) : (AgentDesk.add row).Keeps D I :=
  fun _ _ hI => hl.row row hrow hI

theorem setAgentRun (runId : Uuid) (p : AgentRunPatch) :
    (AgentDesk.setAgentRun runId p : M S Unit).Keeps D I := fun _ _ hI => hl.runs _ hI

variable (h : Routine D I)
include h

theorem getAgentRun (runId : Uuid) : (AgentDesk.getAgentRun runId : M S _).Keeps D I := by
  intro σ cs hI
  rw [triple_getAgentRun]
  refine ⟨fun _ _ => hI, fun _ => ⟨trivial, fun _ _ _ => trivial, ?_, ?_⟩⟩
  · rintro cs' ⟨-, rfl⟩
    exact h.read hI (reading_query .refl _ _)
  · rintro r cs' ⟨-, rfl⟩
    exact hl.runs _ (h.read hI (reading_query .refl _ _))

theorem refreshAgentRun (runId : Uuid) : (AgentDesk.refreshAgentRun runId : M S _).Keeps D I := by
  intro σ cs hI
  rw [triple_refreshAgentRun]
  refine ⟨trivial, fun _ _ _ => trivial, fun _ _ => trivial, ?_⟩
  rintro r cs' ⟨-, rfl⟩
  exact hl.runs _ (h.read hI (reading_query .refl _ _))

theorem record (event : AuditEvent) (organizationId actorUserId : Option Uuid)
    (targetType targetId : Option String) (metadata : Option Meta) :
    (AgentDesk.record event organizationId actorUserId targetType targetId metadata false :
      M S _).Keeps D I :=
  record_keeps h event (fun a _ hI => hl.row (.auditLog a) (fun d hd => by cases hd) hI) _ _ _ _ _

theorem transition (ticketId : Uuid) (toStatus : TicketStatus) (actorUserId : Option Uuid)
    (eventType : String) (message : Option String) :
    (TicketService.transition ticketId toStatus actorUserId eventType message true :
      M S _).Keeps D I :=
  transition_keeps h (fun e hI => hl.row (.ticketEvent e) (fun d hd => by cases hd) hI) _ _ _ _ _

/-! Tickets -/

theorem createTicket (organizationId actorUserId : Uuid) (title description : String)
    (priority : TicketPriority) :
    (TicketService.createTicket organizationId actorUserId title description priority :
      M S _).Keeps D I := by
  refine h.uuid4.bind fun id => (h.add rfl).bind fun _ => h.flush.bind fun _ => ?_
  refine h.uuid4.bind fun eventId => (hl.add fun d hd => by cases hd).bind fun _ => ?_
  refine (hl.record h _ _ _ _ _ _).bind fun _ => h.commit.bind fun _ => ?_
  exact h.refreshTicket id

theorem reject (ticketId actorUserId : Uuid) (reason : Option String) :
    (TicketService.reject ticketId actorUserId reason : M S _).Keeps D I := by
  refine (hl.transition h _ _ _ _ _).bind fun t => (hl.record h _ _ _ _ _ _).bind fun _ => ?_
  exact h.commit.bind fun _ => h.refreshTicket ticketId

theorem editDraft (ticketId actorUserId : Uuid) (content : String) :
    (TicketService.editDraft ticketId actorUserId content : M S _).Keeps D I := by
  refine M.Keeps.ite (M.Keeps.raise _) ((h.ticketAttrs ticketId).bind fun t => ?_)
  refine (h.setTicket _ _).bind fun _ => h.uuid4.bind fun id => ?_
  refine (hl.add fun d hd => by cases hd).bind fun _ => h.commit.bind fun _ => ?_
  exact h.refreshTicket ticketId

theorem approve
    (hannounce : ∀ ticketId event, (WebhookService.enqueueForTicket cfg ticketId event).Keeps D I)
    (ticketId actorUserId : Uuid) (edited : Option String) :
    (TicketService.approve cfg ticketId actorUserId edited).Keeps D I := by
  refine (h.ticketAttrs ticketId).bind fun t => M.Keeps.ite (M.Keeps.raise _) ?_
  refine (h.setTicket _ _).bind fun _ => (hl.transition h _ _ _ _ _).bind fun _ => ?_
  refine (hl.record h _ _ _ _ _ _).bind fun _ => h.commit.bind fun _ => ?_
  refine (h.refreshTicket ticketId).bind fun _ => (hannounce _ _).bind fun _ => ?_
  exact h.ticketAttrs ticketId

/-! Agent runs -/

theorem audit (ticket : Ticket) (event : AuditEvent) (metadata : Meta) :
    (AgentRunService.audit ticket event metadata : M S _).Keeps D I :=
  hl.record h event _ _ _ _ _

theorem startRun (ticketId : Uuid) (actorUserId : Option Uuid) (hI : I σ cs) :
    (AgentRunService.startRun ticketId actorUserId).Triple (atCommit D)
      (fun _ σ' cs' => I σ' cs' ∧ (Book.ofCalls cs').pending = []) (fun _ _ _ => True) σ cs := by
  unfold AgentRunService.startRun
  rw [M.triple_bind, triple_ticketAttrs]
  refine ⟨fun o _ => ?_, fun _ => trivial⟩
  rw [M.triple_bind, triple_uuid4, M.triple_bind, triple_add, M.triple_bind]
  have hrun := hl.row (σ := { σ with draws := σ.draws + 1 })
    (.agentRun ⟨⟨σ.conn, σ.draws⟩, ticketId, o.cur.organizationId, .running, none, none, false, none,
      none, none, none, none, none, none, none, none, 0⟩) (fun d hd => by cases hd)
    (h.same hI rfl rfl rfl)
  refine M.triple_mono (h.flush _ _ hrun) ?_ (fun _ _ _ h => h)
  intro _ σ₁ cs₁ h₁
  rw [M.triple_bind]
  refine M.triple_mono (hl.record h _ _ _ _ _ _ _ _ h₁) ?_ (fun _ _ _ h => h)
  intro _ σ₂ cs₂ h₂
  rw [M.triple_bind]
  refine M.triple_mono (h.commit_closed h₂) ?_ (fun _ _ _ h => h)
  intro _ σ₃ cs₃ h₃
  obtain ⟨h₃, hclosed⟩ := h₃
  rw [triple_refreshAgentRun]
  refine ⟨trivial, fun _ _ _ => trivial, fun _ _ => trivial, ?_⟩
  rintro r cs' ⟨-, rfl⟩
  have hread := reading_query (@Reading.refl S cs₃) (.agentRun ⟨σ.conn, σ.draws⟩) (some r)
  refine ⟨hl.runs _ (h.read h₃ hread), ?_⟩
  rw [hread.books]
  exact hclosed

theorem applyOutcome (runId : Uuid) (ticket : Ticket) (state : AgentState) :
    (AgentRunService.applyOutcome runId ticket state : M S Unit).Keeps D I := by
  refine M.Keeps.ite ?_ ?_
  · refine (hl.setAgentRun _ _).bind fun _ => ?_
    exact (hl.transition h _ _ _ _ _).bind fun _ => M.Keeps.pure _
  · refine (hl.setAgentRun _ _).bind fun _ => (hl.transition h _ _ _ _ _).bind fun _ => ?_
    exact (hl.audit h _ _ _).bind fun _ => M.Keeps.pure _

theorem applyResult (runId : Uuid) (ticket : Ticket) (state : AgentState) :
    (AgentRunService.applyResult runId ticket state : M S Unit).Keeps D I := by
  have hpriority : (AgentRunService.suggestedPriority state : M S _).Keeps D I :=
    fun _ _ hI => suggestedPriority_triple state (fun _ => hI) (fun _ => trivial)
  refine (hl.audit h _ _ _).bind fun _ => (h.setTicket _ _).bind fun _ => ?_
  refine hpriority.bind fun sp => (h.setTicket _ _).bind fun _ => ?_
  refine (hl.applyOutcome h runId ticket state).bind fun _ => h.clock.bind fun finished => ?_
  exact (hl.setAgentRun _ _).bind fun _ => h.commit

theorem persistResult (runId : Uuid) (ticket : Ticket) (started : Time) (hI : I σ cs)
    (hclosed : (Book.ofCalls cs).pending = []) :
    (AgentRunService.persistResult workflow runId ticket started).Triple (atCommit D) (fun _ => I)
      (fun _ _ _ => True) σ cs := by
  have hrest : ∀ state, (do
      let ended ← clock
      AgentDesk.setAgentRun runId (AgentRunService.resultPatch state ((ended - started) / 1000))
      let _ ← AgentRunService.audit ticket .retrievalCompleted
        [("hits", .int ((state.retrieved.getD []).map RetrievedRef.chunkId).length),
          ("hit", .bool (state.retrievalHit.getD false))]
      AgentRunService.applyResult runId ticket state : M S Unit).Keeps D I := by
    intro state
    refine h.clock.bind fun ended => (hl.setAgentRun _ _).bind fun _ => ?_
    exact (hl.audit h _ _ _).bind fun _ => hl.applyResult h runId ticket state
  unfold AgentRunService.persistResult
  rw [M.triple_bind]
  refine M.triple_mono (readOnly_reading (workflow.readOnly _) hclosed) ?_ (fun _ _ _ h => h)
  rintro state σ₁ cs₁ ⟨rfl, hread⟩
  exact hrest state _ _ (h.read hI hread)

theorem announceResult
    (hannounce : ∀ ticketId event, (WebhookService.enqueueForTicket cfg ticketId event).Keeps D I)
    (runId ticketId : Uuid) : (AgentRunService.announceResult cfg runId ticketId).Keeps D I := by
  have hattrs := h.agentRunAttrs runId
  refine (hl.refreshAgentRun h runId).bind fun run => M.Keeps.ite ?_ hattrs
  refine (h.refreshTicket ticketId).bind fun _ => ?_
  exact (hannounce _ _).bind fun _ => hattrs

theorem executeRun
    (hannounce : ∀ ticketId event, (WebhookService.enqueueForTicket cfg ticketId event).Keeps D I)
    {runId : Uuid} (hfailure : ∀ exc (σ : Session S) cs,
      (AgentRunService.recordFailure runId exc : M S AgentRun).Triple (atCommit D) (fun _ => I)
        (fun _ _ _ => True) σ cs)
    (hI : I σ cs) (hclosed : (Book.ofCalls cs).pending = []) :
    (AgentRunService.executeRun cfg workflow runId).Triple (atCommit D) (fun _ => I)
      (fun _ _ _ => True) σ cs := by
  have hexecute : ∀ (ticket : Ticket) (σ : Session S) (cs : List (Made S)), I σ cs →
      (Book.ofCalls cs).pending = [] → (do
        let started ← clock
        M.except
          (do
            AgentRunService.persistResult workflow runId ticket started
            AgentRunService.announceResult cfg runId ticket.id)
          (AgentRunService.recordFailure runId) : M S AgentRun).Triple (atCommit D)
        (fun _ => I) (fun _ _ _ => True) σ cs := by
    intro ticket σ cs hI hclosed
    have hfail := fun e (σ' : Session S) cs' (_ : True) => hfailure e σ' cs'
    rw [M.triple_bind, triple_clock]
    refine ⟨trivial, ?_⟩
    rintro started cs₁ ⟨-, rfl⟩
    have hread := reading_clock (@Reading.refl S cs) started
    rw [← hread.books] at hclosed
    rw [M.triple_except, M.triple_bind]
    refine M.triple_mono (hl.persistResult h runId ticket started (h.read hI hread) hclosed) ?_ hfail
    intro _ σ' cs' h'
    exact M.triple_mono (hl.announceResult h hannounce runId ticket.id σ' cs' h')
      (fun _ _ _ h => h) hfail
  have hload : ∀ (execute : Option Ticket → M S AgentRun) (run : AgentRun) (σ : Session S)
      (cs : List (Made S)), I σ cs → (Book.ofCalls cs).pending = [] →
      (∀ cs, (execute none).Triple (atCommit D) (fun _ => I) (fun _ _ _ => True) σ cs) →
      (∀ (ticket : Ticket) (σ : Session S) (cs : List (Made S)), I σ cs →
        (Book.ofCalls cs).pending = [] →
          (execute (some ticket)).Triple (atCommit D) (fun _ => I) (fun _ _ _ => True) σ cs) →
      (getTicketRow run.ticketId >>= execute).Triple (atCommit D) (fun _ => I)
        (fun _ _ _ => True) σ cs := by
    intro execute run σ cs hI hclosed hnothing hexecute
    rw [M.triple_bind, triple_getTicketRow]
    refine ⟨fun o _ => hexecute o.cur σ cs hI hclosed, fun _ =>
      ⟨trivial, fun _ _ _ => trivial, fun cs' _ => hnothing cs', ?_⟩⟩
    rintro t cs' ⟨-, rfl⟩
    have hread := reading_query (@Reading.refl S cs) (.ticket run.ticketId) (some t)
    rw [← hread.books] at hclosed
    exact hexecute t _ _ (h.same (h.read hI hread) rfl rfl rfl) hclosed
  unfold AgentRunService.executeRun
  rw [M.triple_bind, triple_getAgentRun]
  refine ⟨fun o _ => hload _ o.cur σ cs hI hclosed (fun _ => trivial) hexecute,
    fun _ => ⟨trivial, fun _ _ _ => trivial, fun _ _ => trivial, ?_⟩⟩
  rintro r cs' ⟨-, rfl⟩
  have hread := reading_query (@Reading.refl S cs) (.agentRun runId) (some r)
  rw [← hread.books] at hclosed
  exact hload _ r _ _ (hl.runs _ (h.read hI hread)) hclosed (fun _ => trivial) hexecute

theorem recordFailure
    (hexpired : ∀ (σ : Session S) cs u, I σ.expired (cs ++ [⟨.rollback, .ok u⟩]))
    (runId : Uuid) (exc : Err) (σ : Session S) (cs : List (Made S)) :
    (AgentRunService.recordFailure runId exc : M S α).Triple (atCommit D) (fun _ => I)
      (fun _ _ _ => True) σ cs := by
  unfold AgentRunService.recordFailure
  rw [M.triple_bind, triple_rollback]
  refine ⟨trivial, fun _ _ _ => trivial, ?_⟩
  rintro u cs' ⟨-, rfl⟩
  have hloaded := hl.getAgentRun h runId _ _ (hexpired σ cs u)
  rw [M.triple_bind]
  refine M.triple_mono hloaded ?_ (fun _ _ _ h => h)
  intro r σ' cs' h'
  cases r with
  | none => trivial
  | some r =>
    have hfailed : (do
        let finished ← clock
        AgentDesk.setAgentRun runId
          { status := some .failed, error := some (some exc.str), finishedAt := some (some finished) }
        commit
        M.raise exc : M S α).Keeps D I := by
      refine h.clock.bind fun finished => (hl.setAgentRun _ _).bind fun _ => ?_
      exact h.commit.bind fun _ => M.Keeps.raise exc
    exact hfailed σ' cs' h'

/-! The endpoints -/

theorem runWorkflow {c : Nat}
    (hannounce : ∀ ticketId event, (WebhookService.enqueueForTicket cfg ticketId event).Keeps D I)
    (hfailure : ∀ runId exc (σ : Session S) cs,
      (AgentRunService.recordFailure runId exc : M S AgentRun).Triple (atCommit D) (fun _ => I)
        (fun _ _ _ => True) σ cs)
    (hI : I (.start c) cs) (u : User) (ticketId : Uuid) :
    (Api.runWorkflow cfg workflow u ticketId).Complies D (.start c) cs := by
  unfold M.Complies Api.runWorkflow
  rw [M.triple_bind]
  refine M.triple_mono (load_reads u.organizationId ticketId) ?_ (fun _ _ _ h => h)
  intro t σ₁ cs₁ hload
  obtain ⟨-, -, rfl, rfl⟩ := hload
  have hread := reading_query (@Reading.refl S cs) (.ticket ticketId) (some t)
  have hI₁ : I ⟨c, 0, [⟨t, t⟩], [], [], [], []⟩ (cs ++ [⟨.query (.ticket ticketId), .ok (some t)⟩]) :=
    h.same (h.read hI hread) rfl rfl rfl
  rw [M.triple_ite]
  refine ⟨fun _ => trivial, fun _ => ?_⟩
  rw [M.triple_bind]
  refine M.triple_mono (hl.startRun h ticketId (some u.id) hI₁) ?_ (fun _ _ _ h => h)
  intro r σ₂ cs₂ h₂
  rw [M.triple_ite]
  refine ⟨fun _ => ?_, fun _ => ?_⟩
  · have hexecute := @executeRun S cfg workflow D I σ₂ cs₂ hl h hannounce r.id (hfailure r.id) h₂.1 h₂.2
    exact (M.complies_of_triple hexecute).bind_pure
  · exact ((h.enqueue _).bind fun _ => M.Keeps.pure _).complies h₂.1

omit hl in
theorem load (organizationId ticketId : Uuid) :
    (Api.load organizationId ticketId : M S Ticket).Keeps D I := by
  refine M.Keeps.catching ((h.getTicketRow ticketId).bind fun t => ?_)
  cases t with
  | none => exact M.Keeps.raise _
  | some t => exact M.Keeps.ite (M.Keeps.raise _) (M.Keeps.pure t)

omit hl in
theorem login {c : Nat} (hI : I (.start c) []) (body : LoginRequest) :
    (Api.login cfg body).Complies D (.start c) [] := by
  have hauth : (AuthService.authenticate cfg body.email body.password).Triple (atCommit D)
      (fun _ => I) (fun _ => I) (.start c) [] := by
    unfold AuthService.authenticate
    rw [M.triple_bind, triple_query]
    refine ⟨trivial, ?_, ?_⟩
    · rintro e cs' ⟨-, rfl⟩
      exact h.read hI (Reading.refl.snoc rfl rfl rfl)
    · rintro u cs' ⟨-, rfl⟩
      have hI₁ := h.read hI (reading_query .refl (.userByEmail (cfg.platform.lower body.email)) u)
      cases u with
      | none => exact hI₁
      | some u =>
        rw [M.triple_ite]
        refine ⟨fun _ => hI₁, fun _ => ?_⟩
        simp [AuthService.tokenPair, createAccessToken, createRefreshToken, createToken]
        exact fun t₁ t₂ => h.read hI₁ (reading_clock (reading_clock .refl t₁) t₂)
  have hsuccess : ∀ x : TokenPair × User, (do
      let _ ← AgentDesk.record .loginSuccess (some x.2.organizationId) (some x.2.id) none none none true
      pure (⟨200, .tokens x.1⟩ : Response) : M S Response).Keeps D I := fun x =>
    (record_commit_keeps h rfl _ _ _ _ _).bind fun _ => M.Keeps.pure _
  have hfailed : (do
      let _ ← AgentDesk.record .loginFailed none none none none (some [("email", .str body.email)]) true
      M.raise (.http 401 "Invalid credentials") : M S (TokenPair × User)).Keeps D I :=
    (record_commit_keeps h rfl _ _ _ _ _).bind fun _ => M.Keeps.raise _
  unfold M.Complies Api.login
  rw [M.triple_bind, M.triple_except]
  refine M.triple_mono hauth (fun x σ' cs' h' => (hsuccess x).complies h') ?_
  intro e σ' cs' h'
  cases e with
  | auth m =>
    exact M.triple_mono (hfailed σ' cs' h') (fun x σ'' cs'' h'' => (hsuccess x).complies h'')
      (fun _ _ _ h => h)
  | _ => trivial

theorem handle [Field S] [LinearOrder S] [FloorRing S] {c : Nat}
    (hannounce : ∀ ticketId event, (WebhookService.enqueueForTicket cfg ticketId event).Keeps D I)
    (hfailure : ∀ runId exc (σ : Session S) cs,
      (AgentRunService.recordFailure runId exc : M S AgentRun).Triple (atCommit D) (fun _ => I)
        (fun _ _ _ => True) σ cs)
    (hI : I (.start c) cs) (hclosed : (Book.ofCalls cs).pending = []) (u : User)
    (action : Api.Action) : (action.handle cfg workflow u).Complies D (.start c) cs := by
  have hquery : ∀ {α : Type} (q : Query S) (f : q.Result → α),
      (do let r ← AgentDesk.query q; pure (f r) : M S α).Keeps D I := fun q f =>
    (h.query q).bind fun _ => M.Keeps.pure _
  cases action with
  | listUsers => exact (hquery _ _).complies hI
  | createUser body =>
    exact ((createUser_keeps h _ _ _ _).catching.bind fun _ => M.Keeps.pure _).complies hI
  | createTicket body =>
    exact ((hl.createTicket h _ _ _ _ _).bind fun _ => M.Keeps.pure _).complies hI
  | listTickets status => exact (hquery _ _).complies hI
  | getTicket ticketId => exact ((load h _ ticketId).bind fun _ => M.Keeps.pure _).complies hI
  | listTicketEvents ticketId =>
    have hget : (TicketService.getTicket u.organizationId ticketId : M S _).Keeps D I := by
      refine (h.getTicketRow ticketId).bind fun t => ?_
      cases t with
      | none => exact M.Keeps.raise _
      | some t => exact M.Keeps.ite (M.Keeps.raise _) (M.Keeps.pure t)
    have hlist := (hget.bind fun _ => h.query (.eventsOf ticketId)).complies hI
    exact M.Complies.bind_pure (M.Complies.catching hlist)
  | createDocument body =>
    exact ((createDocument_keeps h _ _ _ _ _).bind fun _ => M.Keeps.pure _).complies hI
  | listDocuments => exact (hquery _ _).complies hI
  | searchDocuments body =>
    have hsearch := readOnly_reading (D := D) (readOnly_search cfg u.organizationId body.query
      body.threshold (some body.topK)) (σ := .start c) hclosed
    exact (M.complies_of_triple hsearch).bind_pure
  | runWorkflow ticketId => exact hl.runWorkflow h hannounce hfailure hI u ticketId
  | approve ticketId body =>
    refine M.Keeps.complies ((load h _ ticketId).bind fun _ => ?_) hI
    exact (hl.approve h hannounce _ _ _).catching.bind fun _ => M.Keeps.pure _
  | reject ticketId body =>
    refine M.Keeps.complies ((load h _ ticketId).bind fun _ => ?_) hI
    exact (hl.reject h _ _ _).catching.bind fun _ => M.Keeps.pure _
  | editDraft ticketId body =>
    refine M.Keeps.complies ((load h _ ticketId).bind fun _ => ?_) hI
    exact (hl.editDraft h _ _ _).catching.bind fun _ => M.Keeps.pure _
  | getWebhook => exact ((getConfig_keeps h _).bind fun _ => M.Keeps.pure _).complies hI
  | putWebhook body =>
    exact ((upsertConfig_keeps h _ _ _ _).bind fun _ => M.Keeps.pure _).complies hI
  | listDeliveries => exact (hquery _ _).complies hI
  | getMetrics => exact ((compute_keeps h _).bind fun _ => M.Keeps.pure _).complies hI

/-- Every job meets the demand on its commits, if announcements, deliveries and recorded failures
do. -/
theorem program [Field S] [LinearOrder S] [FloorRing S]
    (hannounce : ∀ ticketId event, (WebhookService.enqueueForTicket cfg ticketId event).Keeps D I)
    (hfailure : ∀ runId exc (σ : Session S) cs,
      (AgentRunService.recordFailure runId exc : M S AgentRun).Triple (atCommit D) (fun _ => I)
        (fun _ _ _ => True) σ cs)
    (hdeliver : ∀ deliveryId c,
      (WebhookService.deliverOnce cfg deliveryId true).Complies D (.start c) [])
    (hI : ∀ c, I (.start c) []) (job : Job) (c : Nat) :
    (job.program cfg workflow c).Obeys (atCommit D) (fun _ _ => True) [] := by
  have done : ∀ {α : Type} {p : M S α}, p.Complies D (.start c) [] →
      (p (.start c)).Obeys (atCommit D) (fun _ _ => True) [] := by
    intro α p h
    exact Program.obeys_mono h fun _ _ _ => trivial
  cases job with
  | request r =>
    simp only [Job.program, Program.obeys_bind]
    refine done (M.Complies.getDb ?_)
    cases r with
    | register body =>
      exact ((register_keeps h _ _ _).catching.bind fun _ => M.Keeps.pure _).complies (hI c)
    | login body => exact login h (hI c) body
    | refresh body =>
      exact ((refresh_keeps h _).catching.bind fun _ => M.Keeps.pure _).complies (hI c)
    | authenticated creds action =>
      have hallowed : action.allowed ≠ [] := by cases action <;> simp [Api.Action.allowed]
      unfold M.Complies Api.Request.handle
      rw [M.triple_bind]
      refine Program.obeys_mono (obeys_atCommit (requireRole_transcript creds hallowed)
        (requireRole_uncommitted _ creds (.start c))) ?_
      rintro ⟨_ | u, σ'⟩ cs' ⟨hread, hσ⟩
      · trivial
      · change σ' = .start c at hσ
        subst hσ
        obtain ⟨token, claims, id, now, -, -, -, -, rfl⟩ := hread
        have hcaller := reading_query (reading_clock (@Reading.refl S []) now) (.user id) (some u)
        exact hl.handle h hannounce hfailure (h.read (hI c) hcaller) rfl u action
  | runAgent runId =>
    simp only [Job.program, Program.obeys_bind]
    have hexecute := @executeRun S cfg workflow D I (.start c) [] hl h hannounce runId (hfailure runId) (hI c) rfl
    exact done (M.complies_of_triple hexecute).sessionScope.bind_pure
  | deliverWebhook deliveryId retries =>
    simp only [Job.program, Program.obeys_bind]
    refine done ?_
    unfold M.Complies Tasks.deliverWebhook
    rw [M.triple_bind]
    refine M.triple_mono (hdeliver deliveryId c).sessionScope ?_ (fun _ _ _ h => h)
    intro success _ _ _
    rw [M.triple_ite]
    exact ⟨fun _ => trivial, fun _ => trivial⟩

end Lenient

end AgentDesk
