import AgentDesk.Logic.Balance
import AgentDesk.Api.Jobs

namespace AgentDesk

open Framework (Program)

variable {S α : Type} {cfg : Config S} {D : List (Made S) → Prop}

/-! Tickets -/

/-- The tickets that the session holds, each of the organization that this gives for its id. -/
def Filed (orgOf : Uuid → Uuid) (σ : Session S) : Prop :=
  ∀ o ∈ σ.tickets, o.cur.id = o.loaded.id ∧ o.cur.organizationId = orgOf o.loaded.id

theorem filed_start (orgOf : Uuid → Uuid) (c : Nat) : Filed orgOf (.start c : Session S) :=
  fun _ h => by cases h

/-- A session that holds these tickets and has flushed everything, with what is due beyond what is
made, and made beyond what is due. -/
structure Owes (orgOf : Uuid → Uuid) (due paid : List Entry) (σ : Session S) (cs : List (Made S)) :
    Prop where
  new : σ.new = []
  owing : ∃ es, Owing (es ++ due) (es ++ paid) [] cs
  filed : Filed orgOf σ

section

variable {orgOf : Uuid → Uuid} {due paid es : List Entry} {σ : Session S} {cs : List (Made S)}
  {ticketId : Uuid}

theorem Owes.start {c : Nat} (h : Even ([] : List (Row S)) cs) : Owes orgOf [] [] (.start c) cs :=
  ⟨rfl, ⟨_, ⟨(List.append_nil _).symm, h.symm.trans (List.append_nil _).symm⟩⟩, filed_start _ _⟩

theorem Owes.even (h : Owes orgOf due due σ cs) : Even σ.new cs := by
  obtain ⟨hnew, ⟨es, howing⟩, -⟩ := h
  rw [hnew]
  exact howing.even

theorem Filed.putTicket {f : Tracked Ticket → Tracked Ticket} (h : Filed orgOf σ)
    (hf : ∀ o ∈ σ.tickets, (f o).cur.id = (f o).loaded.id ∧
      (f o).cur.organizationId = orgOf (f o).loaded.id) (id : Uuid) :
    Filed orgOf (σ.putTicket id f) := by
  intro o ho
  obtain ⟨o', ho', rfl⟩ := List.mem_map.mp ho
  split
  · exact hf o' ho'
  · exact h o' ho'

theorem Filed.flushed (h : Filed orgOf σ) (hnew : ∀ t, .ticket t ∉ σ.new) :
    Filed orgOf σ.flushed := by
  have hadopt : ∀ (rows : List (Row S)) (σ : Session S), (∀ t, .ticket t ∉ rows) → Filed orgOf σ →
      Filed orgOf (rows.foldl Session.adopt σ) := by
    intro rows
    induction rows with
    | nil => exact fun _ _ h => h
    | cons row rows ih =>
      intro σ hrows hσ
      refine ih _ (fun t ht => hrows t (List.mem_cons_of_mem _ ht)) ?_
      cases row with
      | ticket t => exact absurd List.mem_cons_self (hrows t)
      | _ => exact hσ
  refine hadopt σ.new _ hnew fun o ho => ?_
  obtain ⟨o', ho', rfl⟩ := List.mem_map.mp ho
  obtain ⟨hid, horg⟩ := h o' ho'
  exact ⟨rfl, horg.trans (congrArg orgOf hid.symm)⟩

theorem Owes.setTicket (h : Owes orgOf due paid σ cs) (id : Uuid) (p : TicketPatch) :
    Owes orgOf due paid (σ.putTicket id fun o => { o with cur := p.apply o.cur }) cs :=
  ⟨h.new, h.owing, Filed.putTicket (f := fun o => { o with cur := p.apply o.cur }) h.filed
    (fun o ho => h.filed o ho) id⟩

theorem Owes.setAgentRun (h : Owes orgOf due paid σ cs) (id : Uuid) (p : AgentRunPatch) :
    Owes orgOf due paid (σ.putAgentRun id fun o => { o with cur := p.apply o.cur }) cs :=
  ⟨h.new, h.owing, h.filed⟩

theorem Owes.reads (h : Owes orgOf due paid σ cs) {cs' : List (Made S)}
    (hcs : opened ([] : List (Row S)) cs' = opened [] cs) : Owes orgOf due paid σ cs' := by
  obtain ⟨hnew, ⟨es, hdue, hpaid⟩, hfiled⟩ := h
  rw [← hcs] at hdue hpaid
  exact ⟨hnew, ⟨es, hdue, hpaid⟩, hfiled⟩

theorem Owes.attrs (h : Owes orgOf due paid σ cs) {o : Tracked Ticket}
    (ho : σ.ticket? ticketId = some o) :
    o.cur.id = ticketId ∧ o.cur.organizationId = orgOf ticketId := by
  have hid : o.loaded.id = ticketId := by simpa using List.find?_some ho
  obtain ⟨hcur, horg⟩ := h.filed o (List.mem_of_find?_eq_some ho)
  exact ⟨hcur.trans hid, horg.trans (congrArg orgOf hid)⟩

/-- A ticket that the session did not hold is read. -/
theorem Owes.loaded (h : Owes orgOf due paid σ cs) {t : Ticket} (hnone : σ.ticket? ticketId = none)
    (ht : t.id = ticketId) :
    Owes (Function.update orgOf t.id t.organizationId) due paid
      { σ with tickets := σ.tickets ++ [⟨t, t⟩] }
      (cs ++ [⟨.query (.ticket ticketId), .ok (some t)⟩]) := by
  have hread := h.reads (reading_query .refl (.ticket ticketId) (some t)).opened
  refine ⟨hread.new, hread.owing, fun o ho => ?_⟩
  rcases List.mem_append.mp ho with ho | ho
  · have hne : o.loaded.id ≠ t.id := by
      have hnone' := List.find?_eq_none.mp hnone o ho
      rw [ht]
      simpa using hnone'
    rw [Function.update_of_ne hne]
    exact h.filed o ho
  · rw [List.mem_singleton.mp ho]
    exact ⟨rfl, by simp⟩

theorem flush_filed (h : Owing due paid σ.new cs) :
    (flush : M S Unit).Triple (atCommit D)
      (fun _ σ' cs' => σ'.new = [] ∧ Owing due paid [] cs' ∧
        ∀ orgOf, Filed orgOf σ → (∀ t, .ticket t ∉ σ.new) → Filed orgOf σ')
      (fun _ _ _ => True) σ cs := by
  refine M.triple_mono (flush_owing h) ?_ (fun _ _ _ h => h)
  rintro - σ' cs' ⟨hσ', hnew, howing⟩
  refine ⟨hnew, howing, fun orgOf hfiled hrows => ?_⟩
  rcases hσ' with rfl | rfl
  · exact hfiled
  · exact hfiled.flushed hrows

/-- An audit row makes its entry. -/
theorem record_owing (h : Owing due paid σ.new cs) (event : AuditEvent)
    (organizationId actorUserId : Option Uuid) (targetType targetId : Option String)
    (metadata : Option Meta) (hes : es = if event.isFact
      then [.audit event organizationId targetType targetId] else []) :
    (record event organizationId actorUserId targetType targetId metadata false).Triple (atCommit D)
      (fun _ σ' cs' => σ'.new = [] ∧ Owing due (paid ++ es) [] cs' ∧
        ∀ orgOf, Filed orgOf σ → (∀ t, .ticket t ∉ σ.new) → Filed orgOf σ')
      (fun _ _ _ => True) σ cs := by
  unfold record
  rw [M.triple_bind, triple_uuid4, M.triple_bind, triple_add, M.triple_bind]
  have hadded := h.add (.auditLog ⟨⟨σ.conn, σ.draws⟩, organizationId, actorUserId, event, targetType,
    targetId, metadata, 0⟩)
  refine M.triple_mono (flush_filed hadded) ?_ (fun _ _ _ h => h)
  rintro - σ' cs' ⟨hnew, howing, hfiled⟩
  refine ⟨hnew, ?_, fun orgOf hσ hrows => hfiled orgOf hσ fun t ht => ?_⟩
  · rw [hes]
    simpa [Row.due, Row.paid, AuditLog.paid] using howing
  · rcases List.mem_append.mp ht with ht | ht
    · exact hrows t ht
    · cases List.mem_singleton.mp ht

theorem record_owes (h : Owes orgOf due paid σ cs) (event : AuditEvent)
    (organizationId actorUserId : Option Uuid) (targetType targetId : Option String)
    (metadata : Option Meta) (hes : es = if event.isFact
      then [.audit event organizationId targetType targetId] else []) :
    (record event organizationId actorUserId targetType targetId metadata false).Triple (atCommit D)
      (fun _ => Owes orgOf due (paid ++ es)) (fun _ _ _ => True) σ cs := by
  obtain ⟨hnew, ⟨es₀, howing⟩, hfiled⟩ := h
  rw [← hnew] at howing
  refine M.triple_mono (record_owing howing event organizationId actorUserId targetType targetId
    metadata hes) ?_ (fun _ _ _ h => h)
  rintro - σ' cs' ⟨hnew', howing', hfiled'⟩
  refine ⟨hnew', ⟨es₀, ?_⟩, hfiled' orgOf hfiled fun t ht => ?_⟩
  · rwa [← List.append_assoc]
  · rw [hnew] at ht
    cases ht

theorem transition_owes (h : Owes orgOf due paid σ cs) (es : List Entry) (toStatus : TicketStatus)
    (actorUserId : Option Uuid) (eventType : String) (message : Option String)
    (hes : ∀ e : TicketEvent, e.ticketId = ticketId → e.organizationId = orgOf ticketId →
      e.eventType = eventType → e.toStatus = some toStatus → e.due = es) :
    (TicketService.transition ticketId toStatus actorUserId eventType message true).Triple
      (atCommit D)
      (fun t σ' cs' => t.organizationId = orgOf ticketId ∧ Owes orgOf (due ++ es) paid σ' cs')
      (fun _ _ _ => True) σ cs := by
  unfold TicketService.transition
  rw [M.triple_bind, triple_ticketAttrs]
  refine ⟨fun o ho => ?_, fun _ => trivial⟩
  obtain ⟨-, horg⟩ := h.attrs ho
  rw [M.triple_ite]
  refine ⟨fun _ => trivial, fun _ => ?_⟩
  rw [M.triple_bind, triple_setTicket, M.triple_bind, triple_uuid4, M.triple_bind, triple_add,
    if_pos rfl, M.triple_bind]
  obtain ⟨hnew, ⟨es₀, howing⟩, hfiled⟩ := h.setTicket ticketId { status := some toStatus }
  rw [← hnew] at howing
  have hadded := howing.add (.ticketEvent ⟨⟨σ.conn, σ.draws⟩, ticketId, o.cur.organizationId,
    eventType, some o.cur.status, some toStatus, actorUserId, message, 0⟩ : Row S)
  have hdue : (Row.ticketEvent ⟨⟨σ.conn, σ.draws⟩, ticketId, o.cur.organizationId, eventType,
      some o.cur.status, some toStatus, actorUserId, message, 0⟩ : Row S).due = es :=
    hes _ rfl horg rfl rfl
  rw [hdue] at hadded
  refine M.triple_mono (flush_filed hadded) ?_ (fun _ _ _ h => h)
  rintro - σ' cs' ⟨hnew', howing', hfiled'⟩
  have howes : Owes orgOf (due ++ es) paid σ' cs' := by
    refine ⟨hnew', ⟨es₀, ?_⟩, hfiled' orgOf hfiled fun t ht => ?_⟩
    · simpa [Row.paid] using howing'
    · rcases List.mem_append.mp ht with ht | ht
      · rw [hnew] at ht
        cases ht
      · cases List.mem_singleton.mp ht
  rw [triple_ticketAttrs]
  exact ⟨fun o' ho' => ⟨(howes.attrs ho').2, howes⟩, fun _ => trivial⟩

variable (hD : MetWhenEven D)
include hD

theorem commit_filed {es : List Entry} (h : Owing es es σ.new cs) :
    (commit : M S Unit).Triple (atCommit D)
      (fun _ σ' cs' => σ'.new = [] ∧ Even [] cs' ∧
        ∀ orgOf, Filed orgOf σ → (∀ t, .ticket t ∉ σ.new) → Filed orgOf σ')
      (fun _ _ _ => True) σ cs := by
  unfold commit
  rw [M.triple_bind]
  refine M.triple_mono (flush_filed h) ?_ (fun _ _ _ h => h)
  rintro - σ' cs' ⟨hnew, howing, hfiled⟩
  rw [triple_sendCommit]
  refine ⟨hD cs' howing.even, fun _ _ _ => trivial, ?_⟩
  rintro u cs'' ⟨-, rfl⟩
  refine ⟨hnew, ?_, hfiled⟩
  unfold Even
  rw [opened_commit]
  rfl

theorem commit_even {es : List Entry} (h : Owing es es σ.new cs) :
    (commit : M S Unit).Triple (atCommit D) (fun _ σ' cs' => Even σ'.new cs') (fun _ _ _ => True)
      σ cs := by
  refine M.triple_mono (commit_filed hD h) ?_ (fun _ _ _ h => h)
  rintro - σ' cs' ⟨hnew, heven, -⟩
  rw [hnew]
  exact heven

theorem createTicket_evens (organizationId actorUserId : Uuid) (title description : String)
    (priority : TicketPriority) :
    (TicketService.createTicket organizationId actorUserId title description priority :
      M S _).Evens D := by
  refine (routine_even hD).uuid4.bind fun id => ((routine_even hD).add rfl).bind fun _ => (routine_even hD).flush.bind fun _ => ?_
  intro σ cs heven
  have howing : Owing _ _ σ.new cs := ⟨heven, rfl⟩
  rw [M.triple_bind, triple_uuid4, M.triple_bind, triple_add, M.triple_bind]
  refine M.triple_mono (record_owing (howing.add _) .ticketCreated (some organizationId)
    (some actorUserId) (some "ticket") (some id.str) none rfl) ?_ (fun _ _ _ h => h)
  rintro - σ' cs' ⟨hnew, howing', -⟩
  have hcreated : Owing ((opened σ.new cs).flatMap Write.paid ++ [.of .ticketCreated organizationId id])
      ((opened σ.new cs).flatMap Write.paid ++ [.of .ticketCreated organizationId id]) σ'.new cs' := by
    rw [hnew]
    simpa [Row.due, Row.paid, TicketEvent.due, Entry.of, AuditEvent.isFact] using howing'
  rw [M.triple_bind]
  exact M.triple_mono (commit_even hD hcreated)
    (fun _ σ' cs' heven => (routine_even hD).refreshTicket id σ' cs' heven) (fun _ _ _ h => h)

variable (h : Owes orgOf [] [] σ cs)
include h

theorem approve_evens (actorUserId : Uuid) (edited : Option String) :
    (TicketService.approve cfg ticketId actorUserId edited).Triple (atCommit D)
      (fun _ σ' cs' => Even σ'.new cs') (fun _ _ _ => True) σ cs := by
  unfold TicketService.approve
  rw [M.triple_bind, triple_ticketAttrs]
  refine ⟨fun o ho => ?_, fun _ => trivial⟩
  obtain ⟨-, horg⟩ := h.attrs ho
  rw [M.triple_ite]
  refine ⟨fun _ => trivial, fun _ => ?_⟩
  rw [M.triple_bind, triple_setTicket, M.triple_bind]
  refine M.triple_mono (transition_owes (h.setTicket ticketId _)
    [.of .responseApproved (orgOf ticketId) ticketId] .approved _ "approved" _
      fun e hticket he htype _ => ?_) ?_ (fun _ _ _ h => h)
  · simp [TicketEvent.due, htype, hticket, he]
  rintro - σ' cs' ⟨-, howes⟩
  rw [M.triple_bind]
  refine M.triple_mono (record_owes howes .responseApproved _ _ _ _ _ rfl) ?_ (fun _ _ _ h => h)
  intro _ σ' cs' howes'
  rw [horg] at howes'
  rw [M.triple_bind]
  obtain ⟨hnew, ⟨es, howing⟩, -⟩ := howes'
  refine M.triple_mono (commit_even hD (hnew ▸ howing)) ?_ (fun _ _ _ h => h)
  have hrest : (do
      let _ ← refreshTicket ticketId
      let _ ← WebhookService.enqueueForTicket cfg ticketId "ticket.approved"
      ticketAttrs ticketId : M S Ticket).Evens D :=
    ((routine_even hD).refreshTicket _).bind fun _ => (enqueueForTicket_keeps (routine_even hD) aloof_even _ _).bind fun _ =>
      (routine_even hD).ticketAttrs _
  exact fun _ σ' cs' heven => hrest σ' cs' heven

theorem reject_evens (actorUserId : Uuid) (reason : Option String) :
    (TicketService.reject ticketId actorUserId reason).Triple (atCommit D)
      (fun _ σ' cs' => Even σ'.new cs') (fun _ _ _ => True) σ cs := by
  unfold TicketService.reject
  rw [M.triple_bind]
  refine M.triple_mono (transition_owes h [.of .responseRejected (orgOf ticketId) ticketId] .rejected
    _ "rejected" _ fun e hticket he htype _ => ?_) ?_ (fun _ _ _ h => h)
  · simp [TicketEvent.due, htype, hticket, he]
  rintro t σ' cs' ⟨horg, howes⟩
  rw [M.triple_bind]
  refine M.triple_mono (record_owes howes .responseRejected _ _ _ _ _ rfl) ?_ (fun _ _ _ h => h)
  intro _ σ' cs' howes'
  rw [horg] at howes'
  rw [M.triple_bind]
  obtain ⟨hnew, ⟨es, howing⟩, -⟩ := howes'
  exact M.triple_mono (commit_even hD (hnew ▸ howing))
    (fun _ σ' cs' heven => (routine_even hD).refreshTicket _ σ' cs' heven) (fun _ _ _ h => h)

/-! Agent runs -/

/-- The session of a run that has been started holds the same tickets and owes nothing. -/
theorem startRun_owes (actorUserId : Option Uuid) :
    (AgentRunService.startRun ticketId actorUserId).Triple (atCommit D)
      (fun _ => Owes orgOf [] []) (fun _ _ _ => True) σ cs := by
  unfold AgentRunService.startRun
  rw [M.triple_bind, triple_ticketAttrs]
  refine ⟨fun o ho => ?_, fun _ => trivial⟩
  obtain ⟨hnew, ⟨es, howing⟩, hfiled⟩ := h
  rw [M.triple_bind, triple_uuid4, M.triple_bind, triple_add, M.triple_bind]
  rw [List.append_nil, ← hnew] at howing
  refine M.triple_mono (flush_filed (howing.add _)) ?_ (fun _ _ _ h => h)
  rintro - σ₁ cs₁ ⟨hnew₁, howing₁, hfiled₁⟩
  have hfiled₁ : Filed orgOf σ₁ := by
    refine hfiled₁ orgOf hfiled fun t ht => ?_
    rcases List.mem_append.mp ht with ht | ht
    · rw [hnew] at ht
      cases ht
    · cases List.mem_singleton.mp ht
  rw [M.triple_bind]
  rw [← hnew₁] at howing₁
  refine M.triple_mono (record_owing howing₁ .agentRunStarted _ _ _ _ _ rfl) ?_ (fun _ _ _ h => h)
  rintro - σ₂ cs₂ ⟨hnew₂, howing₂, hfiled₂⟩
  have hfiled₂ : Filed orgOf σ₂ := by
    refine hfiled₂ orgOf hfiled₁ fun t ht => ?_
    rw [hnew₁] at ht
    cases ht
  have hstarted : Owing (es ++ [.of .agentRunStarted o.cur.organizationId ticketId])
      (es ++ [.of .agentRunStarted o.cur.organizationId ticketId]) σ₂.new cs₂ := by
    rw [hnew₂]
    simpa [Row.due, Row.paid, Entry.of, AuditEvent.isFact] using howing₂
  rw [M.triple_bind]
  refine M.triple_mono (commit_filed hD hstarted) ?_ (fun _ _ _ h => h)
  rintro - σ₃ cs₃ ⟨hnew₃, heven₃, hfiled₃⟩
  have howes₃ : Owes orgOf [] [] σ₃ cs₃ := by
    refine ⟨hnew₃, ⟨_, ⟨(List.append_nil _).symm, heven₃.symm.trans (List.append_nil _).symm⟩⟩,
      hfiled₃ orgOf hfiled₂ fun t ht => ?_⟩
    rw [hnew₂] at ht
    cases ht
  rw [triple_refreshAgentRun]
  refine ⟨trivial, fun _ _ _ => trivial, fun _ _ => trivial, ?_⟩
  rintro r cs' ⟨-, rfl⟩
  have hread := howes₃.reads (reading_query .refl (.agentRun ⟨σ.conn, σ.draws⟩) (some r)).opened
  exact ⟨hread.new, hread.owing, hread.filed⟩

end

section

variable {orgOf : Uuid → Uuid} {σ : Session S} {cs : List (Made S)}

theorem Owes.of_even {due paid : List Entry} (h : Owes orgOf due paid σ cs) {cs' : List (Made S)}
    (heven : Even ([] : List (Row S)) cs') : Owes orgOf [] [] σ cs' :=
  ⟨h.new, ⟨_, ⟨(List.append_nil _).symm, heven.symm.trans (List.append_nil _).symm⟩⟩, h.filed⟩

theorem readOnly_even {p : M S α} (hp : p.ReadOnly) (h : Even ([] : List (Row S)) cs) :
    p.Triple (atCommit D) (fun _ σ' cs' => σ' = σ ∧ Even [] cs')
      (fun _ σ' cs' => σ' = σ ∧ Even [] cs') σ cs := by
  have huses := Program.obeys_of_uses (O := atCommit D)
    (P := fun cs' => Even ([] : List (Row S)) cs') (hp σ) h ?_
  · refine Program.obeys_mono huses ?_
    rintro ⟨_ | a, σ'⟩ cs' h <;> exact h
  · intro op cs' hop heven
    refine ⟨by cases op <;> trivial, ?_⟩
    rintro r _ ⟨-, rfl⟩
    cases op with
    | query q =>
      cases r with
      | error e =>
        rw [Even, opened, Book.ofCalls_snoc]
        rfl
      | ok x => exact (reading_query .refl q x).even heven
    | clock => exact (reading_clock .refl r).even heven
    | embed texts => exact (reading_embed .refl texts r).even heven
    | chat request => exact (reading_chat .refl request r).even heven
    | _ => exact hop.elim

variable {workflow : Workflow S}

theorem audit_owes {due paid : List Entry} (h : Owes orgOf due paid σ cs) (ticket : Ticket)
    {event : AuditEvent} (hevent : event.isFact = true) (metadata : Meta) :
    (AgentRunService.audit ticket event metadata).Triple (atCommit D)
      (fun _ => Owes orgOf due (paid ++ [.of event ticket.organizationId ticket.id]))
      (fun _ _ _ => True) σ cs := by
  refine record_owes h event _ _ _ _ _ ?_
  rw [hevent]
  rfl

/-- What a run owes when its ticket moves, and what it has recorded by then. -/
def runDue (organizationId ticketId : Uuid) (escalated : Bool) : List Entry :=
  .of .retrievalCompleted organizationId ticketId ::
    .of .draftGenerated organizationId ticketId ::
      if escalated then [.of .ticketEscalated organizationId ticketId] else []

theorem applyOutcome_owes {runId : Uuid} {ticket : Ticket} {state : AgentState}
    (horg : orgOf ticket.id = ticket.organizationId)
    (h : Owes orgOf [] (runDue ticket.organizationId ticket.id false) σ cs) :
    (AgentRunService.applyOutcome runId ticket state).Triple (atCommit D)
      (fun _ σ' cs' => ∃ es, Owes orgOf es es σ' cs') (fun _ _ _ => True) σ cs := by
  unfold AgentRunService.applyOutcome
  rw [M.triple_ite]
  refine ⟨fun _ => ?_, fun _ => ?_⟩
  · rw [M.triple_bind, triple_setAgentRun, M.triple_bind]
    refine M.triple_mono (transition_owes (h.setAgentRun runId _)
      (runDue ticket.organizationId ticket.id false) .waitingApproval _ "agent_run" _ ?_)
      (fun _ _ _ h => ⟨_, h.2⟩) (fun _ _ _ h => h)
    intro e hticket he htype hto
    simp [TicketEvent.due, runDue, htype, hticket, he, hto, horg]
  · rw [M.triple_bind, triple_setAgentRun, M.triple_bind]
    refine M.triple_mono (transition_owes (h.setAgentRun runId _)
      (runDue ticket.organizationId ticket.id true) .escalated _ "agent_run" _ ?_) ?_
      (fun _ _ _ h => h)
    · intro e hticket he htype hto
      simp [TicketEvent.due, runDue, htype, hticket, he, hto, horg]
    · rintro - σ' cs' ⟨-, howes⟩
      rw [M.triple_bind]
      exact M.triple_mono (audit_owes howes ticket rfl _) (fun _ _ _ h => ⟨_, h⟩) (fun _ _ _ h => h)

variable (hD : MetWhenEven D)
include hD

theorem persistResult_evens {runId : Uuid} {ticket : Ticket} {started : Time}
    (horg : orgOf ticket.id = ticket.organizationId) (h : Owes orgOf [] [] σ cs) :
    (AgentRunService.persistResult workflow runId ticket started).Triple (atCommit D)
      (fun _ σ' cs' => Even σ'.new cs') (fun _ _ _ => True) σ cs := by
  have heven : Even [] cs := h.new ▸ h.even
  unfold AgentRunService.persistResult AgentRunService.applyResult
  rw [M.triple_bind]
  refine M.triple_mono (readOnly_even (workflow.readOnly _) heven) ?_ (fun _ _ _ _ => trivial)
  rintro state _ cs₁ ⟨rfl, heven₁⟩
  rw [M.triple_bind, triple_clock]
  refine ⟨trivial, ?_⟩
  rintro ended cs₂ ⟨-, rfl⟩
  have howes := (h.of_even heven₁).reads (reading_clock .refl ended).opened
  rw [M.triple_bind, triple_setAgentRun, M.triple_bind]
  refine M.triple_mono (audit_owes (howes.setAgentRun runId _) ticket rfl _) ?_ (fun _ _ _ h => h)
  intro _ σ₃ cs₃ howes₃
  rw [M.triple_bind]
  refine M.triple_mono (audit_owes howes₃ ticket rfl _) ?_ (fun _ _ _ h => h)
  intro _ σ₄ cs₄ howes₄
  rw [M.triple_bind, triple_setTicket, M.triple_bind]
  refine suggestedPriority_triple state (fun sp => ?_) (fun _ => trivial)
  rw [M.triple_bind, triple_setTicket, M.triple_bind]
  refine M.triple_mono (applyOutcome_owes horg ((howes₄.setTicket ticket.id _).setTicket ticket.id _))
    ?_ (fun _ _ _ h => h)
  rintro - σ₅ cs₅ ⟨es, howes₅⟩
  rw [M.triple_bind, triple_clock]
  refine ⟨trivial, ?_⟩
  rintro finished cs₆ ⟨-, rfl⟩
  rw [M.triple_bind, triple_setAgentRun]
  obtain ⟨hnew, ⟨es₀, howing⟩, -⟩ := (howes₅.reads (reading_clock .refl finished).opened).setAgentRun runId
    { status := some .completed, finishedAt := some (some finished) }
  rw [← hnew] at howing
  exact commit_even hD howing

theorem announceResult_evens (runId ticketId : Uuid) :
    (AgentRunService.announceResult cfg runId ticketId).Evens D := by
  refine (refreshAgentRun_evens runId).bind fun run => M.Keeps.ite ?_ ((routine_even hD).agentRunAttrs runId)
  refine ((routine_even hD).refreshTicket ticketId).bind fun _ => ?_
  exact (enqueueForTicket_keeps (routine_even hD) aloof_even _ _).bind fun _ => (routine_even hD).agentRunAttrs runId

theorem recordFailure_evens (runId : Uuid) (exc : Err) (σ : Session S) (cs : List (Made S)) :
    (AgentRunService.recordFailure runId exc : M S α).Triple (atCommit D)
      (fun _ σ' cs' => Even σ'.new cs') (fun _ _ _ => True) σ cs := by
  refine rollback_evens ((getAgentRun_evens runId).bind fun r => ?_) σ cs
  cases r with
  | none => exact M.Keeps.raise exc
  | some r =>
    refine (routine_even hD).clock.bind fun now => M.Keeps.bind (fun _ _ h => h) fun _ => ?_
    exact (routine_even hD).commit.bind fun _ => M.Keeps.raise exc

theorem executeRun_evens {runId : Uuid} (h : Owes orgOf [] [] σ cs) :
    (AgentRunService.executeRun cfg workflow runId).Triple (atCommit D)
      (fun _ σ' cs' => Even σ'.new cs') (fun _ _ _ => True) σ cs := by
  have hexecute : ∀ (orgOf : Uuid → Uuid) (ticket : Ticket) (σ : Session S) (cs : List (Made S)),
      orgOf ticket.id = ticket.organizationId → Owes orgOf [] [] σ cs →
      (do
        let started ← clock
        M.except
          (do
            AgentRunService.persistResult workflow runId ticket started
            AgentRunService.announceResult cfg runId ticket.id)
          (AgentRunService.recordFailure runId) : M S AgentRun).Triple (atCommit D)
        (fun _ σ' cs' => Even σ'.new cs') (fun _ _ _ => True) σ cs := by
    intro orgOf ticket σ cs horg h
    rw [M.triple_bind, triple_clock]
    refine ⟨trivial, ?_⟩
    rintro started cs₁ ⟨-, rfl⟩
    rw [M.triple_except, M.triple_bind]
    have hfail := fun e (σ' : Session S) cs' (_ : True) =>
      recordFailure_evens (α := AgentRun) hD runId e σ' cs'
    refine M.triple_mono (persistResult_evens hD horg (h.reads (reading_clock .refl started).opened)) ?_ hfail
    intro _ σ' cs' heven
    exact M.triple_mono (announceResult_evens hD runId ticket.id σ' cs' heven) (fun _ _ _ h => h) hfail
  have hload : ∀ (execute : Option Ticket → M S AgentRun) (run : AgentRun) (σ : Session S)
      (cs : List (Made S)), Owes orgOf [] [] σ cs →
      (∀ cs, (execute none).Triple (atCommit D) (fun _ σ' cs' => Even σ'.new cs')
        (fun _ _ _ => True) σ cs) →
      (∀ (orgOf : Uuid → Uuid) (ticket : Ticket) (σ : Session S) (cs : List (Made S)),
        orgOf ticket.id = ticket.organizationId → Owes orgOf [] [] σ cs →
          (execute (some ticket)).Triple (atCommit D) (fun _ σ' cs' => Even σ'.new cs')
            (fun _ _ _ => True) σ cs) →
      (getTicketRow run.ticketId >>= execute).Triple (atCommit D)
        (fun _ σ' cs' => Even σ'.new cs') (fun _ _ _ => True) σ cs := by
    intro execute run σ cs h hnothing hexecute
    rw [M.triple_bind, triple_getTicketRow]
    refine ⟨fun o ho => ?_, fun hnone =>
      ⟨trivial, fun _ _ _ => trivial, fun cs' _ => hnothing cs', ?_⟩⟩
    · obtain ⟨hid, horg⟩ := h.attrs ho
      exact hexecute orgOf o.cur σ cs (by rw [hid, horg]) h
    · rintro t cs' ⟨hfits, rfl⟩
      exact hexecute _ t _ _ (by simp) (h.loaded hnone hfits)
  unfold AgentRunService.executeRun
  rw [M.triple_bind, triple_getAgentRun]
  refine ⟨fun o _ => hload _ o.cur σ cs h (fun _ => trivial) hexecute,
    fun _ => ⟨trivial, fun _ _ _ => trivial, fun _ _ => trivial, ?_⟩⟩
  rintro r cs' ⟨-, rfl⟩
  have hread := h.reads (reading_query .refl (.agentRun runId) (some r)).opened
  exact hload _ r _ _ ⟨hread.new, hread.owing, hread.filed⟩ (fun _ => trivial) hexecute

end

/-! The jobs -/

/-- The request changes the draft of this ticket: its content is not blank, and by these calls its
token is valid and names an active admin or operator of the ticket's organization. -/
def Edits (cfg : Config S) (job : Job) (cs : List (Made S)) (ticketId : Uuid) : Prop :=
  ∃ token claims now body id u t,
    job = .request (.authenticated (some token) (.editDraft ticketId body)) ∧
      isBlank body.content = false ∧ token.Valid cfg .access id now claims ∧ u.isActive = true ∧
        u.role ∈ [.admin, .operator] ∧ t.organizationId = u.organizationId ∧
          cs = [⟨.clock, now⟩, ⟨.query (.user id), .ok (some u)⟩,
            ⟨.query (.ticket ticketId), .ok (some t)⟩]

/-- The session has made the entries that are due, or it changes a draft and does just that. -/
def Settles (cfg : Config S) (job : Job) (cs : List (Made S)) : Prop :=
  Even ([] : List (Row S)) cs ∨ ∃ ticketId pre ws, cs = pre ++ [⟨.write ws, .ok ()⟩] ∧
    Edits cfg job pre ticketId ∧ ws.flatMap Write.due = [.edit ticketId] ∧
      ws.flatMap Write.paid = []

theorem settles_of_even (cfg : Config S) (job : Job) : MetWhenEven (Settles cfg job) :=
  fun _ h => Or.inl h

section

variable {job : Job} {c n : Nat} {σ : Session S} {cs : List (Made S)}

theorem login_settled (body : LoginRequest) :
    (Api.login cfg body).Complies (Settles cfg job) (.start c) [] := by
  have hD := settles_of_even cfg job
  have hauth : (AuthService.authenticate cfg body.email body.password).Triple
      (atCommit (Settles cfg job)) (fun _ σ' cs' => Even σ'.new cs')
      (fun _ σ' cs' => Even σ'.new cs') (.start c) [] := by
    unfold AuthService.authenticate
    simp only [M.triple_bind, triple_query, atCommit_query, atCommit_next, true_and]
    refine ⟨?_, ?_⟩
    · rintro e _ ⟨-, rfl⟩
      rfl
    · rintro u _ ⟨-, rfl⟩
      have heven : Even ([] : List (Row S)) ([] ++ [⟨.query (.userByEmail (cfg.platform.lower body.email)),
        .ok u⟩]) := rfl
      cases u with
      | none => exact heven
      | some u =>
        rw [M.triple_ite]
        refine ⟨fun _ => heven, fun _ => ?_⟩
        simp [AuthService.tokenPair, createAccessToken, createRefreshToken, createToken, Even]
        exact fun _ _ => rfl
  unfold M.Complies Api.login
  rw [M.triple_bind, M.triple_except]
  have hsuccess : ∀ (x : TokenPair × User) (σ : Session S) cs, Even σ.new cs → M.Complies (Settles cfg job) (do
      let _ ← record .loginSuccess (some x.2.organizationId) (some x.2.id) none none none true
      pure (⟨200, .tokens x.1⟩ : Response)) σ cs := fun x σ cs heven =>
    M.Keeps.complies (I := fun (σ : Session S) cs => Even σ.new cs)
      ((record_commit_keeps (routine_even hD) rfl _ _ _ _ _).bind fun _ => M.Keeps.pure _) heven
  refine M.triple_mono hauth (fun x σ' cs' h => hsuccess x σ' cs' h) ?_
  · intro e σ' cs' heven
    cases e with
    | auth m =>
      have hfailed := record_commit_keeps (routine_even hD) (show AuditEvent.loginFailed.isFact = false from rfl)
        none none none none (some [("email", .str body.email)])
      have hrest : (do
          let _ ← record .loginFailed none none none none (some [("email", .str body.email)]) true
          M.raise (.http 401 "Invalid credentials") : M S (TokenPair × User)).Evens
          (Settles cfg job) := hfailed.bind fun _ => M.Keeps.raise _
      exact M.triple_mono (hrest σ' cs' heven) (fun x σ' cs' h => hsuccess x σ' cs' h)
        (fun _ _ _ h => h)
    | _ => trivial

theorem getTicket_owes {orgOf : Uuid → Uuid} (h : Owes orgOf [] [] σ cs)
    (organizationId ticketId : Uuid) :
    (TicketService.getTicket organizationId ticketId).Triple (atCommit D)
      (fun _ σ' cs' => ∃ orgOf', Owes orgOf' [] [] σ' cs') (fun _ _ _ => True) σ cs := by
  unfold TicketService.getTicket
  rw [M.triple_bind, triple_getTicketRow]
  refine ⟨fun o _ => ?_, fun hnone => ⟨trivial, fun _ _ _ => trivial, fun _ _ => trivial, ?_⟩⟩
  · rw [M.triple_ite]
    exact ⟨fun _ => trivial, fun _ => ⟨orgOf, h⟩⟩
  · rintro t cs' ⟨hfits, rfl⟩
    rw [M.triple_ite]
    exact ⟨fun _ => trivial, fun _ => ⟨_, h.loaded hnone hfits⟩⟩

/-- What follows `load` in an endpoint. -/
theorem load_settled {orgOf : Uuid → Uuid} (h : Owes orgOf [] [] σ cs)
    (organizationId ticketId : Uuid) {f : Ticket → M S α}
    (hf : ∀ (t : Ticket) (orgOf : Uuid → Uuid) (σ : Session S) cs, Owes orgOf [] [] σ cs →
      (f t).Complies (Settles cfg job) σ cs) :
    (do let t ← Api.load organizationId ticketId; f t : M S α).Complies (Settles cfg job) σ cs := by
  unfold M.Complies Api.load Api.catching
  rw [M.triple_bind, M.triple_except]
  refine M.triple_mono (getTicket_owes h organizationId ticketId) ?_ (fun e _ _ _ => ?_)
  · rintro t σ' cs' ⟨orgOf', howes⟩
    exact hf t orgOf' σ' cs' howes
  · cases e <;> trivial

theorem runWorkflow_settled {orgOf : Uuid → Uuid} (workflow : Workflow S) (u : User)
    (ticketId : Uuid) (h : Owes orgOf [] [] σ cs) :
    (Api.runWorkflow cfg workflow u ticketId).Complies (Settles cfg job) σ cs := by
  have hD := settles_of_even cfg job
  refine load_settled h u.organizationId ticketId fun t orgOf σ cs h => ?_
  unfold M.Complies
  rw [M.triple_ite]
  refine ⟨fun _ => trivial, fun _ => ?_⟩
  rw [M.triple_bind]
  refine M.triple_mono (startRun_owes hD h (some u.id)) ?_ (fun _ _ _ h => h)
  intro r σ' cs' howes
  rw [M.triple_ite]
  refine ⟨fun _ => ?_, fun _ => ?_⟩
  · rw [M.triple_bind]
    exact M.triple_mono (executeRun_evens hD howes) (fun _ _ _ _ => trivial) (fun _ _ _ h => h)
  · exact (((routine_even hD).enqueue _).bind fun _ => M.Keeps.pure _).complies howes.even

theorem load_reads {D : List (Made S) → Prop} (organizationId ticketId : Uuid) :
    (Api.load organizationId ticketId).Triple (atCommit D)
      (fun t σ' cs' => t.id = ticketId ∧ t.organizationId = organizationId ∧
        σ' = ⟨c, 0, [⟨t, t⟩], [], [], [], []⟩ ∧
          cs' = cs ++ [⟨.query (.ticket ticketId), .ok (some t)⟩])
      (fun _ _ _ => True) (.start c) cs := by
  have hget : (TicketService.getTicket organizationId ticketId).Triple (atCommit D)
      (fun t σ' cs' => t.id = ticketId ∧ t.organizationId = organizationId ∧
        σ' = ⟨c, 0, [⟨t, t⟩], [], [], [], []⟩ ∧
          cs' = cs ++ [⟨.query (.ticket ticketId), .ok (some t)⟩])
      (fun _ _ _ => True) (.start c) cs := by
    simp [TicketService.getTicket, M.triple_ite, Session.start]
    exact fun t ht horg => ⟨ht, horg⟩
  unfold Api.load Api.catching
  rw [M.triple_except]
  refine M.triple_mono hget (fun _ _ _ h => h) (fun e _ _ _ => ?_)
  cases e <;> trivial

/-- The calls of a request that changes a draft, up to its commit. -/
theorem settles_edit {token : Token} {claims : Claims} {now : Time} {id : Uuid} {u : User}
    {body : EditDraftRequest} {t : Ticket} {ws : List (Write S)}
    (hjob : job = .request (.authenticated (some token) (.editDraft t.id body)))
    (hblank : isBlank body.content = false) (hvalid : token.Valid cfg .access id now claims)
    (hactive : u.isActive = true) (hrole : u.role ∈ [.admin, .operator])
    (horg : t.organizationId = u.organizationId) (hdue : ws.flatMap Write.due = [.edit t.id])
    (hpaid : ws.flatMap Write.paid = []) :
    Settles cfg job ([⟨.clock, now⟩, ⟨.query (.user id), .ok (some u)⟩] ++
      [⟨.query (.ticket t.id), .ok (some t)⟩] ++ [⟨.write ws, .ok ()⟩]) :=
  Or.inr ⟨t.id, [⟨.clock, now⟩, ⟨.query (.user id), .ok (some u)⟩] ++
    [⟨.query (.ticket t.id), .ok (some t)⟩], ws, rfl, ⟨token, claims, now, body, id, u, t, hjob,
      hblank, hvalid, hactive, hrole, horg, rfl⟩, hdue, hpaid⟩

theorem editDraft_writes {D : List (Made S) → Prop} (cs : List (Made S)) (t : Ticket)
    (actorUserId : Uuid) (content : String) (hD : isBlank content = false → ∀ ws, ws.flatMap Write.due = [.edit t.id] →
      ws.flatMap Write.paid = [] → D (cs ++ [⟨.write ws, .ok ()⟩])) :
    (TicketService.editDraft t.id actorUserId content).Triple (atCommit D) (fun _ _ _ => True)
      (fun _ _ _ => True) ⟨c, n, [⟨t, t⟩], [], [], [], []⟩ cs := by
  simp [TicketService.editDraft, M.triple_ite, commit]
  intro hblank
  obtain h | h := @dirtyTicket_cases S t
    (TicketPatch.apply { draftResponse := some (some content) } t)
  · refine hD hblank _ ?_ ?_
    · simp [h, Write.due, Row.due, TicketEvent.due]
    · simp [h, Write.paid, Row.paid]
  · refine hD hblank _ ?_ ?_
    · simp [h, Write.due, Row.due, TicketEvent.due]
    · simp [h, Write.paid, Row.paid]

/-- A decision on a ticket that the session has just loaded. -/
theorem decision_settled {p : M S Ticket} (organizationId ticketId : Uuid)
    (hp : ∀ t : Ticket, t.id = ticketId → t.organizationId = organizationId →
      p.Complies (Settles cfg job) ⟨c, 0, [⟨t, t⟩], [], [], [], []⟩
        (cs ++ [⟨.query (.ticket ticketId), .ok (some t)⟩])) :
    (do
      let _ ← Api.load organizationId ticketId
      let ticket ← Api.catching p Api.decisionStatus
      pure (⟨200, .ticket ticket⟩ : Response)).Complies (Settles cfg job) (.start c) cs := by
  unfold M.Complies
  rw [M.triple_bind]
  refine M.triple_mono (load_reads organizationId ticketId) ?_ (fun _ _ _ h => h)
  intro t σ' cs' hload
  obtain ⟨ht, horg, hσ, hcs⟩ := hload
  rw [hσ, hcs]
  exact (hp t ht horg).catching.bind_pure

/-- A request that changes a draft, from the calls that checked its caller. -/
theorem editDraft_settled {token : Token} {claims : Claims} {now : Time} {id : Uuid} {u : User}
    (ticketId : Uuid) (body : EditDraftRequest) (hvalid : token.Valid cfg .access id now claims)
    (hactive : u.isActive = true) (hrole : u.role ∈ [.admin, .operator])
    (hjob : job = .request (.authenticated (some token) (.editDraft ticketId body))) :
    (Api.editDraft u ticketId body).Complies (Settles cfg job) (.start c)
      [⟨.clock, now⟩, ⟨.query (.user id), .ok (some u)⟩] := by
  refine decision_settled u.organizationId ticketId ?_
  intro t ht horg
  subst ht
  have hwrites := editDraft_writes (c := c) (n := 0) (D := Settles cfg job)
    ([⟨.clock, now⟩, ⟨.query (.user id), .ok (some u)⟩] ++
      [⟨.query (.ticket t.id), .ok (some t)⟩]) t u.id body.content
    fun hblank _ hdue hpaid => settles_edit hjob hblank hvalid hactive hrole horg hdue hpaid
  exact hwrites

section

variable [Field S] [LinearOrder S] [FloorRing S]

theorem handle_settled (workflow : Workflow S) (u : User) (action : Api.Action)
    (hedit : ∀ ticketId body, action ≠ .editDraft ticketId body) (h : Even ([] : List (Row S)) cs) :
    (action.handle cfg workflow u).Complies (Settles cfg job) (.start c) cs := by
  have hD := settles_of_even cfg job
  have howes : Owes (fun _ => u.id) [] [] (.start c) cs := Owes.start h
  cases action with
  | listUsers => exact (((routine_even hD).query _).bind fun _ => M.Keeps.pure _).complies h
  | createUser body =>
    exact ((createUser_keeps (routine_even hD) _ _ _ _).catching.bind fun _ => M.Keeps.pure _).complies h
  | createTicket body =>
    exact ((createTicket_evens hD _ _ _ _ _).bind fun _ => M.Keeps.pure _).complies h
  | listTickets status => exact (((routine_even hD).query _).bind fun _ => M.Keeps.pure _).complies h
  | getTicket ticketId => exact load_settled howes _ ticketId fun _ _ _ _ _ => trivial
  | listTicketEvents ticketId =>
    refine M.Complies.bind_pure (M.Complies.catching ?_)
    unfold M.Complies TicketService.listEvents
    rw [M.triple_bind]
    refine M.triple_mono (getTicket_owes howes _ ticketId) ?_ (fun _ _ _ h => h)
    rintro t σ' cs' ⟨orgOf, howes'⟩
    exact ((routine_even hD).query _).complies howes'.even
  | createDocument body =>
    exact ((createDocument_keeps (routine_even hD) _ _ _ _ _).bind fun _ => M.Keeps.pure _).complies h
  | listDocuments => exact (((routine_even hD).query _).bind fun _ => M.Keeps.pure _).complies h
  | searchDocuments body =>
    refine M.Complies.bind_pure ?_
    exact M.triple_mono (readOnly_even (readOnly_search cfg _ _ _ _) h) (fun _ _ _ _ => trivial)
      (fun _ _ _ _ => trivial)
  | runWorkflow ticketId => exact runWorkflow_settled workflow u ticketId howes
  | approve ticketId body =>
    exact load_settled howes _ ticketId fun t _ _ _ h =>
      (M.complies_of_triple (approve_evens hD h u.id body.editedResponse)).catching.bind_pure
  | reject ticketId body =>
    exact load_settled howes _ ticketId fun t _ _ _ h =>
      (M.complies_of_triple (reject_evens hD h u.id body.reason)).catching.bind_pure
  | editDraft ticketId body => exact absurd rfl (hedit ticketId body)
  | getWebhook => exact ((getConfig_keeps (routine_even hD) _).bind fun _ => M.Keeps.pure _).complies h
  | putWebhook body =>
    exact ((upsertConfig_keeps (routine_even hD) _ _ _ _).bind fun _ => M.Keeps.pure _).complies h
  | listDeliveries => exact (((routine_even hD).query _).bind fun _ => M.Keeps.pure _).complies h
  | getMetrics => exact ((compute_keeps (routine_even hD) _).bind fun _ => M.Keeps.pure _).complies h

/-- Every transaction of every job is settled. -/
theorem Job.program_settled (cfg : Config S) (workflow : Workflow S) (job : Job) (c : Nat) :
    (job.program cfg workflow c).Obeys (atCommit (Settles cfg job)) (fun _ _ => True) [] := by
  have hD := settles_of_even cfg job
  have done : ∀ {α : Type} {p : M S α}, p.Complies (Settles cfg job) (.start c) [] →
      (p (.start c)).Obeys (atCommit (Settles cfg job)) (fun _ _ => True) [] := by
    intro α p h
    exact Program.obeys_mono h fun _ _ _ => trivial
  cases job with
  | request r =>
    simp only [Job.program, Program.obeys_bind]
    refine done (M.Complies.getDb ?_)
    cases r with
    | register body =>
      exact ((register_keeps (routine_even hD) _ _ _).catching.bind fun _ => M.Keeps.pure _).complies
        even_start
    | login body => exact login_settled body
    | refresh body =>
      exact ((refresh_keeps (routine_even hD) _).catching.bind fun _ => M.Keeps.pure _).complies even_start
    | authenticated creds action =>
      have hallowed : action.allowed ≠ [] := by cases action <;> simp [Api.Action.allowed]
      unfold M.Complies Api.Request.handle
      rw [M.triple_bind]
      refine Program.obeys_mono (obeys_atCommit (requireRole_transcript creds hallowed)
        (requireRole_uncommitted _ creds (.start c))) ?_
      rintro ⟨_ | u, σ'⟩ cs' ⟨hread, hσ⟩
      · trivial
      · change σ' = .start c at hσ
        subst hσ
        obtain ⟨token, claims, id, now, rfl, hvalid, hactive, hrole, rfl⟩ := hread
        by_cases hedit : ∀ ticketId body, action ≠ .editDraft ticketId body
        · exact handle_settled workflow u action hedit rfl
        · simp only [not_forall, not_not] at hedit
          obtain ⟨ticketId, body, rfl⟩ := hedit
          exact editDraft_settled ticketId body hvalid hactive hrole rfl
  | runAgent runId =>
    simp only [Job.program, Program.obeys_bind]
    have howes : Owes (fun id => id) [] [] (.start c : Session S) [] := Owes.start even_start
    exact done (M.complies_of_triple (executeRun_evens hD howes)).sessionScope.bind_pure
  | deliverWebhook deliveryId retries =>
    simp only [Job.program, Program.obeys_bind]
    refine done ?_
    unfold M.Complies Tasks.deliverWebhook
    rw [M.triple_bind]
    have hdeliver : (WebhookService.deliverOnce cfg deliveryId true).Complies
        (Settles cfg (.deliverWebhook deliveryId retries)) (.start c) [] :=
      (deliverOnce_keeps (routine_even hD) aloof_even deliveryId true).complies even_start
    refine M.triple_mono hdeliver.sessionScope ?_ (fun _ _ _ h => h)
    intro success _ _ _
    rw [M.triple_ite]
    exact ⟨fun _ => trivial, fun _ => trivial⟩

end

end

end AgentDesk
