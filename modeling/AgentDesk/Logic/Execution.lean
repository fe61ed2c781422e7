import AgentDesk.Logic.Announcement

namespace AgentDesk

open Framework (Table)

variable {S : Type} {cfg : Config S} {c n : Nat} {faults : Op S → Bool} {db db' : DB S}
  {start : Time}

/-! The statements for an agent run -/

theorem AgentRun.diff_apply (r : AgentRun) (p : AgentRunPatch) :
    (r.diff (p.apply r)).apply r = p.apply r := by
  simp [AgentRun.diff, AgentRunPatch.apply, changed_getD]

theorem updateAgentRun_empty (id : Uuid) :
    Write.apply start db (.updateAgentRun id {}) = db := by
  have hrows : (db.agentRuns.update id ({} : AgentRunPatch).apply fun _ => rfl) = db.agentRuns := by
    apply Table.ext
    change (db.agentRuns.rows.map fun r => if r.id = id then _ else r) = _
    conv_rhs => rw [← List.map_id db.agentRuns.rows]
    refine List.map_congr_left fun r _ => ?_
    split <;> rfl
  simp only [Write.apply, hrows]

/-- A flush sends the changed columns of a run, or nothing when there are none. -/
theorem dirtyAgentRun_updates (c : Nat) (l r : AgentRun) : ∃ ws,
    (@dirtyAgentRun S ⟨l, r⟩).toList = ws ∧ World.ownIds c ws = true ∧
      ∀ (start : Time) (db : DB S),
        applyAll start db ws = Write.apply start db (.updateAgentRun l.id (l.diff r)) ∧
        ∀ xs, violatesAny start db (ws ++ xs) =
          violatesAny start (Write.apply start db (.updateAgentRun l.id (l.diff r))) xs := by
  obtain h | h := @dirtyAgentRun_cases S l r
  · have hdiff : l.diff r = {} := by
      by_contra hne
      simp [dirtyAgentRun, hne] at h
    refine ⟨[], by simp [h], rfl, fun start db => ?_⟩
    rw [hdiff, updateAgentRun_empty]
    simp
  · exact ⟨_, congrArg Option.toList h, rfl, fun _ _ => ⟨rfl, fun _ => rfl⟩⟩

/-! The workflow -/

/-- The session has written nothing so far. -/
structure Solo.Clean (db : DB S) (past : List (DB S)) (s : Solo S Tally) : Prop where
  db : s.db = db
  tx : s.tx = none ∨ ∃ start, s.tx = some (start, [])
  past : s.past = past
  flags : s.tally.flags = .start

namespace Solo

variable {past : List (DB S)} {s : Solo S Tally}

theorem Clean.view (h : s.Clean db past) : s.view = db := by
  obtain ⟨db', tx, past', tally⟩ := s
  obtain ⟨rfl, rfl | ⟨start, rfl⟩, -, -⟩ := h <;> rfl

theorem Clean.opened (h : s.Clean db past) (now : Time) : (s.opened now).2 = [] := by
  obtain ⟨db', tx, past', tally⟩ := s
  obtain ⟨-, rfl | ⟨start, rfl⟩, -, -⟩ := h <;> rfl

end Solo

theorem Flags.start_note {op : Op S} {r : Res op} (hc : op.commits r = false)
    (hb : op.rollsBack = false) : Flags.start.note op r = .start := by
  simp [Flags.note, Flags.start, hc, hb]

theorem workflow_solo (workflow : Workflow S) (initial : AgentState) {σ : Session S}
    {past : List (DB S)} {s : Solo S Tally} (hs : s.Clean db past) :
    (workflow.run initial).Triple (Solo.observer cfg.platform faults Tally.note c)
      (fun state σ' s' => (workflow.run initial σ).Returns (.ok state, σ) ∧ σ' = σ ∧
        s'.Clean db past)
      (fun _ σ' s' => σ' = σ ∧ s'.Clean db past) σ s := by
  have h := Framework.Program.obeys_of_uses
    (O := Solo.observer cfg.platform faults Tally.note c) (P := fun s' => s'.Clean db past)
    (Framework.Program.uses_returns (workflow.readOnly initial σ)) hs ?_
  · refine Framework.Program.obeys_mono h ?_
    rintro ⟨_ | state, σ'⟩ s' ⟨⟨rfl, hr⟩, hclean⟩
    · exact ⟨rfl, hclean⟩
    · exact ⟨hr, rfl, hclean⟩
  · rintro op s₁ hop hclean
    refine ⟨by cases op <;> trivial, fun r s₂ hn => ?_⟩
    have noted : (s₁.tally.note op r).flags = .start := by
      refine (congrArg (fun t => Flags.note t op r) hclean.flags).trans ?_
      cases op <;> first | exact Flags.start_note rfl rfl | exact hop.elim
    cases op with
    | query q =>
      cases r with
      | error e =>
        obtain ⟨-, rfl⟩ := hn
        exact ⟨hclean.db, Or.inl rfl, hclean.past, noted⟩
      | ok x =>
        obtain ⟨now, -, -, rfl⟩ := hn
        exact ⟨hclean.db, Or.inr ⟨_, congrArg some (Prod.ext rfl (hclean.opened now))⟩,
          hclean.past, noted⟩
    | clock =>
      obtain rfl := hn
      exact ⟨hclean.db, hclean.tx, hclean.past, noted⟩
    | embed texts =>
      obtain ⟨-, rfl⟩ := hn
      exact ⟨hclean.db, hclean.tx, hclean.past, noted⟩
    | chat request =>
      obtain ⟨-, rfl⟩ := hn
      exact ⟨hclean.db, hclean.tx, hclean.past, noted⟩
    | _ => exact hop.elim

/-! The result of a run -/

/-- What the workflow decided; anything but an approval request escalates. -/
def AgentState.decision (state : AgentState) : AgentRunOutcome :=
  if state.outcome.getD "escalated" = "waiting_approval" then .waitingApproval else .escalated

def AgentRunOutcome.ticketStatus : AgentRunOutcome → TicketStatus
  | .waitingApproval => .waitingApproval
  | .escalated => .escalated

/-- The run is now `r'` and its ticket `t` has become `t'`, as `state` says. -/
structure Completed (db db' : DB S) (runId : Uuid) (r' : AgentRun) (t t' : Ticket)
    (state : AgentState) : Prop where
  run : db'.agentRuns.find? runId = some r'
  status : r'.status = .completed
  outcome : r'.outcome = some state.decision
  draft : r'.draft = state.draft
  ticket : db'.tickets.find? t.id = some t'
  ticketStatus : t'.status = state.decision.ticketStatus
  ticketDraft : t'.draftResponse = state.draft
  suggestedType : t'.suggestedType = state.suggestedType
  suggestedPriority : t'.suggestedPriority = state.suggestedPriority.bind TicketPriority.ofValue?
  event : ∃ e, db'.ticketEvents.rows = db.ticketEvents.rows ++ [e] ∧ e.ticketId = t.id ∧
    e.eventType = "agent_run" ∧ e.fromStatus = some t.status ∧ e.toStatus = some t'.status

/-- The other runs are as they were. -/
def OtherRuns (db db' : DB S) (runId : Uuid) : Prop :=
  ∀ id, id ≠ runId → db'.agentRuns.find? id = db.agentRuns.find? id

theorem otherRuns_update {runId : Uuid} {p : AgentRunPatch} :
    OtherRuns db (Write.apply start db (.updateAgentRun runId p)) runId :=
  fun _ hid => Table.find?_update_ne (f := p.apply) (fun _ => rfl) hid

theorem OtherRuns.trans {db₁ db₂ db₃ : DB S} {runId : Uuid} (h : OtherRuns db₁ db₂ runId)
    (k : OtherRuns db₂ db₃ runId) : OtherRuns db₁ db₃ runId :=
  fun id hid => (k id hid).trans (h id hid)

theorem OtherRuns.of_eq {runId : Uuid} (h : db'.agentRuns = db.agentRuns) :
    OtherRuns db db' runId := fun _ _ => by rw [h]

/-- A completed run with the confidence of its result; no other run has changed. -/
structure Recorded (db db' : DB S) (runId : Uuid) (r' : AgentRun) (t t' : Ticket)
    (state : AgentState) : Prop extends Completed db db' runId r' t t' state where
  confidence : r'.confidence = state.confidence
  others : OtherRuns db db' runId

theorem Recorded.announced {db₁ db₂ : DB S} {runId : Uuid} {r' : AgentRun} {t t' : Ticket}
    {state : AgentState} (h : Recorded db db₁ runId r' t t' state) (ha : db₁.Announced db₂) :
    Recorded db db₂ runId r' t t' state :=
  ⟨⟨ha.agentRuns ▸ h.run, h.status, h.outcome, h.draft, ha.tickets ▸ h.ticket, h.ticketStatus,
    h.ticketDraft, h.suggestedType, h.suggestedPriority, ha.ticketEvents ▸ h.event⟩, h.confidence,
    h.others.trans (.of_eq ha.agentRuns)⟩

theorem Recorded.of_ticketEvents {db₁ db₂ : DB S} {runId : Uuid} {r' : AgentRun}
    {t t' : Ticket} {state : AgentState} (h : Recorded db₁ db₂ runId r' t t' state)
    (he : db₁.ticketEvents = db.ticketEvents) (ho : OtherRuns db db₁ runId) :
    Recorded db db₂ runId r' t t' state :=
  ⟨⟨h.run, h.status, h.outcome, h.draft, h.ticket, h.ticketStatus, h.ticketDraft, h.suggestedType,
    h.suggestedPriority, he ▸ h.event⟩, h.confidence, ho.trans h.others⟩

theorem suggestedPriority_solo {St : Type} {O : Framework.Observer (Op S) Res St} {s : St}
    {Q : Option TicketPriority → Session S → St → Prop} {E : Err → Session S → St → Prop}
    {σ : Session S} (state : AgentState)
    (hq : Q (state.suggestedPriority.bind TicketPriority.ofValue?) σ s) (he : ∀ e, E e σ s) :
    (AgentRunService.suggestedPriority state).Triple O Q E σ s := by
  unfold AgentRunService.suggestedPriority
  split
  · rename_i h
    rwa [h] at hq
  · rename_i h
    rwa [h] at hq
  · rename_i sp _ h
    rw [h, Option.bind_some] at hq
    split
    · rename_i hp
      rwa [hp] at hq
    · exact he _

/-- A commit of a session whose run has changed. -/
theorem commit_solo {ts : List (Tracked Ticket)} {l r : AgentRun} {ws : List (Write S)}
    {past : List (DB S)} {flags : Flags} {ps : List (Except Err Nat)}
    (hts : ts.filterMap (@dirtyTicket S) = []) (hfts : ts.map Tracked.flushed = ts)
    (hid : r.id = l.id) :
    commit.Triple (Solo.observer cfg.platform faults Tally.note c)
      (fun _ σ' s' => (∃ o, o.loaded.id = l.id ∧ σ' = ⟨c, n, ts, [o], [], [], []⟩) ∧
        s'.db = Write.apply start (applyAll start db ws) (.updateAgentRun l.id (l.diff r)) ∧
        s'.tx = none ∧ (∃ more, s'.past = past ++ more ∧ ∀ v ∈ more, v = db) ∧
        s'.tally = ⟨flags.committed, ps⟩)
      (fun _ σ' s' => σ'.conn = c ∧ s'.db = db ∧ s'.past = past ∧ s'.tally.flags = flags.failed)
      ⟨c, n, ts, [⟨l, r⟩], [], [], []⟩ ⟨db, some (start, ws), past, flags, ps⟩ := by
  obtain ⟨xs, hxs, own, upd⟩ := @dirtyAgentRun_updates S c l r
  have hdb : applyAll start db (ws ++ xs) =
      Write.apply start (applyAll start db ws) (.updateAgentRun l.id (l.diff r)) := by
    rw [applyAll_append, (upd start _).1]
  simp [commit, hts, hxs]
  rw [← hdb]
  cases xs with
  | nil =>
    simp
    exact Solo.committed_past _
  | cons x xs =>
    simp [own, hfts]
    exact fun _ => ⟨hid, Solo.committed_past _⟩

/-- The ticket and the run are updated, the event is inserted, more is announced, and the run
is updated again. -/
def DB.withResult (start : Time) (db : DB S) (id : Uuid) (p : TicketPatch) (runId : Uuid)
    (q q' : AgentRunPatch) (e : TicketEvent) (more : List (Write S)) : DB S :=
  Write.apply start (applyAll start (Write.apply start (Write.apply start (Write.apply start db
    (.updateTicket id p)) (.updateAgentRun runId q)) (.insert (.ticketEvent e))) more)
      (.updateAgentRun runId q')

theorem find?_updateAgentRun {r : AgentRun} {p : AgentRunPatch}
    (h : db.agentRuns.find? r.id = some r) :
    (Write.apply start db (.updateAgentRun r.id p)).agentRuns.find? r.id = some (p.apply r) := by
  change (db.agentRuns.update r.id p.apply fun _ => rfl).find? r.id = _
  rw [Table.find?_update (f := p.apply) fun _ => rfl, if_pos rfl, h]
  rfl

theorem tables_withResult {t : Ticket} {r : AgentRun} {p : TicketPatch} {q q' : AgentRunPatch}
    {e : TicketEvent} {more : List (Write S)} (ht : db.tickets.find? t.id = some t)
    (hr : db.agentRuns.find? r.id = some r) (he : db.ticketEvents.find? e.id = none)
    (hmore : ∀ x ∈ more, Announces x) :
    let db' := db.withResult start t.id p r.id q q' e more
    db'.tickets.find? t.id = some { p.apply t with updatedAt := start } ∧
      db'.agentRuns.find? r.id = some (q'.apply (q.apply r)) ∧
        db'.ticketEvents.rows = db.ticketEvents.rows ++ [{ e with createdAt := start }] := by
  have hsame : DB.Announced _ (applyAll start (Write.apply start (Write.apply start
      (Write.apply start db (.updateTicket t.id p)) (.updateAgentRun r.id q))
        (.insert (.ticketEvent e))) more) := DB.announced_applyAll hmore
  refine ⟨?_, ?_, ?_⟩
  · exact (congrArg (Table.find? · t.id) hsame.tickets).trans (@find?_updateTicket S start db t p ht)
  · refine find?_updateAgentRun (r := q.apply r) ?_
    exact (congrArg (Table.find? · r.id) hsame.agentRuns).trans
      (@find?_updateAgentRun S _ start r q hr)
  · exact (congrArg Table.rows hsame.ticketEvents).trans
      (Table.rows_insert (t := db.ticketEvents) (r := { e with createdAt := start }) he)

theorem event_new_withResult {id runId : Uuid} {p : TicketPatch} {q : AgentRunPatch} {e : TicketEvent}
    (h : violatesAny start (Write.apply start (Write.apply start db (.updateTicket id p))
      (.updateAgentRun runId q)) [.insert (.ticketEvent e)] = false) :
    db.ticketEvents.find? e.id = none := by
  simpa [violatesAny, Write.violates, Row.isPresent, Row.isTaken, Write.apply] using h

/-- The ticket with the workflow's suggestions and draft. -/
def Ticket.suggested (t : Ticket) (state : AgentState) : Ticket :=
  TicketPatch.apply
    { suggestedPriority := some (state.suggestedPriority.bind TicketPriority.ofValue?)
      draftResponse := some state.draft }
    (TicketPatch.apply { suggestedType := some state.suggestedType } t)

def Ticket.moved (t : Ticket) (outcome : AgentRunOutcome) : Ticket :=
  TicketPatch.apply { status := some outcome.ticketStatus } t

def AgentRun.decided (r : AgentRun) (outcome : AgentRunOutcome) : AgentRun :=
  AgentRunPatch.apply { outcome := some (some outcome) } r

def AgentRun.finished (r : AgentRun) (now : Time) : AgentRun :=
  AgentRunPatch.apply { status := some .completed, finishedAt := some (some now) } r

@[simp] theorem Ticket.suggested_id (t : Ticket) (state : AgentState) :
    (t.suggested state).id = t.id := rfl

@[simp] theorem Ticket.suggested_status (t : Ticket) (state : AgentState) :
    (t.suggested state).status = t.status := rfl

theorem Ticket.diff_moved (t : Ticket) (state : AgentState) (outcome : AgentRunOutcome) :
    (t.diff ((t.suggested state).moved outcome)).apply t = (t.suggested state).moved outcome := by
  simp [Ticket.diff, TicketPatch.apply, suggested, moved, changed_getD]

theorem recorded_withResult {t : Ticket} {r : AgentRun} {state : AgentState}
    {outcome : AgentRunOutcome} {now : Time} {e : TicketEvent} {more : List (Write S)}
    (hdb : db.Announced db') (ht : db.tickets.find? t.id = some t)
    (hr : db.agentRuns.find? r.id = some r) (hdraft : r.draft = state.draft)
    (hconfidence : r.confidence = state.confidence)
    (hdecision : state.decision = outcome) (hmore : ∀ x ∈ more, Announces x)
    (hnew : db'.ticketEvents.find? e.id = none) (he : e.ticketId = t.id)
    (htype : e.eventType = "agent_run") (hfrom : e.fromStatus = some t.status)
    (hto : e.toStatus = some outcome.ticketStatus) :
    Recorded db (db'.withResult start t.id (t.diff ((t.suggested state).moved outcome)) r.id
      (r.diff (r.decided outcome)) ((r.decided outcome).diff ((r.decided outcome).finished now))
      e more) r.id ((r.decided outcome).finished now) t
      { (t.suggested state).moved outcome with updatedAt := start } state := by
  subst hdecision
  have htables := @tables_withResult S db' start t r (t.diff ((t.suggested state).moved state.decision))
    (r.diff (r.decided state.decision))
    ((r.decided state.decision).diff ((r.decided state.decision).finished now)) e more
    (hdb.tickets ▸ ht) (hdb.agentRuns ▸ hr) hnew hmore
  obtain ⟨hticket, hrun, hevents⟩ := htables
  rw [t.diff_moved state] at hticket
  rw [AgentRun.decided, r.diff_apply, AgentRun.finished, AgentRun.diff_apply] at hrun
  have hothers : OtherRuns db (db'.withResult start t.id
      (t.diff ((t.suggested state).moved state.decision)) r.id (r.diff (r.decided state.decision))
      ((r.decided state.decision).diff ((r.decided state.decision).finished now)) e more) r.id := by
    refine OtherRuns.trans ?_ otherRuns_update
    have hsame := @DB.announced_applyAll S (Write.apply start (Write.apply start
      (Write.apply start db' (.updateTicket t.id
        (t.diff ((t.suggested state).moved state.decision))))
          (.updateAgentRun r.id (r.diff (r.decided state.decision)))) (.insert (.ticketEvent e))) start more hmore
    refine OtherRuns.trans ?_ (.of_eq hsame.agentRuns)
    exact (OtherRuns.of_eq hdb.agentRuns).trans (@otherRuns_update S _ start _ _)
  exact ⟨⟨hrun, rfl, rfl, hdraft, hticket, rfl, rfl, rfl, rfl,
    { e with createdAt := start }, hdb.ticketEvents ▸ hevents, he, htype, hfrom, hto⟩, hconfidence,
    hothers⟩

theorem applyOutcome_solo {t : Ticket} {r : AgentRun} {ws : List (Write S)} {db₀ : DB S}
    {past : List (DB S)} {ps : List (Except Err Nat)} (state : AgentState)
    (hdb : db₀.Announced (applyAll start db ws)) (ht : db₀.tickets.find? t.id = some t)
    (hr : db₀.agentRuns.find? r.id = some r) (hdraft : r.draft = state.draft)
    (hconfidence : r.confidence = state.confidence) :
    (AgentRunService.applyOutcome r.id t state).Triple
      (Solo.observer cfg.platform faults Tally.note c)
      (fun _ σ' s' => ∃ n' outcome ws', σ' = ⟨c, n', [⟨(t.suggested state).moved outcome,
          (t.suggested state).moved outcome⟩], [⟨r.decided outcome, r.decided outcome⟩], [], [], []⟩ ∧
        s' = ⟨db, some (start, ws ++ ws'), past, .start, ps⟩ ∧
        ∀ now, ∃ t', Recorded db₀ (Write.apply start (applyAll start db (ws ++ ws'))
          (.updateAgentRun r.id ((r.decided outcome).diff ((r.decided outcome).finished now))))
          r.id ((r.decided outcome).finished now) t t' state)
      (fun _ σ' s' => σ'.conn = c ∧ s'.db = db ∧ s'.past = past ∧ s'.tally.flags = .start)
      ⟨c, n, [⟨t, t.suggested state⟩], [⟨r, r⟩], [], [], []⟩
      ⟨db, some (start, ws), past, .start, ps⟩ := by
  by_cases hout : state.outcome.getD "escalated" = "waiting_approval"
  · have hdec : state.decision = .waitingApproval := by simp [AgentState.decision, hout]
    by_cases hcan : canTransition t.status .waitingApproval = true
    · obtain ⟨ws₂, h₂, own₂, upd₂⟩ := @dirtyAgentRun_updates S c r (r.decided .waitingApproval)
      unfold AgentRun.decided at h₂
      simp [AgentRunService.applyOutcome, TicketService.transition, hout, hcan, Flags.start,
        dirtyTicket_of_transition, ownIds_cons, ownIds_append, Row.id, h₂, own₂]
      intro hev
      refine ⟨.waitingApproval, ⟨rfl, rfl⟩, fun now =>
        ⟨{ (t.suggested state).moved .waitingApproval with updatedAt := start }, ?_⟩⟩
      simp only [violatesAny, Write.violates, Bool.false_or, upd₂] at hev
      simp only [applyAll_append, applyAll_cons, applyAll_nil, upd₂]
      have hnone : ∀ x ∈ ([] : List (Write S)), Announces x := by simp
      exact recorded_withResult hdb ht hr hdraft hconfidence hdec hnone (event_new_withResult hev) rfl rfl rfl
        rfl
    · simp [AgentRunService.applyOutcome, TicketService.transition, hout, hcan]
  · have hdec : state.decision = .escalated := by simp [AgentState.decision, hout]
    by_cases hcan : canTransition t.status .escalated = true
    · obtain ⟨ws₂, h₂, own₂, upd₂⟩ := @dirtyAgentRun_updates S c r (r.decided .escalated)
      unfold AgentRun.decided at h₂
      simp [AgentRunService.applyOutcome, AgentRunService.audit, record, TicketService.transition,
        hout, hcan, Flags.start, dirtyTicket_of_transition, ownIds_cons, ownIds_append, Row.id, h₂,
        own₂]
      intro hev _
      refine ⟨.escalated, ⟨rfl, rfl⟩, fun now =>
        ⟨{ (t.suggested state).moved .escalated with updatedAt := start }, ?_⟩⟩
      simp only [violatesAny, Write.violates, Bool.false_or, upd₂] at hev
      simp only [applyAll_append, applyAll_cons, applyAll_nil, upd₂]
      have hmore : ∀ a : AuditLog, ∀ x ∈ [@Write.insert S (.auditLog a)], Announces x := by
        rintro a x hx
        obtain rfl := List.mem_singleton.mp hx
        trivial
      exact recorded_withResult hdb ht hr hdraft hconfidence hdec (hmore _) (event_new_withResult hev) rfl rfl
        rfl rfl
    · simp [AgentRunService.applyOutcome, TicketService.transition, hout, hcan]

/-- What is known when the result of the run is committed. -/
structure Solo.Persisted (db₀ db₁ : DB S) (past₁ : List (DB S)) (c : Nat) (runId : Uuid)
    (t : Ticket) (state : AgentState) (σ : Session S) (s : Solo S Tally) : Prop where
  session : ∃ n t' o, t'.id = t.id ∧ t'.organizationId = t.organizationId ∧ o.loaded.id = runId ∧
    σ = ⟨c, n, [⟨t', t'⟩], [o], [], [], []⟩
  db : ∃ r' t', Recorded db₀ s.db runId r' t t' state
  tx : s.tx = none
  past : ∃ more, s.past = past₁ ++ more ∧ ∀ v ∈ more, v = db₁
  flags : s.tally.flags = ⟨false, true, false, false⟩

theorem applyResult_solo {t : Ticket} {r : AgentRun} {ws : List (Write S)} {db₀ : DB S}
    {past : List (DB S)} {ps : List (Except Err Nat)} (state : AgentState)
    (hdb : db₀.Announced (applyAll start db ws)) (ht : db₀.tickets.find? t.id = some t)
    (hr : db₀.agentRuns.find? r.id = some r) (hdraft : r.draft = state.draft)
    (hconfidence : r.confidence = state.confidence) :
    (AgentRunService.applyResult r.id t state).Triple
      (Solo.observer cfg.platform faults Tally.note c)
      (fun _ σ' s' => Solo.Persisted db₀ db past c r.id t state σ' s')
      (fun _ σ' s' => σ'.conn = c ∧ s'.db = db ∧ s'.past = past ∧ s'.tally.flags = .start)
      ⟨c, n, [⟨t, t⟩], [⟨r, r⟩], [], [], []⟩
      ⟨db, some (start, ws), past, .start, ps⟩ := by
  simp [AgentRunService.applyResult, AgentRunService.audit, record, Flags.start, ownIds_cons, Row.id]
  intro _
  refine suggestedPriority_solo state ?_ (fun _ => by simp)
  rw [putTicket_single rfl]
  refine M.triple_mono (applyOutcome_solo state ?_ ht hr hdraft hconfidence) ?_ (fun _ _ _ h => h)
  · rw [applyAll_append]
    exact hdb.trans (@DB.announced_apply S _ start (.insert (.auditLog _)) trivial)
  · rintro _ _ _ ⟨n', outcome, ws', rfl, rfl, hcompleted⟩ now
    rw [putAgentRun_single (show (r.decided outcome).id = r.id from rfl)]
    refine M.triple_mono (commit_solo (by simp) (by simp) rfl) ?_ ?_
    · rintro _ _ s' ⟨⟨o, ho, rfl⟩, hdb', htx, hpast, htally⟩
      obtain ⟨t', h⟩ := hcompleted now
      exact ⟨⟨_, (t.suggested state).moved outcome, _, rfl, rfl, ho, rfl⟩, ⟨_, t', hdb' ▸ h⟩, htx, hpast, by rw [htally]; rfl⟩
    · rintro _ _ s' ⟨hconn, hdb', hpast, hflags⟩
      exact ⟨hconn, hdb', hpast, hflags⟩

/-- The same from the tables that the session found, when it has flushed the run and its first
milestone. -/
theorem applyResult_flushed_solo {t : Ticket} {r : AgentRun} {past : List (DB S)}
    {ps : List (Except Err Nat)} (state : AgentState) (p : AgentRunPatch) (a : AuditLog)
    (ht : db.tickets.find? t.id = some t) (hr : db.agentRuns.find? r.id = some r)
    (hdraft : (p.apply r).draft = state.draft)
    (hconfidence : (p.apply r).confidence = state.confidence) :
    (AgentRunService.applyResult r.id t state).Triple
      (Solo.observer cfg.platform faults Tally.note c)
      (fun _ σ' s' => Solo.Persisted db db past c r.id t state σ' s')
      (fun _ σ' s' => σ'.conn = c ∧ s'.db = db ∧ s'.past = past ∧ s'.tally.flags = .start)
      ⟨c, n, [⟨t, t⟩], [⟨p.apply r, p.apply r⟩], [], [], []⟩
      ⟨db, some (start, (@dirtyAgentRun S ⟨r, p.apply r⟩).toList ++ [.insert (.auditLog a)]), past,
        .start, ps⟩ := by
  obtain ⟨ws, hws, -, upd⟩ := @dirtyAgentRun_updates S c r (p.apply r)
  have hr' := @find?_updateAgentRun S db start r (r.diff (p.apply r)) hr
  rw [r.diff_apply] at hr'
  rw [hws]
  have hdb : (Write.apply start db (.updateAgentRun r.id (r.diff (p.apply r)))).Announced
      (applyAll start db (ws ++ [.insert (.auditLog a)])) := by
    rw [applyAll_append, (upd start db).1]
    exact @DB.announced_apply S _ start (.insert (.auditLog a)) trivial
  refine M.triple_mono (applyResult_solo state hdb ht hr' hdraft hconfidence) ?_ (fun _ _ _ h => h)
  rintro _ _ s' ⟨hσ, ⟨r', t', hcompleted⟩, htx, hpast, hflags⟩
  exact ⟨hσ, ⟨r', t', hcompleted.of_ticketEvents rfl otherRuns_update⟩, htx, hpast, hflags⟩

theorem persistResult_solo (workflow : Workflow S) {t : Ticket} {r : AgentRun}
    {past : List (DB S)} {s : Solo S Tally} (started : Time) (hs : s.Clean db past)
    (ht : db.tickets.find? t.id = some t) (hr : db.agentRuns.find? r.id = some r) :
    (AgentRunService.persistResult workflow r.id t started).Triple
      (Solo.observer cfg.platform faults Tally.note c)
      (fun _ σ' s' => ∃ state, (∃ σ, (workflow.run (AgentRunService.initialState t) σ).Returns
        (.ok state, σ)) ∧ Solo.Persisted db db past c r.id t state σ' s')
      (fun _ σ' s' => σ'.conn = c ∧ s'.db = db ∧ s'.past = past ∧ s'.tally.flags = .start)
      ⟨c, n, [⟨t, t⟩], [⟨r, r⟩], [], [], []⟩ s := by
  unfold AgentRunService.persistResult
  rw [M.triple_bind]
  refine M.triple_mono (workflow_solo workflow _ hs) ?_ ?_
  · rintro state _ ⟨db', tx, past', flags, ps⟩ ⟨hreturns, rfl, hclean⟩
    obtain ⟨rfl, htx, rfl, rfl⟩ := hclean
    have own := fun now => @dirtyAgentRun_updates S c r
      ((AgentRunService.resultPatch state ((now - started) / 1000)).apply r)
    obtain rfl | ⟨start, rfl⟩ := htx
    · simp [AgentRunService.audit, record, ownIds_append, ownIds_cons, Row.id]
      intro now
      obtain ⟨ws, hws, own, -⟩ := own now
      refine ⟨hws ▸ own, fun start _ => ?_⟩
      exact M.triple_mono (applyResult_flushed_solo state _ _ ht hr rfl rfl)
        (fun _ _ _ h => ⟨state, ⟨_, hreturns⟩, h⟩) (fun _ _ _ h => h)
    · simp [AgentRunService.audit, record, ownIds_append, ownIds_cons, Row.id]
      intro now
      obtain ⟨ws, hws, own, -⟩ := own now
      refine ⟨hws ▸ own, fun _ => ?_⟩
      exact M.triple_mono (applyResult_flushed_solo state _ _ ht hr rfl rfl)
        (fun _ _ _ h => ⟨state, ⟨_, hreturns⟩, h⟩) (fun _ _ _ h => h)
  · rintro _ _ s' ⟨rfl, hclean⟩
    exact ⟨rfl, hclean.db, hclean.past, hclean.flags⟩

/-! After the commit -/

theorem announceResult_solo {runId : Uuid} {t t' : Ticket} {r' : AgentRun} {o : Tracked AgentRun}
    {past : List (DB S)} {ps : List (Except Err Nat)} (ho : o.loaded.id = runId)
    (ht : db.tickets.find? t.id = some t') (hr : db.agentRuns.find? runId = some r') :
    (AgentRunService.announceResult cfg runId t.id).Triple
      (Solo.observer cfg.platform faults Tally.note c)
      (fun _ _ s' => db.Announced s'.db ∧ (∃ more, s'.past = past ++ more ∧
        ∀ v ∈ more, db.Announced v) ∧ s'.tally.flags = ⟨false, true, false, false⟩)
      (fun _ σ' s' => σ'.conn = c ∧ db.Announced s'.db ∧ (∃ more, s'.past = past ++ more ∧
        ∀ v ∈ more, db.Announced v) ∧ s'.tally.flags = ⟨false, true, false, true⟩)
      ⟨c, n, [⟨t, t⟩], [o], [], [], []⟩ ⟨db, none, past, ⟨false, true, false, false⟩, ps⟩ := by
  have hid : t'.id = t.id := Table.key_of_find? ht
  have hrid : r'.id = runId := Table.key_of_find? hr
  simp [AgentRunService.announceResult, M.triple_ite, hr, ht, ho, DB.Announced.refl]
  rintro _ now rfl
  refine ⟨fun _ => ?_, fun _ => hrid⟩
  refine M.triple_mono (enqueueForTicket_solo "ticket.escalated" hid rfl (by simp) (by simp)
    (by simp) (by simp) (by simp [hid])) ?_ (fun _ _ _ h => ⟨h.1, h.2⟩)
  rintro _ _ s' ⟨⟨n', ws, ds, rfl⟩, hdb, -, hpast, hflags⟩
  simp [hrid]
  exact ⟨hdb, hpast, hflags⟩

/-- The run is marked failed, and nothing else is changed. -/
structure FailureRecorded (db db' : DB S) (r : AgentRun) : Prop where
  run : ∃ r', db'.agentRuns.find? r.id = some r' ∧ r'.status = .failed ∧ r'.draft = r.draft ∧
    r'.outcome = r.outcome ∧ r'.confidence = r.confidence
  tickets : db'.tickets = db.tickets
  ticketEvents : db'.ticketEvents = db.ticketEvents
  auditLogs : db'.auditLogs = db.auditLogs

theorem failureRecorded_update {r : AgentRun} (hr : db.agentRuns.find? r.id = some r)
    (error : String) (finished : Time) :
    FailureRecorded db (Write.apply start db (.updateAgentRun r.id (r.diff (AgentRunPatch.apply
      { status := some .failed, error := some (some error), finishedAt := some (some finished) }
      r)))) r := by
  have hrun := @find?_updateAgentRun S db start r (r.diff (AgentRunPatch.apply
      { status := some .failed, error := some (some error), finishedAt := some (some finished) }
      r)) hr
  rw [r.diff_apply] at hrun
  exact ⟨⟨_, hrun, rfl, rfl, rfl, rfl⟩, rfl, rfl, rfl⟩

theorem recordFailure_solo {α : Type} {r : AgentRun} {db : DB S} {past : List (DB S)}
    {tx : Option (Time × List (Write S))} {ps : List (Except Err Nat)} {σ : Session S}
    {persisted : Bool} (exc : Err) (hσ : σ.conn = c) (hr : db.agentRuns.find? r.id = some r) :
    (@AgentRunService.recordFailure S α r.id exc).Triple
      (Solo.observer cfg.platform faults Tally.note c)
      (fun _ _ _ => False)
      (fun _ _ s' =>
        s'.db = db ∧ s'.past = past ∧ s'.tally.flags = ⟨true, persisted, false, persisted⟩ ∨
        FailureRecorded db s'.db r ∧ (∃ more, s'.past = past ++ more ∧ ∀ v ∈ more, v = db) ∧
          s'.tally.flags = ⟨true, persisted, true, persisted⟩)
      σ ⟨db, tx, past, ⟨false, persisted, false, persisted⟩, ps⟩ := by
  subst hσ
  simp [AgentRunService.recordFailure, hr]
  rintro _ now rfl finished
  rw [putAgentRun_single rfl]
  refine M.triple_mono (commit_solo (by simp) (by simp) rfl) ?_ ?_
  · rintro _ _ s' ⟨-, hdb, -, hpast, htally⟩
    refine Or.inr ⟨?_, hpast, ?_⟩
    · rw [hdb]
      exact failureRecorded_update hr exc.str finished
    · simp [htally]
  · rintro _ _ s' ⟨-, hdb, hpast, hflags⟩
    refine Or.inl ⟨hdb, hpast, ?_⟩
    simp [hflags]

/-! A whole execution -/

/-- The tables once a result of the workflow is committed; the run is now `r'`. -/
def RunResult (workflow : Workflow S) (db db' : DB S) (runId : Uuid) (r' : AgentRun) (t : Ticket) :
    Prop :=
  ∃ state t', (∃ σ, (workflow.run (AgentRunService.initialState t) σ).Returns (.ok state, σ)) ∧
    Completed db db' runId r' t t' state

/-- The same with the confidence of the result, and no other run has changed. -/
def RunRecord (workflow : Workflow S) (db db' : DB S) (runId : Uuid) (r' : AgentRun) (t : Ticket) :
    Prop :=
  ∃ state t', (∃ σ, (workflow.run (AgentRunService.initialState t) σ).Returns (.ok state, σ)) ∧
    Recorded db db' runId r' t t' state

theorem RunRecord.result {workflow : Workflow S} {runId : Uuid} {r' : AgentRun} {t : Ticket}
    (h : RunRecord workflow db db' runId r' t) : RunResult workflow db db' runId r' t := by
  obtain ⟨state, t', hreturns, hrecorded⟩ := h
  exact ⟨state, t', hreturns, hrecorded.toCompleted⟩

/-- How an execution ends that has found run `r` and its ticket `t`: it commits nothing, or
that the run failed, or a result, or a result and then that the run failed. -/
inductive Executed (workflow : Workflow S) (db : DB S) (past : List (DB S)) (r : AgentRun)
    (t : Ticket) (s : Solo S Tally) : Prop where
  | nothing (hdb : s.db = db) (hpast : s.past = past)
    (hflags : ∃ b, s.tally.flags = ⟨b, false, false, false⟩)
  | failure (h : FailureRecorded db s.db r)
    (hpast : ∃ more, s.past = past ++ more ∧ ∀ v ∈ more, v = db)
    (hflags : s.tally.flags = ⟨true, false, true, false⟩)
  | result (r' : AgentRun) (h : RunRecord workflow db s.db r.id r' t)
    (hpast : ∃ before after, s.past = past ++ before ++ after ∧ (∀ v ∈ before, v = db) ∧
      ∀ v ∈ after, v.agentRuns.find? r.id = some r')
    (hflags : ∃ b late, s.tally.flags = ⟨b, true, false, late⟩)
  | both (r' : AgentRun) (db₂ : DB S) (h : RunRecord workflow db db₂ r.id r' t)
    (hfailure : FailureRecorded db₂ s.db r') (hflags : s.tally.flags = ⟨true, true, true, true⟩)

theorem execution_solo (workflow : Workflow S) {t : Ticket} {r : AgentRun} {past : List (DB S)}
    {s : Solo S Tally} (started : Time) (hs : s.Clean db past)
    (ht : db.tickets.find? t.id = some t) (hr : db.agentRuns.find? r.id = some r) :
    (M.except (do
        AgentRunService.persistResult workflow r.id t started
        AgentRunService.announceResult cfg r.id t.id)
      (AgentRunService.recordFailure r.id)).Triple
      (Solo.observer cfg.platform faults Tally.note c)
      (fun _ _ s' => Executed workflow db past r t s' ∧
        s'.tally.flags = ⟨false, true, false, false⟩)
      (fun _ _ s' => Executed workflow db past r t s' ∧
        s'.tally.flags.late = s'.tally.flags.persisted)
      ⟨c, n, [⟨t, t⟩], [⟨r, r⟩], [], [], []⟩ s := by
  rw [M.triple_except, M.triple_bind]
  refine M.triple_mono (persistResult_solo workflow started hs ht hr) ?_ ?_
  · rintro _ _ ⟨db₁, tx, past₁, flags, ps⟩ ⟨state, hreturns, hp⟩
    obtain ⟨⟨n', t', o, hid, horg, ho, rfl⟩, ⟨r', t'', hcompleted⟩, rfl, ⟨before, rfl, hbefore⟩, rfl⟩ := hp
    rw [← hid]
    refine M.triple_mono (announceResult_solo ho (hid ▸ hcompleted.ticket) hcompleted.run) ?_ ?_
    · rintro _ _ s' ⟨hdb, ⟨after, hpast, hafter⟩, hflags⟩
      refine ⟨.result r' ⟨state, t'', hreturns, hcompleted.announced hdb⟩
        ⟨before, after, hpast, hbefore, fun v hv => ?_⟩ ⟨_, _, hflags⟩, hflags⟩
      exact (hafter v hv).agentRuns ▸ hcompleted.run
    · rintro e σ' ⟨db₂, tx₂, past₂, flags₂, ps₂⟩ ⟨hconn, hdb, ⟨after, rfl, hafter⟩, rfl⟩
      have hcompleted₂ := hcompleted.announced hdb
      have hrid : r'.id = r.id := Table.key_of_find? hcompleted.run
      rw [← hrid]
      refine M.triple_mono (recordFailure_solo e hconn (hrid ▸ hcompleted₂.run)) (fun _ _ _ h => h.elim) ?_
      rintro _ _ s' (⟨hdb', hpast, hflags⟩ | ⟨hfailure, hpast, hflags⟩)
      · refine ⟨.result r' ⟨state, t'', hreturns, hdb' ▸ hcompleted₂⟩
          ⟨before, after, hpast, hbefore, fun v hv => ?_⟩ ⟨_, _, hflags⟩, by rw [hflags]⟩
        exact (hafter v hv).agentRuns ▸ hcompleted.run
      · exact ⟨.both r' db₂ ⟨state, t'', hreturns, hcompleted₂⟩ hfailure hflags, by rw [hflags]⟩
  · rintro e σ' ⟨db₁, tx, past₁, flags, ps⟩ ⟨hconn, rfl, rfl, rfl⟩
    refine M.triple_mono (recordFailure_solo e hconn hr) (fun _ _ _ h => h.elim) ?_
    rintro _ _ s' (⟨hdb, hpast, hflags⟩ | ⟨hfailure, hpast, hflags⟩)
    · exact ⟨.nothing hdb hpast ⟨_, hflags⟩, by rw [hflags]⟩
    · exact ⟨.failure hfailure hpast hflags, by rw [hflags]⟩

/-- A session that may execute the run: a worker has loaded nothing yet, and the session that
started the run still holds the run and its ticket. -/
inductive Ready (c : Nat) (r : AgentRun) (t : Ticket) : Session S → Prop where
  | worker : Ready c r t (.start c)
  | eager (n : Nat) : Ready c r t ⟨c, n, [⟨t, t⟩], [⟨r, r⟩], [], [], []⟩

theorem executeRun_solo (workflow : Workflow S) {t : Ticket} {r : AgentRun} {past : List (DB S)}
    {σ : Session S} {s : Solo S Tally} (hσ : Ready c r t σ) (hs : s.Clean db past)
    (ht : db.tickets.find? r.ticketId = some t) (hr : db.agentRuns.find? r.id = some r) :
    (AgentRunService.executeRun cfg workflow r.id).Triple
      (Solo.observer cfg.platform faults Tally.note c)
      (fun _ _ s' => Executed workflow db past r t s' ∧
        s'.tally.flags = ⟨false, true, false, false⟩)
      (fun _ _ s' => Executed workflow db past r t s' ∧
        s'.tally.flags.late = s'.tally.flags.persisted) σ s := by
  have hid : t.id = r.ticketId := Table.key_of_find? ht
  obtain ⟨db', tx, past', flags, ps⟩ := s
  have hclean : ∀ start, Solo.Clean db' past' ⟨db', some (start, []), past', .start, ps⟩ :=
    fun start => ⟨rfl, Or.inr ⟨start, rfl⟩, rfl, rfl⟩
  have hnothing : ∀ tx, Executed workflow db' past' r t ⟨db', tx, past', .start, ps⟩ :=
    fun _ => .nothing rfl rfl ⟨_, rfl⟩
  have hflags : Flags.start.late = Flags.start.persisted := rfl
  cases hσ with
  | worker =>
    obtain ⟨rfl, rfl | ⟨start, rfl⟩, rfl, rfl⟩ := hs
    · simp [AgentRunService.executeRun, Session.start, hr, hnothing, hflags, -M.triple_except]
      rintro _ now rfl t' ht' started
      obtain rfl := Option.some.inj (ht.symm.trans ht')
      exact execution_solo workflow started (hclean now) (hid ▸ ht) hr
    · simp [AgentRunService.executeRun, Session.start, hr, ht, hnothing, hflags, -M.triple_except]
      exact fun started => execution_solo workflow started (hclean start) (hid ▸ ht) hr
  | eager n =>
    simp [AgentRunService.executeRun, hid, -M.triple_except]
    rw [← hid]
    obtain ⟨rfl, htx, rfl, rfl⟩ := hs
    exact fun started => execution_solo workflow started ⟨rfl, htx, rfl, rfl⟩ (hid ▸ ht) hr

/-- The run, loaded or not, in a world where no other session has a transaction. -/
theorem executeRun_executed (cfg : Config S) (workflow : Workflow S) (w : World S) (c : Nat)
    (hidle : ∀ tx ∈ w.txs, tx.session = c ∧ tx.writes = []) {r : AgentRun} {t : Ticket}
    (hr : w.db.agentRuns.find? r.id = some r) (ht : w.db.tickets.find? r.ticketId = some t)
    {σ : Session S} (hσ : Ready c r t σ) (env : Nat → Reply S) :
    ∃ result σ' w' env' cs s',
      (AgentRunService.executeRun cfg workflow r.id σ).run (server cfg.platform) c env w =
        some ((result, σ'), w', env') ∧
      w'.calls = w.calls ++ cs ∧ w'.db = s'.db ∧ w'.past = w.past ++ s'.past ∧
      s'.tally.flags =
        ⟨cs.any Call.rollsBack, persists cs, recordsFailure cs, failsAfterCommit cs⟩ ∧
      Executed workflow w.db [] r t s' ∧
      (result.isOk = true → s'.tally.flags = ⟨false, true, false, false⟩) ∧
      (result.isOk = false → s'.tally.flags.late = s'.tally.flags.persisted) := by
  have hstart : Solo.At Tally.note c w .start w
      ⟨w.db, (w.tx? c).map fun tx => (tx.start, tx.writes), [], .start⟩ := by
    refine ⟨rfl, fun d hd => ?_, rfl, by simp, [], by simp, rfl⟩
    refine List.find?_eq_none.mpr fun tx htx => ?_
    simpa [(hidle tx htx).1] using Ne.symm hd
  have hclean : Solo.Clean w.db [] ⟨w.db, (w.tx? c).map fun tx => (tx.start, tx.writes), [], .start⟩ := by
    refine ⟨rfl, ?_, rfl, rfl⟩
    cases htx : w.tx? c with
    | none => exact Or.inl rfl
    | some tx => exact Or.inr ⟨tx.start, by simp [(hidle tx (List.mem_of_find?_eq_some htx)).2]⟩
  obtain ⟨⟨result, σ'⟩, w', env', hrun, s', hpost, hat⟩ := Solo.run_of_triple env
    (@executeRun_solo S cfg c (fun _ => true) w.db workflow t r [] σ _ hσ hclean ht hr) hstart
  obtain ⟨cs, hcs, htally⟩ := hat.calls
  rw [Tally.foldl_note_start] at htally
  refine ⟨result, σ', w', env', cs, s', hrun, hcs, hat.db, hat.past, by rw [htally]; rfl, ?_⟩
  cases result with
  | ok r₁ => exact ⟨hpost.1, fun _ => hpost.2, fun h => by cases h⟩
  | error e => exact ⟨hpost.1, fun h => (by cases h), fun _ => hpost.2⟩

end AgentDesk
