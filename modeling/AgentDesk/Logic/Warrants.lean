import AgentDesk.Logic.Ledger

namespace AgentDesk

variable {S α : Type} {cfg : Config S} {job : Job} {c n : Nat} {s : Ledger S}

/-- Whatever the coroutine commits is warranted. -/
def M.Warranted (cfg : Config S) (job : Job) (c : Nat) (p : M S α) (σ : Session S)
    (s : Ledger S) : Prop :=
  p.Triple (Ledger.observer cfg job c) (fun _ _ _ => True) (fun _ _ _ => True) σ s

theorem M.warranted_of_triple {p : M S α} {Q : α → Session S → Ledger S → Prop}
    {E : Err → Session S → Ledger S → Prop} {σ : Session S}
    (h : p.Triple (Ledger.observer cfg job c) Q E σ s) : p.Warranted cfg job c σ s :=
  M.triple_mono h (fun _ _ _ _ => trivial) (fun _ _ _ _ => trivial)

/-! Webhooks -/

section

variable {ts : List (Tracked Ticket)} {rs : List (Tracked AgentRun)} {ws : List (Tracked Webhook)}

theorem performAttempt_warranted (d : WebhookDelivery) (w : Webhook) (ownsClient : Bool)
    (hs : s.writes = []) (hts : ts.filterMap (@dirtyTicket S) = [])
    (hrs : rs.filterMap (@dirtyAgentRun S) = []) (hws : ws.filterMap (@dirtyWebhook S) = []) :
    (WebhookService.performAttempt cfg d w ownsClient).Warranted cfg job c
      ⟨c, n, ts, rs, ws, [⟨d, d⟩], []⟩ s := by
  simp [M.Warranted, WebhookService.performAttempt, WebhookService.attempt,
    WebhookService.settleAttempt, M.triple_ite, hts, hrs, hws, hs, record, commit,
    dirtyDelivery_of_attempts]

theorem deliverOnce_warranted (id : Uuid) (ownsClient : Bool) (hs : s.writes = [])
    (hts : ts.filterMap (@dirtyTicket S) = []) (hrs : rs.filterMap (@dirtyAgentRun S) = []) :
    (WebhookService.deliverOnce cfg id ownsClient).Warranted cfg job c
      ⟨c, n, ts, rs, [], [], []⟩ s := by
  simp [M.Warranted, WebhookService.deliverOnce, hs]
  rintro d rfl w -
  exact performAttempt_warranted d w ownsClient hs hts hrs (by simp)

/-- The delivery was just created in the same session. -/
theorem deliverOnce_tracked_warranted (d : WebhookDelivery) (w : Webhook) (ownsClient : Bool)
    (hs : s.writes = []) (hts : ts.filterMap (@dirtyTicket S) = [])
    (hrs : rs.filterMap (@dirtyAgentRun S) = []) :
    (WebhookService.deliverOnce cfg d.id ownsClient).Warranted cfg job c
      ⟨c, n, ts, rs, [⟨w, w⟩], [⟨d, d⟩], []⟩ s := by
  have attempt : ∀ ws v, ws.filterMap (@dirtyWebhook S) = [] →
      (WebhookService.performAttempt cfg d v ownsClient).Warranted cfg job c
        ⟨c, n, ts, rs, ws, [⟨d, d⟩], []⟩ s :=
    fun ws v hws => performAttempt_warranted d v ownsClient hs hts hrs hws
  simp [M.Warranted, WebhookService.deliverOnce, hs]
  refine ⟨fun _ => attempt _ w (by simp), fun _ v _ => ⟨fun _ => ?_, fun _ => ?_⟩⟩
  · exact attempt _ w (by simp)
  · exact attempt _ v (by simp)

theorem enqueueForTicket_warranted (t : Ticket) (event : String) (hs : s.writes = [])
    (hts : ts.filterMap (@dirtyTicket S) = []) (hrs : rs.filterMap (@dirtyAgentRun S) = [])
    (hfind : ts.find? (fun o => o.loaded.id == t.id) = some ⟨t, t⟩) :
    (WebhookService.enqueueForTicket cfg t.id event).Warranted cfg job c
      ⟨c, n, ts, rs, [], [], []⟩ s := by
  simp [M.Warranted, WebhookService.enqueueForTicket, WebhookService.dispatch, M.triple_ite, hts,
    hrs, hs, hfind, commit, dirtyDelivery_of_payload]
  intro w hw _ _
  refine ⟨hw.symm, ?_⟩
  rintro d - - -
  exact deliverOnce_tracked_warranted d w true rfl (by simp) (by simp)

end

theorem upsertConfig_warranted (organizationId : Uuid) (url secret : String) (isActive : Bool)
    (hs : s.writes = []) :
    (WebhookService.upsertConfig organizationId url secret isActive).Warranted cfg job c
      ⟨c, n, [], [], [], [], []⟩ s := by
  simp [M.Warranted, WebhookService.upsertConfig, commit, hs]
  intro w _
  obtain h | h := @dirtyWebhook_cases S w (WebhookPatch.apply
    { url := some url, secret := some secret, isActive := some isActive } w) <;> simp [h]

/-! Tickets -/

theorem createTicket_warranted (organizationId actorUserId : Uuid) (title description : String)
    (priority : TicketPriority) (hs : s.writes = []) :
    (TicketService.createTicket organizationId actorUserId title description priority).Warranted
      cfg job c ⟨c, n, [], [], [], [], []⟩ s := by
  simp [M.Warranted, TicketService.createTicket, record, commit, hs, Ledger.Parent]

section

variable {t : Ticket} {u : User} (hs : s.writes = []) (hrow : s.row t.id = some t)
  (hjob : job.runs = false)
include hs hrow hjob

theorem approve_warranted (edited : Option String) (hu : s.Authenticates cfg job.creds u)
    (hrole : u.role = .admin ∨ u.role = .operator) (horg : u.organizationId = t.organizationId) :
    (TicketService.approve cfg t.id u.id edited).Warranted cfg job c
      ⟨c, n, [⟨t, t⟩], [], [], [], []⟩ s := by
  simp [M.Warranted, TicketService.approve, TicketService.transition, M.triple_ite, commit, record]
  intro hblank hcan
  rw [dirtyTicket_of_transition (by simpa using hcan)]
  simp [hs, hjob, or_imp, forall_and]
  refine ⟨⟨⟨t, hrow, ?_⟩, ?_⟩, ?_⟩
  · have hst : changed t.status .approved = some .approved :=
      changed_eq_some.mpr ⟨canTransition_ne hcan, rfl⟩
    refine ⟨?_, fun _ => ?_, fun _ => ?_, fun h => by simp [hjob] at h⟩
    · intro st h
      simp only [Ticket.diff, TicketPatch.apply_status, Option.getD_some, hst] at h
      cases h
      exact hcan
    · refine ⟨u, TicketService.finalOf t edited, ⟨hu.read, hu.active, hu.token⟩, hrole, horg,
        hblank, ?_, ?_⟩
      · simp [Ticket.diff, changed_getD]
      · exact ⟨⟨_, .tail _ (.head _), rfl, rfl, rfl⟩,
          ⟨_, .tail _ (.tail _ (.head _)), rfl, rfl, rfl, rfl⟩⟩
    · simpa [Ticket.diff] using hst
  · exact Or.inl ⟨t, hrow, rfl⟩
  · rintro t' ht'
    rw [← ht']
    exact enqueueForTicket_warranted t' _ rfl (by simp) (by simp) (by simp)

theorem reject_warranted (actorUserId : Uuid) (reason : Option String) :
    (TicketService.reject t.id actorUserId reason).Warranted cfg job c
      ⟨c, n, [⟨t, t⟩], [], [], [], []⟩ s := by
  simp [M.Warranted, TicketService.reject, TicketService.transition, M.triple_ite, commit, record]
  intro hcan
  rw [dirtyTicket_of_transition (by simpa using hcan)]
  simp [hs, hjob, or_imp, forall_and]
  refine ⟨⟨t, hrow, ?_⟩, Or.inl ⟨t, hrow, rfl⟩⟩
  have hst : changed t.status .rejected = some .rejected :=
    changed_eq_some.mpr ⟨canTransition_ne hcan, rfl⟩
  constructor
  · intro st h
    simp only [Ticket.diff, TicketPatch.apply_status, Option.getD_some, hst] at h
    cases h
    exact hcan
  · intro h
    simp [Ticket.diff, hst] at h
  · intro h
    simp [Ticket.diff] at h
  · intro h
    simp [hjob] at h

theorem editDraft_warranted (actorUserId : Uuid) (content : String) :
    (TicketService.editDraft t.id actorUserId content).Warranted cfg job c
      ⟨c, n, [⟨t, t⟩], [], [], [], []⟩ s := by
  simp [M.Warranted, TicketService.editDraft, M.triple_ite, commit]
  intro _
  have parent : s.Parent t.id t.organizationId := Or.inl ⟨t, hrow, rfl⟩
  have change : s.Change cfg job t
      (t.diff (TicketPatch.apply { draftResponse := some (some content) } t)) := by
    constructor <;> simp [Ticket.diff, hjob]
  obtain h | h := @dirtyTicket_cases S t
    (TicketPatch.apply { draftResponse := some (some content) } t)
  · simpa [h, hs, Ledger.Parent] using parent
  · simp [h, hs, hjob, or_imp, forall_and]
    exact ⟨⟨t, hrow, change.allowed, fun h => by simp [Ticket.diff] at h, change.final, change.run⟩,
      Or.inl ⟨t, hrow, rfl⟩⟩

end

/-! Agent runs -/

theorem readOnly_triple {p : M S α} (hp : p.ReadOnly) {σ : Session S} (hs : s.writes = []) :
    p.Triple (Ledger.observer cfg job c)
      (fun _ σ' s' => σ' = σ ∧ s'.writes = [] ∧ s'.row = s.row)
      (fun _ _ _ => True) σ s := by
  have h := Framework.Program.obeys_of_uses (O := Ledger.observer cfg job c)
    (P := fun s' => s'.writes = [] ∧ s'.row = s.row) (hp σ) ⟨hs, rfl⟩ ?_
  · refine Framework.Program.obeys_mono h ?_
    rintro ⟨_ | a, σ'⟩ s' ⟨hσ, hw, hr⟩
    · trivial
    · exact ⟨hσ, hw, hr⟩
  · rintro op s' hop ⟨hw, hr⟩
    refine ⟨?_, ?_⟩
    · cases op with
      | query q => cases q <;> trivial
      | _ => trivial
    · rintro r _ ⟨-, rfl⟩
      cases op with
      | query q =>
        cases r with
        | error e => exact ⟨by simp, by simpa using hr⟩
        | ok x => cases q <;> first | exact ⟨hw, hr⟩ | exact hop.elim
      | _ => first | exact ⟨hw, hr⟩ | exact hop.elim

theorem startRun_triple {t : Ticket} (actorUserId : Option Uuid) (hs : s.writes = [])
    (hrow : s.row t.id = some t) :
    (AgentRunService.startRun t.id actorUserId).Triple (Ledger.observer cfg job c)
      (fun r σ' s' => r.id.session = c ∧ σ' = ⟨c, n + 2, [⟨t, t⟩], [⟨r, r⟩], [], [], []⟩ ∧
        s'.writes = [] ∧ s'.row = s.row)
      (fun _ _ _ => True) ⟨c, n, [⟨t, t⟩], [], [], [], []⟩ s := by
  simp [AgentRunService.startRun, record, commit, hs, Ledger.Parent, hrow]
  intro r hr
  simp [hr]

theorem warrants_dirtyAgentRun {o : Tracked AgentRun} (h : job.Executes c o.loaded.id)
    {x : Write S} (hx : x ∈ (dirtyAgentRun o).toList) : s.Warrants cfg job c x := by
  rw [Option.mem_toList] at hx
  obtain he | he := @dirtyAgentRun_cases S o.loaded o.cur
  · rw [he] at hx
    cases hx
  · rw [he] at hx
    cases hx
    exact h

theorem recordFailure_warranted {runId : Uuid} (exc : Err) (hrun : job.Executes c runId)
    (σ : Session S) :
    (@AgentRunService.recordFailure S α runId exc).Warranted cfg job c σ s := by
  simp [M.Warranted, AgentRunService.recordFailure, commit]
  rintro r rfl now
  rw [putAgentRun_single rfl]
  obtain h | h := @dirtyAgentRun_cases S r (AgentRunPatch.apply
    { status := some .failed, error := some (some exc.str), finishedAt := some (some now) } r) <;>
    simp [h, hrun]

section

variable {pre : List (Tracked Ticket)} {t : Ticket} {r : AgentRun}
  (hpre : ∀ o ∈ pre, o.loaded.id ≠ t.id) (hclean : pre.filterMap (@dirtyTicket S) = [])
  (hflushed : pre.map Tracked.flushed = pre)
include hpre hclean hflushed

/-- A run writes what the last read of the ticket allows, and neither a final response nor
a human's decision. -/
theorem persistResult_triple (workflow : Workflow S) (started : Time) (hs : s.writes = [])
    (hrow : s.row t.id = some t) (hrun : job.Executes c r.id) :
    (AgentRunService.persistResult workflow r.id t started).Triple (Ledger.observer cfg job c)
      (fun _ σ' s' => s'.writes = [] ∧ ∃ n' t' o, t'.id = t.id ∧ o.loaded.id = r.id ∧
        σ' = ⟨c, n', pre ++ [⟨t', t'⟩], [o], [], [], []⟩)
      (fun _ _ _ => True) ⟨c, n, pre ++ [⟨t, t⟩], [⟨r, r⟩], [], [], []⟩ s := by
  have put : ∀ n rs ws ds new o f, o.loaded.id = t.id →
      (@Session.mk S c n (pre ++ [o]) rs ws ds new).putTicket t.id f =
        ⟨c, n, pre ++ [f o], rs, ws, ds, new⟩ :=
    fun n rs ws ds new o f h => putTicket_last hpre h
  have find : ∀ o : Tracked Ticket, o.loaded.id = t.id →
      (pre ++ [o]).find? (fun o => o.loaded.id == t.id) = some o := fun o h => find_last hpre h
  unfold AgentRunService.persistResult
  rw [M.triple_bind]
  refine M.triple_mono (readOnly_triple (workflow.readOnly _) hs) ?_ (fun _ _ _ _ => trivial)
  rintro state _ s' ⟨rfl, hw, hr⟩
  simp [AgentRunService.applyResult, AgentRunService.audit, record, put, hclean, hflushed]
  intro now
  refine suggestedPriority_triple state (fun sp => ?_) (fun _ => trivial)
  simp [put, AgentRunService.applyOutcome, AgentRunService.audit, record, M.triple_ite,
    TicketService.transition, find, commit, hclean, hflushed]
  have update : ∀ st : TicketStatus, canTransition t.status st = true → ∃ p,
      @dirtyTicket S ⟨t, TicketPatch.apply { status := some st } (TicketPatch.apply
        { suggestedPriority := some sp, draftResponse := some state.draft }
        (TicketPatch.apply { suggestedType := some state.suggestedType } t))⟩ =
          some (.updateTicket t.id p) ∧ p.status = some st ∧ p.finalResponse = none := by
    intro st hcan
    refine ⟨_, dirtyTicket_of_transition (by simpa using hcan), ?_, ?_⟩
    · simpa [Ticket.diff] using changed_eq_some.mpr ⟨canTransition_ne hcan, rfl⟩
    · simp [Ticket.diff]
  have change : ∀ (st : TicketStatus) (p : TicketPatch) (s₂ : Ledger S),
      canTransition t.status st = true → (st = .waitingApproval ∨ st = .escalated) →
      p.status = some st → p.finalResponse = none → s₂.Change cfg job t p := by
    intro st p s₂ hcan hst hp hfinal
    refine ⟨?_, ?_, fun h => absurd hfinal h, fun _ => ⟨hfinal, by simpa [hp] using hst⟩⟩
    · intro st' h
      rw [hp] at h
      cases h
      exact hcan
    · intro h
      rw [hp] at h
      obtain rfl | rfl := hst <;> cases h
  have runOk : ∀ (s₂ : Ledger S) (o : Tracked AgentRun), o.loaded.id = r.id →
      ∀ x ∈ (@dirtyAgentRun S o).toList, s₂.Warrants cfg job c x :=
    fun s₂ o ho x hx => warrants_dirtyAgentRun (ho ▸ hrun) hx
  have last := fun outcome done => @dirtyAgentRun_cases S
    (AgentRunPatch.apply { outcome := some (some outcome) }
      ((AgentRunService.resultPatch state ((now - started) / 1000)).apply r))
    (AgentRunPatch.apply { status := some .completed, finishedAt := some (some done) }
      (AgentRunPatch.apply { outcome := some (some outcome) }
        ((AgentRunService.resultPatch state ((now - started) / 1000)).apply r)))
  refine ⟨fun _ hcan => ?_, fun _ hcan => ?_⟩
  · obtain ⟨p, hp, hst, hfinal⟩ := update .waitingApproval hcan
    have hchange := fun s₂ => change .waitingApproval p s₂ hcan (Or.inl rfl) hst hfinal
    simp only [hp, Option.toList_some, List.forall_cons, List.Forall, and_true]
    refine ⟨fun _ => ⟨hfinal, Or.inl hst⟩, fun done => ?_⟩
    obtain h | h := last .waitingApproval done <;>
    · simp [h, hw, hr, hrow, hrun, hflushed, or_imp, forall_and, Ledger.Parent, hchange,
        -Option.mem_toList]
      exact ⟨runOk _ _ rfl, runOk _ _ rfl⟩
  · obtain ⟨p, hp, hst, hfinal⟩ := update .escalated hcan
    have hchange := fun s₂ => change .escalated p s₂ hcan (Or.inr rfl) hst hfinal
    simp only [hp, Option.toList_some, List.forall_cons, List.Forall, and_true]
    refine ⟨fun _ => ⟨hfinal, Or.inr hst⟩, fun done => ?_⟩
    obtain h | h := last .escalated done <;>
    · simp [h, hw, hr, hrow, hrun, hflushed, or_imp, forall_and, Ledger.Parent, hchange,
        -Option.mem_toList]
      exact ⟨runOk _ _ rfl, runOk _ _ rfl⟩

omit hflushed in
theorem announceResult_warranted {o : Tracked AgentRun} (ho : o.loaded.id = r.id)
    (hs : s.writes = []) :
    (AgentRunService.announceResult cfg r.id t.id).Warranted cfg job c
      ⟨c, n, pre ++ [⟨t, t⟩], [o], [], [], []⟩ s := by
  simp [M.Warranted, AgentRunService.announceResult, M.triple_ite, hs]
  intro r' hr'
  rw [putAgentRun_single ho]
  intro _ t' ht'
  rw [putTicket_last hpre rfl, ← ht']
  refine enqueueForTicket_warranted t' _ rfl (by simp [hclean]) (by simp) ?_
  exact find_last (ht' ▸ hpre) rfl

end

/-- A worker's execution: nothing is loaded yet. -/
theorem executeRun_warranted {runId : Uuid} (workflow : Workflow S) (hs : s.writes = [])
    (hrun : job.Executes c runId) :
    (AgentRunService.executeRun cfg workflow runId).Warranted cfg job c
      ⟨c, n, [], [], [], [], []⟩ s := by
  simp [M.Warranted, AgentRunService.executeRun, hs]
  rintro r rfl t ht now
  have hpre : ∀ o ∈ ([] : List (Tracked Ticket)), ∀ id, o.loaded.id ≠ id := by simp
  refine M.triple_mono (persistResult_triple (fun o ho => hpre o ho t.id) rfl rfl workflow now
    rfl ?_ hrun) ?_ (fun _ _ _ _ => recordFailure_warranted _ hrun _)
  · simp [ht]
  · rintro - _ s' ⟨hw, n', t', o, ht', ho, rfl⟩
    rw [← ht']
    exact M.triple_mono (announceResult_warranted (fun o ho => hpre o ho t'.id) rfl ho hw)
      (fun _ _ _ _ => trivial) (fun _ _ _ _ => recordFailure_warranted _ hrun _)

/-- An eager execution, in the session that started the run. -/
theorem executeRun_tracked_warranted {t : Ticket} {r : AgentRun} (workflow : Workflow S)
    (hs : s.writes = []) (hrow : s.row t.id = some t) (hrun : job.Executes c r.id) :
    (AgentRunService.executeRun cfg workflow r.id).Warranted cfg job c
      ⟨c, n, [⟨t, t⟩], [⟨r, r⟩], [], [], []⟩ s := by
  have finish : ∀ (pre : List (Tracked Ticket)) (t : Ticket) (s : Ledger S) (now : Time),
      (∀ o ∈ pre, o.loaded.id ≠ t.id) → pre.filterMap (@dirtyTicket S) = [] →
      pre.map Tracked.flushed = pre → s.writes = [] → s.row t.id = some t →
      (AgentRunService.persistResult workflow r.id t now).Triple (Ledger.observer cfg job c)
        (fun _ σ' s' => (AgentRunService.announceResult cfg r.id t.id).Triple
          (Ledger.observer cfg job c) (fun _ _ _ => True)
          (fun e σ' s' => (@AgentRunService.recordFailure S AgentRun r.id e).Triple
            (Ledger.observer cfg job c) (fun _ _ _ => True) (fun _ _ _ => True) σ' s') σ' s')
        (fun e σ' s' => (@AgentRunService.recordFailure S AgentRun r.id e).Triple
          (Ledger.observer cfg job c) (fun _ _ _ => True) (fun _ _ _ => True) σ' s')
        ⟨c, n, pre ++ [⟨t, t⟩], [⟨r, r⟩], [], [], []⟩ s := by
    intro pre t s now hpre hclean hflushed hs hrow
    refine M.triple_mono (persistResult_triple hpre hclean hflushed workflow now hs hrow hrun)
      ?_ (fun _ _ _ _ => recordFailure_warranted _ hrun _)
    rintro - _ s' ⟨hw, n', t', o, ht', ho, rfl⟩
    rw [← ht']
    exact M.triple_mono (announceResult_warranted (ht' ▸ hpre) hclean ho hw)
      (fun _ _ _ _ => trivial) (fun _ _ _ _ => recordFailure_warranted _ hrun _)
  simp [M.Warranted, AgentRunService.executeRun, hs]
  refine ⟨fun _ now => ?_, fun hne t' ht' now => ?_⟩
  · exact finish [] t _ now (by simp) rfl rfl rfl hrow
  · refine finish [⟨t, t⟩] t' _ now ?_ (by simp) rfl rfl ?_
    · simpa [ht'] using hne
    · simp [ht']

end AgentDesk
