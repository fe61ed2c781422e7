import AgentDesk.Logic.Journal

namespace AgentDesk

variable {S α : Type} {cfg : Config S} {workflow : Workflow S} {c n : Nat}
  {row : Uuid → Option Ticket} {concluded : Option TicketStatus} {lost strayed : Bool}
  {hook : Option (Uuid × Option Webhook)}

/-- Every transaction of the coroutine is a deed, and in the end it owes nothing. -/
def M.Journaled (cfg : Config S) (workflow : Workflow S) (p : M S α) (σ : Session S)
    (s : Journal S) : Prop :=
  p.Triple (Journal.observer cfg workflow) (fun _ _ s' => s'.Settled) (fun _ _ s' => s'.Settled) σ s

@[simp] theorem plain_updateDelivery (id : Uuid) (p : DeliveryPatch) :
    (@Write.updateDelivery S id p).Plain ↔ p.payload = none := Iff.rfl

@[simp] theorem plain_auditLog (a : AuditLog) : (@Write.insert S (.auditLog a)).Plain := trivial

theorem deed_plain {s : Journal S} {ws : List (Write S)} (h : ∀ x ∈ ws, x.Plain) :
    Deed cfg workflow s ws := .plain h

theorem owedAfter_none {ws : List (Write S)} (h : ∀ x ∈ ws, x.resolution = none) :
    owedAfter none ws = none := by
  have hresolution : ws.findSome? Write.resolution = none := List.findSome?_eq_none_iff.mpr h
  simp [owedAfter, hresolution]

theorem owedAfter_moved {id : Uuid} {p : TicketPatch} {target : TicketStatus}
    {ws : List (Write S)} (hp : p.status = some target)
    (h : ∀ x ∈ ws, x.announces = false ∧ x.resolution = none) :
    owedAfter none (.updateTicket id p :: ws) =
      target.announcement.map fun event => (id, event) := by
  have hannounces : (Write.updateTicket id p :: ws).any Write.announces = false := by
    simpa using fun x hx => (h x hx).1
  have hresolution : ws.findSome? Write.resolution = none :=
    List.findSome?_eq_none_iff.mpr fun x hx => (h x hx).2
  rw [owedAfter, hannounces]
  cases ha : target.announcement <;> simp [hp, ha, hresolution]

theorem payload_diff {l d : WebhookDelivery} (h : d.payload = l.payload) :
    (l.diff d).payload = none := by
  simp [WebhookDelivery.diff, h]

theorem settled_of_hook {t : Ticket} {event : String} {ws : List (Write S)} {h : Option Webhook}
    {owed : Option (Uuid × String)}
    (howed : owed = some (t.id, event) ∨ owed = none ∧ strayed = true)
    (hrow : row t.id = some t) (hactive : ∀ w, h = some w → w.isActive = false) :
    (⟨ws, row, owed, concluded, lost, strayed, some (t.organizationId, h)⟩ : Journal S).Settled := by
  obtain rfl | ⟨rfl, -⟩ := howed
  · exact Or.inr (Or.inr (Or.inr ⟨t, event, h, rfl, hrow, rfl, hactive⟩))
  · simp

@[simp] theorem plain_insert_webhook (w : Webhook) :
    (@Write.insert S (.webhook w)).Plain := trivial

@[simp] theorem plain_updateWebhook (id : Uuid) (p : WebhookPatch) :
    (@Write.updateWebhook S id p).Plain := trivial

section

variable {ts : List (Tracked Ticket)} {rs : List (Tracked AgentRun)} {ws : List (Tracked Webhook)}

theorem performAttempt_journaled (d : WebhookDelivery) (w : Webhook) (ownsClient : Bool)
    (hts : ts.filterMap (@dirtyTicket S) = [])
    (hrs : rs.filterMap (@dirtyAgentRun S) = []) (hws : ws.filterMap (@dirtyWebhook S) = []) :
    (WebhookService.performAttempt cfg d w ownsClient).Journaled cfg workflow
      ⟨c, n, ts, rs, ws, [⟨d, d⟩], []⟩ ⟨[], row, none, concluded, lost, strayed, hook⟩ := by
  simp [M.Journaled, WebhookService.performAttempt, WebhookService.attempt,
    WebhookService.settleAttempt, M.triple_ite, hts, hrs, hws, record, commit,
    dirtyDelivery_of_attempts, deed_plain, owedAfter_none, payload_diff]

theorem deliverOnce_journaled (id : Uuid) (ownsClient : Bool)
    (hts : ts.filterMap (@dirtyTicket S) = []) (hrs : rs.filterMap (@dirtyAgentRun S) = []) :
    (WebhookService.deliverOnce cfg id ownsClient).Journaled cfg workflow
      ⟨c, n, ts, rs, [], [], []⟩ ⟨[], row, none, concluded, lost, strayed, hook⟩ := by
  simp [M.Journaled, WebhookService.deliverOnce]
  rintro d rfl w -
  exact performAttempt_journaled d w ownsClient hts hrs (by simp)

/-- The delivery was just created in the same session. -/
theorem deliverOnce_tracked_journaled (d : WebhookDelivery) (w : Webhook) (ownsClient : Bool)
    (hts : ts.filterMap (@dirtyTicket S) = []) (hrs : rs.filterMap (@dirtyAgentRun S) = []) :
    (WebhookService.deliverOnce cfg d.id ownsClient).Journaled cfg workflow
      ⟨c, n, ts, rs, [⟨w, w⟩], [⟨d, d⟩], []⟩ ⟨[], row, none, concluded, lost, strayed, hook⟩ := by
  have attempt : ∀ ws v, ws.filterMap (@dirtyWebhook S) = [] →
      (WebhookService.performAttempt cfg d v ownsClient).Journaled cfg workflow
        ⟨c, n, ts, rs, ws, [⟨d, d⟩], []⟩ ⟨[], row, none, concluded, lost, strayed, hook⟩ :=
    fun ws v hws => performAttempt_journaled d v ownsClient hts hrs hws
  simp [M.Journaled, WebhookService.deliverOnce]
  refine ⟨fun _ => attempt _ w (by simp), fun _ v _ => ⟨fun _ => ?_, fun _ => ?_⟩⟩
  · exact attempt _ w (by simp)
  · exact attempt _ v (by simp)

theorem enqueueForTicket_journaled (t : Ticket) (event : String) {owed : Option (Uuid × String)}
    (hts : ts.filterMap (@dirtyTicket S) = []) (hrs : rs.filterMap (@dirtyAgentRun S) = [])
    (hfind : ts.find? (fun o => o.loaded.id == t.id) = some ⟨t, t⟩) (hrow : row t.id = some t)
    (howed : owed = some (t.id, event) ∨ owed = none ∧ strayed = true) :
    (WebhookService.enqueueForTicket cfg t.id event).Journaled cfg workflow
      ⟨c, n, ts, rs, [], [], []⟩ ⟨[], row, owed, concluded, lost, strayed, hook⟩ := by
  have failed : ∀ ws hook,
      (⟨ws, row, owed, concluded, lost || owed.isSome, strayed, hook⟩ : Journal S).Settled := by
    intro ws hook
    obtain rfl | ⟨rfl, -⟩ := howed <;> simp
  have announced : ∀ xs : List (Write S), xs.any Write.announces = true →
      owedAfter owed xs = none := fun xs h => by simp [owedAfter, h]
  simp [M.Journaled, WebhookService.enqueueForTicket, WebhookService.dispatch, M.triple_ite, hts,
    hrs, hfind, commit, dirtyDelivery_of_payload, announced, failed]
  refine ⟨settled_of_hook howed hrow (by simp), fun w _ =>
    ⟨fun hw => settled_of_hook howed hrow ?_, fun hw now => ⟨?_, ?_⟩⟩⟩
  · rintro _ ⟨⟩
    exact hw
  · refine @Deed.announced _ cfg workflow _ t event w _ (WebhookDelivery.diff _ _) now hrow howed
      rfl hw rfl rfl rfl ?_
    simp [WebhookDelivery.diff, changed]
  · rintro d - - -
    exact M.triple_mono (deliverOnce_tracked_journaled d w true (by simp) (by simp))
      (fun _ _ _ h => ⟨fun _ _ => h, fun _ => h⟩) (fun _ _ _ h => h)

end

theorem upsertConfig_journaled (organizationId : Uuid) (url secret : String) (isActive : Bool) :
    (WebhookService.upsertConfig organizationId url secret isActive).Journaled cfg workflow
      ⟨c, n, [], [], [], [], []⟩ ⟨[], row, none, concluded, lost, strayed, hook⟩ := by
  simp [M.Journaled, WebhookService.upsertConfig, commit, deed_plain, owedAfter_none]
  intro w _
  obtain h | h := @dirtyWebhook_cases S w (WebhookPatch.apply
    { url := some url, secret := some secret, isActive := some isActive } w) <;>
    simp [h, deed_plain, owedAfter_none]

/-! Tickets -/

theorem createTicket_journaled (organizationId actorUserId : Uuid) (title description : String)
    (priority : TicketPriority) :
    (TicketService.createTicket organizationId actorUserId title description priority).Journaled
      cfg workflow ⟨c, n, [], [], [], [], []⟩ ⟨[], row, none, concluded, lost, strayed, hook⟩ := by
  simp [M.Journaled, TicketService.createTicket, record, commit, owedAfter_none]
  exact .created rfl rfl rfl rfl rfl rfl

section

variable {t : Ticket} (hrow : row t.id = some t)
include hrow

theorem approve_journaled (actorUserId : Uuid) (edited : Option String) :
    (TicketService.approve cfg t.id actorUserId edited).Journaled cfg workflow
      ⟨c, n, [⟨t, t⟩], [], [], [], []⟩ ⟨[], row, none, concluded, lost, strayed, hook⟩ := by
  simp [M.Journaled, TicketService.approve, TicketService.transition, M.triple_ite, commit, record]
  intro hblank hcan
  have hst : (t.diff (TicketPatch.apply { status := some .approved } (TicketPatch.apply
      { finalResponse := some (some (TicketService.finalOf t edited)) } t))).status =
        some .approved := by
    simpa [Ticket.diff] using changed_eq_some.mpr ⟨canTransition_ne hcan, rfl⟩
  rw [dirtyTicket_of_transition (by simpa using hcan)]
  simp [owedAfter_moved hst, TicketStatus.announcement]
  refine ⟨?_, fun t' ht' => ?_⟩
  · refine @Deed.decided _ _ _ _ _ _ _ _ .approved hrow rfl ⟨hst, hcan, rfl, rfl, rfl, rfl⟩
      (.approved (TicketService.finalOf t edited) ?_ rfl (by simp [Ticket.diff]))
    simp [Ticket.diff, changed_getD]
  · rw [← ht']
    exact M.triple_mono (enqueueForTicket_journaled t' _ (by simp) (by simp) (by simp) (by simp)
      (Or.inl rfl))
      (fun _ _ _ h => ⟨fun _ _ => h, fun _ => h⟩) (fun _ _ _ h => h)

theorem reject_journaled (actorUserId : Uuid) (reason : Option String) :
    (TicketService.reject t.id actorUserId reason).Journaled cfg workflow
      ⟨c, n, [⟨t, t⟩], [], [], [], []⟩ ⟨[], row, none, concluded, lost, strayed, hook⟩ := by
  simp [M.Journaled, TicketService.reject, TicketService.transition, M.triple_ite, commit, record]
  intro hcan
  have hst : (t.diff (TicketPatch.apply { status := some .rejected } t)).status =
      some .rejected := by
    simpa [Ticket.diff] using changed_eq_some.mpr ⟨canTransition_ne hcan, rfl⟩
  rw [dirtyTicket_of_transition (by simpa using hcan)]
  simp [owedAfter_moved hst, TicketStatus.announcement]
  exact @Deed.decided _ _ _ _ _ _ _ _ .rejected hrow rfl ⟨hst, hcan, rfl, rfl, rfl, rfl⟩
    (.rejected (by simp [Ticket.diff]) rfl (by simp [Ticket.diff]))

theorem editDraft_journaled (actorUserId : Uuid) (content : String) :
    (TicketService.editDraft t.id actorUserId content).Journaled cfg workflow
      ⟨c, n, [⟨t, t⟩], [], [], [], []⟩ ⟨[], row, none, concluded, lost, strayed, hook⟩ := by
  simp [M.Journaled, TicketService.editDraft, M.triple_ite, commit]
  intro _
  have edits : ∀ (e : TicketEvent) (us : List (Write S)), e.ticketId = t.id →
      e.organizationId = t.organizationId → e.toStatus = none → e.eventType = "edited" →
      (∀ x ∈ us, ∃ p, x = .updateTicket t.id p ∧ p.status = none ∧ p.finalResponse = none) →
      ∀ s : Journal S, s.row t.id = some t → Deed cfg workflow s (us ++ [.insert (.ticketEvent e)]) :=
    fun e us ht horg hto htype hus s hs => .edited hs hus ht horg hto htype
  obtain h | h := @dirtyTicket_cases S t
    (TicketPatch.apply { draftResponse := some (some content) } t)
  · simp [h, owedAfter_none]
    exact edits _ [] rfl rfl rfl rfl (by simp) _ hrow
  · simp [h, owedAfter_none, Ticket.diff]
    exact edits _ [_] rfl rfl rfl rfl (by simp) _ hrow

end

/-! Agent runs -/

theorem side_cases {runId : Uuid} {x : Write S} (h : x.Side runId) :
    (∃ p, x = .updateAgentRun runId p) ∨ ∃ a, x = .insert (.auditLog a) := by
  cases x with
  | insert row =>
    cases row with
    | auditLog a => exact Or.inr ⟨a, rfl⟩
    | _ => exact h.elim
  | updateAgentRun id p =>
    obtain rfl : id = runId := h
    exact Or.inl ⟨p, rfl⟩
  | _ => exact h.elim

theorem findSome?_of_filter {β γ : Type} {f : β → Option γ} {p : β → Bool} {xs : List β}
    (h : ∀ x ∈ xs, p x = false → f x = none) : xs.findSome? f = (xs.filter p).findSome? f := by
  induction xs with
  | nil => rfl
  | cons x xs ih =>
    have hx := h x (.head xs)
    have hxs := ih fun y hy => h y (.tail x hy)
    cases hp : p x with
    | true => simp [hp, List.findSome?_cons, hxs]
    | false => simp [hp, hx hp, hxs]

theorem historyless {x : Write S} (h : x.isHistory = false) :
    x.moved = none ∧ x.resolution = none := by
  cases x with
  | updateTicket id p => exact Bool.noConfusion h
  | _ => exact ⟨rfl, rfl⟩

theorem committed_concluded {id runId : Uuid} {p : TicketPatch} {e : TicketEvent}
    {target : TicketStatus} {ws : List (Write S)} (hp : p.status = some target)
    (history : ws.filter Write.isHistory = [.updateTicket id p, .insert (.ticketEvent e)])
    (side : ∀ x ∈ ws, x.isHistory = false → x.Side runId) :
    ∃ row', (⟨ws, row, none, concluded, lost, strayed, hook⟩ : Journal S).committed =
      ⟨[], row', target.announcement.map fun event => (id, event), some target, lost, strayed,
        none⟩ := by
  have cases : ∀ x ∈ ws, x = .updateTicket id p ∨ x = .insert (.ticketEvent e) ∨ x.Side runId := by
    intro x hx
    cases hh : x.isHistory with
    | false => exact Or.inr (Or.inr (side x hx hh))
    | true =>
      have : x ∈ ws.filter Write.isHistory := List.mem_filter.mpr ⟨hx, hh⟩
      rw [history] at this
      simp only [List.mem_cons, List.not_mem_nil, or_false] at this
      tauto
  have hannounces : ws.any Write.announces = false := by
    refine List.any_eq_false.mpr fun x hx => ?_
    obtain rfl | rfl | hside := cases x hx
    · simp
    · simp
    · obtain ⟨p, rfl⟩ | ⟨a, rfl⟩ := side_cases hside <;> simp
  have hmoved : ws.findSome? Write.moved = some target := by
    rw [findSome?_of_filter (p := Write.isHistory) fun x _ hh => ?_, history]
    · simp [hp]
    · exact (historyless hh).1
  have hresolution : ws.findSome? Write.resolution =
      target.announcement.map fun event => (id, event) := by
    rw [findSome?_of_filter (p := Write.isHistory) fun x _ hh => ?_, history]
    · cases h : target.announcement <;> simp [hp, h]
    · exact (historyless hh).2
  refine ⟨fun k => if ws.any (Write.renews k) then none else row k, ?_⟩
  simp [owedAfter, hannounces, hmoved, hresolution]

theorem readOnly_journaled {p : M S α} (hp : p.ReadOnly) {σ : Session S} :
    p.Triple (Journal.observer cfg workflow)
      (fun a σ' s' => σ' = σ ∧ s' = ⟨[], row, none, concluded, lost, strayed, hook⟩ ∧
        (p σ).Returns (.ok a, σ))
      (fun _ σ' s' => σ' = σ ∧ s' = ⟨[], row, none, concluded, lost, strayed, hook⟩) σ
      ⟨[], row, none, concluded, lost, strayed, hook⟩ := by
  have h := Framework.Program.obeys_of_uses (O := Journal.observer cfg workflow)
    (P := fun s' => s' = ⟨[], row, none, concluded, lost, strayed, hook⟩)
    (Framework.Program.uses_returns (hp σ)) rfl ?_
  · refine Framework.Program.obeys_mono h ?_
    rintro ⟨_ | a, σ'⟩ s' ⟨⟨hσ, hr⟩, hs⟩
    · exact ⟨hσ, hs⟩
    · simp only at hσ
      subst hσ
      exact ⟨rfl, hs, hr⟩
  · rintro op s' hop rfl
    refine ⟨?_, ?_⟩
    · cases op with
      | query q => cases q <;> trivial
      | _ => trivial
    · rintro r _ ⟨-, rfl⟩
      cases op with
      | query q =>
        cases r with
        | error e => simp
        | ok x => cases q <;> first | rfl | exact hop.elim
      | embed texts => cases r <;> simp
      | chat request => cases r <;> simp
      | _ => first | rfl | exact hop.elim

theorem startRun_journaled {t : Ticket} (actorUserId : Option Uuid) (hrow : row t.id = some t) :
    (AgentRunService.startRun t.id actorUserId).Triple (Journal.observer cfg workflow)
      (fun r σ' s' => σ' = ⟨c, n + 2, [⟨t, t⟩], [⟨r, r⟩], [], [], []⟩ ∧ ∃ row',
        s' = ⟨[], row', none, none, lost, strayed, hook⟩ ∧ row' t.id = some t)
      (fun _ _ s' => s'.Settled) ⟨c, n, [⟨t, t⟩], [], [], [], []⟩
      ⟨[], row, none, concluded, lost, strayed, hook⟩ := by
  simp [AgentRunService.startRun, record, commit, owedAfter_none, List.findSome?_cons]
  refine ⟨.started hrow rfl rfl, fun r hr => ?_⟩
  simp [hrow]

theorem recordFailure_journaled {runId : Uuid} (exc : Err) (σ : Session S) {s : Journal S}
    (hs : s.Settled) :
    (@AgentRunService.recordFailure S α runId exc).Journaled cfg workflow σ s := by
  have later : ∀ (ws : List (Write S)) (concluded : Option TicketStatus) (lost strayed : Bool),
      (s.lost = true → lost = true) → (s.strayed = true → strayed = true) →
      (⟨ws, s.row, s.owed, concluded, lost, strayed, s.hook⟩ : Journal S).Settled :=
    fun _ _ _ _ hl hs' => hs.later rfl hl hs' rfl rfl
  simp +contextual [M.Journaled, AgentRunService.recordFailure, commit, Journal.fail,
    Journal.reread, later]
  rintro r rfl now
  obtain h | h := @dirtyAgentRun_cases S r (AgentRunPatch.apply
    { status := some .failed, error := some (some exc.str), finishedAt := some (some now) } r)
  · simp +contextual [h, Journal.committed, later]
  · simp +contextual [h, Journal.committed, Journal.fail, later, List.findSome?_cons, owedAfter]
    exact .failed

section

variable {pre : List (Tracked Ticket)} {t : Ticket} {r : AgentRun}
  (hpre : ∀ o ∈ pre, o.loaded.id ≠ t.id) (hclean : pre.filterMap (@dirtyTicket S) = [])
  (hflushed : pre.map Tracked.flushed = pre)
include hpre hclean hflushed

theorem persistResult_journaled (workflow : Workflow S) (started : Time)
    (hrow : row t.id = some t) :
    (AgentRunService.persistResult workflow r.id t started).Triple (Journal.observer cfg workflow)
      (fun _ σ' s' => ∃ n' t' o row' target, t'.id = t.id ∧ o.loaded.id = r.id ∧
        σ' = ⟨c, n', pre ++ [⟨t', t'⟩], [o], [], [], []⟩ ∧
        (target = .waitingApproval ∨ target = .escalated) ∧
        s' = ⟨[], row', (target.announcement).map fun event => (t.id, event), some target, lost,
          strayed, none⟩)
      (fun _ _ s' => s'.Settled) ⟨c, n, pre ++ [⟨t, t⟩], [⟨r, r⟩], [], [], []⟩
      ⟨[], row, none, concluded, lost, strayed, hook⟩ := by
  have put : ∀ n rs ws ds new o f, o.loaded.id = t.id →
      (@Session.mk S c n (pre ++ [o]) rs ws ds new).putTicket t.id f =
        ⟨c, n, pre ++ [f o], rs, ws, ds, new⟩ :=
    fun n rs ws ds new o f h => putTicket_last hpre h
  have find : ∀ o : Tracked Ticket, o.loaded.id = t.id →
      (pre ++ [o]).find? (fun o => o.loaded.id == t.id) = some o := fun o h => find_last hpre h
  unfold AgentRunService.persistResult
  rw [M.triple_bind]
  refine M.triple_mono (readOnly_journaled (workflow.readOnly _)) ?_ ?_
  swap
  · rintro _ _ _ ⟨-, rfl⟩
    simp
  rintro state _ _ ⟨rfl, rfl, hyields⟩
  simp [AgentRunService.applyResult, AgentRunService.audit, record, put, hclean, hflushed]
  intro now
  refine suggestedPriority_triple state (fun sp => ?_) (fun _ => by simp)
  simp [put, AgentRunService.applyOutcome, AgentRunService.audit, record, M.triple_ite,
    TicketService.transition, find, commit, hclean, hflushed]
  have update : ∀ st : TicketStatus, canTransition t.status st = true → ∃ p,
      @dirtyTicket S ⟨t, TicketPatch.apply { status := some st } (TicketPatch.apply
        { suggestedPriority := some sp, draftResponse := some state.draft }
        (TicketPatch.apply { suggestedType := some state.suggestedType } t))⟩ =
          some (.updateTicket t.id p) ∧ p.status = some st ∧ p.finalResponse = none := by
    intro st hcan
    refine ⟨_, dirtyTicket_of_transition (by simpa using hcan), ?_, ?_⟩
    · simpa [Ticket.diff] using changed_eq_some.mpr ⟨canTransition_ne hcan, rfl⟩
    · simp [Ticket.diff]
  have finish : ∀ (target : TicketStatus) (message : String) (p : TicketPatch)
      (ws : List (Write S)), state.target = target → canTransition t.status target = true →
      p.status = some target → p.finalResponse = none →
      ws.filter Write.isHistory = [.updateTicket t.id p, .insert (.ticketEvent
        ⟨⟨c, n + 1 + 1⟩, t.id, t.organizationId, "agent_run", some t.status, some target, none,
          some message, 0⟩)] →
      .insert (.auditLog ⟨⟨c, n + 1⟩, some t.organizationId, none, .draftGenerated, some "ticket",
        some t.id.str, some [("confidence", AgentRunService.confidenceMeta state)], 0⟩) ∈ ws →
      (∀ x ∈ ws, x.isHistory = false → x.Side r.id) →
      Deed cfg workflow ⟨ws, row, none, concluded, lost, strayed, hook⟩ ws ∧
        ∃ row', (⟨ws, row, none, concluded, lost, strayed, hook⟩ : Journal S).committed =
          ⟨[], row', target.announcement.map fun event => (t.id, event), some target, lost,
            strayed, none⟩ := by
    rintro _ message p ws rfl hcan hst hfinal hhistory ha hside
    exact ⟨.concluded hrow rfl ⟨_, _, _, hyields⟩ ⟨hst, hcan, rfl, rfl, rfl, rfl⟩
      ⟨hfinal, rfl, rfl, rfl, rfl⟩ hhistory ha hside, committed_concluded hst hhistory hside⟩
  have last := fun outcome done => @dirtyAgentRun_cases S
    (AgentRunPatch.apply { outcome := some (some outcome) }
      ((AgentRunService.resultPatch state ((now - started) / 1000)).apply r))
    (AgentRunPatch.apply { status := some .completed, finishedAt := some (some done) }
      (AgentRunPatch.apply { outcome := some (some outcome) }
        ((AgentRunService.resultPatch state ((now - started) / 1000)).apply r)))
  have quiet : ∀ o : Tracked AgentRun, (@dirtyAgentRun S o).toList.filter Write.isHistory = [] := by
    intro o
    obtain h | h := @dirtyAgentRun_cases S o.loaded o.cur <;> simp [h]
  have own : ∀ o : Tracked AgentRun, o.loaded.id = r.id → ∀ x ∈ (@dirtyAgentRun S o).toList,
      x.isHistory = false → x.Side r.id := by
    intro o ho x hx _
    obtain h | h := @dirtyAgentRun_cases S o.loaded o.cur
    · simp [h] at hx
    · simp only [h, Option.toList_some, List.mem_singleton] at hx
      subst hx
      exact ho
  refine ⟨fun hout hcan done => ?_, fun hout hcan done => ?_⟩
  · obtain ⟨p, hp, hst, hfinal⟩ := update .waitingApproval hcan
    simp only [hp, Option.toList_some]
    obtain h | h := last .waitingApproval done <;>
    · simp [h, hflushed, -Journal.committed_mk]
      refine (finish .waitingApproval "AI draft ready for approval" p _ (if_pos hout) hcan hst hfinal
        ?_ ?_ ?_).imp_right (Exists.imp fun _ => Or.inl)
      · simp [quiet, List.filter_cons]
      · simp
      · simp [or_imp, forall_and, -Option.mem_toList]
        exact ⟨own _ rfl, own _ rfl⟩
  · obtain ⟨p, hp, hst, hfinal⟩ := update .escalated hcan
    simp only [hp, Option.toList_some]
    obtain h | h := last .escalated done <;>
    · simp [h, hflushed, -Journal.committed_mk]
      refine (finish .escalated "Low confidence; escalated for human handling" p _ (if_neg hout) hcan
        hst hfinal ?_ ?_ ?_).imp_right (Exists.imp fun _ => Or.inr)
      · simp [quiet, List.filter_cons]
      · simp
      · simp [or_imp, forall_and, -Option.mem_toList]
        exact ⟨own _ rfl, own _ rfl⟩

omit hflushed in
theorem announceResult_journaled {o : Tracked AgentRun} (ho : o.loaded.id = r.id)
    {target : TicketStatus} (htarget : target = .waitingApproval ∨ target = .escalated) :
    (AgentRunService.announceResult cfg r.id t.id).Journaled cfg workflow
      ⟨c, n, pre ++ [⟨t, t⟩], [o], [], [], []⟩
      ⟨[], row, target.announcement.map fun event => (t.id, event), some target, lost, strayed,
        none⟩ := by
  have announce : ∀ (t' : Ticket) (r' : AgentRun) owed strayed, t'.id = t.id →
      (owed = some (t.id, "ticket.escalated") ∨ owed = none ∧ strayed = true) →
      (WebhookService.enqueueForTicket cfg t.id "ticket.escalated").Journaled cfg workflow
        ((⟨c, n, pre ++ [⟨t, t⟩], [⟨r', r'⟩], [], [], []⟩ : Session S).putTicket t.id
          fun _ => ⟨t', t'⟩)
        ⟨[], Function.update row t.id (some t'), owed, some target, lost, strayed, none⟩ := by
    intro t' r' owed strayed ht' howed
    rw [putTicket_last hpre rfl]
    rw [← ht'] at hpre howed ⊢
    exact enqueueForTicket_journaled t' _ (by simp [hclean]) (by simp) (find_last hpre rfl)
      (by simp) howed
  have attrs : ∀ {p : M S (Option WebhookDelivery)} {σ : Session S} {s : Journal S},
      p.Journaled cfg workflow σ s → p.Triple (Journal.observer cfg workflow)
        (fun _ σ' s' => (∀ o, σ'.agentRuns.find? (fun o => o.loaded.id == r.id) = some o →
          s'.Settled) ∧ ((∀ x ∈ σ'.agentRuns, ¬x.loaded.id = r.id) → s'.Settled))
        (fun _ _ s' => s'.Settled) σ s :=
    fun h => M.triple_mono h (fun _ _ _ h => ⟨fun _ _ => h, fun _ => h⟩) (fun _ _ _ h => h)
  obtain rfl | rfl := htarget
  · simp [M.Journaled, AgentRunService.announceResult, M.triple_ite, TicketStatus.announcement,
      escalates, putAgentRun_single ho]
    exact fun r' _ hout t' ht' => attrs (announce t' r' none _ ht' (Or.inr ⟨rfl, by simp [hout]⟩))
  · simp +contextual [M.Journaled, AgentRunService.announceResult, M.triple_ite,
      TicketStatus.announcement, escalates, putAgentRun_single ho]
    refine fun r' _ => ⟨fun _ t' ht' => attrs (announce t' r' _ _ ht' (Or.inl rfl)), fun hout => ?_⟩
    have hne : (r'.outcome == some .escalated) = false := by simpa using hout
    simp [hne]

end

/-- A worker's execution: nothing is loaded yet. -/
theorem executeRun_journaled {runId : Uuid} :
    (AgentRunService.executeRun cfg workflow runId).Journaled cfg workflow
      ⟨c, n, [], [], [], [], []⟩ ⟨[], row, none, none, lost, strayed, hook⟩ := by
  simp [M.Journaled, AgentRunService.executeRun]
  rintro r rfl t ht now
  have hpre : ∀ o ∈ ([] : List (Tracked Ticket)), ∀ id, o.loaded.id ≠ id := by simp
  refine M.triple_mono (persistResult_journaled (fun o ho => hpre o ho t.id) rfl rfl workflow now
    (by simp [ht])) ?_ (fun _ _ _ h => recordFailure_journaled _ _ h)
  rintro - _ _ ⟨n', t', o, row', target, ht', ho, rfl, htarget, rfl⟩
  rw [← ht']
  exact M.triple_mono (announceResult_journaled (fun o ho => hpre o ho t'.id) rfl ho htarget)
    (fun _ _ _ h => h) (fun _ _ _ h => recordFailure_journaled _ _ h)

/-- An eager execution, in the session that started the run. -/
theorem executeRun_tracked_journaled {t : Ticket} {r : AgentRun} (hrow : row t.id = some t) :
    (AgentRunService.executeRun cfg workflow r.id).Journaled cfg workflow
      ⟨c, n, [⟨t, t⟩], [⟨r, r⟩], [], [], []⟩ ⟨[], row, none, none, lost, strayed, hook⟩ := by
  have finish : ∀ (pre : List (Tracked Ticket)) (t : Ticket) (row : Uuid → Option Ticket)
      (now : Time), (∀ o ∈ pre, o.loaded.id ≠ t.id) → pre.filterMap (@dirtyTicket S) = [] →
      pre.map Tracked.flushed = pre → row t.id = some t →
      (AgentRunService.persistResult workflow r.id t now).Triple (Journal.observer cfg workflow)
        (fun _ σ' s' => (AgentRunService.announceResult cfg r.id t.id).Triple
          (Journal.observer cfg workflow) (fun _ _ s' => s'.Settled)
          (fun e σ' s' => (@AgentRunService.recordFailure S AgentRun r.id e).Journaled cfg workflow
            σ' s') σ' s')
        (fun e σ' s' => (@AgentRunService.recordFailure S AgentRun r.id e).Journaled cfg workflow
          σ' s')
        ⟨c, n, pre ++ [⟨t, t⟩], [⟨r, r⟩], [], [], []⟩
        ⟨[], row, none, none, lost, strayed, hook⟩ := by
    intro pre t row now hpre hclean hflushed hrow
    refine M.triple_mono (persistResult_journaled hpre hclean hflushed workflow now hrow)
      ?_ (fun _ _ _ h => recordFailure_journaled _ _ h)
    rintro - _ _ ⟨n', t', o, row', target, ht', ho, rfl, htarget, rfl⟩
    rw [← ht']
    exact M.triple_mono (announceResult_journaled (ht' ▸ hpre) hclean ho htarget)
      (fun _ _ _ h => h) (fun _ _ _ h => recordFailure_journaled _ _ h)
  simp [M.Journaled, AgentRunService.executeRun]
  refine ⟨fun _ now => ?_, fun hne t' ht' now => ?_⟩
  · exact finish [] t _ now (by simp) rfl rfl hrow
  · refine finish [⟨t, t⟩] t' _ now ?_ (by simp) rfl ?_
    · simpa [ht'] using hne
    · simp [ht']

end AgentDesk
