import AgentDesk.Logic.Tally

namespace AgentDesk

open Framework (Table)

variable {S : Type} {cfg : Config S} {c n : Nat} {faults : Op S → Bool} {db db' : DB S}
  {start : Time}

/-- The statements of a webhook delivery. -/
def Announces : Write S → Prop
  | .insert (.delivery _) | .insert (.auditLog _) | .updateDelivery _ _ => True
  | _ => False

/-- Only deliveries and audit rows were added or changed, and none was lost. -/
structure DB.Announced (db db' : DB S) : Prop where
  organizations : db'.organizations = db.organizations
  users : db'.users = db.users
  tickets : db'.tickets = db.tickets
  ticketEvents : db'.ticketEvents = db.ticketEvents
  agentRuns : db'.agentRuns = db.agentRuns
  webhooks : db'.webhooks = db.webhooks
  documents : db'.documents = db.documents
  documentChunks : db'.documentChunks = db.documentChunks
  auditLogs : ∀ a ∈ db.auditLogs.rows, a ∈ db'.auditLogs.rows
  webhookDeliveries : ∀ d ∈ db.webhookDeliveries.rows, ∃ d' ∈ db'.webhookDeliveries.rows,
    d'.id = d.id ∧ d'.organizationId = d.organizationId ∧ d'.event = d.event

namespace DB

theorem Announced.refl (db : DB S) : db.Announced db :=
  ⟨rfl, rfl, rfl, rfl, rfl, rfl, rfl, rfl, fun _ h => h, fun d h => ⟨d, h, rfl, rfl, rfl⟩⟩

theorem Announced.trans {db₁ db₂ db₃ : DB S} (h : db₁.Announced db₂) (k : db₂.Announced db₃) :
    db₁.Announced db₃ := by
  refine ⟨k.organizations.trans h.organizations, k.users.trans h.users, k.tickets.trans h.tickets,
    k.ticketEvents.trans h.ticketEvents, k.agentRuns.trans h.agentRuns,
    k.webhooks.trans h.webhooks, k.documents.trans h.documents,
    k.documentChunks.trans h.documentChunks, fun a ha => k.auditLogs a (h.auditLogs a ha), ?_⟩
  intro d hd
  obtain ⟨d₂, h₂, hid, horg, hevent⟩ := h.webhookDeliveries d hd
  obtain ⟨d₃, h₃, hid', horg', hevent'⟩ := k.webhookDeliveries d₂ h₂
  exact ⟨d₃, h₃, hid'.trans hid, horg'.trans horg, hevent'.trans hevent⟩

theorem Announced.event (h : db.Announced db') {e : TicketEvent} (he : e ∈ db.ticketEvents.rows) :
    e ∈ db'.ticketEvents.rows := h.ticketEvents ▸ he

theorem announced_apply {x : Write S} (h : Announces x) : db.Announced (x.apply start db) := by
  cases x with
  | insert row =>
    cases row with
    | delivery d =>
      exact ⟨rfl, rfl, rfl, rfl, rfl, rfl, rfl, rfl, fun _ h => h,
        fun d h => ⟨d, Table.mem_insert_of_mem h, rfl, rfl, rfl⟩⟩
    | auditLog a =>
      exact ⟨rfl, rfl, rfl, rfl, rfl, rfl, rfl, rfl, fun _ h => Table.mem_insert_of_mem h,
        fun d h => ⟨d, h, rfl, rfl, rfl⟩⟩
    | _ => exact h.elim
  | updateDelivery id p =>
    refine ⟨rfl, rfl, rfl, rfl, rfl, rfl, rfl, rfl, fun _ h => h, fun d hd => ?_⟩
    refine ⟨if d.id = id then p.apply d else d, List.mem_map.mpr ⟨d, hd, rfl⟩, ?_, ?_, ?_⟩ <;>
      split <;> rfl
  | _ => exact h.elim

theorem announced_applyAll {ws : List (Write S)} (h : ∀ x ∈ ws, Announces x) :
    db.Announced (applyAll start db ws) :=
  applyAll_induction (.refl db) fun x hx _ hk => hk.trans (announced_apply (h x hx))

end DB

/-! One attempt at a delivery -/

/-- The endpoint took the delivery. -/
def accepted : Except Err Nat → Bool
  | .ok status => decide (200 ≤ status) && decide (status < 300)
  | .error _ => false

/-- The row when the endpoint has answered `r`. -/
def WebhookDelivery.answered (d : WebhookDelivery) (r : Except Err Nat) : WebhookDelivery :=
  { d with
    attempts := d.attempts + 1
    lastStatusCode := match r with
      | .ok status => some status
      | .error _ => d.lastStatusCode
    lastError := match r with
      | .ok _ => d.lastError
      | .error e => some e.str }

/-- The row when the attempt is over. -/
def WebhookDelivery.settled (d : WebhookDelivery) (maxRetries : Nat) (success : Bool) :
    WebhookDelivery :=
  { d with
    status := if success then .success else if maxRetries ≤ d.attempts then .failed else d.status }

theorem WebhookDelivery.settled_failed {d : WebhookDelivery} {maxRetries : Nat}
    (h : maxRetries ≤ d.attempts) :
    d.settled maxRetries false = DeliveryPatch.apply { status := some .failed } d := by
  simp [settled, h, DeliveryPatch.apply]

theorem WebhookDelivery.settled_same {d : WebhookDelivery} {maxRetries : Nat}
    (h : d.attempts < maxRetries) : d.settled maxRetries false = d := by
  simp [settled, not_le.mpr h]

/-- The audit row of an accepted delivery. -/
def WebhookDelivery.sent (d : WebhookDelivery) (id : Uuid) : AuditLog where
  id := id
  organizationId := some d.organizationId
  actorUserId := none
  event := .webhookSent
  targetType := some "webhook_delivery"
  targetId := some d.id.str
  metadata := some [("event", .str d.event),
    ("status_code", (d.lastStatusCode.map MetaValue.int).getD .null)]
  createdAt := 0

/-- The statements that settle delivery `d` when its attributes are those of `a`. -/
def WebhookDelivery.settlement (d a : WebhookDelivery) (maxRetries : Nat) (id : Uuid)
    (success : Bool) : List (Write S) :=
  .updateDelivery d.id (d.diff (a.settled maxRetries success)) ::
    if success then [.insert (.auditLog (a.sent id))] else []

section

variable {d a : WebhookDelivery} {w : Webhook} {ts : List (Tracked Ticket)}
  {rs : List (Tracked AgentRun)} {ws : List (Tracked Webhook)} {past : List (DB S)} {tally : Tally}
  (hts : ts.filterMap (@dirtyTicket S) = []) (hrs : rs.filterMap (@dirtyAgentRun S) = [])
  (hws : ws.filterMap (@dirtyWebhook S) = []) (hfts : ts.map Tracked.flushed = ts)
  (hfrs : rs.map Tracked.flushed = rs) (hfws : ws.map Tracked.flushed = ws)
include hts hrs hws hfts hfrs hfws

theorem settleAttempt_solo (ha : a.attempts = d.attempts + 1) (hid : a.id = d.id) (success : Bool) :
    (WebhookService.settleAttempt cfg d.id success).Triple
      (Solo.observer cfg.platform faults Tally.note c)
      (fun x σ' s' => x = success ∧
        (∃ n' d', d'.id = d.id ∧ σ' = ⟨c, n', ts, rs, ws, [⟨d', d'⟩], []⟩) ∧
        s' = ⟨applyAll start db (d.settlement a cfg.settings.webhookMaxRetries ⟨c, n⟩ success), none,
          past ++ [db], ⟨tally.flags.committed, tally.posts⟩⟩)
      (fun _ σ' s' => σ'.conn = c ∧ s' = ⟨db, none, past, ⟨tally.flags.failed, tally.posts⟩⟩ ∧
        (Faulty faults ∨ (db.auditLogs.find? ⟨c, n⟩).isSome))
      ⟨c, n, ts, rs, ws, [⟨d, a⟩], []⟩ ⟨db, some (start, []), past, tally⟩ := by
  obtain ⟨flags, ps⟩ := tally
  have faulty : ∀ op : Op S, op.isPost = false → faults op = true → Faulty faults :=
    fun op h h' => ⟨op, h, h'⟩
  have taken : ∀ (p : DeliveryPatch) (x : AuditLog), x.id = ⟨c, n⟩ →
      violatesAny start db [.updateDelivery d.id p, .insert (.auditLog x)] = true →
        (db.auditLogs.find? ⟨c, n⟩).isSome := by
    intro p x hx h
    rw [← hx]
    simpa [violatesAny, Write.violates, Row.isPresent, Row.isTaken, Write.apply] using h
  have clean : ∀ p : DeliveryPatch,
      violatesAny start db [.updateDelivery d.id p] = false := fun _ => rfl
  simp [WebhookService.settleAttempt, M.triple_ite, hts, hrs, hws, hfts, hfrs, hfws, commit, record,
    ownIds_cons, Row.id, dirtyDelivery_of_attempts, ha, clean]
  refine ⟨?_, ?_⟩
  · rintro rfl
    refine ⟨fun _ h => ?_, fun _ => ⟨fun _ h => Or.inl (faulty _ rfl h), ?_⟩⟩
    · exact h.elim (fun h => Or.inl (faulty _ rfl h)) (fun h => Or.inr (taken _ _ rfl h))
    · refine ⟨hid, ?_⟩
      simp only [WebhookDelivery.settlement, WebhookDelivery.sent, WebhookDelivery.settled, hid]
      rfl
  · rintro rfl
    refine ⟨fun hmax => ?_, fun hmax => ?_⟩
    · refine ⟨fun _ h => Or.inl (faulty _ rfl h), fun _ h => Or.inl (faulty _ rfl h), hid, ?_⟩
      simp [WebhookDelivery.settlement, WebhookDelivery.settled_failed (ha ▸ hmax)]
    · refine ⟨fun _ h => Or.inl (faulty _ rfl h), fun _ h => Or.inl (faulty _ rfl h), hid, ?_⟩
      simp [WebhookDelivery.settlement, WebhookDelivery.settled_same (ha ▸ hmax)]

/-- An attempt at a delivery that the session has loaded: the endpoint answers some `r`, and
the session settles the delivery accordingly or fails without a trace. -/
theorem performAttempt_solo (owns : Bool) :
    (WebhookService.performAttempt cfg d w owns).Triple
      (Solo.observer cfg.platform faults Tally.note c)
      (fun x σ' s' => ∃ r, x = accepted r ∧
        (∃ n' d', d'.id = d.id ∧ σ' = ⟨c, n', ts, rs, ws, [⟨d', d'⟩], []⟩) ∧
        s' = ⟨applyAll start db (d.settlement (d.answered r) cfg.settings.webhookMaxRetries ⟨c, n⟩ x),
          none, past ++ [db], ⟨tally.flags.committed, tally.posts ++ [r]⟩⟩)
      (fun _ σ' s' => σ'.conn = c ∧ s'.db = db ∧ s'.past = past ∧
        s'.tally.flags = tally.flags.failed ∧
        (Faulty faults ∨ (db.auditLogs.find? ⟨c, n⟩).isSome))
      ⟨c, n, ts, rs, ws, [⟨d, d⟩], []⟩ ⟨db, some (start, []), past, tally⟩ := by
  obtain ⟨flags, ps⟩ := tally
  have faulty : ∀ op : Op S, op.isPost = false → faults op = true →
      Faulty faults ∨ (db.auditLogs.find? ⟨c, n⟩).isSome := fun op h h' => Or.inl ⟨op, h, h'⟩
  have settle : ∀ r, (WebhookService.settleAttempt cfg d.id (accepted r)).Triple
      (Solo.observer cfg.platform faults Tally.note c)
      (fun x σ' s' => ∃ r, x = accepted r ∧
        (∃ n' d', d'.id = d.id ∧ σ' = ⟨c, n', ts, rs, ws, [⟨d', d'⟩], []⟩) ∧
        s' = ⟨applyAll start db (d.settlement (d.answered r) cfg.settings.webhookMaxRetries ⟨c, n⟩ x),
          none, past ++ [db], ⟨flags.committed, ps ++ [r]⟩⟩)
      (fun _ σ' s' => σ'.conn = c ∧ s'.db = db ∧ s'.past = past ∧ s'.tally.flags = flags.failed ∧
        (Faulty faults ∨ (db.auditLogs.find? ⟨c, n⟩).isSome))
      ⟨c, n, ts, rs, ws, [⟨d, d.answered r⟩], []⟩
      ⟨db, some (start, []), past, flags, ps ++ [r]⟩ := by
    intro r
    refine M.triple_mono (settleAttempt_solo (a := d.answered r) hts hrs hws hfts hfrs hfws rfl rfl
      (accepted r)) ?_ ?_
    · rintro _ _ _ ⟨rfl, hσ, rfl⟩
      exact ⟨r, rfl, hσ, rfl⟩
    · rintro _ _ _ ⟨hconn, rfl, hcause⟩
      exact ⟨hconn, rfl, rfl, rfl, hcause⟩
  simp [WebhookService.performAttempt, WebhookService.attempt, M.triple_ite]
  intro now
  refine ⟨fun e _ => ?_, fun status => ?_⟩
  · exact ⟨fun _ => ⟨fun _ h => faulty _ rfl h, settle (.error e)⟩, fun _ => settle (.error e)⟩
  · exact ⟨fun _ => ⟨fun _ h => faulty _ rfl h, settle (.ok status)⟩, fun _ => settle (.ok status)⟩

end

/-- The organization's webhooks were all active, and this session recorded a delivery. -/
def DB.Delivers (db db' : DB S) (c : Nat) (organizationId : Uuid) (event : String) : Prop :=
  (∃ w ∈ db.webhooks.rows, w.organizationId = organizationId) →
    (∀ w ∈ db.webhooks.rows, w.organizationId = organizationId → w.isActive = true) →
      ∃ d ∈ db'.webhookDeliveries.rows, d.id.session = c ∧ d.organizationId = organizationId ∧
        d.event = event ∧ db.webhookDeliveries.find? d.id = none

theorem dispatch_solo {d : WebhookDelivery} {w : Webhook} {ts : List (Tracked Ticket)}
    {rs : List (Tracked AgentRun)} {past : List (DB S)} {ps : List (Except Err Nat)}
    (hts : ts.filterMap (@dirtyTicket S) = []) (hrs : rs.filterMap (@dirtyAgentRun S) = [])
    (hfts : ts.map Tracked.flushed = ts) (hfrs : rs.map Tracked.flushed = rs)
    (hw : d.webhookId = w.id) :
    (WebhookService.dispatch cfg d).Triple (Solo.observer cfg.platform faults Tally.note c)
      (fun _ σ' s' => (∃ n' ws ds, σ' = ⟨c, n', ts, rs, ws, ds, []⟩) ∧ db.Announced s'.db ∧
        (∃ more, s'.past = past ++ more ∧ ∀ v ∈ more, db.Announced v) ∧
        s'.tally.flags = ⟨false, true, false, false⟩)
      (fun _ σ' s' => σ'.conn = c ∧ db.Announced s'.db ∧
        (∃ more, s'.past = past ++ more ∧ ∀ v ∈ more, db.Announced v) ∧
        s'.tally.flags = ⟨false, true, false, true⟩)
      ⟨c, n, ts, rs, [⟨w, w⟩], [⟨d, d⟩], []⟩
      ⟨db, some (start, []), past, ⟨false, true, false, false⟩, ps⟩ := by
  have announced : ∀ r, db.Announced (applyAll start db
      (d.settlement (d.answered r) cfg.settings.webhookMaxRetries ⟨c, n⟩ (accepted r))) := by
    intro r
    refine DB.announced_applyAll fun x hx => ?_
    obtain rfl | hx := List.mem_cons.mp hx
    · trivial
    · split at hx
      · obtain rfl := List.mem_singleton.mp hx
        trivial
      · cases hx
  simp [WebhookService.dispatch, WebhookService.deliverOnce, M.triple_ite, hw, DB.Announced.refl]
  intro _ _
  refine M.triple_mono (performAttempt_solo hts hrs (by simp) hfts hfrs (by simp) true) ?_ ?_
  · rintro _ _ _ ⟨r, rfl, ⟨n', d', hid, rfl⟩, rfl⟩
    refine ⟨fun _ _ => ⟨⟨_, _, _, rfl⟩, announced r, ⟨_, rfl, ?_⟩, rfl⟩, ?_⟩
    · simp [DB.Announced.refl]
    · intro h
      exact absurd hid (by simpa using h)
  · rintro _ _ s' ⟨hconn, hdb, hpast, hflags, -⟩
    refine ⟨hconn, hdb ▸ .refl _, ⟨[], by simpa using hpast, by simp⟩, by simpa using hflags⟩

theorem DB.Delivers.mono {db'' : DB S} {organizationId : Uuid} {event : String}
    (h : db.Delivers db' c organizationId event) (ha : db'.Announced db'') :
    db.Delivers db'' c organizationId event := by
  intro hsome hall
  obtain ⟨d, hd, hsession, horg, hevent, hnew⟩ := h hsome hall
  obtain ⟨d', hd', hid, horg', hevent'⟩ := ha.webhookDeliveries d hd
  exact ⟨d', hd', hid ▸ hsession, horg'.trans horg, hevent'.trans hevent, hid ▸ hnew⟩

/-- A new delivery with its payload. -/
theorem find?_recorded {d : WebhookDelivery} (p : DeliveryPatch)
    (h : violatesAny start db [.insert (.delivery d)] = false) :
    (Write.apply start (Write.apply start db (.insert (.delivery d)))
      (.updateDelivery d.id p)).webhookDeliveries.find? d.id =
        some (p.apply { d with createdAt := start }) := by
  have hnew : db.webhookDeliveries.find? d.id = none := by
    simpa [violatesAny, Write.violates, Row.isPresent, Row.isTaken] using h
  change ((db.webhookDeliveries.insert { d with createdAt := start }).update d.id p.apply
    fun _ => rfl).find? d.id = _
  rw [Table.find?_update (f := p.apply) fun _ => rfl, if_pos rfl, Table.find?_insert, hnew]
  simp [Framework.Keyed.key]

theorem delivers_recorded {d : WebhookDelivery} (p : DeliveryPatch)
    (h : violatesAny start db [.insert (.delivery d)] = false) :
    db.Delivers (Write.apply start (Write.apply start db (.insert (.delivery d)))
      (.updateDelivery d.id p)) d.id.session d.organizationId d.event := by
  intro _ _
  refine ⟨_, Table.mem_of_find? (find?_recorded p h), rfl, rfl, rfl, ?_⟩
  simpa [violatesAny, Write.violates, Row.isPresent, Row.isTaken] using h

theorem enqueueForTicket_solo {t : Ticket} {ts : List (Tracked Ticket)}
    {rs : List (Tracked AgentRun)} {past : List (DB S)} {ps : List (Except Err Nat)}
    {ticketId organizationId : Uuid} (event : String) (hid : t.id = ticketId)
    (horg : t.organizationId = organizationId)
    (hts : ts.filterMap (@dirtyTicket S) = []) (hrs : rs.filterMap (@dirtyAgentRun S) = [])
    (hfts : ts.map Tracked.flushed = ts) (hfrs : rs.map Tracked.flushed = rs)
    (hfind : ts.find? (fun o => o.loaded.id == ticketId) = some ⟨t, t⟩) :
    (WebhookService.enqueueForTicket cfg ticketId event).Triple
      (Solo.observer cfg.platform faults Tally.note c)
      (fun _ σ' s' => (∃ n' ws ds, σ' = ⟨c, n', ts, rs, ws, ds, []⟩) ∧ db.Announced s'.db ∧
        db.Delivers s'.db c organizationId event ∧
        (∃ more, s'.past = past ++ more ∧ ∀ v ∈ more, db.Announced v) ∧
        s'.tally.flags = ⟨false, true, false, false⟩)
      (fun _ σ' s' => σ'.conn = c ∧ db.Announced s'.db ∧
        (∃ more, s'.past = past ++ more ∧ ∀ v ∈ more, db.Announced v) ∧
        s'.tally.flags = ⟨false, true, false, true⟩)
      ⟨c, n, ts, rs, [], [], []⟩
      ⟨db, some (start, []), past, ⟨false, true, false, false⟩, ps⟩ := by
  subst hid horg
  simp [WebhookService.enqueueForTicket, M.triple_ite, hts, hrs, hfind, hfts, hfrs, commit,
    dirtyDelivery_of_payload, ownIds_cons, Row.id, DB.Announced.refl]
  refine ⟨fun pick hnone => ?_, fun w pick hsome => ⟨fun hinactive => ?_, ?_⟩⟩
  · rintro ⟨w, hw, horg⟩ -
    have hmem : w ∈ db.webhooks.rows.filter fun w => w.organizationId == t.organizationId := by
      simp [hw, horg]
    rw [pickFrom_eq_none.mp hnone] at hmem
    cases hmem
  · obtain ⟨hmem, horg⟩ := List.mem_filter.mp (mem_of_pickFrom hsome)
    intro _ hall
    simp [hall w hmem (by simpa using horg)] at hinactive
  · intro _ hnew now _
    have hfound := fun p => find?_recorded p hnew
    have hdelivers := fun p => delivers_recorded p hnew
    have hannounced : ∀ d id p, db.Announced (Write.apply start
        (Write.apply start db (.insert (.delivery d))) (.updateDelivery id p)) :=
      fun d id p => (@DB.announced_apply S db start (.insert (.delivery d)) trivial).trans
        (@DB.announced_apply S _ start (.updateDelivery id p) trivial)
    refine ⟨fun _ _ => hannounced _ _ _, ?_, ?_⟩
    · intro hnone
      exact absurd ((hfound _).symm.trans hnone) (by simp)
    · intro d now' hd
      obtain rfl := Option.some.inj ((hfound _).symm.trans hd)
      refine M.triple_mono (dispatch_solo (w := w) hts hrs hfts hfrs rfl) ?_ ?_
      · rintro _ _ s' ⟨hσ, hdb, ⟨more, hpast, hmore⟩, hflags⟩
        refine ⟨hσ, (hannounced _ _ _).trans hdb, (hdelivers _).mono hdb, ⟨db :: more, ?_, ?_⟩, hflags⟩
        · simp [hpast]
        · simp [DB.Announced.refl]
          exact fun v hv => (hannounced _ _ _).trans (hmore v hv)
      · rintro _ _ s' ⟨hconn, hdb, ⟨more, hpast, hmore⟩, hflags⟩
        refine ⟨hconn, (hannounced _ _ _).trans hdb, ⟨db :: more, ?_, ?_⟩, hflags⟩
        · simp [hpast]
        · simp [DB.Announced.refl]
          exact fun v hv => (hannounced _ _ _).trans (hmore v hv)

end AgentDesk
