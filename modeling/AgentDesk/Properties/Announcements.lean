import AgentDesk.Properties.AuditTrail
import AgentDesk.Properties.Notifications

namespace AgentDesk

open Framework (Pool Event Program Table)

variable {S : Type} {cfg : Config S} {workflow : Workflow S} {w : World S} {c i : Nat} {id : Uuid}
  {key : Uuid × String}

/-! Resolutions and their announcements -/

/-- The announcement that the event calls for. -/
def TicketEvent.resolution (e : TicketEvent) : Option (Uuid × String) :=
  if e.eventType == "approved" then some (e.ticketId, "ticket.approved")
  else if e.eventType == "agent_run" && e.toStatus == some .escalated then
    some (e.ticketId, "ticket.escalated")
  else none

/-- The notice announces this. -/
def Notice.announces (key : Uuid × String) (n : Notice) : Bool :=
  n.event == key.2 &&
    (n.payload.field? "ticket").bind (Json.field? "id") == some (.str key.1.str)

/-- How often the session resolved the ticket like this. -/
def DB.resolved (db : DB S) (c : Nat) (key : Uuid × String) : Nat :=
  db.ticketEvents.rows.countP fun e => e.id.session == c && e.resolution == some key

/-- How often the session announced this. -/
def DB.announced (db : DB S) (c : Nat) (key : Uuid × String) : Nat :=
  db.notices.countP fun n => n.id.session == c && n.announces key

/-- The deliveries for this event whose payload carries the id of the ticket. -/
def DB.announcementsOf (db : DB S) (event : String) (ticketId : Uuid) : List WebhookDelivery :=
  db.webhookDeliveries.rows.filter fun d =>
    d.event == event && d.ticketField "id" == some (.str ticketId.str)

/-- Every resolution of the ticket has been announced, and nothing else has. -/
structure Announced (db : DB S) (ticketId : Uuid) : Prop where
  approved : (db.announcementsOf "ticket.approved" ticketId).length =
    (db.eventsOf "approved" ticketId).length
  escalated : (db.announcementsOf "ticket.escalated" ticketId).length =
    ((db.eventsOf "agent_run" ticketId).filter (·.toStatus == some .escalated)).length

/-- As long as the ticket is there its organization has a webhook, and none that is inactive. -/
def World.Hooked (w : World S) (t : Ticket) : Prop :=
  ∀ db ∈ w.versions, (db.tickets.find? t.id).isSome = true →
    (∃ h ∈ db.webhooks.rows, h.organizationId = t.organizationId) ∧
      ∀ h ∈ db.webhooks.rows, h.organizationId = t.organizationId → h.isActive = true

instance (t : Ticket) : Decidable (w.Hooked t) := by
  unfold World.Hooked
  infer_instance

/-- While a session owes an announcement none of its calls raises and it finds the ticket again, and an
execution that reads its run again finds it concluded as it concluded it. -/
def Steady (c : Nat) (w : World S) (op : Op S) (r : Res op) (_ : World S) : Prop :=
  (w.journal c).steady op r = true

instance {op : Op S} {r : Res op} {w' : World S} : Decidable (Steady c w op r w') := by
  unfold Steady
  infer_instance

theorem announces_payload {P : Platform} {t : Ticket} {event : String} {now : Time} :
    Notice.announces key ⟨id, event, WebhookService.buildTicketPayload P t event id now⟩ =
      (some (t.id, event) == some key) := by
  have hfield : ((WebhookService.buildTicketPayload P t event id now).field? "ticket").bind
      (Json.field? "id") = some (.str t.id.str) := rfl
  rw [Notice.announces, hfield, Bool.eq_iff_iff, Bool.and_eq_true, beq_iff_eq, beq_iff_eq, beq_iff_eq]
  constructor
  · rintro ⟨hevent, hid⟩
    rw [Option.some_inj, Json.str.injEq] at hid
    exact congrArg some (Prod.ext (Uuid.str_injective hid) hevent)
  · intro heq
    cases heq
    exact ⟨rfl, rfl⟩

theorem resolution_approved (e : TicketEvent) :
    (e.resolution == some (id, "ticket.approved")) =
      (e.eventType == "approved" && e.ticketId == id) := by
  unfold TicketEvent.resolution
  split_ifs with happroved hescalated
  · simp [eq_of_beq happroved]
  · simp [happroved]
  · simp [happroved]

theorem resolution_escalated (e : TicketEvent) :
    (e.resolution == some (id, "ticket.escalated")) =
      (e.toStatus == some .escalated && (e.eventType == "agent_run" && e.ticketId == id)) := by
  unfold TicketEvent.resolution
  split_ifs with happroved hescalated
  · simp [eq_of_beq happroved]
  · obtain ⟨htype, hto⟩ := Bool.and_eq_true_iff.mp hescalated
    simp [eq_of_beq htype, eq_of_beq hto]
  · rw [← Bool.and_assoc, Bool.and_comm (e.toStatus == some .escalated),
      Bool.eq_false_of_not_eq_true hescalated]
    rfl

/-- A deed records the resolution that it makes. -/
theorem events_of_deed {s : Journal S} {ws : List (Write S)} (h : Deed cfg workflow s ws)
    (start : Time) :
    (ws.filterMap (Growing.ticketEvents.new start)).filterMap TicketEvent.resolution =
      (ws.findSome? Write.resolution).toList := by
  have hnone : ∀ {ws : List (Write S)}, (∀ x ∈ ws, x.isHistory = false) →
      (ws.filterMap (Growing.ticketEvents.new start)).filterMap TicketEvent.resolution =
        (ws.findSome? Write.resolution).toList := by
    intro ws hws
    have hevents : ws.filterMap (Growing.ticketEvents.new start) = [] := by
      refine List.filterMap_eq_nil_iff.mpr fun x hx => ?_
      have hx := hws x hx
      cases x with
      | insert row => cases row <;> first | rfl | cases hx
      | _ => rfl
    rw [hevents, List.findSome?_eq_none_iff.mpr fun x hx => (historyless (hws x hx)).2]
    rfl
  have hmoved : ∀ {t : Ticket} {p : TicketPatch} {e : TicketEvent} {target : TicketStatus},
      Moves t p e target → e.resolution = target.announcement.map (fun event => (t.id, event)) →
      ∀ rest : List (Write S), (∀ x ∈ rest, x.isHistory = false) →
        ((Write.updateTicket t.id p :: .insert (.ticketEvent e) :: rest).filterMap
          (Growing.ticketEvents.new start)).filterMap TicketEvent.resolution =
        ((Write.updateTicket t.id p :: .insert (.ticketEvent e) :: rest).findSome?
          Write.resolution).toList := by
    intro t p e target hmoves hresolution rest hrest
    have hevents : rest.filterMap (Growing.ticketEvents.new start) = [] := by
      refine List.filterMap_eq_nil_iff.mpr fun x hx => ?_
      have hx := hrest x hx
      cases x with
      | insert row => cases row <;> first | rfl | cases hx
      | _ => rfl
    have hwrites : rest.findSome? Write.resolution = none :=
      List.findSome?_eq_none_iff.mpr fun x hx => (historyless (hrest x hx)).2
    have hcreated : TicketEvent.resolution { e with createdAt := start } = e.resolution := rfl
    have hupdate : (Write.updateTicket t.id p : Write S).resolution =
        target.announcement.map fun event => (t.id, event) := by
      rw [resolution_updateTicket, hmoves.patch]
      rfl
    have hnew : (Write.updateTicket t.id p :: .insert (.ticketEvent e) :: rest).filterMap
        (Growing.ticketEvents.new start) = [{ e with createdAt := start }] := by
      change { e with createdAt := start } :: rest.filterMap (Growing.ticketEvents.new start) = _
      rw [hevents]
    rw [hnew, List.filterMap_cons, hcreated, hresolution, List.findSome?_cons, hupdate]
    cases target.announcement with
    | none => exact (congrArg Option.toList hwrites).symm
    | some event => rfl
  cases h with
  | plain hplain =>
    refine hnone fun x hx => ?_
    have hx := hplain x hx
    cases x with
    | insert row => cases row <;> first | rfl | exact hx.elim
    | updateTicket id p => exact hx.elim
    | _ => rfl
  | @created t e a status ticket organization source target event =>
    have hresolution : TicketEvent.resolution { e with createdAt := start } = none := by
      simp [TicketEvent.resolution, event]
    change [({ e with createdAt := start } : TicketEvent)].filterMap TicketEvent.resolution = []
    rw [List.filterMap_cons, hresolution]
    rfl
  | started | failed | announced =>
    refine hnone fun x hx => ?_
    simp only [List.mem_cons, List.not_mem_nil, or_false] at hx
    rcases hx with rfl | rfl <;> rfl
  | @edited t us e read update ticket organization target event =>
    have hevents : us.filterMap (Growing.ticketEvents.new start) = [] := by
      refine List.filterMap_eq_nil_iff.mpr fun x hx => ?_
      obtain ⟨p, rfl, -⟩ := update x hx
      rfl
    have hwrites : us.findSome? Write.resolution = none := by
      refine List.findSome?_eq_none_iff.mpr fun x hx => ?_
      obtain ⟨p, rfl, hp, -⟩ := update x hx
      rw [resolution_updateTicket, hp]
      rfl
    have hresolution : TicketEvent.resolution { e with createdAt := start } = none := by
      simp [TicketEvent.resolution, event]
    rw [List.filterMap_append, hevents, List.nil_append, List.findSome?_append, hwrites]
    change [({ e with createdAt := start } : TicketEvent)].filterMap TicketEvent.resolution = []
    rw [List.filterMap_cons, hresolution]
    rfl
  | @decided t p e a target read free moves decides =>
    refine hmoved moves ?_ [.insert (.auditLog a)] fun x hx => ?_
    · cases decides with
      | approved final hfinal hevent =>
        simp [TicketEvent.resolution, hevent, moves.ticket, TicketStatus.announcement]
      | rejected hfinal hevent =>
        simp [TicketEvent.resolution, hevent, TicketStatus.announcement]
    · rw [List.mem_singleton.mp hx]
      rfl
  | @concluded t p e a runId state ws read free yields moves concludes history audit side =>
    have hnew : ws.filterMap (Growing.ticketEvents.new start) =
        (ws.filter Write.isHistory).filterMap (Growing.ticketEvents.new start) := by
      rw [List.filterMap_filter]
      refine List.filterMap_congr fun x hx => ?_
      cases x with
      | insert row => cases row <;> rfl
      | _ => rfl
    rw [hnew, findSome?_of_filter (p := Write.isHistory) fun x _ hh => (historyless hh).2, history]
    refine hmoved moves ?_ [] fun x hx => (List.not_mem_nil hx).elim
    have htarget : state.target = .waitingApproval ∨ state.target = .escalated := by
      unfold AgentState.target
      split
      · exact Or.inl rfl
      · exact Or.inr rfl
    have hto := moves.target
    rcases htarget with heq | heq <;> rw [heq] at hto ⊢ <;>
      simp [TicketEvent.resolution, concludes.event, hto, moves.ticket, TicketStatus.announcement]

theorem resolved_commit {s : Journal S} {ws : List (Write S)} {start : Time} {db : DB S}
    (h : Deed cfg workflow s ws) (hown : World.ownIds i ws = true) (habsent : Absent start db ws)
    (c : Nat) (key : Uuid × String) : (applyAll start db ws).resolved c key =
      db.resolved c key + if c = i ∧ ws.findSome? Write.resolution = some key then 1 else 0 := by
  have hrows : (applyAll start db ws).ticketEvents.rows =
      db.ticketEvents.rows ++ ws.filterMap (Growing.ticketEvents.new start) :=
    Growing.ticketEvents.applyAll habsent
  have hsession : ∀ e ∈ ws.filterMap (Growing.ticketEvents.new start), e.id.session = i := by
    intro e he
    obtain ⟨x, hx, hnew⟩ := List.mem_filterMap.mp he
    obtain ⟨row, rfl, hid⟩ := Growing.ticketEvents.keyed hnew
    have hall := List.all_eq_true.mp hown _ hx
    change e.id.session = i
    rw [show e.id = row.id from hid.symm]
    exact eq_of_beq hall
  have hresolutions : (ws.filterMap (Growing.ticketEvents.new start)).countP
      (fun e => e.resolution == some key) =
        if ws.findSome? Write.resolution = some key then 1 else 0 := by
    have hcount : ∀ es : List TicketEvent, es.countP (fun e => e.resolution == some key) =
        (es.filterMap TicketEvent.resolution).count key := by
      intro es
      rw [List.count, List.countP_filterMap]
      refine List.countP_congr fun e _ => ?_
      cases e.resolution <;> simp
    rw [hcount, events_of_deed h]
    cases ws.findSome? Write.resolution with
    | none => rfl
    | some due =>
      by_cases hdue : due = key
      · simp [hdue]
      · simp [hdue]
  rw [DB.resolved, hrows, List.countP_append, ← DB.resolved]
  congr 1
  by_cases hc : c = i
  · subst hc
    rw [List.countP_congr (q := fun e => e.resolution == some key), hresolutions]
    · simp
    · intro e he
      rw [hsession e he, beq_self_eq_true, Bool.true_and]
  · rw [if_neg fun hboth => hc hboth.1]
    refine List.countP_eq_zero.mpr fun e he => ?_
    rw [hsession e he, beq_eq_false_iff_ne.mpr (Ne.symm hc)]
    exact Bool.false_ne_true

/-! The runs of the deployment -/

/-- Every resolution is announced or owed; a session that looked for the webhook of an organization
while it owed an announcement saw what was committed then. -/
structure Announcing (cfg : Config S) (w : World S) : Prop where
  counts : ∀ c key, w.db.resolved c key =
    w.db.announced c key + if (w.journal c).owed = some key then 1 else 0
  kept : ∀ c, (w.journal c).lost = false
  straight : ∀ c, (w.journal c).strayed = false
  rows : ∀ c id t, (w.journal c).row id = some t → t.id = id ∧
    ∃ t' ∈ w.db.tickets.rows, t'.id = id ∧ t'.organizationId = t.organizationId
  stored : ∀ c id event, (w.journal c).owed = some (id, event) →
    (w.db.tickets.find? id).isSome = true
  looked : ∀ c id event organizationId hook, (w.journal c).owed = some (id, event) →
    (w.journal c).hook = some (organizationId, hook) →
      ∃ db ∈ w.versions, (db.tickets.find? id).isSome = true ∧
        ∃ choice, hook = (Query.webhookOf organizationId).eval cfg.platform choice db

theorem announcing_init : Announcing cfg (.init : World S) := by
  refine ⟨fun c key => rfl, fun _ => rfl, fun _ => rfl, fun c id t h => ?_, fun c id event h => ?_,
    fun c id event organizationId hook h => ?_⟩
  all_goals cases h

section

variable [Field S] [LinearOrder S] [FloorRing S] {before after : List (Event Job (Reply S))}
  {job : Job} {op : Op S} {r : Res op}

theorem Announcing.straightened (h : Advances cfg workflow before after i job op r)
    (hcond : Steady i (deployment cfg workflow before).world op r
      (deployment cfg workflow after).world)
    (hannouncing : Announcing cfg (deployment cfg workflow before).world) (c : Nat) :
    ((deployment cfg workflow after).world.journal c).lost = false ∧
      ((deployment cfg workflow after).world.journal c).strayed = false := by
  by_cases hc : c = i
  · subst hc
    rw [h.journal]
    exact ⟨Journal.lost_after hcond (hannouncing.kept c),
      Journal.strayed_after hcond (hannouncing.straight c)⟩
  · rw [h.journal_ne hc]
    exact ⟨hannouncing.kept c, hannouncing.straight c⟩

/-- A call that leaves the history as it is. -/
theorem Announcing.quiet (h : Advances cfg workflow before after i job op r)
    (hcond : Steady i (deployment cfg workflow before).world op r
      (deployment cfg workflow after).world)
    (hquiet : (deployment cfg workflow before).world.Quiet (deployment cfg workflow after).world)
    (hannouncing : Announcing cfg (deployment cfg workflow before).world) :
    Announcing cfg (deployment cfg workflow after).world := by
  have hhears := h.hears hquiet
  have howes : ∀ c, ((deployment cfg workflow after).world.journal c).owed =
      ((deployment cfg workflow before).world.journal c).owed := by
    intro c
    by_cases hc : c = i
    · subst hc
      exact hhears.owed
    · rw [h.journal_ne hc]
  refine ⟨fun c key => ?_, fun c => (hannouncing.straightened h hcond c).1,
    fun c => (hannouncing.straightened h hcond c).2, fun c id t ht => ?_, fun c id event howed => ?_,
    fun c id event organizationId hook howed hhook => ?_⟩
  · rw [howes c, hquiet.db]
    exact hannouncing.counts c key
  · rw [hquiet.db]
    by_cases hc : c = i
    · subst hc
      rcases hhears.row id with hrow | ⟨row, hx, hrow⟩
      · rw [hrow] at ht
        exact hannouncing.rows c id t ht
      · rw [hrow] at ht
        subst ht
        cases hx
        obtain ⟨-, choice, hanswer⟩ := h.answer
        have hfound : (deployment cfg workflow before).world.db.tickets.find? id = some t :=
          hanswer.symm
        have hid : t.id = id := Table.key_of_find? hfound
        exact ⟨hid, t, Table.mem_of_find? hfound, hid, rfl⟩
    · rw [h.journal_ne hc] at ht
      exact hannouncing.rows c id t ht
  · rw [howes c] at howed
    rw [hquiet.db]
    exact hannouncing.stored c id event howed
  · rw [howes c] at howed
    rw [hquiet.versions]
    by_cases hc : c = i
    · subst hc
      rcases hhears.hook with hsame | ⟨org, found, hx, hfound⟩
      · rw [hsame] at hhook
        exact hannouncing.looked c id event organizationId hook howed hhook
      · rw [hfound] at hhook
        cases hhook
        cases hx
        obtain ⟨-, hanswer⟩ := h.answer
        have hlast : (deployment cfg workflow before).world.db ∈
            (deployment cfg workflow before).world.versions :=
          List.mem_of_getElem? World.versions_last
        exact ⟨_, hlast, hannouncing.stored c id event howed, hanswer⟩
    · rw [h.journal_ne hc] at hhook
      exact hannouncing.looked c id event organizationId hook howed hhook

/-- What a commit makes of the balance between what is resolved, announced and owed. -/
theorem Announcing.balance {tx : Tx S} {r : Res (.commit : Op S)}
    (h : Advances cfg workflow before after i job .commit r)
    (htx : (deployment cfg workflow before).world.Commits i tx (deployment cfg workflow after).world)
    (hannouncing : Announcing cfg (deployment cfg workflow before).world) (c : Nat)
    (key : Uuid × String) : (deployment cfg workflow after).world.db.resolved c key =
      (deployment cfg workflow after).world.db.announced c key +
        if ((deployment cfg workflow after).world.journal c).owed = some key then 1 else 0 := by
  have hkept : Kept (deployment cfg workflow before) := deployment_kept
  obtain ⟨hown, habsent⟩ := hkept.sane.sound i tx htx.open_
  obtain ⟨hwrites, hdeed⟩ := h.deed htx
  have hok := h.committed_ok htx
  subst hok
  have howed : ((deployment cfg workflow after).world.journal i).owed =
      owedAfter ((deployment cfg workflow before).world.journal i).owed tx.writes := by
    rw [h.journal, ← hwrites]
    rfl
  have hbefore := hannouncing.counts c key
  have hresolved := resolved_commit hdeed hown habsent c key
  rw [← htx.db] at hresolved
  rw [hresolved, hbefore]
  rcases notices_of_deed hdeed habsent with ⟨hsilent, hsame⟩ |
    ⟨t, event, hook, d, p, now, hinserted, -, hdue, -, -, hnew⟩
  · have hannounced : (deployment cfg workflow after).world.db.announced c key =
        (deployment cfg workflow before).world.db.announced c key := by
      rw [DB.announced, htx.db, hsame, DB.announced]
    rw [hannounced, Nat.add_assoc]
    congr 1
    by_cases hc : c = i
    · subst hc
      have hnone : tx.writes.any Write.announces = false :=
        List.any_eq_false.mpr fun x hx => by rw [hsilent x hx]; exact Bool.false_ne_true
      rw [howed, owedAfter, hnone]
      cases hres : tx.writes.findSome? Write.resolution with
      | none => simp
      | some due =>
        obtain ⟨id, event⟩ := due
        obtain ⟨t, p, e, st, -, -, hfree, -⟩ := deed_resolution hdeed hres
        rw [hfree]
        simp
    · have hother : ¬(c = i ∧ tx.writes.findSome? Write.resolution = some key) := fun h => hc h.1
      rw [h.journal_ne hc, if_neg hother, Nat.add_zero]
  · have hres : tx.writes.findSome? Write.resolution = none := by
      rw [hinserted]
      rfl
    have howes : ((deployment cfg workflow before).world.journal i).owed = some (t.id, event) := by
      rcases hdue with hdue | ⟨-, hstrayed⟩
      · exact hdue
      · rw [hannouncing.straight i] at hstrayed
        cases hstrayed
    have hsession : d.id.session = i := by
      rw [hinserted] at hown
      exact eq_of_beq (Bool.and_eq_true_iff.mp hown).1
    have hannounced : (deployment cfg workflow after).world.db.announced c key =
        (deployment cfg workflow before).world.db.announced c key +
          if c = i ∧ some (t.id, event) = some key then 1 else 0 := by
      rw [DB.announced, htx.db, hnew, List.countP_append, List.countP_singleton, announces_payload,
        ← DB.announced, hsession]
      congr 1
      by_cases hc : c = i
      · subst hc
        simp
      · have hother : ¬(c = i ∧ some (t.id, event) = some key) := fun h => hc h.1
        rw [beq_eq_false_iff_ne.mpr (Ne.symm hc), if_neg hother]
        rfl
    rw [hannounced, hres]
    by_cases hc : c = i
    · subst hc
      have hpaid : ((deployment cfg workflow after).world.journal c).owed = none := by
        rw [howed, owedAfter, hinserted]
        rfl
      rw [hpaid, howes]
      simp
    · simp [h.journal_ne hc, hc]

/-- A commit. -/
theorem Announcing.commits {tx : Tx S} {r : Res (.commit : Op S)}
    (h : Advances cfg workflow before after i job .commit r)
    (hcond : Steady i (deployment cfg workflow before).world .commit r
      (deployment cfg workflow after).world)
    (htx : (deployment cfg workflow before).world.Commits i tx (deployment cfg workflow after).world)
    (hannouncing : Announcing cfg (deployment cfg workflow before).world) :
    Announcing cfg (deployment cfg workflow after).world := by
  have hkept : Kept (deployment cfg workflow before) := deployment_kept
  have hversions := h.steps.versions
  obtain ⟨hwrites, hdeed⟩ := h.deed htx
  have hok := h.committed_ok htx
  subst hok
  have hjournal : (deployment cfg workflow after).world.journal i =
      ((deployment cfg workflow before).world.journal i).committed := h.journal
  have hgrows : ∀ t ∈ (deployment cfg workflow before).world.db.tickets.rows,
      ∃ t' ∈ (deployment cfg workflow after).world.db.tickets.rows,
        t'.id = t.id ∧ t'.organizationId = t.organizationId := by
    rw [htx.db]
    exact (DB.grows_applyAll tx.writes).tickets
  have hrows : ∀ c id t, ((deployment cfg workflow before).world.journal c).row id = some t →
      t.id = id ∧ ∃ t' ∈ (deployment cfg workflow after).world.db.tickets.rows,
        t'.id = id ∧ t'.organizationId = t.organizationId := by
    intro c id t ht
    obtain ⟨hid, t', ht', hid', horganization⟩ := hannouncing.rows c id t ht
    obtain ⟨t'', ht'', hid'', horganization'⟩ := hgrows t' ht'
    exact ⟨hid, t'', ht'', hid''.trans hid', horganization'.trans horganization⟩
  have hstays : ∀ id, ((deployment cfg workflow before).world.db.tickets.find? id).isSome = true →
      ((deployment cfg workflow after).world.db.tickets.find? id).isSome = true := by
    intro id hsome
    obtain ⟨t, ht⟩ := Option.isSome_iff_exists.mp hsome
    obtain ⟨t', ht', hid, -⟩ := hgrows t (Table.mem_of_find? ht)
    have hfound : (deployment cfg workflow after).world.db.tickets.find? t'.id = some t' :=
      Table.find?_of_mem ht'
    have hkey : t'.id = id := hid.trans (Table.key_of_find? ht)
    rw [hkey] at hfound
    exact Option.isSome_iff_exists.mpr ⟨t', hfound⟩
  -- What is owed after the commit is owed already, or the commit has just caused it.
  have howed : ∀ c id event, ((deployment cfg workflow after).world.journal c).owed =
      some (id, event) → ((deployment cfg workflow before).world.journal c).owed = some (id, event) ∨
        c = i ∧ ((deployment cfg workflow after).world.journal i).hook = none ∧
          ((deployment cfg workflow after).world.db.tickets.find? id).isSome = true := by
    intro c id event howed
    by_cases hc : c = i
    · subst hc
      rw [hjournal] at howed ⊢
      change owedAfter _ ((deployment cfg workflow before).world.journal c).writes =
        some (id, event) at howed
      rw [hwrites, owedAfter] at howed
      split at howed
      · cases howed
      · cases hres : tx.writes.findSome? Write.resolution with
        | none =>
          rw [hres, Option.none_or] at howed
          exact Or.inl howed
        | some due =>
          rw [hres, Option.some_or] at howed
          cases howed
          obtain ⟨t, p, e, st, hread, -, -, hp, -, hhistory⟩ := deed_resolution hdeed hres
          obtain ⟨-, t', ht', hid', -⟩ := hrows c id t hread
          have hfound : (deployment cfg workflow after).world.db.tickets.find? t'.id = some t' :=
            Table.find?_of_mem ht'
          have hmoved : (tx.writes.findSome? Write.moved).isSome = true := by
            rw [findSome?_of_filter (p := Write.isHistory) fun x _ hh => (historyless hh).1, hhistory,
              List.findSome?_cons, moved_updateTicket, hp]
            rfl
          refine Or.inr ⟨rfl, ?_, ?_⟩
          · change (if (((deployment cfg workflow before).world.journal c).writes.findSome?
              Write.moved).isSome = true then none else _) = none
            rw [hwrites, if_pos hmoved]
          · rw [← hid', hfound]
            rfl
    · rw [h.journal_ne hc] at howed
      exact Or.inl howed
  refine ⟨fun c key => hannouncing.balance h htx c key,
    fun c => (hannouncing.straightened h hcond c).1,
    fun c => (hannouncing.straightened h hcond c).2, fun c id t ht => ?_, fun c id event hdue => ?_,
    fun c id event organizationId hook hdue hhook => ?_⟩
  · by_cases hc : c = i
    · subst hc
      rw [hjournal] at ht
      exact hrows c id t (Journal.row_committed ht).1
    · rw [h.journal_ne hc] at ht
      exact hrows c id t ht
  · rcases howed c id event hdue with hbefore | ⟨-, -, hstored⟩
    · exact hstays id (hannouncing.stored c id event hbefore)
    · exact hstored
  · rcases howed c id event hdue with hbefore | ⟨rfl, hforgotten, -⟩
    · have hlooked : ((deployment cfg workflow before).world.journal c).hook =
          some (organizationId, hook) := by
        by_cases hc : c = i
        · subst hc
          rw [hjournal] at hhook
          simp only [Journal.committed] at hhook
          split at hhook
          · cases hhook
          · exact hhook
        · rw [h.journal_ne hc] at hhook
          exact hhook
      obtain ⟨db, hdb, hseen⟩ := hannouncing.looked c id event organizationId hook hbefore hlooked
      exact ⟨db, hversions.subset hdb, hseen⟩
    · rw [hforgotten] at hhook
      cases hhook

theorem deployment_announcing {events : List (Event Job (Reply S))}
    (hm : Pool.Meets (server cfg.platform) (Job.program cfg workflow) Steady ⟨.init, []⟩ events) :
    Announcing cfg (deployment cfg workflow events).world := by
  refine deployment_induction announcing_init ?_
    (fun h => ⟨h.counts, h.kept, h.straight, h.rows, h.stored, h.looked⟩) hm
  intro before after i job op r h hcond hannouncing
  rcases h.steps.history with hquiet | ⟨rfl, tx, htx⟩
  · exact hannouncing.quiet h hcond hquiet
  · exact hannouncing.commits h hcond htx

/-- An ended session owes no announcement of a ticket whose organization has its webhook active. -/
theorem Announcing.paid {events : List (Event Job (Reply S))} {t : Ticket} {o : Outcome}
    {event : String} (hannouncing : Announcing cfg (deployment cfg workflow events).world)
    (ht : t ∈ (deployment cfg workflow events).world.db.tickets.rows)
    (hhooked : (deployment cfg workflow events).world.Hooked t)
    (hthread : (deployment cfg workflow events).threads[i]? = some (job, some (.ret o))) :
    ((deployment cfg workflow events).world.journal i).owed ≠ some (t.id, event) := by
  intro howed
  have hend : ((deployment cfg workflow events).world.journal i).Settled :=
    ends_of_thread (O := Journal.observer cfg workflow) (f := fun s x => s.after x.1 x.2)
      (fun _ _ _ hfits => Journal.observer_next.mpr ⟨hfits, rfl⟩)
      (Job.program_journaled cfg workflow job i) hthread
  rcases hend with hfree | hlost | hstrayed | ⟨t', event', hook, hdue, hrow, hlooked, hinactive⟩
  · rw [hfree] at howed
    cases howed
  · rw [hannouncing.kept i] at hlost
    cases hlost
  · rw [hannouncing.straight i] at hstrayed
    cases hstrayed
  · rw [howed] at hdue
    obtain ⟨hid, -⟩ := Prod.mk.inj (Option.some_inj.mp hdue)
    obtain ⟨-, t'', ht'', hid'', horganization⟩ := hannouncing.rows i t'.id t' hrow
    have hsame : t'' = t := List.inj_on_of_nodup_map
      (deployment cfg workflow events).world.db.tickets.nodup ht'' ht (hid''.trans hid.symm)
    rw [← horganization, hsame] at hlooked
    obtain ⟨db, hdb, hstored, choice, hfound⟩ :=
      hannouncing.looked i t.id event t.organizationId hook howed hlooked
    obtain ⟨⟨hook', hmem, howned⟩, hactive⟩ := hhooked db hdb hstored
    cases hook with
    | none =>
      have hempty := pickFrom_eq_none.mp hfound.symm
      have hnot := List.filter_eq_nil_iff.mp hempty hook' hmem
      rw [howned, beq_self_eq_true] at hnot
      exact hnot rfl
    | some found =>
      obtain ⟨hfoundMem, hfoundOwned⟩ := List.mem_filter.mp (mem_of_pickFrom hfound.symm)
      have hyes := hactive found hfoundMem (eq_of_beq hfoundOwned)
      rw [hinactive found rfl] at hyes
      cases hyes

/-- Where no session fails or is cut off between resolving a ticket and announcing it, and no
announcement is under way, every resolution of a ticket whose organization has its webhook active has
been announced once. -/
theorem deployment_announced {events : List (Event Job (Reply S))} {t : Ticket}
    (hm : Pool.Meets (server cfg.platform) (Job.program cfg workflow) Steady ⟨.init, []⟩ events)
    (hs : Pool.Spares (server cfg.platform) (Job.program cfg workflow)
      (fun c w => (w.journal c).owed ≠ none) ⟨.init, []⟩ events)
    (hidle : ∀ i job op next,
      (deployment cfg workflow events).threads[i]? = some (job, some (.call op next)) →
        ((deployment cfg workflow events).world.journal i).owed = none)
    (ht : t ∈ (deployment cfg workflow events).world.db.tickets.rows)
    (hhooked : (deployment cfg workflow events).world.Hooked t) :
    Announced (deployment cfg workflow events).world.db t.id := by
  have hannouncing := deployment_announcing hm
  have hpaid : ∀ c event, ((deployment cfg workflow events).world.journal c).owed ≠
      some (t.id, event) := by
    intro c event
    have hfree : ((deployment cfg workflow events).world.journal c).owed = none →
        ((deployment cfg workflow events).world.journal c).owed ≠ some (t.id, event) := by
      intro hnone
      rw [hnone]
      exact (Option.some_ne_none _).symm
    rcases hthread : (deployment cfg workflow events).threads[c]? with _ | ⟨job, _ | _ | ⟨op, next⟩⟩
    · have hfresh : (deployment cfg workflow events).world.callsOf c = [] :=
        (deployment_kept.fresh c (List.getElem?_eq_none_iff.mp hthread)).2
      refine hfree ?_
      rw [World.journal, hfresh]
      rfl
    · refine hfree (not_not.mp (idle_of_cut (fun hd hcalls hbusy => ?_) (fun hbusy => hbusy) hs
        hthread))
      rw [World.journal, World.callsOf_other hcalls hd] at hbusy
      exact hbusy
    · exact hannouncing.paid ht hhooked hthread
    · exact hfree (hidle c job op next hthread)
  have hcount : ∀ event, (deployment cfg workflow events).world.db.ticketEvents.rows.countP
      (fun e => e.resolution == some (t.id, event)) =
        (deployment cfg workflow events).world.db.notices.countP
          fun n => n.announces (t.id, event) := by
    intro event
    refine Framework.countP_of_classes (f := fun e => e.id.session) (g := fun n => n.id.session)
      fun c => ?_
    have hbalance := hannouncing.counts c (t.id, event)
    rw [if_neg (hpaid c event), Nat.add_zero] at hbalance
    exact hbalance
  have hannounced : ∀ event,
      ((deployment cfg workflow events).world.db.announcementsOf event t.id).length =
        (deployment cfg workflow events).world.db.ticketEvents.rows.countP fun e =>
          e.resolution == some (t.id, event) := by
    intro event
    rw [hcount, DB.announcementsOf, ← List.countP_eq_length_filter, DB.notices, List.countP_map]
    rfl
  constructor
  · simp only [hannounced, DB.eventsOf, ← List.countP_eq_length_filter, resolution_approved]
  · simp only [hannounced, DB.eventsOf, List.filter_filter, ← List.countP_eq_length_filter,
      resolution_escalated]

end

/-- The webhook is configured before the ticket is created, by session 1, and session 5 is to approve
the ticket. -/
def awaitedApproval : List (Event Job (Reply ℚ)) :=
  registration ++
    .spawn (.byAdmin (.putWebhook ⟨"https://acme.com/tickets", "secret of the tickets", true, by decide⟩)) ::
      calls 1 12 ++
    .spawn .createHelp :: calls 2 10 ++ .spawn (.byAdmin (.runWorkflow ⟨2, 0⟩)) :: calls 3 12 ++
    .spawn (.runAgent ⟨3, 0⟩) :: calls 4 14 ++ [.spawn (.byAdmin (.approve ⟨2, 0⟩ ⟨none⟩))]

theorem awaitedApproval_announced :
    ((deployment .plain helpfulDraft (awaitedApproval ++ calls 5 20)).world.db.eventsOf
      "approved" ⟨2, 0⟩).length = 1 ∧
    Announced (deployment .plain helpfulDraft (awaitedApproval ++ calls 5 20)).world.db ⟨2, 0⟩ := by
  have hone : ((deployment .plain helpfulDraft (awaitedApproval ++ calls 5 20)).world.db.eventsOf
      "approved" ⟨2, 0⟩).length = 1 := by decide +kernel
  have hrests : rests (deployment .plain helpfulDraft (awaitedApproval ++ calls 5 20)) = true := by
    decide +kernel
  have hfound : ((deployment .plain helpfulDraft
      (awaitedApproval ++ calls 5 20)).world.db.tickets.find? ⟨2, 0⟩).any (fun t => decide
        ((deployment .plain helpfulDraft (awaitedApproval ++ calls 5 20)).world.Hooked t)) = true := by
    decide +kernel
  obtain ⟨t, ht, hhooked⟩ := (Option.any_eq_true _ _).mp hfound
  have hid : t.id = ⟨2, 0⟩ := Table.key_of_find? ht
  have hannounced := @deployment_announced ℚ .plain helpfulDraft _ _ _ (awaitedApproval ++ calls 5 20) t
    (by decide +kernel) (by decide +kernel)
    (fun _ _ _ _ hthread => absurd hthread (rests_thread hrests)) (Table.mem_of_find? ht)
    (of_decide_eq_true hhooked)
  rw [hid] at hannounced
  exact ⟨hone, hannounced⟩

/-- An approval is not announced when its process dies after it is committed. -/
theorem awaitedApproval_cut : ¬∀ (events : List (Event Job (Reply ℚ))) (t : Ticket),
    rests (deployment .plain helpfulDraft events) = true →
      t ∈ (deployment .plain helpfulDraft events).world.db.tickets.rows →
        (deployment .plain helpfulDraft events).world.Hooked t →
          Announced (deployment .plain helpfulDraft events).world.db t.id := by
  intro h
  let cut : List (Event Job (Reply ℚ)) := awaitedApproval ++ calls 5 6 ++ [.kill 5]
  have hfound : ((deployment .plain helpfulDraft cut).world.db.tickets.find? ⟨2, 0⟩).any (fun t =>
      decide ((deployment .plain helpfulDraft cut).world.Hooked t)) = true := by decide +kernel
  obtain ⟨t, ht, hhooked⟩ := (Option.any_eq_true _ _).mp hfound
  have hid : t.id = ⟨2, 0⟩ := Table.key_of_find? ht
  have happroved := (h cut t (by decide +kernel) (Table.mem_of_find? ht)
    (of_decide_eq_true hhooked)).approved
  rw [hid] at happroved
  revert happroved
  decide +kernel

end AgentDesk
