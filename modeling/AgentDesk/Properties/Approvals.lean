import AgentDesk.Logic.Announcement
import AgentDesk.Api.Jobs

namespace AgentDesk

open Framework (Table)

variable {S : Type} {cfg : Config S} {c n : Nat} {faults : Op S → Bool} {db db' : DB S}
  {start : Time}

/-- The committed tables hold all that an approval of ticket `t` writes, and the rows are new. -/
structure Approved (db db' : DB S) (c : Nat) (t : Ticket) (actorUserId : Uuid)
    (edited : Option String) : Prop where
  ticket : ∃ t', db'.tickets.find? t.id = some t' ∧ t'.status = .approved ∧
    t'.finalResponse = some (TicketService.finalOf t edited)
  event : ∃ e ∈ db'.ticketEvents.rows, db.ticketEvents.find? e.id = none ∧ e.ticketId = t.id ∧
    e.eventType = "approved" ∧ e.toStatus = some .approved ∧ e.actorUserId = some actorUserId
  audit : ∃ a ∈ db'.auditLogs.rows, db.auditLogs.find? a.id = none ∧
    a.event = .responseApproved ∧ a.targetId = some t.id.str ∧ a.actorUserId = some actorUserId
  delivery : db.Delivers db' c t.organizationId "ticket.approved"

/-- The committed tables hold nothing that an approval writes. -/
structure Untouched (db db' : DB S) : Prop where
  tickets : db'.tickets = db.tickets
  ticketEvents : db'.ticketEvents = db.ticketEvents
  auditLogs : db'.auditLogs = db.auditLogs
  webhookDeliveries : db'.webhookDeliveries = db.webhookDeliveries

@[simp] theorem Untouched.refl (db : DB S) : Untouched db db := ⟨rfl, rfl, rfl, rfl⟩

/-- What the caller of an approval is told agrees with the committed tables. -/
def AllOrNothing (db db' : DB S) (c : Nat) (ticketId actorUserId : Uuid)
    (edited : Option String) : Except Err Ticket → Prop
  | .ok _ => ∃ t, db.tickets.find? ticketId = some t ∧ Approved db db' c t actorUserId edited
  | .error _ => Untouched db db'

/-! The statements of a decision -/

/-- A ticket is updated, and an event and an audit row are inserted. -/
def DB.withDecision (start : Time) (db : DB S) (id : Uuid) (p : TicketPatch) (e : TicketEvent)
    (a : AuditLog) : DB S :=
  Write.apply start (Write.apply start (Write.apply start db (.updateTicket id p))
    (.insert (.ticketEvent e))) (.insert (.auditLog a))

section

variable {t : Ticket} {p : TicketPatch} {e : TicketEvent} {a : AuditLog}

theorem find?_withDecision (ht : db.tickets.find? t.id = some t) :
    (db.withDecision start t.id p e a).tickets.find? t.id =
      some { p.apply t with updatedAt := start } := by
  change (db.tickets.update t.id (fun t => { p.apply t with updatedAt := start })
    fun _ => rfl).find? t.id = _
  rw [Table.find?_update (f := fun t => { p.apply t with updatedAt := start }) fun _ => rfl,
    if_pos rfl, ht]
  rfl

theorem event_withDecision
    (h : violatesAny start db [.updateTicket t.id p, .insert (.ticketEvent e)] = false) :
    db.ticketEvents.find? e.id = none ∧
      ∀ a, { e with createdAt := start } ∈ (db.withDecision start t.id p e a).ticketEvents.rows := by
  have hnew : db.ticketEvents.find? e.id = none := by
    simpa [violatesAny, Write.violates, Row.isPresent, Row.isTaken, Write.apply] using h
  exact ⟨hnew, fun _ =>
    Table.mem_insert_self (t := db.ticketEvents) (r := { e with createdAt := start }) hnew⟩

theorem audit_withDecision
    (h : violatesAny start (Write.apply start (Write.apply start db (.updateTicket t.id p))
      (.insert (.ticketEvent e))) [.insert (.auditLog a)] = false) :
    db.auditLogs.find? a.id = none ∧
      { a with createdAt := start } ∈ (db.withDecision start t.id p e a).auditLogs.rows := by
  have hnew : db.auditLogs.find? a.id = none := by
    simpa [violatesAny, Write.violates, Row.isPresent, Row.isTaken, Write.apply, Row.insert] using h
  exact ⟨hnew, Table.mem_insert_self (t := db.auditLogs) (r := { a with createdAt := start }) hnew⟩

end

theorem diff_apply_status (t t' : Ticket) : ((t.diff t').apply t).status = t'.status :=
  changed_getD _ _

theorem diff_apply_finalResponse (t t' : Ticket) :
    ((t.diff t').apply t).finalResponse = t'.finalResponse :=
  changed_getD _ _

theorem approve_solo {t : Ticket} {past : List (DB S)} {ps : List (Except Err Nat)}
    (actorUserId : Uuid) (edited : Option String) (ht : db.tickets.find? t.id = some t) :
    (TicketService.approve cfg t.id actorUserId edited).Triple
      (Solo.observer cfg.platform faults Tally.note c)
      (fun _ _ s' => s'.tally.flags = ⟨false, true, false, false⟩ ∧
        Approved db s'.db c t actorUserId edited)
      (fun _ _ s' => s'.db = db ∧ s'.tally.flags = ⟨false, false, false, false⟩ ∨
        ¬Untouched db s'.db ∧ s'.tally.flags = ⟨false, true, false, true⟩)
      ⟨c, n, [⟨t, t⟩], [], [], [], []⟩
      ⟨db, some (start, []), past, ⟨false, false, false, false⟩, ps⟩ := by
  unfold TicketService.approve
  by_cases hblank : isBlank (TicketService.finalOf t edited) = true
  · simp [hblank]
  by_cases hcan : canTransition t.status .approved = true
  · simp [TicketService.transition, commit, record, hblank, hcan, dirtyTicket_of_transition,
      ownIds_cons, Row.id]
    intro hevent haudit
    have hfound := fun p e a => @find?_withDecision S db start t p e a ht
    have touched : ∀ {p e a db'}, (db.withDecision start t.id p e a).Announced db' →
        (p.apply t).status = .approved → ¬Untouched db db' := by
      intro p e a db' h hst hu
      have hsame := hfound p e a
      rw [← h.tickets, hu.tickets, ht] at hsame
      have hst' : t.status = .approved := (congrArg Ticket.status (Option.some.inj hsame)).trans hst
      rw [hst'] at hcan
      cases hcan
    refine ⟨fun _ _ => touched (DB.Announced.refl _) (diff_apply_status _ _), ?_, ?_⟩
    · intro hnone
      exact absurd ((hfound _ _ _).symm.trans hnone) (by simp)
    · intro t₁ now ht₁
      obtain ⟨hid, horg, hst, hfinal⟩ : t₁.id = t.id ∧ t₁.organizationId = t.organizationId ∧
          t₁.status = .approved ∧ t₁.finalResponse = some (TicketService.finalOf t edited) := by
        rw [← Option.some.inj ((hfound _ _ _).symm.trans ht₁)]
        exact ⟨rfl, rfl, diff_apply_status _ _, diff_apply_finalResponse _ _⟩
      obtain ⟨henew, hemem⟩ := event_withDecision hevent
      obtain ⟨hanew, hamem⟩ := audit_withDecision haudit
      refine M.triple_mono (enqueueForTicket_solo "ticket.approved" hid horg (by simp) (by simp)
        (by simp) (by simp) (by simp [hid])) ?_ ?_
      · rintro _ _ s' ⟨⟨n', ws, ds, rfl⟩, hdb, hdelivers, -, hflags⟩
        simp [hid, hflags]
        exact ⟨⟨t₁, hdb.tickets ▸ ht₁, hst, hfinal⟩,
          ⟨_, hdb.event (hemem _), henew, rfl, rfl, rfl, rfl⟩,
          ⟨_, hdb.auditLogs _ hamem, hanew, rfl, rfl, rfl⟩, hdelivers⟩
      · rintro _ _ s' ⟨-, hdb, -, hflags⟩
        exact Or.inr ⟨touched hdb (diff_apply_status _ _), hflags⟩
  · simp [TicketService.transition, hblank, hcan]

/-- One caller of `approve`: a session that loads the ticket and approves it. -/
def TicketService.approving (cfg : Config S) (organizationId ticketId actorUserId : Uuid)
    (edited : Option String) : M S Ticket :=
  getDb do
    let ticket ← getTicket organizationId ticketId
    approve cfg ticket.id actorUserId edited

theorem approving_solo (organizationId ticketId actorUserId : Uuid) (edited : Option String)
    {past : List (DB S)} :
    (TicketService.approving cfg organizationId ticketId actorUserId edited).Triple
      (Solo.observer cfg.platform faults Tally.note c)
      (fun _ _ s' => s'.tally.flags.late = false ∧
        ∃ t, db.tickets.find? ticketId = some t ∧ Approved db s'.db c t actorUserId edited)
      (fun _ _ s' => Untouched db s'.db ↔ s'.tally.flags.late = false)
      (.start c) ⟨db, none, past, .start⟩ := by
  refine Solo.getDb_solo ?_
  have settle : ∀ (s' : Solo S Tally) (r : Except Err Unit),
      s'.db = db ∧ s'.tally.flags = ⟨false, false, false, false⟩ ∨
        ¬Untouched db s'.db ∧ s'.tally.flags = ⟨false, true, false, true⟩ →
      (Untouched db s'.db ↔ (s'.tally.note (S := S) .rollback r).flags.late = false) := by
    rintro ⟨db', tx, past', flags, ps⟩ r h
    obtain ⟨rfl, rfl⟩ | ⟨htouched, rfl⟩ := h
    · refine iff_of_true (.refl db') ?_
      cases r <;> simp
    · refine iff_of_false htouched ?_
      cases r <;> simp
  simp [TicketService.getTicket, M.triple_ite, Session.start, Tally.start, Flags.start]
  intro t _ ht _
  have hid := Table.key_of_find? ht
  change t.id = ticketId at hid
  subst hid
  refine M.triple_mono (approve_solo actorUserId edited ht) ?_ ?_
  · rintro _ _ s' ⟨hflags, happroved⟩
    exact ⟨by rw [hflags], t, ht, happroved⟩
  · exact fun _ _ s' h => ⟨fun e' _ => settle s' (.error e') h, settle s' (.ok ()) h⟩

/-- An approval is all or nothing for its caller, whatever fails, exactly when nothing but the
POST of a webhook fails after a commit of the approval has succeeded. -/
theorem approving_allOrNothing (cfg : Config S) (organizationId ticketId actorUserId : Uuid)
    (edited : Option String) (w : World S) (hidle : w.txs = []) (c : Nat) (env : Nat → Reply S) :
    ∃ result σ w' env' cs,
      (TicketService.approving cfg organizationId ticketId actorUserId edited (.start c)).run
        (server cfg.platform) c env w = some ((result, σ), w', env') ∧
      w'.calls = w.calls ++ cs ∧
      (AllOrNothing w.db w'.db c ticketId actorUserId edited result ↔
        failsAfterCommit cs = false) := by
  have hstart : Solo.At Tally.note c w .start w ⟨w.db, none, [], .start⟩ :=
    Solo.at_start fun d => by simp [World.tx?, hidle]
  have hsolo := @approving_solo S cfg c (fun _ => true) w.db organizationId ticketId actorUserId
    edited []
  obtain ⟨⟨result, σ⟩, w', env', hrun, s', hpost, hat⟩ := Solo.run_of_triple env hsolo hstart
  obtain ⟨cs, hcs, htally⟩ := hat.calls
  rw [Tally.foldl_note_start] at htally
  refine ⟨result, σ, w', env', cs, hrun, hcs, ?_⟩
  rw [hat.db]
  have hlate : s'.tally.flags.late = failsAfterCommit cs := by rw [htally]; rfl
  rw [← hlate]
  cases result with
  | ok t => exact iff_of_true hpost.2 hpost.1
  | error e => exact hpost

/-! A lost connection after the commit -/

theorem hookedTicket_approving : ∃ result σ w' env' cs,
    (TicketService.approving .plain ⟨0, 0⟩ ⟨1, 0⟩ ⟨0, 1⟩ none (.start 5)).run
      (server .plain) 5 (fun _ => .plain) (deployment .plain helpfulDraft hookedTicket).world =
        some ((result, σ), w', env') ∧
    w'.calls = (deployment .plain helpfulDraft hookedTicket).world.calls ++ cs ∧
    (AllOrNothing (deployment .plain helpfulDraft hookedTicket).world.db w'.db 5 ⟨1, 0⟩ ⟨0, 1⟩
      none result ↔ failsAfterCommit cs = false) :=
  approving_allOrNothing .plain ⟨0, 0⟩ ⟨1, 0⟩ ⟨0, 1⟩ none
    (deployment .plain helpfulDraft hookedTicket).world
    (List.isEmpty_iff.mp (by decide +kernel)) 5 fun _ => .plain

/-- The approval commits, and then the refresh of the ticket fails. -/
theorem lostRefresh_not_allOrNothing : ¬∃ result σ w' env',
    (TicketService.approving .plain ⟨0, 0⟩ ⟨1, 0⟩ ⟨0, 1⟩ none (.start 4)).run
      (server .plain) 4 (failing 4) (deployment .plain helpfulDraft draftedTicket).world =
        some ((result, σ), w', env') ∧
    AllOrNothing (deployment .plain helpfulDraft draftedTicket).world.db w'.db 4 ⟨1, 0⟩ ⟨0, 1⟩
      none result := by
  rintro ⟨result, σ, w', env', hrun, hnothing⟩
  have hbefore : ((deployment .plain helpfulDraft draftedTicket).world.db.tickets.find? ⟨1, 0⟩).map
      Ticket.status = some .waitingApproval := by decide +kernel
  have hafter : ((TicketService.approving .plain ⟨0, 0⟩ ⟨1, 0⟩ ⟨0, 1⟩ none (.start 4)).run
      (server .plain) 4 (failing 4) (deployment .plain helpfulDraft draftedTicket).world).any
        (fun x => !x.1.1.isOk &&
          (x.2.1.db.tickets.find? ⟨1, 0⟩).map Ticket.status == some .approved) = true := by
    decide +kernel
  rw [hrun] at hafter
  cases result with
  | ok t => simp [Except.isOk, Except.toBool] at hafter
  | error e =>
    simp only [Option.any_some, Bool.and_eq_true, beq_iff_eq] at hafter
    rw [hnothing.tickets, hbefore] at hafter
    simp at hafter

end AgentDesk
