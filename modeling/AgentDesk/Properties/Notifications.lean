import AgentDesk.Framework.Serial
import AgentDesk.Logic.Notices

namespace AgentDesk

open Framework (Pool Event Program Table)

variable {S : Type} {cfg : Config S} {workflow : Workflow S} {w w' : World S} {c i : Nat} {id : Uuid}
  {event : String}

/-! What a notification is about -/

/-- What has been decided about the ticket. -/
def Ticket.decision (t : Ticket) : TicketStatus × Option String := (t.status, t.finalResponse)

/-- The commit moved this ticket to a status that is announced. -/
def Commit.resolves (id : Uuid) (k : Commit S) : Bool :=
  (k.writes.findSome? Write.resolution).any fun x => x.1 == id

/-- The ticket as the session left it when it resolved it last. -/
def World.decided (w : World S) (c : Nat) (id : Uuid) : Option Ticket :=
  ((w.commits.zip w.versions.tail).filter fun x => x.1.session == c && x.1.resolves id).getLast?.bind
    fun x => x.2.tickets.find? id

/-- A commit of the session moved the ticket to a status that is announced by this event, and this is
the row that it left. -/
def World.Resolved (w : World S) (c : Nat) (id : Uuid) (event : String) (row : Ticket) : Prop :=
  ∃ k commit db, w.commits[k]? = some commit ∧ commit.session = c ∧
    commit.writes.findSome? Write.resolution = some (id, event) ∧ w.versions[k + 1]? = some db ∧
      db.tickets.find? id = some row ∧ row.status.announcement = some event

/-- A notice tells of the ticket what the commit that caused it made of the ticket. -/
def World.Tells (cfg : Config S) (w : World S) (n : Notice) : Prop :=
  ∃ t row now, w.Resolved n.id.session t.id n.event row ∧ t.decision = row.decision ∧
    n.payload = WebhookService.buildTicketPayload cfg.platform t n.event n.id now

/-- The notification describes the transition that caused it. -/
structure World.Notifies (w : World S) (d : WebhookDelivery) : Prop where
  approved : d.event = "ticket.approved" → ∃ id row, w.Resolved d.id.session id d.event row ∧
    d.ticketField "id" = some (.str id.str) ∧ d.ticketField "status" = some (.str "approved") ∧
      d.ticketField "final_response" = some (WebhookService.optional row.finalResponse)
  escalated : d.event = "ticket.escalated" → d.ticketField "status" = some (.str "escalated")

theorem announced_approved {status : TicketStatus} (h : status.announcement = some "ticket.approved") :
    status = .approved := by
  cases status <;> first | rfl | simp [TicketStatus.announcement] at h

theorem announced_escalated {status : TicketStatus}
    (h : status.announcement = some "ticket.escalated") : status = .escalated := by
  cases status <;> first | rfl | simp [TicketStatus.announcement] at h

/-- A session that owes an announcement finds the ticket as it decided it, and an execution that reads
its run again finds it as it concluded it. -/
def World.timely (w : World S) (c : Nat) : (op : Op S) → Res op → Bool
  | .query (.ticket id), .ok _ => !((w.journal c).owed.any fun x => x.1 == id) ||
    (w.db.tickets.find? id).map Ticket.decision == (w.decided c id).map Ticket.decision
  | .query (.agentRun _), .ok run => !((w.journal c).reread run).strayed
  | _, _ => true

def Timely (c : Nat) (w : World S) (op : Op S) (r : Res op) (_ : World S) : Prop :=
  w.timely c op r = true

instance {op : Op S} {r : Res op} : Decidable (Timely c w op r w') := by
  unfold Timely
  infer_instance

theorem decided_quiet (h : w.Quiet w') (c : Nat) (id : Uuid) : w'.decided c id = w.decided c id := by
  rw [World.decided, h.commits, h.versions, World.decided]

theorem decided_commits {tx : Tx S} (hsane : w.Sane) (h : w.Commits i tx w') (c : Nat) (id : Uuid) :
    w'.decided c id =
      if c = i ∧ (tx.writes.findSome? Write.resolution).any (fun x => x.1 == id) = true
      then w'.db.tickets.find? id else w.decided c id := by
  have hlength : w.commits.length = w.versions.tail.length := by
    rw [List.length_tail, World.versions_length, hsane.length]
    rfl
  have htail : w'.versions.tail = w.versions.tail ++ [w'.db] := by
    obtain ⟨rest, hrest⟩ := hsane.first
    rw [h.versions, ← hrest]
    rfl
  have hlast : ∀ (x : Commit S × DB S) (p : Commit S × DB S → Bool), [x].filter p =
      if p x = true then [x] else [] := fun x p => by
    cases hp : p x <;> simp [hp]
  rw [World.decided, h.commits, htail, List.zip_append hlength, List.filter_append,
    List.zip_cons_cons, List.zip_nil_right, hlast]
  by_cases hc : c = i ∧ (tx.writes.findSome? Write.resolution).any (fun x => x.1 == id) = true
  · obtain ⟨rfl, hresolves⟩ := hc
    have hown : (c == c && Commit.resolves id
        (⟨c, tx.start, tx.writes, w.seen c⟩ : Commit S)) = true := by
      rw [beq_self_eq_true, Bool.true_and]
      exact hresolves
    rw [if_pos hown, if_pos ⟨rfl, hresolves⟩, List.getLast?_concat]
    rfl
  · have hother : ¬(i == c && Commit.resolves id
        (⟨i, tx.start, tx.writes, w.seen i⟩ : Commit S)) = true := by
      intro hboth
      rw [Bool.and_eq_true, beq_iff_eq] at hboth
      exact hc ⟨hboth.1.symm, hboth.2⟩
    rw [if_neg hother, if_neg hc, List.append_nil, World.decided]

theorem World.Resolved.mono {row : Ticket} (h : w.Resolved c id event row)
    (hcommits : w.commits <+: w'.commits) (hversions : w.versions <+: w'.versions) :
    w'.Resolved c id event row := by
  obtain ⟨k, commit, db, hcommit, hsession, hresolves, hversion, hrow, hevent⟩ := h
  exact ⟨k, commit, db, World.getElem?_extended hcommits hcommit, hsession, hresolves,
    World.getElem?_extended hversions hversion, hrow, hevent⟩

theorem World.Tells.mono {n : Notice} (h : w.Tells cfg n) (hcommits : w.commits <+: w'.commits)
    (hversions : w.versions <+: w'.versions) : w'.Tells cfg n := by
  obtain ⟨t, row, now, hresolved, hsame, hpayload⟩ := h
  exact ⟨t, row, now, hresolved.mono hcommits hversions, hsame, hpayload⟩

/-- Every notice tells of its cause, and so will those that are owed. -/
structure Faithful (cfg : Config S) (w : World S) : Prop where
  notices : ∀ n ∈ w.db.notices, w.Tells cfg n
  owed : ∀ c id event, (w.journal c).owed = some (id, event) → ∃ row, w.Resolved c id event row ∧
    w.decided c id = some row ∧ ∀ t, (w.journal c).row id = some t → t.decision = row.decision
  rows : ∀ c id t, (w.journal c).row id = some t → (w.db.tickets.find? id).isSome = true
  straight : ∀ c, (w.journal c).strayed = false

/-- A commit that resolves a ticket leaves it in the status that is to be announced. -/
theorem resolved_row {s : Journal S} {tx : Tx S} {row : Ticket} {db : DB S}
    (hdeed : Deed cfg workflow s tx.writes) (habsent : Absent tx.start db tx.writes)
    (hrow : db.tickets.find? id = some row)
    (hres : tx.writes.findSome? Write.resolution = some (id, event)) :
    (∃ row', (applyAll tx.start db tx.writes).tickets.find? id = some row' ∧
      row'.status.announcement = some event) ∧ tx.writes.any (Write.renews id) = true := by
  obtain ⟨t, p, e, st, -, -, -, hp, hst, hhistory⟩ := deed_resolution hdeed hres
  have hid : row.id = id := Table.key_of_find? hrow
  subst hid
  obtain ⟨-, hsame⟩ := history_filter (⟨rfl, rfl⟩ : db.SameHistory db) habsent
  rw [hhistory] at hsame
  have hupdate : (applyAll tx.start db [.updateTicket row.id p, .insert (.ticketEvent e)]).tickets.find?
      row.id = some { p.apply row with updatedAt := tx.start } :=
    find?_updateTicket hrow
  refine ⟨⟨_, by rw [← hsame.tickets]; exact hupdate, ?_⟩, ?_⟩
  · rw [TicketPatch.apply_status, hp]
    exact hst
  · have hmem : Write.updateTicket row.id p ∈ tx.writes.filter Write.isHistory := by
      rw [hhistory]
      exact List.mem_cons_self
    exact List.any_eq_true.mpr ⟨_, List.mem_of_mem_filter hmem, beq_self_eq_true row.id⟩

theorem faithful_init : Faithful cfg (.init : World S) :=
  ⟨fun _ h => (List.not_mem_nil h).elim, fun _ _ _ h => (Option.some_ne_none _ h.symm).elim,
    fun _ _ _ h => (Option.some_ne_none _ h.symm).elim, fun _ => rfl⟩

section

variable [Field S] [LinearOrder S] [FloorRing S] {before after : List (Event Job (Reply S))}
  {job : Job} {op : Op S} {r : Res op}

/-- A call that leaves the history as it is. -/
theorem Faithful.quiet (h : Advances cfg workflow before after i job op r)
    (hcond : Timely i (deployment cfg workflow before).world op r
      (deployment cfg workflow after).world)
    (hquiet : (deployment cfg workflow before).world.Quiet (deployment cfg workflow after).world)
    (hfaithful : Faithful cfg (deployment cfg workflow before).world) :
    Faithful cfg (deployment cfg workflow after).world := by
  have hhears := h.hears hquiet
  have hcommits := h.steps.commits
  have hversions := h.steps.versions
  have hread : ∀ {id row}, (⟨op, r⟩ : Made S) = ⟨.query (.ticket id), .ok row⟩ →
      row = (deployment cfg workflow before).world.db.tickets.find? id := by
    intro id row hx
    cases hx
    obtain ⟨-, choice, hanswer⟩ := h.answer
    exact hanswer
  refine ⟨fun n hn => ?_, fun c id event howed => ?_, fun c id t ht => ?_, fun c => ?_⟩
  · have hn : n ∈ (deployment cfg workflow before).world.db.notices := by
      rwa [← hquiet.db]
    exact (hfaithful.notices n hn).mono hcommits hversions
  · rw [decided_quiet hquiet]
    by_cases hc : c = i
    · subst hc
      rw [hhears.owed] at howed
      obtain ⟨row, hresolved, hdecided, hsame⟩ := hfaithful.owed c id event howed
      refine ⟨row, hresolved.mono hcommits hversions, hdecided, fun t ht => ?_⟩
      rcases hhears.row id with hrow | ⟨row', hx, hrow⟩
      · rw [hrow] at ht
        exact hsame t ht
      · rw [hrow] at ht
        have hanswer := hread hx
        cases hx
        have hcond : (deployment cfg workflow before).world.timely c (.query (.ticket id)) (.ok row') =
          true := hcond
        simp only [World.timely, howed, Option.any_some, beq_self_eq_true, Bool.not_true,
          Bool.false_or, beq_iff_eq, hdecided, ← hanswer, ht, Option.map_some, Option.some.injEq] at hcond
        exact hcond
    · rw [h.journal_ne hc] at howed ⊢
      obtain ⟨row, hresolved, hrest⟩ := hfaithful.owed c id event howed
      exact ⟨row, hresolved.mono hcommits hversions, hrest⟩
  · rw [hquiet.db]
    by_cases hc : c = i
    · subst hc
      rcases hhears.row id with hrow | ⟨row, hx, hrow⟩
      · rw [hrow] at ht
        exact hfaithful.rows c id t ht
      · rw [← hread hx, ← hrow, ht]
        rfl
    · rw [h.journal_ne hc] at ht
      exact hfaithful.rows c id t ht
  · by_cases hc : c = i
    · subst hc
      rcases hhears.strayed with hsame | ⟨id, run, hx, hreread⟩
      · rw [hsame]
        exact hfaithful.straight c
      · cases hx
        have hcond : (deployment cfg workflow before).world.timely c (.query (.agentRun id)) (.ok run) =
          true := hcond
        rw [hreread]
        simpa [World.timely] using hcond
    · rw [h.journal_ne hc]
      exact hfaithful.straight c

/-- A commit. -/
theorem Faithful.commits {tx : Tx S} {r : Res (.commit : Op S)}
    (h : Advances cfg workflow before after i job .commit r)
    (htx : (deployment cfg workflow before).world.Commits i tx (deployment cfg workflow after).world)
    (hfaithful : Faithful cfg (deployment cfg workflow before).world) :
    Faithful cfg (deployment cfg workflow after).world := by
  have hcommits := h.steps.commits
  have hversions := h.steps.versions
  have hkept : Kept (deployment cfg workflow before) := deployment_kept
  have hsane := hkept.sane
  obtain ⟨hown, habsent⟩ := hsane.sound i tx htx.open_
  obtain ⟨hwrites, hdeed⟩ := h.deed htx
  have hok := h.committed_ok htx
  subst hok
  have hjournal : (deployment cfg workflow after).world.journal i =
      ((deployment cfg workflow before).world.journal i).committed := h.journal
  have hgrows : ∀ id, ((deployment cfg workflow before).world.db.tickets.find? id).isSome = true →
      ((deployment cfg workflow after).world.db.tickets.find? id).isSome = true := by
    intro id hsome
    obtain ⟨t, ht⟩ := Option.isSome_iff_exists.mp hsome
    have hgrown : (deployment cfg workflow before).world.db.Grows
        (applyAll tx.start (deployment cfg workflow before).world.db tx.writes) :=
      DB.grows_applyAll tx.writes
    obtain ⟨t', ht', hid, -⟩ := hgrown.tickets t (Table.mem_of_find? ht)
    have hkey : t'.id = id := hid.trans (Table.key_of_find? ht)
    have hfound : (applyAll tx.start (deployment cfg workflow before).world.db
        tx.writes).tickets.find? t'.id = some t' := Table.find?_of_mem ht'
    rw [htx.db, ← hkey, hfound]
    rfl
  refine ⟨fun n hn => ?_, fun c id event howed => ?_, fun c id t ht => ?_, fun c => ?_⟩
  · rw [htx.db] at hn
    rcases notices_of_deed hdeed habsent with ⟨-, hsame⟩ |
      ⟨t, event, hook, d, p, now, hinserted, hrow, howed, -, -, hnew⟩
    · rw [hsame] at hn
      exact (hfaithful.notices n hn).mono hcommits hversions
    · rw [hnew] at hn
      rcases List.mem_append.mp hn with hn | hn
      · exact (hfaithful.notices n hn).mono hcommits hversions
      · rw [List.mem_singleton.mp hn]
        rcases howed with howed | ⟨-, hstrayed⟩
        · obtain ⟨row, hresolved, -, hsame⟩ := hfaithful.owed i t.id event howed
          have hsession : d.id.session = i := by
            rw [hinserted] at hown
            exact eq_of_beq (Bool.and_eq_true_iff.mp hown).1
          refine ⟨t, row, now, ?_, hsame t hrow, rfl⟩
          change (deployment cfg workflow after).world.Resolved d.id.session t.id event row
          rw [hsession]
          exact hresolved.mono hcommits hversions
        · rw [hfaithful.straight i] at hstrayed
          cases hstrayed
  · rw [decided_commits hsane htx]
    by_cases hc : c = i
    · subst hc
      rw [hjournal] at howed ⊢
      change owedAfter _ ((deployment cfg workflow before).world.journal c).writes =
        some (id, event) at howed
      rw [hwrites, owedAfter] at howed
      split at howed
      · cases howed
      · cases hres : tx.writes.findSome? Write.resolution with
        | some due =>
          rw [hres, Option.some_or] at howed
          cases howed
          obtain ⟨t₀, p, e, st, hread, -⟩ := deed_resolution hdeed hres
          have hread : ((deployment cfg workflow before).world.journal c).row id = some t₀ := hread
          obtain ⟨row₀, hrow₀⟩ := Option.isSome_iff_exists.mp (hfaithful.rows c id t₀ hread)
          obtain ⟨⟨row, hrow, hevent⟩, hrenews⟩ := resolved_row hdeed habsent hrow₀ hres
          rw [← htx.db] at hrow
          have hcommit : (deployment cfg workflow after).world.commits[
              (deployment cfg workflow before).world.commits.length]? =
              some ⟨c, tx.start, tx.writes, (deployment cfg workflow before).world.seen c⟩ := by
            rw [htx.commits, List.getElem?_concat_length]
          have hversion : (deployment cfg workflow after).world.versions[
              (deployment cfg workflow before).world.commits.length + 1]? =
              some (deployment cfg workflow after).world.db := by
            have hlast := World.versions_last (w := (deployment cfg workflow after).world)
            rw [htx.past, List.length_append, hsane.length] at hlast
            exact hlast
          refine ⟨row, ⟨_, _, _, hcommit, rfl, hres, hversion, hrow, hevent⟩, ?_, ?_⟩
          · rw [if_pos ⟨rfl, by simp⟩]
            exact hrow
          · intro t ht
            obtain ⟨-, hnot⟩ := Journal.row_committed ht
            rw [hwrites, hrenews] at hnot
            cases hnot
        | none =>
          rw [hres, Option.none_or] at howed
          obtain ⟨row, hresolved, hdecided, hsame⟩ := hfaithful.owed c id event howed
          refine ⟨row, hresolved.mono hcommits hversions, ?_, fun t ht => ?_⟩
          · rw [if_neg (by simp)]
            exact hdecided
          · exact hsame t (Journal.row_committed ht).1
    · rw [h.journal_ne hc] at howed ⊢
      rw [if_neg fun hboth => hc hboth.1]
      obtain ⟨row, hresolved, hrest⟩ := hfaithful.owed c id event howed
      exact ⟨row, hresolved.mono hcommits hversions, hrest⟩
  · by_cases hc : c = i
    · subst hc
      rw [hjournal] at ht
      exact hgrows id (hfaithful.rows c id t (Journal.row_committed ht).1)
    · rw [h.journal_ne hc] at ht
      exact hgrows id (hfaithful.rows c id t ht)
  · by_cases hc : c = i
    · subst hc
      rw [hjournal]
      exact hfaithful.straight c
    · rw [h.journal_ne hc]
      exact hfaithful.straight c

theorem deployment_faithful {events : List (Event Job (Reply S))}
    (hm : Pool.Meets (server cfg.platform) (Job.program cfg workflow) Timely ⟨.init, []⟩ events) :
    Faithful cfg (deployment cfg workflow events).world := by
  refine deployment_induction faithful_init ?_ (fun h => ⟨h.notices, h.owed, h.rows, h.straight⟩) hm
  intro before after i job op r h hcond hfaithful
  rcases h.steps.history with hquiet | ⟨rfl, tx, htx⟩
  · exact hfaithful.quiet h hcond hquiet
  · exact hfaithful.commits h htx

/-- Where every announcement is made on the ticket as its session decided it, the stored notifications
describe the transitions that caused them. -/
theorem deployment_notifies {events : List (Event Job (Reply S))} {d : WebhookDelivery}
    (hm : Pool.Meets (server cfg.platform) (Job.program cfg workflow) Timely ⟨.init, []⟩ events)
    (hd : d ∈ (deployment cfg workflow events).world.db.webhookDeliveries.rows) :
    (deployment cfg workflow events).world.Notifies d := by
  obtain ⟨t, row, now, hresolved, hsame, hpayload⟩ :=
    (deployment_faithful hm).notices d.notice (List.mem_map_of_mem hd)
  have hpayload : d.payload =
      WebhookService.buildTicketPayload cfg.platform t d.event d.id now := hpayload
  obtain ⟨hstatus, hfinal⟩ := Prod.mk.inj hsame
  obtain ⟨hid, hvalue, hresponse⟩ := ticketField_of_payload hpayload
  have hevent : t.status.announcement = some d.event := by
    obtain ⟨-, -, -, -, -, -, -, -, hevent⟩ := hresolved
    rw [hstatus]
    exact hevent
  refine ⟨fun happroved => ⟨t.id, row, hresolved, hid, ?_, ?_⟩, fun hescalated => ?_⟩
  · rw [hvalue, announced_approved (hevent.trans (congrArg some happroved))]
    rfl
  · rw [hresponse, hfinal]
  · rw [hvalue, announced_escalated (hevent.trans (congrArg some hescalated))]
    rfl

end

theorem approvedTicket_notifies : ∃ d : WebhookDelivery, d.id = ⟨5, 2⟩ ∧ d.event = "ticket.approved" ∧
    (deployment .plain helpfulDraft approvedTicket).world.Notifies d := by
  have hfound : ((deployment .plain helpfulDraft approvedTicket).world.db.webhookDeliveries.find?
      ⟨5, 2⟩).any (fun d => d.event == "ticket.approved") = true := by decide +kernel
  obtain ⟨d, hd, hevent⟩ := (Option.any_eq_true _ _).mp hfound
  have hnotifies := @deployment_notifies ℚ .plain helpfulDraft _ _ _ approvedTicket d
    (by decide +kernel) (Table.mem_of_find? hd)
  exact ⟨d, Table.key_of_find? hd, eq_of_beq hevent, hnotifies⟩

/-- Session 5 approves the ticket and session 6 rejects it, each before the other has committed; the
rejection is committed between the approval and its notification. -/
def rejectedApproval : List (Event Job (Reply ℚ)) :=
  hookedTicket ++ .spawn (.byAdmin (.approve ⟨1, 0⟩ ⟨none⟩)) :: .spawn (.byAdmin (.reject ⟨1, 0⟩ ⟨none⟩)) ::
    calls 5 3 ++ calls 6 3 ++ calls 5 3 ++ calls 6 8 ++ calls 5 14

/-- The approval is announced with the ticket that the rejection left. -/
theorem rejectedApproval_notifies : ¬∀ (events : List (Event Job (Reply ℚ))) (d : WebhookDelivery),
    d ∈ (deployment .plain helpfulDraft events).world.db.webhookDeliveries.rows →
      (deployment .plain helpfulDraft events).world.Notifies d := by
  intro h
  have hfound : ((deployment .plain helpfulDraft rejectedApproval).world.db.webhookDeliveries.find?
      ⟨5, 2⟩).any (fun d => d.event == "ticket.approved" &&
        d.ticketField "status" == some (.str "rejected")) = true := by decide +kernel
  obtain ⟨d, hd, hboth⟩ := (Option.any_eq_true _ _).mp hfound
  obtain ⟨hevent, hrejected⟩ := Bool.and_eq_true_iff.mp hboth
  obtain ⟨_, _, _, _, happroved, _⟩ :=
    (h rejectedApproval d (Table.mem_of_find? hd)).approved (eq_of_beq hevent)
  rw [eq_of_beq hrejected] at happroved
  revert happroved
  decide

end AgentDesk
