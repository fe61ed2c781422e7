import AgentDesk.Logic.Acts
import Mathlib.Data.List.Chain

namespace AgentDesk

open Framework (Table Serial)

variable {S : Type} {cfg : Config S} {workflow : Workflow S} {start : Time} {db db' : DB S}

/-! Histories -/

/-- The changes of status lead from the creation of a ticket to this status. -/
structure Replays (changes : List TicketEvent) (status : TicketStatus) : Prop where
  created : ∃ e rest, changes = e :: rest ∧ e.fromStatus = none ∧ e.toStatus = some .new
  follows : changes.IsChain fun a b => ∃ current target, a.toStatus = some current ∧
    b.fromStatus = some current ∧ b.toStatus = some target ∧ canTransition current target = true
  last : changes.getLast?.bind TicketEvent.toStatus = some status

theorem Replays.new {e : TicketEvent} (hfrom : e.fromStatus = none)
    (hto : e.toStatus = some .new) : Replays [e] .new :=
  ⟨⟨e, [], rfl, hfrom, hto⟩, List.isChain_singleton e, hto⟩

theorem Replays.snoc {changes : List TicketEvent} {e : TicketEvent} {current target : TicketStatus}
    (h : Replays changes current) (hfrom : e.fromStatus = some current)
    (hto : e.toStatus = some target) (hallowed : canTransition current target = true) :
    Replays (changes ++ [e]) target := by
  obtain ⟨first, rest, rfl, hfirst⟩ := h.created
  refine ⟨⟨first, rest ++ [e], rfl, hfirst⟩, ?_, ?_⟩
  · refine List.isChain_append.mpr ⟨h.follows, List.isChain_singleton e, ?_⟩
    intro x hx y hy
    cases hy
    refine ⟨current, target, ?_, hfrom, hto, hallowed⟩
    have hlast := h.last
    rw [Option.mem_def.mp hx] at hlast
    exact hlast
  · rw [List.getLast?_concat]
    exact hto

/-- The events that changed the status of a ticket, in commit order. -/
def DB.changesOf (db : DB S) (ticketId : Uuid) : List TicketEvent :=
  db.ticketEvents.rows.filter fun e => e.ticketId == ticketId && e.toStatus.isSome

/-- The events of every ticket tell how it came to its status, and belong to its
organization. -/
def HistoryReplays (db : DB S) : Prop :=
  ∀ t ∈ db.tickets.rows, Replays (db.changesOf t.id) t.status ∧
    ∀ e ∈ db.ticketEvents.rows, e.ticketId = t.id → e.organizationId = t.organizationId

/-- The histories replay, and no event is without its ticket. -/
structure Historical (db : DB S) : Prop where
  replays : HistoryReplays db
  owned : ∀ e ∈ db.ticketEvents.rows, ∃ t ∈ db.tickets.rows, t.id = e.ticketId

theorem Historical.congr (h : Historical db) (hsame : db.SameHistory db') : Historical db' := by
  obtain ⟨ht, he⟩ := hsame
  have hchanges : ∀ id, db'.changesOf id = db.changesOf id := fun id => by
    simp only [DB.changesOf, he]
  constructor
  · intro t hmem
    rw [ht] at hmem
    rw [hchanges, he]
    exact h.replays t hmem
  · rw [ht, he]
    exact h.owned

theorem changesOf_insert {e : TicketEvent} (h : db.ticketEvents.find? e.id = none) (id : Uuid) :
    ((Row.ticketEvent e).insert start db).changesOf id =
      db.changesOf id ++ if e.ticketId = id ∧ e.toStatus.isSome
        then [{ e with createdAt := start }] else [] := by
  have hrows := @Table.rows_insert _ _ _ _ db.ticketEvents { e with createdAt := start } h
  simp only [DB.changesOf, Row.insert, hrows, List.filter_append]
  congr 1
  by_cases hid : e.ticketId = id <;> cases e.toStatus <;> simp [hid]

theorem mem_insert_event {e x : TicketEvent}
    (h : x ∈ ((Row.ticketEvent e).insert start db).ticketEvents.rows) :
    x ∈ db.ticketEvents.rows ∨ x = { e with createdAt := start } := Table.mem_insert h

/-- A new ticket with the event of its creation. -/
theorem Historical.created {t : Ticket} {e : TicketEvent} (h : Historical db)
    (ht : db.tickets.find? t.id = none) (he : db.ticketEvents.find? e.id = none)
    (hstatus : t.status = .new) (hticket : e.ticketId = t.id)
    (horg : e.organizationId = t.organizationId) (hfrom : e.fromStatus = none)
    (hto : e.toStatus = some .new) :
    Historical (applyAll start db [.insert (.ticket t), .insert (.ticketEvent e)]) := by
  have fresh : ∀ x ∈ db.tickets.rows, x.id ≠ t.id := Table.find?_eq_none.mp ht
  have none_of : ∀ x ∈ db.ticketEvents.rows, x.ticketId ≠ t.id := by
    intro x hx heq
    obtain ⟨y, hy, hid⟩ := h.owned x hx
    exact fresh y hy (hid.trans heq)
  have hrows : ((Row.ticket t).insert start db).tickets.rows =
      db.tickets.rows ++ [{ t with createdAt := start, updatedAt := start }] :=
    @Table.rows_insert _ _ _ _ db.tickets { t with createdAt := start, updatedAt := start } ht
  have htickets : (applyAll start db [.insert (.ticket t), .insert (.ticketEvent e)]).tickets.rows =
      db.tickets.rows ++ [{ t with createdAt := start, updatedAt := start }] := hrows
  have hchanges : ∀ id, (applyAll start db
      [.insert (.ticket t), .insert (.ticketEvent e)]).changesOf id = db.changesOf id ++
        if e.ticketId = id ∧ e.toStatus.isSome then [{ e with createdAt := start }] else [] :=
    @changesOf_insert S start ((Row.ticket t).insert start db) e he
  have hevents : ∀ x ∈ (applyAll start db
      [.insert (.ticket t), .insert (.ticketEvent e)]).ticketEvents.rows,
      x ∈ db.ticketEvents.rows ∨ x = { e with createdAt := start } :=
    fun x hx => @mem_insert_event S start ((Row.ticket t).insert start db) e x hx
  constructor
  · intro x hx
    rw [htickets, List.mem_append, List.mem_singleton] at hx
    rw [hchanges]
    obtain hx | rfl := hx
    · have hne := fresh x hx
      rw [if_neg (by rw [hticket]; exact fun hand => hne hand.1.symm), List.append_nil]
      refine ⟨(h.replays x hx).1, fun y hy hid => ?_⟩
      obtain hy | rfl := hevents y hy
      · exact (h.replays x hx).2 y hy hid
      · exact absurd (hid.symm.trans hticket) hne
    · have hnil : db.changesOf t.id = [] := by
        refine List.filter_eq_nil_iff.mpr fun y hy => ?_
        simp [none_of y hy]
      rw [if_pos ⟨hticket, by simp [hto]⟩]
      simp only [hnil, List.nil_append, hstatus]
      refine ⟨.new hfrom hto, fun y hy hid => ?_⟩
      obtain hy | rfl := hevents y hy
      · exact absurd hid (none_of y hy)
      · exact horg
  · intro x hx
    rw [htickets]
    obtain hx | rfl := hevents x hx
    · obtain ⟨y, hy, hid⟩ := h.owned x hx
      exact ⟨y, List.mem_append_left _ hy, hid⟩
    · exact ⟨_, List.mem_append_right _ (List.mem_singleton_self _), hticket.symm⟩

/-- A change of status with its event. -/
theorem Historical.moved {t : Ticket} {p : TicketPatch} {e : TicketEvent} {target : TicketStatus}
    (h : Historical db) (ht : db.tickets.find? t.id = some t)
    (he : db.ticketEvents.find? e.id = none) (hm : Moves t p e target) :
    Historical (applyAll start db [.updateTicket t.id p, .insert (.ticketEvent e)]) := by
  have hmem := Table.mem_of_find? ht
  have htickets : ∀ x ∈ (applyAll start db
      [.updateTicket t.id p, .insert (.ticketEvent e)]).tickets.rows,
      (x ∈ db.tickets.rows ∧ x.id ≠ t.id) ∨ x = { p.apply t with updatedAt := start } := by
    intro x hx
    obtain hx | ⟨y, hy, hid, rfl⟩ := mem_updateTicket.mp hx
    · exact Or.inl hx
    · rw [List.inj_on_of_nodup_map db.tickets.nodup hy hmem hid]
      exact Or.inr rfl
  have hchanges : ∀ id, (applyAll start db
      [.updateTicket t.id p, .insert (.ticketEvent e)]).changesOf id = db.changesOf id ++
        if e.ticketId = id ∧ e.toStatus.isSome then [{ e with createdAt := start }] else [] :=
    @changesOf_insert S start ((Write.updateTicket t.id p).apply start db) e he
  have hevents : ∀ x ∈ (applyAll start db
      [.updateTicket t.id p, .insert (.ticketEvent e)]).ticketEvents.rows,
      x ∈ db.ticketEvents.rows ∨ x = { e with createdAt := start } :=
    fun x hx => @mem_insert_event S start ((Write.updateTicket t.id p).apply start db) e x hx
  have stays : ∀ y ∈ db.tickets.rows, ∃ x ∈ (applyAll start db
      [.updateTicket t.id p, .insert (.ticketEvent e)]).tickets.rows, x.id = y.id := by
    intro y hy
    by_cases hid : y.id = t.id
    · exact ⟨_, mem_updateTicket.mpr (Or.inr ⟨y, hy, hid, rfl⟩), rfl⟩
    · exact ⟨y, mem_updateTicket.mpr (Or.inl ⟨hy, hid⟩), rfl⟩
  constructor
  · intro x hx
    rw [hchanges]
    obtain ⟨hx, hne⟩ | rfl := htickets x hx
    · rw [if_neg (by rw [hm.ticket]; exact fun hand => hne hand.1.symm), List.append_nil]
      refine ⟨(h.replays x hx).1, fun y hy hid => ?_⟩
      obtain hy | rfl := hevents y hy
      · exact (h.replays x hx).2 y hy hid
      · exact absurd (hid.symm.trans hm.ticket) hne
    · obtain ⟨hreplays, horg⟩ := h.replays t hmem
      rw [if_pos ⟨hm.ticket, by simp [hm.target]⟩]
      have hstatus : (p.apply t).status = target := by simp [TicketPatch.apply, hm.patch]
      refine ⟨?_, fun y hy hid => ?_⟩
      · change Replays (db.changesOf t.id ++ _) (p.apply t).status
        rw [hstatus]
        exact hreplays.snoc hm.source hm.target hm.allowed
      · obtain hy | rfl := hevents y hy
        · exact horg y hy hid
        · exact hm.organization
  · intro x hx
    obtain hx | rfl := hevents x hx
    · obtain ⟨y, hy, hid⟩ := h.owned x hx
      obtain ⟨z, hz, hzid⟩ := stays y hy
      exact ⟨z, hz, hzid.trans hid⟩
    · obtain ⟨z, hz, hzid⟩ := stays t hmem
      exact ⟨z, hz, hzid.trans hm.ticket.symm⟩

/-- New contents, and the event that says so. -/
theorem Historical.edited {t : Ticket} {us : List (Write S)} {e : TicketEvent} (h : Historical db)
    (ht : db.tickets.find? t.id = some t)
    (hus : ∀ x ∈ us, ∃ p, x = .updateTicket t.id p ∧ p.status = none ∧ p.finalResponse = none)
    (he : (applyAll start db us).ticketEvents.find? e.id = none) (hticket : e.ticketId = t.id)
    (horg : e.organizationId = t.organizationId) (hto : e.toStatus = none) :
    Historical (applyAll start db (us ++ [.insert (.ticketEvent e)])) := by
  have hmem := Table.mem_of_find? ht
  have hupdated : Historical (applyAll start db us) ∧ ∃ y ∈ (applyAll start db us).tickets.rows,
      y.id = t.id ∧ y.organizationId = t.organizationId := by
    refine applyAll_induction (K := fun db => Historical db ∧ ∃ y ∈ db.tickets.rows,
      y.id = t.id ∧ y.organizationId = t.organizationId) ⟨h, t, hmem, rfl, rfl⟩ ?_
    rintro x hx db ⟨hk, y, hy, hid, hyorg⟩
    obtain ⟨p, rfl, hp, -⟩ := hus x hx
    have same : ∀ z ∈ ((Write.updateTicket t.id p).apply start db).tickets.rows,
        ∃ z' ∈ db.tickets.rows, z.id = z'.id ∧ z.status = z'.status ∧
          z.organizationId = z'.organizationId := by
      intro z hz
      obtain ⟨hz, -⟩ | ⟨z', hz', -, rfl⟩ := mem_updateTicket.mp hz
      · exact ⟨z, hz, rfl, rfl, rfl⟩
      · exact ⟨z', hz', rfl, by simp [TicketPatch.apply, hp], rfl⟩
    have stays : ∀ z ∈ db.tickets.rows,
        ∃ z' ∈ ((Write.updateTicket t.id p).apply start db).tickets.rows,
          z'.id = z.id ∧ z'.organizationId = z.organizationId := by
      intro z hz
      by_cases hzid : z.id = t.id
      · exact ⟨_, mem_updateTicket.mpr (Or.inr ⟨z, hz, hzid, rfl⟩), rfl, rfl⟩
      · exact ⟨z, mem_updateTicket.mpr (Or.inl ⟨hz, hzid⟩), rfl, rfl⟩
    refine ⟨⟨fun z hz => ?_, fun x hx => ?_⟩, ?_⟩
    · obtain ⟨z', hz', hid', hstatus, horg'⟩ := same z hz
      rw [hid', hstatus, horg']
      exact hk.replays z' hz'
    · obtain ⟨z, hz, hzid⟩ := hk.owned x hx
      obtain ⟨z', hz', hid', -⟩ := stays z hz
      exact ⟨z', hz', hid'.trans hzid⟩
    · obtain ⟨z', hz', hid', horg'⟩ := stays y hy
      exact ⟨z', hz', hid'.trans hid, horg'.trans hyorg⟩
  obtain ⟨hk, y, hy, hyid, hyorg⟩ := hupdated
  rw [applyAll_append]
  have hevents : ∀ x ∈ ((Row.ticketEvent e).insert start (applyAll start db us)).ticketEvents.rows,
      x ∈ (applyAll start db us).ticketEvents.rows ∨ x = { e with createdAt := start } :=
    fun x hx => mem_insert_event hx
  constructor
  · intro x hx
    have hx' : x ∈ (applyAll start db us).tickets.rows := hx
    obtain ⟨hreplays, hxorg⟩ := hk.replays x hx'
    refine ⟨?_, fun z hz hid => ?_⟩
    · have hsame := @changesOf_insert S start _ e he x.id
      rw [if_neg (by simp [hto]), List.append_nil] at hsame
      exact hsame ▸ hreplays
    · obtain hz | rfl := hevents z hz
      · exact hxorg z hz hid
      · have hxy : x = y := List.inj_on_of_nodup_map (applyAll start db us).tickets.nodup hx' hy
          (hid.symm.trans (hticket.trans hyid.symm))
        subst hxy
        exact horg.trans hyorg.symm
  · intro x hx
    obtain hx | rfl := hevents x hx
    · exact hk.owned x hx
    · exact ⟨y, hy, hyid.trans hticket.symm⟩

theorem Historical.act {s : Journal S} (h : Historical db)
    (hact : Act cfg workflow s start db db') : Historical db' := by
  obtain ⟨hrows, hdeed, habs, rfl⟩ := hact
  have hself : db.SameHistory db := ⟨rfl, rfl⟩
  obtain ⟨habs, hsame⟩ := history_filter hself habs
  have fresh : ∀ {e : TicketEvent} {db : DB S},
      (Row.ticketEvent e : Row S).isPresent db = false → db.ticketEvents.find? e.id = none :=
    fun h => by simpa [Row.isPresent] using h
  refine Historical.congr ?_ ⟨hsame.tickets.symm, hsame.ticketEvents.symm⟩
  generalize s.writes = ws at hdeed habs
  have quiet : ws.filter Write.isHistory = [] →
      Historical (applyAll start db (ws.filter Write.isHistory)) := by
    intro hnil
    rw [hnil]
    exact h
  cases hdeed with
  | plain hplain =>
    exact quiet (List.filter_eq_nil_iff.mpr fun x hx => by simp [isHistory_of_plain (hplain x hx)])
  | created hstatus hticket horg hfrom hto =>
    exact h.created (by simpa [Row.isPresent] using habs.1 _ rfl) (fresh (habs.2.1 _ rfl)) hstatus
      hticket horg hfrom hto
  | started | failed | announced => exact quiet rfl
  | @edited t us e hread hus hticket horg hto =>
    have hfilter : (us ++ [Write.insert (.ticketEvent e)]).filter Write.isHistory =
        us ++ [.insert (.ticketEvent e)] := by
      refine List.filter_eq_self.mpr fun x hx => ?_
      obtain hx | hx := List.mem_append.mp hx
      · obtain ⟨p, rfl, -⟩ := hus x hx
        rfl
      · rw [List.mem_singleton.mp hx]
        rfl
    rw [hfilter] at habs ⊢
    exact h.edited (hrows _ _ hread) hus (fresh ((absent_append.mp habs).2.1 _ rfl)) hticket horg
      hto
  | decided hread _ hmoves => exact h.moved (hrows _ _ hread) (fresh (habs.2.1 _ rfl)) hmoves
  | concluded hread _ _ hmoves _ hhistory =>
    rw [hhistory] at habs ⊢
    exact h.moved (hrows _ _ hread) (fresh (habs.2.1 _ rfl)) hmoves

/-- No ticket has been created and no session is under way. -/
structure World.Blank (n : Nat) (w : World S) : Prop where
  idle : w.IdleFrom n
  tickets : w.db.tickets.rows = []
  ticketEvents : w.db.ticketEvents.rows = []

/-- Whatever the operations do one after another, and wherever they fail, the history of every
ticket replays to its status. -/
theorem operations_historyReplays {n m : Nat} {w w' : World S} (hw : w.Blank n)
    (h : Serial (server cfg.platform) (Operation.program cfg workflow) n w m w') :
    HistoryReplays w'.db := by
  have hk : Historical w.db := by
    constructor
    · intro t ht
      rw [hw.tickets] at ht
      cases ht
    · intro e he
      rw [hw.ticketEvents] at he
      cases he
  exact (serial_acts (Operation.program_journaled cfg workflow) (fun hk hact => hk.act hact) h
    hw.idle hk).1.replays

/-- A ticket is created, drafted by a run, edited and approved, and the run is executed again. -/
def approvalOperations : List (Operation × (Nat → Reply ℚ)) :=
  [.createTicket ⟨0, 0⟩ ⟨0, 1⟩ "help" "it broke" .low, .startRun ⟨0, 0⟩ ⟨1, 0⟩ (some ⟨0, 1⟩),
    .executeRun ⟨2, 0⟩, .editDraft ⟨0, 0⟩ ⟨1, 0⟩ ⟨0, 1⟩ "try again, please",
    .approve ⟨0, 0⟩ ⟨1, 0⟩ ⟨0, 1⟩ none, .executeRun ⟨2, 0⟩].map fun operation =>
      (operation, fun _ => .plain)

theorem approvalOperations_historyReplays : ∃ w,
    Framework.serially (server .plain) (Operation.program .plain helpfulDraft) approvalOperations 1
      (deployment .plain helpfulDraft registration).world = some w ∧
    w.db.ticketEvents.rows.length = 4 ∧ HistoryReplays w.db := by
  have hran : (Framework.serially (server .plain) (Operation.program .plain helpfulDraft)
      approvalOperations 1 (deployment .plain helpfulDraft registration).world).any
        (fun w => w.db.ticketEvents.rows.length == 4) = true := by decide +kernel
  obtain ⟨w, hw, hlength⟩ := (Option.any_eq_true _ _).mp hran
  have hserial := Serial.append .start hw
  refine ⟨w, hw, eq_of_beq hlength,
    @operations_historyReplays _ .plain helpfulDraft _ _ _ _ ⟨?_, ?_, ?_⟩ hserial⟩
  · have h : (deployment .plain helpfulDraft registration).world.txs = [] :=
      List.isEmpty_iff.mp (by decide +kernel)
    intro d _
    simp [World.tx?, h]
  · exact List.isEmpty_iff.mp (by decide +kernel)
  · exact List.isEmpty_iff.mp (by decide +kernel)

end AgentDesk
