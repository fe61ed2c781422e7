import AgentDesk.Logic.Bookkeeping
import AgentDesk.Logic.Replay

namespace AgentDesk

open Framework (Event Pool Program)

/-! Ids as text -/

theorem Uuid.str_injective {u v : Uuid} (h : u.str = v.str) : u = v := by
  have hdash : ∀ n : Nat, '-' ∉ Nat.toDigits 10 n := fun n hmem => by
    simpa using Nat.isDigit_of_mem_toDigits (by decide) (by decide) hmem
  have hlist : ∀ u : Uuid,
      u.str.toList = Nat.toDigits 10 u.session ++ '-' :: Nat.toDigits 10 u.draw := fun u => by
    simp [Uuid.str, Nat.toString_eq_repr]
  have hparts := congrArg String.toList h
  rw [hlist, hlist, List.append_cons_inj_of_notMem (hdash _) (hdash _)] at hparts
  obtain ⟨hsession, -, hdraw⟩ := hparts
  have hdigits : ∀ {m n : Nat}, Nat.toDigits 10 m = Nat.toDigits 10 n → m = n := fun {m n} h => by
    rw [← @Nat.ofDigitChars_ten_toDigits m, h, Nat.ofDigitChars_ten_toDigits]
  cases u
  cases v
  exact congrArg₂ Uuid.mk (hdigits hsession) (hdigits hdraw)

variable {S : Type} {cfg : Config S} {workflow : Workflow S} {start : Time} {x : Write S}
  {w : World S} {event : AuditEvent} {ticketId : Uuid}

/-! What is counted -/

/-- The audit rows of this kind about a ticket. -/
def DB.auditsOf (db : DB S) (event : AuditEvent) (ticketId : Uuid) : List AuditLog :=
  db.auditLogs.rows.filter fun a => a.event == event && a.targetType == some "ticket" &&
    a.targetId == some ticketId.str

/-- The events of this type of a ticket. -/
def DB.eventsOf (db : DB S) (eventType : String) (ticketId : Uuid) : List TicketEvent :=
  db.ticketEvents.rows.filter fun e => e.eventType == eventType && e.ticketId == ticketId

/-- The runs of a ticket. -/
def DB.runsOf (db : DB S) (ticketId : Uuid) : List AgentRun :=
  db.agentRuns.rows.filter (·.ticketId == ticketId)

/-- The audit log tells of the ticket what its events and its runs tell. -/
structure LockStep (db : DB S) (t : Ticket) : Prop where
  created : (db.auditsOf .ticketCreated t.id).length = (db.eventsOf "created" t.id).length
  approved : (db.auditsOf .responseApproved t.id).length = (db.eventsOf "approved" t.id).length
  rejected : (db.auditsOf .responseRejected t.id).length = (db.eventsOf "rejected" t.id).length
  escalated : (db.auditsOf .ticketEscalated t.id).length =
    ((db.eventsOf "agent_run" t.id).filter (·.toStatus == some .escalated)).length
  retrieved : (db.auditsOf .retrievalCompleted t.id).length = (db.eventsOf "agent_run" t.id).length
  drafted : (db.auditsOf .draftGenerated t.id).length = (db.eventsOf "agent_run" t.id).length
  started : (db.auditsOf .agentRunStarted t.id).length = (db.runsOf t.id).length
  organization : ∀ event, event.isFact = true → ∀ a ∈ db.auditsOf event t.id,
    a.organizationId = some t.organizationId

/-- An entry of this kind about a ticket. -/
def Entry.isAbout (event : AuditEvent) (ticketId : Uuid) : Entry → Bool
  | .audit event' _ targetType targetId => event' == event && targetType == some "ticket" &&
      targetId == some ticketId.str
  | .edit _ => false

@[simp] theorem isAbout_of (event event' : AuditEvent) (organizationId ticketId ticketId' : Uuid) :
    (Entry.of event organizationId ticketId).isAbout event' ticketId' =
      (event == event' && ticketId == ticketId') := by
  have hstr : (some ticketId.str == some ticketId'.str) = (ticketId == ticketId') := by
    rw [Bool.eq_iff_iff, beq_iff_eq, beq_iff_eq, Option.some_inj]
    exact ⟨Uuid.str_injective, congrArg Uuid.str⟩
  simp [Entry.of, Entry.isAbout, hstr]

@[simp] theorem isAbout_edit (id : Uuid) : (Entry.edit id).isAbout event ticketId = false := rfl

/-- The events that call for an audit row of this kind. -/
def TicketEvent.calls (event : AuditEvent) (e : TicketEvent) : Bool :=
  match event with
  | .ticketCreated => e.eventType == "created"
  | .responseApproved => e.eventType == "approved"
  | .responseRejected => e.eventType == "rejected"
  | .ticketEscalated => e.eventType == "agent_run" && e.toStatus == some .escalated
  | .retrievalCompleted | .draftGenerated => e.eventType == "agent_run"
  | _ => false

theorem countP_due (e : TicketEvent) :
    e.due.countP (Entry.isAbout event ticketId) =
      if e.calls event && e.ticketId == ticketId then 1 else 0 := by
  unfold TicketEvent.due TicketEvent.calls
  split_ifs with hcreated happroved hrejected hrun hescalated hedited <;>
    cases event <;> simp_all

theorem countP_due_write (h : event ≠ .agentRunStarted) :
    (x.due.countP (Entry.isAbout event ticketId) : Nat) =
      ((Growing.ticketEvents.new start x).toList).countP fun e =>
        e.calls event && e.ticketId == ticketId := by
  cases x with
  | insert row =>
    cases row with
    | ticketEvent e =>
      refine (countP_due e).trans ?_
      simp [Growing.ticketEvents, TicketEvent.calls, List.countP_cons]
    | agentRun r =>
      have hne : (AuditEvent.agentRunStarted == event) = false := by simpa using h.symm
      simp [Write.due, Row.due, Growing.ticketEvents, hne]
    | _ => rfl
  | _ => rfl

theorem countP_due_started :
    x.due.countP (Entry.isAbout .agentRunStarted ticketId) =
      ((Growing.runs.new start x).toList).countP fun r => r.ticketId == ticketId := by
  cases x with
  | insert row =>
    cases row with
    | ticketEvent e =>
      refine (countP_due e).trans ?_
      rfl
    | agentRun r =>
      simp [Write.due, Row.due, Growing.runs, AgentRun.toKey, List.countP_cons]
    | _ => rfl
  | _ => rfl

theorem countP_paid (h : event.isFact = true) :
    x.paid.countP (Entry.isAbout event ticketId) =
      ((Growing.auditLogs.new start x).toList).countP fun a => a.event == event &&
        a.targetType == some "ticket" && a.targetId == some ticketId.str := by
  cases x with
  | insert row =>
    cases row with
    | auditLog a =>
      by_cases hfact : a.event.isFact = true
      · simp [Write.paid, Row.paid, AuditLog.paid, hfact, Growing.auditLogs, Entry.isAbout,
          List.countP_cons]
      · have hne : (a.event == event) = false := by
          refine beq_eq_false_iff_ne.mpr fun heq => hfact ?_
          rw [heq]
          exact h
        simp [Write.paid, Row.paid, AuditLog.paid, hfact, Growing.auditLogs, hne]
    | _ => rfl
  | _ => rfl

/-- The rows are as many as the entries of the history that count them. -/
theorem Growing.countP_rows {ρ : Type} (G : Growing S ρ) (hw : w.Sane) {p : ρ → Bool}
    {q : Entry → Bool} {f : Write S → List Entry}
    (h : ∀ start x, (f x).countP q = (G.new start x).toList.countP p) :
    (G.rows w.db).countP p = (w.commits.flatMap fun k => k.writes.flatMap f).countP q := by
  have hwrites : ∀ start (ws : List (Write S)),
      (ws.filterMap (G.new start)).countP p = (ws.flatMap f).countP q := by
    intro start ws
    induction ws with
    | nil => rfl
    | cons x ws ih =>
      rw [List.flatMap_cons, List.countP_append, h start x, ← ih, List.filterMap_cons]
      cases G.new start x with
      | none => simp
      | some r => simp [List.countP_cons, Nat.add_comm]
  rw [G.rows_db hw]
  induction w.commits with
  | nil => rfl
  | cons k ks ih =>
    rw [List.flatMap_cons, List.flatMap_cons, List.countP_append, List.countP_append, ih,
      hwrites k.start]

/-- The ticket that a committed row points to. -/
theorem World.Explained.owner {jobs : Nat → Option Job} {C : List (DB S) → Commit S → Prop} {i : Nat}
    {k : Commit S} {job : Job} {s : Ledger S} {organizationId : Uuid} (h : w.Explained cfg jobs C)
    (hk : w.commits[i]? = some k)
    (he : s.Explains cfg jobs (w.versions.take (i + 1)) w.calls k job)
    (hparent : s.Parent ticketId organizationId) :
    ∃ t ∈ w.db.tickets.rows, t.id = ticketId ∧ t.organizationId = organizationId := by
  have hlt : i < w.commits.length := (List.getElem?_eq_some_iff.mp hk).1
  obtain ⟨db, hdb⟩ := h.sane.version hlt.le
  obtain ⟨db', hdb'⟩ := h.sane.version hlt
  have hlast : w.versions[w.commits.length]? = some w.db := by
    rw [← h.sane.length]
    exact World.versions_last
  rcases h.parent hdb he hparent with ⟨t, hmem, hid, horg⟩ | ⟨t, hnew, hid, horg⟩
  · obtain ⟨t', ht', hid', horg'⟩ := (h.sane.grows hlt.le hdb hlast).tickets t hmem
    exact ⟨t', ht', hid'.trans hid, horg'.trans horg⟩
  · obtain ⟨rfl, habsent⟩ := h.sane.step i k db db' hk hdb hdb'
    have hstored := (stored_of_mem habsent hnew).grows (h.sane.grows hlt hdb' hlast)
    obtain ⟨t', ht', hid', horg'⟩ := hstored
    exact ⟨t', ht', hid'.trans hid, horg'.trans horg⟩

section

variable [Field S] [LinearOrder S] [FloorRing S] {events : List (Event Job (Reply S))} {k : Commit S}

/-- A commit makes the entries that are due, unless it changes a draft. -/
theorem commit_settled (hk : k ∈ (deployment cfg workflow events).world.commits) :
    k.writes.flatMap Write.due = k.writes.flatMap Write.paid ∨
      ∃ id, k.writes.flatMap Write.due = [.edit id] ∧ k.writes.flatMap Write.paid = [] := by
  obtain ⟨job, pre, post, -, -, hpending, hok⟩ := commit_ok (f := fun cs x => cs ++ [x])
    (fun _ _ _ _ _ hfits => atCommit_next.mpr ⟨hfits, rfl⟩)
    (fun job c => Job.program_settled cfg workflow job c) hk
  rw [Framework.foldl_snoc, List.nil_append, atCommit_commit] at hok
  rcases hok with heven | ⟨id, reads, ws, rfl, hedits, hdue, hpaid⟩
  · left
    unfold Even opened at heven
    rw [List.map_nil, List.append_nil, hpending] at heven
    exact heven
  · right
    obtain ⟨token, claims, now, body, caller, u, t, -, -, -, -, -, -, rfl⟩ := hedits
    rw [Book.ofCalls_snoc] at hpending
    have hwrites : k.writes = ws := hpending.symm
    rw [hwrites]
    exact ⟨id, hdue, hpaid⟩

theorem countP_commits (event : AuditEvent) (ticketId : Uuid) :
    ((deployment cfg workflow events).world.commits.flatMap fun k =>
      k.writes.flatMap Write.due).countP (Entry.isAbout event ticketId) =
      ((deployment cfg workflow events).world.commits.flatMap fun k =>
        k.writes.flatMap Write.paid).countP (Entry.isAbout event ticketId) := by
  have hcommit : ∀ k ∈ (deployment cfg workflow events).world.commits,
      (k.writes.flatMap Write.due).countP (Entry.isAbout event ticketId) =
        (k.writes.flatMap Write.paid).countP (Entry.isAbout event ticketId) := by
    intro k hk
    rcases commit_settled hk with heven | ⟨id, hdue, hpaid⟩
    · rw [heven]
    · rw [hdue, hpaid]
      rfl
  generalize (deployment cfg workflow events).world.commits = ks at hcommit
  induction ks with
  | nil => rfl
  | cons k ks ih =>
    rw [List.flatMap_cons, List.flatMap_cons, List.countP_append, List.countP_append,
      hcommit k List.mem_cons_self, ih fun k' hk' => hcommit k' (List.mem_cons_of_mem k hk')]

theorem auditsOf_length {db : DB S} (hdb : db = (deployment cfg workflow events).world.db)
    (h : event.isFact = true) :
    (db.auditsOf event ticketId).length =
      ((deployment cfg workflow events).world.commits.flatMap fun k =>
        k.writes.flatMap Write.due).countP (Entry.isAbout event ticketId) := by
  subst hdb
  have hkept : Kept (deployment cfg workflow events) := deployment_kept
  rw [countP_commits, ← Growing.auditLogs.countP_rows hkept.sane fun _ _ => countP_paid h,
    List.countP_eq_length_filter]
  rfl

/-- The events of a ticket that call for an audit row are as many as these rows. -/
theorem auditsOf_events {event : AuditEvent} (h : event.isFact = true)
    (hstarted : event ≠ .agentRunStarted) (ticketId : Uuid) :
    ((deployment cfg workflow events).world.db.auditsOf event ticketId).length =
      (deployment cfg workflow events).world.db.ticketEvents.rows.countP fun e =>
        e.calls event && e.ticketId == ticketId := by
  have hkept : Kept (deployment cfg workflow events) := deployment_kept
  rw [auditsOf_length rfl h,
    ← Growing.ticketEvents.countP_rows hkept.sane fun _ _ => countP_due_write hstarted]
  rfl

theorem auditsOf_runs (ticketId : Uuid) :
    ((deployment cfg workflow events).world.db.auditsOf .agentRunStarted ticketId).length =
      ((deployment cfg workflow events).world.db.runsOf ticketId).length := by
  have hkept : Kept (deployment cfg workflow events) := deployment_kept
  rw [auditsOf_length rfl rfl, ← Growing.runs.countP_rows hkept.sane fun _ _ => countP_due_started,
    DB.runsOf, ← List.countP_eq_length_filter]
  exact List.countP_map

theorem audit_of_mem {organizationId : Option Uuid} {targetType targetId : Option String}
    {event' : AuditEvent} {org id : Uuid}
    (h : .audit event organizationId targetType targetId = Entry.of event' org id) :
    .audit event organizationId targetType targetId = Entry.of event org id := by
  have hevent : event = event' := (Entry.audit.inj h).1
  rwa [← hevent] at h

/-- What an event calls for is about its ticket. -/
theorem audit_of_due {organizationId : Option Uuid} {targetType targetId : Option String}
    {e : TicketEvent} (h : .audit event organizationId targetType targetId ∈ e.due) :
    .audit event organizationId targetType targetId =
      Entry.of event e.organizationId e.ticketId := by
  have hof : ∃ event', .audit event organizationId targetType targetId =
      Entry.of event' e.organizationId e.ticketId := by
    unfold TicketEvent.due at h
    split_ifs at h <;> simp only [List.mem_cons, List.not_mem_nil, or_false, reduceCtorEq] at h
    · exact ⟨_, h⟩
    · exact ⟨_, h⟩
    · exact ⟨_, h⟩
    · rcases h with h | h | h <;> exact ⟨_, h⟩
    · rcases h with h | h <;> exact ⟨_, h⟩
  obtain ⟨event', h'⟩ := hof
  exact audit_of_mem h'

/-- An entry that is due belongs to the organization of its ticket. -/
theorem due_organization {organizationId : Option Uuid} {t : Ticket}
    (ht : t ∈ (deployment cfg workflow events).world.db.tickets.rows)
    (hk : k ∈ (deployment cfg workflow events).world.commits)
    (hdue : .audit event organizationId (some "ticket") (some t.id.str) ∈
      k.writes.flatMap Write.due) : organizationId = some t.organizationId := by
  have hexplained := deployment_explained (C := fun _ _ => True) cfg workflow events
    (Pool.meets_of_forall (fun _ _ _ _ _ _ _ => trivial) events)
  obtain ⟨i, hi⟩ := List.mem_iff_getElem?.mp hk
  obtain ⟨job, s, he⟩ := hexplained.commits i k hi
  have hcreated : ∃ id org, .audit event organizationId (some "ticket") (some t.id.str) =
      Entry.of event org id ∧ s.Parent id org := by
    obtain ⟨x, hx, hentry⟩ := List.mem_flatMap.mp hdue
    have hwarranted := he.warranted x hx
    cases x with
    | insert row =>
      cases row with
      | ticketEvent e =>
        exact ⟨e.ticketId, e.organizationId, audit_of_due hentry, hwarranted⟩
      | agentRun r =>
        refine ⟨r.ticketId, r.organizationId, ?_, hwarranted.1⟩
        exact audit_of_mem (List.mem_singleton.mp hentry)
      | _ => cases hentry
    | _ => cases hentry
  obtain ⟨id, org, hentry, hparent⟩ := hcreated
  obtain ⟨t', ht', hid, horg⟩ := hexplained.owner hi he hparent
  simp only [Entry.of, Entry.audit.injEq, Option.some_inj, true_and] at hentry
  obtain ⟨rfl, hstr⟩ := hentry
  have hsame : t' = t := List.inj_on_of_nodup_map
    (deployment cfg workflow events).world.db.tickets.nodup ht' ht
    (hid.trans (Uuid.str_injective hstr).symm)
  rw [← horg, hsame]

/-- In every run, whatever fails and wherever: audit rows are never changed or removed, and about
every ticket there are as many of each kind as there are events or runs that call for them, all in
the organization of the ticket. -/
theorem deployment_lockStep (cfg : Config S) (workflow : Workflow S)
    (events : List (Event Job (Reply S))) :
    (∀ later, (deployment cfg workflow events).world.db.auditLogs.rows <+:
      (deployment cfg workflow (events ++ later)).world.db.auditLogs.rows) ∧
    ∀ t ∈ (deployment cfg workflow events).world.db.tickets.rows,
      LockStep (deployment cfg workflow events).world.db t := by
  have hsane : ∀ events, (deployment cfg workflow events).world.Sane := fun events =>
    have hkept : Kept (deployment cfg workflow events) := deployment_kept
    hkept.sane
  refine ⟨fun later => ?_, fun t ht => ?_⟩
  · obtain ⟨ks, hks⟩ := @commits_append S _ _ _ cfg workflow events later
    have hbefore := Growing.auditLogs.rows_db (hsane events)
    have hafter := Growing.auditLogs.rows_db (hsane (events ++ later))
    rw [← hks, List.flatMap_append, ← hbefore] at hafter
    exact ⟨_, hafter.symm⟩
  have hevents : ∀ {event : AuditEvent} {p : TicketEvent → Bool}, event.isFact = true →
      event ≠ .agentRunStarted → (∀ e, e.calls event = p e) →
      ((deployment cfg workflow events).world.db.auditsOf event t.id).length =
        ((deployment cfg workflow events).world.db.ticketEvents.rows.filter fun e =>
          p e && e.ticketId == t.id).length := by
    intro event p hfact hstarted hp
    rw [auditsOf_events hfact hstarted, List.countP_eq_length_filter]
    simp only [hp]
  constructor
  · exact hevents rfl (by decide) fun _ => rfl
  · exact hevents rfl (by decide) fun _ => rfl
  · exact hevents rfl (by decide) fun _ => rfl
  · have hescalated : ∀ e : TicketEvent, e.calls .ticketEscalated =
        (e.toStatus == some .escalated && e.eventType == "agent_run") := fun e =>
      Bool.and_comm _ _
    refine (hevents rfl (by decide) hescalated).trans ?_
    simp only [DB.eventsOf, List.filter_filter, Bool.and_assoc]
  · exact hevents rfl (by decide) fun _ => rfl
  · exact hevents rfl (by decide) fun _ => rfl
  · exact auditsOf_runs t.id
  · intro event hfact a ha
    obtain ⟨hrow, habout⟩ := List.mem_filter.mp ha
    simp only [Bool.and_eq_true, beq_iff_eq] at habout
    obtain ⟨⟨hevent, htype⟩, htarget⟩ := habout
    have hrows := Growing.auditLogs.rows_db (hsane events)
    change a ∈ Growing.auditLogs.rows _ at hrow
    rw [hrows] at hrow
    obtain ⟨k, hk, hnew⟩ := List.mem_flatMap.mp hrow
    obtain ⟨x, hx, hadded⟩ := List.mem_filterMap.mp hnew
    have hpaid : .audit event a.organizationId (some "ticket") (some t.id.str) ∈
        k.writes.flatMap Write.paid := by
      refine List.mem_flatMap.mpr ⟨x, hx, ?_⟩
      simp only [Growing.auditLogs] at hadded
      split at hadded <;> cases hadded
      rename_i b
      change b.event = event at hevent
      simp_all [Write.paid, Row.paid, AuditLog.paid]
    rcases commit_settled hk with heven | ⟨id, -, hnone⟩
    · rw [← heven] at hpaid
      exact due_organization ht hk hpaid
    · rw [hnone] at hpaid
      cases hpaid

end

end AgentDesk
