import AgentDesk.Logic.Acts
import AgentDesk.Logic.Bookkeeping
import AgentDesk.Logic.Replay

namespace AgentDesk

open Framework (Table Serial Guarded Program)

variable {S : Type} {cfg : Config S} {workflow : Workflow S} {c : Nat} {start : Time}
  {w w' : World S} {db db' : DB S} {t : Ticket}

/-! Tickets that nothing touches -/

/-- The row of the ticket and its events are these. -/
structure Frozen (t : Ticket) (events : List TicketEvent) (db : DB S) : Prop where
  row : db.tickets.find? t.id = some t
  events : db.ticketEvents.rows.filter (·.ticketId == t.id) = events

/-- The statement leaves this ticket and its events alone. -/
def Write.Spares (id : Uuid) (x : Write S) : Prop :=
  x.renews id = false ∧ ∀ e, x = .insert (.ticketEvent e) → e.ticketId ≠ id

theorem Frozen.spared {events : List TicketEvent} {ws : List (Write S)} (h : Frozen t events db)
    (habsent : Absent start db ws) (hws : ∀ x ∈ ws, x.Spares t.id) :
    Frozen t events (applyAll start db ws) := by
  constructor
  · have hrow : (applyAll start db ws).tickets.find? t.id = db.tickets.find? t.id := by
      refine Journal.find_applyAll (List.any_eq_false.mpr fun x hx => ?_)
      rw [(hws x hx).1]
      exact Bool.false_ne_true
    exact hrow.trans h.row
  · have hrows := Growing.ticketEvents.applyAll habsent
    have hnew : (ws.filterMap (Growing.ticketEvents.new start)).filter (·.ticketId == t.id) = [] := by
      refine List.filter_eq_nil_iff.mpr fun e he => ?_
      obtain ⟨x, hx, hadded⟩ := List.mem_filterMap.mp he
      simp only [Growing.ticketEvents] at hadded
      split at hadded <;> cases hadded
      rename_i e'
      simpa using (hws _ hx).2 e' rfl
    change (Growing.ticketEvents.rows _).filter _ = _
    rw [hrows, List.filter_append, hnew, List.append_nil]
    exact h.events

theorem spares_of_plain {id : Uuid} {x : Write S} (h : x.Plain) : x.Spares id := by
  refine ⟨renews_of_plain h id, ?_⟩
  rintro e rfl
  exact h.elim

theorem spares_of_side {id runId : Uuid} {x : Write S} (h : x.Side runId) : x.Spares id := by
  rcases side_cases h with ⟨p, rfl⟩ | ⟨a, rfl⟩
  · exact ⟨rfl, fun _ he => by cases he⟩
  · exact ⟨rfl, fun _ he => by cases he⟩

/-- No transaction but the change of a draft touches an approved ticket. -/
theorem Act.spares {s : Journal S} (hact : Act cfg workflow s start db db')
    (ht : db.tickets.find? t.id = some t) (hstatus : t.status = .approved)
    (hunedited : .edit t.id ∉ s.writes.flatMap Write.due) : ∀ x ∈ s.writes, x.Spares t.id := by
  obtain ⟨hrows, hdeed, habsent, -⟩ := hact
  have hother : ∀ {t' : Ticket} {target : TicketStatus}, s.row t'.id = some t' →
      canTransition t'.status target = true → target ≠ .closed → t'.id ≠ t.id := by
    intro t' target hread hallowed hopen hid
    have hsame := hrows _ _ hread
    rw [hid, ht] at hsame
    rw [← Option.some.inj hsame, hstatus] at hallowed
    cases target <;> first | exact hopen rfl | cases hallowed
  have moved : ∀ {id : Uuid} {p : TicketPatch} {e : TicketEvent} {x : Write S}, id ≠ t.id →
      e.ticketId = id → x = .updateTicket id p ∨ x = .insert (.ticketEvent e) → x.Spares t.id := by
    intro id p e x hne he hx
    rcases hx with rfl | rfl
    · exact ⟨by simpa using hne, fun _ h => by cases h⟩
    · refine ⟨by simp, ?_⟩
      rintro e' ⟨⟩
      rw [he]
      exact hne
  generalize s.writes = ws at hdeed habsent hunedited
  cases hdeed with
  | plain hplain => exact fun x hx => spares_of_plain (hplain x hx)
  | @created t' e a _ hticket =>
    have hne : t'.id ≠ t.id := by
      intro hid
      have hpresent := habsent.1 _ rfl
      simp [Row.isPresent, hid, ht] at hpresent
    simp [Write.Spares, Write.renews, hne, hticket]
  | started | failed | announced => simp [Write.Spares]
  | @edited t' us e hread hus hticket horg htarget hevent =>
    have hne : t'.id ≠ t.id := by
      intro hid
      refine hunedited (List.mem_flatMap.mpr ⟨.insert (.ticketEvent e), by simp, ?_⟩)
      simp [Write.due, Row.due, TicketEvent.due, hevent, hticket, hid]
    intro x hx
    rcases List.mem_append.mp hx with hx | hx
    · obtain ⟨p, rfl, -⟩ := hus x hx
      exact moved (e := e) hne hticket (Or.inl rfl)
    · exact moved (p := {}) hne hticket (Or.inr (List.mem_singleton.mp hx))
  | @decided t' p e a target hread hfree hmoves hdecides =>
    have hopen : target ≠ .closed := by
      rintro rfl
      cases hdecides
    have hne := hother hread hmoves.allowed hopen
    intro x hx
    simp only [List.mem_cons, List.not_mem_nil, or_false] at hx
    rcases hx with hx | hx | rfl
    · exact moved (e := e) hne hmoves.ticket (Or.inl hx)
    · exact moved (p := p) hne hmoves.ticket (Or.inr hx)
    · simp [Write.Spares]
  | @concluded t' p e a runId state ws hread hfree hyields hmoves hconcludes hhistory haudit hside =>
    have hopen : state.target ≠ .closed := by
      unfold AgentState.target
      split <;> exact TicketStatus.noConfusion
    have hne := hother hread hmoves.allowed hopen
    intro x hx
    cases hx' : x.isHistory with
    | false => exact spares_of_side (hside x hx hx')
    | true =>
      have hmem : x ∈ ws.filter Write.isHistory := List.mem_filter.mpr ⟨hx, hx'⟩
      rw [hhistory] at hmem
      refine moved (p := p) hne hmoves.ticket ?_
      simpa using hmem

/-! What a session that runs alone has read -/

/-- Until it commits, the session has read what was there when it began. -/
def ReadFrom (cfg : Config S) (db : DB S) (cs : List (Made S)) (w : World S) : Prop :=
  (∀ x ∈ cs, x.1.isCommit = false) → w.db = db ∧ ∀ (q : Query S) (r : q.Result),
    ⟨.query q, .ok r⟩ ∈ cs → ∃ choice, r = q.eval cfg.platform choice db

/-- What is known of a session that runs alone: its journal, its calls, and what it read. -/
structure Alone (cfg : Config S) (c : Nat) (db : DB S) (w : World S)
    (s : Journal S × List (Made S)) : Prop where
  current : s.1.Current c w
  pending : (Book.ofCalls s.2).pending = s.1.writes
  read : ReadFrom cfg db s.2 w

theorem alone_start (h : ∀ d, c ≤ d → w.tx? d = none) : Alone cfg c w.db w (.start, []) :=
  ⟨Journal.current_start h, rfl, fun _ => ⟨rfl, fun _ _ hmem => by cases hmem⟩⟩

theorem Alone.exec {s : Journal S × List (Made S)} {op : Op S} {reply : Reply S} {r : Res op}
    (h : Alone cfg c db w s) (hok : (Journal.observer cfg workflow).ok s.1 op)
    (he : w.exec cfg.platform c op reply = some (r, w')) :
    Ledger.Fits op r ∧ Alone cfg c db w' (s.1.after op r, s.2 ++ [⟨op, r⟩]) ∧
      (w'.db = w.db ∨ op = .commit ∧ ∃ start, Act cfg workflow s.1 start w.db w'.db) := by
  have hquiet : op ≠ .commit → w'.db = w.db := by
    intro hop
    rcases (World.steps_of_exec he).history with hquiet | ⟨hcommit, -⟩
    · exact hquiet.db
    · exact absurd hcommit hop
  obtain ⟨hfits, hcurrent, hdb⟩ := h.current.exec hok he
  refine ⟨hfits, ⟨hcurrent, ?_, fun hnone => ?_⟩, ?_⟩
  · rw [Book.ofCalls_snoc]
    exact Book.pending_note _ _ _ _ h.pending
  · obtain ⟨hsame, hreads⟩ := h.read fun x hx => hnone x (List.mem_append_left _ hx)
    have hop : op ≠ .commit := by
      rintro rfl
      exact absurd (hnone _ (List.mem_append_right _ (List.mem_singleton_self _)))
        (by simp [Op.isCommit])
    refine ⟨(hquiet hop).trans hsame, fun q r' hmem => ?_⟩
    rcases List.mem_append.mp hmem with hmem | hmem
    · exact hreads q r' hmem
    · have hlast := List.mem_singleton.mp hmem
      obtain ⟨hopq, hres⟩ := Sigma.mk.inj hlast
      subst hopq
      cases hres
      obtain ⟨-, -, hanswer⟩ := World.query_exec (h.current.writes.trans hok) he
      obtain ⟨choice, hread⟩ := hanswer r' rfl
      rw [hsame] at hread
      exact ⟨choice, hread⟩
  · by_cases hop : op = .commit
    · exact hdb.imp id fun hact => ⟨hop, hact⟩
    · exact Or.inl (hquiet hop)

/-! The requests that change the draft of a ticket -/

/-- The request changes the draft of this ticket: its content is not blank, and its token is a
valid one of an active admin or operator of the organization of the ticket. -/
def Redrafts (cfg : Config S) (db : DB S) (ticketId : Uuid) (job : Job) : Prop :=
  ∃ token claims now body u t,
    job = .request (.authenticated (some token) (.editDraft ticketId body)) ∧
      isBlank body.content = false ∧ token.Valid cfg .access u.id now claims ∧
        db.users.find? u.id = some u ∧ u.isActive = true ∧ u.role ∈ [.admin, .operator] ∧
          db.tickets.find? ticketId = some t ∧ t.organizationId = u.organizationId

theorem redrafts_of_settles {job : Job} {cs : List (Made S)} {ticketId : Uuid}
    (hsettles : Settles cfg job cs) (hread : ReadFrom cfg db cs w)
    (hedit : .edit ticketId ∈ (Book.ofCalls cs).pending.flatMap Write.due) :
    Redrafts cfg db ticketId job := by
  have hpaid : ∀ xs : List (Write S), Entry.edit ticketId ∉ xs.flatMap Write.paid := by
    intro xs hmem
    obtain ⟨x, -, hx⟩ := List.mem_flatMap.mp hmem
    cases x with
    | insert row =>
      cases row with
      | auditLog a =>
        simp only [Write.paid, Row.paid, AuditLog.paid] at hx
        split at hx <;> simp at hx
      | _ => cases hx
    | _ => cases hx
  rcases hsettles with heven | ⟨id, pre, ws, rfl, hedits, hdue, -⟩
  · unfold Even opened at heven
    rw [List.map_nil, List.append_nil] at heven
    rw [heven] at hedit
    exact absurd hedit (hpaid _)
  · obtain ⟨token, claims, now, body, uid, u, t, hjob, hblank, hvalid, hactive, hrole, horg, rfl⟩ :=
      hedits
    have hid : ticketId = id := by
      rw [Book.ofCalls_snoc] at hedit
      change _ ∈ ws.flatMap Write.due at hedit
      rw [hdue, List.mem_singleton] at hedit
      exact Entry.edit.inj hedit
    subst hid
    obtain ⟨-, hreads⟩ := hread (by simp [Op.isCommit])
    obtain ⟨_, huser⟩ := hreads (.user uid) (some u) (by simp)
    obtain ⟨_, hticket⟩ := hreads (.ticket ticketId) (some t) (by simp)
    have huid : u.id = uid := Table.key_of_find? huser.symm
    subst huid
    exact ⟨token, claims, now, body, u, t, hjob, hblank, hvalid, huser.symm, hactive, hrole,
      hticket.symm, horg⟩

section

variable [Field S] [LinearOrder S] [FloorRing S]

/-- A session that runs alone and does not change the draft of an approved ticket leaves the
ticket and its events as they are. -/
theorem session_frozen {job : Job} {events : List TicketEvent} (hidle : w.IdleFrom c)
    (hfrozen : Frozen t events w.db) (hstatus : t.status = .approved)
    (hjob : ¬Redrafts cfg w.db t.id job)
    (hleaves : (job.program cfg workflow c).Leaves (server cfg.platform) c w w') :
    Frozen t events w'.db ∧ w'.IdleFrom (c + 1) := by
  have hprog := Program.obeys_both (Job.program_journaled cfg workflow job c)
    (Job.program_settled cfg workflow job c)
  refine Program.leaves_of_obeys
    (P := fun (v : World S) s => Alone cfg c w.db v s ∧ Frozen t events v.db)
    (I := fun v => Frozen t events v.db ∧ v.IdleFrom (c + 1)) ?_ ?_ hprog
    ⟨alone_start hidle, hfrozen⟩ hleaves
  · rintro v op s reply r v' ⟨halone, hfrozen⟩ ⟨hok, hsettles⟩ he
    obtain ⟨hfits, halone', hdb⟩ := halone.exec hok he
    refine ⟨(s.1.after op r, s.2 ++ [⟨op, r⟩]), ⟨⟨hfits, rfl⟩, hfits, rfl⟩, halone', ?_⟩
    rcases hdb with hsame | ⟨rfl, start, hact⟩
    · rw [hsame]
      exact hfrozen
    · have hunedited : .edit t.id ∉ s.1.writes.flatMap Write.due := by
        intro hedit
        rw [← halone.pending] at hedit
        exact hjob (redrafts_of_settles hsettles halone.read hedit)
      have hspared := hact.spares hfrozen.row hstatus hunedited
      rw [hact.result]
      exact hfrozen.spared hact.absent hspared
  · rintro v s ⟨halone, hfrozen⟩
    refine ⟨⟨hfrozen, fun d hd => halone.current.fresh d hd⟩, hfrozen, fun d hd => ?_⟩
    exact (World.tx?_dropTx_ne (Nat.ne_of_gt hd)).trans (halone.current.fresh d hd)

theorem serial_idle {n m : Nat} (hw : w.IdleFrom n)
    (h : Serial (server cfg.platform) (Job.program cfg workflow) n w m w') : w'.IdleFrom m :=
  (serial_acts (K := fun _ => True) (Job.program_journaled cfg workflow) (fun _ _ => trivial) h hw
    trivial).2

end

/-- An organization is registered, a ticket created, drafted by a run, and approved. -/
def approvedJobs : List (Job × (Nat → Reply ℚ)) :=
  [.registerAcme, .createHelp, .byAdmin (.runWorkflow ⟨1, 0⟩), .runAgent ⟨2, 0⟩,
    .byAdmin (.approve ⟨1, 0⟩ ⟨none⟩)].map fun job => (job, fun _ => .plain)

/-- The run is executed again, and the ticket decided, run and edited, the last without a token. -/
def laterJobs : List (Job × (Nat → Reply ℚ)) :=
  [.runAgent ⟨2, 0⟩, .byAdmin (.reject ⟨1, 0⟩ ⟨some "too late"⟩),
    .byAdmin (.approve ⟨1, 0⟩ ⟨some "again"⟩), .byAdmin (.runWorkflow ⟨1, 0⟩),
    .request (.authenticated none (.editDraft ⟨1, 0⟩ otherDraft))].map
      fun job => (job, fun _ => .plain)

def redraftJobs : List (Job × (Nat → Reply ℚ)) :=
  [(.byAdmin (.editDraft ⟨1, 0⟩ otherDraft), fun _ => .plain)]

theorem laterJobs_leave (w : World ℚ) (ticketId : Uuid) {x : Job × (Nat → Reply ℚ)}
    (hx : x ∈ laterJobs) : ¬Redrafts .plain w.db ticketId x.1 := by
  intro hredrafts
  obtain ⟨token, claims, now, body, u, t, hjob, -⟩ := hredrafts
  simp only [laterJobs, List.map_cons, List.map_nil, List.mem_cons, List.not_mem_nil,
    or_false] at hx
  rcases hx with rfl | rfl | rfl | rfl | rfl <;> simp [Job.byAdmin] at hjob

end AgentDesk
