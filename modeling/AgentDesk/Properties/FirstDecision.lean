import AgentDesk.Api.Operations
import AgentDesk.Framework.Serial
import AgentDesk.Framework.Transcript
import AgentDesk.Logic.Shadow
import AgentDesk.Properties.Approvals

namespace AgentDesk

open Framework (Event Observer Pool Program Table)

variable {S : Type} {cfg : Config S} {workflow : Workflow S} {c n : Nat} {db db' : DB S} {t : Ticket}
  {target : TicketStatus} {final : Option String}

/-! One decision, alone and with no failure -/

/-- The call has not raised. -/
def Op.returned (op : Op S) (r : Res op) : Prop := op.raised r = false

/-- The session runs alone, and none of its calls raises. -/
abbrev calm (cfg : Config S) (c : Nat) : Observer (Op S) Res (Solo S Tally) :=
  (Solo.observer cfg.platform (fun _ => true) Tally.note c).given Op.returned

/-- The event records a decision of a human. -/
def TicketEvent.decides (e : TicketEvent) : Bool :=
  e.eventType == "approved" || e.eventType == "rejected"

/-- The tables hold a decision on the ticket that was waiting for it. -/
structure DecidedAs (db db' : DB S) (t : Ticket) (target : TicketStatus) (final : Option String) :
    Prop where
  row : ∃ t', db'.tickets.find? t.id = some t' ∧ t'.status = target ∧ t'.finalResponse = final ∧
    t'.draftResponse = t.draftResponse
  event : ∃ e ∈ db'.ticketEvents.rows, db.ticketEvents.find? e.id = none ∧ e.ticketId = t.id ∧
    e.decides = true

theorem DecidedAs.announced {db'' : DB S} (h : DecidedAs db db' t target final)
    (ha : db'.Announced db'') : DecidedAs db db'' t target final := by
  obtain ⟨hrow, hevent⟩ := h
  exact ⟨by rwa [ha.tickets], by rwa [ha.ticketEvents]⟩

/-- The session has decided, and no committed version shows anything but this decision. -/
def Solo.Decided (db : DB S) (t : Ticket) (target : TicketStatus) (final : Option String)
    (s : Solo S Tally) : Prop :=
  DecidedAs db s.db t target final ∧ ∀ v ∈ s.past, v = db ∨ DecidedAs db v t target final

theorem late_kept {s s' : Solo S Tally} {op : Op S} {r : Res op} (hlate : s.tally.flags.late = false)
    (hr : op.returned r)
    (hn : (Solo.observer cfg.platform (fun _ => true) Tally.note c).next s op r s') :
    s'.tally.flags.late = false := by
  have hnote : (s.tally.note op r).flags.late = false := by
    change (s.tally.flags.late || op.raised r && (s.tally.flags.persisted || s.tally.flags.recorded)) =
      false
    rw [hlate, show op.raised r = false from hr]
    rfl
  have htally : s'.tally = s.tally.note op r := by
    cases op with
    | query q =>
      cases r with
      | error e => rw [hn.2]
      | ok row =>
        obtain ⟨now, choice, -, rfl⟩ := hn
        rfl
    | write ws =>
      cases r with
      | error e => rw [hn.2]
      | ok u =>
        obtain ⟨now, -, rfl⟩ := hn
        rfl
    | commit =>
      cases r with
      | error e => rw [hn.2]
      | ok u =>
        have hn : s' = s.committed (s.tally.note .commit (.ok u)) := hn
        rw [hn, Solo.committed_tally]
    | rollback =>
      cases r with
      | error e => rw [hn.2]
      | ok u => rw [show s' = _ from hn]
    | close | clock | salt => rw [show s' = _ from hn]
    | _ => rw [hn.2]
  rw [htally]
  exact hnote

theorem diff_apply_draftResponse (t t' : Ticket) :
    ((t.diff t').apply t).draftResponse = t'.draftResponse :=
  changed_getD _ _

/-- A coroutine that runs alone, and of whose calls none raises, raises nothing that a call must have
caused. -/
theorem triple_calm {α : Type} {p : M S α} {Q : α → Session S → Solo S Tally → Prop}
    {E : Err → Session S → Solo S Tally → Prop} {σ : Session S} {s : Solo S Tally}
    (h : p.Triple (Solo.observer cfg.platform (fun _ => true) Tally.note c) Q E σ s)
    (hE : ∀ e σ' s', E e σ' s' → s'.tally.flags.late = true) (hlate : s.tally.flags.late = false) :
    p.Triple (calm cfg c) Q (fun _ _ _ => False) σ s := by
  have hcalm := Program.obeys_given (P := Op.returned) (I := fun s => s.tally.flags.late = false)
    (fun hI hr hn => late_kept hI hr hn) h hlate
  refine Program.obeys_mono hcalm ?_
  rintro ⟨e | a, σ'⟩ s' ⟨hpost, hkept⟩
  · have hraised := hE e σ' s' hpost
    rw [hkept] at hraised
    cases hraised
  · exact hpost

theorem decidedAs_withDecision {start : Time} {p : TicketPatch} {e : TicketEvent} {a : AuditLog}
    (ht : db.tickets.find? t.id = some t)
    (hevent : violatesAny start db [.updateTicket t.id p, .insert (.ticketEvent e)] = false)
    (hid : e.ticketId = t.id) (hdecides : e.decides = true) (hstatus : (p.apply t).status = target)
    (hfinal : (p.apply t).finalResponse = final)
    (hdraft : (p.apply t).draftResponse = t.draftResponse) :
    DecidedAs db (db.withDecision start t.id p e a) t target final := by
  obtain ⟨hnew, hmem⟩ := event_withDecision hevent
  exact ⟨⟨_, find?_withDecision ht, hstatus, hfinal, hdraft⟩, ⟨_, hmem a, hnew, hid, hdecides⟩⟩

/-- An approval of a ticket that waits for it goes through. -/
theorem approve_calm {start : Time} {ps : List (Except Err Nat)} (actorUserId : Uuid)
    (edited : Option String) (ht : db.tickets.find? t.id = some t)
    (hwaiting : t.status = .waitingApproval)
    (hanswer : isBlank (TicketService.finalOf t edited) = false) :
    (TicketService.approve cfg t.id actorUserId edited).Triple (calm cfg c)
      (fun _ _ s' => s'.Decided db t .approved (some (TicketService.finalOf t edited)))
      (fun _ _ _ => False) ⟨c, n, [⟨t, t⟩], [], [], [], []⟩
      ⟨db, some (start, []), [], ⟨false, false, false, false⟩, ps⟩ := by
  have hcan : canTransition t.status .approved = true := canTransition_approved.mpr hwaiting
  unfold TicketService.approve
  simp [TicketService.transition, commit, record, hanswer, hcan, dirtyTicket_of_transition,
    ownIds_cons, Row.id, Op.returned, Op.raised]
  intro hevent haudit
  have hfound := fun p e a => @find?_withDecision S db start t p e a ht
  have hdecided := fun a => @decidedAs_withDecision S db t .approved
    (some (TicketService.finalOf t edited)) start _ _ a ht hevent rfl rfl (diff_apply_status _ _)
    (diff_apply_finalResponse _ _) (diff_apply_draftResponse _ _)
  refine ⟨?_, ?_⟩
  · intro hnone
    exact absurd ((hfound _ _ _).symm.trans hnone) (by simp)
  · intro t₁ now ht₁
    obtain ⟨hid, horg⟩ : t₁.id = t.id ∧ t₁.organizationId = t.organizationId := by
      rw [← Option.some.inj ((hfound _ _ _).symm.trans ht₁)]
      exact ⟨rfl, rfl⟩
    refine M.triple_mono (triple_calm (enqueueForTicket_solo "ticket.approved" hid horg (by simp)
      (by simp) (by simp) (by simp) (by simp [hid])) ?_ rfl) ?_ (fun _ _ _ h => h)
    · rintro _ _ s' ⟨-, -, -, hflags⟩
      rw [hflags]
    · rintro _ _ s' ⟨⟨n', ws, ds, rfl⟩, hdb, -, ⟨more, hpast, hmore⟩, -⟩
      have hall : s'.Decided db t .approved (some (TicketService.finalOf t edited)) := by
        refine ⟨(hdecided _).announced hdb, fun v hv => ?_⟩
        rw [hpast] at hv
        rcases List.mem_append.mp hv with hv | hv
        · exact Or.inl (List.mem_singleton.mp hv)
        · exact Or.inr ((hdecided _).announced (hmore v hv))
      simp [hid, hall]

theorem reject_calm {start : Time} {ps : List (Except Err Nat)} (actorUserId : Uuid)
    (reason : Option String) (ht : db.tickets.find? t.id = some t)
    (hwaiting : t.status = .waitingApproval) :
    (TicketService.reject t.id actorUserId reason : M S Ticket).Triple (calm cfg c)
      (fun _ _ s' => s'.Decided db t .rejected t.finalResponse)
      (fun _ _ _ => False) ⟨c, n, [⟨t, t⟩], [], [], [], []⟩
      ⟨db, some (start, []), [], ⟨false, false, false, false⟩, ps⟩ := by
  have hcan : canTransition t.status .rejected = true := canTransition_rejected.mpr hwaiting
  unfold TicketService.reject
  simp [TicketService.transition, commit, record, hcan, dirtyTicket_of_transition,
    ownIds_cons, Row.id, Op.returned, Op.raised]
  intro hevent haudit
  have hdecided := fun a => @decidedAs_withDecision S db t .rejected t.finalResponse start _ _ a ht
    hevent rfl rfl (diff_apply_status _ _) (diff_apply_finalResponse _ _) (diff_apply_draftResponse _ _)
  refine ⟨?_, ?_⟩
  · intro hnone
    exact absurd ((@find?_withDecision S db start t _ _ _ ht).symm.trans hnone) (by simp)
  · intro t₁ now ht₁
    exact ⟨hdecided _, fun v hv => Or.inl (List.mem_singleton.mp hv)⟩

/-! The requests -/

/-- The operation decides about the ticket, with an answer that is not blank. -/
inductive Operation.DecidesOn (t : Ticket) : Operation → Prop
  | approve (actorUserId : Uuid) (edited : Option String)
      (answer : isBlank (TicketService.finalOf t edited) = false) :
      DecidesOn t (.approve t.organizationId t.id actorUserId edited)
  | reject (actorUserId : Uuid) (reason : Option String) :
      DecidesOn t (.reject t.organizationId t.id actorUserId reason)

/-- The status to which a decision takes the ticket. -/
def Operation.verdict : Operation → TicketStatus
  | .approve _ _ _ _ => .approved
  | _ => .rejected

/-- The final response that a decision leaves. -/
def Operation.finalResponse (t : Ticket) : Operation → Option String
  | .approve _ _ _ edited => some (TicketService.finalOf t edited)
  | _ => t.finalResponse

theorem getDb_calm {α : Type} {p : M S α} {K : α → DB S → List (DB S) → Prop} {σ : Session S}
    {s : Solo S Tally}
    (h : p.Triple (calm cfg c) (fun a _ s' => K a s'.db s'.past) (fun _ _ _ => False) σ s) :
    (getDb p).Triple (calm cfg c) (fun a _ s' => K a s'.db s'.past) (fun _ _ _ => False) σ s := by
  have hbody : (M.except p fun exc => do
      rollback
      M.raise exc).Triple (calm cfg c) (fun a _ s' => K a s'.db s'.past) (fun _ _ _ => False) σ s := by
    rw [M.triple_except]
    exact M.triple_mono h (fun _ _ _ h => h) (fun _ _ _ h => h.elim)
  unfold getDb M.Triple sessionScope
  rw [Program.obeys_bind]
  refine Program.obeys_mono hbody ?_
  rintro ⟨e | a, σ'⟩ s' hpost
  · exact hpost.elim
  · refine ⟨trivial, ?_⟩
    rintro _ _ ⟨-, rfl⟩
    exact hpost

/-- A decision alone, of whose calls none raises, goes through. -/
theorem operation_calm {operation : Operation} (hop : operation.DecidesOn t)
    (ht : db.tickets.find? t.id = some t) (hwaiting : t.status = .waitingApproval) :
    (operation.program cfg workflow c).Obeys (calm cfg c)
      (fun r s' => r = .ok () ∧ s'.Decided db t operation.verdict (operation.finalResponse t))
      ⟨db, none, [], .start⟩ := by
  have hloads : ∀ {p : M S Ticket} {target final},
      (∀ start ps, p.Triple (calm cfg c) (fun _ _ s' => s'.Decided db t target final)
        (fun _ _ _ => False) ⟨c, 0, [⟨t, t⟩], [], [], [], []⟩
        ⟨db, some (start, []), [], ⟨false, false, false, false⟩, ps⟩) →
      (getDb (do
        let _ ← TicketService.getTicket t.organizationId t.id
        let _ ← p : M S Unit)).Triple (calm cfg c)
        (fun _ _ s' => s'.Decided db t target final) (fun _ _ _ => False) (.start c)
        ⟨db, none, [], .start⟩ := by
    intro p target final hp
    refine getDb_calm (K := fun _ db' past => DecidedAs db db' t target final ∧
      ∀ v ∈ past, v = db ∨ DecidedAs db v t target final) ?_
    simp [TicketService.getTicket, M.triple_ite, Session.start, Tally.start, Flags.start, ht,
      Op.returned, Op.raised]
    rintro _ now rfl
    exact ⟨fun _ => hp now [], rfl⟩
  have hends : ∀ {p : M S Unit} {target final}, p.Triple (calm cfg c)
      (fun _ _ s' => s'.Decided db t target final) (fun _ _ _ => False) (.start c)
        ⟨db, none, [], .start⟩ →
      ((p (.start c)).bind fun x => .ret x.1).Obeys (calm cfg c)
        (fun r s' => r = .ok () ∧ s'.Decided db t target final) ⟨db, none, [], .start⟩ := by
    intro p target final hp
    rw [Program.obeys_bind]
    refine Program.obeys_mono hp ?_
    rintro ⟨e | u, σ'⟩ s' hpost
    · exact hpost.elim
    · exact ⟨rfl, hpost⟩
  cases hop with
  | approve actorUserId edited answer =>
    exact hends (hloads fun _ _ => approve_calm actorUserId edited ht hwaiting answer)
  | reject actorUserId reason =>
    exact hends (hloads fun _ _ => reject_calm actorUserId reason ht hwaiting)

/-- The row of the ticket that the call has read. -/
def Op.ticketRead (id : Uuid) : (op : Op S) → Res op → Option Ticket
  | .query (.ticket key), .ok row => if key = id then row else none
  | _, _ => none

/-- What a request has found when it loaded the ticket; one that finds it decided only ends its
transaction. -/
def loading (t : Ticket) : Observer (Op S) Res (Option Ticket) where
  ok s op := match s with
    | none => op = .query (.ticket t.id)
    | some row => row.status = .waitingApproval ∨ op.reads = true
  next s op r s' := op.returned r ∧ match s with
    | none => ∃ row, op.ticketRead t.id r = some row ∧ row.id = t.id ∧
        row.organizationId = t.organizationId ∧ s' = some row
    | some row => s' = some row

/-- A request that finds the ticket decided is refused. -/
def Refused (t : Ticket) (r : Except Err Unit) (s : Option Ticket) : Prop :=
  ∀ row, s = some row → row.status ≠ .waitingApproval → row.draftResponse = t.draftResponse →
    ∃ current target, r = .error (.invalidTransition current target)

theorem getDb_loading {p : M S Unit} {K : Except Err Unit → Option Ticket → Prop} {σ : Session S}
    {s : Option Ticket}
    (h : p.Triple (loading t) (fun _ _ s' => s'.isSome = true ∧ K (.ok ()) s')
      (fun e _ s' => s'.isSome = true ∧ K (.error e) s') σ s) :
    ((getDb p σ).bind fun x => .ret x.1).Obeys (loading t) K s := by
  have hreads : ∀ (op : Op S) (s' : Option Ticket), op.reads = true → s'.isSome = true →
      (loading t).ok s' op := by
    intro op s' hop hsome
    cases s' with
    | none => cases hsome
    | some row => exact Or.inr hop
  have hkept : ∀ {op : Op S} {r : Res op} {s' s'' : Option Ticket}, s'.isSome = true →
      (loading t).next s' op r s'' → op.returned r ∧ s'' = s' := by
    intro op r s' s'' hsome hn
    cases s' with
    | none => cases hsome
    | some row => exact hn
  unfold getDb sessionScope M.except
  rw [Program.obeys_bind, Program.obeys_bind, Program.obeys_bind]
  refine Program.obeys_mono h ?_
  rintro ⟨e | u, σ'⟩ s' ⟨hsome, hpost⟩
  · refine ⟨hreads _ _ rfl hsome, ?_⟩
    intro r s₁ hn
    obtain ⟨hreturned, rfl⟩ := hkept hsome hn
    cases r with
    | error e' => cases hreturned
    | ok u =>
      refine ⟨hreads _ _ rfl hsome, ?_⟩
      intro r s₂ hn
      obtain ⟨-, rfl⟩ := hkept hsome hn
      exact hpost
  · refine ⟨hreads _ _ rfl hsome, ?_⟩
    intro r s₁ hn
    obtain ⟨-, rfl⟩ := hkept hsome hn
    exact hpost

/-- A decision loads the ticket first, and is refused if it finds it decided. -/
theorem getTicket_loading {p : M S Ticket}
    (hp : ∀ row, row.id = t.id → row.status ≠ .waitingApproval →
      p.Triple (loading t) (fun _ _ _ => False)
        (fun e _ s' => s' = some row ∧ Refused t (.error e) (some row))
        ⟨c, 0, [⟨row, row⟩], [], [], [], []⟩ (some row)) :
    (do
      let _ ← TicketService.getTicket t.organizationId t.id
      let _ ← p : M S Unit).Triple (loading t)
      (fun _ _ s' => s'.isSome = true ∧ Refused t (.ok ()) s')
      (fun e _ s' => s'.isSome = true ∧ Refused t (.error e) s') (.start c) none := by
  unfold TicketService.getTicket
  rw [M.triple_bind, M.triple_bind, triple_getTicketRow]
  refine ⟨fun o ho => (by cases ho), fun _ => ⟨rfl, fun e s' hn => ?_, fun s' hn => ?_,
    fun row s' hn => ?_⟩⟩
  · obtain ⟨-, row, hread, -⟩ := hn
    cases hread
  · obtain ⟨-, row, hread, -⟩ := hn
    simp [Op.ticketRead] at hread
  · obtain ⟨-, found, hread, hid, horganization, rfl⟩ := hn
    have hrow : row = found := by simpa [Op.ticketRead] using hread
    subst hrow
    rw [M.triple_ite]
    refine ⟨fun hne => absurd horganization hne, fun _ => ?_⟩
    rw [M.triple_pure, M.triple_bind]
    by_cases hwaiting : row.status = .waitingApproval
    · have hvacuous : ∀ r, Refused t r (some row) := by
        intro r row' hrow hdecided
        cases hrow
        exact absurd hwaiting hdecided
      refine Program.obeys_mono (Program.obeys_invariant (I := fun s => s = some row) ?_ _ rfl) ?_
      · rintro s op rfl
        exact ⟨Or.inl hwaiting, fun r s' hn => hn.2⟩
      · rintro ⟨e | a, σ'⟩ s' rfl
        · exact ⟨rfl, hvacuous _⟩
        · exact ⟨rfl, hvacuous _⟩
    · refine M.triple_mono (hp row hid hwaiting) (fun _ _ _ h => h.elim) ?_
      rintro e _ s' ⟨rfl, hrefused⟩
      exact ⟨rfl, hrefused⟩

theorem operation_loading {operation : Operation} (hop : operation.DecidesOn t) :
    (operation.program cfg workflow c).Obeys (loading t) (Refused t) none := by
  have hrefused : ∀ (row : Ticket) (target : TicketStatus),
      Refused t (.error (.invalidTransition row.status target)) (some row) :=
    fun row target _ _ _ _ => ⟨row.status, target, rfl⟩
  cases hop with
  | approve actorUserId edited answer =>
    refine getDb_loading (getTicket_loading fun row hid hdecided => ?_)
    have hcan : canTransition row.status .approved = false := by
      rw [← Bool.not_eq_true, canTransition_approved]
      exact hdecided
    have hblank : isBlank (TicketService.finalOf row edited) = true →
        Refused t (.error (.emptyResponse "A non-empty final response is required to approve"))
          (some row) := by
      intro hblank row' hrow _ hdraft
      cases hrow
      have hsame : TicketService.finalOf row edited = TicketService.finalOf t edited := by
        rw [TicketService.finalOf, hdraft, TicketService.finalOf]
      rw [hsame, answer] at hblank
      cases hblank
    simp [TicketService.approve, TicketService.transition, M.triple_ite, hid, hcan]
    exact ⟨hblank, fun _ => hrefused row _⟩
  | reject actorUserId reason =>
    refine getDb_loading (getTicket_loading fun row hid hdecided => ?_)
    have hcan : canTransition row.status .rejected = false := by
      rw [← Bool.not_eq_true, canTransition_rejected]
      exact hdecided
    simp [TicketService.reject, TicketService.transition, M.triple_ite, hid, hcan]
    exact hrefused row _

/-! Requests at the same time -/

/-- The call found the ticket waiting for a decision. -/
def Op.foundWaiting (id : Uuid) (op : Op S) (r : Res op) : Bool :=
  (op.ticketRead id r).any fun row => row.status == .waitingApproval

/-- Of the sessions from `n` on, no other has found the ticket waiting. -/
def SoleLoad (id : Uuid) (n c : Nat) (w : World S) (op : Op S) (r : Res op) (_ : World S) : Prop :=
  op.foundWaiting id r = true →
    ∀ x ∈ w.calls, n ≤ x.session → x.op.foundWaiting id x.result = true → x.session = c

instance {id : Uuid} {w w' : World S} {op : Op S} {r : Res op} :
    Decidable (SoleLoad id n c w op r w') := by
  unfold SoleLoad
  infer_instance

instance {op : Op S} {r : Res op} : Decidable (op.returned r) := by
  unfold Op.returned
  infer_instance

abbrev Requests (S : Type) : Type := Pool Operation (Op S) Res (Except Err Unit) (World S)

/-- No request has a call to make. -/
def resting (s : Requests S) : Bool := s.threads.all fun x =>
  match x.2 with
  | some (.call _ _) => false
  | _ => true

section

variable {workflow : Workflow S} {s₀ s s' : Requests S} {events : List (Event Operation (Reply S))}
  {operation : Operation} {i d : Nat} {p : Program (Op S) Res (Except Err Unit)} {w₀ w w' : World S}
  {op : Op S} {next : Res op → Program (Op S) Res (Except Err Unit)} {r : Res op} {reply : Reply S}

/-- Requests that decide about a ticket, each in a session of its own: the ticket waits for them, no
other session is at work, no call fails, and every request has come to its end. -/
structure Deciding (cfg : Config S) (workflow : Workflow S) (s₀ : Requests S) (t : Ticket)
    (events : List (Event Operation (Reply S))) : Prop where
  idle : s₀.world.txs = []
  rest : resting s₀ = true
  ticket : s₀.world.db.tickets.find? t.id = some t
  waiting : t.status = .waitingApproval
  some : Pool.spawned events ≠ []
  decide : ∀ operation ∈ Pool.spawned events, operation.DecidesOn t
  spared : ∀ i, .kill i ∉ events
  returned : s₀.Meets (server cfg.platform) (Operation.program cfg workflow)
    (fun _ _ op r _ => op.returned r) events
  ended : resting (s₀.run (server cfg.platform) (Operation.program cfg workflow) events) = true

theorem resting_thread (h : resting s = true) :
    s.threads[i]? ≠ some (operation, some (.call op next)) := by
  intro hthread
  have hall := List.all_eq_true.mp h _ (List.mem_of_getElem? hthread)
  cases hall

/-- The request has decided about the ticket, every other one is refused, and the tables and the broker
are what the request leaves that runs alone. -/
structure FirstWins (cfg : Config S) (workflow : Workflow S) (s₀ s : Requests S) (t : Ticket) (i : Nat)
    (operation : Operation) : Prop where
  new : s₀.threads.length ≤ i
  won : s.threads[i]? = some (operation, some (.ret (.ok ())))
  lost : ∀ (d : Nat) (operation' : Operation) (p : Option (Program (Op S) Res (Except Err Unit))),
    s₀.threads.length ≤ d → d ≠ i → s.threads[d]? = some (operation', p) →
      ∃ current target, p = some (.ret (.error (.invalidTransition current target)))
  commits : ∃ own, s.world.commits = s₀.world.commits ++ own ∧ own ≠ [] ∧ ∀ k ∈ own, k.session = i
  decided : DecidedAs s₀.world.db s.world.db t operation.verdict (operation.finalResponse t)
  alone : ∃ u, (operation.program cfg workflow i).Reaches (server cfg.platform) i s₀.world
    (.ret (.ok ())) u ∧ u.db = s.world.db ∧ u.tasks = s.world.tasks

/-- The session has been as if it were alone, and all that has been committed is its own. -/
structure Unopposed (cfg : Config S) (workflow : Workflow S) (w₀ : World S) (t : Ticket) (i : Nat)
    (operation : Operation) (w : World S) (p : Program (Op S) Res (Except Err Unit)) : Prop where
  shadow : ∃ u so, (operation.program cfg workflow i).Reaches (server cfg.platform) i w₀ p u ∧
    u.Shadow i w ∧ Solo.At Tally.note i w₀ .start u so ∧
      p.Obeys (calm cfg i) (fun r s' =>
        r = .ok () ∧ s'.Decided w₀.db t operation.verdict (operation.finalResponse t)) so
  commits : ∃ own, w.commits = w₀.commits ++ own ∧ (own = [] → w.db = w₀.db) ∧
    ∀ k ∈ own, k.session = i
  grows : w₀.db.Grows w.db

/-- It has also found the ticket waiting. -/
structure Leads (cfg : Config S) (workflow : Workflow S) (w₀ : World S) (t : Ticket) (i : Nat)
    (operation : Operation) (w : World S) (p : Program (Op S) Res (Except Err Unit)) : Prop extends
    Unopposed cfg workflow w₀ t i operation w p where
  found : ∃ x ∈ w.calls, x.session = i ∧ x.op.foundWaiting t.id x.result = true

/-- The session has not begun, or it has found the ticket decided. -/
inductive Trails (cfg : Config S) (workflow : Workflow S) (w₀ : World S) (t : Ticket) (d : Nat)
    (operation : Operation) (w : World S) : Program (Op S) Res (Except Err Unit) → Prop
  | fresh : Trails cfg workflow w₀ t d operation w (operation.program cfg workflow d)
  | late {p : Program (Op S) Res (Except Err Unit)} {k : Nat} {v : DB S} {row : Ticket}
      (later : w₀.past.length ≤ k) (version : w.versions[k]? = some v)
      (found : v.tickets.find? t.id = some row) (decided : row.status ≠ .waitingApproval)
      (obeys : p.Obeys (loading t) (Refused t) (some row)) : Trails cfg workflow w₀ t d operation w p

theorem Unopposed.start (hop : operation.DecidesOn t) (hidle : w₀.txs = [])
    (ht : w₀.db.tickets.find? t.id = some t) (hwaiting : t.status = .waitingApproval) :
    Unopposed cfg workflow w₀ t i operation w₀ (operation.program cfg workflow i) := by
  have hat : Solo.At Tally.note i w₀ .start w₀ ⟨w₀.db, none, [], .start⟩ :=
    Solo.at_start fun d => by simp [World.tx?, hidle]
  have hobeys := @operation_calm S cfg workflow i _ _ _ hop ht hwaiting
  exact ⟨⟨w₀, _, .start, .refl hidle, hat, hobeys⟩, ⟨[], by simp, fun _ => rfl, by simp⟩, .refl _⟩

/-- A step of the session itself. -/
theorem Unopposed.step (h : Unopposed cfg workflow w₀ t i operation w (.call op next))
    (he : w.exec cfg.platform i op reply = some (r, w')) (hr : op.returned r) :
    Unopposed cfg workflow w₀ t i operation w' (next r) := by
  obtain ⟨⟨u, so, hreaches, hshadow, hat, hobeys⟩, hcommits, hgrows⟩ := h
  have hs := World.steps_of_exec he
  obtain ⟨u', hexec, hshadow'⟩ := hshadow.exec he
  have hok : (Solo.observer cfg.platform (fun _ => true) Tally.note i).ok so op := hobeys.1
  obtain ⟨r', u'', hexec', so', hnext, hat'⟩ := hat.step hok reply
  have hsame : (r', u'') = (r, u') := Option.some.inj (hexec'.symm.trans hexec)
  cases hsame
  refine ⟨⟨u', so', hreaches.call hexec, hshadow', hat', hobeys.2 r so' ⟨hr, hnext⟩⟩, ?_,
    hgrows.trans hs.grows⟩
  obtain ⟨own, heq, hnone, hown⟩ := hcommits
  rcases hs.history with hquiet | ⟨-, tx, hdurable⟩
  · exact ⟨own, hquiet.commits.trans heq, fun h => hquiet.db.trans (hnone h), hown⟩
  · refine ⟨own ++ [⟨i, tx.start, tx.writes, w.seen i⟩], ?_, fun h => by simp at h, ?_⟩
    · rw [hdurable.commits, heq, List.append_assoc]
    · intro k hk
      rcases List.mem_append.mp hk with hk | hk
      · exact hown k hk
      · rw [List.mem_singleton.mp hk]

/-- A read of another session does not matter. -/
theorem Unopposed.other (h : Unopposed cfg workflow w₀ t i operation w p) (hd : d ≠ i)
    (hop : op.reads = true) (he : w.exec cfg.platform d op reply = some (r, w')) :
    Unopposed cfg workflow w₀ t i operation w' p := by
  obtain ⟨⟨u, so, hreaches, hshadow, hat, hobeys⟩, hcommits, hgrows⟩ := h
  have hs := World.steps_of_exec he
  obtain ⟨hshadow', hsame⟩ := hshadow.other hd hop he
  have hdb : w'.db = w.db := hshadow'.db.symm.trans hshadow.db
  refine ⟨⟨u, so, hreaches, hshadow', hat, hobeys⟩, ?_, hgrows.trans hs.grows⟩
  rw [hsame, hdb]
  exact hcommits

theorem Leads.step (h : Leads cfg workflow w₀ t i operation w (.call op next))
    (he : w.exec cfg.platform i op reply = some (r, w')) (hr : op.returned r) :
    Leads cfg workflow w₀ t i operation w' (next r) := by
  obtain ⟨x, hx, hown⟩ := h.found
  have hx' : x ∈ w'.calls := by
    rw [(World.steps_of_exec he).calls]
    exact List.mem_append_left _ hx
  exact ⟨h.toUnopposed.step he hr, x, hx', hown⟩

theorem Leads.other (h : Leads cfg workflow w₀ t i operation w p) (hd : d ≠ i)
    (hop : op.reads = true) (he : w.exec cfg.platform d op reply = some (r, w')) :
    Leads cfg workflow w₀ t i operation w' p := by
  obtain ⟨x, hx, hown⟩ := h.found
  have hx' : x ∈ w'.calls := by
    rw [(World.steps_of_exec he).calls]
    exact List.mem_append_left _ hx
  exact ⟨h.toUnopposed.other hd hop he, x, hx', hown⟩

theorem Trails.kept {c : Nat} (h : Trails cfg workflow w₀ t d operation w p)
    (hs : w.Steps c op r w') : Trails cfg workflow w₀ t d operation w' p := by
  cases h with
  | fresh => exact .fresh
  | late later version found decided obeys =>
    exact .late later (World.getElem?_extended hs.versions version) found decided obeys

/-- The first call of a request loads the ticket. -/
theorem load_of_program (hop : operation.DecidesOn t)
    (hp : .call op next = operation.program cfg workflow d) :
    op = .query (.ticket t.id) ∧ (Program.call op next).Obeys (loading t) (Refused t) none := by
  have hobeys := @operation_loading S cfg workflow d _ _ hop
  rw [← hp] at hobeys
  exact ⟨hobeys.1, hobeys⟩

/-- A load of a session that has no transaction reads the committed row. -/
theorem load_answers {found : Option Ticket} (hidle : w.writesOf d = [])
    (he : w.exec cfg.platform d (.query (.ticket t.id)) reply = some (.ok found, w')) :
    found = w.db.tickets.find? t.id := by
  obtain ⟨-, -, hanswer⟩ := World.query_exec hidle he
  obtain ⟨choice, hrow⟩ := hanswer found rfl
  exact hrow

/-- Nobody has begun, or one session leads and the others trail. -/
inductive Race (cfg : Config S) (workflow : Workflow S) (s₀ : Requests S) (t : Ticket) (s : Requests S) :
    Prop
  | open (world : s.world = s₀.world)
      (fresh : ∀ (d : Nat) (operation : Operation) (p : Option (Program (Op S) Res (Except Err Unit))),
        s₀.threads.length ≤ d → s.threads[d]? = some (operation, p) →
          operation.DecidesOn t ∧ p = some (operation.program cfg workflow d))
  | led (i : Nat) (operation : Operation) (p : Program (Op S) Res (Except Err Unit))
      (new : s₀.threads.length ≤ i) (thread : s.threads[i]? = some (operation, some p))
      (leads : Leads cfg workflow s₀.world t i operation s.world p)
      (trails : ∀ (d : Nat) (operation' : Operation)
        (p : Option (Program (Op S) Res (Except Err Unit))),
        s₀.threads.length ≤ d → d ≠ i → s.threads[d]? = some (operation', p) →
          operation'.DecidesOn t ∧ ∃ q, p = some q ∧
            Trails cfg workflow s₀.world t d operation' s.world q)

/-- A run of the requests: the sessions from before are at rest. -/
structure Running (cfg : Config S) (workflow : Workflow S) (s₀ : Requests S) (t : Ticket)
    (s : Requests S) : Prop where
  length : s₀.threads.length ≤ s.threads.length
  old : ∀ d, d < s₀.threads.length → s.threads[d]? = s₀.threads[d]?
  race : Race cfg workflow s₀ t s

theorem Running.spawn (h : Running cfg workflow s₀ t s) (hop : operation.DecidesOn t) :
    Running cfg workflow s₀ t (s.next (server cfg.platform) (Operation.program cfg workflow)
      (.spawn operation : Event Operation (Reply S))) := by
  obtain ⟨hlength, hold, hrace⟩ := h
  have hthread : ∀ (d : Nat) (operation' : Operation)
      (p : Option (Program (Op S) Res (Except Err Unit))),
      (s.threads ++ [(operation, some (operation.program cfg workflow s.threads.length))])[d]? =
        some (operation', p) → s.threads[d]? = some (operation', p) ∨
          operation' = operation ∧ p = some (operation.program cfg workflow d) := by
    intro d operation' p hd
    rw [List.getElem?_append] at hd
    split at hd
    · exact Or.inl hd
    · have hmem := List.getElem?_eq_some_iff.mp hd
      have hlast : d = s.threads.length := by
        have hlt := hmem.1
        simp only [List.length_singleton] at hlt
        omega
      subst hlast
      rw [Nat.sub_self, List.getElem?_cons_zero] at hd
      cases hd
      exact Or.inr ⟨rfl, rfl⟩
  refine ⟨?_, ?_, ?_⟩
  · simp only [Pool.next, List.length_append, List.length_singleton]
    omega
  · intro d hd
    simp only [Pool.next]
    rw [List.getElem?_append_left (by omega)]
    exact hold d hd
  · cases hrace with
    | «open» world fresh =>
      refine .open world fun d operation' p hd hp => ?_
      rcases hthread d operation' p hp with hp | ⟨rfl, rfl⟩
      · exact fresh d operation' p hd hp
      · exact ⟨hop, rfl⟩
    | led i leader p new thread leads trails =>
      refine .led i leader p new ?_ leads fun d operation' p' hd hne hp => ?_
      · simp only [Pool.next]
        rw [List.getElem?_append_left (List.getElem?_eq_some_iff.mp thread).1]
        exact thread
      · rcases hthread d operation' p' hp with hp | ⟨rfl, rfl⟩
        · exact trails d operation' p' hd hne hp
        · exact ⟨hop, _, rfl, .fresh⟩

/-- The first request that loads the ticket finds it waiting, and leads from then on. -/
theorem Leads.first (hidle : w₀.txs = []) (ht : w₀.db.tickets.find? t.id = some t)
    (hwaiting : t.status = .waitingApproval) (hop : operation.DecidesOn t)
    (hp : .call op next = operation.program cfg workflow i)
    (he : w₀.exec cfg.platform i op reply = some (r, w')) (hr : op.returned r) :
    Leads cfg workflow w₀ t i operation w' (next r) := by
  have hstart : Unopposed cfg workflow w₀ t i operation w₀ (.call op next) := by
    rw [hp]
    exact .start hop hidle ht hwaiting
  refine ⟨hstart.step he hr, ⟨i, op, r⟩, ?_, rfl, ?_⟩
  · rw [(World.steps_of_exec he).calls]
    exact List.mem_append_right _ (List.mem_singleton_self _)
  · obtain ⟨rfl, -⟩ := load_of_program hop hp
    have hnone : w₀.writesOf i = [] := by simp [World.writesOf, World.tx?, hidle]
    cases r with
    | error e => cases hr
    | ok found =>
      rw [load_answers hnone he, ht]
      simp [Op.foundWaiting, Op.ticketRead, hwaiting]

/-- A request that begins behind another one finds the ticket decided. -/
theorem Trails.first (h : Leads cfg workflow w₀ t i operation w p) (hd : d ≠ i)
    (ht : w₀.db.tickets.find? t.id = some t) {trailer : Operation} (hop : trailer.DecidesOn t)
    (hp : .call op next = trailer.program cfg workflow d)
    (he : w.exec cfg.platform d op reply = some (r, w')) (hr : op.returned r)
    (hsole : op.foundWaiting t.id r = false) : Trails cfg workflow w₀ t d trailer w' (next r) := by
  obtain ⟨rfl, hobeys⟩ := load_of_program hop hp
  obtain ⟨⟨u, so, -, hshadow, hat, -⟩, -, hgrows⟩ := h.toUnopposed
  cases r with
  | error e => cases hr
  | ok found =>
    have hread := load_answers (hshadow.rivals.writesOf hd) he
    obtain ⟨row, hrow, hid, horganization⟩ := hgrows.tickets t (Table.mem_of_find? ht)
    have hfound : w.db.tickets.find? t.id = some row := by
      have hkey : Framework.Keyed.key row = t.id := hid
      rw [← hkey]
      exact Table.find?_of_mem hrow
    rw [hfound] at hread
    subst hread
    have hdecided : row.status ≠ .waitingApproval := by
      intro hwaiting
      simp [Op.foundWaiting, Op.ticketRead, hwaiting] at hsole
    have hlater : w₀.past.length ≤ w.past.length := by
      rw [← hshadow.past, hat.past, List.length_append]
      omega
    have hversion : w'.versions[w.past.length]? = some w.db :=
      World.getElem?_extended (World.steps_of_exec he).versions World.versions_last
    have hread : (Op.query (.ticket t.id) : Op S).ticketRead t.id (.ok (some row)) = some row := by
      simp [Op.ticketRead]
    exact .late hlater hversion hfound hdecided
      (hobeys.2 (.ok (some row)) (some row) ⟨hr, row, hread, hid, horganization, rfl⟩)

/-- A request that has found the ticket decided only ends its transaction. -/
theorem Trails.step (h : Trails cfg workflow w₀ t d operation w (.call op next))
    (hfresh : .call op next ≠ operation.program cfg workflow d)
    (he : w.exec cfg.platform d op reply = some (r, w')) (hr : op.returned r) :
    op.reads = true ∧ Trails cfg workflow w₀ t d operation w' (next r) := by
  have hs := World.steps_of_exec he
  generalize hq : Program.call op next = q at h hfresh
  cases h with
  | fresh => exact absurd rfl hfresh
  | late later version found decided obeys =>
    subst hq
    refine ⟨obeys.1.resolve_left decided, ?_⟩
    exact .late later (World.getElem?_extended hs.versions version) found decided
      (obeys.2 r _ ⟨hr, rfl⟩)

theorem Running.step (h : Running cfg workflow s₀ t s) (hidle : s₀.world.txs = [])
    (hrest : resting s₀ = true)
    (ht : s₀.world.db.tickets.find? t.id = some t) (hwaiting : t.status = .waitingApproval)
    (hstep : Pool.Steps (server cfg.platform) i reply s s' operation op next r) (hr : op.returned r)
    (hsole : SoleLoad t.id s₀.threads.length i s.world op r s'.world) :
    Running cfg workflow s₀ t s' := by
  obtain ⟨hlength, hold, hrace⟩ := h
  obtain ⟨hthread, hexec, hthreads⟩ := hstep
  have hlen : i < s.threads.length := (List.getElem?_eq_some_iff.mp hthread).1
  have hnew : s₀.threads.length ≤ i := by
    by_contra hlt
    rw [hold i (by omega)] at hthread
    exact resting_thread hrest hthread
  have hself : s'.threads[i]? = some (operation, some (next r)) := by
    rw [hthreads, List.getElem?_set_self hlen]
  have hothers : ∀ d, d ≠ i → s'.threads[d]? = s.threads[d]? := by
    intro d hd
    rw [hthreads, List.getElem?_set_ne (Ne.symm hd)]
  have hs := World.steps_of_exec hexec
  refine ⟨?_, ?_, ?_⟩
  · rw [hthreads, List.length_set]
    exact hlength
  · intro d hd
    rw [hothers d (by omega)]
    exact hold d hd
  · cases hrace with
    | «open» world fresh =>
      obtain ⟨hop, hp⟩ := fresh i operation _ hnew hthread
      rw [world] at hexec
      have hleads := Leads.first hidle ht hwaiting hop (Option.some.inj hp) hexec hr
      refine .led i operation (next r) hnew hself hleads fun d operation' p' hd hne hp' => ?_
      rw [hothers d hne] at hp'
      obtain ⟨hop', rfl⟩ := fresh d operation' p' hd hp'
      exact ⟨hop', _, rfl, .fresh⟩
    | led j leader p new thread leads trails =>
      by_cases hij : i = j
      · subst hij
        rw [hthread] at thread
        cases thread
        refine .led i operation (next r) hnew hself (leads.step hexec hr) fun d operation' p' hd hne hp' => ?_
        rw [hothers d hne] at hp'
        obtain ⟨hop', q, rfl, htrails⟩ := trails d operation' p' hd hne hp'
        exact ⟨hop', q, rfl, htrails.kept hs⟩
      · obtain ⟨hop, q, hq, htrails⟩ := trails i operation _ hnew hij hthread
        cases hq
        have hmoved : op.reads = true ∧
            Trails cfg workflow s₀.world t i operation s'.world (next r) := by
          by_cases hfresh : .call op next = operation.program cfg workflow i
          · have hunseen : op.foundWaiting t.id r = false := by
              obtain ⟨x, hx, hown, hfound⟩ := leads.found
              rw [← Bool.not_eq_true]
              intro hseen
              exact hij ((hsole hseen x hx (hown ▸ new) hfound).symm.trans hown)
            have hload := (load_of_program hop hfresh).1
            exact ⟨by rw [hload]; rfl, Trails.first leads hij ht hop hfresh hexec hr hunseen⟩
          · exact htrails.step hfresh hexec hr
        refine .led j leader p new ?_ (leads.other hij hmoved.1 hexec) fun d operation' p' hd hne hp' => ?_
        · rw [hothers j (Ne.symm hij)]
          exact thread
        · by_cases hdi : d = i
          · subst hdi
            rw [hself] at hp'
            cases hp'
            exact ⟨hop, _, rfl, hmoved.2⟩
          · rw [hothers d hdi] at hp'
            obtain ⟨hop', q, rfl, htrails'⟩ := trails d operation' p' hd hne hp'
            exact ⟨hop', q, rfl, htrails'.kept hs⟩

theorem Running.run (hidle : s₀.world.txs = [])
    (hrest : resting s₀ = true)
    (ht : s₀.world.db.tickets.find? t.id = some t) (hwaiting : t.status = .waitingApproval)
    (hops : ∀ operation ∈ Pool.spawned events, operation.DecidesOn t) (hspared : ∀ i, .kill i ∉ events)
    (hreturned : s.Meets (server cfg.platform) (Operation.program cfg workflow)
      (fun _ _ op r _ => op.returned r) events)
    (hsole : s.Meets (server cfg.platform) (Operation.program cfg workflow)
      (SoleLoad t.id s₀.threads.length) events) (h : Running cfg workflow s₀ t s) :
    Running cfg workflow s₀ t
      (s.run (server cfg.platform) (Operation.program cfg workflow) events) := by
  induction events generalizing s with
  | nil => exact h
  | cons e es ih =>
    have hnext : Running cfg workflow s₀ t
        (s.next (server cfg.platform) (Operation.program cfg workflow) e) := by
      cases e with
      | spawn operation => exact h.spawn (hops operation List.mem_cons_self)
      | step i reply =>
        rcases Pool.step_cases (server cfg.platform) (Operation.program cfg workflow) s i reply with
          hsame | ⟨operation, op, next, r, hstep⟩
        · rw [hsame]
          exact h
        · have hr : op.returned r := hreturned.1 operation op next hstep.thread r _ hstep.exec
          have hload := hsole.1 operation op next hstep.thread r _ hstep.exec
          exact h.step hidle hrest ht hwaiting hstep hr hload
      | kill i => exact absurd List.mem_cons_self (hspared i)
    refine ih ?_ (fun i hi => hspared i (List.mem_cons_of_mem e hi)) hreturned.2 hsole.2 hnext
    intro operation hoperation
    refine hops operation ?_
    rw [Pool.spawned_cons]
    exact List.mem_append_right _ hoperation

theorem not_decidedAs_self : ¬DecidedAs db db t target final := by
  rintro ⟨-, e, he, hnone, -⟩
  rw [show db.ticketEvents.find? e.id = some e from Table.find?_of_mem he] at hnone
  cases hnone

theorem program_ne_ret {res : Except Err Unit} (hop : operation.DecidesOn t)
    (ht : db.tickets.find? t.id = some t) (hwaiting : t.status = .waitingApproval) :
    operation.program cfg workflow d ≠ .ret res := by
  intro hp
  have hobeys := @operation_calm S cfg workflow d _ _ _ hop ht hwaiting
  rw [hp] at hobeys
  exact not_decidedAs_self hobeys.2.1

/-- The request that leads has decided when it ends. -/
theorem Unopposed.ended {res : Except Err Unit}
    (h : Unopposed cfg workflow w₀ t i operation w (.ret res)) :
    res = .ok () ∧ DecidedAs w₀.db w.db t operation.verdict (operation.finalResponse t) ∧
      (∃ own, w.commits = w₀.commits ++ own ∧ own ≠ [] ∧ ∀ k ∈ own, k.session = i) ∧
      (∃ u, (operation.program cfg workflow i).Reaches (server cfg.platform) i w₀ (.ret (.ok ())) u ∧
        u.db = w.db ∧ u.tasks = w.tasks) ∧
      ∀ k v, w₀.past.length ≤ k → w.versions[k]? = some v →
        v = w₀.db ∨ DecidedAs w₀.db v t operation.verdict (operation.finalResponse t) := by
  obtain ⟨⟨u, so, hreaches, hshadow, hat, rfl, hdecided, hversions⟩, ⟨own, heq, hnone, hown⟩, -⟩ := h
  have hdb : so.db = w.db := hat.db.symm.trans hshadow.db
  have hpast : w.past = w₀.past ++ so.past := hshadow.past.symm.trans hat.past
  rw [hdb] at hdecided
  refine ⟨rfl, hdecided, ⟨own, heq, ?_, hown⟩, ⟨u, hreaches, hshadow.db, hshadow.tasks⟩, ?_⟩
  · intro hempty
    rw [hnone hempty] at hdecided
    exact not_decidedAs_self hdecided
  · intro k v hk hv
    rw [World.versions, hpast, List.append_assoc, List.getElem?_append_right hk] at hv
    rcases List.mem_append.mp (List.mem_of_getElem? hv) with hmem | hmem
    · exact hversions v hmem
    · rw [List.mem_singleton.mp hmem]
      exact Or.inr hdecided

end

/-- A pool in which sessions 0 to 3 have drafted an answer for the ticket. -/
def draftedRequests : Requests ℚ :=
  ⟨(deployment .plain helpfulDraft draftedTicket).world,
    List.replicate 4 (.reject ⟨0, 0⟩ ⟨1, 0⟩ ⟨0, 1⟩ none, none)⟩

def bothDecisions : List (Event Operation (Reply ℚ)) :=
  [.spawn (.approve ⟨0, 0⟩ ⟨1, 0⟩ ⟨0, 1⟩ none), .spawn (.reject ⟨0, 0⟩ ⟨1, 0⟩ ⟨0, 1⟩ (some "no"))]

def approveThenReject : List (Event Operation (Reply ℚ)) :=
  bothDecisions ++ List.replicate 12 (.step 4 .plain) ++ List.replicate 6 (.step 5 .plain)

theorem decidesOn_draftedTicket {t : Ticket}
    (ht : draftedRequests.world.db.tickets.find? ⟨1, 0⟩ = some t) :
    t.id = ⟨1, 0⟩ ∧ t.status = .waitingApproval ∧
      ∀ operation ∈ Pool.spawned bothDecisions, operation.DecidesOn t := by
  have hrow : (draftedRequests.world.db.tickets.find? ⟨1, 0⟩).all (fun t => t.id == ⟨1, 0⟩ &&
      t.organizationId == ⟨0, 0⟩ && t.status == .waitingApproval &&
        !isBlank (TicketService.finalOf t none)) = true := by decide +kernel
  rw [ht] at hrow
  simp only [Option.all_some, Bool.and_eq_true, beq_iff_eq, Bool.not_eq_true'] at hrow
  obtain ⟨⟨⟨hid, horganization⟩, hwaiting⟩, hanswer⟩ := hrow
  refine ⟨hid, hwaiting, fun operation hoperation => ?_⟩
  have hcases : operation = .approve t.organizationId t.id ⟨0, 1⟩ none ∨
      operation = .reject t.organizationId t.id ⟨0, 1⟩ (some "no") := by
    rw [hid, horganization]
    simpa [bothDecisions, Pool.spawned] using hoperation
  rcases hcases with rfl | rfl
  · exact .approve _ _ hanswer
  · exact .reject _ _

/-- A rejection that has loaded the ticket before the approval commits is not refused. -/
example : ((draftedRequests.run (server .plain) (Operation.program .plain helpfulDraft)
    (bothDecisions ++ .step 5 .plain :: List.replicate 12 (.step 4 .plain) ++
      List.replicate 8 (.step 5 .plain))).threads.drop 4).all (fun x =>
        match x.2 with
        | some (.ret r) => r.isOk
        | _ => false) = true := by decide +kernel

end AgentDesk
