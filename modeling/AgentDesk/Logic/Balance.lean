import AgentDesk.Logic.Routine

namespace AgentDesk

variable {S α : Type} {cfg : Config S} {cs : List (Made S)} {new : List (Row S)}

/-! What is recorded together -/

/-- An entry of the audit log that a fact about a ticket calls for, or the mark of a draft that a
human changed. -/
inductive Entry where
  | audit (event : AuditEvent) (organizationId : Option Uuid) (targetType targetId : Option String)
  | edit (ticketId : Uuid)
  deriving DecidableEq

/-- The entry for an event of a ticket. -/
def Entry.of (event : AuditEvent) (organizationId ticketId : Uuid) : Entry :=
  .audit event (some organizationId) (some "ticket") (some ticketId.str)

/-- What a history event calls for. -/
def TicketEvent.due (e : TicketEvent) : List Entry :=
  if e.eventType = "created" then [.of .ticketCreated e.organizationId e.ticketId]
  else if e.eventType = "approved" then [.of .responseApproved e.organizationId e.ticketId]
  else if e.eventType = "rejected" then [.of .responseRejected e.organizationId e.ticketId]
  else if e.eventType = "agent_run" then
    .of .retrievalCompleted e.organizationId e.ticketId ::
      .of .draftGenerated e.organizationId e.ticketId ::
        if e.toStatus = some .escalated then [.of .ticketEscalated e.organizationId e.ticketId]
        else []
  else if e.eventType = "edited" then [.edit e.ticketId]
  else []

/-- The entry that an audit row makes. -/
def AuditLog.paid (a : AuditLog) : List Entry :=
  if a.event.isFact then [.audit a.event a.organizationId a.targetType a.targetId] else []

def Row.due : Row S → List Entry
  | .ticketEvent e => e.due
  | .agentRun r => [.of .agentRunStarted r.organizationId r.ticketId]
  | _ => []

def Row.paid : Row S → List Entry
  | .auditLog a => a.paid
  | _ => []

def Write.due : Write S → List Entry
  | .insert row => row.due
  | _ => []

def Write.paid : Write S → List Entry
  | .insert row => row.paid
  | _ => []

/-- What a session has open: the statements of its transaction and the rows that it has not
flushed. -/
def opened (new : List (Row S)) (cs : List (Made S)) : List (Write S) :=
  (Book.ofCalls cs).pending ++ new.map .insert

/-- These entries are due and these are made in what the session has open. -/
structure Owing (due paid : List Entry) (new : List (Row S)) (cs : List (Made S)) : Prop where
  due : (opened new cs).flatMap Write.due = due
  paid : (opened new cs).flatMap Write.paid = paid

/-- The session has made all the entries that are due. -/
def Even (new : List (Row S)) (cs : List (Made S)) : Prop :=
  (opened new cs).flatMap Write.due = (opened new cs).flatMap Write.paid

theorem Owing.even {es : List Entry} (h : Owing es es new cs) : Even new cs := h.due.trans h.paid.symm

theorem Owing.add {due paid : List Entry} (h : Owing due paid new cs) (row : Row S) :
    Owing (due ++ row.due) (paid ++ row.paid) (new ++ [row]) cs := by
  obtain ⟨rfl, rfl⟩ := h
  constructor <;> simp [opened, Write.due, Write.paid]

theorem even_start : Even ([] : List (Row S)) [] := rfl

theorem Even.add {row : Row S} (h : Even new cs) (hrow : row.due = row.paid) :
    Even (new ++ [row]) cs := by
  unfold Even opened at h ⊢
  simp only [List.map_append, List.flatMap_append] at h ⊢
  rw [← List.append_assoc, ← List.append_assoc, h]
  simp [Write.due, Write.paid, hrow]

theorem plain_due {row : Row S} (h : row.isPlain = true) : row.due = row.paid := by
  cases row with
  | auditLog a =>
    have hfact : a.event.isFact = false := by simpa [Row.isPlain] using h
    simp [Row.due, Row.paid, AuditLog.paid, hfact]
  | ticketEvent e => cases h
  | agentRun r => cases h
  | _ => rfl

theorem Reading.opened {cs' : List (Made S)} (h : Reading cs cs') :
    AgentDesk.opened new cs' = AgentDesk.opened new cs := by
  unfold AgentDesk.opened
  rw [h.books]

theorem Reading.even {cs' : List (Made S)} (h : Reading cs cs') (heven : Even new cs) :
    Even new cs' := by
  unfold Even
  rw [h.opened]
  exact heven

@[simp] theorem opened_commit (u : Unit) :
    opened ([] : List (Row S)) (cs ++ [⟨.commit, .ok u⟩]) = [] := by
  rw [opened, Book.ofCalls_snoc]
  rfl

@[simp] theorem opened_rollback (r : Except Err Unit) :
    opened ([] : List (Row S)) (cs ++ [⟨.rollback, r⟩]) = [] := by
  rw [opened, Book.ofCalls_snoc]
  rfl

/-- What a flush sends is due and made as before. -/
theorem opened_flush {σ : Session S} {f : Write S → List Entry}
    (hf : ∀ x, (∀ row, x ≠ .insert row) → f x = []) :
    (opened [] (cs ++ [⟨.write σ.pending, .ok ()⟩])).flatMap f = (opened σ.new cs).flatMap f := by
  have hnone : ∀ {ρ : Type} (g : ρ → Option (Write S)) (xs : List ρ),
      (∀ o x, g o = some x → ∀ row, x ≠ .insert row) → (xs.filterMap g).flatMap f = [] := by
    intro ρ g xs hg
    refine List.flatMap_eq_nil_iff.mpr fun x hx => ?_
    obtain ⟨o, -, ho⟩ := List.mem_filterMap.mp hx
    exact hf x (hg o x ho)
  have htickets := hnone (@dirtyTicket S) σ.tickets fun o x ho row hx => by
    obtain h | h := @dirtyTicket_cases S o.loaded o.cur <;> rw [h] at ho <;> cases ho
    cases hx
  have hruns := hnone (@dirtyAgentRun S) σ.agentRuns fun o x ho row hx => by
    obtain h | h := @dirtyAgentRun_cases S o.loaded o.cur <;> rw [h] at ho <;> cases ho
    cases hx
  have hwebhooks := hnone (@dirtyWebhook S) σ.webhooks fun o x ho row hx => by
    obtain h | h := @dirtyWebhook_cases S o.loaded o.cur <;> rw [h] at ho <;> cases ho
    cases hx
  have hdeliveries := hnone (@dirtyDelivery S) σ.deliveries fun o x ho row hx => by
    simp only [dirtyDelivery] at ho
    split at ho <;> cases ho
    cases hx
  rw [opened, Book.ofCalls_snoc]
  simp only [opened, Book.note, Session.pending, List.flatMap_append, htickets, hruns, hwebhooks,
    hdeliveries, List.map_nil, List.nil_append, List.append_nil]

/-! Coroutines that keep the session even -/

/-- A demand on commits that an even session meets. -/
def MetWhenEven (D : List (Made S) → Prop) : Prop := ∀ cs, Even ([] : List (Row S)) cs → D cs

section

variable {D : List (Made S) → Prop} {σ : Session S}

theorem Owing.write {due paid : List Entry} (h : Owing due paid σ.new cs) :
    Owing due paid [] (cs ++ [⟨.write σ.pending, .ok ()⟩]) := by
  constructor
  · rw [opened_flush fun x hx => ?_]
    · exact h.due
    · cases x with
      | insert row => exact absurd rfl (hx row)
      | _ => rfl
  · rw [opened_flush fun x hx => ?_]
    · exact h.paid
    · cases x with
      | insert row => exact absurd rfl (hx row)
      | _ => rfl

/-- What the endpoints do as a matter of routine keeps a session even. -/
theorem routine_even (hD : MetWhenEven D) : Routine D fun (σ : Session S) cs => Even σ.new cs where
  same heven _ _ hnew := by
    rw [hnew]
    exact heven
  read heven hreading := hreading.even heven
  plain heven hrow := heven.add (plain_due hrow)
  write heven := by
    rw [flushed_new]
    have howing : Owing _ _ _ _ := ⟨heven, rfl⟩
    exact howing.write.even
  send heven hnew := by
    rw [hnew] at heven ⊢
    refine ⟨hD _ heven, ?_⟩
    unfold Even
    rw [opened_commit]
    rfl

theorem aloof_even : Aloof fun (σ : Session S) cs => Even σ.new cs where
  deliveries _ heven := heven
  delivery _ heven := heven.add rfl
  post {_ cs} url body headers r heven := by
    have hbooks : Book.ofCalls (cs ++ [⟨.post url body headers, r⟩]) = Book.ofCalls cs :=
      Book.ofCalls_snoc _ _
    unfold Even opened at heven ⊢
    rw [hbooks]
    exact heven

theorem flush_owing {due paid : List Entry} (h : Owing due paid σ.new cs) :
    (flush : M S Unit).Triple (atCommit D)
      (fun _ σ' cs' => (σ' = σ ∨ σ' = σ.flushed) ∧ σ'.new = [] ∧ Owing due paid [] cs')
      (fun _ _ _ => True) σ cs := by
  rw [triple_flush]
  cases hpending : σ.pending with
  | nil =>
    have hnew : σ.new = [] := List.map_eq_nil_iff.mp (List.append_eq_nil_iff.mp hpending).2
    rw [flushes_nil]
    rw [hnew] at h
    exact ⟨Or.inl rfl, hnew, h⟩
  | cons x ws =>
    rw [← hpending, flushes_of_ne_nil (by rw [hpending]; exact List.cons_ne_nil x ws)]
    refine ⟨trivial, fun _ _ _ => trivial, ?_⟩
    rintro cs' ⟨-, rfl⟩
    exact ⟨Or.inr rfl, flushed_new σ, h.write⟩

/-- The coroutine keeps the session even. -/
abbrev M.Evens (D : List (Made S) → Prop) (p : M S α) : Prop :=
  p.Keeps D fun σ cs => Even σ.new cs

theorem getAgentRun_evens (id : Uuid) : (getAgentRun id : M S _).Evens D := by
  intro σ cs heven
  simp
  exact ⟨fun _ _ => heven, fun _ =>
    ⟨(reading_query .refl _ _).even heven, fun _ _ => (reading_query .refl _ _).even heven⟩⟩

theorem refreshAgentRun_evens (id : Uuid) : (refreshAgentRun id : M S _).Evens D := by
  intro σ cs heven
  simp [Session.putAgentRun]
  exact fun _ _ => (reading_query .refl _ _).even heven

/-- After a rollback the session is even. -/
theorem rollback_evens {p : M S α} (hp : p.Evens D) (σ : Session S) (cs : List (Made S)) :
    (do rollback; p : M S α).Triple (atCommit D) (fun _ σ' cs' => Even σ'.new cs')
      (fun _ _ _ => True) σ cs := by
  rw [M.triple_bind, triple_rollback]
  refine ⟨trivial, fun _ _ _ => trivial, ?_⟩
  rintro u cs' ⟨-, rfl⟩
  have heven : Even σ.expired.new (cs ++ [⟨.rollback, .ok u⟩]) := by
    unfold Even Session.expired
    rw [opened_rollback]
    rfl
  exact hp _ _ heven

end

end AgentDesk
