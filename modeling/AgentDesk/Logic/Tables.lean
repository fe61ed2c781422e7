import AgentDesk.Logic.Ledger

namespace AgentDesk

open Framework (Table)

variable {S : Type} {start now : Time} {db db' : DB S} {c d : Nat}

/-! The keys that are in use -/

/-- The statement creates a row under this key. -/
def Write.creates : Write S → Row S → Bool
  | .insert (.organization o), .organization r => o.id == r.id
  | .insert (.user u), .user r => u.id == r.id
  | .insert (.ticket t), .ticket r => t.id == r.id
  | .insert (.ticketEvent e), .ticketEvent r => e.id == r.id
  | .insert (.auditLog a), .auditLog r => a.id == r.id
  | .insert (.agentRun x), .agentRun r => x.id == r.id
  | .insert (.webhook w), .webhook r => w.id == r.id
  | .insert (.delivery d), .delivery r => d.id == r.id
  | .insert (.document d), .document r => d.id == r.id
  | .insert (.chunk x), .chunk r => x.id == r.id
  | _, _ => false

theorem isSome_insert {ρ κ : Type} [Framework.Keyed ρ κ] [DecidableEq κ] (t : Table ρ) (r : ρ)
    (k : κ) :
    ((t.insert r).find? k).isSome = ((t.find? k).isSome || Framework.Keyed.key r == k) := by
  rw [Table.find?_insert]
  by_cases h : Framework.Keyed.key r = k <;> simp [h]

theorem isSome_update {ρ κ : Type} [Framework.Keyed ρ κ] [DecidableEq κ] (t : Table ρ) (j k : κ)
    (f : ρ → ρ) (hf : ∀ r, Framework.Keyed.key (f r) = Framework.Keyed.key r) :
    ((t.update k f hf).find? j).isSome = (t.find? j).isSome := by
  rw [Table.find?_update]
  by_cases h : j = k <;> simp [h]

theorem isPresent_apply (x : Write S) (row : Row S) :
    row.isPresent (x.apply start db) = (row.isPresent db || x.creates row) := by
  cases x with
  | insert new =>
    cases new <;> cases row <;>
      simp [Write.apply, Row.insert, Row.isPresent, Write.creates, isSome_insert] <;> rfl
  | updateTicket id p =>
    cases row <;> simp only [Write.creates, Bool.or_false]
    case ticket t =>
      exact isSome_update db.tickets t.id id (fun t => { p.apply t with updatedAt := start })
        fun _ => rfl
    all_goals rfl
  | updateAgentRun id p =>
    cases row <;> simp only [Write.creates, Bool.or_false]
    case agentRun r => exact isSome_update db.agentRuns r.id id p.apply fun _ => rfl
    all_goals rfl
  | updateWebhook id p =>
    cases row <;> simp only [Write.creates, Bool.or_false]
    case webhook w => exact isSome_update db.webhooks w.id id p.apply fun _ => rfl
    all_goals rfl
  | updateDelivery id p =>
    cases row <;> simp only [Write.creates, Bool.or_false]
    case delivery d => exact isSome_update db.webhookDeliveries d.id id p.apply fun _ => rfl
    all_goals rfl

theorem creates_session {x : Write S} {row : Row S} (h : x.creates row = true) :
    ∃ new, x = .insert new ∧ new.id = row.id := by
  cases x with
  | insert new =>
    refine ⟨new, rfl, ?_⟩
    cases new <;> cases row <;> first | exact eq_of_beq h | exact Bool.noConfusion h
  | _ => cases row <;> exact Bool.noConfusion h

/-- The two states have the same rows under the keys that session `c` drew. -/
def SameFor (c : Nat) (db db' : DB S) : Prop :=
  ∀ row : Row S, row.id.session = c → row.isPresent db' = row.isPresent db

theorem SameFor.refl (c : Nat) (db : DB S) : SameFor c db db := fun _ _ => rfl

@[simp] theorem ownIds_nil : World.ownIds c ([] : List (Write S)) = true := rfl

theorem ownIds_cons {x : Write S} {ws : List (Write S)} :
    World.ownIds c (x :: ws) = true ↔
      (∀ row, x = .insert row → row.id.session = c) ∧ World.ownIds c ws = true := by
  cases x <;> simp [World.ownIds]

theorem ownIds_append {xs ys : List (Write S)} :
    World.ownIds c (xs ++ ys) = true ↔ World.ownIds c xs = true ∧ World.ownIds c ys = true := by
  simp [World.ownIds, List.all_append]

theorem sameFor_applyAll {ws : List (Write S)} (hown : World.ownIds d ws = true) (hne : c ≠ d) :
    SameFor c db (applyAll start db ws) := by
  induction ws generalizing db with
  | nil => exact .refl c db
  | cons x ws ih =>
    obtain ⟨hx, hws⟩ := ownIds_cons.mp hown
    intro row hrow
    rw [applyAll_cons, ih hws row hrow, isPresent_apply]
    have hnot : x.creates row = false := by
      by_contra h
      obtain ⟨new, rfl, hid⟩ := creates_session (by simpa using h)
      exact hne (by rw [← hrow, ← hid, hx new rfl])
    simp [hnot]

/-- Every row that the statements create is new when its turn comes. -/
def Absent (start : Time) : DB S → List (Write S) → Prop
  | _, [] => True
  | db, x :: ws =>
    (∀ row, x = .insert row → row.isPresent db = false) ∧ Absent start (x.apply start db) ws

theorem absent_append {xs ys : List (Write S)} :
    Absent start db (xs ++ ys) ↔ Absent start db xs ∧ Absent start (applyAll start db xs) ys := by
  induction xs generalizing db with
  | nil => simp [Absent]
  | cons x xs ih => simp only [List.cons_append, Absent, ih, applyAll_cons, and_assoc]

theorem isPresent_of_absent {ws : List (Write S)} {row : Row S} (h : Absent start db ws)
    (hrow : .insert row ∈ ws) : row.isPresent db = false := by
  induction ws generalizing db with
  | nil => cases hrow
  | cons x ws ih =>
    obtain rfl | hmem := List.mem_cons.mp hrow
    · exact h.1 row rfl
    · have := ih h.2 hmem
      rw [isPresent_apply, Bool.or_eq_false_iff] at this
      exact this.1

theorem absent_of_violatesAny {ws : List (Write S)} (h : violatesAny start db ws = false) :
    Absent start db ws := by
  induction ws generalizing db with
  | nil => trivial
  | cons x ws ih =>
    simp only [violatesAny, Bool.or_eq_false_iff] at h
    refine ⟨?_, ih h.2⟩
    rintro row rfl
    exact (Bool.or_eq_false_iff.mp h.1).1

theorem absent_congr {ws : List (Write S)} (hown : World.ownIds c ws = true)
    (hsame : SameFor c db db') (h : Absent start db ws) : Absent start db' ws := by
  induction ws generalizing db db' with
  | nil => trivial
  | cons x ws ih =>
    obtain ⟨hx, hws⟩ := ownIds_cons.mp hown
    refine ⟨?_, ih hws ?_ h.2⟩
    · rintro row rfl
      rw [hsame row (hx row rfl)]
      exact h.1 row rfl
    · intro row hrow
      rw [isPresent_apply, isPresent_apply, hsame row hrow]

theorem mem_updateTicket {id : Uuid} {p : TicketPatch} {t : Ticket} :
    t ∈ ((Write.updateTicket id p).apply start db).tickets.rows ↔
      (t ∈ db.tickets.rows ∧ t.id ≠ id) ∨
        ∃ y ∈ db.tickets.rows, y.id = id ∧ t = { p.apply y with updatedAt := start } :=
  @Table.mem_update _ _ _ _ db.tickets id (fun t => { p.apply t with updatedAt := start })
    (fun _ => rfl) t

theorem find?_updateTicket {t : Ticket} {p : TicketPatch} (h : db.tickets.find? t.id = some t) :
    (Write.apply start db (.updateTicket t.id p)).tickets.find? t.id =
      some { p.apply t with updatedAt := start } := by
  change (db.tickets.update t.id (fun t => { p.apply t with updatedAt := start })
    fun _ => rfl).find? t.id = _
  rw [Table.find?_update (f := fun t => { p.apply t with updatedAt := start }) fun _ => rfl,
    if_pos rfl, h]
  rfl

/-- The statement renews this ticket. -/
def Write.renews (id : Uuid) : Write S → Bool
  | .insert (.ticket t) => t.id == id
  | .updateTicket id' _ => id' == id
  | _ => false

/-- A ticket that a statement does not renew stays as it is. -/
theorem find?_of_not_renews {id : Uuid} {x : Write S} (h : x.renews id = false) :
    (x.apply start db).tickets.find? id = db.tickets.find? id := by
  cases x with
  | insert row =>
    cases row with
    | ticket t =>
      have hne : t.id ≠ id := by simpa [Write.renews] using h
      change (db.tickets.insert { t with createdAt := start, updatedAt := start }).find? id = _
      rw [Table.find?_insert]
      exact (congrArg _ (if_neg hne)).trans Option.or_none
    | _ => rfl
  | updateTicket id' p =>
    have hne : id ≠ id' := Ne.symm (by simpa [Write.renews] using h)
    exact Table.find?_update_ne (f := fun t => { p.apply t with updatedAt := start })
      (fun _ => rfl) hne
  | _ => rfl

/-! The rows that a statement may return first -/

theorem mem_of_pickFrom {ρ : Type} {pick : Nat} {rows : List ρ} {r : ρ}
    (h : pickFrom pick rows = some r) : r ∈ rows := by
  unfold pickFrom at h
  cases hp : rows[pick]? with
  | some x =>
    rw [hp] at h
    cases h
    exact List.mem_of_getElem? hp
  | none =>
    rw [hp] at h
    exact List.mem_of_mem_head? h

theorem pickFrom_eq_none {ρ : Type} {pick : Nat} {rows : List ρ} :
    pickFrom pick rows = none ↔ rows = [] := by
  cases rows with
  | nil => simp [pickFrom]
  | cons r rows => cases h : (r :: rows)[pick]? <;> simp [pickFrom, h]

/-! What never disappears -/

/-- Rows are never deleted, and the columns that tie a row to its organization never change. -/
structure DB.Grows (db db' : DB S) : Prop where
  users : ∀ u ∈ db.users.rows, u ∈ db'.users.rows
  ticketEvents : ∀ e ∈ db.ticketEvents.rows, e ∈ db'.ticketEvents.rows
  auditLogs : ∀ a ∈ db.auditLogs.rows, a ∈ db'.auditLogs.rows
  documents : ∀ d ∈ db.documents.rows, d ∈ db'.documents.rows
  tickets : ∀ t ∈ db.tickets.rows, ∃ t' ∈ db'.tickets.rows,
    t'.id = t.id ∧ t'.organizationId = t.organizationId
  webhooks : ∀ w ∈ db.webhooks.rows, ∃ w' ∈ db'.webhooks.rows,
    w'.id = w.id ∧ w'.organizationId = w.organizationId

namespace DB

theorem Grows.refl (db : DB S) : db.Grows db :=
  ⟨fun _ h => h, fun _ h => h, fun _ h => h, fun _ h => h, fun t h => ⟨t, h, rfl, rfl⟩,
    fun w h => ⟨w, h, rfl, rfl⟩⟩

theorem Grows.trans {db₁ db₂ db₃ : DB S} (h : db₁.Grows db₂) (k : db₂.Grows db₃) :
    db₁.Grows db₃ := by
  refine ⟨fun _ hm => k.users _ (h.users _ hm),
    fun _ hm => k.ticketEvents _ (h.ticketEvents _ hm),
    fun _ hm => k.auditLogs _ (h.auditLogs _ hm),
    fun _ hm => k.documents _ (h.documents _ hm), ?_, ?_⟩
  · intro t ht
    obtain ⟨t₂, h₂, hid, horg⟩ := h.tickets t ht
    obtain ⟨t₃, h₃, hid', horg'⟩ := k.tickets t₂ h₂
    exact ⟨t₃, h₃, hid'.trans hid, horg'.trans horg⟩
  · intro w hw
    obtain ⟨w₂, h₂, hid, horg⟩ := h.webhooks w hw
    obtain ⟨w₃, h₃, hid', horg'⟩ := k.webhooks w₂ h₂
    exact ⟨w₃, h₃, hid'.trans hid, horg'.trans horg⟩

theorem grows_apply (x : Write S) : db.Grows (x.apply start db) := by
  have keeps : ∀ {ρ κ : Type} [Framework.Keyed ρ κ] [DecidableEq κ] (t : Table ρ) (r : ρ)
      {β γ : Type} (f : ρ → β) (g : ρ → γ),
      ∀ a ∈ t.rows, ∃ b ∈ (t.insert r).rows, f b = f a ∧ g b = g a :=
    fun t r _ _ f g a ha => ⟨a, Table.mem_insert_of_mem ha, rfl, rfl⟩
  cases x with
  | insert row =>
    cases row <;> refine ⟨?_, ?_, ?_, ?_, ?_, ?_⟩ <;>
      first
      | exact fun _ h => h
      | exact fun _ h => Table.mem_insert_of_mem h
      | exact fun a h => ⟨a, h, rfl, rfl⟩
      | exact keeps _ _ _ _
  | updateTicket id p =>
    refine ⟨fun _ h => h, fun _ h => h, fun _ h => h, fun _ h => h, ?_,
      fun a h => ⟨a, h, rfl, rfl⟩⟩
    intro t ht
    refine ⟨if t.id = id then { p.apply t with updatedAt := start } else t,
      List.mem_map.mpr ⟨t, ht, rfl⟩, ?_, ?_⟩ <;> split <;> rfl
  | updateWebhook id p =>
    refine ⟨fun _ h => h, fun _ h => h, fun _ h => h, fun _ h => h,
      fun a h => ⟨a, h, rfl, rfl⟩, ?_⟩
    intro w hw
    refine ⟨if w.id = id then p.apply w else w, List.mem_map.mpr ⟨w, hw, rfl⟩, ?_, ?_⟩ <;>
      split <;> rfl
  | updateAgentRun id p =>
    exact ⟨fun _ h => h, fun _ h => h, fun _ h => h, fun _ h => h, fun a h => ⟨a, h, rfl, rfl⟩,
      fun a h => ⟨a, h, rfl, rfl⟩⟩
  | updateDelivery id p =>
    exact ⟨fun _ h => h, fun _ h => h, fun _ h => h, fun _ h => h, fun a h => ⟨a, h, rfl, rfl⟩,
      fun a h => ⟨a, h, rfl, rfl⟩⟩

theorem grows_applyAll (ws : List (Write S)) : db.Grows (applyAll start db ws) := by
  induction ws generalizing db with
  | nil => exact .refl db
  | cons x ws ih => exact (grows_apply x).trans ih

end DB

/-- The row was created and is there, up to the columns that change later. -/
def Row.Stored (start : Time) (db : DB S) : Row S → Prop
  | .ticketEvent e => { e with createdAt := start } ∈ db.ticketEvents.rows
  | .auditLog a => { a with createdAt := start } ∈ db.auditLogs.rows
  | .document d => { d with createdAt := start } ∈ db.documents.rows
  | .ticket t => ∃ t' ∈ db.tickets.rows, t'.id = t.id ∧ t'.organizationId = t.organizationId
  | _ => True

theorem Row.Stored.grows {row : Row S} (h : row.Stored start db) (hg : db.Grows db') :
    row.Stored start db' := by
  cases row with
  | ticketEvent e => exact hg.ticketEvents _ h
  | auditLog a => exact hg.auditLogs _ h
  | document d => exact hg.documents _ h
  | ticket t =>
    obtain ⟨t₁, h₁, hid, horg⟩ := h
    obtain ⟨t₂, h₂, hid', horg'⟩ := hg.tickets t₁ h₁
    exact ⟨t₂, h₂, hid'.trans hid, horg'.trans horg⟩
  | _ => trivial

theorem stored_insert {row : Row S} (h : row.isPresent db = false) :
    row.Stored start (row.insert start db) := by
  have mem : ∀ {ρ κ : Type} [Framework.Keyed ρ κ] [DecidableEq κ] {t : Table ρ} (r : ρ),
      (t.find? (Framework.Keyed.key r)).isSome = false → r ∈ (t.insert r).rows :=
    fun r hr => Table.mem_insert_self (by simpa using hr)
  cases row with
  | ticketEvent e => exact mem (t := db.ticketEvents) { e with createdAt := start } h
  | auditLog a => exact mem (t := db.auditLogs) { a with createdAt := start } h
  | document d => exact mem (t := db.documents) { d with createdAt := start } h
  | ticket t =>
    exact ⟨_, mem (t := db.tickets) { t with createdAt := start, updatedAt := start } h, rfl, rfl⟩
  | _ => trivial

/-- What holds before a transaction and survives each of its statements holds after it. -/
theorem applyAll_induction {K : DB S → Prop} {ws : List (Write S)} (h : K db)
    (step : ∀ x ∈ ws, ∀ db, K db → K (x.apply start db)) : K (applyAll start db ws) := by
  induction ws generalizing db with
  | nil => exact h
  | cons x ws ih =>
    exact ih (step x (.head ws) db h) fun y hy => step y (.tail x hy)

/-- What a transaction inserted is there once it is committed. -/
theorem stored_of_mem {ws : List (Write S)} {row : Row S} (h : Absent start db ws)
    (hrow : .insert row ∈ ws) : row.Stored start (applyAll start db ws) := by
  induction ws generalizing db with
  | nil => cases hrow
  | cons x ws ih =>
    rw [applyAll_cons]
    obtain rfl | hmem := List.mem_cons.mp hrow
    · exact (stored_insert (h.1 row rfl)).grows (DB.grows_applyAll ws)
    · exact ih h.2 hmem

end AgentDesk
