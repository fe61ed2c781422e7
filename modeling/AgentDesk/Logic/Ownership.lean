import AgentDesk.Logic.Provenance

namespace AgentDesk

open Framework (Table)

/-! The organization of a row -/

inductive Entity where
  | organization | user | ticket | ticketEvent | auditLog | agentRun | webhook | delivery | document
  | chunk
  deriving DecidableEq

/-- A table and a primary key in it. -/
structure RowKey where
  entity : Entity
  id : Uuid
  deriving DecidableEq

variable {S : Type} {cfg : Config S} {jobs : Nat → Option Job} {C : List (DB S) → Commit S → Prop}
  {w : World S} {db db' : DB S} {start : Time} {k : RowKey}

def Row.entity : Row S → Entity
  | .organization _ => .organization
  | .user _ => .user
  | .ticket _ => .ticket
  | .ticketEvent _ => .ticketEvent
  | .auditLog _ => .auditLog
  | .agentRun _ => .agentRun
  | .webhook _ => .webhook
  | .delivery _ => .delivery
  | .document _ => .document
  | .chunk _ => .chunk

def Row.key (row : Row S) : RowKey := ⟨row.entity, row.id⟩

/-- Where a row is filed: its organization, which the audit row of a failed login lacks, and the row
that it belongs to. -/
structure Place where
  organization? : Option Uuid
  parent? : Option RowKey
  deriving DecidableEq

/-- Events and runs belong to tickets, deliveries to webhooks and passages to documents. -/
def Row.place : Row S → Place
  | .organization o => ⟨some o.id, none⟩
  | .user u => ⟨some u.organizationId, none⟩
  | .ticket t => ⟨some t.organizationId, none⟩
  | .ticketEvent e => ⟨some e.organizationId, some ⟨.ticket, e.ticketId⟩⟩
  | .auditLog a => ⟨a.organizationId, none⟩
  | .agentRun r => ⟨some r.organizationId, some ⟨.ticket, r.ticketId⟩⟩
  | .webhook v => ⟨some v.organizationId, none⟩
  | .delivery d => ⟨some d.organizationId, some ⟨.webhook, d.webhookId⟩⟩
  | .document d => ⟨some d.organizationId, none⟩
  | .chunk x => ⟨some x.organizationId, some ⟨.document, x.documentId⟩⟩

/-- The row under a key. -/
def DB.row? (db : DB S) (k : RowKey) : Option (Row S) :=
  match k.entity with
  | .organization => (db.organizations.find? k.id).map .organization
  | .user => (db.users.find? k.id).map .user
  | .ticket => (db.tickets.find? k.id).map .ticket
  | .ticketEvent => (db.ticketEvents.find? k.id).map .ticketEvent
  | .auditLog => (db.auditLogs.find? k.id).map .auditLog
  | .agentRun => (db.agentRuns.find? k.id).map .agentRun
  | .webhook => (db.webhooks.find? k.id).map .webhook
  | .delivery => (db.webhookDeliveries.find? k.id).map .delivery
  | .document => (db.documents.find? k.id).map .document
  | .chunk => (db.documentChunks.find? k.id).map .chunk

def DB.placeOf (db : DB S) (k : RowKey) : Option Place := (db.row? k).map Row.place

/-- Every row that belongs to another one is filed under the organization of that one. -/
def DB.Housed (db : DB S) : Prop :=
  ∀ k place parent, db.placeOf k = some place → place.parent? = some parent →
    ∃ place', db.placeOf parent = some place' ∧ place'.organization? = place.organization?

def Write.adds (k : RowKey) : Write S → Option Place
  | .insert row => if row.key = k then some row.place else none
  | _ => none

theorem find?_insert_map {ρ κ β : Type} [Framework.Keyed ρ κ] [DecidableEq κ] {t : Table ρ} {r : ρ}
    {id : κ} (f : ρ → β) : ((t.insert r).find? id).map f =
      ((t.find? id).map f).or (if Framework.Keyed.key r = id then some (f r) else none) := by
  rw [Table.find?_insert]
  cases t.find? id with
  | none =>
    by_cases h : Framework.Keyed.key r = id
    · simp [h]
    · simp [h]
  | some x => rfl

theorem find?_update_map {ρ κ β : Type} [Framework.Keyed ρ κ] [DecidableEq κ] {t : Table ρ} {id id' : κ}
    {f : ρ → ρ} {g : ρ → β} (hf : ∀ r, Framework.Keyed.key (f r) = Framework.Keyed.key r)
    (hg : ∀ r, g (f r) = g r) : ((t.update id f hf).find? id').map g = (t.find? id').map g := by
  rw [Table.find?_update]
  by_cases h : id' = id
  · subst h
    have hcomp : g ∘ f = g := funext hg
    rw [if_pos rfl, Option.map_map, hcomp]
  · rw [if_neg h]

theorem placeOf_insert (row : Row S) : (row.insert start db).placeOf k =
    (db.placeOf k).or (if row.key = k then some row.place else none) := by
  obtain ⟨entity, id⟩ := k
  cases row <;> cases entity <;>
    simp only [DB.placeOf, DB.row?, Row.insert, Row.key, Row.entity, Row.id, Row.place,
      Option.map_map, RowKey.mk.injEq, true_and, false_and, if_false, Option.or_none, reduceCtorEq] <;>
    exact find?_insert_map _

theorem placeOf_apply (x : Write S) :
    (x.apply start db).placeOf k = (db.placeOf k).or (x.adds k) := by
  obtain ⟨entity, id⟩ := k
  cases x with
  | insert row => exact placeOf_insert row
  | updateTicket id' p =>
    cases entity <;> simp only [Write.adds, Option.or_none]
    case ticket =>
      simp only [DB.placeOf, DB.row?, Option.map_map]
      exact find?_update_map (f := fun t => { p.apply t with updatedAt := start }) (fun _ => rfl)
        fun _ => rfl
    all_goals rfl
  | updateAgentRun id' p =>
    cases entity <;> simp only [Write.adds, Option.or_none]
    case agentRun =>
      simp only [DB.placeOf, DB.row?, Option.map_map]
      exact find?_update_map (f := p.apply) (fun _ => rfl) fun _ => rfl
    all_goals rfl
  | updateWebhook id' p =>
    cases entity <;> simp only [Write.adds, Option.or_none]
    case webhook =>
      simp only [DB.placeOf, DB.row?, Option.map_map]
      exact find?_update_map (f := p.apply) (fun _ => rfl) fun _ => rfl
    all_goals rfl
  | updateDelivery id' p =>
    cases entity <;> simp only [Write.adds, Option.or_none]
    case delivery =>
      simp only [DB.placeOf, DB.row?, Option.map_map]
      exact find?_update_map (f := p.apply) (fun _ => rfl) fun _ => rfl
    all_goals rfl

theorem isPresent_eq (row : Row S) : row.isPresent db = (db.placeOf row.key).isSome := by
  cases row <;>
    simp only [Row.isPresent, DB.placeOf, DB.row?, Row.key, Row.entity, Row.id, Option.isSome_map]

/-- A row stays with its organization. -/
theorem placeOf_applyAll {ws : List (Write S)} {place : Place} (h : db.placeOf k = some place) :
    (applyAll start db ws).placeOf k = some place := by
  let K (db' : DB S) : Prop := db'.placeOf k = some place
  have hinv : K (applyAll start db ws) := by
    refine applyAll_induction h fun x _ db₁ h₁ => ?_
    change (x.apply start db₁).placeOf k = some place
    rw [placeOf_apply, h₁, Option.some_or]
  exact hinv

/-- A row is an old one or was inserted. -/
theorem placeOf_applied {ws : List (Write S)} {place : Place}
    (h : (applyAll start db ws).placeOf k = some place) :
    db.placeOf k = some place ∨ ∃ row, .insert row ∈ ws ∧ row.key = k ∧ row.place = place := by
  let K (db' : DB S) : Prop := ∀ place, db'.placeOf k = some place →
    db.placeOf k = some place ∨ ∃ row, .insert row ∈ ws ∧ row.key = k ∧ row.place = place
  have hinv : K (applyAll start db ws) := by
    refine applyAll_induction (fun _ h => Or.inl h) fun x hx db₁ h₁ => ?_
    change ∀ place, (x.apply start db₁).placeOf k = some place → _
    intro place hplace
    rw [placeOf_apply, Option.or_eq_some_iff] at hplace
    rcases hplace with hplace | ⟨-, hadds⟩
    · exact h₁ place hplace
    · cases x with
      | insert row =>
        simp only [Write.adds] at hadds
        split at hadds
        · rename_i hkey
          cases hadds
          exact Or.inr ⟨row, hx, hkey, rfl⟩
        · cases hadds
      | _ => cases hadds
  exact hinv place h

theorem placeOf_inserted {ws : List (Write S)} {row : Row S} (habsent : Absent start db ws)
    (hrow : .insert row ∈ ws) : (applyAll start db ws).placeOf row.key = some row.place := by
  induction ws generalizing db with
  | nil => cases hrow
  | cons x ws ih =>
    rw [applyAll_cons]
    rcases List.mem_cons.mp hrow with rfl | hmem
    · refine placeOf_applyAll ?_
      have hnone : db.placeOf row.key = none := by
        have hpresent := habsent.1 row rfl
        rw [isPresent_eq] at hpresent
        simpa using hpresent
      rw [placeOf_apply, hnone, Option.none_or, Write.adds, if_pos rfl]
    · exact ih habsent.2 hmem

theorem World.Sane.placeOf {i j : Nat} {place : Place} (hw : w.Sane) (hij : i ≤ j)
    (hdb : w.versions[i]? = some db) (hdb' : w.versions[j]? = some db')
    (h : db.placeOf k = some place) : db'.placeOf k = some place := by
  induction j, hij using Nat.le_induction generalizing db' with
  | base =>
    rw [hdb] at hdb'
    cases hdb'
    exact h
  | succ j hij ih =>
    obtain ⟨commit, mid, hcommit, hmid⟩ := hw.before hdb'
    obtain ⟨rfl, -⟩ := hw.step j commit mid db' hcommit hmid hdb'
    exact placeOf_applyAll (ih hmid)

/-! Rows and the rows they belong to -/

theorem placeOf_row {k : RowKey} {row : Row S} (h : db.row? k = some row) :
    db.placeOf k = some row.place := by
  rw [DB.placeOf, h, Option.map_some]

/-- The ticket that a session read when it had a version before it. -/
theorem World.Explained.ticket {i j : Nat} {s : Ledger S} {job : Job} {commit : Commit S} {id : Uuid}
    {t : Ticket} (h : w.Explained cfg jobs C) (hij : i ≤ j) (hdb : w.versions[j]? = some db)
    (he : s.Explains cfg jobs (w.versions.take (i + 1)) w.calls commit job)
    (hrow : s.row id = some t) : db.placeOf ⟨.ticket, id⟩ = some ⟨some t.organizationId, none⟩ := by
  obtain ⟨mid, hmid, hfind⟩ := he.rows id t hrow
  have hlt := (List.getElem?_eq_some_iff.mp hmid).1
  rw [List.length_take] at hlt
  rw [List.getElem?_take_of_lt (by omega)] at hmid
  refine h.sane.placeOf (by omega) hmid hdb ?_
  have hrow : mid.row? ⟨.ticket, id⟩ = some (.ticket t) := by simp [DB.row?, hfind]
  exact placeOf_row hrow

/-- The row that a committed row belongs to is there once it is committed. -/
theorem World.Explained.parentRow {i : Nat} {commit : Commit S} {job : Job} {s : Ledger S} {row : Row S}
    {parent : RowKey} (h : w.Explained cfg jobs C) (hcommit : w.commits[i]? = some commit)
    (hdb : w.versions[i]? = some db) (hdb' : w.versions[i + 1]? = some db')
    (he : s.Explains cfg jobs (w.versions.take (i + 1)) w.calls commit job)
    (hrow : .insert row ∈ commit.writes) (hparent : row.place.parent? = some parent) :
    db'.placeOf parent = some ⟨row.place.organization?, none⟩ := by
  obtain ⟨hresult, habsent⟩ := h.sane.step i commit db db' hcommit hdb hdb'
  have hnew : ∀ new : Row S, .insert new ∈ commit.writes → db'.placeOf new.key = some new.place :=
    fun new hmem => hresult ▸ placeOf_inserted habsent hmem
  have hticket : ∀ {ticketId organizationId : Uuid}, s.Parent ticketId organizationId →
      db'.placeOf ⟨.ticket, ticketId⟩ = some ⟨some organizationId, none⟩ := by
    intro ticketId organizationId hparent
    rcases hparent with ⟨t, hrow, rfl⟩ | ⟨t, hmem, rfl, rfl⟩
    · exact h.ticket (Nat.le_succ i) hdb' he hrow
    · rw [he.writes] at hmem
      exact hnew (.ticket t) hmem
  have hwarrant := he.warranted _ hrow
  cases row with
  | ticketEvent e =>
    cases hparent
    exact hticket hwarrant
  | agentRun r =>
    cases hparent
    exact hticket hwarrant.1
  | delivery d =>
    cases hparent
    obtain ⟨v, hhook, hid, horg⟩ := hwarrant
    obtain ⟨mid, hmid, hv⟩ := he.hook v hhook
    obtain ⟨j, hj⟩ := List.mem_iff_getElem?.mp hmid
    have hlt := (List.getElem?_eq_some_iff.mp hj).1
    rw [List.length_take] at hlt
    rw [List.getElem?_take_of_lt (by omega)] at hj
    refine h.sane.placeOf (by omega) hj hdb' ?_
    have hfind : mid.webhooks.find? d.webhookId = some v := hid ▸ Table.find?_of_mem hv
    have hrow : mid.row? ⟨.webhook, d.webhookId⟩ = some (.webhook v) := by simp [DB.row?, hfind]
    rw [placeOf_row hrow]
    exact congrArg (fun org => some (Place.mk (some org) none)) horg.symm
  | chunk x =>
    cases hparent
    obtain ⟨d, hmem, hid, horg⟩ := hwarrant
    rw [he.writes] at hmem
    have hplace := hnew (.document d) hmem
    change db'.placeOf ⟨.document, d.id⟩ = some ⟨some d.organizationId, none⟩ at hplace
    rwa [hid, horg] at hplace
  | _ => cases hparent

/-- In every version each row is filed under the organization of the row it belongs to. -/
theorem World.Explained.housed (h : w.Explained cfg jobs C) {i : Nat}
    (hdb : w.versions[i]? = some db) : db.Housed := by
  induction i generalizing db with
  | zero =>
    rw [getElem?_extended h.sane.first (x := .empty) rfl] at hdb
    cases hdb
    intro k place parent hplace
    obtain ⟨entity, id⟩ := k
    cases entity <;> cases hplace
  | succ j ih =>
    obtain ⟨commit, mid, hcommit, hmid⟩ := h.sane.before hdb
    obtain ⟨hresult, -⟩ := h.sane.step j commit mid db hcommit hmid hdb
    obtain ⟨job, s, he⟩ := h.commits j commit hcommit
    intro k place parent hplace hparent
    rw [hresult] at hplace
    rcases placeOf_applied hplace with hold | ⟨row, hrow, -, rfl⟩
    · obtain ⟨place', hplace', horg⟩ := ih hmid k place parent hold hparent
      refine ⟨place', ?_, horg⟩
      rw [hresult]
      exact placeOf_applyAll hplace'
    · exact ⟨_, h.parentRow hcommit hmid hdb he hrow hparent, rfl⟩

end AgentDesk
