import AgentDesk.Logic.Ownership

namespace AgentDesk

open Framework (Table)

variable {S : Type} {db : DB S} {start : Time} {organizationId : Uuid} {c : Nat} {known : Set RowKey}
  {x : Write S}

/-! The rows of one organization -/

/-- The rows whose organization satisfies `p`. -/
def DB.restrict (db : DB S) (p : Option Uuid → Bool) : DB S where
  organizations := db.organizations.restrict fun o => p (some o.id)
  users := db.users.restrict fun u => p (some u.organizationId)
  tickets := db.tickets.restrict fun t => p (some t.organizationId)
  ticketEvents := db.ticketEvents.restrict fun e => p (some e.organizationId)
  auditLogs := db.auditLogs.restrict fun a => p a.organizationId
  agentRuns := db.agentRuns.restrict fun r => p (some r.organizationId)
  webhooks := db.webhooks.restrict fun v => p (some v.organizationId)
  webhookDeliveries := db.webhookDeliveries.restrict fun d => p (some d.organizationId)
  documents := db.documents.restrict fun d => p (some d.organizationId)
  documentChunks := db.documentChunks.restrict fun x => p (some x.organizationId)

/-- What the organization has in the tables. -/
def DB.rowsOf (db : DB S) (organizationId : Uuid) : DB S :=
  db.restrict fun owner => owner == some organizationId

/-- What everybody else has. -/
def DB.othersOf (db : DB S) (organizationId : Uuid) : DB S :=
  db.restrict fun owner => owner != some organizationId

theorem row?_restrict (p : Option Uuid → Bool) (k : RowKey) :
    (db.restrict p).row? k = (db.row? k).filter fun row => p row.place.organization? := by
  obtain ⟨entity, id⟩ := k
  cases entity <;>
    simp only [DB.row?, DB.restrict, Table.find?_restrict, Option.filter_map] <;> rfl

theorem placeOf_restrict (p : Option Uuid → Bool) (k : RowKey) :
    (db.restrict p).placeOf k = (db.placeOf k).filter fun place => p place.organization? := by
  rw [DB.placeOf, row?_restrict, DB.placeOf, Option.filter_map]
  rfl

theorem restrict_restrict (p q : Option Uuid → Bool) :
    (db.restrict p).restrict q = db.restrict fun owner => p owner && q owner := by
  simp only [DB.restrict, Table.restrict_restrict]

theorem restrict_insert {row : Row S} (p : Option Uuid → Bool) (h : row.isPresent db = false) :
    (row.insert start db).restrict p =
      if p row.place.organization? then row.insert start (db.restrict p) else db.restrict p := by
  have none_of : ∀ {ρ : Type} {o : Option ρ}, o.isSome = false → o = none := by
    intro ρ o ho
    cases o with
    | none => rfl
    | some r => cases ho
  by_cases hp : p row.place.organization? = true
  · rw [if_pos hp]
    cases row <;> simp only [Row.insert, DB.restrict, Row.place] at hp ⊢ <;>
      rw [Table.restrict_insert] <;>
      first | exact none_of h | simp only [hp, if_true]
  · rw [if_neg hp]
    cases row <;> simp only [Row.insert, DB.restrict, Row.place] at hp ⊢ <;>
      rw [Table.restrict_insert] <;>
      first | exact none_of h | simp only [hp, Bool.false_eq_true, if_false]

theorem restrict_update {x : Write S} (p : Option Uuid → Bool) (h : ∀ row, x ≠ .insert row) :
    (x.apply start db).restrict p = x.apply start (db.restrict p) := by
  cases x with
  | insert row => exact absurd rfl (h row)
  | updateTicket id patch =>
    exact congrArg (fun tickets => { db.restrict p with tickets })
      (Table.restrict_update (p := fun t => p (some t.organizationId))
        (f := fun t => { patch.apply t with updatedAt := start }) (fun _ => rfl) fun _ => rfl)
  | updateAgentRun id patch =>
    exact congrArg (fun agentRuns => { db.restrict p with agentRuns })
      (Table.restrict_update (p := fun r => p (some r.organizationId)) (f := patch.apply)
        (fun _ => rfl) fun _ => rfl)
  | updateWebhook id patch =>
    exact congrArg (fun webhooks => { db.restrict p with webhooks })
      (Table.restrict_update (p := fun v => p (some v.organizationId)) (f := patch.apply)
        (fun _ => rfl) fun _ => rfl)
  | updateDelivery id patch =>
    exact congrArg (fun webhookDeliveries => { db.restrict p with webhookDeliveries })
      (Table.restrict_update (p := fun d => p (some d.organizationId)) (f := patch.apply)
        (fun _ => rfl) fun _ => rfl)

/-! What a session of the organization may touch -/

/-- The session was told of the row, or the row can only be its own. -/
def Knows (c : Nat) (known : Set RowKey) (k : RowKey) : Prop := k ∈ known ∨ k.id.session = c

/-- Whatever is under the key is the organization's. -/
def DB.Within (db : DB S) (organizationId : Uuid) (k : RowKey) : Prop :=
  ∀ place, db.placeOf k = some place → place.organization? = some organizationId

/-- What the session knows is just what the organization has, and a row is known if the row that it
belongs to is. -/
structure Sheltered (organizationId : Uuid) (c : Nat) (known : Set RowKey) (db : DB S) : Prop where
  own : ∀ k place, db.placeOf k = some place →
    (place.organization? = some organizationId ↔ Knows c known k)
  parent : ∀ k place parent, db.placeOf k = some place → place.parent? = some parent →
    (Knows c known parent ↔ Knows c known k)

def Write.key : Write S → RowKey
  | .insert row => row.key
  | .updateTicket id _ => ⟨.ticket, id⟩
  | .updateAgentRun id _ => ⟨.agentRun, id⟩
  | .updateWebhook id _ => ⟨.webhook, id⟩
  | .updateDelivery id _ => ⟨.delivery, id⟩

/-- The row is the organization's, and the row that it belongs to is known. -/
structure Row.Filed (organizationId : Uuid) (c : Nat) (known : Set RowKey) (row : Row S) : Prop where
  organization : row.place.organization? = some organizationId
  parent : ∀ parent, row.place.parent? = some parent → Knows c known parent

/-- The statement changes a row that the session knows, or creates one of its organization. -/
structure Write.Local (organizationId : Uuid) (c : Nat) (known : Set RowKey) (x : Write S) : Prop where
  key : Knows c known x.key
  row : ∀ row, x = .insert row → row.id.session = c ∧ row.entity ≠ .organization ∧
    row.Filed organizationId c known

/-- The statement reads rows that the session knows, or all that the organization has. -/
def Query.Local (organizationId : Uuid) (c : Nat) (known : Set RowKey) : Query S → Prop
  | .organizationByName _ | .userByEmail _ => False
  | .user id => Knows c known ⟨.user, id⟩
  | .ticket id | .eventsOf id => Knows c known ⟨.ticket, id⟩
  | .agentRun id => Knows c known ⟨.agentRun, id⟩
  | .webhook id => Knows c known ⟨.webhook, id⟩
  | .delivery id => Knows c known ⟨.delivery, id⟩
  | .document id => Knows c known ⟨.document, id⟩
  | .userInOrganization owner _ | .usersOf owner | .ticketsOf owner _ | .webhookOf owner
  | .deliveriesOf owner | .documentsOf owner | .chunksOf owner | .chunksByDistance owner _ _ _
  | .countTickets owner | .ticketsByStatus owner | .averageLatency owner | .averageCost owner
  | .countCompleted owner | .countOutcome owner _ | .countHits owner | .countFailedRuns owner
  | .countFailedDeliveries owner => owner = organizationId

theorem Knows.mono {known' : Set RowKey} {k : RowKey} (h : Knows c known k) (hle : known ⊆ known') :
    Knows c known' k := h.imp_left fun hk => hle hk

/-- What is under a key that the session knows is the organization's. -/
theorem Sheltered.within (h : Sheltered organizationId c known db) {k : RowKey} (hk : Knows c known k) :
    db.Within organizationId k := fun place hplace => (h.own k place hplace).mpr hk

/-- A row that belongs to a known one is the organization's. -/
theorem Sheltered.child (h : Sheltered organizationId c known db) {k parent : RowKey} {place : Place}
    (hplace : db.placeOf k = some place) (hparent : place.parent? = some parent)
    (hk : Knows c known parent) : place.organization? = some organizationId :=
  (h.own k place hplace).mpr ((h.parent k place parent hplace hparent).mp hk)

/-- A row is an old one, or the session filed it where it may. -/
theorem placeOf_local {k : RowKey} {place : Place} (hx : x.Local organizationId c known)
    (hplace : (x.apply start db).placeOf k = some place) : db.placeOf k = some place ∨
      Knows c known k ∧ place.organization? = some organizationId ∧
        ∀ parent, place.parent? = some parent → Knows c known parent := by
  rw [placeOf_apply, Option.or_eq_some_iff] at hplace
  rcases hplace with hplace | ⟨-, hadds⟩
  · exact Or.inl hplace
  · cases x with
    | insert row =>
      simp only [Write.adds] at hadds
      split at hadds
      · rename_i hkey
        cases hadds
        have hfiled := (hx.row row rfl).2.2
        exact Or.inr ⟨hkey ▸ hx.key, hfiled.organization, hfiled.parent⟩
      · cases hadds
    | _ => cases hadds

/-- The session's own statements keep it sheltered. -/
theorem Sheltered.apply (h : Sheltered organizationId c known db) (start : Time)
    (hx : x.Local organizationId c known) : Sheltered organizationId c known (x.apply start db) := by
  refine ⟨fun k place hplace => ?_, fun k place parent hplace hparent => ?_⟩
  · rcases placeOf_local hx hplace with hold | ⟨hk, horg, -⟩
    · exact h.own k place hold
    · exact iff_of_true horg hk
  · rcases placeOf_local hx hplace with hold | ⟨hk, -, hknows⟩
    · exact h.parent k place parent hold hparent
    · exact iff_of_true (hknows parent hparent) hk

theorem Sheltered.applyAll {ws : List (Write S)} (h : Sheltered organizationId c known db)
    (hws : ∀ x ∈ ws, x.Local organizationId c known) :
    Sheltered organizationId c known (applyAll start db ws) := by
  refine applyAll_induction h fun x hx db₁ h₁ => ?_
  exact Sheltered.apply h₁ start (hws x hx)

/-! The organization's rows on their own -/

theorem placeOf_rowsOf {k : RowKey} (h : db.Within organizationId k) :
    (db.rowsOf organizationId).placeOf k = db.placeOf k := by
  rw [DB.rowsOf, placeOf_restrict]
  cases hplace : db.placeOf k with
  | none => rfl
  | some place => rw [Option.filter_some_pos (by rw [h place hplace, beq_self_eq_true])]

theorem isPresent_rowsOf {row : Row S} (h : db.Within organizationId row.key) :
    row.isPresent (db.rowsOf organizationId) = row.isPresent db := by
  rw [isPresent_eq, isPresent_eq, placeOf_rowsOf h]

theorem any_filter_of_imp {α : Type} {l : List α} {p q : α → Bool} (h : ∀ a, q a = true → p a = true) :
    (l.filter p).any q = l.any q := by
  rw [List.any_filter]
  congr 1
  funext a
  cases hq : q a with
  | false => rw [Bool.and_false]
  | true => rw [h a hq, Bool.and_true]

theorem violates_rowsOf (h : Sheltered organizationId c known db)
    (hx : x.Local organizationId c known) :
    x.violates (db.rowsOf organizationId) = x.violates db := by
  cases x with
  | insert row =>
    obtain ⟨-, hentity, hfiled⟩ := hx.row row rfl
    have hpresent := isPresent_rowsOf (h.within hx.key)
    have htaken : row.isTaken (db.rowsOf organizationId) = row.isTaken db := by
      have horg := hfiled.organization
      cases row with
      | organization o => exact absurd rfl hentity
      | user u =>
        refine any_filter_of_imp fun y hy => ?_
        simp only [Row.place] at horg
        simp only [Bool.and_eq_true, beq_iff_eq] at hy
        simp only [hy.1, horg, beq_self_eq_true]
      | webhook v =>
        refine any_filter_of_imp fun y hy => ?_
        simp only [Row.place] at horg
        simp only [beq_iff_eq] at hy
        simp only [hy, horg, beq_self_eq_true]
      | _ => rfl
    simp only [Write.violates, hpresent, htaken]
  | _ => rfl

theorem bne_of_within {k : RowKey} (row : Row S) (h : db.Within organizationId k)
    (hrow : db.row? k = some row) : (row.place.organization? != some organizationId) = false := by
  rw [h row.place (placeOf_row hrow), bne_self_eq_false]

/-- A statement of the session changes what the organization has in the same way wherever it is
carried out, and nothing of what the others have. -/
theorem apply_rowsOf (start : Time) (h : Sheltered organizationId c known db) (hx : x.Local organizationId c known)
    (habsent : ∀ row, x = .insert row → row.isPresent db = false) :
    (x.apply start db).rowsOf organizationId = x.apply start (db.rowsOf organizationId) ∧
      (x.apply start db).othersOf organizationId = db.othersOf organizationId := by
  cases x with
  | insert row =>
    have horg := (hx.row row rfl).2.2.organization
    have hnone := habsent row rfl
    refine ⟨?_, ?_⟩
    · refine (restrict_insert _ hnone).trans (if_pos ?_)
      rw [horg, beq_self_eq_true]
    · refine (restrict_insert _ hnone).trans (if_neg ?_)
      rw [horg, bne_self_eq_false]
      exact Bool.false_ne_true
  | updateTicket id patch =>
    refine ⟨restrict_update _ (fun _ hne => by cases hne), ?_⟩
    have hthere : ∀ t, db.tickets.find? id = some t → (some t.organizationId != some organizationId) = false :=
      fun t ht => bne_of_within (.ticket t) (h.within hx.key) (by simp [DB.row?, Write.key, ht])
    exact congrArg (fun tickets => { db.othersOf organizationId with tickets })
      (Table.restrict_update_of_not (f := fun t => { patch.apply t with updatedAt := start })
        (fun _ => rfl) (fun _ => rfl) hthere)
  | updateAgentRun id patch =>
    refine ⟨restrict_update _ (fun _ hne => by cases hne), ?_⟩
    have hthere : ∀ r, db.agentRuns.find? id = some r → (some r.organizationId != some organizationId) = false :=
      fun r hr => bne_of_within (.agentRun r) (h.within hx.key) (by simp [DB.row?, Write.key, hr])
    exact congrArg (fun agentRuns => { db.othersOf organizationId with agentRuns })
      (Table.restrict_update_of_not (f := patch.apply) (fun _ => rfl) (fun _ => rfl) hthere)
  | updateWebhook id patch =>
    refine ⟨restrict_update _ (fun _ hne => by cases hne), ?_⟩
    have hthere : ∀ v, db.webhooks.find? id = some v → (some v.organizationId != some organizationId) = false :=
      fun v hv => bne_of_within (.webhook v) (h.within hx.key) (by simp [DB.row?, Write.key, hv])
    exact congrArg (fun webhooks => { db.othersOf organizationId with webhooks })
      (Table.restrict_update_of_not (f := patch.apply) (fun _ => rfl) (fun _ => rfl) hthere)
  | updateDelivery id patch =>
    refine ⟨restrict_update _ (fun _ hne => by cases hne), ?_⟩
    have hthere : ∀ d, db.webhookDeliveries.find? id = some d →
        (some d.organizationId != some organizationId) = false :=
      fun d hd => bne_of_within (.delivery d) (h.within hx.key) (by simp [DB.row?, Write.key, hd])
    exact congrArg (fun webhookDeliveries => { db.othersOf organizationId with webhookDeliveries })
      (Table.restrict_update_of_not (f := patch.apply) (fun _ => rfl) (fun _ => rfl) hthere)

theorem applyAll_rowsOf {ws : List (Write S)} (h : Sheltered organizationId c known db)
    (hws : ∀ x ∈ ws, x.Local organizationId c known) (habsent : Absent start db ws) :
    (applyAll start db ws).rowsOf organizationId = applyAll start (db.rowsOf organizationId) ws ∧
      (applyAll start db ws).othersOf organizationId = db.othersOf organizationId := by
  induction ws generalizing db with
  | nil => exact ⟨rfl, rfl⟩
  | cons x ws ih =>
    have hx := hws x List.mem_cons_self
    obtain ⟨hrows, hothers⟩ := apply_rowsOf start h hx habsent.1
    obtain ⟨hrest, hstay⟩ := ih (h.apply start hx) (fun y hy => hws y (List.mem_cons_of_mem x hy)) habsent.2
    rw [applyAll_cons, applyAll_cons, hrest, hstay, hrows, hothers]
    exact ⟨rfl, rfl⟩

theorem violatesAny_rowsOf {ws : List (Write S)} (h : Sheltered organizationId c known db)
    (hws : ∀ x ∈ ws, x.Local organizationId c known) :
    violatesAny start (db.rowsOf organizationId) ws = violatesAny start db ws := by
  induction ws generalizing db with
  | nil => rfl
  | cons x ws ih =>
    have hx := hws x List.mem_cons_self
    have hviolates := violates_rowsOf h hx
    have hrest := ih (h.apply start hx) fun y hy => hws y (List.mem_cons_of_mem x hy)
    simp only [violatesAny, hviolates]
    cases hv : x.violates db with
    | true => rw [Bool.true_or, Bool.true_or]
    | false =>
      have habsent : ∀ row, x = .insert row → row.isPresent db = false := by
        rintro row rfl
        exact (Bool.or_eq_false_iff.mp hv).1
      rw [← (apply_rowsOf start h hx habsent).1, hrest]

/-! Queries -/

theorem filter_filter_of_imp {α : Type} {l : List α} {p q : α → Bool}
    (h : ∀ a ∈ l, q a = true → p a = true) : (l.filter p).filter q = l.filter q := by
  rw [List.filter_filter]
  refine List.filter_congr fun a ha => ?_
  cases hq : q a with
  | false => rw [Bool.false_and]
  | true => rw [h a ha hq, Bool.and_self]

theorem find?_rowsOf {ρ : Type} [Framework.Keyed ρ Uuid] {t : Table ρ} {owner : ρ → Uuid} {id : Uuid}
    (h : ∀ r, t.find? id = some r → owner r = organizationId) :
    (t.restrict fun r => some (owner r) == some organizationId).find? id = t.find? id := by
  rw [Table.find?_restrict]
  cases hfind : t.find? id with
  | none => rfl
  | some r => rw [Option.filter_some_pos (by rw [h r hfind, beq_self_eq_true])]

/-- A row that the session may ask for by its key is the organization's. -/
theorem owner_of_knows {k : RowKey} (row : Row S) (h : Sheltered organizationId c known db)
    (hk : Knows c known k) (hrow : db.row? k = some row) :
    row.place.organization? = some organizationId := h.within hk row.place (placeOf_row hrow)

theorem completedRuns_rowsOf : (db.rowsOf organizationId).completedRuns organizationId =
    db.completedRuns organizationId := by
  refine filter_filter_of_imp fun r _ hr => ?_
  simp only [Bool.and_eq_true, beq_iff_eq] at hr
  simp only [hr.1, beq_self_eq_true]

/-- The answer to a statement of the session does not depend on what the others have. -/
theorem eval_rowsOf (P : Platform) (choice : ServerChoice) {q : Query S}
    (h : Sheltered organizationId c known db) (hq : q.Local organizationId c known) :
    q.eval P choice (db.rowsOf organizationId) = q.eval P choice db := by
  have mine : ∀ {ρ : Type} {l : List ρ} {owner : ρ → Uuid} {q : ρ → Bool},
      (∀ a, q a = true → owner a = organizationId) →
        (l.filter fun r => some (owner r) == some organizationId).filter q = l.filter q := by
    intro ρ l owner q himp
    refine filter_filter_of_imp fun a _ ha => ?_
    rw [himp a ha, beq_self_eq_true]
  cases q with
  | organizationByName name => exact hq.elim
  | userByEmail email => exact hq.elim
  | user id =>
    refine find?_rowsOf fun r hr => ?_
    exact Option.some.inj (owner_of_knows (.user r) h hq (by simp [DB.row?, hr]))
  | ticket id =>
    refine find?_rowsOf fun r hr => ?_
    exact Option.some.inj (owner_of_knows (.ticket r) h hq (by simp [DB.row?, hr]))
  | agentRun id =>
    refine find?_rowsOf fun r hr => ?_
    exact Option.some.inj (owner_of_knows (.agentRun r) h hq (by simp [DB.row?, hr]))
  | webhook id =>
    refine find?_rowsOf fun r hr => ?_
    exact Option.some.inj (owner_of_knows (.webhook r) h hq (by simp [DB.row?, hr]))
  | delivery id =>
    refine find?_rowsOf fun r hr => ?_
    exact Option.some.inj (owner_of_knows (.delivery r) h hq (by simp [DB.row?, hr]))
  | document id =>
    refine find?_rowsOf fun r hr => ?_
    exact Option.some.inj (owner_of_knows (.document r) h hq (by simp [DB.row?, hr]))
  | eventsOf ticketId =>
    refine congrArg (oldestFirst TicketEvent.createdAt) (filter_filter_of_imp fun e he hid => ?_)
    have hid : e.ticketId = ticketId := by simpa using hid
    have hplace : db.placeOf ⟨.ticketEvent, e.id⟩ = some (Row.ticketEvent e : Row S).place := by
      refine placeOf_row ?_
      simp only [DB.row?]
      exact congrArg (Option.map Row.ticketEvent) (Table.find?_of_mem he)
    have hparent : (Row.ticketEvent e : Row S).place.parent? = some ⟨.ticket, ticketId⟩ := by
      rw [← hid]
      rfl
    have horg := h.child hplace hparent hq
    simp only [Row.place] at horg
    simp only [horg, beq_self_eq_true]
  | documentsOf owner =>
    obtain rfl := hq
    simp only [Query.eval]
    have hmine : (db.rowsOf owner).documents.rows.filter (fun d => d.organizationId == owner) =
        db.documents.rows.filter fun d => d.organizationId == owner :=
      mine fun a ha => by simpa using ha
    rw [hmine]
    refine List.map_congr_left fun d hd => congrArg (fun xs : List (DocumentChunk S) => (d, xs.length)) ?_
    refine filter_filter_of_imp fun x hx hid => ?_
    have hid : x.documentId = d.id := by simpa using hid
    obtain ⟨hd, hown⟩ := List.mem_filter.mp (List.mem_insertionSort _ |>.mp hd)
    have hdocument : db.placeOf ⟨.document, d.id⟩ = some (Row.document d : Row S).place :=
      placeOf_row (congrArg (Option.map Row.document) (Table.find?_of_mem hd))
    have hplace : db.placeOf ⟨.chunk, x.id⟩ = some (Row.chunk x).place :=
      placeOf_row (congrArg (Option.map Row.chunk) (Table.find?_of_mem hx))
    have hknows := (h.own _ _ hdocument).mp (congrArg some (eq_of_beq hown))
    have hparent : (Row.chunk x).place.parent? = some ⟨.document, d.id⟩ := by
      rw [← hid]
      rfl
    have horg := h.child hplace hparent hknows
    simp only [Row.place] at horg
    simp only [horg, beq_self_eq_true]
  | chunksByDistance owner distance closer limit =>
    obtain rfl := hq
    simp only [Query.eval]
    have hmine : (((db.rowsOf owner).documentChunks.rows.filter
        fun x => choice.probed.all (·.contains x.id)).filter fun x => x.organizationId == owner) =
        (db.documentChunks.rows.filter fun x => choice.probed.all (·.contains x.id)).filter
          fun x => x.organizationId == owner := by
      rw [List.filter_filter, List.filter_filter]
      exact mine fun a ha => eq_of_beq (Bool.and_eq_true_iff.mp ha).1
    rw [hmine]
  | ticketsByStatus owner =>
    obtain rfl := hq
    simp only [Query.eval]
    refine congrArg (List.filter _) (List.map_congr_left fun s _ => congrArg (fun xs : List Ticket => (s, xs.length)) ?_)
    exact mine fun a ha => eq_of_beq (Bool.and_eq_true_iff.mp ha).1
  | averageLatency owner =>
    obtain rfl := hq
    simp only [Query.eval, completedRuns_rowsOf]
  | averageCost owner =>
    obtain rfl := hq
    simp only [Query.eval, completedRuns_rowsOf]
  | countCompleted owner =>
    obtain rfl := hq
    simp only [Query.eval, completedRuns_rowsOf]
  | countOutcome owner outcome =>
    obtain rfl := hq
    simp only [Query.eval, completedRuns_rowsOf]
  | countHits owner =>
    obtain rfl := hq
    simp only [Query.eval, completedRuns_rowsOf]
  | userInOrganization owner email =>
    obtain rfl := hq
    exact congrArg (pickFrom choice.pick) (mine fun a ha => eq_of_beq (Bool.and_eq_true_iff.mp ha).1)
  | usersOf owner =>
    obtain rfl := hq
    exact congrArg (oldestFirst User.createdAt) (mine fun a ha => eq_of_beq ha)
  | ticketsOf owner status =>
    obtain rfl := hq
    exact congrArg (newestFirst Ticket.createdAt)
      (mine fun a ha => eq_of_beq (Bool.and_eq_true_iff.mp ha).1)
  | webhookOf owner =>
    obtain rfl := hq
    exact congrArg (pickFrom choice.pick) (mine fun a ha => eq_of_beq ha)
  | deliveriesOf owner =>
    obtain rfl := hq
    exact congrArg (fun rows => (newestFirst WebhookDelivery.createdAt rows).take 100)
      (mine fun a ha => eq_of_beq ha)
  | chunksOf owner =>
    obtain rfl := hq
    exact mine fun a ha => eq_of_beq ha
  | countTickets owner =>
    obtain rfl := hq
    exact congrArg List.length (mine fun a ha => eq_of_beq ha)
  | countFailedRuns owner =>
    obtain rfl := hq
    exact congrArg List.length (mine fun a ha => eq_of_beq (Bool.and_eq_true_iff.mp ha).1)
  | countFailedDeliveries owner =>
    obtain rfl := hq
    exact congrArg List.length (mine fun a ha => eq_of_beq (Bool.and_eq_true_iff.mp ha).1)

end AgentDesk
