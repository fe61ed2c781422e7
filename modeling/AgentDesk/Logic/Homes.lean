import AgentDesk.Framework.Purge
import AgentDesk.Logic.Isolation

namespace AgentDesk

open Framework (Contract Table)

variable {S : Type} {P : Platform} {home : RowKey → Option Uuid} {org : Nat → Uuid}
  {organizationId : Uuid} {c : Nat} {db : DB S} {start : Time} {k : RowKey}

/-! Every row at its home -/

/-- The keys of one organization. -/
def homeKeys (home : RowKey → Option Uuid) (organizationId : Uuid) : Set RowKey :=
  { k | home k = some organizationId }

/-- Whatever the session draws is its organization's. -/
def Drawn (home : RowKey → Option Uuid) (org : Nat → Uuid) (c : Nat) : Prop :=
  ∀ k : RowKey, k.id.session = c → home k = some (org c)

/-- Every row has the organization that its key has, and so has the row that it belongs to. -/
structure DB.Settled (home : RowKey → Option Uuid) (db : DB S) : Prop where
  row : ∀ k place, db.placeOf k = some place → place.organization? = home k
  parent : ∀ k place parent, db.placeOf k = some place → place.parent? = some parent →
    home parent = home k

theorem knows_homeKeys (h : Drawn home org c) :
    Knows c (homeKeys home (org c)) k ↔ home k = some (org c) :=
  ⟨fun hk => hk.elim id (h k), Or.inl⟩

theorem DB.Settled.sheltered (h : db.Settled home) (hc : Drawn home org c) :
    Sheltered (org c) c (homeKeys home (org c)) db := by
  refine ⟨fun k place hplace => ?_, fun k place parent hplace hparent => ?_⟩
  · rw [knows_homeKeys hc, h.row k place hplace]
  · rw [knows_homeKeys hc, knows_homeKeys hc, h.parent k place parent hplace hparent]

theorem DB.Settled.apply (h : db.Settled home) (hc : Drawn home org c) {x : Write S}
    (hx : x.Local (org c) c (homeKeys home (org c))) : (x.apply start db).Settled home := by
  refine ⟨fun k place hplace => ?_, fun k place parent hplace hparent => ?_⟩
  · rcases placeOf_local hx hplace with hold | ⟨hk, horg, -⟩
    · exact h.row k place hold
    · rw [horg, (knows_homeKeys hc).mp hk]
  · rcases placeOf_local hx hplace with hold | ⟨hk, -, hknows⟩
    · exact h.parent k place parent hold hparent
    · rw [(knows_homeKeys hc).mp (hknows parent hparent), (knows_homeKeys hc).mp hk]

theorem DB.Settled.applyAll (h : db.Settled home) (hc : Drawn home org c) {ws : List (Write S)}
    (hws : ∀ x ∈ ws, x.Local (org c) c (homeKeys home (org c))) :
    (applyAll start db ws).Settled home :=
  applyAll_induction h fun x hx _ h₁ => h₁.apply hc (hws x hx)

/-- What one organization has is part of what the others do not change. -/
theorem rowsOf_othersOf (db : DB S) {other : Uuid} (hne : other ≠ organizationId) :
    (db.othersOf other).rowsOf organizationId = db.rowsOf organizationId := by
  rw [DB.othersOf, DB.rowsOf, restrict_restrict, DB.rowsOf]
  congr 1
  funext owner
  by_cases howner : owner = some organizationId
  · subst howner
    simpa using Ne.symm hne
  · simp [howner]

/-! What the sessions of one organization ask and are told -/

/-- A session keeps to its organization, and does not tell a ticket of another one from a ticket that
does not exist. -/
def tenancy (home : RowKey → Option Uuid) (org : Nat → Uuid) (c : Nat) : Contract (Op S) Res where
  ok op := Drawn home org c ∧
    ((tenant (org c) c).ok (homeKeys home (org c)) op ∨ ∃ id, op = .query (.ticket id))
  told op r := Ledger.Fits op r ∧
    ∀ row, shown op r = some row → row.Held (org c) c (homeKeys home (org c))
  masked := fun
    | .query (.ticket id), .ok (some t), .ok none =>
      home ⟨.ticket, id⟩ ≠ some (org c) ∧ t.organizationId ≠ org c
    | _, _, _ => False

theorem tenant_ensures (hc : Drawn home org c) :
    (tenant (org c) c : Framework.Observer (Op S) Res (Set RowKey)).Ensures (homeKeys home (org c))
      (tenancy home org c) := by
  refine ⟨fun op hop => ⟨hc, Or.inl hop⟩, fun op r r' hop hmask => ?_,
    fun op r hr => ⟨Set.Subset.rfl, hr.2⟩⟩
  simp only [tenancy] at hmask
  split at hmask
  · exact hmask.1 ((knows_homeKeys hc).mp hop)
  · exact hmask

/-- The organization whose row or name a lock protects. -/
def Lock.owner? (home : RowKey → Option Uuid) : Lock → Option Uuid
  | .organizationName _ => none
  | .userEmail owner _ | .webhookOwner owner => some owner
  | .ticket id => home ⟨.ticket, id⟩
  | .agentRun id => home ⟨.agentRun, id⟩
  | .webhook id => home ⟨.webhook, id⟩
  | .delivery id => home ⟨.delivery, id⟩

theorem home_of_lock (hc : Drawn home org c) {x : Write S} {l : Lock}
    (hx : x.Local (org c) c (homeKeys home (org c))) (hl : x.lock? = some l) :
    l.owner? home = some (org c) := by
  have hkey := (knows_homeKeys hc).mp hx.key
  cases x with
  | insert row =>
    obtain ⟨-, hentity, hfiled⟩ := hx.row row rfl
    have horg := hfiled.organization
    cases row with
    | organization o => exact absurd rfl hentity
    | user u =>
      cases hl
      exact horg
    | webhook v =>
      cases hl
      exact horg
    | _ => cases hl
  | _ =>
    cases hl
    exact hkey

/-- What a lookup shows to the session is the organization's, and the session knows it. -/
theorem held_of_shown (choice : ServerChoice) {q : Query S} {row : Row S} {known : Set RowKey}
    (h : Sheltered organizationId c known db) (hq : q.Local organizationId c known)
    (hrow : shown (.query q) (no_index (.ok (q.eval P choice db))) = some row) :
    row.Held organizationId c known := by
  have hheld : ∀ {k : RowKey}, db.row? k = some row → row.key = k → Knows c known k →
      row.Held organizationId c known := by
    intro k hfind hkey hk
    subst hkey
    have hplace := placeOf_row hfind
    refine ⟨⟨owner_of_knows row h hk hfind, fun parent hparent => ?_⟩, hk⟩
    exact (h.parent _ _ parent hplace hparent).mpr hk
  cases q with
  | user id =>
    obtain ⟨u, hu, rfl⟩ := Option.map_eq_some_iff.mp hrow
    have hfind : db.users.find? id = some u := hu
    exact hheld (by simp [DB.row?, hfind]) (congrArg (RowKey.mk .user) (Table.key_of_find? hfind)) hq
  | ticket id =>
    obtain ⟨t, ht, rfl⟩ := Option.map_eq_some_iff.mp hrow
    have hfind : db.tickets.find? id = some t := ht
    exact hheld (by simp [DB.row?, hfind]) (congrArg (RowKey.mk .ticket) (Table.key_of_find? hfind)) hq
  | agentRun id =>
    obtain ⟨r, hr, rfl⟩ := Option.map_eq_some_iff.mp hrow
    have hfind : db.agentRuns.find? id = some r := hr
    exact hheld (by simp [DB.row?, hfind]) (congrArg (RowKey.mk .agentRun) (Table.key_of_find? hfind)) hq
  | webhook id =>
    obtain ⟨v, hv, rfl⟩ := Option.map_eq_some_iff.mp hrow
    have hfind : db.webhooks.find? id = some v := hv
    exact hheld (by simp [DB.row?, hfind]) (congrArg (RowKey.mk .webhook) (Table.key_of_find? hfind)) hq
  | delivery id =>
    obtain ⟨d, hd, rfl⟩ := Option.map_eq_some_iff.mp hrow
    have hfind : db.webhookDeliveries.find? id = some d := hd
    exact hheld (by simp [DB.row?, hfind]) (congrArg (RowKey.mk .delivery) (Table.key_of_find? hfind)) hq
  | document id =>
    obtain ⟨d, hd, rfl⟩ := Option.map_eq_some_iff.mp hrow
    have hfind : db.documents.find? id = some d := hd
    exact hheld (by simp [DB.row?, hfind]) (congrArg (RowKey.mk .document) (Table.key_of_find? hfind)) hq
  | webhookOf owner =>
    obtain rfl := hq
    obtain ⟨v, hv, rfl⟩ := Option.map_eq_some_iff.mp hrow
    obtain ⟨hmem, hown⟩ := List.mem_filter.mp (mem_of_pickFrom hv)
    have hfind : db.row? (Row.webhook v : Row S).key = some (.webhook v) :=
      congrArg (Option.map Row.webhook) (Table.find?_of_mem hmem)
    exact hheld hfind rfl ((h.own _ _ (placeOf_row hfind)).mp (congrArg some (eq_of_beq hown)))
  | _ => cases hrow

/-- A statement of the session answers the same, or passes for the same, where nobody else has
anything. -/
theorem passes_eval (choice : ServerChoice) (h : db.Settled home) (hc : Drawn home org c) {q : Query S}
    (hok : (tenancy home org c).ok (.query q)) :
    (tenancy home org c).Passes (.query q) (no_index (.ok (q.eval P choice db)))
      (no_index (.ok (q.eval P choice (db.rowsOf (org c))))) := by
  have hsheltered := h.sheltered hc
  have local_passes : ∀ {q : Query S}, q.Local (org c) c (homeKeys home (org c)) →
      (tenancy home org c).Passes (.query q) (no_index (.ok (q.eval P choice db)))
        (no_index (.ok (q.eval P choice (db.rowsOf (org c))))) := by
    intro q hq
    rw [eval_rowsOf P choice hsheltered hq]
    exact ⟨⟨Ledger.fits_eval P choice db q, fun row hrow => held_of_shown choice hsheltered hq hrow⟩,
      Or.inl rfl⟩
  rcases hok.2 with hq | ⟨id, hid⟩
  · exact local_passes hq
  · cases hid
    by_cases hhome : home ⟨.ticket, id⟩ = some (org c)
    · exact local_passes (Or.inl hhome)
    · have hforeign : ∀ t, db.tickets.find? id = some t → t.organizationId ≠ org c := by
        intro t ht horg
        have hrow : db.row? ⟨.ticket, id⟩ = some (.ticket t) := by simp [DB.row?, ht]
        have hplace : db.placeOf ⟨.ticket, id⟩ = some ⟨some t.organizationId, none⟩ := placeOf_row hrow
        exact hhome ((h.row _ _ hplace).symm.trans (congrArg some horg))
      have hnone : (db.rowsOf (org c)).tickets.find? id = none := by
        refine (Table.find?_restrict (t := db.tickets)).trans ?_
        cases ht : db.tickets.find? id with
        | none => rfl
        | some t =>
          refine Option.filter_some_neg ?_
          simpa using hforeign t ht
      have hright : (Query.ticket id : Query S).eval P choice (db.rowsOf (org c)) = none := hnone
      rw [hright]
      refine ⟨⟨trivial, fun row hrow => by cases hrow⟩, ?_⟩
      cases ht : db.tickets.find? id with
      | none =>
        have hleft : (Query.ticket id : Query S).eval P choice db = none := ht
        rw [hleft]
        exact Or.inl rfl
      | some t =>
        have hleft : (Query.ticket id : Query S).eval P choice db = some t := ht
        rw [hleft]
        exact Or.inr ⟨hhome, hforeign t ht⟩

end AgentDesk
