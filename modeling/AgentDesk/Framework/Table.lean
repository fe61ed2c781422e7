import Mathlib.Data.List.Nodup
import Mathlib.Data.List.Lookmap
import Mathlib.Tactic.ByContra

namespace AgentDesk.Framework

/-- Rows of type `ρ` are found by a primary key. -/
class Keyed (ρ : Type) (κ : outParam Type) where
  key : ρ → κ

open Keyed (key)

/-- A table with a primary key: no two rows have the same key. -/
@[ext] structure Table (ρ : Type) {κ : Type} [Keyed ρ κ] where
  rows : List ρ
  nodup : (rows.map key).Nodup

namespace Table

variable {ρ κ : Type} [Keyed ρ κ] [DecidableEq κ] {t : Table ρ} {k j : κ} {r : ρ}

instance [DecidableEq ρ] : DecidableEq (Table ρ) := fun _ _ =>
  decidable_of_iff _ Table.ext_iff.symm

def empty : Table ρ := ⟨[], List.nodup_nil⟩

def find? (t : Table ρ) (k : κ) : Option ρ := t.rows.find? fun r => key r = k

/-- Insert a row; the primary key refuses a second row under the same key. -/
def insert (t : Table ρ) (r : ρ) : Table ρ :=
  if h : key r ∈ t.rows.map key then t
  else ⟨t.rows ++ [r], by
    rw [List.map_append, List.nodup_append]
    refine ⟨t.nodup, List.nodup_singleton _, ?_⟩
    intro a ha b hb
    rw [List.map_singleton, List.mem_singleton] at hb
    exact fun heq => h (hb ▸ heq ▸ ha)⟩

/-- Change the row under a key, if there is one. -/
def update (t : Table ρ) (k : κ) (f : ρ → ρ) (hf : ∀ r, key (f r) = key r) : Table ρ :=
  ⟨t.rows.map fun r => if key r = k then f r else r, by
    rw [List.map_map]
    have same : (key ∘ fun r => if key r = k then f r else r) = (key : ρ → κ) := by
      funext r
      by_cases h : key r = k <;> simp [h, hf]
    rw [same]
    exact t.nodup⟩

/-- The part of the table whose rows satisfy `p`. -/
def restrict (t : Table ρ) (p : ρ → Bool) : Table ρ :=
  ⟨t.rows.filter p, t.nodup.sublist (List.filter_sublist.map key)⟩

theorem find?_eq_some : t.find? k = some r ↔ r ∈ t.rows ∧ key r = k := by
  constructor
  · intro h
    exact ⟨List.mem_of_find?_eq_some h, by simpa using List.find?_some h⟩
  · rintro ⟨hr, rfl⟩
    cases h : t.find? (key r) with
    | none => simpa using List.find?_eq_none.mp h r hr
    | some r' =>
      have hk : key r' = key r := by simpa using List.find?_some h
      exact congrArg some (List.inj_on_of_nodup_map t.nodup (List.mem_of_find?_eq_some h) hr hk)

theorem find?_eq_none : t.find? k = none ↔ ∀ r ∈ t.rows, key r ≠ k := by
  simp [find?, List.find?_eq_none]

theorem key_of_find? (h : t.find? k = some r) : key r = k := (find?_eq_some.mp h).2

theorem mem_of_find? (h : t.find? k = some r) : r ∈ t.rows := (find?_eq_some.mp h).1

theorem find?_of_mem (h : r ∈ t.rows) : t.find? (key r) = some r := find?_eq_some.mpr ⟨h, rfl⟩

omit [DecidableEq κ] in
@[simp] theorem rows_empty : (empty : Table ρ).rows = [] := rfl

@[simp] theorem find?_empty : (empty : Table ρ).find? k = none := rfl

theorem rows_insert (h : t.find? (key r) = none) : (t.insert r).rows = t.rows ++ [r] := by
  have hk : key r ∉ t.rows.map key := by
    rw [List.mem_map]
    rintro ⟨x, hx, heq⟩
    exact find?_eq_none.mp h x hx heq
  simp [insert, hk]

theorem mem_insert_self (h : t.find? (key r) = none) : r ∈ (t.insert r).rows := by
  rw [rows_insert h]
  simp

theorem insert_of_mem (h : t.find? (key r) ≠ none) : t.insert r = t := by
  have hk : key r ∈ t.rows.map key := by
    by_contra hn
    exact h (find?_eq_none.mpr fun x hx heq => hn (List.mem_map.mpr ⟨x, hx, heq⟩))
  simp [insert, hk]

theorem find?_insert : (t.insert r).find? k = (t.find? k).or (if key r = k then some r else none) := by
  cases h : t.find? (key r) with
  | none =>
    simp only [find?, rows_insert h, List.find?_append]
    congr 1
    by_cases hk : key r = k <;> simp [hk]
  | some x =>
    rw [insert_of_mem (by simp [h])]
    by_cases hk : key r = k
    · subst hk
      simp [h]
    · simp [hk]

theorem find?_insert_of_find? (h : t.find? k = some r) (x : ρ) : (t.insert x).find? k = some r := by
  simp [find?_insert, h]

@[simp] theorem rows_update {f : ρ → ρ} (hf : ∀ r, key (f r) = key r) :
    (t.update k f hf).rows = t.rows.map fun r => if key r = k then f r else r := rfl

theorem find?_update {f : ρ → ρ} (hf : ∀ r, key (f r) = key r) :
    (t.update k f hf).find? j = if j = k then (t.find? k).map f else t.find? j := by
  have hcomp : ((fun r => decide (key r = j)) ∘ fun r => if key r = k then f r else r) =
      fun r => decide (key r = j) := by
    funext r
    by_cases h : key r = k <;> simp [h, hf]
  simp only [find?, rows_update, List.find?_map, hcomp]
  by_cases hj : j = k
  · subst hj
    rw [if_pos rfl]
    cases h : t.rows.find? (fun r => decide (key r = j)) with
    | none => rfl
    | some x =>
      have hk : key x = j := by simpa using List.find?_some h
      simp [hk]
  · rw [if_neg hj]
    cases h : t.rows.find? (fun r => decide (key r = j)) with
    | none => rfl
    | some x =>
      have hk : key x = j := by simpa using List.find?_some h
      have hne : ¬key x = k := fun he => hj (hk.symm.trans he)
      simp [hne]

theorem find?_update_ne {f : ρ → ρ} (hf : ∀ r, key (f r) = key r) (h : j ≠ k) :
    (t.update k f hf).find? j = t.find? j := by
  rw [find?_update, if_neg h]

theorem mem_update {f : ρ → ρ} (hf : ∀ r, key (f r) = key r) {x : ρ} :
    x ∈ (t.update k f hf).rows ↔
      (x ∈ t.rows ∧ key x ≠ k) ∨ ∃ y ∈ t.rows, key y = k ∧ x = f y := by
  simp only [rows_update, List.mem_map]
  constructor
  · rintro ⟨y, hy, rfl⟩
    by_cases h : key y = k
    · exact Or.inr ⟨y, hy, h, by simp [h]⟩
    · exact Or.inl ⟨by simpa [h] using hy, by simp [h]⟩
  · rintro (⟨hx, hk⟩ | ⟨y, hy, hk, rfl⟩)
    · exact ⟨x, hx, by simp [hk]⟩
    · exact ⟨y, hy, by simp [hk]⟩

theorem mem_insert {x : ρ} (h : x ∈ (t.insert r).rows) : x ∈ t.rows ∨ x = r := by
  cases hf : t.find? (key r) with
  | none =>
    rw [rows_insert hf, List.mem_append, List.mem_singleton] at h
    exact h
  | some y => exact Or.inl (by rwa [insert_of_mem (by simp [hf])] at h)

theorem mem_insert_of_mem {x : ρ} (h : x ∈ t.rows) : x ∈ (t.insert r).rows := by
  cases hf : t.find? (key r) with
  | none => rw [rows_insert hf]; exact List.mem_append_left _ h
  | some y => rwa [insert_of_mem (by simp [hf])]

section Restrict

variable {p : ρ → Bool}

omit [DecidableEq κ] in
@[simp] theorem rows_restrict : (t.restrict p).rows = t.rows.filter p := rfl

theorem find?_restrict : (t.restrict p).find? k = (t.find? k).filter p := by
  cases h : t.find? k with
  | none =>
    refine find?_eq_none.mpr fun r hr => find?_eq_none.mp h r ?_
    exact (List.mem_filter.mp hr).1
  | some r =>
    obtain ⟨hr, rfl⟩ := find?_eq_some.mp h
    by_cases hp : p r = true
    · rw [Option.filter_some_pos hp]
      exact find?_eq_some.mpr ⟨List.mem_filter.mpr ⟨hr, hp⟩, rfl⟩
    · rw [Option.filter_some_neg (by simpa using hp)]
      refine find?_eq_none.mpr fun x hx heq => ?_
      obtain ⟨hx, hpx⟩ := List.mem_filter.mp hx
      exact hp (List.inj_on_of_nodup_map t.nodup hx hr heq ▸ hpx)

omit [DecidableEq κ] in
theorem restrict_restrict (p q : ρ → Bool) :
    (t.restrict p).restrict q = t.restrict fun r => p r && q r := by
  refine Table.ext ?_
  simp only [rows_restrict, List.filter_filter, Bool.and_comm]

theorem restrict_insert (h : t.find? (key r) = none) :
    (t.insert r).restrict p = if p r then (t.restrict p).insert r else t.restrict p := by
  by_cases hp : p r = true
  · rw [if_pos hp]
    apply Table.ext
    rw [rows_insert (by simp [find?_restrict, h])]
    simp [rows_insert h, hp]
  · rw [if_neg hp]
    apply Table.ext
    simp [rows_insert h, hp]

theorem restrict_update {f : ρ → ρ} (hf : ∀ r, key (f r) = key r) (hp : ∀ r, p (f r) = p r) :
    (t.update k f hf).restrict p = (t.restrict p).update k f hf := by
  apply Table.ext
  simp only [rows_restrict, rows_update, List.filter_map]
  congr 1
  apply List.filter_congr
  intro r _
  by_cases h : key r = k <;> simp [h, hp]

theorem restrict_update_of_not {f : ρ → ρ} (hf : ∀ r, key (f r) = key r)
    (hp : ∀ r, p (f r) = p r) (h : ∀ r, t.find? k = some r → p r = false) :
    (t.update k f hf).restrict p = t.restrict p := by
  rw [restrict_update hf hp]
  apply Table.ext
  simp only [rows_update, rows_restrict]
  conv_rhs => rw [← List.map_id (t.rows.filter p)]
  apply List.map_congr_left
  intro r hr
  obtain ⟨hr, hpr⟩ := List.mem_filter.mp hr
  have hne : key r ≠ k := by
    intro hk
    have := h r (find?_eq_some.mpr ⟨hr, hk⟩)
    simp [hpr] at this
  simp [hne]

end Restrict

end Table

/-- Where two lists count the same in every class, they count the same. -/
theorem countP_of_classes {ι α β : Type} [DecidableEq ι] {xs : List α} {ys : List β} {f : α → ι}
    {g : β → ι} {p : α → Bool} {q : β → Bool}
    (h : ∀ i, xs.countP (fun x => f x == i && p x) = ys.countP fun y => g y == i && q y) :
    xs.countP p = ys.countP q := by
  have hcount : ∀ {γ : Type} (zs : List γ) (k : γ → ι) (r : γ → Bool) (i : ι),
      ((zs.filter r).map k).count i = zs.countP fun z => k z == i && r z := by
    intro γ zs k r i
    rw [List.count, List.countP_map, List.countP_filter]
    rfl
  have hperm : ((xs.filter p).map f).Perm ((ys.filter q).map g) :=
    List.perm_iff_count.mpr fun i => by rw [hcount, hcount, h i]
  have hlength := hperm.length_eq
  rw [List.length_map, List.length_map] at hlength
  rw [List.countP_eq_length_filter, List.countP_eq_length_filter, hlength]

end AgentDesk.Framework
