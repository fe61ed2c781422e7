import AgentDesk.Model.Json
import AgentDesk.Framework.Codes
import Mathlib.Data.List.Perm.Basic
import Mathlib.Data.String.Basic

namespace AgentDesk

open Framework (Tells Avoids joined flatMap_stop joined_stop)

namespace Json

/-! Characters -/

/-- The units that have an escape of two characters, with its second character. -/
def shortEscapes : List (Nat × Char) :=
  [(34, Char.ofNat 34), (92, Char.ofNat 92), (10, Char.ofNat 110), (13, Char.ofNat 114),
    (9, Char.ofNat 116), (8, Char.ofNat 98), (12, Char.ofNat 102)]

def shortEscape (n : Nat) : Option Char := (shortEscapes.find? fun x => x.1 == n).map Prod.snd

/-- What stands for one UTF-16 unit. -/
def escapeUnit (n : Nat) : List Char :=
  match shortEscape n with
  | some x => [Char.ofNat 92, x]
  | none =>
    if 32 ≤ n ∧ n ≤ 126 then [Char.ofNat n] else Char.ofNat 92 :: Char.ofNat 117 :: hex4 n

/-- UTF-16. -/
def units (c : Char) : List Nat :=
  if c.toNat < 65536 then [c.toNat]
  else [55296 + (c.toNat - 65536) / 1024, 56320 + (c.toNat - 65536) % 1024]

theorem shortEscape_eq_none {n : Nat} (h : n ∉ shortEscapes.map Prod.fst) :
    shortEscape n = none := by
  rw [shortEscape, Option.map_eq_none_iff, List.find?_eq_none]
  intro x hx hn
  have hmem := List.mem_map_of_mem (f := Prod.fst) hx
  rw [beq_iff_eq.mp hn] at hmem
  exact h hmem

theorem mem_shortEscapes {n : Nat} {x : Char} (h : shortEscape n = some x) :
    (n, x) ∈ shortEscapes := by
  obtain ⟨y, hfind, rfl⟩ := Option.map_eq_some_iff.mp h
  have hn := List.find?_some hfind
  simp only [beq_iff_eq] at hn
  subst hn
  exact List.mem_of_find?_eq_some hfind

theorem escapeUnit_long {n : Nat} (h : n ∉ shortEscapes.map Prod.fst)
    (hprint : ¬(32 ≤ n ∧ n ≤ 126)) :
    escapeUnit n = Char.ofNat 92 :: Char.ofNat 117 :: hex4 n := by
  rw [escapeUnit, shortEscape_eq_none h]
  exact if_neg hprint

theorem escapeUnit_plain {n : Nat} (h : n ∉ shortEscapes.map Prod.fst)
    (hprint : 32 ≤ n ∧ n ≤ 126) : escapeUnit n = [Char.ofNat n] := by
  rw [escapeUnit, shortEscape_eq_none h]
  exact if_pos hprint

theorem not_short {n : Nat} (h : 126 < n) : n ∉ shortEscapes.map Prod.fst := by
  simp only [shortEscapes, List.map_cons, List.map_nil, List.mem_cons, List.not_mem_nil,
    or_false]
  omega

theorem escapeChar_units (c : Char) : escapeChar c = (units c).flatMap escapeUnit := by
  by_cases hsmall : c.toNat < 65536
  · rw [units, if_pos hsmall, List.flatMap_singleton]
    by_cases hshort : c.toNat ∈ shortEscapes.map Prod.fst
    · simp only [shortEscapes, List.map_cons, List.map_nil, List.mem_cons, List.not_mem_nil,
        or_false] at hshort
      rcases hshort with h | h | h | h | h | h | h <;> rw [escapeChar, h] <;> rfl
    · have hcascade : escapeChar c = if 32 ≤ c.toNat ∧ c.toNat ≤ 126 then [c]
          else Char.ofNat 92 :: Char.ofNat 117 :: hex4 c.toNat := by
        simp only [shortEscapes, List.map_cons, List.map_nil, List.mem_cons, List.not_mem_nil,
          or_false, not_or] at hshort
        simp only [escapeChar, hshort, hsmall, if_true, if_false]
      by_cases hprint : 32 ≤ c.toNat ∧ c.toNat ≤ 126
      · rw [hcascade, if_pos hprint, escapeUnit_plain hshort hprint, Char.ofNat_toNat]
      · rw [hcascade, if_neg hprint, escapeUnit_long hshort hprint]
  · rw [units, if_neg hsmall, List.flatMap_cons, List.flatMap_singleton,
      escapeUnit_long (not_short (by omega)) (by omega),
      escapeUnit_long (not_short (by omega)) (by omega)]
    simp only [escapeChar]
    split_ifs
    all_goals first | omega | rfl

theorem hex4_inj {m n : Nat} (hm : m < 65536) (hn : n < 65536) (h : hex4 m = hex4 n) : m = n := by
  have hdigit : ∀ a b : Fin 16, Nat.digitChar a = Nat.digitChar b → a = b := by decide
  have hmod : ∀ a b : Nat, Nat.digitChar (a % 16) = Nat.digitChar (b % 16) → a % 16 = b % 16 := by
    intro a b hab
    have hfin := hdigit ⟨a % 16, Nat.mod_lt a (by omega)⟩ ⟨b % 16, Nat.mod_lt b (by omega)⟩ hab
    exact congrArg Fin.val hfin
  rw [hex4, hex4, List.cons.injEq, List.cons.injEq, List.cons.injEq, List.cons.injEq] at h
  obtain ⟨h₁, h₂, h₃, h₄, -⟩ := h
  have h₁ := hmod _ _ h₁
  have h₂ := hmod _ _ h₂
  have h₃ := hmod _ _ h₃
  have h₄ := hmod _ _ h₄
  omega

theorem ofNat_inj {m n : Nat} (hm : m ≤ 126) (hn : n ≤ 126) (h : Char.ofNat m = Char.ofNat n) :
    m = n := by
  have htoNat : ∀ k : Fin 127, (Char.ofNat k).toNat = k := by decide
  have hm' : (Char.ofNat m).toNat = m := htoNat ⟨m, by omega⟩
  have hn' : (Char.ofNat n).toNat = n := htoNat ⟨n, by omega⟩
  rw [← hm', h, hn']

/-- How a unit is written: as itself, by a short escape, or by its digits. -/
theorem escapeUnit_cases (n : Nat) :
    (escapeUnit n = [Char.ofNat n] ∧ 32 ≤ n ∧ n ≤ 126 ∧ n ≠ 34 ∧ n ≠ 92) ∨
      (∃ x, escapeUnit n = [Char.ofNat 92, x] ∧ (n, x) ∈ shortEscapes) ∨
        escapeUnit n = Char.ofNat 92 :: Char.ofNat 117 :: hex4 n := by
  cases hshort : shortEscape n with
  | some x =>
    refine Or.inr (Or.inl ⟨x, ?_, mem_shortEscapes hshort⟩)
    rw [escapeUnit, hshort]
  | none =>
    by_cases hprint : 32 ≤ n ∧ n ≤ 126
    · refine Or.inl ⟨?_, hprint.1, hprint.2, ?_, ?_⟩
      · rw [escapeUnit, hshort]
        exact if_pos hprint
      · rintro rfl
        cases hshort
      · rintro rfl
        cases hshort
    · refine Or.inr (Or.inr ?_)
      rw [escapeUnit, hshort]
      exact if_neg hprint

theorem escapeUnit_tells {m n : Nat} (hm : m < 65536) (hn : n < 65536) :
    Tells escapeUnit m n := by
  have hsecond : ∀ x ∈ shortEscapes, ∀ y ∈ shortEscapes, x.2 = y.2 → x.1 = y.1 := by decide
  have hu : ∀ x ∈ shortEscapes, x.2 ≠ Char.ofNat 117 := by decide
  have hplain : ∀ k, k ≤ 126 → k ≠ 92 → Char.ofNat k ≠ Char.ofNat 92 := by
    intro k hk hne h
    exact hne (ofNat_inj hk (by omega) h)
  intro r r' heq
  rcases escapeUnit_cases m with ⟨hcm, -, hm', -, hbs⟩ | ⟨x, hcm, hx⟩ | hcm <;>
    rcases escapeUnit_cases n with ⟨hcn, -, hn', -, hbs'⟩ | ⟨y, hcn, hy⟩ | hcn <;>
    rw [hcm, hcn] at heq <;> simp only [List.cons_append, List.cons.injEq] at heq
  · exact ofNat_inj hm' hn' heq.1
  · exact absurd heq.1 (hplain m hm' hbs)
  · exact absurd heq.1 (hplain m hm' hbs)
  · exact absurd heq.1.symm (hplain n hn' hbs')
  · exact hsecond _ hx _ hy heq.2.1
  · exact absurd heq.2.1 (hu _ hx)
  · exact absurd heq.1.symm (hplain n hn' hbs')
  · exact absurd heq.2.1.symm (hu _ hy)
  · exact hex4_inj hm hn (List.append_inj_left heq.2.2 rfl)

theorem escapeUnit_avoids (n : Nat) : Avoids (Char.ofNat 34) (escapeUnit n) := by
  have hbs : Char.ofNat 92 ≠ Char.ofNat 34 := by decide
  rcases escapeUnit_cases n with ⟨hc, -, hn, hne, -⟩ | ⟨x, hc, -⟩ | hc
  · exact ⟨_, [], hc, fun h => hne (ofNat_inj hn (by omega) h)⟩
  · exact ⟨_, _, hc, hbs⟩
  · exact ⟨_, _, hc, hbs⟩

theorem toNat_scalar (c : Char) : c.toNat < 55296 ∨ (57343 < c.toNat ∧ c.toNat < 1114112) := by
  rcases c.valid with h | h
  · exact Or.inl h
  · exact Or.inr h

theorem units_lt (c : Char) : ∀ n ∈ units c, n < 65536 := by
  intro n hn
  have hc := toNat_scalar c
  rw [units] at hn
  split_ifs at hn with hsmall
  · obtain rfl := List.mem_singleton.mp hn
    exact hsmall
  · simp only [List.mem_cons, List.not_mem_nil, or_false] at hn
    omega

theorem escapeChar_tells (c d : Char) : Tells escapeChar c d := by
  intro r r' heq
  rw [escapeChar_units, escapeChar_units] at heq
  have hc := toNat_scalar c
  have hd := toNat_scalar d
  have hcl := units_lt c
  have hdl := units_lt d
  -- a surrogate opens a pair, and no character is one
  by_cases hcs : c.toNat < 65536 <;> by_cases hds : d.toNat < 65536
  · simp only [units, hcs, hds, if_true, List.flatMap_singleton] at heq
    exact Char.toNat_inj.mp (escapeUnit_tells hcs hds _ _ heq)
  · simp only [units, hcs, hds, if_true, if_false, List.flatMap_cons, List.append_assoc] at heq
    have := escapeUnit_tells (by omega) (by omega) _ _ heq
    omega
  · simp only [units, hcs, hds, if_true, if_false, List.flatMap_cons, List.append_assoc] at heq
    have := escapeUnit_tells (by omega) (by omega) _ _ heq
    omega
  · simp only [units, hcs, hds, if_false, List.flatMap_cons, List.append_assoc] at heq
    obtain ⟨hhigh, hrest⟩ := (escapeUnit_tells (by omega) (by omega)).rest heq
    have hlow := escapeUnit_tells (by omega) (by omega) _ _ hrest
    exact Char.toNat_inj.mp (by omega)

theorem escapeChar_avoids (c : Char) : Avoids (Char.ofNat 34) (escapeChar c) := by
  rw [escapeChar_units]
  obtain ⟨m, rest, hunits⟩ : ∃ m rest, units c = m :: rest := by
    rw [units]
    split_ifs
    · exact ⟨_, _, rfl⟩
    · exact ⟨_, _, rfl⟩
  obtain ⟨x, more, hx, hne⟩ := escapeUnit_avoids m
  refine ⟨x, more ++ rest.flatMap escapeUnit, ?_, hne⟩
  rw [hunits, List.flatMap_cons, hx, List.cons_append]

theorem quote_tells (s t : String) : Tells quote s t := by
  intro r r' heq
  rw [quote, quote, List.cons_append, List.cons_append, List.cons_append, List.cons_append,
    List.cons.injEq, List.append_assoc, List.append_assoc] at heq
  obtain ⟨hst, -⟩ := flatMap_stop (fun c _ d _ => escapeChar_tells c d)
    (fun c _ => escapeChar_avoids c) (fun d _ => escapeChar_avoids d) heq.2
  exact String.toList_inj.mp hst

theorem quote_injective : Function.Injective quote := Tells.injective quote_tells

/-! Values -/

theorem induct {motive : Json → Prop} (null : motive .null) (str : ∀ s, motive (.str s))
    (obj : ∀ xs : List (String × Json), (∀ x ∈ xs, motive x.2) → motive (.obj xs)) :
    ∀ v, motive v
  | .null => null
  | .str s => str s
  | .obj xs => obj xs fun x hx =>
    have : sizeOf x < 1 + sizeOf xs := by
      have := List.sizeOf_lt_of_mem hx
      omega
    have : sizeOf x.2 < sizeOf x := by
      obtain ⟨k, w⟩ := x
      simp
    induct null str obj x.2

theorem dumpFields_eq (xs : List (String × Json)) :
    dumpFields xs = xs.map fun x => (x.1, dumps x.2) := by
  induction xs with
  | nil => rfl
  | cons x xs ih => rw [dumpFields, ih, List.map_cons]

/-- What stands for one field. -/
def fieldCode (x : String × List Char) : List Char := quote x.1 ++ Char.ofNat 58 :: x.2

theorem joinFields_eq (xs : List (String × List Char)) :
    joinFields xs = joined (Char.ofNat 44) fieldCode xs := by
  induction xs with
  | nil => rfl
  | cons x xs ih =>
    cases xs with
    | nil => rw [joinFields, joined, List.flatMap_nil, List.append_nil, fieldCode]
    | cons y ys =>
      have hstep : joinFields (x :: y :: ys) =
          fieldCode x ++ Char.ofNat 44 :: joinFields (y :: ys) := rfl
      rw [hstep, ih, joined, joined, List.flatMap_cons, List.cons_append]

theorem fieldCode_tells {x y : String × List Char} (h : Tells id x.2 y.2) :
    Tells fieldCode x y := by
  intro r r' heq
  rw [fieldCode, fieldCode, List.append_assoc, List.append_assoc] at heq
  obtain ⟨hkey, hrest⟩ := (quote_tells x.1 y.1).rest heq
  rw [List.cons_append, List.cons_append, List.cons.injEq] at hrest
  exact Prod.ext hkey (h r r' hrest.2)

theorem fieldCode_avoids (x : String × List Char) : Avoids (Char.ofNat 125) (fieldCode x) :=
  ⟨_, _, rfl, by decide⟩

/-- The fields in the order in which they are written. -/
def sortedFields (xs : List (String × Json)) : List (String × List Char) :=
  (dumpFields xs).insertionSort fun a b => keyLe a b = true

theorem sortedFields_perm (xs : List (String × Json)) :
    (sortedFields xs).Perm (xs.map fun x => (x.1, dumps x.2)) := by
  rw [← dumpFields_eq]
  exact List.perm_insertionSort _ _

theorem perm_of_sortedFields {xs ys : List (String × Json)}
    (h : sortedFields xs = sortedFields ys) :
    (xs.map fun x => (x.1, dumps x.2)).Perm (ys.map fun y => (y.1, dumps y.2)) := by
  refine (sortedFields_perm xs).symm.trans ?_
  rw [h]
  exact sortedFields_perm ys

theorem mem_sortedFields {xs : List (String × Json)} {y : String × List Char}
    (h : y ∈ sortedFields xs) : ∃ x ∈ xs, y = (x.1, dumps x.2) := by
  obtain ⟨x, hx, hy⟩ := List.mem_map.mp ((sortedFields_perm xs).mem_iff.mp h)
  exact ⟨x, hx, hy.symm⟩

/-- An object is read up to the order of its fields. -/
theorem obj_read {xs ys : List (String × Json)} {r r' : List Char}
    (htells : ∀ x ∈ xs, ∀ w, Tells id (dumps x.2) (dumps w))
    (heq : dumps (.obj xs) ++ r = dumps (.obj ys) ++ r') : sortedFields xs = sortedFields ys := by
  rw [dumps, dumps, joinFields_eq, joinFields_eq, List.cons_append, List.cons_append,
    List.cons_append, List.cons_append, List.cons.injEq, List.append_assoc, List.append_assoc] at heq
  refine (joined_stop ?_ (fun x _ => fieldCode_avoids x) (fun y _ => fieldCode_avoids y)
    (by decide) heq.2).1
  intro x hx y hy
  obtain ⟨x', hx', rfl⟩ := mem_sortedFields hx
  obtain ⟨y', -, rfl⟩ := mem_sortedFields hy
  exact fieldCode_tells (htells x' hx' y'.2)

/-- In front of whatever text, the bytes of two values are told apart. -/
theorem dumps_tells (v : Json) : ∀ w, Tells id (dumps v) (dumps w) := by
  induction v using induct with
  | null =>
    intro w r r' heq
    cases w with
    | null => rfl
    | str s => cases heq
    | obj ys => cases heq
  | str s =>
    intro w r r' heq
    cases w with
    | null => cases heq
    | str t => exact congrArg quote (quote_tells s t r r' heq)
    | obj ys => cases heq
  | obj xs ih =>
    intro w r r' heq
    cases w with
    | null => cases heq
    | str s => cases heq
    | obj ys =>
      have hsorted := obj_read ih heq
      change dumps (.obj xs) = dumps (.obj ys)
      rw [dumps, dumps]
      exact congrArg (fun zs => Char.ofNat 123 :: joinFields zs ++ [Char.ofNat 125]) hsorted

/-! The order of the fields -/

/-- `w` is `v` with the fields of objects, at whatever depth, in another order. -/
inductive Reorders : Json → Json → Prop
  | refl (v : Json) : Reorders v v
  | trans {u v w : Json} : Reorders u v → Reorders v w → Reorders u w
  | swap {xs ys : List (String × Json)} : xs.Perm ys → Reorders (.obj xs) (.obj ys)
  | field {v w : Json} (pre post : List (String × Json)) (k : String) : Reorders v w →
    Reorders (.obj (pre ++ (k, v) :: post)) (.obj (pre ++ (k, w) :: post))

/-- The keys of each object, at whatever depth, are distinct. -/
inductive Distinct : Json → Prop
  | null : Distinct .null
  | str (s : String) : Distinct (.str s)
  | obj {xs : List (String × Json)} : (xs.map Prod.fst).Nodup → (∀ x ∈ xs, Distinct x.2) →
    Distinct (.obj xs)

theorem Distinct.fields {xs : List (String × Json)} (h : Distinct (.obj xs)) :
    (xs.map Prod.fst).Nodup ∧ ∀ x ∈ xs, Distinct x.2 := by
  cases h with
  | obj hkeys hvalues => exact ⟨hkeys, hvalues⟩

theorem keyLe_iff (a b : String × List Char) : keyLe a b = true ↔ a.1 ≤ b.1 := by
  rw [keyLe, Bool.not_eq_true', decide_eq_false_iff_not, not_lt]

theorem sortedFields_pairwise (xs : List (String × Json)) :
    (sortedFields xs).Pairwise fun a b => a.1 ≤ b.1 := by
  have htotal : Std.Total fun a b : String × List Char => keyLe a b = true :=
    ⟨fun a b => by rw [keyLe_iff, keyLe_iff]; exact le_total a.1 b.1⟩
  have htrans : IsTrans (String × List Char) fun a b => keyLe a b = true :=
    ⟨fun a b c hab hbc => by rw [keyLe_iff] at *; exact hab.trans hbc⟩
  have hsorted := List.pairwise_insertionSort (fun a b => keyLe a b = true) (dumpFields xs)
  exact hsorted.imp fun {a b} h => (keyLe_iff a b).mp h

/-- Fields with distinct keys are written in one order only. -/
theorem sortedFields_eq {xs ys : List (String × Json)} (hkeys : (xs.map Prod.fst).Nodup)
    (h : (xs.map fun x => (x.1, dumps x.2)).Perm (ys.map fun y => (y.1, dumps y.2))) :
    sortedFields xs = sortedFields ys := by
  have hperm := (sortedFields_perm xs).trans (h.trans (sortedFields_perm ys).symm)
  refine hperm.eq_of_pairwise ?_ (sortedFields_pairwise xs) (sortedFields_pairwise ys)
  intro a b ha hb hab hba
  obtain ⟨x, hx, rfl⟩ := mem_sortedFields ha
  obtain ⟨y, hy, rfl⟩ := mem_sortedFields (hperm.mem_iff.mpr hb)
  have hkey : x.1 = y.1 := le_antisymm hab hba
  have hxy : x = y := List.inj_on_of_nodup_map hkeys hx hy hkey
  rw [hxy]

theorem dumps_obj (xs : List (String × Json)) : dumps (.obj xs) =
    Char.ofNat 123 :: joinFields (sortedFields xs) ++ [Char.ofNat 125] := rfl

theorem Reorders.dumps_eq {v w : Json} (h : Reorders v w) (hv : Distinct v) :
    dumps v = dumps w ∧ Distinct w := by
  induction h with
  | refl => exact ⟨rfl, hv⟩
  | trans _ _ ih₁ ih₂ =>
    obtain ⟨huv, hv'⟩ := ih₁ hv
    obtain ⟨hvw, hw⟩ := ih₂ hv'
    exact ⟨huv.trans hvw, hw⟩
  | @swap xs ys hperm =>
    obtain ⟨hkeys, hvalues⟩ := hv.fields
    refine ⟨?_, .obj ((hperm.map Prod.fst).nodup_iff.mp hkeys) fun y hy =>
      hvalues y (hperm.mem_iff.mpr hy)⟩
    rw [dumps_obj, dumps_obj, sortedFields_eq hkeys (hperm.map _)]
  | @field v w pre post k _ ih =>
    obtain ⟨hkeys, hvalues⟩ := hv.fields
    have hmem : (k, v) ∈ pre ++ (k, v) :: post :=
      List.mem_append_right pre List.mem_cons_self
    obtain ⟨hdumps, hw⟩ := ih (hvalues (k, v) hmem)
    have hcodes : (pre ++ (k, v) :: post).map (fun x => (x.1, dumps x.2)) =
        (pre ++ (k, w) :: post).map fun x => (x.1, dumps x.2) := by
      rw [List.map_append, List.map_append, List.map_cons, List.map_cons, hdumps]
    refine ⟨?_, .obj ?_ ?_⟩
    · rw [dumps_obj, dumps_obj, sortedFields_eq hkeys (.of_eq hcodes)]
    · rw [List.map_append, List.map_cons] at hkeys ⊢
      exact hkeys
    · intro x hx
      rcases List.mem_append.mp hx with hpre | hx
      · exact hvalues x (List.mem_append_left _ hpre)
      · rcases List.mem_cons.mp hx with rfl | hpost
        · exact hw
        · exact hvalues x (List.mem_append_right pre (List.mem_cons_of_mem _ hpost))

theorem reorders_fields {zs ys : List (String × Json)}
    (h : List.Forall₂ (fun z y => (z.1, dumps z.2) = (y.1, dumps y.2)) zs ys)
    (hzs : ∀ z ∈ zs, ∀ w, dumps z.2 = dumps w → Reorders z.2 w) (pre : List (String × Json)) :
    Reorders (.obj (pre ++ zs)) (.obj (pre ++ ys)) := by
  induction h generalizing pre with
  | nil => exact .refl _
  | @cons z y zs ys hzy _ ih =>
    obtain ⟨k, v⟩ := z
    obtain ⟨l, w⟩ := y
    obtain ⟨hkey, hcode⟩ := Prod.mk.inj hzy
    have hkl : k = l := hkey
    subst hkl
    have hrest := ih (fun z hz => hzs z (List.mem_cons_of_mem _ hz)) (pre ++ [(k, w)])
    rw [List.append_assoc, List.append_assoc] at hrest
    exact (Reorders.field pre zs k (hzs _ List.mem_cons_self w hcode)).trans hrest

/-- Values with the same bytes are the same up to the order of their fields. -/
theorem reorders_of_dumps (v : Json) : ∀ w, dumps v = dumps w → Reorders v w := by
  induction v using induct with
  | null =>
    intro w h
    cases w with
    | null => exact .refl _
    | str s => cases h
    | obj ys => cases h
  | str s =>
    intro w h
    cases w with
    | null => cases h
    | str t =>
      rw [quote_injective h]
      exact .refl _
    | obj ys => cases h
  | obj xs ih =>
    intro w h
    cases w with
    | null => cases h
    | str s => cases h
    | obj ys =>
      have hsorted := obj_read (fun x _ w => dumps_tells x.2 w) (congrArg (· ++ []) h)
      have hperm := perm_of_sortedFields hsorted
      have hsame : List.Forall₂ (fun a y => a = (y.1, dumps y.2))
          (ys.map fun y => (y.1, dumps y.2)) ys :=
        List.forall₂_map_left_iff.mpr (List.forall₂_same.mpr fun _ _ => rfl)
      obtain ⟨zs, hzs, hyz⟩ := List.perm_comp_forall₂ hperm hsame
      exact (reorders_fields (List.forall₂_map_left_iff.mp hzs) ih []).trans (.swap hyz)

/-- The bytes are a canonical form: they are the same exactly for the reorderings. -/
theorem dumps_eq_iff {v w : Json} (hv : Distinct v) : dumps v = dumps w ↔ Reorders v w :=
  ⟨reorders_of_dumps v w, fun h => (h.dumps_eq hv).1⟩

theorem eq_of_perm_of_keys {α β : Type} {l l' : List (α × β)} (h : l.Perm l')
    (hsame : l.map Prod.fst = l'.map Prod.fst) (hkeys : (l.map Prod.fst).Nodup) : l = l' := by
  induction l generalizing l' with
  | nil => exact (List.nil_perm.mp h).symm
  | cons a l ih =>
    cases l' with
    | nil => cases hsame
    | cons b l' =>
      rw [List.map_cons, List.map_cons, List.cons.injEq] at hsame
      rw [List.map_cons, List.nodup_cons] at hkeys
      have hab : a = b := by
        rcases List.mem_cons.mp (h.mem_iff.mp List.mem_cons_self) with hab | ha
        · exact hab
        · have hkey := List.mem_map_of_mem (f := Prod.fst) ha
          rw [← hsame.2] at hkey
          exact absurd hkey hkeys.1
      subst hab
      rw [ih (List.perm_cons a |>.mp h) hsame.2 hkeys.2]

/-- Objects with the same keys in the same order and with the same bytes have fields with the
same bytes. -/
theorem codes_of_dumps {xs ys : List (String × Json)} (h : dumps (.obj xs) = dumps (.obj ys))
    (hsame : xs.map Prod.fst = ys.map Prod.fst) (hkeys : (xs.map Prod.fst).Nodup) :
    xs.map (fun x => dumps x.2) = ys.map fun y => dumps y.2 := by
  have hsorted := obj_read (fun x _ w => dumps_tells x.2 w) (congrArg (· ++ []) h)
  have hperm : (xs.map fun x => (x.1, dumps x.2)).Perm (ys.map fun y => (y.1, dumps y.2)) :=
    perm_of_sortedFields hsorted
  have hfst : ∀ zs : List (String × Json),
      (zs.map fun z => (z.1, dumps z.2)).map Prod.fst = zs.map Prod.fst := by
    intro zs
    rw [List.map_map]
    rfl
  have hall := eq_of_perm_of_keys hperm (by rw [hfst, hfst, hsame]) (by rw [hfst]; exact hkeys)
  have hcodes := congrArg (List.map Prod.snd) hall
  rw [List.map_map, List.map_map] at hcodes
  exact hcodes

end Json

end AgentDesk
