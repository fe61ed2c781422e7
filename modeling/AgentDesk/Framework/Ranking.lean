import Mathlib.Data.List.Perm.Subperm
import Mathlib.Data.List.Sort
import Mathlib.Order.Lattice

namespace AgentDesk.Framework

variable {α S : Type} [LinearOrder S] {score : α → S} {rows rows' hits hits' : List α} {k : Nat}
  {s t : S}

/-- `hits` are `k` rows with the highest scores, best first, less those below the threshold. -/
def Top (score : α → S) (k : Nat) (t : S) (rows hits : List α) : Prop :=
  ∃ ranked : List α, ranked.Perm rows ∧ ranked.Pairwise (fun a b => score b ≤ score a) ∧
    hits = (ranked.take k).filter fun a => t ≤ score a

/-- Two answers with the same scores; their rows differ only among the ties at the cut. -/
structure Agree (score : α → S) (k : Nat) (hits hits' : List α) : Prop where
  scores : hits.map score = hits'.map score
  left : ∀ x ∈ hits, x ∉ hits' → hits.length = k ∧ ∀ y ∈ hits, score x ≤ score y
  right : ∀ x ∈ hits', x ∉ hits → hits'.length = k ∧ ∀ y ∈ hits', score x ≤ score y

/-- In a list where the rows that satisfy `p` come first, they are a beginning of it. -/
theorem filter_eq_takeWhile {l : List α} {p : α → Bool}
    (h : l.Pairwise fun a b => p b = true → p a = true) : l.filter p = l.takeWhile p := by
  induction l with
  | nil => rfl
  | cons a l ih =>
    rw [List.pairwise_cons] at h
    cases hp : p a with
    | true => rw [List.filter_cons_of_pos hp, List.takeWhile_cons_of_pos hp, ih h.2]
    | false =>
      rw [List.filter_cons_of_neg (by simp [hp]), List.takeWhile_cons_of_neg (by simp [hp]),
        List.filter_eq_nil_iff]
      intro b hb hpb
      have hpa := h.1 b hb hpb
      rw [hp] at hpa
      cases hpa

/-- In a ranked list it does not matter whether one cuts or filters first. -/
theorem filter_take {l : List α} (h : l.Pairwise fun a b => score b ≤ score a) (k : Nat) (t : S) :
    (l.take k).filter (fun a => t ≤ score a) = (l.filter fun a => t ≤ score a).take k := by
  have hreach : l.Pairwise fun a b => decide (t ≤ score b) = true → decide (t ≤ score a) = true :=
    h.imp fun hle hb => decide_eq_true ((of_decide_eq_true hb).trans hle)
  rw [filter_eq_takeWhile (hreach.sublist (List.take_sublist k l)), filter_eq_takeWhile hreach,
    List.take_takeWhile]

theorem takeWhile_within {l : List α} {p q : α → Bool} (h : ∀ a, p a = true → q a = true) :
    l.takeWhile p <+: l.takeWhile q := by
  induction l with
  | nil => exact List.prefix_rfl
  | cons a l ih =>
    cases hp : p a with
    | true =>
      rw [List.takeWhile_cons_of_pos hp, List.takeWhile_cons_of_pos (h a hp)]
      exact (List.prefix_cons_inj a).mpr ih
    | false =>
      rw [List.takeWhile_cons_of_neg (by simp [hp])]
      exact List.nil_prefix

/-- A higher threshold or a lower number of rows only removes rows from the end. -/
theorem filter_take_within {l : List α} (h : l.Pairwise fun a b => score b ≤ score a)
    {k k' : Nat} {t t' : S} (hk : k' ≤ k) (ht : t ≤ t') :
    (l.take k').filter (fun a => t' ≤ score a) <+: (l.take k).filter fun a => t ≤ score a := by
  have hreach : ∀ s, (l.take k).Pairwise fun a b =>
      decide (s ≤ score b) = true → decide (s ≤ score a) = true := fun s =>
    (h.sublist (List.take_sublist k l)).imp fun hle hb =>
      decide_eq_true ((of_decide_eq_true hb).trans hle)
  have hcut : l.take k' = (l.take k).take k' := by rw [List.take_take, Nat.min_eq_left hk]
  have hranked := h.sublist (List.take_sublist k l)
  rw [hcut, filter_take hranked]
  refine (List.take_prefix _ _).trans ?_
  rw [filter_eq_takeWhile (hreach t'), filter_eq_takeWhile (hreach t)]
  exact takeWhile_within fun a ha => decide_eq_true (ht.trans (of_decide_eq_true ha))

theorem countP_take {l : List α} (h : l.Pairwise fun a b => score b ≤ score a) (k : Nat) (s : S) :
    (l.take k).countP (fun a => s ≤ score a) = min k (l.countP fun a => s ≤ score a) := by
  induction l generalizing k with
  | nil => simp
  | cons a l ih =>
    cases k with
    | zero => simp
    | succ k =>
      rw [List.pairwise_cons] at h
      rw [List.take_succ_cons, List.countP_cons, List.countP_cons, ih h.2]
      by_cases ha : s ≤ score a
      · simp [ha]
      · have hl : l.countP (fun a => s ≤ score a) = 0 := by
          rw [List.countP_eq_zero]
          intro b hb hsb
          exact ha ((of_decide_eq_true hsb).trans (h.1 b hb))
        simp [ha, hl]

/-- A descending list is determined by how many of its entries reach each bound. -/
theorem eq_of_countP {a b : List S} (ha : a.Pairwise fun x y => y ≤ x)
    (hb : b.Pairwise fun x y => y ≤ x)
    (h : ∀ s, a.countP (fun x => s ≤ x) = b.countP (fun x => s ≤ x)) : a = b := by
  induction a generalizing b with
  | nil =>
    cases b with
    | nil => rfl
    | cons y b =>
      have := h y
      simp at this
  | cons x a ih =>
    cases b with
    | nil =>
      have := h x
      simp at this
    | cons y b =>
      rw [List.pairwise_cons] at ha hb
      have hle : ∀ {u v : S} {l : List S}, (∀ z ∈ l, z ≤ v) →
          0 < (v :: l).countP (fun z => u ≤ z) → u ≤ v := by
        intro u v l hl hpos
        obtain ⟨z, hz, huz⟩ := List.countP_pos_iff.mp hpos
        obtain rfl | hz := List.mem_cons.mp hz
        · exact of_decide_eq_true huz
        · exact (of_decide_eq_true huz).trans (hl z hz)
      have hxy : x ≤ y := hle hb.1 (by rw [← h x]; simp)
      have hyx : y ≤ x := hle ha.1 (by rw [h y]; simp)
      obtain rfl := le_antisymm hxy hyx
      refine congrArg (x :: ·) (ih ha.2 hb.2 fun s => ?_)
      have := h s
      rw [List.countP_cons, List.countP_cons] at this
      exact Nat.add_right_cancel this

namespace Top

theorem countP (h : Top score k t rows hits) (hs : t ≤ s) :
    hits.countP (fun a => s ≤ score a) = min k (rows.countP fun a => s ≤ score a) := by
  obtain ⟨ranked, hperm, hranked, rfl⟩ := h
  rw [← hperm.countP_eq, ← countP_take hranked, List.countP_filter]
  refine List.countP_congr fun a _ => ?_
  simp only [Bool.and_eq_true, decide_eq_true_eq]
  exact ⟨And.left, fun ha => ⟨ha, hs.trans ha⟩⟩

theorem mem (h : Top score k t rows hits) {x : α} (hx : x ∈ hits) : x ∈ rows ∧ t ≤ score x := by
  obtain ⟨ranked, hperm, hranked, rfl⟩ := h
  rw [List.mem_filter, decide_eq_true_eq] at hx
  exact ⟨hperm.subset (List.mem_of_mem_take hx.1), hx.2⟩

theorem length_le (h : Top score k t rows hits) : hits.length ≤ k := by
  obtain ⟨ranked, hperm, hranked, rfl⟩ := h
  exact (List.length_filter_le _ _).trans (List.length_take_le k ranked)

theorem pairwise (h : Top score k t rows hits) :
    (hits.map score).Pairwise fun x y => y ≤ x := by
  obtain ⟨ranked, hperm, hranked, rfl⟩ := h
  rw [List.pairwise_map]
  exact (hranked.sublist (List.take_sublist k ranked)).sublist List.filter_sublist

/-- A row that is left out although it reaches the threshold is outranked by `k` rows. -/
theorem cut (h : Top score k t rows hits) {x : α} (hx : x ∈ rows) (ht : t ≤ score x)
    (hout : x ∉ hits) : k ≤ rows.countP fun a => score x ≤ score a := by
  obtain ⟨ranked, hperm, hranked, rfl⟩ := h
  have hnot : x ∉ ranked.take k := fun hin =>
    hout (List.mem_filter.mpr ⟨hin, decide_eq_true ht⟩)
  have hin := hperm.mem_iff.mpr hx
  rw [← List.take_append_drop k ranked, List.mem_append] at hin
  have hdrop := hin.resolve_left hnot
  have hlen : (ranked.take k).length = k := by
    have := List.length_pos_of_mem hdrop
    rw [List.length_drop] at this
    rw [List.length_take]
    omega
  have hall : (ranked.take k).countP (fun a => score x ≤ score a) = (ranked.take k).length := by
    rw [List.countP_eq_length]
    intro a ha
    have hsplit := hranked
    rw [← List.take_append_drop k ranked, List.pairwise_append] at hsplit
    exact decide_eq_true (hsplit.2.2 a ha x hdrop)
  rw [← hperm.countP_eq]
  calc k = (ranked.take k).countP (fun a => score x ≤ score a) := by rw [hall, hlen]
    _ ≤ _ := (List.take_sublist k ranked).countP_le

/-- A full answer whose rows all reach `s`. -/
theorem full (h : Top score k t rows hits) (hs : t ≤ s)
    (hk : k ≤ rows.countP fun a => s ≤ score a) :
    hits.length = k ∧ ∀ y ∈ hits, s ≤ score y := by
  have hcount := h.countP hs
  rw [Nat.min_eq_left hk] at hcount
  have hle := List.countP_le_length (p := fun a => decide (s ≤ score a)) (l := hits)
  have hlen : hits.length = k := Nat.le_antisymm h.length_le (hcount ▸ hle)
  refine ⟨hlen, fun y hy => ?_⟩
  rw [← hlen, List.countP_eq_length] at hcount
  exact of_decide_eq_true (hcount y hy)

/-- The answers from `rows` and from the part `rows'` of them agree exactly when every row that
the part lacks is matched by `k` of its rows. -/
theorem agree_iff (h : Top score k t rows hits) (h' : Top score k t rows' hits')
    (hrows : rows.Nodup) (hrows' : rows'.Nodup) (hsub : ∀ x ∈ rows', t ≤ score x → x ∈ rows) :
    Agree score k hits hits' ↔ ∀ x ∈ rows, t ≤ score x → x ∉ rows' →
      k ≤ rows'.countP fun a => score x ≤ score a := by
  have hreach : ∀ {s}, t ≤ s → ∀ x ∈ rows'.filter (fun a => s ≤ score a),
      x ∈ rows.filter (fun a => s ≤ score a) := by
    intro s hs x hx
    rw [List.mem_filter, decide_eq_true_eq] at hx ⊢
    exact ⟨hsub x hx.1 (hs.trans hx.2), hx.2⟩
  have hle : ∀ {s}, t ≤ s → rows'.countP (fun a => s ≤ score a) ≤
      rows.countP (fun a => s ≤ score a) := by
    intro s hs
    rw [List.countP_eq_length_filter, List.countP_eq_length_filter]
    exact ((hrows'.filter _).subperm (hreach hs)).length_le
  constructor
  · intro hagree x hx ht hout
    by_contra hk
    have hlt : rows'.countP (fun a => score x ≤ score a) <
        rows.countP (fun a => score x ≤ score a) := by
      rw [List.countP_eq_length_filter, List.countP_eq_length_filter]
      have hnew : x ∉ rows'.filter fun a => score x ≤ score a :=
        fun hin => hout (List.mem_filter.mp hin).1
      have hmem : ∀ y ∈ x :: rows'.filter fun a => score x ≤ score a,
          y ∈ rows.filter fun a => score x ≤ score a := by
        intro y hy
        obtain rfl | hy := List.mem_cons.mp hy
        · exact List.mem_filter.mpr ⟨hx, by simp⟩
        · exact hreach ht y hy
      exact ((List.nodup_cons.mpr ⟨hnew, hrows'.filter _⟩).subperm hmem).length_le
    have hcount := congrArg (List.countP fun a => score x ≤ a) hagree.scores
    rw [List.countP_map, List.countP_map] at hcount
    have h₁ := h.countP ht
    have h₂ := h'.countP ht
    simp only [Function.comp_def] at hcount
    omega
  · intro hmatched
    have hcount : ∀ {s}, t ≤ s → hits.countP (fun a => s ≤ score a) =
        hits'.countP (fun a => s ≤ score a) := by
      intro s hs
      rw [h.countP hs, h'.countP hs]
      by_cases hlost : ∃ x ∈ rows, s ≤ score x ∧ x ∉ rows'
      · obtain ⟨x, hx, hsx, hout⟩ := hlost
        have hk := hmatched x hx (hs.trans hsx) hout
        have hmono : rows'.countP (fun a => score x ≤ score a) ≤
            rows'.countP (fun a => s ≤ score a) :=
          List.countP_mono_left fun a _ ha =>
            decide_eq_true (hsx.trans (of_decide_eq_true ha))
        have := hle hs
        omega
      · refine congrArg _ (Nat.le_antisymm ?_ (hle hs))
        rw [List.countP_eq_length_filter, List.countP_eq_length_filter]
        refine ((hrows.filter _).subperm fun x hx => ?_).length_le
        rw [List.mem_filter, decide_eq_true_eq] at hx ⊢
        refine ⟨?_, hx.2⟩
        by_contra hout
        exact hlost ⟨x, hx.1, hx.2, hout⟩
    have hscores : hits.map score = hits'.map score := by
      refine eq_of_countP h.pairwise h'.pairwise fun s => ?_
      rw [List.countP_map, List.countP_map]
      by_cases hs : t ≤ s
      · exact hcount hs
      · have hall : ∀ {rs l : List α}, Top score k t rs l →
            l.countP (fun a => s ≤ score a) = l.countP (fun a => t ≤ score a) := by
          intro rs l hl
          refine List.countP_congr fun a ha => ?_
          have hta := (hl.mem ha).2
          simp [hta, (le_of_not_ge hs).trans hta]
        exact (hall h).trans ((hcount le_rfl).trans (hall h').symm)
    have hlength : hits.length = hits'.length := by
      simpa using congrArg List.length hscores
    refine ⟨hscores, fun x hx hout => ?_, fun x hx hout => ?_⟩
    · obtain ⟨hin, ht⟩ := h.mem hx
      have hk : k ≤ rows'.countP fun a => score x ≤ score a := by
        by_cases hin' : x ∈ rows'
        · exact h'.cut hin' ht hout
        · exact hmatched x hin ht hin'
      exact h.full ht (hk.trans (hle ht))
    · obtain ⟨hin, ht⟩ := h'.mem hx
      have hk := h.cut (hsub x hin ht) ht hout
      have hfull := (h.full ht hk).2
      refine ⟨hlength ▸ (h.full ht hk).1, fun y hy => ?_⟩
      have hy' : score y ∈ hits.map score := hscores ▸ List.mem_map_of_mem hy
      obtain ⟨z, hz, hzy⟩ := List.mem_map.mp hy'
      exact hzy ▸ hfull z hz

end Top

end AgentDesk.Framework
