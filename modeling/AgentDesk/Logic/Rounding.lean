import AgentDesk.Model.Text
import Mathlib.Tactic.Linarith
import Mathlib.Algebra.Order.Ring.Abs
import Mathlib.Algebra.Ring.Int.Parity
import Mathlib.Data.Rat.Cast.Order

namespace AgentDesk

variable {S : Type} [Field S] [LinearOrder S] [FloorRing S] {x y z : S} {k m : ℤ} {n : Nat}

/-- What rounding half to even does. -/
structure Rounds (y : S) (k : ℤ) : Prop where
  near : |(k : S) - y| ≤ 1 / 2
  even : |(k : S) - y| = 1 / 2 → Even k

variable [IsStrictOrderedRing S]

theorem rounds_halfEven (y : S) : Rounds y (halfEven y) := by
  have hlow : (⌊y⌋ : S) ≤ y := Int.floor_le y
  have hhigh : y < (⌊y⌋ : S) + 1 := Int.lt_floor_add_one y
  have below : |(⌊y⌋ : S) - y| = y - ⌊y⌋ := by
    rw [abs_sub_comm]
    exact abs_of_nonneg (by linarith)
  have above : |((⌊y⌋ + 1 : ℤ) : S) - y| = ⌊y⌋ + 1 - y := by
    rw [Int.cast_add, Int.cast_one]
    exact abs_of_nonneg (by linarith)
  unfold halfEven
  simp only
  by_cases hless : y - ⌊y⌋ < 1 / 2
  · rw [if_pos hless]
    refine ⟨by rw [below]; exact hless.le, fun h => ?_⟩
    rw [below] at h
    exact absurd h hless.ne
  · rw [if_neg hless]
    by_cases hmore : 1 / 2 < y - ⌊y⌋
    · rw [if_pos hmore]
      refine ⟨by rw [above]; linarith, fun h => ?_⟩
      rw [above] at h
      exact absurd hmore (by linarith)
    · rw [if_neg hmore]
      have hhalf : y - ⌊y⌋ = 1 / 2 := le_antisymm (not_lt.mp hmore) (not_lt.mp hless)
      by_cases heven : ⌊y⌋ % 2 = 0
      · rw [if_pos heven]
        exact ⟨by rw [below, hhalf], fun _ => Int.even_iff.mpr heven⟩
      · rw [if_neg heven]
        refine ⟨by rw [above]; linarith, fun _ => ?_⟩
        rw [Int.even_iff]
        omega

theorem Rounds.unique (h : Rounds y k) (h' : Rounds y m) : k = m := by
  have next : ∀ {a b : ℤ}, Rounds y a → Rounds y b → a < b → False := by
    intro a b ha hb hlt
    have hstep : (a : S) + 1 ≤ b := by exact_mod_cast hlt
    have hya := abs_le.mp ha.near
    have hyb := abs_le.mp hb.near
    have hb₁ : (b : S) = a + 1 := by linarith
    have hya' : |(a : S) - y| = 1 / 2 := by
      rw [abs_sub_comm, abs_of_nonneg (by linarith)]
      linarith
    have hyb' : |(b : S) - y| = 1 / 2 := by
      rw [abs_of_nonneg (by linarith)]
      linarith
    have hba : b = a + 1 := by exact_mod_cast hb₁
    have heven := hb.even hyb'
    rw [hba, Int.even_add_one] at heven
    exact heven (ha.even hya')
  rcases lt_trichotomy k m with hlt | heq | hgt
  · exact (next h h' hlt).elim
  · exact heq
  · exact (next h' h hgt).elim

theorem halfEven_eq (h : Rounds y k) : halfEven y = k := (rounds_halfEven y).unique h

theorem halfEven_intCast (k : ℤ) : halfEven (k : S) = k := by
  refine halfEven_eq ⟨?_, fun h => ?_⟩
  · rw [sub_self, abs_zero]
    norm_num
  · rw [sub_self, abs_zero] at h
    norm_num at h

theorem halfEven_mono (h : y ≤ z) : halfEven y ≤ halfEven z := by
  by_contra hlt
  have hstep : (halfEven z : S) + 1 ≤ halfEven y := by exact_mod_cast not_le.mp hlt
  have hy := abs_le.mp (rounds_halfEven y).near
  have hz := abs_le.mp (rounds_halfEven z).near
  have heq : y = z := by linarith
  rw [heq] at hlt
  exact hlt le_rfl

/-- What is symmetric about half an even number stays so. -/
theorem halfEven_sub (hm : Even m) : halfEven ((m : S) - y) = m - halfEven y := by
  have hy := rounds_halfEven y
  have hdist : |((m - halfEven y : ℤ) : S) - ((m : S) - y)| = |(halfEven y : S) - y| := by
    rw [Int.cast_sub, ← abs_neg]
    congr 1
    ring
  refine halfEven_eq ⟨by rw [hdist]; exact hy.near, fun h => ?_⟩
  rw [hdist] at h
  exact hm.sub (hy.even h)

/-! Decimal places -/

theorem roundTo_mono (n : Nat) (h : x ≤ y) : roundTo n x ≤ roundTo n y := by
  have hpow : (0 : S) ≤ 10 ^ n := by positivity
  unfold roundTo
  refine div_le_div_of_nonneg_right ?_ (by positivity)
  exact_mod_cast halfEven_mono (mul_le_mul_of_nonneg_right h hpow)

/-- Numbers with that many places stay as they are. -/
theorem roundTo_exact (n : Nat) (k : ℤ) : roundTo n ((k : S) / 10 ^ n) = (k : ℚ) / 10 ^ n := by
  have hpow : (10 : S) ^ n ≠ 0 := by positivity
  rw [roundTo, div_mul_cancel₀ _ hpow, halfEven_intCast]

theorem roundTo_intCast (n : Nat) (k : ℤ) : roundTo n (k : S) = k := by
  have hpow : (10 : ℚ) ^ n ≠ 0 := by positivity
  have hpow' : (10 : S) ^ n ≠ 0 := by positivity
  have hk : (k : S) = ((k * 10 ^ n : ℤ) : S) / 10 ^ n := by
    rw [Int.cast_mul, Int.cast_pow, Int.cast_ofNat, mul_div_cancel_right₀ _ hpow']
  rw [hk, roundTo_exact, Int.cast_mul, Int.cast_pow, Int.cast_ofNat, mul_div_cancel_right₀ _ hpow]

/-- Rounding moves a number by half a unit of the last place at most. -/
theorem roundTo_near (n : Nat) (x : S) : |((roundTo n x : ℚ) : S) - x| ≤ 1 / 2 / 10 ^ n := by
  have hpow : (0 : S) < 10 ^ n := by positivity
  have hcast : ((roundTo n x : ℚ) : S) = (halfEven (x * 10 ^ n) : S) / 10 ^ n := by
    rw [roundTo]
    push_cast
    rfl
  have hdist : ((roundTo n x : ℚ) : S) - x = ((halfEven (x * 10 ^ n) : S) - x * 10 ^ n) / 10 ^ n := by
    rw [hcast, sub_div, mul_div_cancel_right₀ _ hpow.ne']
  rw [hdist, abs_div, abs_of_pos hpow]
  exact div_le_div_of_nonneg_right (rounds_halfEven _).near hpow.le

/-- Shares of one that add up to it still do when they are rounded. -/
theorem roundTo_compl (hn : n ≠ 0) (x : S) : roundTo n x + roundTo n (1 - x) = 1 := by
  have hpow : (10 : ℚ) ^ n ≠ 0 := by positivity
  have heven : Even ((10 : ℤ) ^ n) := Even.pow_of_ne_zero (by decide) hn
  have hsub : (1 - x) * 10 ^ n = (((10 : ℤ) ^ n : ℤ) : S) - x * 10 ^ n := by
    push_cast
    ring
  rw [roundTo, roundTo, hsub, halfEven_sub heven]
  push_cast
  field_simp
  ring

end AgentDesk
