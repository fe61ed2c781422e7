import AgentDesk.Services.Retrieval
import Mathlib.Tactic.Linarith
import Mathlib.Algebra.Order.Ring.Abs
import Mathlib.Algebra.Order.BigOperators.Group.List

namespace AgentDesk

variable {S : Type} [Field S] [LinearOrder S] [IsStrictOrderedRing S] {cfg : Config S}

/-- The square root of the deployment is one. -/
def Config.SquareRoots (cfg : Config S) : Prop :=
  ∀ x : S, 0 ≤ x → 0 ≤ cfg.sqrt x ∧ cfg.sqrt x * cfg.sqrt x = x

namespace RetrievalService

theorem squares_nonneg (a : List S) : 0 ≤ (a.map fun x => x * x).sum := by
  refine List.sum_nonneg fun y hy => ?_
  obtain ⟨x, -, rfl⟩ := List.mem_map.mp hy
  exact mul_self_nonneg x

/-- One more coordinate in the inequality of Cauchy and Schwarz. -/
theorem sq_step {A B D x y : S} (hA : 0 ≤ A) (hB : 0 ≤ B) (h : D * D ≤ A * B) :
    (x * y + D) * (x * y + D) ≤ (x * x + A) * (y * y + B) := by
  have hmixed : 2 * (x * y * D) ≤ x * x * B + y * y * A := by
    rcases hA.eq_or_lt with hzero | hpos
    · have hD : D = 0 := by
        rw [← hzero, zero_mul] at h
        exact mul_self_eq_zero.mp (le_antisymm h (mul_self_nonneg D))
      rw [hD, ← hzero, mul_zero, mul_zero, mul_zero, add_zero]
      exact mul_nonneg (mul_self_nonneg x) hB
    · have hsquare : 0 ≤ (y * A - x * D) * (y * A - x * D) := mul_self_nonneg _
      have hrest : 0 ≤ x * x * (A * B - D * D) :=
        mul_nonneg (mul_self_nonneg x) (sub_nonneg.mpr h)
      have hscaled : A * (2 * (x * y * D)) ≤ A * (x * x * B + y * y * A) := by linarith
      exact le_of_mul_le_mul_left hscaled hpos
  linarith

theorem dot_sq_le (a b : List S) :
    dot a b * dot a b ≤ (a.map fun x => x * x).sum * (b.map fun x => x * x).sum := by
  induction a generalizing b with
  | nil => simp [dot]
  | cons x a ih =>
    cases b with
    | nil => simp [dot]
    | cons y b =>
      have hstep := sq_step (x := x) (y := y) (squares_nonneg a) (squares_nonneg b) (ih b)
      simpa [dot] using hstep

/-- A cosine lies between minus one and one. -/
theorem abs_cosine_le (hsqrt : cfg.SquareRoots) (a b : List S) : |cosine cfg a b| ≤ 1 := by
  obtain ⟨hna, hna'⟩ := hsqrt _ (squares_nonneg a)
  obtain ⟨hnb, hnb'⟩ := hsqrt _ (squares_nonneg b)
  unfold cosine norm
  simp only
  split
  · rw [abs_zero]
    exact zero_le_one
  · rename_i hne
    rw [not_or] at hne
    have hpos := mul_pos (hna.lt_of_ne (Ne.symm hne.1)) (hnb.lt_of_ne (Ne.symm hne.2))
    rw [abs_div, abs_of_pos hpos, div_le_one hpos]
    refine abs_le_of_sq_le_sq ?_ hpos.le
    calc dot a b ^ 2 = dot a b * dot a b := sq _
      _ ≤ (a.map fun x => x * x).sum * (b.map fun x => x * x).sum := dot_sq_le a b
      _ = _ := by rw [mul_pow, sq, sq, hna', hnb']

theorem cosine_le_one (hsqrt : cfg.SquareRoots) (a b : List S) : cosine cfg a b ≤ 1 :=
  (abs_le.mp (abs_cosine_le hsqrt a b)).2

end RetrievalService

end AgentDesk
