import Mathlib.Tactic.Common

namespace AgentDesk.Framework

variable {α : Type} {size step : Nat} {xs : List α} {ws : List (List α)}

/-- The overlapping windows of a list, up to the first one that reaches its end. -/
inductive Slides (size step : Nat) : List α → List (List α) → Prop
  | last {xs : List α} (hne : xs ≠ []) (hle : xs.length ≤ size) : Slides size step xs [xs]
  | more {xs : List α} {ws : List (List α)} (hlt : size < xs.length)
      (rest : Slides size step (xs.drop step) ws) : Slides size step xs (xs.take size :: ws)

namespace Slides

theorem head_eq (h : Slides size step xs ws) : ∃ rest, ws = xs.take size :: rest := by
  cases h with
  | last hne hle => exact ⟨[], by rw [List.take_of_length_le hle]⟩
  | more hlt rest => exact ⟨_, rfl⟩

theorem window_eq (h : Slides size step xs ws) (k : Nat) (w : List α) (hk : ws[k]? = some w) :
    w = (xs.drop (k * step)).take size := by
  induction h generalizing k with
  | last hne hle =>
    cases k with
    | zero =>
      obtain rfl := Option.some.inj hk
      rw [Nat.zero_mul, List.drop_zero, List.take_of_length_le hle]
    | succ k => cases hk
  | more hlt rest ih =>
    cases k with
    | zero =>
      obtain rfl := Option.some.inj hk
      rw [Nat.zero_mul, List.drop_zero]
    | succ k =>
      rw [ih k hk, List.drop_drop, Nat.succ_mul, Nat.add_comm]

theorem bounds (h : Slides size step xs ws) (hsize : 1 ≤ size) :
    ∀ w ∈ ws, 1 ≤ w.length ∧ w.length ≤ size := by
  induction h with
  | last hne hle =>
    intro w hw
    obtain rfl := List.mem_singleton.mp hw
    exact ⟨List.length_pos_iff.mpr hne, hle⟩
  | more hlt rest ih =>
    intro w hw
    obtain rfl | hw := List.mem_cons.mp hw
    · rw [List.length_take]
      omega
    · exact ih w hw

theorem full (h : Slides size step xs ws) : ∀ w ∈ ws.dropLast, w.length = size := by
  induction h with
  | last hne hle => simp
  | more hlt rest ih =>
    intro w hw
    obtain ⟨ws', rfl⟩ := rest.head_eq
    rw [List.dropLast_cons_cons, List.mem_cons] at hw
    obtain rfl | hw := hw
    · rw [List.length_take]
      omega
    · exact ih w hw

/-- Without its overlap, every window but the first goes on where the one before ended. -/
theorem cover (h : Slides size step xs ws) (hstep : step ≤ size) :
    ws.headD [] ++ ws.tail.flatMap (List.drop (size - step)) = xs := by
  induction h with
  | last hne hle => simp
  | @more xs ws hlt rest ih =>
    obtain ⟨rest', hws⟩ := rest.head_eq
    rw [hws, List.headD_cons, List.tail_cons] at ih
    have hlen : size - step ≤ ((xs.drop step).take size).length := by
      rw [List.length_take, List.length_drop]
      omega
    have hdrop := congrArg (List.drop (size - step)) ih
    rw [List.drop_append_of_le_length hlen, List.drop_drop] at hdrop
    rw [List.headD_cons, List.tail_cons, hws, List.flatMap_cons, hdrop,
      show step + (size - step) = size by omega, List.take_append_drop]

theorem fresh (h : Slides size step xs ws) (hpos : 1 ≤ step) (hstep : step ≤ size) :
    ∀ w ∈ ws.tail, size - step < w.length := by
  induction h with
  | last hne hle => simp
  | @more xs ws hlt rest ih =>
    obtain ⟨rest', hws⟩ := rest.head_eq
    intro w hw
    rw [List.tail_cons, hws] at hw
    obtain rfl | hw := List.mem_cons.mp hw
    · rw [List.length_take, List.length_drop]
      omega
    · exact ih w (by rwa [hws])

end Slides

end AgentDesk.Framework
