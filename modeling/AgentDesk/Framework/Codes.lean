import Mathlib.Data.List.Basic

namespace AgentDesk.Framework

variable {α β : Type} {code : α → List β} {a b : α} {xs ys : List α} {r r' : List β} {stop sep : β}

/-- In front of whatever text, the codes of `a` and `b` are told apart. -/
def Tells (code : α → List β) (a b : α) : Prop := ∀ r r', code a ++ r = code b ++ r' → a = b

/-- No text that begins with the code begins with `stop`. -/
def Avoids (stop : β) (code : List β) : Prop := ∃ x rest, code = x :: rest ∧ x ≠ stop

theorem Tells.rest (h : Tells code a b) (heq : code a ++ r = code b ++ r') : a = b ∧ r = r' := by
  have hab := h r r' heq
  subst hab
  exact ⟨rfl, List.append_cancel_left heq⟩

theorem Tells.injective (h : ∀ a b, Tells code a b) : Function.Injective code := by
  intro a b hab
  exact h a b [] [] (by rw [hab])

theorem Avoids.append_ne {c : List β} (h : Avoids stop c) (r r' : List β) :
    c ++ r ≠ stop :: r' := by
  obtain ⟨x, rest, rfl, hx⟩ := h
  intro heq
  rw [List.cons_append, List.cons.injEq] at heq
  exact hx heq.1

/-- A sequence of codes that a stop mark ends is read off. -/
theorem flatMap_stop (htells : ∀ a ∈ xs, ∀ b ∈ ys, Tells code a b)
    (hxs : ∀ a ∈ xs, Avoids stop (code a)) (hys : ∀ b ∈ ys, Avoids stop (code b))
    (heq : xs.flatMap code ++ stop :: r = ys.flatMap code ++ stop :: r') : xs = ys ∧ r = r' := by
  induction xs generalizing ys with
  | nil =>
    cases ys with
    | nil =>
      rw [List.flatMap_nil, List.nil_append, List.nil_append, List.cons.injEq] at heq
      exact ⟨rfl, heq.2⟩
    | cons b ys =>
      rw [List.flatMap_cons, List.append_assoc, List.flatMap_nil, List.nil_append] at heq
      exact absurd heq.symm ((hys b List.mem_cons_self).append_ne _ _)
  | cons a xs ih =>
    cases ys with
    | nil =>
      rw [List.flatMap_cons, List.append_assoc, List.flatMap_nil, List.nil_append] at heq
      exact absurd heq ((hxs a List.mem_cons_self).append_ne _ _)
    | cons b ys =>
      rw [List.flatMap_cons, List.flatMap_cons, List.append_assoc, List.append_assoc] at heq
      obtain ⟨hab, hrest⟩ := (htells a List.mem_cons_self b List.mem_cons_self).rest heq
      obtain ⟨hxy, hr⟩ := ih (fun c hc d hd => htells c (List.mem_cons_of_mem a hc) d
          (List.mem_cons_of_mem b hd)) (fun c hc => hxs c (List.mem_cons_of_mem a hc))
        (fun d hd => hys d (List.mem_cons_of_mem b hd)) hrest
      exact ⟨by rw [hab, hxy], hr⟩

/-- The codes of the items with a mark between neighbours. -/
def joined (sep : β) (code : α → List β) : List α → List β
  | [] => []
  | a :: as => code a ++ as.flatMap fun b => sep :: code b

theorem Tells.marked (h : Tells code a b) (sep : β) : Tells (fun a => sep :: code a) a b := by
  intro r r' heq
  rw [List.cons_append, List.cons_append, List.cons.injEq] at heq
  exact h r r' heq.2

/-- A sequence of separated codes that a stop mark ends is read off. -/
theorem joined_stop (htells : ∀ a ∈ xs, ∀ b ∈ ys, Tells code a b)
    (hxs : ∀ a ∈ xs, Avoids stop (code a)) (hys : ∀ b ∈ ys, Avoids stop (code b))
    (hsep : sep ≠ stop)
    (heq : joined sep code xs ++ stop :: r = joined sep code ys ++ stop :: r') :
    xs = ys ∧ r = r' := by
  have havoids : ∀ a, Avoids stop (sep :: code a) := fun a => ⟨sep, code a, rfl, hsep⟩
  cases xs with
  | nil =>
    cases ys with
    | nil =>
      rw [joined, List.nil_append, List.nil_append, List.cons.injEq] at heq
      exact ⟨rfl, heq.2⟩
    | cons b ys =>
      rw [joined, joined, List.append_assoc, List.nil_append] at heq
      exact absurd heq.symm ((hys b List.mem_cons_self).append_ne _ _)
  | cons a xs =>
    cases ys with
    | nil =>
      rw [joined, joined, List.append_assoc, List.nil_append] at heq
      exact absurd heq ((hxs a List.mem_cons_self).append_ne _ _)
    | cons b ys =>
      rw [joined, joined, List.append_assoc, List.append_assoc] at heq
      obtain ⟨hab, hrest⟩ := (htells a List.mem_cons_self b List.mem_cons_self).rest heq
      obtain ⟨hxy, hr⟩ := flatMap_stop (fun c hc d hd =>
          (htells c (List.mem_cons_of_mem a hc) d (List.mem_cons_of_mem b hd)).marked sep)
        (fun c _ => havoids c) (fun d _ => havoids d) hrest
      exact ⟨by rw [hab, hxy], hr⟩

end AgentDesk.Framework
