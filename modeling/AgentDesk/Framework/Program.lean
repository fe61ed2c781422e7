import Mathlib.Data.List.Basic
import Mathlib.Tactic.ByContra

namespace AgentDesk.Framework

/-- A program that awaits calls to a shared world: a tree with one continuation
for every result of the awaited call. -/
inductive Program (Op : Type) (Res : Op → Type) (α : Type) where
  | ret (a : α)
  | call (op : Op) (next : Res op → Program Op Res α)

/-- How a call of session `c` acts on the world. `none` is a call that has to wait;
`abort` is what the world does to a session that disappears. -/
structure Machine (Op : Type) (Res : Op → Type) (Reply World : Type) where
  exec : Nat → (op : Op) → Reply → World → Option (Res op × World)
  abort : Nat → World → World

namespace Program

variable {Op : Type} {Res : Op → Type} {Reply World α β γ : Type}

def bind : Program Op Res α → (α → Program Op Res β) → Program Op Res β
  | .ret a, f => f a
  | .call op next, f => .call op fun r => (next r).bind f

@[simp] theorem ret_bind (a : α) (f : α → Program Op Res β) : (ret a).bind f = f a := rfl

@[simp] theorem call_bind (op : Op) (next : Res op → Program Op Res α)
    (f : α → Program Op Res β) :
    (call op next).bind f = .call op fun r => (next r).bind f := rfl

theorem bind_assoc (p : Program Op Res α) (f : α → Program Op Res β)
    (g : β → Program Op Res γ) :
    (p.bind f).bind g = p.bind fun a => (f a).bind g := by
  induction p with
  | ret a => rfl
  | call op next ih =>
    simp only [call_bind]
    congr 1
    funext r
    exact ih r

/-- Every call of the program is allowed and every value it can return satisfies `post`. -/
def Uses (allowed : Op → Prop) (post : α → Prop) : Program Op Res α → Prop
  | .ret a => post a
  | .call op next => allowed op ∧ ∀ r, (next r).Uses allowed post

theorem uses_bind {allowed : Op → Prop} {mid : α → Prop} {post : β → Prop}
    {p : Program Op Res α} {f : α → Program Op Res β} (hp : p.Uses allowed mid)
    (hf : ∀ a, mid a → (f a).Uses allowed post) : (p.bind f).Uses allowed post := by
  induction p with
  | ret a => exact hf a hp
  | call op next ih => exact ⟨hp.1, fun r => ih r (hp.2 r)⟩

/-- Some answers to its calls bring the program to this value. -/
def Returns : Program Op Res α → α → Prop
  | .ret a, b => a = b
  | .call _ next, b => ∃ r, (next r).Returns b

theorem returns_bind {p : Program Op Res α} {f : α → Program Op Res β} {b : β} :
    (p.bind f).Returns b ↔ ∃ a, p.Returns a ∧ (f a).Returns b := by
  induction p with
  | ret a => simp [Returns]
  | call op next ih =>
    simp only [call_bind, Returns, ih]
    constructor
    · rintro ⟨r, a, ha, hb⟩
      exact ⟨a, ⟨r, ha⟩, hb⟩
    · rintro ⟨a, ⟨r, ha⟩, hb⟩
      exact ⟨r, a, ha, hb⟩

theorem uses_mono {allowed : Op → Prop} {post post' : α → Prop} {p : Program Op Res α}
    (h : p.Uses allowed post) (hp : ∀ a, post a → post' a) : p.Uses allowed post' := by
  induction p with
  | ret a => exact hp a h
  | call op next ih => exact ⟨h.1, fun r => ih r (h.2 r)⟩

theorem uses_returns {allowed : Op → Prop} {post : α → Prop} {p : Program Op Res α}
    (h : p.Uses allowed post) : p.Uses allowed fun a => post a ∧ p.Returns a := by
  induction p with
  | ret a => exact ⟨h, rfl⟩
  | call op next ih =>
    refine ⟨h.1, fun r => uses_mono (ih r (h.2 r)) ?_⟩
    rintro a ⟨ha, hr⟩
    exact ⟨ha, r, hr⟩

/-- Run a program alone: `env` answers its calls in order. The result is `none` when a
call has to wait, which nobody else can end. -/
def run (M : Machine Op Res Reply World) (c : Nat) :
    Program Op Res α → (Nat → Reply) → World → Option (α × World × (Nat → Reply))
  | .ret a, env, w => some (a, w, env)
  | .call op next, env, w =>
    match M.exec c op (env 0) w with
    | none => none
    | some (r, w') => (next r).run M c (fun n => env (n + 1)) w'

@[simp] theorem run_ret (M : Machine Op Res Reply World) (c : Nat) (a : α)
    (env : Nat → Reply) (w : World) : (ret a : Program Op Res α).run M c env w = some (a, w, env) := rfl

theorem run_call_some {M : Machine Op Res Reply World} {c : Nat} {op : Op}
    {next : Res op → Program Op Res α} {env : Nat → Reply} {w w' : World} {r : Res op}
    (h : M.exec c op (env 0) w = some (r, w')) :
    (call op next).run M c env w = (next r).run M c (fun n => env (n + 1)) w' := by
  simp only [run, h]

theorem run_bind (M : Machine Op Res Reply World) (c : Nat) (p : Program Op Res α)
    (f : α → Program Op Res β) (env : Nat → Reply) (w : World) :
    (p.bind f).run M c env w =
      (p.run M c env w).bind fun x => (f x.1).run M c x.2.2 x.2.1 := by
  induction p generalizing env w with
  | ret a => rfl
  | call op next ih =>
    simp only [call_bind, run]
    cases M.exec c op (env 0) w with
    | none => rfl
    | some x => exact ih x.1 _ _

end Program

end AgentDesk.Framework
