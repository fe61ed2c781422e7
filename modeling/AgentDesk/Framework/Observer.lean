import AgentDesk.Framework.Interference

namespace AgentDesk.Framework

variable {Op : Type} {Res : Op → Type} {Reply World St α β : Type}

/-- An observer follows a session call by call: what it demands before a call, and the
states it may be in when the call has returned. -/
structure Observer (Op : Type) (Res : Op → Type) (St : Type) where
  ok : St → Op → Prop
  next : St → (op : Op) → Res op → St → Prop

/-- Whatever the calls return, the program meets the demands of the observer and ends in `Q`. -/
def Program.Obeys (O : Observer Op Res St) : Program Op Res α → (α → St → Prop) → St → Prop
  | .ret a, Q, s => Q a s
  | .call op next, Q, s => O.ok s op ∧ ∀ r s', O.next s op r s' → (next r).Obeys O Q s'

namespace Program

variable {O : Observer Op Res St}

@[simp] theorem obeys_ret (a : α) (Q : α → St → Prop) (s : St) :
    (ret a : Program Op Res α).Obeys O Q s ↔ Q a s := Iff.rfl

theorem obeys_call (op : Op) (next : Res op → Program Op Res α) (Q : α → St → Prop) (s : St) :
    (call op next).Obeys O Q s ↔
      O.ok s op ∧ ∀ r s', O.next s op r s' → (next r).Obeys O Q s' := Iff.rfl

theorem obeys_bind (p : Program Op Res α) (f : α → Program Op Res β) (Q : β → St → Prop)
    (s : St) :
    (p.bind f).Obeys O Q s ↔ p.Obeys O (fun a s' => (f a).Obeys O Q s') s := by
  induction p generalizing s with
  | ret a => rfl
  | call op next ih =>
    constructor
    · rintro ⟨hok, h⟩
      exact ⟨hok, fun r s' hn => (ih r s').mp (h r s' hn)⟩
    · rintro ⟨hok, h⟩
      exact ⟨hok, fun r s' hn => (ih r s').mpr (h r s' hn)⟩

theorem obeys_mono {p : Program Op Res α} {Q Q' : α → St → Prop} {s : St} (h : p.Obeys O Q s)
    (hq : ∀ a s', Q a s' → Q' a s') : p.Obeys O Q' s := by
  induction p generalizing s with
  | ret a => exact hq a s h
  | call op next ih => exact ⟨h.1, fun r s' hn => ih r (h.2 r s' hn)⟩

/-- A program whose calls are all allowed, where an allowed call meets the demands and
keeps `P`. -/
theorem obeys_of_uses {allowed : Op → Prop} {post : α → Prop} {P : St → Prop}
    {p : Program Op Res α} {s : St} (hu : p.Uses allowed post) (hp : P s)
    (hcall : ∀ op s, allowed op → P s → O.ok s op ∧ ∀ r s', O.next s op r s' → P s') :
    p.Obeys O (fun a s' => post a ∧ P s') s := by
  induction p generalizing s with
  | ret a => exact ⟨hu, hp⟩
  | call op next ih =>
    obtain ⟨hok, hnext⟩ := hcall op s hu.1 hp
    exact ⟨hok, fun r s' hn => ih r (hu.2 r) (hnext r s' hn)⟩

/-- What every call keeps, a program keeps. -/
theorem obeys_invariant {I : St → Prop}
    (hcall : ∀ {s op}, I s → O.ok s op ∧ ∀ r s', O.next s op r s' → I s')
    (p : Program Op Res α) {s : St} (h : I s) : p.Obeys O (fun _ s' => I s') s := by
  induction p generalizing s with
  | ret a => exact h
  | call op next ih => exact ⟨(hcall h).1, fun r s' hn => ih r ((hcall h).2 r s' hn)⟩

end Program

/-- Two observers at once. -/
def Observer.both {St₁ St₂ : Type} (O₁ : Observer Op Res St₁) (O₂ : Observer Op Res St₂) :
    Observer Op Res (St₁ × St₂) where
  ok s op := O₁.ok s.1 op ∧ O₂.ok s.2 op
  next s op r s' := O₁.next s.1 op r s'.1 ∧ O₂.next s.2 op r s'.2

theorem Program.obeys_both {St₁ St₂ : Type} {O₁ : Observer Op Res St₁} {O₂ : Observer Op Res St₂}
    {Q₁ : α → St₁ → Prop} {Q₂ : α → St₂ → Prop} {p : Program Op Res α} {s₁ : St₁} {s₂ : St₂}
    (h₁ : p.Obeys O₁ Q₁ s₁) (h₂ : p.Obeys O₂ Q₂ s₂) :
    p.Obeys (O₁.both O₂) (fun a s => Q₁ a s.1 ∧ Q₂ a s.2) (s₁, s₂) := by
  induction p generalizing s₁ s₂ with
  | ret a => exact ⟨h₁, h₂⟩
  | call op next ih =>
    refine ⟨⟨h₁.1, h₂.1⟩, fun r s' hn => ?_⟩
    exact ih r (h₁.2 r s'.1 hn.1) (h₂.2 r s'.2 hn.2)

/-- The observer of calls whose results are all of this kind. -/
def Observer.given (O : Observer Op Res St) (P : (op : Op) → Res op → Prop) :
    Observer Op Res St where
  ok := O.ok
  next s op r s' := P op r ∧ O.next s op r s'

section Given

variable {O : Observer Op Res St} {P : (op : Op) → Res op → Prop}

@[simp] theorem given_ok (s : St) (op : Op) : (O.given P).ok s op ↔ O.ok s op := Iff.rfl

@[simp] theorem forall_given {s : St} {op : Op} {r : Res op} {Q : St → Prop} :
    (∀ s', (O.given P).next s op r s' → Q s') ↔ (P op r → ∀ s', O.next s op r s' → Q s') :=
  ⟨fun h hp s' hn => h s' ⟨hp, hn⟩, fun h s' hn => h hn.1 s' hn.2⟩

/-- What such results keep may be assumed at the end. -/
theorem Program.obeys_given {I : St → Prop}
    (hkeep : ∀ {s op r s'}, I s → P op r → O.next s op r s' → I s') {p : Program Op Res α}
    {Q : α → St → Prop} {s : St} (h : p.Obeys O Q s) (hI : I s) :
    p.Obeys (O.given P) (fun a s' => Q a s' ∧ I s') s := by
  induction p generalizing s with
  | ret a => exact ⟨h, hI⟩
  | call op next ih => exact ⟨h.1, fun r s' hn => ih r (h.2 r s' hn.2) (hkeep hI hn.1 hn.2)⟩

end Given

/-- An observer of one session is right about the world while the rules hold: what it
knows survives the others, and each call moves it along. -/
structure Follows (M : Machine Op Res Reply World) (R : Rules Op Res World) (c : Nat)
    (O : Observer Op Res St) (P : World → St → Prop) : Prop where
  stable : ∀ {w w' s}, R.rely c w w' → R.inv w' → P w s → P w' s
  step : ∀ {w op reply r w' s}, R.inv w → P w s → O.ok s op → M.exec c op reply w = some (r, w') →
    R.cond c w op r w' → R.guar c w op r w' ∧ ∃ s', O.next s op r s' ∧ P w' s'

theorem wp_of_obeys {M : Machine Op Res Reply World} {R : Rules Op Res World} {c : Nat}
    {O : Observer Op Res St} {P : World → St → Prop} (hf : Follows M R c O P)
    {p : Program Op Res α} {Q : α → St → Prop} {w : World} {s : St} (h : p.Obeys O Q s)
    (hp : P w s) : wp M R c p (fun a w' => ∃ s', Q a s' ∧ P w' s') w := by
  induction p generalizing w s with
  | ret a => exact ⟨s, h, hp⟩
  | call op next ih =>
    intro w₁ hr hi reply r w₂ he hc
    obtain ⟨hg, s', hn, hp'⟩ := hf.step hi (hf.stable hr hi hp) h.1 he hc
    exact ⟨hg, ih r (h.2 r s' hn) hp'⟩

/-- A program that runs alone comes to its end, and ends as its observer says. -/
theorem run_of_obeys {M : Machine Op Res Reply World} {c : Nat} {O : Observer Op Res St}
    {P : World → St → Prop}
    (hstep : ∀ {w op s} (reply : Reply), P w s → O.ok s op →
      ∃ r w', M.exec c op reply w = some (r, w') ∧ ∃ s', O.next s op r s' ∧ P w' s')
    {p : Program Op Res α} {Q : α → St → Prop} {w : World} {s : St} (env : Nat → Reply)
    (h : p.Obeys O Q s) (hp : P w s) :
    ∃ a w' env', p.run M c env w = some (a, w', env') ∧ ∃ s', Q a s' ∧ P w' s' := by
  induction p generalizing w s env with
  | ret b => exact ⟨b, w, env, rfl, s, h, hp⟩
  | call op next ih =>
    obtain ⟨r, w₁, he, s', hn, hp'⟩ := hstep (env 0) hp h.1
    obtain ⟨a, w', env', hr, hq⟩ := ih r (fun n => env (n + 1)) (h.2 r s' hn) hp'
    exact ⟨a, w', env', (Program.run_call_some he).trans hr, hq⟩

/-- The same for a run that is known to have come to its end. -/
theorem post_of_run {M : Machine Op Res Reply World} {c : Nat} {O : Observer Op Res St}
    {P : World → St → Prop}
    (hstep : ∀ {w op s reply r w'}, P w s → O.ok s op → M.exec c op reply w = some (r, w') →
      ∃ s', O.next s op r s' ∧ P w' s')
    {p : Program Op Res α} {Q : α → St → Prop} {w w' : World} {s : St} {env env' : Nat → Reply}
    {a : α} (h : p.Obeys O Q s) (hp : P w s) (hr : p.run M c env w = some (a, w', env')) :
    ∃ s', Q a s' ∧ P w' s' := by
  induction p generalizing w s env with
  | ret b =>
    cases hr
    exact ⟨s, h, hp⟩
  | call op next ih =>
    cases he : M.exec c op (env 0) w with
    | none => simp [Program.run, he] at hr
    | some x =>
      obtain ⟨r, w₁⟩ := x
      rw [Program.run_call_some he] at hr
      obtain ⟨s', hn, hp'⟩ := hstep hp h.1 he
      exact ih r (h.2 r s' hn) hp' hr

end AgentDesk.Framework
