import AgentDesk.Framework.Observer

namespace AgentDesk.Framework

variable {Op : Type} {Res : Op → Type} {Reply World St J α : Type}

/-- What a program that runs alone can leave behind: each of its calls may get any reply, and
it ends or disappears at any point. -/
inductive Program.Leaves (M : Machine Op Res Reply World) (c : Nat) :
    Program Op Res α → World → World → Prop
  | ended {a : α} {w : World} : Leaves M c (.ret a) w w
  | cut {p : Program Op Res α} {w : World} : Leaves M c p w (M.abort c w)
  | call {op : Op} {next : Res op → Program Op Res α} {reply : Reply} {r : Res op}
      {w w₁ w₂ : World} (exec : M.exec c op reply w = some (r, w₁))
      (rest : Leaves M c (next r) w₁ w₂) : Leaves M c (.call op next) w w₂

/-- Where a program that runs alone can come to: what is left of it, and the world then. -/
inductive Program.Reaches (M : Machine Op Res Reply World) (c : Nat) (p : Program Op Res α)
    (w : World) : Program Op Res α → World → Prop
  | start : Reaches M c p w p w
  | call {op : Op} {next : Res op → Program Op Res α} {reply : Reply} {r : Res op}
      {w₁ w₂ : World} (before : Reaches M c p w (.call op next) w₁)
      (exec : M.exec c op reply w₁ = some (r, w₂)) : Reaches M c p w (next r) w₂

/-- Sessions one after another, numbered from `n`, until the next number is `m`. -/
inductive Serial (M : Machine Op Res Reply World) (prog : J → Nat → Program Op Res α)
    (n : Nat) (w : World) : Nat → World → Prop
  | start : Serial M prog n w n w
  | session {m : Nat} {w₁ w₂ : World} (before : Serial M prog n w m w₁) (job : J)
      (leaves : (prog job m).Leaves M m w₁ w₂) : Serial M prog n w (m + 1) w₂

/-- An observer that is right about a session that runs alone tells what it leaves behind. -/
theorem Program.leaves_of_obeys {M : Machine Op Res Reply World} {c : Nat}
    {O : Observer Op Res St} {P : World → St → Prop} {I : World → Prop}
    (hstep : ∀ {w op s reply r w'}, P w s → O.ok s op → M.exec c op reply w = some (r, w') →
      ∃ s', O.next s op r s' ∧ P w' s')
    (hend : ∀ {w s}, P w s → I w ∧ I (M.abort c w)) {p : Program Op Res α} {Q : α → St → Prop}
    {w w' : World} {s : St} (h : p.Obeys O Q s) (hp : P w s) (hl : p.Leaves M c w w') : I w' := by
  induction hl generalizing s with
  | ended => exact (hend hp).1
  | cut => exact (hend hp).2
  | call exec _ ih =>
    obtain ⟨s', hn, hp'⟩ := hstep hp h.1 exec
    exact ih (h.2 _ s' hn) hp'

/-- What every session preserves, sessions one after another preserve. -/
theorem Serial.induction {M : Machine Op Res Reply World} {prog : J → Nat → Program Op Res α}
    {I : Nat → World → Prop}
    (hstep : ∀ {m w w'} (job : J), I m w → (prog job m).Leaves M m w w' → I (m + 1) w')
    {n m : Nat} {w w' : World} (h : Serial M prog n w m w') (hw : I n w) : I m w' := by
  induction h with
  | start => exact hw
  | session _ job leaves ih => exact hstep job ih leaves

/-- Sessions one after another, each of which begins in a world that meets the condition. -/
inductive Guarded (M : Machine Op Res Reply World) (prog : J → Nat → Program Op Res α)
    (C : World → J → Prop) (n : Nat) (w : World) : Nat → World → Prop
  | start : Guarded M prog C n w n w
  | session {m : Nat} {w₁ w₂ : World} (before : Guarded M prog C n w m w₁) (job : J)
      (meets : C w₁ job) (leaves : (prog job m).Leaves M m w₁ w₂) : Guarded M prog C n w (m + 1) w₂

theorem Guarded.induction {M : Machine Op Res Reply World} {prog : J → Nat → Program Op Res α}
    {C : World → J → Prop} {I : Nat → World → Prop}
    (hstep : ∀ {m w w'} (job : J), I m w → C w job → (prog job m).Leaves M m w w' → I (m + 1) w')
    {n m : Nat} {w w' : World} (h : Guarded M prog C n w m w') (hw : I n w) : I m w' := by
  induction h with
  | start => exact hw
  | session _ job meets leaves ih => exact hstep job ih meets leaves

/-- A program that runs alone to its end leaves the world in which it ends. -/
theorem Program.leaves_of_run {M : Machine Op Res Reply World} {c : Nat} {p : Program Op Res α}
    {env env' : Nat → Reply} {w w' : World} {a : α} (h : p.run M c env w = some (a, w', env')) :
    p.Leaves M c w w' := by
  induction p generalizing env w with
  | ret b =>
    simp only [Program.run_ret, Option.some.injEq, Prod.mk.injEq] at h
    obtain ⟨-, rfl, -⟩ := h
    exact .ended
  | call op next ih =>
    cases he : M.exec c op (env 0) w with
    | none => simp [Program.run, he] at h
    | some x =>
      obtain ⟨r, w₁⟩ := x
      rw [Program.run_call_some he] at h
      exact .call he (ih r h)

/-- The world after these jobs, each of which runs to its end with these replies. -/
def serially (M : Machine Op Res Reply World) (prog : J → Nat → Program Op Res α) :
    List (J × (Nat → Reply)) → Nat → World → Option World
  | [], _, w => some w
  | (job, env) :: jobs, n, w =>
    ((prog job n).run M n env w).bind fun x => serially M prog jobs (n + 1) x.2.1

theorem Serial.append {M : Machine Op Res Reply World} {prog : J → Nat → Program Op Res α}
    {jobs : List (J × (Nat → Reply))} {n m : Nat} {w w₁ w' : World} (h : Serial M prog n w m w₁)
    (hrun : serially M prog jobs m w₁ = some w') : Serial M prog n w (m + jobs.length) w' := by
  induction jobs generalizing m w₁ with
  | nil =>
    cases hrun
    exact h
  | cons x jobs ih =>
    obtain ⟨job, env⟩ := x
    rw [serially, Option.bind_eq_some_iff] at hrun
    obtain ⟨⟨a, w₂, env'⟩, hr, hrest⟩ := hrun
    have := ih (h.session job (Program.leaves_of_run hr)) hrest
    rwa [List.length_cons, Nat.add_comm jobs.length, ← Nat.add_assoc]

theorem Guarded.append {M : Machine Op Res Reply World} {prog : J → Nat → Program Op Res α}
    {C : World → J → Prop} {jobs : List (J × (Nat → Reply))} {n m : Nat} {w w₁ w' : World}
    (h : Guarded M prog C n w m w₁) (hrun : serially M prog jobs m w₁ = some w')
    (hjobs : ∀ x ∈ jobs, ∀ w, C w x.1) : Guarded M prog C n w (m + jobs.length) w' := by
  induction jobs generalizing m w₁ with
  | nil =>
    cases hrun
    exact h
  | cons x jobs ih =>
    rw [serially, Option.bind_eq_some_iff] at hrun
    obtain ⟨⟨a, w₂, env'⟩, hr, hrest⟩ := hrun
    have hmeets : C w₁ x.1 := hjobs x List.mem_cons_self w₁
    have hlast := ih (h.session x.1 hmeets (Program.leaves_of_run hr)) hrest
      fun y hy => hjobs y (List.mem_cons_of_mem x hy)
    rwa [List.length_cons, Nat.add_comm jobs.length, ← Nat.add_assoc]

end AgentDesk.Framework
