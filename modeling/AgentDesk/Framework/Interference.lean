import AgentDesk.Framework.Program

namespace AgentDesk.Framework

variable {Op : Type} {Res : Op → Type} {Reply World J α β : Type}

/-- What a proof about one session uses and shows. `start` holds when the session opens,
`rely` bounds what the others do between its calls, `cond` is a condition put on every
step of the run, and `guar` is what each call of the session has to meet. -/
structure Rules (Op : Type) (Res : Op → Type) (World : Type) where
  inv : World → Prop
  start : Nat → World → Prop
  rely : Nat → World → World → Prop
  cond : Nat → World → (op : Op) → Res op → World → Prop
  guar : Nat → World → (op : Op) → Res op → World → Prop

/-- Every call of the program meets the guarantee, whatever the others did before it, and
every result satisfies `Q` in the world where the program ends. -/
def wp (M : Machine Op Res Reply World) (R : Rules Op Res World) (c : Nat) :
    Program Op Res α → (α → World → Prop) → World → Prop
  | .ret a, Q, w => Q a w
  | .call op next, Q, w =>
    ∀ w₁, R.rely c w w₁ → R.inv w₁ → ∀ reply r w₂, M.exec c op reply w₁ = some (r, w₂) →
      R.cond c w₁ op r w₂ → R.guar c w₁ op r w₂ ∧ wp M R c (next r) Q w₂

section Wp

variable {M : Machine Op Res Reply World} {R : Rules Op Res World} {c : Nat}

@[simp] theorem wp_ret (a : α) (Q : α → World → Prop) (w : World) :
    wp M R c (.ret a : Program Op Res α) Q w ↔ Q a w := Iff.rfl

theorem wp_bind (p : Program Op Res α) (f : α → Program Op Res β) (Q : β → World → Prop)
    (w : World) :
    wp M R c (p.bind f) Q w ↔ wp M R c p (fun a w' => wp M R c (f a) Q w') w := by
  induction p generalizing w with
  | ret a => rfl
  | call op next ih =>
    constructor
    · intro h w₁ hr hi reply r w₂ he hc
      exact ⟨(h w₁ hr hi reply r w₂ he hc).1, (ih r w₂).mp (h w₁ hr hi reply r w₂ he hc).2⟩
    · intro h w₁ hr hi reply r w₂ he hc
      exact ⟨(h w₁ hr hi reply r w₂ he hc).1, (ih r w₂).mpr (h w₁ hr hi reply r w₂ he hc).2⟩

theorem wp_mono {p : Program Op Res α} {Q Q' : α → World → Prop} {w : World}
    (h : wp M R c p Q w) (hq : ∀ a w', Q a w' → Q' a w') : wp M R c p Q' w := by
  induction p generalizing w with
  | ret a => exact hq a w h
  | call op next ih =>
    intro w₁ hr hi reply r w₂ he hc
    obtain ⟨hg, hw⟩ := h w₁ hr hi reply r w₂ he hc
    exact ⟨hg, ih r hw⟩

/-- A program whose calls all preserve `P` and meet the guarantee where `P` holds. -/
theorem wp_of_uses {allowed : Op → Prop} {post : α → Prop} {P : World → Prop}
    {p : Program Op Res α} {w : World} (hu : p.Uses allowed post) (hp : P w)
    (hrely : ∀ w w', R.inv w' → R.rely c w w' → P w → P w')
    (hcall : ∀ op reply r w w', allowed op → R.inv w → P w →
      M.exec c op reply w = some (r, w') → R.guar c w op r w' ∧ P w') :
    wp M R c p (fun a w' => post a ∧ P w') w := by
  induction p generalizing w with
  | ret a => exact ⟨hu, hp⟩
  | call op next ih =>
    intro w₁ hr hi reply r w₂ he _
    have step := hcall op reply r w₁ w₂ hu.1 hi (hrely w w₁ hi hr hp) he
    exact ⟨step.1, ih r (hu.2 r) step.2⟩

end Wp

/-- The rules fit the machine: guaranteed calls keep the invariant and stay within what
every other session relies on, and so does a session that disappears. -/
structure Rules.Sound (M : Machine Op Res Reply World) (R : Rules Op Res World) : Prop where
  refl : ∀ c w, R.rely c w w
  trans : ∀ {c w₁ w₂ w₃}, R.rely c w₁ w₂ → R.rely c w₂ w₃ → R.rely c w₁ w₃
  start_rely : ∀ {c w w'}, R.start c w → R.rely c w w' → R.start c w'
  inv_exec : ∀ {c op reply r w w'}, R.inv w → M.exec c op reply w = some (r, w') →
    R.cond c w op r w' → R.guar c w op r w' → R.inv w'
  rely_exec : ∀ {c d op reply r w w'}, c ≠ d → R.inv w → M.exec c op reply w = some (r, w') →
    R.cond c w op r w' → R.guar c w op r w' → R.rely d w w'
  inv_abort : ∀ {c w}, R.inv w → R.inv (M.abort c w)
  rely_abort : ∀ {c d w}, c ≠ d → R.inv w → R.rely d w (M.abort c w)

/-- The steps of a program that runs alone all meet the condition. -/
def Program.RunMeets (M : Machine Op Res Reply World)
    (cond : Nat → World → (op : Op) → Res op → World → Prop) (c : Nat) :
    Program Op Res α → (Nat → Reply) → World → Prop
  | .ret _, _, _ => True
  | .call op next, env, w =>
    ∀ r w', M.exec c op (env 0) w = some (r, w') →
      cond c w op r w' ∧ (next r).RunMeets M cond c (fun n => env (n + 1)) w'

/-- A session that runs alone: the others do nothing between its calls. -/
theorem run_of_wp {M : Machine Op Res Reply World} {R : Rules Op Res World} {c : Nat}
    (hrefl : ∀ w, R.rely c w w)
    (hinv : ∀ {op reply r w w'}, R.inv w → M.exec c op reply w = some (r, w') →
      R.cond c w op r w' → R.guar c w op r w' → R.inv w')
    {p : Program Op Res α} {Q : α → World → Prop} {w : World} (h : wp M R c p Q w)
    (hw : R.inv w) {env env' : Nat → Reply} {a : α} {w' : World}
    (hm : p.RunMeets M R.cond c env w)
    (hr : p.run M c env w = some (a, w', env')) : Q a w' ∧ R.inv w' := by
  induction p generalizing w env with
  | ret b =>
    simp only [Program.run_ret, Option.some.injEq, Prod.mk.injEq] at hr
    obtain ⟨rfl, rfl, -⟩ := hr
    exact ⟨h, hw⟩
  | call op next ih =>
    cases he : M.exec c op (env 0) w with
    | none => simp [Program.run, he] at hr
    | some x =>
      obtain ⟨r, w₁⟩ := x
      rw [Program.run_call_some he] at hr
      obtain ⟨hc, hm'⟩ := hm r w₁ he
      obtain ⟨hg, hn⟩ := h w (hrefl w) hw _ r w₁ he hc
      exact ih r hn (hinv hw he hc hg) hm' hr

/-- Sessions that run together. Session `i` is the `i`-th thread, with the job it was
started for and what is left of its program; `none` is a session that was cut off. -/
structure Pool (J Op : Type) (Res : Op → Type) (α World : Type) where
  world : World
  threads : List (J × Option (Program Op Res α))

inductive Event (J Reply : Type) where
  | spawn (job : J)
  | step (i : Nat) (reply : Reply)
  | kill (i : Nat)

namespace Pool

variable (M : Machine Op Res Reply World) (prog : J → Nat → Program Op Res α)

/-- What thread `i` does when it is scheduled with this reply, if it can move. -/
def move (s : Pool J Op Res α World) (i : Nat) (reply : Reply) :
    Option (J × Program Op Res α × World) :=
  match s.threads[i]? with
  | some (job, some (.call op next)) =>
    match M.exec i op reply s.world with
    | some (r, w') => some (job, next r, w')
    | none => none
  | _ => none

def next (s : Pool J Op Res α World) : Event J Reply → Pool J Op Res α World
  | .spawn job => { s with threads := s.threads ++ [(job, some (prog job s.threads.length))] }
  | .step i reply =>
    match s.move M i reply with
    | some (job, p, w') => ⟨w', s.threads.set i (job, some p)⟩
    | none => s
  | .kill i =>
    match s.threads[i]? with
    | some (job, some _) => ⟨M.abort i s.world, s.threads.set i (job, none)⟩
    | _ => s

def run (s : Pool J Op Res α World) (events : List (Event J Reply)) : Pool J Op Res α World :=
  events.foldl (next M prog) s

/-- The step that this event makes, if any, meets the condition. -/
def StepMeets (cond : Nat → World → (op : Op) → Res op → World → Prop)
    (s : Pool J Op Res α World) : Event J Reply → Prop
  | .step i reply => ∀ job op next, s.threads[i]? = some (job, some (.call op next)) →
      ∀ r w', M.exec i op reply s.world = some (r, w') → cond i s.world op r w'
  | _ => True

/-- Every step of the run meets the condition. -/
def Meets (cond : Nat → World → (op : Op) → Res op → World → Prop) :
    Pool J Op Res α World → List (Event J Reply) → Prop
  | _, [] => True
  | s, e :: es => StepMeets M cond s e ∧ Meets cond (next M prog s e) es

section

variable (cond : Nat → World → (op : Op) → Res op → World → Prop)
  [∀ c w op r w', Decidable (cond c w op r w')]

instance (s : Pool J Op Res α World) (e : Event J Reply) : Decidable (StepMeets M cond s e) :=
  match e with
  | .spawn _ => isTrue trivial
  | .kill _ => isTrue trivial
  | .step i reply =>
    match ht : s.threads[i]? with
    | none => isTrue (by intro _ _ _ h; simp [ht] at h)
    | some (_, none) => isTrue (by intro _ _ _ h; simp [ht] at h)
    | some (_, some (.ret _)) => isTrue (by intro _ _ _ h; simp [ht] at h)
    | some (job, some (.call op next)) =>
      match he : M.exec i op reply s.world with
      | none => isTrue (by
          intro _ _ _ h r w' h'
          rw [ht] at h
          cases h
          rw [he] at h'
          cases h')
      | some (r, w') => decidable_of_iff (cond i s.world op r w') (by
          constructor
          · intro hc _ _ _ h r₂ w₂ h'
            rw [ht] at h
            cases h
            rw [he] at h'
            cases h'
            exact hc
          · exact fun h => h job op next ht r w' he)

instance decidableMeets : (s : Pool J Op Res α World) → (events : List (Event J Reply)) →
    Decidable (Meets M prog cond s events)
  | _, [] => isTrue trivial
  | s, e :: es =>
    have := decidableMeets (next M prog s e) es
    inferInstanceAs (Decidable (StepMeets M cond s e ∧ Meets M prog cond (next M prog s e) es))

end

/-- The invariant holds, every live thread is still safe from some earlier world, and
session numbers that are not in use yet are fresh. -/
structure Good (R : Rules Op Res World) (Q : J → Nat → α → World → Prop)
    (s : Pool J Op Res α World) : Prop where
  inv : R.inv s.world
  start : ∀ i, s.threads.length ≤ i → R.start i s.world
  safe : ∀ (i : Nat) (job : J) (p : Program Op Res α), s.threads[i]? = some (job, some p) →
    ∃ w₀, R.rely i w₀ s.world ∧ wp M R i p (Q job i) w₀

variable {M prog} {R : Rules Op Res World} {Q : J → Nat → α → World → Prop}
  {s : Pool J Op Res α World}

theorem good_spawn (hs : R.Sound M) (h : s.Good M R Q) (job : J)
    (hj : ∀ w, R.inv w → R.start s.threads.length w →
      wp M R s.threads.length (prog job s.threads.length) (Q job s.threads.length) w) :
    (s.next M prog (.spawn job)).Good M R Q := by
  refine ⟨h.inv, ?_, ?_⟩
  · intro i hi
    simp only [next, List.length_append, List.length_singleton] at hi
    exact h.start i (by omega)
  · intro i job' p hp
    simp only [next, List.getElem?_append] at hp
    split at hp
    · exact h.safe i job' p hp
    · rename_i hlen
      have hi : i = s.threads.length := by
        by_contra hne
        rw [List.getElem?_eq_none (by simp; omega)] at hp
        exact absurd hp (by simp)
      subst hi
      simp only [Nat.sub_self, List.getElem?_cons_zero, Option.some.injEq, Prod.mk.injEq] at hp
      obtain ⟨rfl, rfl⟩ := hp
      exact ⟨s.world, hs.refl _ _, hj _ h.inv (h.start _ (Nat.le_refl _))⟩

theorem good_replace {i : Nat} {job : J} {p' : Option (Program Op Res α)} {w' : World}
    (hs : R.Sound M) (h : s.Good M R Q) (hinv : R.inv w') (hi : i < s.threads.length)
    (hrely : ∀ d, i ≠ d → R.rely d s.world w')
    (hsafe : ∀ p, p' = some p → wp M R i p (Q job i) w') :
    Good M R Q ⟨w', s.threads.set i (job, p')⟩ := by
  refine ⟨hinv, ?_, ?_⟩
  · intro d hd
    simp only [List.length_set] at hd
    exact hs.start_rely (h.start d hd) (hrely d (by omega))
  · intro d job' p hp
    simp only [List.getElem?_set] at hp
    split at hp
    · rename_i heq
      subst heq
      simp only [Option.some.injEq, Prod.mk.injEq] at hp
      obtain ⟨rfl, rfl⟩ := hp
      exact ⟨w', hs.refl _ _, hsafe p rfl⟩
    · rename_i hne
      obtain ⟨w₀, hr, hw⟩ := h.safe d job' p hp
      exact ⟨w₀, hs.trans hr (hrely d hne), hw⟩

theorem good_step (hs : R.Sound M) (h : s.Good M R Q) (i : Nat) (reply : Reply)
    (hm : s.StepMeets M R.cond (.step i reply)) :
    (s.next M prog (.step i reply)).Good M R Q := by
  cases ht : s.threads[i]? with
  | none => simpa only [next, move, ht] using h
  | some x =>
    obtain ⟨job, _ | _ | ⟨op, k⟩⟩ := x
    · simpa only [next, move, ht] using h
    · simpa only [next, move, ht] using h
    · cases he : M.exec i op reply s.world with
      | none => simpa only [next, move, ht, he] using h
      | some y =>
        obtain ⟨r, w'⟩ := y
        simp only [next, move, ht, he]
        have hc := hm job op k ht r w' he
        obtain ⟨w₀, hr, hw⟩ := h.safe i job _ ht
        obtain ⟨hg, hn⟩ := hw s.world hr h.inv reply r w' he hc
        exact good_replace hs h (hs.inv_exec h.inv he hc hg)
          (List.getElem?_eq_some_iff.mp ht).1
          (fun d hd => hs.rely_exec hd h.inv he hc hg)
          (fun p hp => by cases hp; exact hn)

theorem good_kill (hs : R.Sound M) (h : s.Good M R Q) (i : Nat) :
    (s.next M prog (.kill i : Event J Reply)).Good M R Q := by
  cases ht : s.threads[i]? with
  | none => simpa only [next, ht] using h
  | some x =>
    obtain ⟨job, _ | p⟩ := x
    · simpa only [next, ht] using h
    · simp only [next, ht]
      exact good_replace hs h (hs.inv_abort h.inv) (List.getElem?_eq_some_iff.mp ht).1
        (fun d hd => hs.rely_abort hd h.inv) (fun p hp => by cases hp)

theorem meets_mono {cond cond' : Nat → World → (op : Op) → Res op → World → Prop}
    (h : ∀ c op reply w r w', M.exec c op reply w = some (r, w') → cond c w op r w' →
      cond' c w op r w') {events : List (Event J Reply)} (hm : s.Meets M prog cond events) :
    s.Meets M prog cond' events := by
  induction events generalizing s with
  | nil => trivial
  | cons e es ih =>
    refine ⟨?_, ih hm.2⟩
    cases e with
    | step i reply =>
      exact fun job op k ht r w' he => h _ _ _ _ _ _ he (hm.1 job op k ht r w' he)
    | _ => trivial

theorem meets_of_forall {cond : Nat → World → (op : Op) → Res op → World → Prop}
    (h : ∀ c w op r w', cond c w op r w') (events : List (Event J Reply)) :
    s.Meets M prog cond events := by
  induction events generalizing s with
  | nil => trivial
  | cons e es ih =>
    refine ⟨?_, ih⟩
    cases e with
    | step i reply => exact fun _ _ _ _ _ _ _ => h _ _ _ _ _
    | _ => trivial

theorem meets_append {cond : Nat → World → (op : Op) → Res op → World → Prop}
    {events more : List (Event J Reply)} :
    s.Meets M prog cond (events ++ more) ↔
      s.Meets M prog cond events ∧ (s.run M prog events).Meets M prog cond more := by
  induction events generalizing s with
  | nil => exact ⟨fun h => ⟨trivial, h⟩, fun h => h.2⟩
  | cons e es ih =>
    constructor
    · intro h
      obtain ⟨hes, hmore⟩ := ih.mp h.2
      exact ⟨⟨h.1, hes⟩, hmore⟩
    · intro h
      exact ⟨h.1.1, ih.mpr ⟨h.1.2, h.2⟩⟩

theorem meets_snoc {cond : Nat → World → (op : Op) → Res op → World → Prop}
    {events : List (Event J Reply)} {e : Event J Reply} :
    s.Meets M prog cond (events ++ [e]) ↔
      s.Meets M prog cond events ∧ (s.run M prog events).StepMeets M cond e := by
  rw [meets_append]
  exact and_congr_right fun _ => ⟨fun h => h.1, fun h => ⟨h, trivial⟩⟩

/-- The event does not cut off a session that is busy. -/
def SparesAt (busy : Nat → World → Prop) (s : Pool J Op Res α World) : Event J Reply → Prop
  | .kill i => ∀ job p, s.threads[i]? = some (job, some p) → ¬busy i s.world
  | _ => True

variable (M prog) in
/-- No session is cut off while it is busy. -/
def Spares (busy : Nat → World → Prop) : Pool J Op Res α World → List (Event J Reply) → Prop
  | _, [] => True
  | s, e :: es => s.SparesAt busy e ∧ Spares busy (next M prog s e) es

instance (busy : Nat → World → Prop) [∀ i w, Decidable (busy i w)] (s : Pool J Op Res α World)
    (e : Event J Reply) : Decidable (s.SparesAt busy e) :=
  match e with
  | .spawn _ => isTrue trivial
  | .step _ _ => isTrue trivial
  | .kill i =>
    match ht : s.threads[i]? with
    | none => isTrue (by intro _ _ h; simp [ht] at h)
    | some (_, none) => isTrue (by intro _ _ h; simp [ht] at h)
    | some (job, some p) => decidable_of_iff (¬busy i s.world)
        ⟨fun h _ _ _ => h, fun h => h job p ht⟩

instance decidableSpares (busy : Nat → World → Prop) [∀ i w, Decidable (busy i w)] :
    (s : Pool J Op Res α World) → (events : List (Event J Reply)) →
      Decidable (Spares M prog busy s events)
  | _, [] => isTrue trivial
  | s, e :: es =>
    have := decidableSpares busy (next M prog s e) es
    inferInstanceAs (Decidable (s.SparesAt busy e ∧ Spares M prog busy (next M prog s e) es))

theorem spares_snoc {busy : Nat → World → Prop} {events : List (Event J Reply)} {e : Event J Reply} :
    s.Spares M prog busy (events ++ [e]) ↔
      s.Spares M prog busy events ∧ (s.run M prog events).SparesAt busy e := by
  induction events generalizing s with
  | nil => exact ⟨fun h => ⟨trivial, h.1⟩, fun h => ⟨h.2, trivial⟩⟩
  | cons e' es ih =>
    constructor
    · intro h
      obtain ⟨hrest, hlast⟩ := ih.mp h.2
      exact ⟨⟨h.1, hrest⟩, hlast⟩
    · intro h
      exact ⟨h.1.1, ih.mpr ⟨h.1.2, h.2⟩⟩

theorem spares_of_forall {busy : Nat → World → Prop} (h : ∀ i w, ¬busy i w)
    (events : List (Event J Reply)) : s.Spares M prog busy events := by
  induction events generalizing s with
  | nil => trivial
  | cons e es ih =>
    refine ⟨?_, ih⟩
    cases e with
    | kill i => exact fun _ _ _ => h i _
    | _ => trivial

/-- What only a session itself can undo holds of every session that has not begun. -/
theorem fresh_run {F : Nat → World → Prop}
    (hexec : ∀ {c d op reply r w w'}, d ≠ c → M.exec c op reply w = some (r, w') → F d w → F d w')
    (habort : ∀ {c d w}, d ≠ c → F d w → F d (M.abort c w)) (events : List (Event J Reply))
    (h : ∀ d, s.threads.length ≤ d → F d s.world) :
    ∀ d, (s.run M prog events).threads.length ≤ d → F d (s.run M prog events).world := by
  induction events generalizing s with
  | nil => exact h
  | cons e es ih =>
    refine ih (s := s.next M prog e) fun d hd => ?_
    cases e with
    | spawn job =>
      simp only [next, List.length_append, List.length_singleton] at hd
      exact h d (by omega)
    | step i reply =>
      cases hm : s.move M i reply with
      | none =>
        simp only [next, hm] at hd ⊢
        exact h d hd
      | some x =>
        obtain ⟨job, p, w'⟩ := x
        simp only [next, hm, List.length_set] at hd ⊢
        simp only [move] at hm
        split at hm
        · rename_i job' op k ht
          split at hm
          · rename_i r w₁ he
            cases hm
            have hi := (List.getElem?_eq_some_iff.mp ht).1
            exact hexec (by omega) he (h d hd)
          · cases hm
        · cases hm
    | kill i =>
      cases ht : s.threads[i]? with
      | none =>
        simp only [next, ht] at hd ⊢
        exact h d hd
      | some x =>
        obtain ⟨job, _ | p⟩ := x
        · simp only [next, ht] at hd ⊢
          exact h d hd
        · simp only [next, ht, List.length_set] at hd ⊢
          have hi := (List.getElem?_eq_some_iff.mp ht).1
          exact habort (by omega) (h d hd)

/-- The jobs that a list of events starts, in order. -/
def spawned : List (Event J Reply) → List J
  | [] => []
  | .spawn job :: es => job :: spawned es
  | _ :: es => spawned es

theorem jobs_next (e : Event J Reply) :
    (s.next M prog e).threads.map Prod.fst = s.threads.map Prod.fst ++ spawned [e] := by
  have same : ∀ (i : Nat) (job : J) (p p' : Option (Program Op Res α)),
      s.threads[i]? = some (job, p) →
      (s.threads.set i (job, p')).map Prod.fst = s.threads.map Prod.fst := by
    intro i job p p' hi
    obtain ⟨hlt, hget⟩ := List.getElem?_eq_some_iff.mp hi
    rw [List.map_set]
    have hself : job = (s.threads.map Prod.fst).get ⟨i, by simpa using hlt⟩ := by simp [hget]
    rw [hself]
    exact List.set_getElem_self (by simpa using hlt)
  cases e with
  | spawn job => simp [next, spawned]
  | step i reply =>
    simp only [next, spawned, List.append_nil]
    cases hm : s.move M i reply with
    | none => rfl
    | some x =>
      obtain ⟨job, p, w'⟩ := x
      simp only [move] at hm
      split at hm
      · rename_i job' op k ht
        split at hm
        · simp only [Option.some.injEq, Prod.mk.injEq] at hm
          obtain ⟨rfl, rfl, rfl⟩ := hm
          exact same i _ _ _ ht
        · cases hm
      · cases hm
  | kill i =>
    simp only [next, spawned, List.append_nil]
    split
    · rename_i job p ht
      exact same i _ _ _ ht
    · rfl

theorem spawned_cons (e : Event J Reply) (es : List (Event J Reply)) :
    spawned (e :: es) = spawned [e] ++ spawned es := by
  cases e <;> rfl

theorem spawned_append (es more : List (Event J Reply)) :
    spawned (es ++ more) = spawned es ++ spawned more := by
  induction es with
  | nil => rfl
  | cons e es ih => rw [List.cons_append, spawned_cons, ih, ← List.append_assoc, ← spawned_cons]

/-- Sessions keep their jobs. -/
theorem spawned_later {es : List (Event J Reply)} (more : List (Event J Reply)) {i : Nat} {job : J}
    (h : (spawned es)[i]? = some job) : (spawned (es ++ more))[i]? = some job := by
  rw [spawned_append, List.getElem?_append_left (List.getElem?_eq_some_iff.mp h).1]
  exact h

theorem jobs_run (events : List (Event J Reply)) :
    (s.run M prog events).threads.map Prod.fst = s.threads.map Prod.fst ++ spawned events := by
  induction events generalizing s with
  | nil => simp [run, spawned]
  | cons e es ih =>
    have h := ih (s := s.next M prog e)
    rw [jobs_next] at h
    rw [spawned_cons, ← List.append_assoc]
    exact h

/-- The induction over runs, once for all invariants: if every job that the run starts is
safe from its start, then a run whose steps meet the condition stays good. `jobs` names
the job of each session in advance, so that the rules may speak of it. -/
theorem good_run (hs : R.Sound M) {jobs : Nat → Option J}
    (hj : ∀ job i w, jobs i = some job → R.inv w → R.start i w →
      wp M R i (prog job i) (Q job i) w)
    (events : List (Event J Reply)) (h : s.Good M R Q)
    (hjobs : ∀ i job, (s.threads.map Prod.fst ++ spawned events)[i]? = some job →
      jobs i = some job)
    (hm : s.Meets M prog R.cond events) : (s.run M prog events).Good M R Q := by
  induction events generalizing s with
  | nil => exact h
  | cons e es ih =>
    have hnext : (s.next M prog e).Good M R Q := by
      cases e with
      | spawn job =>
        have hjob : jobs s.threads.length = some job := by
          refine hjobs _ _ ?_
          rw [List.getElem?_append_right (by simp)]
          simp [spawned]
        exact good_spawn hs h job (hj job _ · hjob)
      | step i reply => exact good_step hs h i reply hm.1
      | kill i => exact good_kill hs h i
    refine ih hnext ?_ hm.2
    rw [jobs_next, List.append_assoc, ← spawned_cons]
    exact hjobs

end Pool

end AgentDesk.Framework
