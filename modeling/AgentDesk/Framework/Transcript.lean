import AgentDesk.Framework.Observer
import Mathlib.Data.List.Induction

namespace AgentDesk.Framework

variable {Op : Type} {Res : Op → Type} {Reply World J X α : Type}

/-- The program makes these calls with these results, and `q` is left of it. -/
def Program.After (p : Program Op Res α) : List ((op : Op) × Res op) → Program Op Res α → Prop
  | [], q => p = q
  | x :: cs, q => match p with
    | .ret _ => False
    | .call op next => ∃ r, x = ⟨op, r⟩ ∧ (next r).After cs q
termination_by structural cs => cs

/-- The observer that writes down every call and demands nothing. -/
def transcript : Observer Op Res (List ((op : Op) × Res op)) where
  ok _ _ := True
  next cs op r cs' := cs' = cs ++ [⟨op, r⟩]

@[simp] theorem transcript_ok (cs : List ((op : Op) × Res op)) (op : Op) :
    (transcript : Observer Op Res _).ok cs op := trivial

@[simp] theorem transcript_next (cs cs' : List ((op : Op) × Res op)) (op : Op) (r : Res op) :
    transcript.next cs op r cs' ↔ cs' = cs ++ [⟨op, r⟩] := Iff.rfl

theorem foldl_snoc (cs₀ cs : List ((op : Op) × Res op)) :
    cs.foldl (fun cs x => cs ++ [x]) cs₀ = cs₀ ++ cs := by
  induction cs generalizing cs₀ with
  | nil => rw [List.foldl_nil, List.append_nil]
  | cons x cs ih => rw [List.foldl_cons, ih, List.append_assoc, List.singleton_append]

namespace Program

theorem After.call {p : Program Op Res α} {cs : List ((op : Op) × Res op)} {op : Op}
    {next : Res op → Program Op Res α} (h : p.After cs (.call op next)) (r : Res op) :
    p.After (cs ++ [⟨op, r⟩]) (next r) := by
  induction cs generalizing p with
  | nil =>
    have hp : p = .call op next := h
    subst hp
    exact ⟨r, rfl, rfl⟩
  | cons x cs ih =>
    cases p with
    | ret a => exact h.elim
    | call op' next' =>
      obtain ⟨r', hx, hrest⟩ := h
      exact ⟨r', hx, ih hrest⟩

section

variable {St : Type} {O : Observer Op Res St} {f : St → (op : Op) × Res op → St}
  {allowed : (op : Op) → Res op → Prop}
  (hnext : ∀ s op r, allowed op r → O.next s op r (f s ⟨op, r⟩))

include hnext

/-- A program that has come to its end after allowed results ends as its observer says. -/
theorem ends_of_after {p : Program Op Res α} {Q : α → St → Prop} {s : St}
    {cs : List ((op : Op) × Res op)} {a : α} (h : p.Obeys O Q s) (ha : p.After cs (.ret a))
    (hcs : ∀ x ∈ cs, allowed x.1 x.2) : Q a (cs.foldl f s) := by
  induction cs generalizing p s with
  | nil =>
    have hp : p = .ret a := ha
    subst hp
    exact h
  | cons x cs ih =>
    cases p with
    | ret b => exact ha.elim
    | call op next =>
      obtain ⟨r, rfl, hrest⟩ := ha
      have hr : O.next s op r (f s ⟨op, r⟩) := hnext s op r (hcs _ List.mem_cons_self)
      exact ih (h.2 r _ hr) hrest fun y hy => hcs y (List.mem_cons_of_mem _ hy)

/-- What is left of a program after allowed results obeys its observer from where that is now. -/
theorem obeys_of_after {p q : Program Op Res α} {Q : α → St → Prop} {s : St}
    {cs : List ((op : Op) × Res op)} (h : p.Obeys O Q s) (ha : p.After cs q)
    (hcs : ∀ x ∈ cs, allowed x.1 x.2) : q.Obeys O Q (cs.foldl f s) := by
  induction cs generalizing p s with
  | nil =>
    have hp : p = q := ha
    subst hp
    exact h
  | cons x cs ih =>
    cases p with
    | ret b => exact ha.elim
    | call op next =>
      obtain ⟨r, rfl, hrest⟩ := ha
      have hr : O.next s op r (f s ⟨op, r⟩) := hnext s op r (hcs _ List.mem_cons_self)
      exact ih (h.2 r _ hr) hrest fun y hy => hcs y (List.mem_cons_of_mem _ hy)

/-- Every call that it made met the demands of the observer. -/
theorem ok_of_after {p q : Program Op Res α} {Q : α → St → Prop} {s : St}
    {pre post : List ((op : Op) × Res op)} {x : (op : Op) × Res op} (h : p.Obeys O Q s)
    (ha : p.After (pre ++ x :: post) q) (hpre : ∀ y ∈ pre, allowed y.1 y.2) :
    O.ok (pre.foldl f s) x.1 := by
  induction pre generalizing p s with
  | nil =>
    cases p with
    | ret b => exact ha.elim
    | call op next =>
      obtain ⟨r, rfl, -⟩ := ha
      exact h.1
  | cons y pre ih =>
    cases p with
    | ret b => exact ha.elim
    | call op next =>
      obtain ⟨r, rfl, hrest⟩ := ha
      have hr : O.next s op r (f s ⟨op, r⟩) := hnext s op r (hpre _ List.mem_cons_self)
      exact ih (h.2 r _ hr) hrest fun z hz => hpre z (List.mem_cons_of_mem _ hz)

end

/-- A program that has come to its end leaves its transcript. -/
theorem post_of_after {p : Program Op Res α} {Q : α → List ((op : Op) × Res op) → Prop}
    {cs₀ cs : List ((op : Op) × Res op)} {a : α} (h : p.Obeys transcript Q cs₀)
    (ha : p.After cs (.ret a)) : Q a (cs₀ ++ cs) := by
  have hnext : ∀ (cs : List ((op : Op) × Res op)) (op : Op) (r : Res op), True →
      transcript.next cs op r (cs ++ [⟨op, r⟩]) := fun _ _ _ _ => rfl
  have hend := ends_of_after (f := fun cs x => cs ++ [x]) hnext h ha fun _ _ => trivial
  rwa [foldl_snoc] at hend

end Program

/-- The observer of a session whose calls return only what is allowed. -/
def permitting (allowed : (op : Op) → Res op → Prop) : Observer Op Res Unit where
  ok _ _ := True
  next _ op r _ := allowed op r

theorem Program.post_of_permitted {allowed : (op : Op) → Res op → Prop} {p : Program Op Res α}
    {Q : α → Prop} {cs : List ((op : Op) × Res op)} {a : α}
    (h : p.Obeys (permitting allowed) (fun a _ => Q a) ()) (ha : p.After cs (.ret a))
    (hcs : ∀ x ∈ cs, allowed x.1 x.2) : Q a :=
  Program.ends_of_after (f := fun _ _ => ()) (fun _ _ _ h => h) h ha hcs

/-- The world keeps a record of the calls of each session. -/
structure Records (M : Machine Op Res Reply World)
    (calls : World → Nat → List ((op : Op) × Res op)) : Prop where
  own : ∀ {c op reply r w w'}, M.exec c op reply w = some (r, w') →
    calls w' c = calls w c ++ [⟨op, r⟩]
  other : ∀ {c d op reply r w w'}, M.exec c op reply w = some (r, w') → d ≠ c →
    calls w' d = calls w d
  abort : ∀ c d w, calls (M.abort c w) d = calls w d

/-- A step of the sessions, or a change that somebody makes to the world past them. -/
inductive Move (J Reply X : Type) where
  | event (e : Event J Reply)
  | outside (x : X)

namespace Pool

variable (M : Machine Op Res Reply World) (prog : J → Nat → Program Op Res α)
  (change : X → World → World)

def play (s : Pool J Op Res α World) : Move J Reply X → Pool J Op Res α World
  | .event e => s.next M prog e
  | .outside x => { s with world := change x s.world }

def plays (s : Pool J Op Res α World) (moves : List (Move J Reply X)) : Pool J Op Res α World :=
  moves.foldl (play M prog change) s

/-- Every live thread is what its recorded calls have left of its program. -/
structure Recorded (calls : World → Nat → List ((op : Op) × Res op))
    (s : Pool J Op Res α World) : Prop where
  live : ∀ (i : Nat) (job : J) (p : Program Op Res α), s.threads[i]? = some (job, some p) →
    (prog job i).After (calls s.world i) p
  fresh : ∀ i, s.threads.length ≤ i → calls s.world i = []

/-- The calls of every session, cut off or not, are calls of its program. -/
def Traced (calls : World → Nat → List ((op : Op) × Res op)) (s : Pool J Op Res α World) : Prop :=
  ∀ (i : Nat) (job : J) (p : Option (Program Op Res α)), s.threads[i]? = some (job, p) →
    ∃ q, (prog job i).After (calls s.world i) q

variable {M prog change} {calls : World → Nat → List ((op : Op) × Res op)}
  {s s' : Pool J Op Res α World}

theorem plays_append (moves more : List (Move J Reply X)) :
    s.plays M prog change (moves ++ more) = (s.plays M prog change moves).plays M prog change more :=
  List.foldl_append

theorem plays_snoc (moves : List (Move J Reply X)) (m : Move J Reply X) :
    s.plays M prog change (moves ++ [m]) = (s.plays M prog change moves).play M prog change m :=
  plays_append moves [m]

/-- What a step of a thread does: one call of its program. -/
structure Steps (M : Machine Op Res Reply World) (i : Nat) (reply : Reply)
    (s s' : Pool J Op Res α World) (job : J) (op : Op) (next : Res op → Program Op Res α)
    (r : Res op) : Prop where
  thread : s.threads[i]? = some (job, some (.call op next))
  exec : M.exec i op reply s.world = some (r, s'.world)
  threads : s'.threads = s.threads.set i (job, some (next r))

variable (M prog s) in
theorem step_cases (i : Nat) (reply : Reply) :
    s.next M prog (.step i reply) = s ∨ ∃ job op next r,
      Steps M i reply s (s.next M prog (.step i reply)) job op next r := by
  cases hm : s.move M i reply with
  | none => exact Or.inl (by simp only [next, hm])
  | some x =>
    obtain ⟨job, p, w'⟩ := x
    have hnext : s.next M prog (.step i reply) = ⟨w', s.threads.set i (job, some p)⟩ := by
      simp only [next, hm]
    simp only [move] at hm
    split at hm
    · rename_i job' op k ht
      split at hm
      · rename_i r w₁ he
        cases hm
        right
        rw [hnext]
        exact ⟨job, op, k, r, ht, he, rfl⟩
      · cases hm
    · cases hm

/-- What the start of a session, its calls and its end preserve, a run preserves. -/
theorem run_induction {I : Pool J Op Res α World → Prop}
    (hspawn : ∀ {s : Pool J Op Res α World} {job}, I s → I (s.next M prog (.spawn job)))
    (hstep : ∀ {s s' : Pool J Op Res α World} {i reply job op next r},
      Steps M i reply s s' job op next r → I s → I s')
    (hkill : ∀ {s : Pool J Op Res α World} {i job p}, s.threads[i]? = some (job, some p) → I s →
      I ⟨M.abort i s.world, s.threads.set i (job, none)⟩)
    (events : List (Event J Reply)) (h : I s) : I (s.run M prog events) := by
  induction events generalizing s with
  | nil => exact h
  | cons e events ih =>
    refine ih (s := s.next M prog e) ?_
    cases e with
    | spawn job => exact hspawn h
    | step i reply =>
      rcases step_cases M prog s i reply with hsame | ⟨job, op, k, r, hstep'⟩
      · rw [hsame]
        exact h
      · exact hstep hstep' h
    | kill i =>
      rcases hi : s.threads[i]? with _ | ⟨job, _ | p⟩
      · simpa only [next, hi] using h
      · simpa only [next, hi] using h
      · simpa only [next, hi] using hkill hi h

section

variable (hrec : Records M calls)

include hrec

theorem recorded_next (h : s.Recorded prog calls) (e : Event J Reply) :
    (s.next M prog e).Recorded prog calls := by
  cases e with
  | spawn job =>
    refine ⟨?_, ?_⟩
    · intro i job' p hp
      simp only [next, List.getElem?_append] at hp
      split at hp
      · exact h.live i job' p hp
      · rename_i hlen
        have hi : i = s.threads.length := by
          by_contra hne
          rw [List.getElem?_eq_none (by simp; omega)] at hp
          cases hp
        subst hi
        simp only [Nat.sub_self, List.getElem?_cons_zero, Option.some.injEq, Prod.mk.injEq] at hp
        obtain ⟨rfl, rfl⟩ := hp
        have hfresh : calls s.world s.threads.length = [] := h.fresh _ (Nat.le_refl _)
        change (prog job s.threads.length).After (calls s.world s.threads.length) _
        rw [hfresh]
        rfl
    · intro i hi
      simp only [next, List.length_append, List.length_singleton] at hi
      exact h.fresh i (by omega)
  | step i reply =>
    rcases step_cases M prog s i reply with hsame | ⟨job, op, k, r, hstep⟩
    · rw [hsame]
      exact h
    · have hlen : i < s.threads.length := (List.getElem?_eq_some_iff.mp hstep.thread).1
      refine ⟨?_, ?_⟩
      · intro j job' p hp
        rw [hstep.threads, List.getElem?_set] at hp
        by_cases hij : i = j
        · subst hij
          rw [if_pos rfl, if_pos hlen] at hp
          cases hp
          rw [hrec.own hstep.exec]
          exact (h.live i job _ hstep.thread).call r
        · rw [if_neg hij] at hp
          rw [hrec.other hstep.exec (Ne.symm hij)]
          exact h.live j job' p hp
      · intro j hj
        rw [hstep.threads, List.length_set] at hj
        rw [hrec.other hstep.exec (by omega)]
        exact h.fresh j hj
  | kill i =>
    have hkill : s.next M prog (.kill i) = s ∨ ∃ job,
        s.next M prog (.kill i) = ⟨M.abort i s.world, s.threads.set i (job, none)⟩ := by
      simp only [next]
      split
      · exact Or.inr ⟨_, rfl⟩
      · exact Or.inl rfl
    rcases hkill with hsame | ⟨job, hnext⟩
    · rw [hsame]
      exact h
    · rw [hnext]
      refine ⟨?_, ?_⟩
      · intro j job' p hp
        simp only [List.getElem?_set] at hp
        by_cases hij : i = j
        · subst hij
          rw [if_pos rfl] at hp
          split at hp <;> cases hp
        · rw [if_neg hij] at hp
          rw [hrec.abort]
          exact h.live j job' p hp
      · intro j hj
        simp only [List.length_set] at hj
        rw [hrec.abort]
        exact h.fresh j hj

theorem recorded_run (h : s.Recorded prog calls) (events : List (Event J Reply)) :
    (s.run M prog events).Recorded prog calls := by
  induction events generalizing s with
  | nil => exact h
  | cons e events ih => exact ih (recorded_next hrec h e)

theorem traced_next (h : s.Recorded prog calls) (ht : s.Traced prog calls) (e : Event J Reply) :
    (s.next M prog e).Traced prog calls := by
  have hnext := recorded_next (M := M) hrec h e
  intro i job p hp
  cases p with
  | some p => exact ⟨p, hnext.live i job p hp⟩
  | none =>
    cases e with
    | spawn job' =>
      simp only [next, List.getElem?_append] at hp
      split at hp
      · exact ht i job none hp
      · rw [List.getElem?_singleton] at hp
        split at hp <;> cases hp
    | step j reply =>
      rcases step_cases M prog s j reply with hsame | ⟨job', op, k, r, hstep⟩
      · rw [hsame] at hp ⊢
        exact ht i job none hp
      · rw [hstep.threads, List.getElem?_set] at hp
        by_cases hij : j = i
        · subst hij
          rw [if_pos rfl] at hp
          split at hp <;> cases hp
        · rw [if_neg hij] at hp
          rw [hrec.other hstep.exec (Ne.symm hij)]
          exact ht i job none hp
    | kill j =>
      rcases hj : s.threads[j]? with _ | ⟨job', _ | p⟩
      · simp only [next, hj] at hp ⊢
        exact ht i job none hp
      · simp only [next, hj] at hp ⊢
        exact ht i job none hp
      · simp only [next, hj, List.getElem?_set] at hp ⊢
        rw [hrec.abort]
        by_cases hij : j = i
        · subst hij
          rw [if_pos rfl, if_pos (List.getElem?_eq_some_iff.mp hj).1] at hp
          cases hp
          exact ⟨p, h.live j job p hj⟩
        · rw [if_neg hij] at hp
          exact ht i job none hp

theorem traced_run (h : s.Recorded prog calls) (ht : s.Traced prog calls)
    (events : List (Event J Reply)) : (s.run M prog events).Traced prog calls := by
  induction events generalizing s with
  | nil => exact ht
  | cons e events ih => exact ih (recorded_next hrec h e) (traced_next hrec h ht e)

variable (hchange : ∀ x w c, calls (change x w) c = calls w c)

include hchange

theorem recorded_plays (h : s.Recorded prog calls) (moves : List (Move J Reply X)) :
    (s.plays M prog change moves).Recorded prog calls := by
  induction moves using List.reverseRecOn with
  | nil => exact h
  | append_singleton moves m ih =>
    rw [plays_snoc]
    cases m with
    | event e => exact recorded_next hrec ih e
    | outside x =>
      refine ⟨?_, ?_⟩
      · intro i job p hp
        change (prog job i).After (calls (change x _) i) p
        rw [hchange]
        exact ih.live i job p hp
      · intro i hi
        change calls (change x _) i = []
        rw [hchange]
        exact ih.fresh i hi

variable (prog s) in
/-- A move that is no call of session `i` leaves the record of its calls alone. -/
theorem calls_play (i : Nat) (m : Move J Reply X) :
    calls (s.play M prog change m).world i = calls s.world i ∨
      ∃ reply job op next r, m = .event (.step i reply) ∧
        Steps M i reply s (s.play M prog change m) job op next r := by
  cases m with
  | outside x => exact Or.inl (hchange x s.world i)
  | event e =>
    cases e with
    | spawn job => exact Or.inl rfl
    | kill j =>
      left
      simp only [play, next]
      split
      · exact hrec.abort j i s.world
      · rfl
    | step j reply =>
      rcases step_cases M prog s j reply with hsame | ⟨job, op, k, r, hstep⟩
      · left
        simp only [play, hsame]
      · by_cases hij : i = j
        · subst hij
          exact Or.inr ⟨reply, job, op, k, r, rfl, hstep⟩
        · exact Or.inl (hrec.other hstep.exec hij)

/-- A recorded call was made at some point of the play, after the calls before it. -/
theorem exists_call {i : Nat} (h : calls s.world i = []) {moves : List (Move J Reply X)}
    {pre post : List ((op : Op) × Res op)} {op : Op} {r : Res op}
    (hc : calls (s.plays M prog change moves).world i = pre ++ ⟨op, r⟩ :: post) :
    ∃ before reply after, moves = before ++ .event (.step i reply) :: after ∧
      calls (s.plays M prog change before).world i = pre ∧
      ∃ job next, Steps M i reply (s.plays M prog change before)
        (s.plays M prog change (before ++ [.event (.step i reply)])) job op next r := by
  induction moves using List.reverseRecOn generalizing post with
  | nil =>
    have hnil : ([] : List ((op : Op) × Res op)) = pre ++ ⟨op, r⟩ :: post := h.symm.trans hc
    cases pre <;> cases hnil
  | append_singleton moves m ih =>
    have later : ∀ {post'}, calls (s.plays M prog change moves).world i = pre ++ ⟨op, r⟩ :: post' →
        ∃ before reply after, moves ++ [m] = before ++ .event (.step i reply) :: after ∧
          calls (s.plays M prog change before).world i = pre ∧
          ∃ job next, Steps M i reply (s.plays M prog change before)
            (s.plays M prog change (before ++ [.event (.step i reply)])) job op next r := by
      intro post' hpost
      obtain ⟨before, reply, after, rfl, hrest⟩ := ih hpost
      exact ⟨before, reply, after ++ [m], by simp, hrest⟩
    rw [plays_snoc] at hc
    rcases calls_play prog (s.plays M prog change moves) hrec hchange i m with
      hsame | ⟨reply, job, op', k, r', rfl, hstep⟩
    · rw [hsame] at hc
      exact later hc
    · rw [hrec.own hstep.exec] at hc
      rcases List.eq_nil_or_concat post with rfl | ⟨post', x, rfl⟩
      · obtain ⟨hpre, hlast⟩ := List.append_inj' hc rfl
        cases hlast
        rw [← plays_snoc] at hstep
        exact ⟨moves, reply, [], rfl, hpre, job, k, hstep⟩
      · have hsplit : pre ++ ⟨op, r⟩ :: post'.concat x = (pre ++ ⟨op, r⟩ :: post') ++ [x] := by simp
        rw [hsplit] at hc
        exact later (List.append_inj' hc rfl).1

end

variable (M prog change) in
/-- A session keeps its job. -/
theorem job_play {i : Nat} {job : J} {p : Option (Program Op Res α)} (m : Move J Reply X)
    (h : s.threads[i]? = some (job, p)) :
    ∃ p', (s.play M prog change m).threads[i]? = some (job, p') := by
  have hlen : i < s.threads.length := (List.getElem?_eq_some_iff.mp h).1
  have replaced : ∀ (j : Nat) (job' : J) (p₁ p₂ : Option (Program Op Res α)),
      s.threads[j]? = some (job', p₁) →
      ∃ p', (s.threads.set j (job', p₂))[i]? = some (job, p') := by
    intro j job' p₁ p₂ hj
    rw [List.getElem?_set]
    by_cases hij : j = i
    · subst hij
      rw [h] at hj
      cases hj
      exact ⟨p₂, by rw [if_pos rfl, if_pos hlen]⟩
    · exact ⟨p, by rw [if_neg hij, h]⟩
  cases m with
  | outside x => exact ⟨p, h⟩
  | event e =>
    cases e with
    | spawn job' =>
      refine ⟨p, ?_⟩
      simp only [play, next]
      rw [List.getElem?_append_left hlen, h]
    | step j reply =>
      rcases step_cases M prog s j reply with hsame | ⟨job', op, k, r, hstep⟩
      · simp only [play, hsame]
        exact ⟨p, h⟩
      · simp only [play, hstep.threads]
        exact replaced j job' _ _ hstep.thread
    | kill j =>
      simp only [play, next]
      split
      · rename_i job' p' ht
        exact replaced j job' _ _ ht
      · exact ⟨p, h⟩

theorem job_plays {i : Nat} {job : J} {p : Option (Program Op Res α)} (moves : List (Move J Reply X))
    (h : s.threads[i]? = some (job, p)) :
    ∃ p', (s.plays M prog change moves).threads[i]? = some (job, p') := by
  induction moves generalizing s p with
  | nil => exact ⟨p, h⟩
  | cons m moves ih =>
    obtain ⟨p', hp'⟩ := job_play M prog change m h
    exact ih hp'

/-- What every call, every session that disappears and every change keeps, a play keeps. -/
theorem invariant_plays {I : World → Prop}
    (hexec : ∀ {c op reply r w w'}, M.exec c op reply w = some (r, w') → I w → I w')
    (habort : ∀ {c w}, I w → I (M.abort c w)) (hchange : ∀ {x w}, I w → I (change x w))
    (moves : List (Move J Reply X)) (h : I s.world) : I (s.plays M prog change moves).world := by
  induction moves generalizing s with
  | nil => exact h
  | cons m moves ih =>
    refine ih ?_
    cases m with
    | outside x => exact hchange h
    | event e =>
      cases e with
      | spawn job => exact h
      | step i reply =>
        change I (s.next M prog (.step i reply)).world
        rcases step_cases M prog s i reply with hsame | ⟨job, op, k, r, hstep⟩
        · rw [hsame]
          exact h
        · exact hexec hstep.exec h
      | kill i =>
        change I (s.next M prog (.kill i)).world
        simp only [next]
        split
        · exact habort h
        · exact h

/-! Two plays side by side -/

/-- Two pools that differ at most in the names of their jobs. -/
structure Alike (s s' : Pool J Op Res α World) : Prop where
  world : s'.world = s.world
  threads : s'.threads.map Prod.snd = s.threads.map Prod.snd

/-- The same move, or the start of another job with the same program. -/
inductive SameMove (prog : J → Nat → Program Op Res α) : Move J Reply X → Move J Reply X → Prop
  | same (m : Move J Reply X) : SameMove prog m m
  | spawn {job job' : J} (h : ∀ c, prog job' c = prog job c) :
      SameMove prog (.event (.spawn job)) (.event (.spawn job'))

theorem Alike.length (h : Alike s s') : s'.threads.length = s.threads.length := by
  have hlen := congrArg List.length h.threads
  rwa [List.length_map, List.length_map] at hlen

theorem Alike.get (h : Alike s s') (i : Nat) :
    (s'.threads[i]?).map Prod.snd = (s.threads[i]?).map Prod.snd := by
  rw [← List.getElem?_map, ← List.getElem?_map, h.threads]

theorem Alike.set (h : Alike s s') {w : World} (i : Nat) (job job' : J)
    (p : Option (Program Op Res α)) :
    Alike ⟨w, s.threads.set i (job, p)⟩ ⟨w, s'.threads.set i (job', p)⟩ := by
  refine ⟨rfl, ?_⟩
  rw [List.map_set, List.map_set, h.threads]

theorem Alike.spawn (h : Alike s s') {job job' : J} (hprog : ∀ c, prog job' c = prog job c) :
    Alike (s.next M prog (.spawn job)) (s'.next M prog (.spawn job')) := by
  refine ⟨h.world, ?_⟩
  simp only [next, List.map_append, h.threads, h.length, hprog, List.map_cons]

theorem Alike.step (h : Alike s s') (i : Nat) (reply : Reply) :
    Alike (s.next M prog (.step i reply)) (s'.next M prog (.step i reply)) := by
  have hget := h.get i
  rcases ht : s.threads[i]? with _ | ⟨job, p⟩ <;> rcases ht' : s'.threads[i]? with _ | ⟨job', p'⟩
  · simpa only [next, move, ht, ht'] using h
  · simp [ht, ht'] at hget
  · simp [ht, ht'] at hget
  · have hp : p' = p := by simpa [ht, ht'] using hget
    subst hp
    rcases p' with _ | (a | ⟨op, k⟩)
    · simpa only [next, move, ht, ht'] using h
    · simpa only [next, move, ht, ht'] using h
    · cases he : M.exec i op reply s.world with
      | none => simpa only [next, move, ht, ht', h.world, he] using h
      | some x => simpa only [next, move, ht, ht', h.world, he] using h.set i job job' (some (k x.1))

theorem Alike.kill (h : Alike s s') (i : Nat) :
    Alike (s.next M prog (.kill i : Event J Reply)) (s'.next M prog (.kill i : Event J Reply)) := by
  have hget := h.get i
  rcases ht : s.threads[i]? with _ | ⟨job, p⟩ <;> rcases ht' : s'.threads[i]? with _ | ⟨job', p'⟩
  · simpa only [next, ht, ht'] using h
  · simp [ht, ht'] at hget
  · simp [ht, ht'] at hget
  · have hp : p' = p := by simpa [ht, ht'] using hget
    subst hp
    cases p' with
    | none => simpa only [next, ht, ht'] using h
    | some p => simpa only [next, ht, ht', h.world] using h.set i job job' none

/-- Moves that differ in the names of jobs only lead to pools that do. -/
theorem Alike.plays (h : Alike s s') {moves moves' : List (Move J Reply X)}
    (hm : List.Forall₂ (SameMove prog) moves moves') :
    Alike (s.plays M prog change moves) (s'.plays M prog change moves') := by
  induction hm generalizing s s' with
  | nil => exact h
  | @cons m m' _ _ hm _ ih =>
    refine ih ?_
    cases hm with
    | @spawn job job' hprog =>
      change Alike (s.next M prog (.spawn job)) (s'.next M prog (.spawn job'))
      exact h.spawn hprog
    | same =>
      cases m with
      | outside x => exact ⟨congrArg (change x) h.world, h.threads⟩
      | event e =>
        change Alike (s.next M prog e) (s'.next M prog e)
        cases e with
        | spawn job => exact h.spawn fun _ => rfl
        | step i reply => exact h.step i reply
        | kill i => exact h.kill i

end Pool

end AgentDesk.Framework
