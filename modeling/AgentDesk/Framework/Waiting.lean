import AgentDesk.Framework.Purge
import AgentDesk.Framework.Transcript
import Mathlib.Data.Finset.Max
import Mathlib.Logic.Hydra

namespace AgentDesk.Framework

open Relation (CutExpand)

/-! Sessions that wait for one another's locks -/

section

variable {ι L : Type}

/-- The locks that sessions hold, and those that they ask for now. -/
structure Holdings (ι L : Type) where
  held : ι → Set L
  asked : ι → Set L

namespace Holdings

variable {h : Holdings ι L} {rank : L → ℕ} {apart : Set L} {D : Finset ι}

def Waits (h : Holdings ι L) (i j : ι) : Prop := i ≠ j ∧ ∃ l ∈ h.asked i, l ∈ h.held j

/-- Everyone in the set waits for another one in it. -/
def Deadlock (h : Holdings ι L) (D : Finset ι) : Prop :=
  D.Nonempty ∧ ∀ i ∈ D, ∃ j ∈ D, h.Waits i j

/-- Sessions that hold and ask for what they did before still wait for one another. -/
theorem Deadlock.congr {h' : Holdings ι L} (hD : h.Deadlock D)
    (hheld : ∀ i ∈ D, h'.held i = h.held i) (hasked : ∀ i ∈ D, h'.asked i = h.asked i) :
    h'.Deadlock D := by
  refine ⟨hD.1, fun i hi => ?_⟩
  obtain ⟨j, hj, hne, l, hl, hlock⟩ := hD.2 i hi
  rw [← hasked i hi] at hl
  rw [← hheld j hj] at hlock
  exact ⟨j, hj, hne, l, hl, hlock⟩

/-- No two hold the same lock, and whoever asks for one that is not apart ranks it above those that
he holds. -/
structure Ordered (h : Holdings ι L) (rank : L → ℕ) (apart : Set L) : Prop where
  exclusive : ∀ {i j l}, l ∈ h.held i → l ∈ h.held j → i = j
  ascending : ∀ i, ∀ l ∈ h.asked i,
    l ∈ h.held i ∨ l ∈ apart ∨ ∀ k ∈ h.held i, k ∈ apart ∨ rank k < rank l

theorem Ordered.deadlock (ho : h.Ordered rank apart) (hD : h.Deadlock D) :
    ∃ i ∈ D, ∃ j ∈ D, i ≠ j ∧ ∃ l ∈ apart, l ∈ h.asked i ∧ l ∈ h.held j := by
  by_contra hnone
  obtain ⟨hne, hwaits⟩ := hD
  choose! holder hholder using hwaits
  have : Nonempty L := by
    obtain ⟨i, hi⟩ := hne
    obtain ⟨-, l, -, -⟩ := (hholder i hi).2
    exact ⟨l⟩
  choose! lock hlock using fun i hi => (hholder i hi).2.2
  obtain ⟨i, hi, hmax⟩ := D.exists_max_image (fun i => rank (lock i)) hne
  have hj : holder i ∈ D := (hholder i hi).1
  have hasked := (hlock (holder i) hj).1
  have hheld := (hlock (holder i) hj).2
  have hother := (hholder (holder i) hj).2.1
  rcases ho.ascending (holder i) _ hasked with hown | hapart | habove
  · exact hother (ho.exclusive hown hheld)
  · exact hnone ⟨_, hj, _, (hholder _ hj).1, hother, _, hapart, hasked, hheld⟩
  · rcases habove _ (hlock i hi).2 with hapart | hless
    · exact hnone ⟨i, hi, _, hj, (hholder i hi).2.1, _, hapart, hlock i hi⟩
    · have := hmax (holder i) hj
      omega

end Holdings

end

variable {Op : Type} {Res : Op → Type} {Reply World J α : Type}

/-! Runs in which nobody new begins -/

/-- What is left of a program after its next call. -/
inductive Program.Rest : Program Op Res α → Program Op Res α → Prop
  | call (op : Op) (next : Res op → Program Op Res α) (r : Res op) : Rest (next r) (.call op next)

theorem Program.wellFounded_rest :
    WellFounded (Program.Rest : Program Op Res α → Program Op Res α → Prop) := by
  refine ⟨fun p => ?_⟩
  induction p with
  | ret a => exact ⟨_, fun _ h => by cases h⟩
  | call op next ih =>
    refine ⟨_, fun _ h => ?_⟩
    cases h
    exact ih _

namespace Pool

variable {M : Machine Op Res Reply World} {prog : J → Nat → Program Op Res α}
  {s : Pool J Op Res α World}

/-- What is left of the sessions that are not cut off. -/
def programs (s : Pool J Op Res α World) : Multiset (Program Op Res α) :=
  (s.threads.filterMap Prod.snd : List (Program Op Res α))

/-- A session that goes on, or is cut off. -/
theorem programs_set {i : Nat} {job : J} {p : Program Op Res α}
    (hi : s.threads[i]? = some (job, some p)) (w' : World) (p' : Option (Program Op Res α)) :
    (Pool.mk w' (s.threads.set i (job, p'))).programs + {p} = s.programs + ↑p'.toList := by
  obtain ⟨hlt, hget⟩ := List.getElem?_eq_some_iff.mp hi
  obtain ⟨xs, ys, hsplit, -, hset⟩ := @List.exists_of_set _ _ (job, p') _ hlt
  simp only [programs]
  rw [hset, hsplit, hget]
  cases p' with
  | none =>
    simp only [List.filterMap_append, List.filterMap_cons, Option.toList_none, Multiset.coe_nil,
      ← Multiset.coe_add, ← Multiset.cons_coe, ← Multiset.singleton_add]
    ac_rfl
  | some p' =>
    simp only [List.filterMap_append, List.filterMap_cons, Option.toList_some,
      ← Multiset.coe_add, ← Multiset.cons_coe, ← Multiset.singleton_add]
    ac_rfl

/-- An event that starts nobody changes nothing, or leaves less to be done. -/
theorem next_shrinks {e : Event J Reply} (he : ∀ job, e ≠ .spawn job) :
    s.next M prog e = s ∨ CutExpand Program.Rest (s.next M prog e).programs s.programs := by
  cases e with
  | spawn job => exact absurd rfl (he job)
  | step i reply =>
    rcases step_cases M prog s i reply with hsame | ⟨job, op, next, r, hstep⟩
    · exact Or.inl hsame
    · right
      refine ⟨{next r}, .call op next, fun p hp => ?_, ?_⟩
      · rw [Multiset.mem_singleton.mp hp]
        exact .call op next r
      · have hset := programs_set hstep.thread (s.next M prog (.step i reply)).world (some (next r))
        rw [← hstep.threads] at hset
        exact hset
  | kill i =>
    rcases hi : s.threads[i]? with _ | ⟨job, _ | p⟩
    · exact Or.inl (by simp only [next, hi])
    · exact Or.inl (by simp only [next, hi])
    · right
      simp only [next, hi]
      exact ⟨0, p, fun _ hp => absurd hp (Multiset.notMem_zero _), programs_set hi _ none⟩

/-- Every session that is waiting for a call is given a turn again and again. -/
def Fair (s : Pool J Op Res α World) (later : ℕ → Event J Reply) : Prop :=
  ∀ i job op next, s.threads[i]? = some (job, some (.call op next)) →
    ∀ n, ∃ m reply, n ≤ m ∧ later m = .step i reply

/-- Some session is at a call that it can make, whatever the reply. -/
def Moves (M : Machine Op Res Reply World) (s : Pool J Op Res α World) : Prop :=
  ∃ i job op next, s.threads[i]? = some (job, some (.call op next)) ∧
    ∀ reply : Reply, M.exec i op reply s.world ≠ none

theorem busy_of_next {e : Event J Reply} (he : ∀ job, e ≠ .spawn job) {i : Nat} {job : J} {op : Op}
    {k : Res op → Program Op Res α}
    (hp : (s.next M prog e).threads[i]? = some (job, some (.call op k))) :
    ∃ op k, s.threads[i]? = some (job, some (.call op k)) := by
  cases e with
  | spawn job' => exact absurd rfl (he job')
  | step j reply =>
    rcases step_cases M prog s j reply with hsame | ⟨job', op', k', r, hstep⟩
    · exact ⟨op, k, hsame ▸ hp⟩
    · rw [hstep.threads, List.getElem?_set] at hp
      by_cases hji : j = i
      · subst hji
        have hlt := (List.getElem?_eq_some_iff.mp hstep.thread).1
        rw [if_pos rfl, if_pos hlt, Option.some.injEq, Prod.mk.injEq] at hp
        exact ⟨op', k', hp.1 ▸ hstep.thread⟩
      · rw [if_neg hji] at hp
        exact ⟨op, k, hp⟩
  | kill j =>
    rcases hj : s.threads[j]? with _ | ⟨job', _ | q⟩
    · simp only [next, hj] at hp
      exact ⟨op, k, hp⟩
    · simp only [next, hj] at hp
      exact ⟨op, k, hp⟩
    · simp only [next, hj, List.getElem?_set] at hp
      by_cases hji : j = i
      · rw [if_pos hji] at hp
        split at hp <;> cases hp
      · rw [if_neg hji] at hp
        exact ⟨op, k, hp⟩

theorem Fair.next {later : ℕ → Event J Reply} (h : s.Fair later) {e : Event J Reply}
    (he : ∀ job, e ≠ .spawn job) (k : ℕ) : (s.next M prog e).Fair fun n => later (k + n) := by
  intro i job op next hp n
  obtain ⟨op', next', hp'⟩ := busy_of_next he hp
  obtain ⟨m, reply, hm, hturn⟩ := h i job op' next' hp' (k + n)
  refine ⟨m - k, reply, by omega, ?_⟩
  have hsum : k + (m - k) = m := by omega
  show later (k + (m - k)) = .step i reply
  rw [hsum, hturn]

theorem next_ne {i : Nat} {job : J} {op : Op} {k : Res op → Program Op Res α} {reply : Reply}
    (hthread : s.threads[i]? = some (job, some (.call op k)))
    (hexec : M.exec i op reply s.world ≠ none) : s.next M prog (.step i reply) ≠ s := by
  intro hsame
  obtain ⟨x, hx⟩ := Option.ne_none_iff_exists'.mp hexec
  have hlt := (List.getElem?_eq_some_iff.mp hthread).1
  simp only [next, move, hthread, hx] at hsame
  have hset := congrArg (fun s => s.threads[i]?) hsame
  simp only [List.getElem?_set_self hlt, hthread, Option.some.injEq, Prod.mk.injEq, true_and] at hset
  have hrest := Program.Rest.call op k x.1
  rw [hset] at hrest
  exact Program.wellFounded_rest.irrefl.irrefl _ hrest

theorem run_idle {later : ℕ → Event J Reply} {n : ℕ} (h : ∀ k < n, s.next M prog (later k) = s) :
    s.run M prog ((List.range n).map later) = s := by
  induction n with
  | zero => rfl
  | succ n ih =>
    rw [List.range_succ, List.map_append, run, List.foldl_append]
    have hsame : s.run M prog ((List.range n).map later) = s := ih fun k hk => h k (by omega)
    rw [run] at hsame
    rw [hsame]
    exact h n (by omega)

/-- Sessions of which always one can move come to rest, when all get their turns and nobody new
begins. -/
theorem rests_of_fair {I : Pool J Op Res α World → Prop} {later : ℕ → Event J Reply}
    (hkeep : ∀ s e, (∀ job, e ≠ .spawn job) → I s → I (s.next M prog e))
    (hmoves : ∀ s, I s → s.resting = false → s.Moves M) (hs : I s)
    (hlater : ∀ n job, later n ≠ .spawn job) (hfair : s.Fair later) :
    ∃ n, (s.run M prog ((List.range n).map later)).resting = true := by
  have hwf : WellFounded (CutExpand (Program.Rest : Program Op Res α → Program Op Res α → Prop)) :=
    Program.wellFounded_rest.cutExpand
  generalize hleft : s.programs = left
  induction left using hwf.induction generalizing s later with
  | _ left ih =>
    subst hleft
    cases hrest : s.resting with
    | true => exact ⟨0, hrest⟩
    | false =>
      obtain ⟨i, job, op, k, hthread, hexec⟩ := hmoves s hs hrest
      obtain ⟨m, reply, -, hturn⟩ := hfair i job op k hthread 0
      have hmoved : ∃ m, s.next M prog (later m) ≠ s :=
        ⟨m, by rw [hturn]; exact next_ne hthread (hexec reply)⟩
      classical
      obtain ⟨n, hn, hmin⟩ : ∃ n, s.next M prog (later n) ≠ s ∧
          ∀ k < n, s.next M prog (later k) = s :=
        ⟨Nat.find hmoved, Nat.find_spec hmoved, fun k hk => not_not.mp (Nat.find_min hmoved hk)⟩
      have hless : CutExpand Program.Rest (s.next M prog (later n)).programs s.programs :=
        (next_shrinks (hlater n)).resolve_left hn
      obtain ⟨n', hn'⟩ := ih _ hless (hkeep s _ (hlater n) hs) (fun k job => hlater (n + 1 + k) job)
        (hfair.next (hlater n) (n + 1)) rfl
      refine ⟨n + 1 + n', ?_⟩
      have hsplit : (List.range (n + 1 + n')).map later =
          (List.range n).map later ++ later n :: (List.range n').map fun k => later (n + 1 + k) := by
        rw [List.range_add, List.range_succ]
        simp
      rw [hsplit, run, List.foldl_append]
      have hidle := run_idle hmin
      rw [run] at hidle
      rw [hidle]
      exact hn'

end Pool

end AgentDesk.Framework
