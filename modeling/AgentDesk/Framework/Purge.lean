import AgentDesk.Framework.Observer

namespace AgentDesk.Framework

variable {Op : Type} {Res : Op → Type} {Reply World J St α β : Type}

/-- What a session may ask, what it may be told, and the answers that it has to take for other
ones. -/
structure Contract (Op : Type) (Res : Op → Type) where
  ok : Op → Prop
  told : (op : Op) → Res op → Prop
  masked : (op : Op) → Res op → Res op → Prop

/-- The answer `r` passes for `r'`. -/
def Contract.Passes (C : Contract Op Res) (op : Op) (r r' : Res op) : Prop :=
  C.told op r' ∧ (r = r' ∨ C.masked op r r')

/-- The program keeps to the contract, and goes on alike after answers that it must not tell
apart. -/
def Program.Heeds (C : Contract Op Res) : Program Op Res α → Prop
  | .ret _ => True
  | .call op next => C.ok op ∧ (∀ r, C.told op r → (next r).Heeds C) ∧
      ∀ r r', C.masked op r r' → next r = next r'

/-- An observer that stays in a state `s` demands the contract, and masks nothing. -/
structure Observer.Ensures (O : Observer Op Res St) (s : St) (C : Contract Op Res) : Prop where
  ok : ∀ op, O.ok s op → C.ok op
  unmasked : ∀ op r r', O.ok s op → ¬C.masked op r r'
  next : ∀ op r, C.told op r → O.next s op r s

namespace Program

variable {C : Contract Op Res} {O : Observer Op Res St} {s : St}

theorem heeds_bind {p : Program Op Res α} {f : α → Program Op Res β} {Q : α → St → Prop}
    (hO : O.Ensures s C) (hp : p.Obeys O Q s) (hf : ∀ a, Q a s → (f a).Heeds C) :
    (p.bind f).Heeds C := by
  induction p with
  | ret a => exact hf a hp
  | call op next ih =>
    refine ⟨hO.ok op hp.1, fun r hr => ih r (hp.2 r s (hO.next op r hr)), fun r r' hmask => ?_⟩
    exact absurd hmask (hO.unmasked op r r' hp.1)

theorem Heeds.passes {op : Op} {next : Res op → Program Op Res α} {r r' : Res op}
    (h : (call op next).Heeds C) (hr : C.Passes op r r') : next r = next r' ∧ (next r).Heeds C := by
  have hsame : next r = next r' := by
    rcases hr.2 with rfl | hmask
    · rfl
    · exact h.2.2 r r' hmask
  exact ⟨hsame, hsame ▸ h.2.1 r' hr.1⟩

end Program

/-! Runs without the calls of some sessions -/

/-- A session starts, or a near one does something. -/
def Event.near (near : Nat → Bool) : Event J Reply → Bool
  | .spawn _ => true
  | .step i _ => near i
  | .kill i => near i

/-- The events in which the sessions that are not near do nothing. -/
def purge (near : Nat → Bool) (events : List (Event J Reply)) : List (Event J Reply) :=
  events.filter (Event.near near)

/-- In worlds that `R` relates, a near session fares alike, and what the others do in the first one
the second one does without. -/
structure Unwinds (M : Machine Op Res Reply World) (C : Nat → Contract Op Res) (near : Nat → Bool)
    (R : World → World → Prop) : Prop where
  blocked : ∀ {c op reply w v}, near c = true → R w v → (C c).ok op →
    M.exec c op reply w = none → M.exec c op reply v = none
  step : ∀ {c op reply w v r w'}, near c = true → R w v → (C c).ok op →
    M.exec c op reply w = some (r, w') →
      ∃ r' v', M.exec c op reply v = some (r', v') ∧ (C c).Passes op r r' ∧ R w' v'
  other : ∀ {c op reply w v r w'}, near c = false → R w v → (C c).ok op →
    M.exec c op reply w = some (r, w') → (∃ r', (C c).Passes op r r') ∧ R w' v
  abort : ∀ {c w v}, near c = true → R w v → R (M.abort c w) (M.abort c v)
  otherAbort : ∀ {c w v}, near c = false → R w v → R (M.abort c w) v

namespace Pool

variable {M : Machine Op Res Reply World} {prog : J → Nat → Program Op Res α}
  {C : Nat → Contract Op Res} {near : Nat → Bool} {R : World → World → Prop}
  {s t : Pool J Op Res α World}

/-- The near sessions stand where they stand in `s`, in a world that `R` relates to that of `s`. -/
structure Purged (C : Nat → Contract Op Res) (near : Nat → Bool) (R : World → World → Prop)
    (s t : Pool J Op Res α World) : Prop where
  world : R s.world t.world
  length : t.threads.length = s.threads.length
  threads : ∀ i, near i = true → t.threads[i]? = s.threads[i]?
  heeds : ∀ (i : Nat) (job : J) (p : Program Op Res α), s.threads[i]? = some (job, some p) →
    p.Heeds (C i)

/-- No session is waiting for a call. -/
def resting (s : Pool J Op Res α World) : Bool := s.threads.all fun x =>
  match x.2 with
  | some (.call _ _) => false
  | _ => true

theorem heeds_of_resting (h : s.resting = true) {i : Nat} {job : J} {p : Program Op Res α}
    (hp : s.threads[i]? = some (job, some p)) : p.Heeds (C i) := by
  have hrest := List.all_eq_true.mp h _ (List.mem_of_getElem? hp)
  cases p with
  | ret a => trivial
  | call op next => cases hrest

theorem Purged.spawn (h : Purged C near R s t) (job : J)
    (hprog : (prog job s.threads.length).Heeds (C s.threads.length)) :
    Purged C near R (s.next M prog (.spawn job)) (t.next M prog (.spawn job)) := by
  refine ⟨h.world, ?_, fun i hi => ?_, fun i job' p hp => ?_⟩
  · simp only [next, List.length_append, h.length]
  · simp only [next, List.getElem?_append, h.length, h.threads i hi]
  · simp only [next, List.getElem?_append] at hp
    split at hp
    · exact h.heeds i job' p hp
    · obtain ⟨hlt, hget⟩ := List.getElem?_eq_some_iff.mp hp
      have hi : i = s.threads.length := by
        simp only [List.length_singleton] at hlt
        omega
      subst hi
      simp only [List.getElem_singleton, Prod.mk.injEq, Option.some.injEq] at hget
      obtain ⟨-, rfl⟩ := hget
      exact hprog

theorem heeds_set {i : Nat} {job : J} {p' : Option (Program Op Res α)}
    (h : Purged C near R s t) (hp' : ∀ p, p' = some p → p.Heeds (C i)) (j : Nat) (job' : J)
    (p : Program Op Res α) (hp : (s.threads.set i (job, p'))[j]? = some (job', some p)) :
    p.Heeds (C j) := by
  rw [List.getElem?_set] at hp
  by_cases hij : i = j
  · subst hij
    rw [if_pos rfl] at hp
    split at hp
    · cases hp
      exact hp' p rfl
    · cases hp
  · rw [if_neg hij] at hp
    exact h.heeds j job' p hp

theorem threads_set {i : Nat} {x : J × Option (Program Op Res α)} (h : Purged C near R s t) (j : Nat)
    (hj : near j = true) : (t.threads.set i x)[j]? = (s.threads.set i x)[j]? := by
  rw [List.getElem?_set, List.getElem?_set, h.length, h.threads j hj]

theorem threads_set_other {i : Nat} {x : J × Option (Program Op Res α)} (h : Purged C near R s t)
    (hi : near i = false) (j : Nat) (hj : near j = true) : t.threads[j]? = (s.threads.set i x)[j]? := by
  have hne : i ≠ j := by
    rintro rfl
    rw [hi] at hj
    cases hj
  rw [List.getElem?_set_ne hne, h.threads j hj]

theorem run_purge_near {e : Event J Reply} (he : e.near near = true) :
    t.run M prog (purge near [e]) = t.next M prog e := by
  rw [purge, List.filter_cons_of_pos he, List.filter_nil]
  rfl

theorem run_purge_other {e : Event J Reply} (he : e.near near = false) :
    t.run M prog (purge near [e]) = t := by
  rw [purge, List.filter_cons_of_neg (by rw [he]; exact Bool.false_ne_true), List.filter_nil]
  rfl

theorem Purged.idle (h : Purged C near R s t) {e : Event J Reply} (hs : s.next M prog e = s)
    (ht : e.near near = true → t.next M prog e = t) :
    Purged C near R (s.next M prog e) (t.run M prog (purge near [e])) := by
  cases he : e.near near with
  | true => rwa [run_purge_near he, hs, ht he]
  | false => rwa [run_purge_other he, hs]

theorem Purged.step (hu : Unwinds M C near R) (h : Purged C near R s t) (i : Nat) (reply : Reply) :
    Purged C near R (s.next M prog (.step i reply)) (t.run M prog (purge near [.step i reply])) := by
  cases hthread : s.threads[i]? with
  | none =>
    refine h.idle (by simp only [next, move, hthread]) fun hi => ?_
    simp only [next, move, h.threads i hi, hthread]
  | some x =>
    obtain ⟨job, _ | _ | ⟨op, k⟩⟩ := x
    · refine h.idle (by simp only [next, move, hthread]) fun hi => ?_
      simp only [next, move, h.threads i hi, hthread]
    · refine h.idle (by simp only [next, move, hthread]) fun hi => ?_
      simp only [next, move, h.threads i hi, hthread]
    · have hheeds := h.heeds i job _ hthread
      cases hexec : M.exec i op reply s.world with
      | none =>
        refine h.idle (by simp only [next, move, hthread, hexec]) fun hi => ?_
        have hblocked := hu.blocked hi h.world hheeds.1 hexec
        simp only [next, move, h.threads i hi, hthread, hblocked]
      | some y =>
        obtain ⟨r, w'⟩ := y
        cases hi : near i with
        | true =>
          obtain ⟨r', v', hv, hpasses, hr⟩ := hu.step hi h.world hheeds.1 hexec
          obtain ⟨hsame, hnext⟩ := hheeds.passes hpasses
          rw [run_purge_near (show Event.near near (.step i reply) = true from hi)]
          simp only [next, move, hthread, h.threads i hi, hexec, hv, ← hsame]
          refine ⟨hr, by simp only [List.length_set, h.length], threads_set h, heeds_set h ?_⟩
          intro p hp
          cases hp
          exact hnext
        | false =>
          obtain ⟨⟨r', hpasses⟩, hr⟩ := hu.other hi h.world hheeds.1 hexec
          obtain ⟨-, hnext⟩ := hheeds.passes hpasses
          rw [run_purge_other (show Event.near near (.step i reply) = false from hi)]
          simp only [next, move, hthread, hexec]
          refine ⟨hr, by simp only [List.length_set, h.length], threads_set_other h hi, heeds_set h ?_⟩
          intro p hp
          cases hp
          exact hnext

theorem Purged.kill (hu : Unwinds M C near R) (h : Purged C near R s t) (i : Nat) :
    Purged C near R (s.next M prog (.kill i : Event J Reply))
      (t.run M prog (purge near [(.kill i : Event J Reply)])) := by
  cases hthread : s.threads[i]? with
  | none =>
    refine h.idle (by simp only [next, hthread]) fun hi => ?_
    simp only [next, h.threads i hi, hthread]
  | some x =>
    obtain ⟨job, _ | p⟩ := x
    · refine h.idle (by simp only [next, hthread]) fun hi => ?_
      simp only [next, h.threads i hi, hthread]
    · cases hi : near i with
      | true =>
        rw [run_purge_near (show Event.near near (.kill i : Event J Reply) = true from hi)]
        simp only [next, hthread, h.threads i hi]
        refine ⟨hu.abort hi h.world, by simp only [List.length_set, h.length], threads_set h, ?_⟩
        exact heeds_set h fun p hp => by cases hp
      | false =>
        rw [run_purge_other (show Event.near near (.kill i : Event J Reply) = false from hi)]
        simp only [next, hthread]
        refine ⟨hu.otherAbort hi h.world, by simp only [List.length_set, h.length],
          threads_set_other h hi, ?_⟩
        exact heeds_set h fun p hp => by cases hp

variable (prog) in
/-- Sessions that keep to their contracts: to the near ones it makes no difference what the others
do. -/
theorem purged_run (hu : Unwinds M C near R) (events : List (Event J Reply)) (h : Purged C near R s t)
    (hprog : ∀ i job, s.threads.length ≤ i →
      (s.threads.map Prod.fst ++ spawned events)[i]? = some job → (prog job i).Heeds (C i)) :
    Purged C near R (s.run M prog events) (t.run M prog (purge near events)) := by
  induction events generalizing s t with
  | nil => exact h
  | cons e es ih =>
    have hsplit : t.run M prog (purge near (e :: es)) =
        (t.run M prog (purge near [e])).run M prog (purge near es) := by
      rw [run, run, run, ← List.foldl_append, purge, purge, purge, ← List.filter_append]
      rfl
    rw [hsplit]
    refine ih (s := s.next M prog e) ?_ fun i job hi hjob => ?_
    · cases e with
      | spawn job =>
        refine h.spawn job (hprog _ job (Nat.le_refl _) ?_)
        rw [List.getElem?_append_right (by simp)]
        simp [spawned]
      | step i reply => exact h.step hu i reply
      | kill i => exact h.kill hu i
    · have hlen := congrArg List.length (@jobs_next _ _ _ _ _ _ M prog s e)
      rw [jobs_next, List.append_assoc, ← spawned_cons] at hjob
      simp only [List.length_map, List.length_append] at hlen
      exact hprog i job (by omega) hjob

end Pool

end AgentDesk.Framework
