import AgentDesk.Logic.Tables

namespace AgentDesk

open Framework (Machine)

variable {S : Type} {P : Platform} {w w' : World S} {c d : Nat}

namespace World

/-! Transactions -/

@[simp] theorem tx?_dropTx_self : (w.dropTx c).tx? c = none := by
  simp [tx?, dropTx, List.find?_eq_none]

theorem find?_others {txs : List (Tx S)} (h : d ≠ c) :
    (txs.filter fun t => t.session != c).find? (fun t => t.session == d) =
      txs.find? fun t => t.session == d := by
  rw [List.find?_filter]
  congr 1
  funext t
  by_cases ht : t.session = d
  · simp [ht, h]
  · simp [ht]

theorem tx?_dropTx_ne (h : d ≠ c) : (w.dropTx c).tx? d = w.tx? d := find?_others h

theorem tx?_setTx_self (tx : Tx S) (h : tx.session = c) : (w.setTx tx).tx? c = some tx := by
  simp [tx?, setTx, h]

theorem tx?_setTx_ne {tx : Tx S} (h : d ≠ tx.session) : (w.setTx tx).tx? d = w.tx? d := by
  have hne : (tx.session == d) = false := by simpa using Ne.symm h
  simp [tx?, setTx, hne, find?_others h]

theorem session_of_tx? {tx : Tx S} (h : w.tx? c = some tx) : tx.session = c := by
  simpa using List.find?_some h

@[simp] theorem txOf_session (now : Time) : (w.txOf c now).session = c := by
  cases h : w.tx? c with
  | none => simp [txOf, h]
  | some tx => simpa [txOf, h] using session_of_tx? h

theorem txOf_writes (now : Time) : (w.txOf c now).writes = w.writesOf c := by
  cases h : w.tx? c <;> simp [txOf, writesOf, h]

theorem view_of_writes (h : w.writesOf c = []) : w.view c = w.db := by
  cases ht : w.tx? c with
  | none => simp [view, ht]
  | some tx =>
    simp only [writesOf, ht, Option.map_some, Option.getD_some] at h
    simp [view, ht, h]

theorem view_eq_applyAll (now : Time) :
    w.view c = applyAll (w.txOf c now).start w.db (w.txOf c now).writes := by
  cases ht : w.tx? c <;> simp [view, txOf, ht]

/-! What a call does to the world -/

/-- The transactions of the other sessions are left alone, and so is what they read. -/
structure Confined (c : Nat) (w w' : World S) : Prop where
  tx : ∀ d, d ≠ c → w'.tx? d = w.tx? d
  seen : ∀ d, d ≠ c → w'.seen d = w.seen d

/-- The committed tables stay as they are. -/
structure Quiet (w w' : World S) : Prop where
  db : w'.db = w.db
  past : w'.past = w.past
  commits : w'.commits = w.commits

/-- The transaction `tx` of session `c` becomes durable. -/
structure Commits (c : Nat) (tx : Tx S) (w w' : World S) : Prop where
  open_ : w.tx? c = some tx
  some : tx.writes ≠ []
  db : w'.db = applyAll tx.start w.db tx.writes
  past : w'.past = w.past ++ [w.db]
  commits : w'.commits = w.commits ++ [⟨c, tx.start, tx.writes, w.seen c⟩]
  closed : w'.tx? c = none

/-- The statements of a transaction are the session's own and can all be carried out. -/
def Sound (w : World S) (c : Nat) : Prop :=
  ∀ tx, w.tx? c = some tx → ownIds c tx.writes = true ∧ Absent tx.start w.db tx.writes

theorem confined_drop : w.Confined c (w.dropTx c) :=
  ⟨fun _ h => tx?_dropTx_ne h, fun _ _ => rfl⟩

theorem confined_set {tx : Tx S} (h : tx.session = c) : w.Confined c (w.setTx tx) :=
  ⟨fun _ hd => tx?_setTx_ne (h ▸ hd), fun _ _ => rfl⟩

theorem Confined.log (h : w.Confined c w') (op : Op S) (r : Res op) : w.Confined c (w'.log c op r) :=
  ⟨h.tx, h.seen⟩

theorem confined_noteRead (now : Time) (q : Query S) (r : q.Result) :
    w.Confined c (w.noteRead c now q r) := by
  cases q with
  | ticket id =>
    refine ⟨fun d hd => ?_, fun d hd => Function.update_of_ne hd _ _⟩
    exact tx?_setTx_ne (by simpa using hd)
  | _ => exact confined_set (by simp)

theorem quiet_noteRead (now : Time) (q : Query S) (r : q.Result) :
    w.Quiet (w.noteRead c now q r) := by
  cases q <;> exact ⟨rfl, rfl, rfl⟩

theorem tx?_noteRead (now : Time) (q : Query S) (r : q.Result) :
    ∃ tx, (w.noteRead c now q r).tx? c = some tx ∧ tx.writes = w.writesOf c ∧
      tx.start = (w.txOf c now).start := by
  cases q with
  | ticket id =>
    exact ⟨{ w.txOf c now with reads := (w.txOf c now).reads ++ r.toList },
      tx?_setTx_self _ (txOf_session now), txOf_writes now, rfl⟩
  | _ => exact ⟨w.txOf c now, tx?_setTx_self _ (txOf_session now), txOf_writes now, rfl⟩

/-- A read of a session that has written nothing: it answers from the committed tables. -/
theorem query_exec {P : Platform} {q : Query S} {reply : Reply S} {r : Except Err q.Result}
    (hw : w.writesOf c = []) (he : w.exec P c (.query q) reply = some (r, w')) :
    w'.db = w.db ∧ w'.writesOf c = [] ∧
      ∀ x, r = .ok x → ∃ choice, x = q.eval P choice w.db := by
  simp only [exec, Option.map_eq_some_iff] at he
  obtain ⟨⟨r₁, w₁⟩, he, heq⟩ := he
  simp only [effect] at he
  split at he
  · cases he
    cases heq
    refine ⟨rfl, ?_, fun _ h => by cases h⟩
    change (((w.dropTx c).tx? c).map Tx.writes).getD [] = []
    rw [tx?_dropTx_self]
    rfl
  · cases he
    cases heq
    obtain ⟨tx, htx, hwrites, -⟩ := tx?_noteRead (w := w) (c := c) reply.now q
      (q.eval P reply.choice (w.view c))
    refine ⟨(quiet_noteRead (w := w) (c := c) _ q _).db, ?_, fun x h => ?_⟩
    · change (((w.noteRead c reply.now q _).tx? c).map Tx.writes).getD [] = []
      rw [htx]
      exact hwrites.trans hw
    · cases h
      rw [view_of_writes hw]
      exact ⟨_, rfl⟩

theorem commitTx_cases (c : Nat) :
    ((w.writesOf c = [] ∧ w.Quiet (w.commitTx c)) ∨ ∃ tx, w.Commits c tx (w.commitTx c)) ∧
      w.Confined c (w.commitTx c) ∧ (w.commitTx c).tx? c = none ∧ (w.commitTx c).calls = w.calls := by
  cases ht : w.tx? c with
  | none =>
    simp only [commitTx, ht]
    exact ⟨Or.inl ⟨by simp [writesOf, ht], ⟨rfl, rfl, rfl⟩⟩, ⟨fun _ _ => rfl, fun _ _ => rfl⟩,
      trivial, trivial⟩
  | some tx =>
    simp only [commitTx, ht]
    split
    · rename_i hempty
      refine ⟨Or.inl ⟨?_, ⟨rfl, rfl, rfl⟩⟩, confined_drop, tx?_dropTx_self, rfl⟩
      simpa [writesOf, ht] using hempty
    · rename_i hne
      refine ⟨Or.inr ⟨tx, ht, by simpa using hne, rfl, rfl, rfl, ?_⟩, ⟨?_, fun _ _ => rfl⟩, ?_, rfl⟩
      · exact tx?_dropTx_self (w := w)
      · exact fun d hd => tx?_dropTx_ne (w := w) hd
      · exact tx?_dropTx_self (w := w)

theorem Sound.of_writes (h : w.Sound c) (hdb : w'.db = w.db) (now : Time) {tx : Tx S}
    (htx : w'.tx? c = some tx) (hw : tx.writes = w.writesOf c)
    (hstart : tx.start = (w.txOf c now).start) : w'.Sound c := by
  intro tx' ht
  rw [htx] at ht
  cases ht
  rw [hdb, hw, hstart]
  cases hc : w.tx? c with
  | none => simp [writesOf, hc, ownIds, Absent]
  | some tx₀ =>
    obtain ⟨hown, habs⟩ := h tx₀ hc
    simpa [writesOf, txOf, hc] using And.intro hown habs

theorem Sound.of_none (h : w.tx? c = none) : w.Sound c := by
  intro tx ht
  rw [h] at ht
  cases ht

/-- What any call does: it is logged, it leaves the other sessions alone, and only a commit
changes the committed tables. -/
structure Steps (c : Nat) (op : Op S) (r : Res op) (w w' : World S) : Prop where
  calls : w'.calls = w.calls ++ [⟨c, op, r⟩]
  confined : w.Confined c w'
  history : w.Quiet w' ∨ op = .commit ∧ ∃ tx, w.Commits c tx w'
  sound : w.Sound c → w'.Sound c

theorem steps_of_exec {op : Op S} {reply : Reply S} {r : Res op}
    (h : w.exec P c op reply = some (r, w')) : w.Steps c op r w' := by
  have dropped : ∀ r, w.Steps c op r ((w.dropTx c).log c op r) := fun r =>
    ⟨rfl, confined_drop.log op r, Or.inl ⟨rfl, rfl, rfl⟩, fun _ => .of_none (tx?_dropTx_self (w := w))⟩
  have same : ∀ r, w.Steps c op r (w.log c op r) := fun r =>
    ⟨rfl, ⟨fun _ _ => rfl, fun _ _ => rfl⟩, Or.inl ⟨rfl, rfl, rfl⟩, fun h => h⟩
  simp only [exec, Option.map_eq_some_iff] at h
  obtain ⟨⟨r₁, w₁⟩, he, heq⟩ := h
  cases heq
  cases op with
  | query q =>
    simp only [effect] at he
    split at he
    · cases he
      exact dropped _
    · cases he
      obtain ⟨tx, htx, hw, hstart⟩ :=
        tx?_noteRead (w := w) (c := c) reply.now q (q.eval P reply.choice (w.view c))
      refine ⟨?_, (confined_noteRead _ q _).log _ _, Or.inl ?_, fun h => ?_⟩
      · cases q <;> rfl
      · have hq := quiet_noteRead (w := w) (c := c) reply.now q (q.eval P reply.choice (w.view c))
        exact ⟨hq.db, hq.past, hq.commits⟩
      · refine Sound.of_writes h ?_ reply.now htx hw hstart
        cases q <;> rfl
  | write ws =>
    simp only [effect] at he
    split at he
    · cases he
      exact dropped _
    · split at he
      · cases he
      · rename_i hblocked
        split at he
        · cases he
          exact dropped _
        · rename_i hviol
          cases he
          refine ⟨rfl, (confined_set (by simp)).log _ _, Or.inl ⟨rfl, rfl, rfl⟩, ?_⟩
          intro h tx htx
          have hset := tx?_setTx_self (w := w)
            { w.txOf c reply.now with writes := (w.txOf c reply.now).writes ++ ws }
            (txOf_session reply.now)
          obtain rfl : _ = tx := Option.some.inj (hset.symm.trans htx)
          have hown : ownIds c ws = true :=
            (by simpa using hblocked : w.blocked c ws = false ∧ ownIds c ws = true).2
          have habs : Absent (w.txOf c reply.now).start (w.view c) ws :=
            absent_of_violatesAny (by simpa using hviol)
          have hold : ownIds c (w.txOf c reply.now).writes = true ∧
              Absent (w.txOf c reply.now).start w.db (w.txOf c reply.now).writes := by
            cases hc : w.tx? c with
            | none => simp [txOf, hc, ownIds, Absent]
            | some tx₀ => simpa [txOf, hc] using h tx₀ hc
          refine ⟨ownIds_append.mpr ⟨hold.1, hown⟩, absent_append.mpr ⟨hold.2, ?_⟩⟩
          rw [view_eq_applyAll reply.now] at habs
          exact habs
  | commit =>
    simp only [effect] at he
    split at he
    · cases he
      exact dropped _
    · cases he
      obtain ⟨hhist, hconf, hclosed, hcalls⟩ := commitTx_cases (w := w) c
      refine ⟨by simp [log, hcalls], hconf.log _ _, ?_, fun _ => .of_none hclosed⟩
      obtain ⟨-, hq⟩ | ⟨tx, hc⟩ := hhist
      · exact Or.inl ⟨hq.db, hq.past, hq.commits⟩
      · exact Or.inr ⟨rfl, tx, hc.open_, hc.some, hc.db, hc.past, hc.commits, hc.closed⟩
  | rollback =>
    simp only [effect] at he
    split at he <;>
    · cases he
      exact dropped _
  | close =>
    cases he
    exact dropped _
  | enqueue task =>
    simp only [effect] at he
    split at he <;>
    · cases he
      exact ⟨rfl, ⟨fun _ _ => rfl, fun _ _ => rfl⟩, Or.inl ⟨rfl, rfl, rfl⟩, fun h => h⟩
  | _ =>
    cases he
    exact same _

/-! The versions of the committed tables -/

/-- The first version is empty, and each commit makes the next one from the one before. -/
structure Sane (w : World S) : Prop where
  first : [.empty] <+: w.versions
  length : w.past.length = w.commits.length
  step : ∀ (i : Nat) (commit : Commit S) (db db' : DB S), w.commits[i]? = some commit →
    w.versions[i]? = some db → w.versions[i + 1]? = some db' →
      db' = applyAll commit.start db commit.writes ∧ Absent commit.start db commit.writes
  sound : ∀ c, w.Sound c

theorem sane_init : (init : World S).Sane :=
  ⟨List.prefix_rfl, rfl, fun i _ _ _ h => by simp [init] at h, fun _ => .of_none rfl⟩

@[simp] theorem versions_length : w.versions.length = w.past.length + 1 := by simp [versions]

theorem versions_last : w.versions[w.past.length]? = some w.db := by simp [versions]

theorem Quiet.versions (h : w.Quiet w') : w'.versions = w.versions := by
  simp [World.versions, h.past, h.db]

theorem Commits.versions {tx : Tx S} (h : w.Commits c tx w') :
    w'.versions = w.versions ++ [w'.db] := by
  simp [World.versions, h.past]

theorem Steps.versions {op : Op S} {r : Res op} (h : w.Steps c op r w') :
    w.versions <+: w'.versions := by
  obtain hq | ⟨-, tx, hc⟩ := h.history
  · exact ⟨[], by rw [hq.versions, List.append_nil]⟩
  · rw [hc.versions]
    exact List.prefix_append _ _

theorem Steps.commits {op : Op S} {r : Res op} (h : w.Steps c op r w') :
    w.commits <+: w'.commits := by
  obtain hq | ⟨-, tx, hc⟩ := h.history
  · exact ⟨[], by rw [hq.commits, List.append_nil]⟩
  · rw [hc.commits]
    exact List.prefix_append _ _

theorem Steps.grows {op : Op S} {r : Res op} (h : w.Steps c op r w') : w.db.Grows w'.db := by
  obtain hq | ⟨-, tx, hc⟩ := h.history
  · rw [hq.db]
    exact .refl w.db
  · rw [hc.db]
    exact DB.grows_applyAll _

theorem getElem?_extended {α : Type} {xs ys : List α} {i : Nat} {x : α} (h : xs <+: ys)
    (hx : xs[i]? = some x) : ys[i]? = some x := by
  obtain ⟨zs, rfl⟩ := h
  rw [List.getElem?_append_left (List.getElem?_eq_some_iff.mp hx).1]
  exact hx

theorem Steps.sane {op : Op S} {r : Res op} (h : w.Steps c op r w') (hw : w.Sane) : w'.Sane := by
  have hfirst := hw.first.trans h.versions
  obtain hq | ⟨-, tx, hc⟩ := h.history
  · refine ⟨hfirst, by rw [hq.past, hq.commits, hw.length], ?_, fun d => ?_⟩
    · rw [hq.commits, hq.versions]
      exact hw.step
    · by_cases hd : d = c
      · subst hd
        exact h.sound (hw.sound d)
      · intro tx htx
        rw [h.confined.tx d hd] at htx
        rw [hq.db]
        exact hw.sound d tx htx
  · obtain ⟨hown, habs⟩ := hw.sound c tx hc.open_
    refine ⟨hfirst, by simp [hc.past, hc.commits, hw.length], ?_, fun d => ?_⟩
    · intro i commit db db' hcommit hdb hdb'
      by_cases hi : i < w.commits.length
      · rw [hc.commits, List.getElem?_append_left hi] at hcommit
        rw [hc.versions, List.getElem?_append_left (by simp [hw.length]; omega)] at hdb hdb'
        exact hw.step i commit db db' hcommit hdb hdb'
      · have hlen : i = w.commits.length := by
          have := (List.getElem?_eq_some_iff.mp hcommit).1
          simp [hc.commits] at this
          omega
        subst hlen
        rw [← hw.length] at hcommit hdb hdb'
        rw [hc.versions, List.getElem?_append_left (by simp), versions_last] at hdb
        rw [hc.versions, List.getElem?_append_right (by simp)] at hdb'
        rw [hc.commits, hw.length, List.getElem?_append_right (le_refl _)] at hcommit
        simp at hcommit hdb hdb'
        subst hcommit hdb hdb'
        exact ⟨hc.db, habs⟩
    · by_cases hd : d = c
      · subst hd
        exact .of_none hc.closed
      · intro tx' htx
        rw [h.confined.tx d hd] at htx
        obtain ⟨hown', habs'⟩ := hw.sound d tx' htx
        refine ⟨hown', absent_congr hown' ?_ habs'⟩
        rw [hc.db]
        exact sameFor_applyAll hown hd

theorem Sane.abort (hw : w.Sane) (c : Nat) : (w.dropTx c).Sane := by
  refine ⟨hw.first, hw.length, hw.step, fun d => ?_⟩
  by_cases hd : d = c
  · subst hd
    exact .of_none tx?_dropTx_self
  · intro tx htx
    rw [tx?_dropTx_ne hd] at htx
    exact hw.sound d tx htx

theorem Sane.version (hw : w.Sane) {i : Nat} (hi : i ≤ w.commits.length) :
    ∃ db, w.versions[i]? = some db :=
  ⟨_, List.getElem?_eq_getElem (by rw [versions_length, hw.length]; omega)⟩

/-- Every version but the first has a version before it and the commit that made it. -/
theorem Sane.before (hw : w.Sane) {j : Nat} {db' : DB S} (h : w.versions[j + 1]? = some db') :
    ∃ commit db, w.commits[j]? = some commit ∧ w.versions[j]? = some db := by
  have hlt := (List.getElem?_eq_some_iff.mp h).1
  have hj : j < w.versions.length := by omega
  have hcommit : j < w.commits.length := by
    rw [versions_length, hw.length] at hlt
    omega
  exact ⟨_, _, List.getElem?_eq_getElem hcommit, List.getElem?_eq_getElem hj⟩

/-- From one version to any later one, rows stay. -/
theorem Sane.grows (hw : w.Sane) {i j : Nat} {db db' : DB S} (hij : i ≤ j)
    (hdb : w.versions[i]? = some db) (hdb' : w.versions[j]? = some db') : db.Grows db' := by
  induction j, hij using Nat.le_induction generalizing db' with
  | base =>
    rw [hdb] at hdb'
    cases hdb'
    exact .refl db
  | succ j hij ih =>
    obtain ⟨commit, mid, hcommit, hmid⟩ := hw.before hdb'
    obtain ⟨rfl, -⟩ := hw.step j commit mid db' hcommit hmid hdb'
    exact (ih hmid).trans (DB.grows_applyAll _)

end World

end AgentDesk
