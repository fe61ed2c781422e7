import AgentDesk.Logic.History

namespace AgentDesk

variable {S : Type} {P : Platform} {c d : Nat} {u u' w w' : World S} {op : Op S} {reply : Reply S}
  {r : Res op}

/-! A session among sessions that write nothing -/

/-- The call only reads, or ends a transaction without a commit. -/
def Op.reads : Op S → Bool
  | .query _ | .rollback | .close => true
  | _ => false

namespace World

/-- The other sessions have written nothing. -/
def Unrivalled (c : Nat) (w : World S) : Prop := ∀ t ∈ w.txs, t.session ≠ c → t.writes = []

/-- `u` is the world `w` as session `c` sees it: it has no other session. -/
structure Shadow (c : Nat) (u w : World S) : Prop where
  db : u.db = w.db
  past : u.past = w.past
  tasks : u.tasks = w.tasks
  tx : u.tx? c = w.tx? c
  alone : u.Unrivalled c
  rivals : w.Unrivalled c

theorem Unrivalled.blocked (h : w.Unrivalled c) (ws : List (Write S)) : w.blocked c ws = false := by
  rw [World.blocked, List.any_eq_false]
  intro t ht
  by_cases hc : t.session = c
  · simp [hc]
  · simp [h t ht hc]

theorem Unrivalled.dropTx (h : w.Unrivalled c) (d : Nat) : (w.dropTx d).Unrivalled c :=
  fun t ht => h t (List.mem_of_mem_filter ht)

theorem Unrivalled.setTx {tx : Tx S} (h : w.Unrivalled c) (htx : tx.session ≠ c → tx.writes = []) :
    (w.setTx tx).Unrivalled c := by
  intro t ht hne
  rcases List.mem_cons.mp ht with rfl | ht
  · exact htx hne
  · exact h t (List.mem_of_mem_filter ht) hne

theorem Unrivalled.writesOf (h : w.Unrivalled c) (hd : d ≠ c) : w.writesOf d = [] := by
  cases ht : w.tx? d with
  | none => simp [World.writesOf, ht]
  | some tx =>
    have hmem : tx ∈ w.txs := List.mem_of_find?_eq_some ht
    have hsession := session_of_tx? ht
    simp [World.writesOf, ht, h tx hmem (hsession ▸ hd)]

theorem Unrivalled.noteRead (h : w.Unrivalled c) (d : Nat) (now : Time) (q : Query S)
    (row : q.Result) : (w.noteRead d now q row).Unrivalled c := by
  have hwrites : (w.txOf d now).session ≠ c → (w.txOf d now).writes = [] := by
    intro hne
    rw [txOf_session] at hne
    rw [txOf_writes, h.writesOf hne]
  cases q with
  | ticket id => exact h.setTx hwrites
  | _ => exact h.setTx hwrites

theorem commitTx_txs (c : Nat) : (w.commitTx c).txs ⊆ w.txs := by
  unfold commitTx
  split
  · exact fun _ h => h
  · split
    · exact fun t ht => List.mem_of_mem_filter ht
    · exact fun t ht => List.mem_of_mem_filter ht

theorem noteRead_tasks (now : Time) (q : Query S) (row : q.Result) :
    (w.noteRead c now q row).tasks = w.tasks := by
  cases q <;> rfl

namespace Shadow

/-- Where no transaction is open, a session sees the world itself. -/
theorem refl (h : w.txs = []) : Shadow c w w := by
  have halone : w.Unrivalled c := fun t ht => by
    rw [h] at ht
    cases ht
  exact ⟨rfl, rfl, rfl, rfl, halone, halone⟩

theorem txOf (h : Shadow c u w) (now : Time) : u.txOf c now = w.txOf c now := by
  rw [World.txOf, h.tx, World.txOf]

theorem view (h : Shadow c u w) : u.view c = w.view c := by
  rw [World.view, h.tx, h.db, World.view]

theorem log (h : Shadow c u w) (op : Op S) (r : Res op) :
    Shadow c (u.log c op r) (w.log c op r) := ⟨h.db, h.past, h.tasks, h.tx, h.alone, h.rivals⟩

theorem dropTx (h : Shadow c u w) : Shadow c (u.dropTx c) (w.dropTx c) := by
  refine ⟨h.db, h.past, h.tasks, ?_, h.alone.dropTx c, h.rivals.dropTx c⟩
  rw [tx?_dropTx_self, tx?_dropTx_self]

theorem setTx {tx : Tx S} (h : Shadow c u w) (htx : tx.session = c) :
    Shadow c (u.setTx tx) (w.setTx tx) := by
  have hown : tx.session ≠ c → tx.writes = [] := fun hne => absurd htx hne
  refine ⟨h.db, h.past, h.tasks, ?_, h.alone.setTx hown, h.rivals.setTx hown⟩
  rw [tx?_setTx_self tx htx, tx?_setTx_self tx htx]

theorem noteRead (h : Shadow c u w) (now : Time) (q : Query S) (row : q.Result) :
    Shadow c (u.noteRead c now q row) (w.noteRead c now q row) := by
  have hset : Shadow c (u.setTx (w.txOf c now)) (w.setTx (w.txOf c now)) := h.setTx (txOf_session now)
  cases q with
  | ticket id =>
    let tx : Tx S := { w.txOf c now with reads := (w.txOf c now).reads ++ row.toList }
    have hset : Shadow c (u.setTx tx) (w.setTx tx) := h.setTx (txOf_session now)
    simp only [World.noteRead, h.txOf]
    exact ⟨hset.db, hset.past, hset.tasks, hset.tx, hset.alone, hset.rivals⟩
  | _ =>
    simp only [World.noteRead, h.txOf]
    exact hset

theorem commitTx (h : Shadow c u w) : Shadow c (u.commitTx c) (w.commitTx c) := by
  have hclosed : (u.commitTx c).tx? c = (w.commitTx c).tx? c := by
    rw [(commitTx_cases c).2.2.1, (commitTx_cases c).2.2.1]
  have halone : (u.commitTx c).Unrivalled c := fun t ht => h.alone t (commitTx_txs c ht)
  have hrivals : (w.commitTx c).Unrivalled c := fun t ht => h.rivals t (commitTx_txs c ht)
  have hsame : (u.commitTx c).db = (w.commitTx c).db ∧ (u.commitTx c).past = (w.commitTx c).past ∧
      (u.commitTx c).tasks = (w.commitTx c).tasks := by
    unfold World.commitTx
    rw [h.tx]
    cases w.tx? c with
    | none => exact ⟨h.db, h.past, h.tasks⟩
    | some tx =>
      simp only
      split
      · exact ⟨h.db, h.past, h.tasks⟩
      · refine ⟨?_, ?_, h.tasks⟩
        · simp only [h.db]
        · simp only [h.db, h.past]
  exact ⟨hsame.1, hsame.2.1, hsame.2.2, hclosed, halone, hrivals⟩

/-- The session's own calls return the same where it is alone. -/
theorem exec (h : Shadow c u w) (he : w.exec P c op reply = some (r, w')) :
    ∃ u', u.exec P c op reply = some (r, u') ∧ Shadow c u' w' := by
  have hview := h.view
  have htx := h.txOf reply.now
  simp only [World.exec, Option.map_eq_some_iff] at he ⊢
  obtain ⟨⟨r₁, w₁⟩, he, heq⟩ := he
  cases heq
  suffices ∃ u₁, u.effect P c op reply = some (r₁, u₁) ∧ Shadow c u₁ w₁ by
    obtain ⟨u₁, heffect, hshadow⟩ := this
    exact ⟨_, ⟨_, heffect, rfl⟩, hshadow.log op r₁⟩
  cases op with
  | query q =>
    simp only [World.effect] at he ⊢
    split at he
    · cases he
      exact ⟨_, rfl, h.dropTx⟩
    · cases he
      rw [hview]
      exact ⟨_, rfl, h.noteRead _ q _⟩
  | write ws =>
    simp only [World.effect, h.alone.blocked, h.rivals.blocked, hview, htx] at he ⊢
    split at he
    · cases he
      exact ⟨_, rfl, h.dropTx⟩
    · split at he
      · cases he
      · rename_i hown
        rw [if_neg hown]
        split at he
        · rename_i hviolates
          cases he
          rw [if_pos hviolates]
          exact ⟨_, rfl, h.dropTx⟩
        · rename_i hviolates
          cases he
          rw [if_neg hviolates]
          exact ⟨_, rfl, h.setTx (txOf_session reply.now)⟩
  | commit =>
    simp only [World.effect] at he ⊢
    split at he
    · cases he
      exact ⟨_, rfl, h.dropTx⟩
    · cases he
      exact ⟨_, rfl, h.commitTx⟩
  | rollback =>
    simp only [World.effect] at he ⊢
    split at he
    · cases he
      exact ⟨_, rfl, h.dropTx⟩
    · cases he
      exact ⟨_, rfl, h.dropTx⟩
  | close =>
    cases he
    exact ⟨_, rfl, h.dropTx⟩
  | enqueue task =>
    simp only [World.effect] at he ⊢
    split at he
    · cases he
      exact ⟨_, rfl, h⟩
    · cases he
      refine ⟨_, rfl, h.db, h.past, ?_, h.tx, h.alone, h.rivals⟩
      simp only [h.tasks]
  | _ =>
    cases he
    exact ⟨_, rfl, h⟩

/-- The reads of another session do not show. -/
theorem other (h : Shadow c u w) (hd : d ≠ c) (hop : op.reads = true)
    (he : w.exec P d op reply = some (r, w')) : Shadow c u w' ∧ w'.commits = w.commits := by
  have hs := steps_of_exec he
  have hquiet : w.Quiet w' := by
    rcases hs.history with hquiet | ⟨rfl, -⟩
    · exact hquiet
    · cases hop
  have htx := hs.confined.tx c (Ne.symm hd)
  have hrest : w'.tasks = w.tasks ∧ w'.Unrivalled c := by
    simp only [World.exec, Option.map_eq_some_iff] at he
    obtain ⟨⟨r₁, w₁⟩, he, heq⟩ := he
    cases heq
    cases op with
    | query q =>
      simp only [World.effect] at he
      split at he
      · cases he
        exact ⟨rfl, h.rivals.dropTx d⟩
      · cases he
        exact ⟨noteRead_tasks _ q _, h.rivals.noteRead d _ q _⟩
    | rollback =>
      simp only [World.effect] at he
      split at he
      · cases he
        exact ⟨rfl, h.rivals.dropTx d⟩
      · cases he
        exact ⟨rfl, h.rivals.dropTx d⟩
    | close =>
      cases he
      exact ⟨rfl, h.rivals.dropTx d⟩
    | _ => cases hop
  obtain ⟨htasks, hrivals⟩ := hrest
  exact ⟨⟨h.db.trans hquiet.db.symm, h.past.trans hquiet.past.symm, h.tasks.trans htasks.symm,
    h.tx.trans htx.symm, h.alone, hrivals⟩, hquiet.commits⟩

end Shadow

end World

end AgentDesk
