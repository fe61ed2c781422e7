import AgentDesk.Framework.Serial
import AgentDesk.Logic.Sessions
import AgentDesk.Logic.Provenance

namespace AgentDesk

open Framework (Program Machine Serial)

variable {S : Type} {cfg : Config S} {workflow : Workflow S} {c : Nat} {w w' : World S}
  {s s' : Journal S}

/-- One transaction of a session that runs alone: what it had read still stands in the tables. -/
structure Act (cfg : Config S) (workflow : Workflow S) (s : Journal S) (start : Time)
    (db db' : DB S) : Prop where
  rows : ∀ id t, s.row id = some t → db.tickets.find? id = some t
  deed : Deed cfg workflow s s.writes
  absent : Absent start db s.writes
  result : db' = applyAll start db s.writes

/-- What a session that runs alone knows is so, and no later session has begun. -/
structure Journal.Current (c : Nat) (w : World S) (s : Journal S) : Prop where
  writes : w.writesOf c = s.writes
  rows : ∀ id t, s.row id = some t → w.db.tickets.find? id = some t
  sound : w.Sound c
  fresh : ∀ d, c < d → w.tx? d = none

namespace Journal

theorem current_start (h : ∀ d, c ≤ d → w.tx? d = none) : start.Current c w :=
  ⟨by simp [World.writesOf, h c (le_refl c), start], fun _ _ h => by simp [start] at h,
    .of_none (h c (le_refl c)), fun d hd => h d hd.le⟩

/-- A call that leaves the tables alone. -/
theorem Current.quiet {op : Op S} {r : Res op} (h : s.Current c w) (hs : w.Steps c op r w')
    (hdb : w'.db = w.db) (hw : w'.writesOf c = s'.writes)
    (hrow : ∀ id t, s'.row id = some t → w.db.tickets.find? id = some t) : s'.Current c w' := by
  refine ⟨hw, ?_, hs.sound h.sound, fun d hd => ?_⟩
  · rw [hdb]
    exact hrow
  · rw [hs.confined.tx d (by omega)]
    exact h.fresh d hd

/-- A call after which the session has no transaction. -/
theorem Current.dropped {op : Op S} {r : Res op} (h : s.Current c w)
    (hs : w.Steps c op r w') (hw' : w' = (w.dropTx c).log c op r) (hw : s'.writes = [])
    (hrow : ∀ id t, s'.row id = some t → s.row id = some t) : s'.Current c w' := by
  subst hw'
  refine h.quiet hs rfl ?_ fun id t ht => h.rows id t (hrow id t ht)
  have htx : ((w.dropTx c).log c op r).tx? c = none := World.tx?_dropTx_self (w := w)
  simp [World.writesOf, htx, hw]

/-- A call that does not touch the database. -/
theorem Current.outside {op : Op S} {r : Res op} (h : s.Current c w)
    (hs : w.Steps c op r (w.log c op r)) (hw : s'.writes = s.writes) (hrow : s'.row = s.row) :
    s'.Current c (w.log c op r) := by
  refine h.quiet hs rfl (h.writes.trans hw.symm) ?_
  rw [hrow]
  exact h.rows

theorem Current.read (h : s.Current c w) (hs : s.writes = []) (now : Time)
    (choice : ServerChoice) (q : Query S) (r : q.Result) (hr : r = q.eval cfg.platform choice w.db)
    (hsteps : w.Steps c (.query q) (no_index (.ok r))
      ((w.noteRead c now q r).log c (.query q) (no_index (.ok r)))) :
    (s.after (.query q) (no_index (.ok r))).Current c
      ((w.noteRead c now q r).log c (.query q) (no_index (.ok r))) := by
  obtain ⟨tx, htx, hw, -⟩ := World.tx?_noteRead (w := w) (c := c) now q r
  have hquiet := World.quiet_noteRead (w := w) (c := c) now q r
  have hwrites : ((w.noteRead c now q r).log c (.query q) (no_index (.ok r))).writesOf c = [] := by
    have : ((w.noteRead c now q r).log c (.query q) (no_index (.ok r))).tx? c = some tx := htx
    rw [World.writesOf, this, Option.map_some, Option.getD_some, hw, h.writes, hs]
  have same : ∀ s' : Journal S, s'.writes = s.writes → s'.row = s.row →
      s'.Current c ((w.noteRead c now q r).log c (.query q) (no_index (.ok r))) := by
    intro s' hw' hrow
    refine h.quiet hsteps hquiet.db (by rw [hwrites, hw', hs]) ?_
    rw [hrow]
    exact h.rows
  cases q with
  | ticket id =>
    have hrow : ∀ id' t, Function.update s.row id r id' = some t →
        w.db.tickets.find? id' = some t := by
      intro id' t ht
      by_cases hid : id' = id
      · subst hid
        rw [Function.update_self, hr] at ht
        exact ht
      · exact h.rows id' t (by rwa [Function.update_of_ne hid] at ht)
    cases r with
    | none => exact h.quiet hsteps hquiet.db (by rw [hwrites, after_ticket_none]; exact hs.symm) hrow
    | some t => exact h.quiet hsteps hquiet.db (by rw [hwrites, after_ticket]; exact hs.symm) hrow
  | _ => exact same _ rfl rfl

/-- A ticket that no statement renews stays as it is. -/
theorem find_applyAll {id : Uuid} {start : Time} {db : DB S} {ws : List (Write S)}
    (h : ws.any (Write.renews id) = false) :
    (applyAll start db ws).tickets.find? id = db.tickets.find? id := by
  refine applyAll_induction (K := fun db' => db'.tickets.find? id = db.tickets.find? id) rfl ?_
  intro x hx db' ih
  rw [find?_of_not_renews (by simpa using List.any_eq_false.mp h x hx), ih]

theorem Current.exec {op : Op S} {reply : Reply S} {r : Res op} (h : s.Current c w)
    (hok : (observer cfg workflow).ok s op) (he : w.exec cfg.platform c op reply = some (r, w')) :
    Ledger.Fits op r ∧ (s.after op r).Current c w' ∧
      (w'.db = w.db ∨ ∃ start, Act cfg workflow s start w.db w'.db) := by
  have hs := World.steps_of_exec he
  simp only [World.exec, Option.map_eq_some_iff] at he
  obtain ⟨⟨r₁, w₁⟩, he, heq⟩ := he
  cases heq
  cases op with
  | query q =>
    simp only [World.effect] at he
    split at he
    · cases he
      rw [after_query_error]
      exact ⟨Ledger.fits_query_error q _, h.dropped hs rfl rfl (fun _ _ h => h), Or.inl rfl⟩
    · cases he
      have hview : w.view c = w.db := World.view_of_writes (h.writes.trans hok)
      rw [hview] at hs ⊢
      exact ⟨Ledger.fits_eval _ _ _ q, h.read hok _ _ q _ rfl hs,
        Or.inl (World.quiet_noteRead (w := w) (c := c) _ q _).db⟩
  | write ws =>
    simp only [World.effect] at he
    split at he
    · cases he
      exact ⟨trivial, h.dropped hs rfl rfl (fun _ _ h => h), Or.inl rfl⟩
    · split at he
      · cases he
      · split at he
        · cases he
          exact ⟨trivial, h.dropped hs rfl rfl (fun _ _ h => h), Or.inl rfl⟩
        · cases he
          refine ⟨trivial, h.quiet hs rfl ?_ h.rows, Or.inl rfl⟩
          have hset := World.tx?_setTx_self (w := w)
            { w.txOf c reply.now with writes := (w.txOf c reply.now).writes ++ ws }
            (World.txOf_session reply.now)
          have hlog : ((w.setTx { w.txOf c reply.now with
              writes := (w.txOf c reply.now).writes ++ ws }).log c (.write ws)
                (.ok ())).tx? c = _ := hset
          rw [World.writesOf, hlog, Option.map_some, Option.getD_some, World.txOf_writes, h.writes]
          rfl
  | commit =>
    simp only [World.effect] at he
    split at he
    · cases he
      exact ⟨trivial, h.dropped hs rfl rfl (fun _ _ h => h), Or.inl rfl⟩
    · cases he
      refine ⟨trivial, ?_⟩
      obtain ⟨hhist, -, hclosed, -⟩ := World.commitTx_cases (w := w) c
      have hw : ((w.commitTx c).log c .commit (.ok ())).writesOf c = [] := by
        have : ((w.commitTx c).log c .commit (.ok ())).tx? c = none := hclosed
        simp [World.writesOf, this]
      obtain ⟨hnil, hq⟩ | ⟨tx, hc⟩ := hhist
      · rw [h.writes] at hnil
        refine ⟨h.quiet hs hq.db hw fun id t ht => h.rows id t ?_, Or.inl hq.db⟩
        simpa [committed, hnil] using ht
      · have hwrites : s.writes = tx.writes := by
          rw [← h.writes, World.writesOf, hc.open_]
          rfl
        have hdeed : Deed cfg workflow s s.writes :=
          hok.resolve_left fun hnil => hc.some (hwrites ▸ hnil)
        have hdb : (w.commitTx c).db = applyAll tx.start w.db s.writes := by rw [hc.db, hwrites]
        refine ⟨⟨hw, ?_, hs.sound h.sound, fun d hd => ?_⟩, Or.inr ⟨tx.start, h.rows, hdeed, ?_, hdb⟩⟩
        · intro id t ht
          simp only [after_commit, committed] at ht
          split at ht
          · cases ht
          · rename_i hnot
            change (w.commitTx c).db.tickets.find? id = some t
            rw [hdb, find_applyAll (by simpa using hnot)]
            exact h.rows id t ht
        · rw [hs.confined.tx d (by omega)]
          exact h.fresh d hd
        · rw [hwrites]
          exact (h.sound tx hc.open_).2
  | rollback =>
    simp only [World.effect] at he
    split at he <;>
    · cases he
      exact ⟨trivial, h.dropped hs rfl rfl (fun _ _ h => h), Or.inl rfl⟩
  | close =>
    cases he
    exact ⟨trivial, h.dropped hs rfl rfl (fun _ _ h => h), Or.inl rfl⟩
  | enqueue task =>
    simp only [World.effect] at he
    split at he <;>
    · cases he
      exact ⟨trivial, h.quiet hs rfl h.writes h.rows, Or.inl rfl⟩
  | embed texts =>
    cases he
    refine ⟨?_, h.outside hs ?_ ?_, Or.inl rfl⟩ <;> cases reply.fault <;> trivial
  | chat request =>
    cases he
    refine ⟨?_, h.outside hs ?_ ?_, Or.inl rfl⟩ <;> cases reply.fault <;> trivial
  | aclose =>
    cases he
    refine ⟨?_, h.outside hs ?_ ?_, Or.inl rfl⟩ <;> cases reply.fault <;> trivial
  | post url body headers =>
    cases he
    refine ⟨?_, h.outside hs ?_ ?_, Or.inl rfl⟩ <;> cases reply.fault <;> trivial
  | _ =>
    cases he
    exact ⟨trivial, h.quiet hs rfl h.writes h.rows, Or.inl rfl⟩

end Journal

/-- No session from this number on has a transaction. -/
def World.IdleFrom (n : Nat) (w : World S) : Prop := ∀ d, n ≤ d → w.tx? d = none

theorem deployment_idle [Field S] [LinearOrder S] [FloorRing S] (cfg : Config S)
    (workflow : Workflow S) (events : List (Framework.Event Job (Reply S))) :
    (deployment cfg workflow events).world.IdleFrom
      (deployment cfg workflow events).threads.length := by
  unfold deployment World.IdleFrom
  refine Framework.Pool.fresh_run (F := fun d (w : World S) => w.tx? d = none) ?_ ?_ events
    fun _ _ => rfl
  · intro c d op reply r w w' hne he h
    exact ((World.steps_of_exec he).confined.tx d hne).trans h
  · intro c d w hne h
    exact (World.tx?_dropTx_ne hne).trans h

/-- What every transaction preserves holds after every session, when sessions run one after
another. -/
theorem serial_acts {J α : Type} {prog : J → Nat → Program (Op S) Res α} {K : DB S → Prop}
    {Q : α → Journal S → Prop}
    (hprog : ∀ job c, (prog job c).Obeys (Journal.observer cfg workflow) Q Journal.start)
    (hact : ∀ {s : Journal S} {start : Time} {db db' : DB S}, K db →
      Act cfg workflow s start db db' → K db')
    {n m : Nat} (h : Serial (server cfg.platform) prog n w m w') (hw : w.IdleFrom n)
    (hk : K w.db) : K w'.db ∧ w'.IdleFrom m := by
  refine h.induction (I := fun m w => K w.db ∧ w.IdleFrom m) ?_ ⟨hk, hw⟩
  rintro c w₁ w₂ job ⟨hk, hidle⟩ hleaves
  refine Program.leaves_of_obeys (P := fun (w : World S) (s : Journal S) => s.Current c w ∧ K w.db)
    (I := fun w => K w.db ∧ w.IdleFrom (c + 1)) ?_ ?_ (hprog job c)
    ⟨Journal.current_start hidle, hk⟩ hleaves
  · rintro w op s reply r w' ⟨hcur, hk⟩ hok he
    obtain ⟨hfits, hcur', hdb⟩ := hcur.exec hok he
    refine ⟨s.after op r, ⟨hfits, rfl⟩, hcur', ?_⟩
    obtain hsame | ⟨start, hact'⟩ := hdb
    · rw [hsame]
      exact hk
    · exact hact hk hact'
  · rintro w s ⟨hcur, hk⟩
    refine ⟨⟨hk, fun d hd => hcur.fresh d hd⟩, hk, fun d hd => ?_⟩
    exact (World.tx?_dropTx_ne (Nat.ne_of_gt hd)).trans (hcur.fresh d hd)

end AgentDesk
