import AgentDesk.Logic.Homes
import AgentDesk.Logic.Commits
import AgentDesk.Logic.Shadow

namespace AgentDesk

variable {S : Type} {P : Platform} {home : RowKey → Option Uuid} {org : Nat → Uuid}
  {organizationId : Uuid} {c d : Nat} {w w' v : World S}

/-! A world and what one organization has of it -/

/-- The transaction without the tickets of other organizations that it read. -/
def Tx.within (tx : Tx S) (organizationId : Uuid) : Tx S :=
  { tx with reads := tx.reads.filter fun t => t.organizationId == organizationId }

/-- Every row is at its home, and every open transaction writes rows of its session's
organization. -/
structure World.Settled (home : RowKey → Option Uuid) (org : Nat → Uuid) (w : World S) : Prop where
  db : w.db.Settled home
  drawn : ∀ t ∈ w.txs, Drawn home org t.session
  writes : ∀ t ∈ w.txs, ∀ x ∈ t.writes,
    x.Local (org t.session) t.session (homeKeys home (org t.session))

/-- `v` is what the organization has of `w`: its rows, its sessions and its messages. -/
structure World.Portrays (home : RowKey → Option Uuid) (org : Nat → Uuid) (organizationId : Uuid)
    (w v : World S) : Prop where
  settled : w.Settled home org
  db : v.db = w.db.rowsOf organizationId
  txs : v.txs = (w.txs.filter fun t => org t.session == organizationId).map (·.within organizationId)
  tasks : v.tasks = w.tasks.filter fun task => home task.key == some organizationId
  ops : ∀ c, org c = organizationId →
    (v.callsOf c).map Sigma.fst = (w.callsOf c).map Sigma.fst

namespace World

/-! Settled worlds -/

namespace Settled

theorem local_writesOf (h : w.Settled home org) :
    ∀ x ∈ w.writesOf c, x.Local (org c) c (homeKeys home (org c)) := by
  intro x hx
  cases ht : w.tx? c with
  | none => simp [World.writesOf, ht] at hx
  | some tx =>
    have hsession := session_of_tx? ht
    have hwrites := h.writes tx (List.mem_of_find?_eq_some ht) x (by simpa [World.writesOf, ht] using hx)
    rwa [hsession] at hwrites

theorem local_txOf (h : w.Settled home org) (now : Time) :
    ∀ x ∈ (w.txOf c now).writes, x.Local (org c) c (homeKeys home (org c)) := by
  rw [txOf_writes]
  exact h.local_writesOf

theorem dropTx (h : w.Settled home org) (c : Nat) : (w.dropTx c).Settled home org :=
  ⟨h.db, fun t ht => h.drawn t (List.mem_of_mem_filter ht),
    fun t ht => h.writes t (List.mem_of_mem_filter ht)⟩

theorem setTx (h : w.Settled home org) (hc : Drawn home org c) {tx : Tx S} (hsession : tx.session = c)
    (hwrites : ∀ x ∈ tx.writes, x.Local (org c) c (homeKeys home (org c))) :
    (w.setTx tx).Settled home org := by
  subst hsession
  refine ⟨h.db, fun t ht => ?_, fun t ht => ?_⟩
  · rcases List.mem_cons.mp ht with rfl | ht
    · exact hc
    · exact h.drawn t (List.mem_of_mem_filter ht)
  · rcases List.mem_cons.mp ht with rfl | ht
    · exact hwrites
    · exact h.writes t (List.mem_of_mem_filter ht)

theorem noteRead (h : w.Settled home org) (hc : Drawn home org c) (now : Time) (q : Query S)
    (r : q.Result) : (w.noteRead c now q r).Settled home org := by
  cases q with
  | ticket id =>
    let tx : Tx S := { w.txOf c now with reads := (w.txOf c now).reads ++ (r : Option Ticket).toList }
    have hset : (w.setTx tx).Settled home org := h.setTx hc (txOf_session now) (h.local_txOf now)
    exact ⟨hset.db, hset.drawn, hset.writes⟩
  | _ => exact h.setTx hc (txOf_session now) (h.local_txOf now)

theorem commitTx (h : w.Settled home org) (hc : Drawn home org c) :
    (w.commitTx c).Settled home org := by
  have hdropped := h.dropTx c
  cases ht : w.tx? c with
  | none => simpa only [World.commitTx, ht] using h
  | some tx =>
    have hwrites : ∀ x ∈ tx.writes, x.Local (org c) c (homeKeys home (org c)) := by
      simpa [World.writesOf, ht] using h.local_writesOf (c := c)
    simp only [World.commitTx, ht]
    split
    · exact hdropped
    · exact ⟨h.db.applyAll hc hwrites, hdropped.drawn, hdropped.writes⟩

theorem view (h : w.Settled home org) (hc : Drawn home org c) : (w.view c).Settled home := by
  rw [view_eq_applyAll 0]
  exact h.db.applyAll hc (h.local_txOf 0)

end Settled

/-! What the organization starts with -/

/-- A deployment in which there is only what the organization has. -/
def onlyOf (home : RowKey → Option Uuid) (org : Nat → Uuid) (organizationId : Uuid) (w : World S) :
    World S :=
  { World.init with
    db := w.db.rowsOf organizationId
    tasks := w.tasks.filter fun task => home task.key == some organizationId
    calls := w.calls.filter fun call => org call.session == organizationId }

theorem portrays_onlyOf (hdb : w.db.Settled home) (hidle : w.txs = []) :
    w.Portrays home org organizationId (w.onlyOf home org organizationId) := by
  refine ⟨⟨hdb, ?_, ?_⟩, rfl, ?_, rfl, fun c hc => congrArg (List.map Sigma.fst) ?_⟩
  · simp [hidle]
  · simp [hidle]
  · simp [hidle, onlyOf, World.init]
  · refine congrArg (List.map _) ((List.filter_filter ..).trans (List.filter_congr fun call _ => ?_))
    by_cases hcall : call.session = c
    · simp [hcall, hc]
    · simp [hcall]

/-! Sessions of the organization -/

namespace Portrays

theorem tx? (h : w.Portrays home org organizationId v) (hc : org c = organizationId) :
    v.tx? c = (w.tx? c).map (·.within organizationId) := by
  rw [World.tx?, h.txs, List.find?_map, List.find?_filter, World.tx?]
  congr 2
  funext t
  by_cases ht : t.session = c
  · simp [ht, hc, Tx.within]
  · simp [ht, Tx.within]

theorem txOf (h : w.Portrays home org organizationId v) (hc : org c = organizationId) (now : Time) :
    v.txOf c now = (w.txOf c now).within organizationId := by
  rw [World.txOf, h.tx? hc, World.txOf]
  cases w.tx? c <;> rfl

theorem absent_txOf (hsound : w.Sound c) (now : Time) :
    Absent (w.txOf c now).start w.db (w.txOf c now).writes := by
  cases ht : w.tx? c with
  | none => simp [World.txOf, ht, Absent]
  | some tx => simpa [World.txOf, ht] using (hsound tx ht).2

theorem view (h : w.Portrays home org organizationId v) (hd : Drawn home org c)
    (hc : org c = organizationId) (hsound : w.Sound c) :
    v.view c = (w.view c).rowsOf organizationId := by
  subst hc
  rw [view_eq_applyAll 0, view_eq_applyAll 0, h.txOf rfl, h.db]
  exact (applyAll_rowsOf (h.settled.db.sheltered hd) (h.settled.local_txOf 0) (absent_txOf hsound 0)).1.symm

theorem dropTx (h : w.Portrays home org organizationId v) (c : Nat) :
    (w.dropTx c).Portrays home org organizationId (v.dropTx c) := by
  refine ⟨h.settled.dropTx c, h.db, ?_, h.tasks, h.ops⟩
  simp only [World.dropTx, h.txs, List.filter_map, List.filter_filter]
  congr 1
  refine List.filter_congr fun t _ => ?_
  rw [Bool.and_comm]
  rfl

theorem setTx (h : w.Portrays home org organizationId v) (hd : Drawn home org c)
    (hc : org c = organizationId) {tx : Tx S} (hsession : tx.session = c)
    (hwrites : ∀ x ∈ tx.writes, x.Local (org c) c (homeKeys home (org c))) :
    (w.setTx tx).Portrays home org organizationId (v.setTx (tx.within organizationId)) := by
  refine ⟨h.settled.setTx hd hsession hwrites, h.db, ?_, h.tasks, h.ops⟩
  have hothers : v.txs.filter (fun t => t.session != tx.session) =
      ((w.txs.filter fun t => t.session != tx.session).filter
        fun t => org t.session == organizationId).map (·.within organizationId) :=
    (h.dropTx tx.session).txs
  have hnear : (org tx.session == organizationId) = true := by rw [hsession, hc, beq_self_eq_true]
  change tx.within organizationId :: v.txs.filter (fun t => t.session != tx.session) = _
  rw [hothers]
  simp only [World.setTx, List.filter_cons, hnear, if_true, List.map_cons]

theorem log (h : w.Portrays home org organizationId v) {op : Op S} (c : Nat) (r r' : Res op) :
    (w.log c op r).Portrays home org organizationId (v.log c op r') := by
  refine ⟨⟨h.settled.db, h.settled.drawn, h.settled.writes⟩, h.db, h.txs, h.tasks, fun d hd => ?_⟩
  by_cases hcd : d = c
  · subst hcd
    have hleft : (w.log d op r).callsOf d = w.callsOf d ++ [⟨op, r⟩] := callsOf_own rfl
    have hright : (v.log d op r').callsOf d = v.callsOf d ++ [⟨op, r'⟩] := callsOf_own rfl
    rw [hleft, hright, List.map_append, List.map_append, h.ops d hd]
    rfl
  · have hleft : (w.log c op r).callsOf d = w.callsOf d := callsOf_other rfl hcd
    have hright : (v.log c op r').callsOf d = v.callsOf d := callsOf_other rfl hcd
    rw [hleft, hright]
    exact h.ops d hd

theorem noteRead (h : w.Portrays home org organizationId v) (hd : Drawn home org c)
    (hc : org c = organizationId) (now : Time) {q : Query S} {r r' : q.Result}
    (hpasses : (tenancy home org c).Passes (.query q) (no_index (.ok r)) (no_index (.ok r'))) :
    (w.noteRead c now q r).Portrays home org organizationId (v.noteRead c now q r') := by
  have hwrites := h.settled.local_txOf (c := c) now
  cases q with
  | ticket id =>
    have hreads : (r' : Option Ticket).toList =
        (r : Option Ticket).toList.filter fun t => t.organizationId == organizationId := by
      obtain ⟨⟨-, hheld⟩, hsame⟩ := hpasses
      cases r' with
      | none =>
        cases r with
        | none => rfl
        | some t =>
          obtain hsame | ⟨-, hforeign⟩ := hsame
          · cases hsame
          · have hne : (t.organizationId == organizationId) = false := by simpa [← hc] using hforeign
            simp only [Option.toList, List.filter_cons, hne, Bool.false_eq_true, if_false, List.filter_nil]
      | some t =>
        have horg : t.organizationId = org c := Option.some.inj (hheld (.ticket t) rfl).filed.organization
        obtain hsame | hmask := hsame
        · cases hsame
          simp only [Option.toList, List.filter_cons, horg, hc, beq_self_eq_true, if_true, List.filter_nil]
        · cases r <;> exact hmask.elim
    let tx : Tx S := { w.txOf c now with reads := (w.txOf c now).reads ++ (r : Option Ticket).toList }
    have hset : (w.setTx tx).Portrays home org organizationId (v.setTx (tx.within organizationId)) :=
      h.setTx hd hc (txOf_session now) hwrites
    have hv : (v.noteRead c now (.ticket id) r').txs = (v.setTx (tx.within organizationId)).txs := by
      simp only [World.noteRead, h.txOf hc, hreads, Tx.within, tx, List.filter_append]
    exact ⟨⟨hset.settled.db, hset.settled.drawn, hset.settled.writes⟩, hset.db, hv.trans hset.txs,
      hset.tasks, hset.ops⟩
  | _ =>
    simp only [World.noteRead, h.txOf hc]
    exact h.setTx hd hc (txOf_session now) hwrites

theorem commitTx (h : w.Portrays home org organizationId v) (hd : Drawn home org c)
    (hc : org c = organizationId) (hsound : w.Sound c) :
    (w.commitTx c).Portrays home org organizationId (v.commitTx c) := by
  have hdropped := h.dropTx c
  have hsettled := h.settled.commitTx hd
  have hv := h.tx? hc
  cases ht : w.tx? c with
  | none =>
    rw [ht] at hv
    simpa only [World.commitTx, ht, hv, Option.map_none] using h
  | some tx =>
    rw [ht, Option.map_some] at hv
    have hwrites : ∀ x ∈ tx.writes, x.Local (org c) c (homeKeys home (org c)) := by
      simpa [World.writesOf, ht] using h.settled.local_writesOf (c := c)
    simp only [World.commitTx, ht] at hsettled
    simp only [World.commitTx, ht, hv, Tx.within]
    split
    · exact hdropped
    · rename_i hwrote
      rw [if_neg hwrote] at hsettled
      refine ⟨hsettled, ?_, hdropped.txs, hdropped.tasks, hdropped.ops⟩
      subst hc
      have hsheltered := h.settled.db.sheltered hd
      rw [(applyAll_rowsOf hsheltered hwrites (hsound tx ht).2).1, h.db]

theorem enqueue (h : w.Portrays home org organizationId v) {task : Task}
    (htask : home task.key = some organizationId) :
    ({ w with tasks := w.tasks ++ [task] } : World S).Portrays home org organizationId
      { v with tasks := v.tasks ++ [task] } := by
  refine ⟨⟨h.settled.db, h.settled.drawn, h.settled.writes⟩, h.db, h.txs, ?_, h.ops⟩
  have hnear : (home task.key == some organizationId) = true := by rw [htask, beq_self_eq_true]
  change v.tasks ++ [task] = _
  simp only [List.filter_append, List.filter_cons, hnear, if_true, List.filter_nil, h.tasks]

theorem blocked (h : w.Portrays home org organizationId v) (hd : Drawn home org c)
    (hc : org c = organizationId) {ws : List (Write S)}
    (hws : ∀ x ∈ ws, x.Local (org c) c (homeKeys home (org c))) : v.blocked c ws = w.blocked c ws := by
  rw [Bool.eq_iff_iff]
  simp only [World.blocked, List.any_eq_true, Bool.and_eq_true, bne_iff_ne, Option.any_eq_true,
    beq_iff_eq, h.txs, List.mem_map, List.mem_filter]
  constructor
  · rintro ⟨_, ⟨t, ⟨ht, -⟩, rfl⟩, hlock⟩
    exact ⟨t, ht, hlock⟩
  · rintro ⟨t, ht, hne, x, hx, l, hl, y, hy, hly⟩
    have hl' := home_of_lock (h.settled.drawn t ht) (h.settled.writes t ht x hx) hl
    have hly' := home_of_lock hd (hws y hy) hly
    have horg : org t.session = organizationId := by
      rw [← hc]
      exact Option.some.inj (hl'.symm.trans hly')
    exact ⟨t.within organizationId, ⟨t, ⟨ht, horg⟩, rfl⟩, hne, x, hx, l, hl, y, hy, hly⟩

theorem write (h : w.Portrays home org organizationId v) (hd : Drawn home org c)
    (hc : org c = organizationId) {ws : List (Write S)}
    (hws : ∀ x ∈ ws, x.Local (org c) c (homeKeys home (org c))) (now : Time) :
    (w.setTx { w.txOf c now with writes := (w.txOf c now).writes ++ ws }).Portrays home org
      organizationId
      (v.setTx { v.txOf c now with writes := (v.txOf c now).writes ++ ws }) := by
  rw [h.txOf hc]
  refine h.setTx hd hc (txOf_session now) fun x hx => ?_
  rcases List.mem_append.mp hx with hx | hx
  · exact h.settled.local_txOf now x hx
  · exact hws x hx

/-- A session of the organization is blocked where it is blocked among its own, and otherwise told
what it is told among its own. -/
theorem effect (h : w.Portrays home org organizationId v) (hc : org c = organizationId)
    (hsound : w.Sound c) {op : Op S} (hok : (tenancy home org c).ok op) (reply : Reply S) :
    w.effect P c op reply = none ∧ v.effect P c op reply = none ∨ ∃ r w' r' v',
      w.effect P c op reply = some (r, w') ∧ v.effect P c op reply = some (r', v') ∧
        (tenancy home org c).Passes op r r' ∧ w'.Portrays home org organizationId v' := by
  have hd := hok.1
  have passes_self : ∀ {op : Op S} {r : Res op}, Ledger.Fits op r → shown op r = none →
      (tenancy home org c).Passes op r r := by
    intro op r hfits hshown
    refine ⟨⟨hfits, fun row hrow => ?_⟩, Or.inl rfl⟩
    rw [hshown] at hrow
    cases hrow
  have same : ∀ {r : Res op} {w' v' : World S}, Ledger.Fits op r → shown op r = none →
      w.effect P c op reply = some (r, w') → v.effect P c op reply = some (r, v') →
        w'.Portrays home org organizationId v' →
          w.effect P c op reply = none ∧ v.effect P c op reply = none ∨ ∃ r w' r' v',
            w.effect P c op reply = some (r, w') ∧ v.effect P c op reply = some (r', v') ∧
              (tenancy home org c).Passes op r r' ∧ w'.Portrays home org organizationId v' :=
    fun hfits hshown hw hv hportrays => Or.inr ⟨_, _, _, _, hw, hv, passes_self hfits hshown, hportrays⟩
  cases op with
  | query q =>
    cases hfault : reply.fault with
    | some e =>
      refine same (r := .error e) ?_ ?_ (by simp only [World.effect, hfault])
        (by simp only [World.effect, hfault]) (h.dropTx c)
      · cases q <;> trivial
      · cases q <;> rfl
    | none =>
      have hview := h.view hd hc hsound
      have hpasses := passes_eval (P := P) reply.choice (h.settled.view hd) hd hok
      rw [hc, ← hview] at hpasses
      refine Or.inr ⟨.ok (q.eval P reply.choice (w.view c)),
        w.noteRead c reply.now q (q.eval P reply.choice (w.view c)),
        .ok (q.eval P reply.choice (v.view c)),
        v.noteRead c reply.now q (q.eval P reply.choice (v.view c)), ?_, ?_, hpasses,
        h.noteRead hd hc reply.now hpasses⟩
      · simp only [World.effect, hfault]
      · simp only [World.effect, hfault]
  | write ws =>
    cases hfault : reply.fault with
    | some e =>
      exact same (r := .error e) trivial rfl (by simp only [World.effect, hfault])
        (by simp only [World.effect, hfault]) (h.dropTx c)
    | none =>
      have hws : ∀ x ∈ ws, x.Local (org c) c (homeKeys home (org c)) := by
        rcases hok.2 with hws | ⟨id, hid⟩
        · exact hws
        · cases hid
      have hblocked := h.blocked hd hc hws
      cases hwait : w.blocked c ws || !World.ownIds c ws with
      | true =>
        refine Or.inl ⟨?_, ?_⟩
        · simp only [World.effect, hfault, hwait, if_true]
        · simp only [World.effect, hfault, hblocked, hwait, if_true]
      | false =>
        have hviolates : violatesAny (v.txOf c reply.now).start (v.view c) ws =
            violatesAny (w.txOf c reply.now).start (w.view c) ws := by
          have hsheltered := (h.settled.view hd).sheltered hd
          rw [h.view hd hc hsound, h.txOf hc, ← hc]
          exact violatesAny_rowsOf hsheltered hws
        cases hviol : violatesAny (w.txOf c reply.now).start (w.view c) ws with
        | true =>
          refine same (r := .error .integrity) trivial rfl ?_ ?_ (h.dropTx c)
          · simp only [World.effect, hfault, hwait, hviol, Bool.false_eq_true, if_false, if_true]
          · simp only [World.effect, hfault, hblocked, hwait, hviolates, hviol, Bool.false_eq_true,
              if_false, if_true]
        | false =>
          refine same (r := .ok ()) trivial rfl ?_ ?_ (h.write hd hc hws reply.now)
          · simp only [World.effect, hfault, hwait, hviol, Bool.false_eq_true, if_false]
          · simp only [World.effect, hfault, hblocked, hwait, hviolates, hviol, Bool.false_eq_true,
              if_false]
  | commit =>
    cases hfault : reply.fault with
    | some e =>
      exact same (r := .error e) trivial rfl (by simp only [World.effect, hfault])
        (by simp only [World.effect, hfault]) (h.dropTx c)
    | none =>
      exact same (r := .ok ()) trivial rfl (by simp only [World.effect, hfault])
        (by simp only [World.effect, hfault]) (h.commitTx hd hc hsound)
  | rollback =>
    cases hfault : reply.fault with
    | some e =>
      exact same (r := .error e) trivial rfl (by simp only [World.effect, hfault])
        (by simp only [World.effect, hfault]) (h.dropTx c)
    | none =>
      exact same (r := .ok ()) trivial rfl (by simp only [World.effect, hfault])
        (by simp only [World.effect, hfault]) (h.dropTx c)
  | enqueue task =>
    have htask : home task.key = some organizationId := by
      rcases hok.2 with htask | ⟨id, hid⟩
      · rw [← hc]
        exact (knows_homeKeys hd).mp htask
      · cases hid
    cases hfault : reply.fault with
    | some e =>
      exact same (r := .error e) trivial rfl (by simp only [World.effect, hfault])
        (by simp only [World.effect, hfault]) h
    | none =>
      exact same (r := .ok ()) trivial rfl (by simp only [World.effect, hfault])
        (by simp only [World.effect, hfault]) (h.enqueue htask)
  | close => exact same trivial rfl rfl rfl (h.dropTx c)
  | _ => exact same trivial rfl rfl rfl h

/-! Sessions of the others -/

theorem filter_others {p : Tx S → Bool} (h : ∀ t, t.session = c → p t = false) (txs : List (Tx S)) :
    (txs.filter fun t => t.session != c).filter p = txs.filter p := by
  rw [List.filter_filter]
  refine List.filter_congr fun t _ => ?_
  by_cases ht : t.session = c
  · rw [h t ht, Bool.false_and]
  · rw [bne_iff_ne.mpr ht, Bool.and_true]

theorem near_of_session (hne : org c ≠ organizationId) :
    ∀ t : Tx S, t.session = c → (org t.session == organizationId) = false := by
  intro t ht
  rw [ht]
  exact beq_eq_false_iff_ne.mpr hne

theorem dropOther (h : w.Portrays home org organizationId v) (hne : org c ≠ organizationId) :
    (w.dropTx c).Portrays home org organizationId v := by
  refine ⟨h.settled.dropTx c, h.db, ?_, h.tasks, h.ops⟩
  rw [h.txs, World.dropTx, filter_others (near_of_session hne)]

theorem setOther (h : w.Portrays home org organizationId v) (hd : Drawn home org c)
    (hne : org c ≠ organizationId) {tx : Tx S} (hsession : tx.session = c)
    (hwrites : ∀ x ∈ tx.writes, x.Local (org c) c (homeKeys home (org c))) :
    (w.setTx tx).Portrays home org organizationId v := by
  refine ⟨h.settled.setTx hd hsession hwrites, h.db, ?_, h.tasks, h.ops⟩
  have hfar := near_of_session hne tx hsession
  subst hsession
  simp only [World.setTx, List.filter_cons, hfar, Bool.false_eq_true, if_false]
  rw [filter_others (near_of_session hne), h.txs]

theorem logOther (h : w.Portrays home org organizationId v) (hne : org c ≠ organizationId) {op : Op S}
    (r : Res op) : (w.log c op r).Portrays home org organizationId v := by
  refine ⟨⟨h.settled.db, h.settled.drawn, h.settled.writes⟩, h.db, h.txs, h.tasks, fun d hd => ?_⟩
  have hcd : d ≠ c := by
    rintro rfl
    exact hne hd
  have hsame : (w.log c op r).callsOf d = w.callsOf d := callsOf_other rfl hcd
  rw [hsame]
  exact h.ops d hd

theorem readOther (h : w.Portrays home org organizationId v) (hd : Drawn home org c)
    (hne : org c ≠ organizationId) (now : Time) (q : Query S) (r : q.Result) :
    (w.noteRead c now q r).Portrays home org organizationId v := by
  have hwrites := h.settled.local_txOf (c := c) now
  cases q with
  | ticket id =>
    let tx : Tx S := { w.txOf c now with reads := (w.txOf c now).reads ++ (r : Option Ticket).toList }
    have hset : (w.setTx tx).Portrays home org organizationId v :=
      h.setOther hd hne (txOf_session now) hwrites
    exact ⟨⟨hset.settled.db, hset.settled.drawn, hset.settled.writes⟩, hset.db, hset.txs, hset.tasks,
      hset.ops⟩
  | _ => exact h.setOther hd hne (txOf_session now) hwrites

theorem commitOther (h : w.Portrays home org organizationId v) (hd : Drawn home org c)
    (hne : org c ≠ organizationId) (hsound : w.Sound c) :
    (w.commitTx c).Portrays home org organizationId v := by
  have hdropped := h.dropOther hne
  have hsettled := h.settled.commitTx hd
  cases ht : w.tx? c with
  | none => simpa only [World.commitTx, ht] using h
  | some tx =>
    have hwrites : ∀ x ∈ tx.writes, x.Local (org c) c (homeKeys home (org c)) := by
      simpa [World.writesOf, ht] using h.settled.local_writesOf (c := c)
    simp only [World.commitTx, ht] at hsettled
    simp only [World.commitTx, ht]
    split
    · exact hdropped
    · rename_i hwrote
      rw [if_neg hwrote] at hsettled
      refine ⟨hsettled, ?_, hdropped.txs, hdropped.tasks, hdropped.ops⟩
      have hsheltered := h.settled.db.sheltered hd
      rw [← rowsOf_othersOf _ hne, (applyAll_rowsOf hsheltered hwrites (hsound tx ht).2).2,
        rowsOf_othersOf _ hne, h.db]

theorem enqueueOther (h : w.Portrays home org organizationId v) {task : Task}
    (htask : home task.key ≠ some organizationId) :
    ({ w with tasks := w.tasks ++ [task] } : World S).Portrays home org organizationId v := by
  refine ⟨⟨h.settled.db, h.settled.drawn, h.settled.writes⟩, h.db, h.txs, ?_, h.ops⟩
  have hfar : (home task.key == some organizationId) = false := beq_eq_false_iff_ne.mpr htask
  simp only [List.filter_append, List.filter_cons, hfar, Bool.false_eq_true, if_false, List.filter_nil,
    List.append_nil, h.tasks]

/-- What a session of another organization does leaves what the organization has as it was. -/
theorem effectOther (h : w.Portrays home org organizationId v) (hne : org c ≠ organizationId)
    (hsound : w.Sound c) {op : Op S} (hok : (tenancy home org c).ok op) {reply : Reply S} {r : Res op}
    (he : w.effect P c op reply = some (r, w')) : w'.Portrays home org organizationId v := by
  have hd := hok.1
  cases op with
  | query q =>
    simp only [World.effect] at he
    split at he <;> cases he
    · exact h.dropOther hne
    · exact h.readOther hd hne reply.now q _
  | write ws =>
    have hws : ∀ x ∈ ws, x.Local (org c) c (homeKeys home (org c)) := by
      rcases hok.2 with hws | ⟨id, hid⟩
      · exact hws
      · cases hid
    simp only [World.effect] at he
    split at he
    · cases he
      exact h.dropOther hne
    · split at he
      · cases he
      · split at he <;> cases he
        · exact h.dropOther hne
        · refine h.setOther hd hne (txOf_session reply.now) fun x hx => ?_
          rcases List.mem_append.mp hx with hx | hx
          · exact h.settled.local_txOf reply.now x hx
          · exact hws x hx
  | commit =>
    simp only [World.effect] at he
    split at he <;> cases he
    · exact h.dropOther hne
    · exact h.commitOther hd hne hsound
  | rollback =>
    simp only [World.effect] at he
    split at he <;> cases he
    · exact h.dropOther hne
    · exact h.dropOther hne
  | enqueue task =>
    have htask : home task.key ≠ some organizationId := by
      rcases hok.2 with htask | ⟨id, hid⟩
      · rw [(knows_homeKeys hd).mp htask]
        exact fun heq => hne (Option.some.inj heq)
      · cases hid
    simp only [World.effect] at he
    split at he <;> cases he
    · exact h
    · exact h.enqueueOther htask
  | close =>
    cases he
    exact h.dropOther hne
  | _ =>
    cases he
    exact h

/-- What a session is told passes for something that it may be told. -/
theorem passes_of_exec (h : w.Settled home org) {op : Op S} (hok : (tenancy home org c).ok op)
    {reply : Reply S} {r : Res op} (he : w.exec P c op reply = some (r, w')) :
    ∃ r', (tenancy home org c).Passes op r r' := by
  have hfits := fits_of_exec he
  have passes_self : shown op r = none → ∃ r', (tenancy home org c).Passes op r r' := by
    intro hshown
    refine ⟨r, ⟨hfits, fun row hrow => ?_⟩, Or.inl rfl⟩
    rw [hshown] at hrow
    cases hrow
  cases op with
  | query q =>
    simp only [World.exec, Option.map_eq_some_iff] at he
    obtain ⟨⟨r₁, w₁⟩, he, heq⟩ := he
    cases heq
    simp only [World.effect] at he
    split at he <;> cases he
    · refine passes_self ?_
      cases q <;> rfl
    · exact ⟨_, passes_eval reply.choice (h.view hok.1) hok.1 hok⟩
  | _ => exact passes_self rfl

end Portrays

theorem sounds_dropTx (h : ∀ d, w.Sound d) (c : Nat) : ∀ d, (w.dropTx c).Sound d := by
  intro d
  by_cases hd : d = c
  · subst hd
    exact .of_none tx?_dropTx_self
  · intro tx htx
    rw [tx?_dropTx_ne hd] at htx
    exact h d tx htx

/-- Every open transaction stays sound, whatever the session does. -/
theorem Steps.sounds {op : Op S} {r : Res op} (h : w.Steps c op r w') (hsound : ∀ d, w.Sound d) :
    ∀ d, w'.Sound d := by
  intro d
  by_cases hd : d = c
  · subst hd
    exact h.sound (hsound d)
  · intro tx htx
    rw [h.confined.tx d hd] at htx
    obtain ⟨hown, habsent⟩ := hsound d tx htx
    obtain hquiet | ⟨-, committed, hc⟩ := h.history
    · rw [hquiet.db]
      exact ⟨hown, habsent⟩
    · refine ⟨hown, absent_congr hown ?_ habsent⟩
      rw [hc.db]
      exact sameFor_applyAll (hsound c committed hc.open_).1 hd

end World

/-- To the sessions of one organization it makes no difference what those of the others do. -/
theorem unwinds_portrays (P : Platform) (home : RowKey → Option Uuid) (org : Nat → Uuid)
    (organizationId : Uuid) : Framework.Unwinds (server P : Framework.Machine (Op S) Res _ _)
      (tenancy home org) (fun c => org c == organizationId)
      fun w v => w.Portrays home org organizationId v ∧ ∀ c, w.Sound c where
  blocked := by
    intro c op reply w v hnear hr hok he
    change w.exec P c op reply = none at he
    rw [World.exec, Option.map_eq_none_iff] at he
    change v.exec P c op reply = none
    rw [World.exec, Option.map_eq_none_iff]
    rcases hr.1.effect (P := P) (eq_of_beq hnear) (hr.2 c) hok reply with ⟨-, hv⟩ | ⟨r, w', -, -, hw, -⟩
    · exact hv
    · rw [he] at hw
      cases hw
  step := by
    intro c op reply w v r w' hnear hr hok he
    change w.exec P c op reply = some (r, w') at he
    have hsounds := (World.steps_of_exec he).sounds hr.2
    simp only [World.exec, Option.map_eq_some_iff] at he
    obtain ⟨⟨r₁, w₁⟩, he, heq⟩ := he
    cases heq
    rcases hr.1.effect (P := P) (eq_of_beq hnear) (hr.2 c) hok reply with
      ⟨hw, -⟩ | ⟨r₂, w₂, r', v', hw, hv, hpasses, hportrays⟩
    · rw [he] at hw
      cases hw
    · rw [he] at hw
      cases hw
      refine ⟨r', v'.log c op r', ?_, hpasses, hportrays.log c r₁ r', hsounds⟩
      change v.exec P c op reply = some (r', v'.log c op r')
      rw [World.exec, hv]
      rfl
  other := by
    intro c op reply w v r w' hfar hr hok he
    change w.exec P c op reply = some (r, w') at he
    have hne : org c ≠ organizationId := beq_eq_false_iff_ne.mp hfar
    refine ⟨World.Portrays.passes_of_exec hr.1.settled hok he, ?_,
      (World.steps_of_exec he).sounds hr.2⟩
    simp only [World.exec, Option.map_eq_some_iff] at he
    obtain ⟨⟨r₁, w₁⟩, he, heq⟩ := he
    cases heq
    exact (hr.1.effectOther hne (hr.2 c) hok he).logOther hne r₁
  abort := by
    intro c w v hnear hr
    exact ⟨hr.1.dropTx c, World.sounds_dropTx hr.2 c⟩
  otherAbort := by
    intro c w v hfar hr
    exact ⟨hr.1.dropOther (beq_eq_false_iff_ne.mp hfar), World.sounds_dropTx hr.2 c⟩

end AgentDesk
