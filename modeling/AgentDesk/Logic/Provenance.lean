import AgentDesk.Logic.Requests
import AgentDesk.Logic.History

namespace AgentDesk

open Framework (Rules Follows Pool Event)

variable {S : Type} {cfg : Config S} {jobs : Nat → Option Job}
  {C : List (DB S) → Commit S → Prop} {w w' : World S} {c d : Nat} {s : Ledger S}

/-- What a session knows is so: its open transaction, the tickets in the versions it read
them from, and the user and the webhook in some version. -/
structure Ledger.Knows (c : Nat) (w : World S) (s : Ledger S) : Prop where
  writes : w.writesOf c = s.writes
  rows : ∀ id t, s.row id = some t →
    ∃ db, w.versions[w.seen c id]? = some db ∧ db.tickets.find? id = some t
  user : ∀ u, s.user = some u → ∃ db ∈ w.versions, u ∈ db.users.rows
  hook : ∀ h, s.hook = some h → ∃ db ∈ w.versions, h ∈ db.webhooks.rows
  clocks : ∀ now ∈ s.clocks, ⟨c, .clock, now⟩ ∈ w.calls

/-- What the session of a commit had read, in the versions up to that commit, entitles it to
everything the commit wrote. -/
structure Ledger.Explains (cfg : Config S) (jobs : Nat → Option Job) (versions : List (DB S))
    (calls : List (Call S)) (commit : Commit S) (job : Job) (s : Ledger S) : Prop where
  assigned : jobs commit.session = some job
  writes : s.writes = commit.writes
  warranted : ∀ x ∈ commit.writes, s.Warrants cfg job commit.session x
  rows : ∀ id t, s.row id = some t →
    ∃ db, versions[commit.seen id]? = some db ∧ db.tickets.find? id = some t
  user : ∀ u, s.user = some u → ∃ db ∈ versions, u ∈ db.users.rows
  hook : ∀ h, s.hook = some h → ∃ db ∈ versions, h ∈ db.webhooks.rows
  clocks : ∀ now ∈ s.clocks, ⟨commit.session, .clock, now⟩ ∈ calls

/-- Every commit of the history is explained, no run ever wrote a decision, and every
commit met the condition when it was made. -/
structure World.Explained (cfg : Config S) (jobs : Nat → Option Job)
    (C : List (DB S) → Commit S → Prop) (w : World S) : Prop where
  sane : w.Sane
  commits : ∀ (i : Nat) (commit : Commit S), w.commits[i]? = some commit →
    ∃ job s, Ledger.Explains cfg jobs (w.versions.take (i + 1)) w.calls commit job s
  undecided : ∀ c ws r job, ⟨c, .write ws, r⟩ ∈ w.calls → jobs c = some job → job.runs = true →
    ws.Forall Ledger.Undecided
  cond : ∀ (i : Nat) (commit : Commit S), w.commits[i]? = some commit →
    C (w.versions.take (i + 1)) commit

/-- What the others do between two calls of session `c`. -/
structure World.Later (c : Nat) (w w' : World S) : Prop where
  tx : w'.tx? c = w.tx? c
  seen : w'.seen c = w.seen c
  versions : w.versions <+: w'.versions
  calls : w.calls <+: w'.calls

/-- The rules of the deployment: a session may commit what its reads entitle it to. -/
def explaining (cfg : Config S) (jobs : Nat → Option Job) (C : List (DB S) → Commit S → Prop) :
    Rules (Op S) Res (World S) where
  inv := World.Explained cfg jobs C
  start c w := w.tx? c = none
  rely := World.Later
  cond c w _ _ w' := ∀ tx, w.Commits c tx w' → C w.versions ⟨c, tx.start, tx.writes, w.seen c⟩
  guar c w op _ w' :=
    (∀ tx, w.Commits c tx w' → ∃ job s, Ledger.Explains cfg jobs w.versions w.calls
      ⟨c, tx.start, tx.writes, w.seen c⟩ job s) ∧
    ∀ ws, op = .write ws → ∀ job, jobs c = some job → job.runs = true →
      ws.Forall Ledger.Undecided

namespace World

theorem explained_init : (init : World S).Explained cfg jobs C :=
  ⟨sane_init, fun _ _ h => by simp [init] at h, fun _ _ _ _ h => by simp [init] at h,
    fun _ _ h => by simp [init] at h⟩

theorem Later.refl (c : Nat) (w : World S) : w.Later c w :=
  ⟨rfl, rfl, List.prefix_rfl, List.prefix_rfl⟩

theorem Later.trans {w₁ w₂ w₃ : World S} (h : w₁.Later c w₂) (k : w₂.Later c w₃) :
    w₁.Later c w₃ :=
  ⟨k.tx.trans h.tx, k.seen.trans h.seen, h.versions.trans k.versions, h.calls.trans k.calls⟩

theorem take_versions {vs vs' : List (DB S)} (h : vs <+: vs') {n : Nat} (hn : n ≤ vs.length) :
    vs'.take n = vs.take n := by
  obtain ⟨more, rfl⟩ := h
  exact List.take_append_of_le_length hn

theorem Explained.steps {op : Op S} {r : Res op} (h : w.Explained cfg jobs C)
    (hs : w.Steps c op r w') (hcond : (explaining cfg jobs C).cond c w op r w')
    (hguar : (explaining cfg jobs C).guar c w op r w') : w'.Explained cfg jobs C := by
  have hcalls : w.calls <+: w'.calls := by
    rw [hs.calls]
    exact List.prefix_append _ _
  have old : ∀ (i : Nat) (commit : Commit S), w.commits[i]? = some commit →
      w'.versions.take (i + 1) = w.versions.take (i + 1) := by
    intro i commit hi
    refine take_versions hs.versions ?_
    have := (List.getElem?_eq_some_iff.mp hi).1
    rw [versions_length, h.sane.length]
    omega
  have commits : ∀ (i : Nat) (commit : Commit S), w'.commits[i]? = some commit →
      w.commits[i]? = some commit ∨ ∃ tx, w.Commits c tx w' ∧
        w'.versions.take (i + 1) = w.versions ∧
        commit = ⟨c, tx.start, tx.writes, w.seen c⟩ := by
    intro i commit hi
    obtain hq | ⟨-, tx, hc⟩ := hs.history
    · exact Or.inl (by rw [← hq.commits, hi])
    · rw [hc.commits] at hi
      by_cases hlt : i < w.commits.length
      · rw [List.getElem?_append_left hlt] at hi
        exact Or.inl hi
      · have hlen : i = w.commits.length := by
          have := (List.getElem?_eq_some_iff.mp hi).1
          simp at this
          omega
        subst hlen
        rw [List.getElem?_append_right (le_refl _)] at hi
        simp only [Nat.sub_self, List.getElem?_cons_zero, Option.some.injEq] at hi
        refine Or.inr ⟨tx, hc, ?_, hi.symm⟩
        rw [take_versions hs.versions (by simp [h.sane.length]), List.take_of_length_le]
        simp [h.sane.length]
  refine ⟨hs.sane h.sane, ?_, ?_, ?_⟩
  · intro i commit hi
    obtain hi | ⟨tx, hc, htake, rfl⟩ := commits i commit hi
    · obtain ⟨job, s, he⟩ := h.commits i commit hi
      refine ⟨job, s, he.assigned, he.writes, he.warranted, ?_, ?_, ?_, fun now hn => ?_⟩
      · rw [old i commit hi]
        exact he.rows
      · rw [old i commit hi]
        exact he.user
      · rw [old i commit hi]
        exact he.hook
      · exact hcalls.subset (he.clocks now hn)
    · obtain ⟨job, s, he⟩ := hguar.1 tx hc
      rw [htake]
      exact ⟨job, s, he.assigned, he.writes, he.warranted, he.rows, he.user, he.hook,
        fun now hn => hcalls.subset (he.clocks now hn)⟩
  · intro d ws r' job hmem hjob hruns
    rw [hs.calls, List.mem_append, List.mem_singleton] at hmem
    obtain hmem | heq := hmem
    · exact h.undecided d ws r' job hmem hjob hruns
    · cases heq
      exact hguar.2 ws rfl job hjob hruns
  · intro i commit hi
    obtain hi | ⟨tx, hc, htake, rfl⟩ := commits i commit hi
    · rw [old i commit hi]
      exact h.cond i commit hi
    · rw [htake]
      exact hcond tx hc

/-- The ticket that a committed row points to was there before, or is new with it. -/
theorem Explained.parent {i : Nat} {k : Commit S} {job : Job} {s : Ledger S}
    {ticketId organizationId : Uuid} {db : DB S} (h : w.Explained cfg jobs C)
    (hdb : w.versions[i]? = some db) (he : s.Explains cfg jobs (w.versions.take (i + 1)) w.calls k job)
    (hparent : s.Parent ticketId organizationId) :
    (∃ t ∈ db.tickets.rows, t.id = ticketId ∧ t.organizationId = organizationId) ∨
      ∃ t, .insert (.ticket t) ∈ k.writes ∧ t.id = ticketId ∧ t.organizationId = organizationId := by
  rcases hparent with ⟨t, hrow, horg⟩ | ⟨t, hnew, hid, horg⟩
  · obtain ⟨db₀, hdb₀, hfind⟩ := he.rows ticketId t hrow
    have hseen : k.seen ticketId ≤ i := by
      have hlt := (List.getElem?_eq_some_iff.mp hdb₀).1
      rw [List.length_take] at hlt
      omega
    rw [List.getElem?_take_of_lt (by omega)] at hdb₀
    obtain ⟨hmem, hid⟩ := Framework.Table.find?_eq_some.mp hfind
    obtain ⟨t', ht', hid', horg'⟩ := (h.sane.grows hseen hdb₀ hdb).tickets t hmem
    exact Or.inl ⟨t', ht', hid'.trans hid, horg'.trans horg⟩
  · rw [he.writes] at hnew
    exact Or.inr ⟨t, hnew, hid, horg⟩

theorem explaining_sound (P : Platform) :
    (explaining cfg jobs C).Sound (server P) where
  refl := Later.refl
  trans := Later.trans
  start_rely hstart hrely := hrely.tx.trans hstart
  inv_exec hinv he hcond hguar := hinv.steps (steps_of_exec he) hcond hguar
  rely_exec hne _ he _ _ := by
    have hs := steps_of_exec he
    refine ⟨hs.confined.tx _ (Ne.symm hne), hs.confined.seen _ (Ne.symm hne), hs.versions, ?_⟩
    rw [hs.calls]
    exact List.prefix_append _ _
  inv_abort hinv :=
    ⟨hinv.sane.abort _, hinv.commits, hinv.undecided, hinv.cond⟩
  rely_abort hne _ := ⟨tx?_dropTx_ne (Ne.symm hne), rfl, List.prefix_rfl, List.prefix_rfl⟩

end World

namespace Ledger

theorem Knows.later (h : s.Knows c w) (hl : w.Later c w') : s.Knows c w' := by
  refine ⟨?_, ?_, ?_, ?_, fun now hn => hl.calls.subset (h.clocks now hn)⟩
  · rw [← h.writes]
    simp only [World.writesOf, hl.tx]
  · intro id t ht
    obtain ⟨db, hdb, hfind⟩ := h.rows id t ht
    rw [hl.seen]
    exact ⟨db, World.getElem?_extended hl.versions hdb, hfind⟩
  · intro u hu
    obtain ⟨db, hdb, hmem⟩ := h.user u hu
    exact ⟨db, hl.versions.subset hdb, hmem⟩
  · intro v hv
    obtain ⟨db, hdb, hmem⟩ := h.hook v hv
    exact ⟨db, hl.versions.subset hdb, hmem⟩

theorem knows_start (h : w.tx? c = none) : start.Knows c w := by
  constructor <;> simp [World.writesOf, h, start]

/-- A session whose transaction is gone still knows what it read. -/
theorem Knows.ended {op : Op S} {r : Res op} (h : s.Knows c w) (hs : w.Steps c op r w')
    (hseen : w'.seen c = w.seen c) (hw : w'.tx? c = none) :
    ({ s with writes := [] } : Ledger S).Knows c w' := by
  have hcalls : w.calls <+: w'.calls := by
    rw [hs.calls]
    exact List.prefix_append _ _
  refine ⟨by simp [World.writesOf, hw], ?_, ?_, ?_, fun now hn => hcalls.subset (h.clocks now hn)⟩
  · intro id t ht
    obtain ⟨db, hdb, hfind⟩ := h.rows id t ht
    rw [hseen]
    exact ⟨db, World.getElem?_extended hs.versions hdb, hfind⟩
  · intro u hu
    obtain ⟨db, hdb, hmem⟩ := h.user u hu
    exact ⟨db, hs.versions.subset hdb, hmem⟩
  · intro v hv
    obtain ⟨db, hdb, hmem⟩ := h.hook v hv
    exact ⟨db, hs.versions.subset hdb, hmem⟩

theorem fits_eval (P : Platform) (choice : ServerChoice) (db : DB S) (q : Query S) :
    Fits (.query q) (no_index (.ok (q.eval P choice db))) := by
  cases q with
  | user id =>
    change Fits (.query (.user id)) (.ok (db.users.find? id))
    cases h : db.users.find? id with
    | none => trivial
    | some u => exact Framework.Table.key_of_find? h
  | ticket id =>
    change Fits (.query (.ticket id)) (.ok (db.tickets.find? id))
    cases h : db.tickets.find? id with
    | none => trivial
    | some t => exact Framework.Table.key_of_find? h
  | agentRun id =>
    change Fits (.query (.agentRun id)) (.ok (db.agentRuns.find? id))
    cases h : db.agentRuns.find? id with
    | none => trivial
    | some r => exact Framework.Table.key_of_find? h
  | webhookOf organizationId =>
    change Fits (.query (.webhookOf organizationId)) (.ok (pickFrom choice.pick
      (db.webhooks.rows.filter fun w => w.organizationId == organizationId)))
    cases h : pickFrom choice.pick
        (db.webhooks.rows.filter fun w => w.organizationId == organizationId) with
    | none => trivial
    | some w =>
      have hmem := (List.mem_filter.mp (mem_of_pickFrom h)).2
      exact eq_of_beq hmem
  | webhook id =>
    change Fits (.query (.webhook id)) (.ok (db.webhooks.find? id))
    cases h : db.webhooks.find? id with
    | none => trivial
    | some w => exact Framework.Table.key_of_find? h
  | delivery id =>
    change Fits (.query (.delivery id)) (.ok (db.webhookDeliveries.find? id))
    cases h : db.webhookDeliveries.find? id with
    | none => trivial
    | some d => exact Framework.Table.key_of_find? h
  | _ => trivial

/-- A session's statement of what it knows follows each read. -/
theorem Knows.read (h : s.Knows c w) (hs : s.writes = []) (now : Time) (choice : ServerChoice)
    (q : Query S) (r : q.Result) (hr : r = q.eval cfg.platform choice w.db) :
    (s.after (.query q) (no_index (.ok r))).Knows c
      ((w.noteRead c now q r).log c (.query q) (no_index (.ok r))) := by
  obtain ⟨tx, htx, hw, -⟩ := World.tx?_noteRead (w := w) (c := c) now q r
  have hquiet := World.quiet_noteRead (w := w) (c := c) now q r
  have hversions : ((w.noteRead c now q r).log c (.query q) (no_index (.ok r))).versions =
      w.versions := hquiet.versions
  have hcalls : w.calls <+:
      ((w.noteRead c now q r).log c (.query q) (no_index (.ok r))).calls := by
    cases q <;> exact List.prefix_append _ _
  have hwrites : ((w.noteRead c now q r).log c (.query q) (no_index (.ok r))).writesOf c = [] := by
    have : ((w.noteRead c now q r).log c (.query q) (no_index (.ok r))).tx? c = some tx := htx
    rw [World.writesOf, this, Option.map_some, Option.getD_some, hw, h.writes, hs]
  have last : w.db ∈ w.versions := by simp [World.versions]
  have keep : ∀ s' : Ledger S, s'.writes = s.writes → s'.clocks = s.clocks →
      (∀ id t, s'.row id = some t → ∃ db, w.versions[(w.noteRead c now q r).seen c id]? = some db ∧
        db.tickets.find? id = some t) →
      (∀ u, s'.user = some u → ∃ db ∈ w.versions, u ∈ db.users.rows) →
      (∀ v, s'.hook = some v → ∃ db ∈ w.versions, v ∈ db.webhooks.rows) →
      s'.Knows c ((w.noteRead c now q r).log c (.query q) (no_index (.ok r))) := by
    intro s' hw' hc' hrows huser hhook
    refine ⟨by rw [hwrites, hw', hs], ?_, ?_, ?_, ?_⟩
    · rw [hversions]
      exact hrows
    · rw [hversions]
      exact huser
    · rw [hversions]
      exact hhook
    · intro t ht
      exact hcalls.subset (h.clocks t (hc' ▸ ht))
  cases q with
  | ticket id =>
    subst hr
    refine keep _ rfl rfl ?_ h.user h.hook
    intro id' t ht
    by_cases hid : id' = id
    · subst hid
      refine ⟨w.db, ?_, by simpa [Query.eval] using ht⟩
      have hseen : (w.noteRead c now (.ticket id') (w.db.tickets.find? id')).seen c id' =
          w.past.length := by simp [World.noteRead]
      exact hseen ▸ World.versions_last
    · obtain ⟨db, hdb, hfind⟩ := h.rows id' t (by simpa [Function.update_of_ne hid] using ht)
      exact ⟨db, by simpa [World.noteRead, Function.update_of_ne hid] using hdb, hfind⟩
  | user id =>
    cases r with
    | none => exact keep s rfl rfl h.rows h.user h.hook
    | some u =>
      refine keep { s with user := some u } rfl rfl h.rows ?_ h.hook
      rintro _ ⟨⟩
      exact ⟨w.db, last, Framework.Table.mem_of_find? hr.symm⟩
  | webhookOf organizationId =>
    cases r with
    | none => exact keep s rfl rfl h.rows h.user h.hook
    | some v =>
      refine keep { s with hook := some v } rfl rfl h.rows h.user ?_
      rintro _ ⟨⟩
      exact ⟨w.db, last, (List.mem_filter.mp (mem_of_pickFrom hr.symm)).1⟩
  | _ => exact keep s rfl rfl h.rows h.user h.hook

/-- Calls that neither read nor touch the transaction. -/
theorem Knows.outside {op : Op S} {r : Res op} (h : s.Knows c w) (hs : w.Steps c op r w')
    (htx : w'.tx? c = w.tx? c) (hseen : w'.seen c = w.seen c) : s.Knows c w' :=
  h.later ⟨htx, hseen, hs.versions, by rw [hs.calls]; exact List.prefix_append _ _⟩

theorem Knows.exec {job : Job} {op : Op S} {reply : Reply S} {r : Res op} (h : s.Knows c w)
    (hok : (observer cfg job c).ok s op)
    (he : w.exec cfg.platform c op reply = some (r, w')) :
    Fits op r ∧ (s.after op r).Knows c w' := by
  have hs := World.steps_of_exec he
  simp only [World.exec, Option.map_eq_some_iff] at he
  obtain ⟨⟨r₁, w₁⟩, he, heq⟩ := he
  cases heq
  cases op with
  | query q =>
    simp only [World.effect] at he
    split at he
    · cases he
      rw [after_query_error]
      exact ⟨fits_query_error q _, h.ended hs rfl (World.tx?_dropTx_self (w := w))⟩
    · cases he
      have hw : s.writes = [] := hok
      have hview : w.view c = w.db := World.view_of_writes (h.writes.trans hw)
      rw [hview]
      exact ⟨fits_eval _ _ _ q, h.read hw _ _ q _ rfl⟩
  | write ws =>
    simp only [World.effect] at he
    split at he
    · cases he
      exact ⟨trivial, h.ended hs rfl (World.tx?_dropTx_self (w := w))⟩
    · split at he
      · cases he
      · split at he
        · cases he
          exact ⟨trivial, h.ended hs rfl (World.tx?_dropTx_self (w := w))⟩
        · cases he
          refine ⟨trivial, ?_, h.rows, h.user, h.hook, ?_⟩
          · have hset := World.tx?_setTx_self (w := w)
              { w.txOf c reply.now with writes := (w.txOf c reply.now).writes ++ ws }
              (World.txOf_session reply.now)
            have hlog : ((w.setTx { w.txOf c reply.now with
                writes := (w.txOf c reply.now).writes ++ ws }).log c (.write ws)
                  (.ok ())).tx? c = _ := hset
            rw [World.writesOf, hlog, Option.map_some, Option.getD_some, World.txOf_writes,
              h.writes]
            rfl
          · intro now hn
            rw [hs.calls]
            exact List.mem_append_left _ (h.clocks now hn)
  | commit =>
    simp only [World.effect] at he
    split at he
    · cases he
      exact ⟨trivial, h.ended hs rfl (World.tx?_dropTx_self (w := w))⟩
    · cases he
      obtain ⟨-, -, hclosed, -⟩ := World.commitTx_cases (w := w) c
      refine ⟨trivial, h.ended hs ?_ hclosed⟩
      simp only [World.log, World.commitTx]
      split
      · rfl
      · split <;> rfl
  | rollback =>
    simp only [World.effect] at he
    split at he <;>
    · cases he
      exact ⟨trivial, h.ended hs rfl (World.tx?_dropTx_self (w := w))⟩
  | close =>
    cases he
    exact ⟨trivial, h.ended hs rfl (World.tx?_dropTx_self (w := w))⟩
  | clock =>
    cases he
    have hk := h.outside hs rfl rfl
    refine ⟨trivial, hk.writes, hk.rows, hk.user, hk.hook, ?_⟩
    intro now hn
    obtain rfl | hn := List.mem_cons.mp hn
    · rw [hs.calls]
      simp
    · exact hk.clocks now hn
  | enqueue task =>
    simp only [World.effect] at he
    split at he <;>
    · cases he
      exact ⟨trivial, h.outside hs rfl rfl⟩
  | _ =>
    cases he
    exact ⟨trivial, h.outside hs rfl rfl⟩

/-- The observer is right about its session while everybody keeps to the rules. -/
theorem follows_observer {job : Job} (hjob : jobs c = some job) :
    Follows (server cfg.platform) (explaining cfg jobs C) c (observer cfg job c)
      (fun w s => s.Knows c w) where
  stable hl _ h := h.later hl
  step := by
    intro w op reply r w' s _ h hok he _
    have hs := World.steps_of_exec he
    obtain ⟨hfits, hknows⟩ := h.exec hok he
    refine ⟨⟨fun tx hc => ?_, ?_⟩, s.after op r, ⟨hfits, rfl⟩, hknows⟩
    · obtain hq | ⟨rfl, -⟩ := hs.history
      · have := congrArg List.length (hq.commits.symm.trans hc.commits)
        simp at this
      · have hw : s.writes = tx.writes := by
          rw [← h.writes, World.writesOf, hc.open_]
          rfl
        refine ⟨job, s, hjob, hw, ?_, h.rows, h.user, h.hook, h.clocks⟩
        rw [← hw]
        exact hok
    · rintro ws rfl job' hjob'
      rw [hjob] at hjob'
      cases hjob'
      exact hok

end Ledger

variable [Field S] [LinearOrder S] [FloorRing S]

/-- Every commit of every run of the deployment is explained by what its session had read. -/
theorem deployment_explained (cfg : Config S) (workflow : Workflow S)
    (events : List (Event Job (Reply S)))
    (hm : Pool.Meets (server cfg.platform) (Job.program cfg workflow)
      (explaining cfg (fun i => (Pool.spawned events)[i]?) C).cond ⟨.init, []⟩ events) :
    (deployment cfg workflow events).world.Explained cfg
      (fun i => (Pool.spawned events)[i]?) C := by
  have hstart : Pool.Good (server cfg.platform)
      (explaining cfg (fun i => (Pool.spawned events)[i]?) C) (fun _ _ (_ : Outcome) _ => True)
      (⟨.init, []⟩ : Pool Job (Op S) Res Outcome (World S)) :=
    ⟨World.explained_init, fun _ _ => rfl, fun _ _ _ h => by simp at h⟩
  have hsafe : ∀ job i (w : World S), (Pool.spawned events)[i]? = some job →
      w.Explained cfg (fun i => (Pool.spawned events)[i]?) C → w.tx? i = none →
      Framework.wp (server cfg.platform) (explaining cfg (fun i => (Pool.spawned events)[i]?) C) i
        (Job.program cfg workflow job i) (fun _ _ => True) w := by
    intro job i w hjob _ hopen
    exact Framework.wp_mono (Framework.wp_of_obeys (Ledger.follows_observer hjob)
      (Job.program_obeys workflow job i) (Ledger.knows_start hopen)) fun _ _ _ => trivial
  exact (Pool.good_run (World.explaining_sound cfg.platform) hsafe events hstart
    (fun i job h => by simpa using h) hm).inv

end AgentDesk
