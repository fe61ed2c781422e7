import AgentDesk.Logic.Provenance
import Mathlib.Algebra.Order.BigOperators.Group.List

namespace AgentDesk

open Framework (Pool Event Table)

variable {S : Type} {cfg : Config S} {jobs : Nat → Option Job}
  {C : List (DB S) → Commit S → Prop} {w : World S} {db : DB S} {email password : String}

/-! The addresses of the users -/

def DB.Lowered (cfg : Config S) (db : DB S) : Prop :=
  ∀ u ∈ db.users.rows, ∃ email, u.email = cfg.platform.lower email

theorem Ledger.Warrants.lowered {s : Ledger S} {job : Job} {c : Nat} {x : Write S}
    (h : s.Warrants cfg job c x) (hdb : db.Lowered cfg) (start : Time) :
    (x.apply start db).Lowered cfg := by
  cases x with
  | insert row =>
    cases row with
    | user u =>
      intro v hv
      obtain hv | rfl := Table.mem_insert hv
      · exact hdb v hv
      · exact h
    | _ => exact hdb
  | _ => exact hdb

theorem World.Explained.lowered (h : w.Explained cfg jobs C) {i : Nat}
    (hdb : w.versions[i]? = some db) : db.Lowered cfg := by
  induction i generalizing db with
  | zero =>
    rw [getElem?_extended h.sane.first (x := .empty) rfl] at hdb
    cases hdb
    intro u hu
    simp [DB.empty] at hu
  | succ j ih =>
    obtain ⟨commit, mid, hcommit, hmid⟩ := h.sane.before hdb
    obtain ⟨rfl, -⟩ := h.sane.step j commit mid db hcommit hmid hdb
    obtain ⟨job, s, he⟩ := h.commits j commit hcommit
    exact applyAll_induction (ih hmid) fun x hx db₁ hl =>
      (he.warranted x hx).lowered hl commit.start

/-! One login -/

/-- The user has this address and password, and may log in. -/
structure Accepts (cfg : Config S) (email password : String) (u : User) : Prop where
  email : u.email = cfg.platform.lower email
  active : u.isActive = true
  password : cfg.platform.verifyPassword password u.hashedPassword = true

/-- The access and the refresh token of a user. -/
def TokensOf (cfg : Config S) (u : User) (tokens : TokenPair) : Prop :=
  ∃ iat iat', tokens =
    ⟨.signed cfg.settings.jwtSecret ⟨some u.id, some .access, iat,
        iat + cfg.settings.accessTokenMinutes * 60, some u.organizationId, some u.role⟩,
      .signed cfg.settings.jwtSecret ⟨some u.id, some .refresh, iat',
        iat' + cfg.settings.refreshTokenDays * 86400, none, none⟩⟩

/-- A login comes to its end, succeeds exactly when some user accepts it, and is then one of
such a user. -/
def LoginRight (cfg : Config S) (w : World S) (email password : String) : Prop :=
  ∀ (c : Nat) (env : Nat → Reply S), w.tx? c = none → (∀ n, (env n).fault = none) →
    ∃ result σ' w' env', (AuthService.authenticate cfg email password (.start c)).run
        (server cfg.platform) c env w = some ((result, σ'), w', env') ∧
      ((∃ login, result = .ok login) ↔ ∃ u ∈ w.db.users.rows, Accepts cfg email password u) ∧
      ∀ tokens user, result = .ok (tokens, user) →
        user ∈ w.db.users.rows ∧ Accepts cfg email password user ∧ TokensOf cfg user tokens

theorem exists_idle (w : World S) : ∃ c, w.tx? c = none := by
  refine ⟨(w.txs.map Tx.session).sum + 1, List.find?_eq_none.mpr fun tx htx hsession => ?_⟩
  have hle := List.single_le_sum (fun _ _ => Nat.zero_le _) _ (List.mem_map_of_mem (f := Tx.session) htx)
  have heq : tx.session = (w.txs.map Tx.session).sum + 1 := by simpa using hsession
  omega

/-- What a login comes to when the server picks this row. -/
def Picked (cfg : Config S) (password : String) (row : Option User)
    (result : Except Err (TokenPair × User)) : Prop :=
  match row with
  | none => result = .error (.auth "Invalid credentials")
  | some u =>
    if u.isActive && cfg.platform.verifyPassword password u.hashedPassword then
      ∃ tokens, result = .ok (tokens, u) ∧ TokensOf cfg u tokens
    else result = .error (.auth "Invalid credentials")

theorem authenticate_run {c : Nat} {env : Nat → Reply S} (hidle : w.tx? c = none)
    (hfault : ∀ n, (env n).fault = none) :
    ∃ result σ' w' env', (AuthService.authenticate cfg email password (.start c)).run
        (server cfg.platform) c env w = some ((result, σ'), w', env') ∧
      Picked cfg password (pickFrom (env 0).choice.pick (w.db.users.rows.filter fun u =>
        cfg.platform.sqlLower u.email == cfg.platform.lower email)) result := by
  have hview : w.view c = w.db := by simp [World.view, hidle]
  rw [AuthService.authenticate, M.bind_apply]
  simp only [query, Framework.Program.call_bind, Framework.Program.ret_bind,
    Framework.Program.run, server, World.exec, World.effect, hfault, hview, Option.map_some,
    Query.eval]
  cases pickFrom (env 0).choice.pick (w.db.users.rows.filter fun u =>
      cfg.platform.sqlLower u.email == cfg.platform.lower email) with
  | none => exact ⟨_, _, _, _, rfl, rfl⟩
  | some u =>
    simp only [Picked]
    cases hok : u.isActive && cfg.platform.verifyPassword password u.hashedPassword with
    | false =>
      have hbad : (!u.isActive || !cfg.platform.verifyPassword password u.hashedPassword) = true := by
        rw [← Bool.not_and, hok]
        rfl
      simp only [hbad, if_true]
      exact ⟨_, _, _, _, rfl, rfl⟩
    | true =>
      have hgood : (!u.isActive || !cfg.platform.verifyPassword password u.hashedPassword) =
          false := by
        rw [← Bool.not_and, hok]
        rfl
      simp only [hgood, Bool.false_eq_true, if_false, if_true]
      exact ⟨_, _, _, _, rfl, _, rfl, _, _, rfl⟩

/-- All users with this address accept the login, or none does. -/
def Unambiguous (cfg : Config S) (db : DB S) (email password : String) : Prop :=
  (∀ u ∈ db.users.rows, u.email = cfg.platform.lower email → Accepts cfg email password u) ∨
    ∀ u ∈ db.users.rows, ¬Accepts cfg email password u

section

variable (hlower : ∀ s, cfg.platform.sqlLower (cfg.platform.lower s) = cfg.platform.lower s)
  (hdb : w.db.Lowered cfg)
include hlower hdb

theorem mem_candidates {u : User} : u ∈ (w.db.users.rows.filter fun u =>
    cfg.platform.sqlLower u.email == cfg.platform.lower email) ↔
      u ∈ w.db.users.rows ∧ u.email = cfg.platform.lower email := by
  rw [List.mem_filter, beq_iff_eq]
  refine and_congr_right fun hu => ?_
  obtain ⟨s, hs⟩ := hdb u hu
  rw [hs, hlower]

theorem loginRight_of_unambiguous (h : Unambiguous cfg w.db email password) :
    LoginRight cfg w email password := by
  intro c env hidle hfault
  obtain ⟨result, σ', w', env', hrun, hpicked⟩ :=
    @authenticate_run S cfg w email password c env hidle hfault
  refine ⟨result, σ', w', env', hrun, ?_⟩
  cases hpick : pickFrom (env 0).choice.pick (w.db.users.rows.filter fun u =>
      cfg.platform.sqlLower u.email == cfg.platform.lower email) with
  | none =>
    rw [hpick] at hpicked
    obtain rfl := hpicked
    refine ⟨⟨by rintro ⟨login, ⟨⟩⟩, ?_⟩, by rintro tokens user ⟨⟩⟩
    rintro ⟨u, hu, haccepts⟩
    have hnone := pickFrom_eq_none.mp hpick
    have hmem := (mem_candidates hlower hdb).mpr ⟨hu, haccepts.email⟩
    rw [hnone] at hmem
    cases hmem
  | some u =>
    rw [hpick] at hpicked
    obtain ⟨hu, hemail⟩ := (mem_candidates hlower hdb).mp (mem_of_pickFrom hpick)
    simp only [Picked] at hpicked
    split at hpicked
    · rename_i hok
      rw [Bool.and_eq_true] at hok
      obtain ⟨tokens, rfl, htokens⟩ := hpicked
      have haccepts : Accepts cfg email password u := ⟨hemail, hok.1, hok.2⟩
      refine ⟨⟨fun _ => ⟨u, hu, haccepts⟩, fun _ => ⟨_, rfl⟩⟩, ?_⟩
      rintro _ _ ⟨⟩
      exact ⟨hu, haccepts, htokens⟩
    · rename_i hok
      subst hpicked
      refine ⟨⟨by rintro ⟨login, ⟨⟩⟩, ?_⟩, by rintro tokens user ⟨⟩⟩
      rintro ⟨v, hv, haccepts⟩
      obtain hall | hnone := h
      · have := hall u hu hemail
        exact absurd (by rw [this.active, this.password]; rfl) hok
      · exact absurd haccepts (hnone v hv)

theorem unambiguous_of_loginRight {c : Nat} (hidle : w.tx? c = none)
    (h : LoginRight cfg w email password) : Unambiguous cfg w.db email password := by
  by_contra hnot
  simp only [Unambiguous, not_or, not_forall, not_not] at hnot
  obtain ⟨⟨u, hu, hemail, hrefuses⟩, v, hv, haccepts⟩ := hnot
  obtain ⟨pick, hpick⟩ := List.mem_iff_getElem?.mp
    ((@mem_candidates _ _ _ email hlower hdb u).mpr ⟨hu, hemail⟩)
  obtain ⟨result, σ', w', env', hrun, hiff, -⟩ := h c
    (fun _ => ⟨none, 0, ⟨pick, none⟩, 0, [], ⟨"", 0, 0, ""⟩, 200⟩) hidle fun _ => rfl
  obtain ⟨result', σ'', w'', env'', hrun', hpicked⟩ := @authenticate_run S cfg w email password c
    (fun _ => ⟨none, 0, ⟨pick, none⟩, 0, [], ⟨"", 0, 0, ""⟩, 200⟩) hidle fun _ => rfl
  rw [hrun] at hrun'
  cases hrun'
  rw [pickFrom, hpick, Option.some_or] at hpicked
  simp only [Picked] at hpicked
  split at hpicked
  · rename_i hok
    rw [Bool.and_eq_true] at hok
    exact hrefuses ⟨hemail, hok.1, hok.2⟩
  · subst hpicked
    obtain ⟨login, hlogin⟩ := hiff.mpr ⟨v, hv, haccepts⟩
    cases hlogin

end

section

variable [Field S] [LinearOrder S] [FloorRing S]

/-- In every state of the deployment, a login is right exactly when the address does not stand
for users of whom some accept it and some do not. -/
theorem deployment_loginRight (cfg : Config S) (workflow : Workflow S)
    (hlower : ∀ s, cfg.platform.sqlLower (cfg.platform.lower s) = cfg.platform.lower s)
    (events : List (Event Job (Reply S))) (email password : String) :
    LoginRight cfg (deployment cfg workflow events).world email password ↔
      Unambiguous cfg (deployment cfg workflow events).world.db email password := by
  have hexplained := deployment_explained (C := fun _ _ => True) cfg workflow events
    (Pool.meets_of_forall (fun _ _ _ _ _ _ _ => trivial) events)
  have hlowered := hexplained.lowered World.versions_last
  obtain ⟨c, hidle⟩ := exists_idle (deployment cfg workflow events).world
  exact ⟨unambiguous_of_loginRight hlower hlowered hidle,
    loginRight_of_unambiguous hlower hlowered⟩

end

/-- Another organization registers its administrator under the same address. -/
def sameAddress : List (Event Job (Reply ℚ)) :=
  registration ++ .spawn (.request (.register
    ⟨"globex", "admin@acme.com", "another one", by decide, by decide⟩)) :: calls 1 10

/-- The second administrator has the right password and is refused. -/
theorem sameAddress_refused : ¬LoginRight .plain (deployment .plain helpfulDraft sameAddress).world
    "admin@acme.com" "another one" := by
  intro h
  have hidle : (deployment .plain helpfulDraft sameAddress).world.txs = [] :=
    List.isEmpty_iff.mp (by decide +kernel)
  have hrefused : ((AuthService.authenticate .plain "admin@acme.com" "another one" (.start 2)).run
      (server .plain) 2 (fun _ => .plain) (deployment .plain helpfulDraft sameAddress).world).map
        (fun x => x.1.1.toOption.isSome) = some false := by decide +kernel
  have haccepts : (deployment .plain helpfulDraft sameAddress).world.db.users.rows.any (fun u =>
      u.email == "admin@acme.com" && u.isActive && u.hashedPassword == "another one") = true := by
    decide +kernel
  obtain ⟨result, σ', w', env', hrun, hiff, -⟩ := h 2 (fun _ => .plain)
    (by simp [World.tx?, hidle]) fun _ => rfl
  obtain ⟨u, hu, hrow⟩ := List.any_eq_true.mp haccepts
  simp only [Bool.and_eq_true, beq_iff_eq] at hrow
  obtain ⟨login, rfl⟩ := hiff.mpr ⟨u, hu, hrow.1.1, hrow.1.2, by
    rw [hrow.2]
    decide⟩
  change (AuthService.authenticate .plain "admin@acme.com" "another one" (.start 2)).run
    (server .plain) 2 (fun _ => .plain) _ = _ at hrun
  rw [hrun] at hrefused
  cases hrefused

theorem sameAddress_loginRight :
    LoginRight .plain (deployment .plain helpfulDraft sameAddress).world "admin@acme.com" "password" ↔
      Unambiguous .plain (deployment .plain helpfulDraft sameAddress).world.db "admin@acme.com"
        "password" :=
  deployment_loginRight .plain helpfulDraft (fun _ => rfl) sameAddress "admin@acme.com" "password"

end AgentDesk
