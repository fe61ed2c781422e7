import AgentDesk.Logic.Tokens
import Mathlib.Data.List.Infix

namespace AgentDesk

open Framework (Program Pool Event Move Table transcript)

variable {S : Type}

/-- A user gets another role, is deactivated or reactivated, past the program. -/
structure UserChange where
  id : Uuid
  role : Role
  isActive : Bool

def World.changeUser (x : UserChange) (w : World S) : World S :=
  let users := w.db.users.update x.id
    (fun u => { u with role := x.role, isActive := x.isActive }) (fun _ => rfl)
  { w with db := { w.db with users }, past := w.past ++ [w.db] }

abbrev Happening (S : Type) := Move Job (Reply S) UserChange

abbrev Deployed (S : Type) := Pool Job (Op S) Res Outcome (World S)

/-- The token pair with which session `i` has answered. -/
def issued (s : Deployed S) (i : Nat) : Option TokenPair :=
  match s.threads[i]? with
  | some (_, some (.ret (.response ⟨_, .tokens pair⟩))) => some pair
  | _ => none

/-- The token that a caller presents. -/
def Job.token? : Job → Option Token
  | .request (.refresh body) => some body.refreshToken
  | .request (.authenticated creds _) => creds
  | _ => none

def Token.signedBy (secret : String) : Token → Bool
  | .signed key _ => key == secret
  | .malformed _ => false

/-- `require_role` of session `i` has let `u` in. -/
def Authorised (cfg : Config S) (allowed : List Role) (creds : Option Token) (s : Deployed S)
    (i : Nat) (u : User) : Prop :=
  ∃ made rest σ, s.world.callsOf i = made ++ rest ∧
    (requireRole cfg allowed creds (.start i)).After made (.ret (.ok u, σ))

/-- Two tokens that differ at most in the organization and the role that they claim. -/
inductive Token.Agrees : Token → Token → Prop
  | same (t : Token) : Agrees t t
  | signed {key : String} {a b : Claims} (sub : b.sub = a.sub) (type : b.type = a.type)
      (iat : b.iat = a.iat) (exp : b.exp = a.exp) : Agrees (.signed key a) (.signed key b)

/-- The same happening, but for the organization and the role claimed by the presented token. -/
inductive Restamped : Happening S → Happening S → Prop
  | same (m : Happening S) : Restamped m m
  | refresh {t t' : Token} (h : t.Agrees t') :
      Restamped (.event (.spawn (.request (.refresh ⟨t⟩))))
        (.event (.spawn (.request (.refresh ⟨t'⟩))))
  | authenticated {t t' : Token} (action : Api.Action) (h : t.Agrees t') :
      Restamped (.event (.spawn (.request (.authenticated (some t) action))))
        (.event (.spawn (.request (.authenticated (some t') action))))

theorem callsOf_changeUser (x : UserChange) (w : World S) (c : Nat) :
    (w.changeUser x).callsOf c = w.callsOf c := rfl

/-- A session without a transaction reads what is committed. -/
theorem find_of_reads {P : Platform} {w w' : World S} {i : Nat} {op : Op S} {reply : Reply S}
    {r : Res op} {id : Uuid} {u : User} (htidy : w.Tidy) (hidle : idle (w.callsOf i) = true)
    (he : (server P).exec i op reply w = some (r, w')) (hreads : Made.Reads ⟨op, r⟩ id u) :
    w.db.users.find? u.id = some u ∧ u.id = id := by
  have hview : w.view i = w.db := by simp only [World.view, htidy i hidle]
  have answer : ∀ (q : Query S) (row : q.Result), op = .query q →
      HEq r (Except.ok row : Except Err q.Result) → row = q.eval P reply.choice w.db := by
    intro q row hop hr
    subst hop
    cases hr
    simp only [server, World.exec, World.effect, Option.map_eq_some_iff] at he
    obtain ⟨x, hx, heq⟩ := he
    cases hfault : reply.fault with
    | some e =>
      simp only [hfault, Option.some.injEq] at hx
      subst hx
      cases heq
    | none =>
      simp only [hfault, Option.some.injEq] at hx
      subst hx
      cases heq
      rw [hview]
  rcases hreads with hread | ⟨rfl, email, hread⟩
  · cases hread
    have hrow := answer (.user id) (some u) rfl HEq.rfl
    have hfind : w.db.users.find? id = some u := hrow.symm
    have hid : u.id = id := Table.key_of_find? hfind
    exact ⟨hid ▸ hfind, hid⟩
  · cases hread
    have hrow := answer (.userByEmail email) (some u) rfl HEq.rfl
    have hmem : u ∈ w.db.users.rows := (List.mem_filter.mp (mem_of_pickFrom hrow.symm)).1
    exact ⟨Table.find?_of_mem hmem, rfl⟩

theorem signedBy_of_valid {cfg : Config S} {token : Token} {expected : TokenType} {id : Uuid} {now : Time}
    {claims : Claims} (h : token.Valid cfg expected id now claims) :
    token.signedBy cfg.settings.jwtSecret = true := by
  rw [h.signed]
  simp [Token.signedBy]

/-- The calls with which `require_role` lets a user in. -/
theorem Authorised.calls {cfg : Config S} {allowed : List Role} {creds : Option Token} {s : Deployed S} {i : Nat}
    {u : User} (h : Authorised cfg allowed creds s i u) (hne : allowed ≠ []) :
    ∃ token claims id now rest, creds = some token ∧ token.Valid cfg .access id now claims ∧
      u.isActive = true ∧ u.role ∈ allowed ∧
        s.world.callsOf i = [⟨.clock, now⟩] ++ ⟨.query (.user id), .ok (some u)⟩ :: rest ∧
          ∃ σ, (requireRole cfg allowed creds (.start i)).After
            [⟨.clock, now⟩, ⟨.query (.user id), .ok (some u)⟩] (.ret (.ok u, σ)) := by
  obtain ⟨made, rest, σ, hcalls, hafter⟩ := h
  have htriple : (requireRole cfg allowed creds (.start i)).Obeys transcript _ [] :=
    requireRole_transcript creds hne
  have hpost := Program.post_of_after htriple hafter
  obtain ⟨token, claims, id, now, hcreds, hvalid, hactive, hrole, hmade⟩ := hpost
  rw [List.nil_append] at hmade
  subst hmade
  exact ⟨token, claims, id, now, rest, hcreds, hvalid, hactive, hrole, by simpa using hcalls, σ, hafter⟩

def TokenPair.get (pair : TokenPair) : TokenType → Token
  | .access => pair.accessToken
  | .refresh => pair.refreshToken

/-- The user of a token is the same whatever organization and role it claims. -/
theorem subject_agrees {cfg : Config S} {t t' : Token} (h : t.Agrees t') (expected : TokenType) :
    subject cfg t' expected = subject cfg t expected := by
  cases h with
  | same => rfl
  | @signed key a b hsub htype hiat hexp =>
    unfold subject decodeToken
    by_cases hkey : key = cfg.settings.jwtSecret
    · funext σ
      simp only [hkey, hexp, htype, clock, M.bind_apply, Program.call_bind, Program.ret_bind,
        ne_eq, not_true_eq_false, if_false]
      congr 1
      funext now
      by_cases hlate : a.exp < now / 1000000
      · simp only [hlate, if_true, M.raise_apply, Program.ret_bind]
      · by_cases hkind : a.type = some expected
        · simp [hlate, hkind, hsub]
        · simp [hlate, hkind]
    · funext σ
      simp [hkey]

section

variable [Field S] [LinearOrder S] [FloorRing S]

/-- The deployment after these happenings. -/
def exposed (cfg : Config S) (workflow : Workflow S) (moves : List (Happening S)) : Deployed S :=
  Pool.plays (server cfg.platform) (Job.program cfg workflow) World.changeUser ⟨.init, []⟩ moves

/-- The tokens that somebody has seen by now: those of all responses. -/
def seen (cfg : Config S) (workflow : Workflow S) (moves : List (Happening S)) : List Token :=
  moves.inits.flatMap fun before =>
    ((List.range (exposed cfg workflow before).threads.length).filterMap
      (issued (exposed cfg workflow before))).flatMap fun pair =>
        [pair.accessToken, pair.refreshToken]

/-- A job presents no token of the server that nobody has seen. -/
def Happening.honest (cfg : Config S) (workflow : Workflow S) (before : List (Happening S)) :
    Happening S → Bool
  | .event (.spawn job) => job.token?.all fun token =>
      !token.signedBy cfg.settings.jwtSecret || decide (token ∈ seen cfg workflow before)
  | _ => true

/-- Nobody forges a token: what a caller presents under the server's signature, the server
issued before. -/
def Unforged (cfg : Config S) (workflow : Workflow S) (moves : List (Happening S)) : Prop :=
  ∀ n, ∀ _ : n < moves.length, Happening.honest cfg workflow (moves.take n) moves[n] = true

instance (cfg : Config S) (workflow : Workflow S) (moves : List (Happening S)) :
    Decidable (Unforged cfg workflow moves) :=
  inferInstanceAs (Decidable (∀ n, ∀ _ : n < moves.length, _))

/-- The server answered with this pair by now. -/
def Minted (cfg : Config S) (workflow : Workflow S) (moves : List (Happening S))
    (pair : TokenPair) : Prop :=
  ∃ before, before <+: moves ∧ ∃ i, issued (exposed cfg workflow before) i = some pair

/-- What has to be so when session `i` lets `u` in: the row of `u` says so, and the caller
presents an unexpired access token that the server minted for `u`. -/
structure GrantsAccess (cfg : Config S) (workflow : Workflow S) (before : List (Happening S))
    (i : Nat) (allowed : List Role) (creds : Option Token) (u : User) : Prop where
  row : (exposed cfg workflow before).world.db.users.find? u.id = some u
  active : u.isActive = true
  role : u.role ∈ allowed
  token : ∃ pair claims now, Minted cfg workflow before pair ∧ pair.For cfg u.id ∧
    creds = some pair.accessToken ∧ pair.accessToken = .signed cfg.settings.jwtSecret claims ∧
      ⟨.clock, now⟩ ∈ (exposed cfg workflow before).world.callsOf i ∧ now / 1000000 ≤ claims.exp

/-- What has to be so when session `i` reads the row of `u` to issue a pair. -/
structure GrantsTokens (cfg : Config S) (workflow : Workflow S) (before : List (Happening S))
    (i : Nat) (job : Job) (u : User) : Prop where
  row : (exposed cfg workflow before).world.db.users.find? u.id = some u
  grounds : Grounds cfg u.id u ((exposed cfg workflow before).world.callsOf i) job
  minted : ∀ body, job = .request (.refresh body) → ∃ pair, Minted cfg workflow before pair ∧
    pair.For cfg u.id ∧ body.refreshToken = pair.refreshToken

/-- Only an access token gives access. -/
structure OnlyAccessTokens (cfg : Config S) (workflow : Workflow S)
    (moves : List (Happening S)) : Prop where
  access : ∀ i creds action p u,
    (exposed cfg workflow moves).threads[i]? = some (.request (.authenticated creds action), p) →
    Authorised cfg action.allowed creds (exposed cfg workflow moves) i u →
    ∃ before reply after, moves = before ++ .event (.step i reply) :: after ∧
      (∀ v, ¬Authorised cfg action.allowed creds (exposed cfg workflow before) i v) ∧
      Authorised cfg action.allowed creds
        (exposed cfg workflow (before ++ [.event (.step i reply)])) i u ∧
      GrantsAccess cfg workflow before i action.allowed creds u
  issue : ∀ i job p pair, (exposed cfg workflow moves).threads[i]? = some (job, p) →
    issued (exposed cfg workflow moves) i = some pair →
    ∃ u before reply after, moves = before ++ .event (.step i reply) :: after ∧
      pair.For cfg u.id ∧ GrantsTokens cfg workflow before i job u
  stale : ∀ moves', List.Forall₂ Restamped moves moves' →
    (exposed cfg workflow moves').world = (exposed cfg workflow moves).world ∧
      (exposed cfg workflow moves').threads.map Prod.snd =
        (exposed cfg workflow moves).threads.map Prod.snd

variable {cfg : Config S} {workflow : Workflow S} {moves : List (Happening S)}

theorem Restamped.same_program {m m' : Happening S} (h : Restamped m m') :
    Pool.SameMove (Job.program cfg workflow) m m' := by
  cases h with
  | same => exact .same m
  | refresh ht =>
    refine .spawn fun c => ?_
    simp only [Job.program, Api.Request.handle, Api.refresh, AuthService.refresh, subject_agrees ht]
  | @authenticated t t' action ht =>
    refine .spawn fun c => ?_
    have huser : getCurrentUser cfg (some t') = getCurrentUser cfg (some t) := by
      cases ht with
      | same => rfl
      | signed hsub htype hiat hexp =>
        simp only [getCurrentUser, subject_agrees (.signed hsub htype hiat hexp)]
    simp only [Job.program, Api.Request.handle, requireRole, huser]

theorem exposed_recorded : (exposed cfg workflow moves).Recorded (Job.program cfg workflow)
    World.callsOf := by
  refine Pool.recorded_plays (World.records_callsOf cfg.platform) callsOf_changeUser ?_ moves
  exact ⟨fun _ _ _ h => by simp at h, fun _ _ => rfl⟩

theorem exposed_tidy : (exposed cfg workflow moves).world.Tidy := by
  refine Pool.invariant_plays (I := World.Tidy) ?_ ?_ ?_ moves fun _ _ => rfl
  · exact fun he h => h.exec he
  · exact fun h => h.abort _
  · exact fun h => h

theorem seen_iff {token : Token} : token ∈ seen cfg workflow moves ↔
    ∃ pair, Minted cfg workflow moves pair ∧
      (token = pair.accessToken ∨ token = pair.refreshToken) := by
  have within : ∀ (before : List (Happening S)) i pair,
      issued (exposed cfg workflow before) i = some pair →
      i < (exposed cfg workflow before).threads.length := by
    intro before i pair hissued
    by_contra hout
    rw [issued, List.getElem?_eq_none (by omega)] at hissued
    cases hissued
  simp only [seen, List.mem_flatMap, List.mem_inits, List.mem_filterMap, List.mem_range,
    List.mem_cons, List.not_mem_nil, or_false, Minted]
  constructor
  · intro h
    obtain ⟨before, hbefore, pair, ⟨i, -, hissued⟩, htoken⟩ := h
    exact ⟨pair, ⟨before, hbefore, i, hissued⟩, htoken⟩
  · intro h
    obtain ⟨pair, ⟨before, hbefore, i, hissued⟩, htoken⟩ := h
    exact ⟨before, hbefore, pair, ⟨i, within before i pair hissued, hissued⟩, htoken⟩

theorem Minted.later {before : List (Happening S)} {pair : TokenPair}
    (h : Minted cfg workflow before pair) (hpre : before <+: moves) :
    Minted cfg workflow moves pair := by
  obtain ⟨earlier, hearlier, i, hissued⟩ := h
  exact ⟨earlier, hearlier.trans hpre, i, hissued⟩

theorem Unforged.before {before after : List (Happening S)}
    (h : Unforged cfg workflow (before ++ after)) : Unforged cfg workflow before := by
  intro n hn
  have hlast := h n (by rw [List.length_append]; omega)
  rw [List.getElem_append_left hn, List.take_append_of_le_length (by omega)] at hlast
  exact hlast

theorem exposed_snoc (m : Happening S) : exposed cfg workflow (moves ++ [m]) =
    (exposed cfg workflow moves).play (server cfg.platform) (Job.program cfg workflow)
      World.changeUser m := Pool.plays_snoc moves m

/-- The token of the server that a session presents was seen before. -/
theorem seen_of_presents (h : Unforged cfg workflow moves) {i : Nat} {job : Job}
    (hjob : ((exposed cfg workflow moves).threads.map Prod.fst)[i]? = some job) {token : Token}
    (htoken : job.token? = some token) (hsigned : token.signedBy cfg.settings.jwtSecret = true) :
    token ∈ seen cfg workflow moves := by
  induction moves using List.reverseRecOn with
  | nil => simp [exposed, Pool.plays] at hjob
  | append_singleton moves m ih =>
    have later : ((exposed cfg workflow moves).threads.map Prod.fst)[i]? = some job →
        token ∈ seen cfg workflow (moves ++ [m]) := by
      intro hold
      obtain ⟨pair, hminted, hmem⟩ := seen_iff.mp (ih h.before hold)
      exact seen_iff.mpr ⟨pair, hminted.later (List.prefix_append _ _), hmem⟩
    rw [exposed_snoc] at hjob
    cases m with
    | outside x => exact later hjob
    | event e =>
      simp only [Pool.play, Pool.jobs_next] at hjob
      by_cases hi : i < ((exposed cfg workflow moves).threads.map Prod.fst).length
      · rw [List.getElem?_append_left hi] at hjob
        exact later hjob
      · rw [List.getElem?_append_right (by omega)] at hjob
        cases e with
        | step j reply => simp [Pool.spawned] at hjob
        | kill j => simp [Pool.spawned] at hjob
        | spawn job' =>
          have hsame : job' = job := by
            generalize i - ((exposed cfg workflow moves).threads.map Prod.fst).length = k at hjob
            cases k with
            | zero => exact Option.some.inj hjob
            | succ k => cases hjob
          subst hsame
          have hhonest := h moves.length (by simp)
          simp only [List.getElem_append_right (le_refl _), Nat.sub_self, List.getElem_cons_zero,
            Happening.honest, htoken, Option.all_some, hsigned, Bool.not_true, Bool.false_or,
            decide_eq_true_eq, List.take_left] at hhonest
          obtain ⟨pair, hminted, hmem⟩ := seen_iff.mp hhonest
          exact seen_iff.mpr ⟨pair, hminted.later (List.prefix_append _ _), hmem⟩

/-- A pair is issued in calls that vouch for it. -/
theorem vouched_of_issued {i : Nat} {pair : TokenPair}
    (h : issued (exposed cfg workflow moves) i = some pair) :
    ∃ job p, (exposed cfg workflow moves).threads[i]? = some (job, p) ∧
      Vouched cfg job pair ((exposed cfg workflow moves).world.callsOf i) := by
  unfold issued at h
  split at h
  · rename_i job code pair' hthread
    cases h
    have hafter := exposed_recorded.live i job _ hthread
    have hjust := Program.post_of_after (program_justified workflow job i) hafter
    exact ⟨job, _, hthread, hjust _ rfl pair rfl⟩
  · cases h

theorem Minted.for {pair : TokenPair} (h : Minted cfg workflow moves pair) :
    ∃ id, pair.For cfg id := by
  obtain ⟨before, -, i, hissued⟩ := h
  obtain ⟨job, p, -, id, u, pre, x, post, -, -, -, -, hfor⟩ := vouched_of_issued hissued
  exact ⟨u.id, hfor⟩

/-- A valid token of the server is the token of this type in a pair minted for its user. -/
theorem minted_of_seen {token : Token} {expected : TokenType} {id : Uuid} {now : Time}
    {claims : Claims} (h : token ∈ seen cfg workflow moves)
    (hvalid : token.Valid cfg expected id now claims) :
    ∃ pair, Minted cfg workflow moves pair ∧ pair.For cfg id ∧
      token = pair.get expected := by
  obtain ⟨pair, hminted, hmem⟩ := seen_iff.mp h
  obtain ⟨owner, hfor⟩ := hminted.for
  obtain ⟨a, ha, hatype, hasub⟩ := hfor.access
  obtain ⟨b, hb, hbtype, hbsub⟩ := hfor.refresh
  have hsigned := hvalid.signed
  rcases hmem with rfl | rfl
  · rw [ha] at hsigned
    cases hsigned
    have htype := hvalid.type
    rw [hatype] at htype
    cases htype
    have howner : owner = id := Option.some.inj (hasub.symm.trans hvalid.sub)
    exact ⟨pair, hminted, howner ▸ hfor, rfl⟩
  · rw [hb] at hsigned
    cases hsigned
    have htype := hvalid.type
    rw [hbtype] at htype
    cases htype
    have howner : owner = id := Option.some.inj (hbsub.symm.trans hvalid.sub)
    exact ⟨pair, hminted, howner ▸ hfor, rfl⟩

/-- The job of a session when it made a call is its job in the end. -/
theorem job_before {before after : List (Happening S)} {i : Nat} {reply : Reply S} {op : Op S}
    {r : Res op} {job job' : Job} {next : Res op → Program (Op S) Res Outcome}
    {p : Option (Program (Op S) Res Outcome)}
    (hstep : Pool.Steps (server cfg.platform) i reply (exposed cfg workflow before)
      (exposed cfg workflow (before ++ [.event (.step i reply)])) job op next r)
    (hthread : (exposed cfg workflow (before ++ .event (.step i reply) :: after)).threads[i]? =
      some (job', p)) :
    ((exposed cfg workflow before).threads.map Prod.fst)[i]? = some job' ∧ job = job' := by
  have hjob : ((exposed cfg workflow before).threads.map Prod.fst)[i]? = some job := by
    rw [List.getElem?_map, hstep.thread]
    rfl
  obtain ⟨p', hp'⟩ : ∃ p', ((exposed cfg workflow before).plays (server cfg.platform)
      (Job.program cfg workflow) World.changeUser (.event (.step i reply) :: after)).threads[i]? =
        some (job, p') := Pool.job_plays _ hstep.thread
  have hend : exposed cfg workflow (before ++ .event (.step i reply) :: after) = _ :=
    Pool.plays_append before _
  rw [hend] at hthread
  have hsame : job = job' := congrArg Prod.fst (Option.some.inj (hp'.symm.trans hthread))
  exact ⟨hsame ▸ hjob, hsame⟩

theorem access_granted (h : Unforged cfg workflow moves) {i : Nat} {creds : Option Token}
    {action : Api.Action} {p : Option (Program (Op S) Res Outcome)} {u : User}
    (hthread : (exposed cfg workflow moves).threads[i]? =
      some (.request (.authenticated creds action), p))
    (hauth : Authorised cfg action.allowed creds (exposed cfg workflow moves) i u) :
    ∃ before reply after, moves = before ++ .event (.step i reply) :: after ∧
      (∀ v, ¬Authorised cfg action.allowed creds (exposed cfg workflow before) i v) ∧
      Authorised cfg action.allowed creds
        (exposed cfg workflow (before ++ [.event (.step i reply)])) i u ∧
      GrantsAccess cfg workflow before i action.allowed creds u := by
  have hne : action.allowed ≠ [] := by cases action <;> simp [Api.Action.allowed]
  obtain ⟨token, claims, id, now, rest, rfl, hvalid, hactive, hrole, hcalls, σ, hafter⟩ :=
    hauth.calls hne
  obtain ⟨before, reply, after, hmoves, hpre, job, next, hstep⟩ :=
    Pool.exists_call (World.records_callsOf cfg.platform) callsOf_changeUser rfl hcalls
  subst hmoves
  change (exposed cfg workflow before).world.callsOf i = _ at hpre
  have hbefore : before <+: before ++ .event (.step i reply) :: after := List.prefix_append _ _
  have hidle : idle ((exposed cfg workflow before).world.callsOf i) = true := by
    rw [hpre]
    rfl
  obtain ⟨hrow, hid⟩ := find_of_reads exposed_tidy hidle hstep.exec (Or.inl rfl)
  subst hid
  obtain ⟨hjob, hsame⟩ := job_before hstep hthread
  subst hsame
  have hseen : token ∈ seen cfg workflow before :=
    seen_of_presents h.before hjob rfl (signedBy_of_valid hvalid)
  obtain ⟨pair, hminted, hfor, htoken⟩ := minted_of_seen hseen hvalid
  have hsigned := hvalid.signed
  subst htoken
  refine ⟨before, reply, after, rfl, ?_, ?_, hrow, hactive, hrole, pair, claims, now, hminted, hfor,
    rfl, hsigned, ?_, hvalid.unexpired⟩
  · intro v hv
    obtain ⟨_, _, _, _, rest', _, _, _, _, hlong, _⟩ := hv.calls hne
    rw [hpre] at hlong
    simp at hlong
  · refine ⟨_, [], σ, ?_, hafter⟩
    have hown := (World.records_callsOf cfg.platform).own hstep.exec
    change (exposed cfg workflow (before ++ [.event (.step i reply)])).world.callsOf i =
      (exposed cfg workflow before).world.callsOf i ++ _ at hown
    rw [hown, hpre]
    rfl
  · rw [hpre]
    simp

theorem tokens_granted (h : Unforged cfg workflow moves) {i : Nat} {job : Job}
    {p : Option (Program (Op S) Res Outcome)} {pair : TokenPair}
    (hthread : (exposed cfg workflow moves).threads[i]? = some (job, p))
    (hissued : issued (exposed cfg workflow moves) i = some pair) :
    ∃ u before reply after, moves = before ++ .event (.step i reply) :: after ∧
      pair.For cfg u.id ∧ GrantsTokens cfg workflow before i job u := by
  obtain ⟨job', p', hthread', id, u, pre, ⟨op, r⟩, post, hcalls, hidle, hreads, hgrounds, hfor⟩ :=
    vouched_of_issued hissued
  rw [hthread] at hthread'
  cases hthread'
  obtain ⟨before, reply, after, hmoves, hpre, job', next, hstep⟩ :=
    Pool.exists_call (World.records_callsOf cfg.platform) callsOf_changeUser rfl hcalls
  subst hmoves
  change (exposed cfg workflow before).world.callsOf i = _ at hpre
  have hclosed : idle ((exposed cfg workflow before).world.callsOf i) = true := by
    rw [hpre]
    exact hidle
  obtain ⟨hrow, hid⟩ := find_of_reads exposed_tidy hclosed hstep.exec hreads
  subst hid
  obtain ⟨hjob, hsame⟩ := job_before hstep hthread
  subst hsame
  refine ⟨u, before, reply, after, rfl, hfor, hrow, by rw [hpre]; exact hgrounds, ?_⟩
  intro body hbody
  subst hbody
  cases hgrounds with
  | refreshed hvalid hclock hactive =>
    have hseen : body.refreshToken ∈ seen cfg workflow before :=
      seen_of_presents h.before hjob rfl (signedBy_of_valid hvalid)
    obtain ⟨pair', hminted, hfor', htoken⟩ := minted_of_seen hseen hvalid
    exact ⟨pair', hminted, hfor', htoken⟩

/-- In whatever order requests arrive and tokens are replayed, only an access token of an active
user with an allowed role gives access, only a registration, a password or a refresh token gives
tokens, and what a token claims about organization and role counts for nothing. -/
theorem onlyAccessTokens (h : Unforged cfg workflow moves) :
    OnlyAccessTokens cfg workflow moves where
  access _ _ _ _ _ hthread hauth := access_granted h hthread hauth
  issue _ _ _ _ hthread hissued := tokens_granted h hthread hissued
  stale moves' hmoves := by
    have halike : (⟨.init, []⟩ : Deployed S).Alike ⟨.init, []⟩ := ⟨rfl, rfl⟩
    have hsame : List.Forall₂ (Pool.SameMove (Job.program cfg workflow)) moves moves' :=
      hmoves.imp fun _ _ => Restamped.same_program
    have hplays : (exposed cfg workflow moves).Alike (exposed cfg workflow moves') :=
      halike.plays hsame
    exact ⟨hplays.world, hplays.threads⟩

end

/-- The access token of the user that session 0 registered, as the server minted it. -/
def mintedToken : Token :=
  .signed "change-me-in-production" ⟨some ⟨0, 1⟩, some .access, 0, 1800, some ⟨0, 0⟩, some .admin⟩

/-- Session 0 registers an organization, session 1 lists its users with the token that session 0
was answered, and then the administrator is deactivated. -/
def signedIn : List (Happening ℚ) :=
  (registration ++ .spawn (.request (.authenticated (some mintedToken) .listUsers)) :: calls 1 5).map
    .event ++ [.outside ⟨⟨0, 1⟩, .admin, false⟩]

theorem signedIn_onlyAccessTokens : OnlyAccessTokens .plain helpfulDraft signedIn ∧
    ((issued (exposed .plain helpfulDraft signedIn) 0).map TokenPair.accessToken) =
      some mintedToken :=
  ⟨onlyAccessTokens (by decide +kernel), by decide +kernel⟩

end AgentDesk
