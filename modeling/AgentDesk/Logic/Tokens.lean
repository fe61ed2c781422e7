import AgentDesk.Framework.Transcript
import AgentDesk.Logic.History
import AgentDesk.Logic.Triple
import AgentDesk.Api.Jobs

namespace AgentDesk

open Framework (Program Records Table transcript transcript_ok transcript_next)

variable {S α : Type} {cfg : Config S} {c n : Nat} {w w' : World S}

/-! The record of a session's calls -/

/-- A call with its result. -/
abbrev Made (S : Type) := (op : Op S) × Res op

/-- The calls that session `c` made, in order. -/
def World.callsOf (w : World S) (c : Nat) : List (Made S) :=
  (w.calls.filter fun x => x.session == c).map fun x => ⟨x.op, x.result⟩

def Op.opens : Op S → Bool
  | .query _ | .write _ => true
  | _ => false

def Op.closes : Op S → Bool
  | .commit | .rollback | .close => true
  | _ => false

/-- These calls leave no transaction open. -/
def idle (cs : List (Made S)) : Bool :=
  cs.foldl (fun b x => x.1.closes || (b && !x.1.opens)) true

theorem idle_snoc (cs : List (Made S)) (x : Made S) :
    idle (cs ++ [x]) = (x.1.closes || (idle cs && !x.1.opens)) := by
  simp [idle]

namespace World

theorem callsOf_own {op : Op S} {r : Res op} (h : w'.calls = w.calls ++ [⟨c, op, r⟩]) :
    w'.callsOf c = w.callsOf c ++ [⟨op, r⟩] := by
  simp [callsOf, h]

theorem callsOf_other {d : Nat} {op : Op S} {r : Res op} (h : w'.calls = w.calls ++ [⟨c, op, r⟩])
    (hne : d ≠ c) : w'.callsOf d = w.callsOf d := by
  have hc : (c == d) = false := by simpa using Ne.symm hne
  simp [callsOf, h, hc]

theorem records_callsOf (P : Platform) : Records (server (S := S) P) callsOf where
  own he := callsOf_own (steps_of_exec he).calls
  other he hne := callsOf_other (steps_of_exec he).calls hne
  abort _ _ _ := rfl

/-- A session whose calls leave no transaction open has none. -/
def Tidy (w : World S) : Prop := ∀ c, idle (w.callsOf c) = true → w.tx? c = none

theorem Tidy.exec {P : Platform} {op : Op S} {reply : Reply S} {r : Res op} (h : w.Tidy)
    (he : w.exec P c op reply = some (r, w')) : w'.Tidy := by
  have hs := steps_of_exec he
  intro d hd
  by_cases hdc : d = c
  · subst hdc
    rw [callsOf_own hs.calls, idle_snoc] at hd
    simp only [exec, Option.map_eq_some_iff] at he
    obtain ⟨⟨r₁, w₁⟩, he, heq⟩ := he
    cases heq
    change w₁.tx? d = none
    cases op with
    | query q => simp [Op.opens, Op.closes] at hd
    | write ws => simp [Op.opens, Op.closes] at hd
    | commit =>
      simp only [effect] at he
      split at he
      · cases he
        exact tx?_dropTx_self
      · cases he
        exact (commitTx_cases (w := w) d).2.2.1
    | rollback =>
      simp only [effect] at he
      split at he <;>
      · cases he
        exact tx?_dropTx_self
    | close =>
      cases he
      exact tx?_dropTx_self
    | enqueue task =>
      have hbefore : idle (w.callsOf d) = true := by simpa [Op.opens, Op.closes] using hd
      simp only [effect] at he
      split at he <;>
      · cases he
        exact h d hbefore
    | _ =>
      have hbefore : idle (w.callsOf d) = true := by simpa [Op.opens, Op.closes] using hd
      cases he
      exact h d hbefore
  · rw [callsOf_other hs.calls hdc] at hd
    rw [hs.confined.tx d hdc]
    exact h d hd

theorem Tidy.abort (h : w.Tidy) (c : Nat) : (w.dropTx c).Tidy := by
  intro d hd
  by_cases hdc : d = c
  · subst hdc
    exact tx?_dropTx_self
  · rw [tx?_dropTx_ne hdc]
    exact h d hd

end World

/-! What the sessions do with tokens -/

/-- The two tokens are the server's, an access and a refresh token of this user. -/
structure TokenPair.For (cfg : Config S) (pair : TokenPair) (id : Uuid) : Prop where
  access : ∃ claims, pair.accessToken = .signed cfg.settings.jwtSecret claims ∧
    claims.type = some .access ∧ claims.sub = some id
  refresh : ∃ claims, pair.refreshToken = .signed cfg.settings.jwtSecret claims ∧
    claims.type = some .refresh ∧ claims.sub = some id

/-- The token is a valid one of the server, of this type and for this user. -/
structure Token.Valid (cfg : Config S) (token : Token) (expected : TokenType) (id : Uuid)
    (now : Time) (claims : Claims) : Prop where
  signed : token = .signed cfg.settings.jwtSecret claims
  type : claims.type = some expected
  sub : claims.sub = some id
  unexpired : now / 1000000 ≤ claims.exp

/-- The call read this row of a user, looked up under `id` or by its address. -/
def Made.Reads (x : Made S) (id : Uuid) (u : User) : Prop :=
  x = ⟨.query (.user id), .ok (some u)⟩ ∨
    u.id = id ∧ ∃ email, x = ⟨.query (.userByEmail email), .ok (some u)⟩

/-- Why the server issues a token pair to the user of this row: what the session did before it
read the row under `id`, and what it found there. -/
inductive Grounds (cfg : Config S) (id : Uuid) (u : User) (pre : List (Made S)) : Job → Prop
  | registered {body : RegisterRequest} {row : User}
      (inserted : ⟨.write [.insert (.user row)], .ok ()⟩ ∈ pre) (same : row.id = id)
      (committed : ⟨.commit, .ok ()⟩ ∈ pre) : Grounds cfg id u pre (.request (.register body))
  | password {body : LoginRequest} (active : u.isActive = true)
      (correct : cfg.platform.verifyPassword body.password u.hashedPassword = true) :
      Grounds cfg id u pre (.request (.login body))
  | refreshed {body : RefreshRequest} {now : Time} {claims : Claims}
      (valid : body.refreshToken.Valid cfg .refresh id now claims)
      (clock : ⟨.clock, now⟩ ∈ pre) (active : u.isActive = true) :
      Grounds cfg id u pre (.request (.refresh body))

/-- The session read the row of a user, with no transaction open, and had grounds to issue
this pair. -/
def Vouched (cfg : Config S) (job : Job) (pair : TokenPair) (cs : List (Made S)) : Prop :=
  ∃ id u pre x post, cs = pre ++ x :: post ∧ idle pre = true ∧ Made.Reads x id u ∧
    Grounds cfg id u pre job ∧ pair.For cfg u.id

theorem Vouched.more {job : Job} {pair : TokenPair} {cs : List (Made S)}
    (h : Vouched cfg job pair cs) (more : List (Made S)) : Vouched cfg job pair (cs ++ more) := by
  obtain ⟨id, u, pre, x, post, rfl, hidle, hreads, hgrounds, hpair⟩ := h
  exact ⟨id, u, pre, x, post ++ more, by simp, hidle, hreads, hgrounds, hpair⟩

section

variable {σ : Session S} {cs : List (Made S)}

theorem tokenPair_transcript (user : User) :
    (AuthService.tokenPair cfg user).Triple transcript
      (fun pair σ' cs' => σ' = σ ∧ pair.For cfg user.id ∧ ∃ more, cs' = cs ++ more)
      (fun _ _ _ => False) σ cs := by
  simp only [AuthService.tokenPair, createAccessToken, createRefreshToken, createToken,
    M.triple_bind, M.triple_pure, triple_clock, transcript_ok, true_and]
  intro now _ hn now' _ hn'
  rw [hn', hn]
  exact ⟨⟨⟨_, rfl, rfl, rfl⟩, ⟨_, rfl, rfl, rfl⟩⟩, _, List.append_assoc _ _ _⟩

theorem subject_transcript (token : Token) (expected : TokenType) :
    (subject cfg token expected).Triple transcript
      (fun id σ' cs' => σ' = σ ∧ ∃ claims now, token.Valid cfg expected id now claims ∧
        cs' = cs ++ [⟨.clock, now⟩])
      (fun _ _ _ => True) σ cs := by
  cases token with
  | malformed m => simp [subject, decodeToken]
  | signed key claims =>
    simp only [subject, decodeToken, M.triple_bind, M.triple_ite, M.triple_raise, triple_clock]
    refine ⟨fun _ => trivial, fun hkey => ⟨trivial, ?_⟩⟩
    intro now cs' hnow
    refine ⟨fun _ => trivial, fun hexp => ⟨fun _ => trivial, fun htype => ?_⟩⟩
    simp only [ne_eq, not_not] at hkey htype
    rw [M.triple_pure]
    cases hsub : claims.sub with
    | none => trivial
    | some id => exact ⟨rfl, claims, now, ⟨by rw [hkey], htype, hsub, not_lt.mp hexp⟩, hnow⟩

/-- Whoever passes `require_role` is an active user with an allowed role and a valid access
token. -/
theorem requireRole_transcript {allowed : List Role} (creds : Option Token) (hne : allowed ≠ []) :
    (requireRole cfg allowed creds).Triple transcript
      (fun u _ cs' => ∃ token claims id now, creds = some token ∧
        token.Valid cfg .access id now claims ∧ u.isActive = true ∧ u.role ∈ allowed ∧
          cs' = cs ++ [⟨.clock, now⟩, ⟨.query (.user id), .ok (some u)⟩])
      (fun _ _ _ => True) σ cs := by
  unfold requireRole getCurrentUser
  rw [M.triple_bind]
  split
  · trivial
  · trivial
  · rename_i token _
    rw [M.triple_bind, M.triple_except]
    refine M.triple_mono (subject_transcript token .access) ?_ (fun e _ _ _ => by cases e <;> trivial)
    intro id σ' cs' hsubject
    obtain ⟨-, claims, now, hvalid, rfl⟩ := hsubject
    simp only [M.triple_bind, triple_query, transcript_ok, true_and]
    refine ⟨fun _ _ _ => trivial, ?_⟩
    intro row cs' hread
    cases row with
    | none => trivial
    | some u =>
      simp only [M.triple_ite, M.triple_raise, M.triple_pure]
      refine ⟨fun _ => trivial, fun hactive => ⟨fun _ => trivial, fun hrole => ?_⟩⟩
      have hactive' : u.isActive = true := by simpa using hactive
      have hrole' : u.role ∈ allowed := by simpa [hne] using hrole
      rw [transcript_next] at hread
      exact ⟨token, claims, id, now, rfl, hvalid, hactive', hrole', by rw [hread]; simp⟩

end

/-! The responses -/

/-- A coroutine only adds to its transcript. -/
theorem grows_transcript (p : M S α) {σ : Session S} {cs : List (Made S)} :
    p.Triple transcript (fun _ _ cs' => ∃ more, cs' = cs ++ more)
      (fun _ _ cs' => ∃ more, cs' = cs ++ more) σ cs := by
  have keeps : ∀ {cs' : List (Made S)} {op : Op S}, (∃ more, cs' = cs ++ more) →
      transcript.ok cs' op ∧ ∀ (r : Res op) (cs'' : List (Made S)), transcript.next cs' op r cs'' →
        ∃ more, cs'' = cs ++ more := by
    intro cs' op hcs'
    obtain ⟨more, rfl⟩ := hcs'
    refine ⟨trivial, fun r cs'' hcs'' => ⟨more ++ [⟨op, r⟩], ?_⟩⟩
    rw [transcript_next] at hcs''
    rw [hcs'', List.append_assoc]
  refine Program.obeys_mono (Program.obeys_invariant keeps (p σ) ⟨[], by simp⟩) ?_
  intro x cs' hcs'
  cases x.1 <;> exact hcs'

/-- A coroutine that ends with `f` shows what `f` shows. -/
theorem bind_transcript {β : Type} {p : M S α} {f : α → M S β} {σ : Session S} {cs : List (Made S)}
    {Q : β → Session S → List (Made S) → Prop}
    (h : ∀ a σ' cs', (f a).Triple transcript Q (fun _ _ _ => True) σ' cs') :
    (p >>= f).Triple transcript Q (fun _ _ _ => True) σ cs := by
  rw [M.triple_bind]
  exact M.triple_mono (grows_transcript p) (fun a σ' cs' _ => h a σ' cs') (fun _ _ _ _ => trivial)

/-- The response carries no tokens, unless this job in these calls had grounds to issue them. -/
def Response.Justified (cfg : Config S) (job : Job) (r : Response) (cs : List (Made S)) : Prop :=
  ∀ pair, r.body = .tokens pair → Vouched cfg job pair cs

/-- The coroutine answers justified responses only. -/
def Answers (cfg : Config S) (job : Job) (p : M S Response) (σ : Session S)
    (cs : List (Made S)) : Prop :=
  p.Triple transcript (fun r _ cs' => r.Justified cfg job cs') (fun _ _ _ => True) σ cs

theorem answers_pure {job : Job} {r : Response} {σ : Session S} {cs : List (Made S)}
    (h : ∀ pair, r.body ≠ .tokens pair) : Answers cfg job (pure r) σ cs :=
  fun pair hr => absurd hr (h pair)

theorem catching_transcript {p : M S α} {status : Err → Option (Nat × String)} {σ : Session S}
    {cs : List (Made S)} {Q : α → Session S → List (Made S) → Prop}
    (h : p.Triple transcript Q (fun _ _ _ => True) σ cs) :
    (Api.catching p status).Triple transcript Q (fun _ _ _ => True) σ cs := by
  unfold Api.catching
  rw [M.triple_except]
  refine M.triple_mono h (fun _ _ _ h => h) (fun e _ _ _ => ?_)
  cases status e <;> trivial

/-- A session that read the row of a user last and has grounds issues the pair. -/
theorem tokenPair_vouched {job : Job} {id : Uuid} {u : User} {σ : Session S}
    (pre : List (Made S)) {x : Made S} (hidle : idle pre = true) (hreads : Made.Reads x id u)
    (hgrounds : Grounds cfg id u pre job) :
    (AuthService.tokenPair cfg u).Triple transcript
      (fun pair _ cs => Vouched cfg job pair cs) (fun _ _ _ => True) σ (pre ++ [x]) := by
  refine M.triple_mono (tokenPair_transcript u) ?_ (fun _ _ _ h => h.elim)
  intro pair σ' cs hpair
  obtain ⟨-, hfor, more, rfl⟩ := hpair
  have hread : Vouched cfg job pair (pre ++ [x]) :=
    ⟨id, u, pre, x, [], rfl, hidle, hreads, hgrounds, hfor⟩
  exact hread.more more

theorem register_answers (body : RegisterRequest) :
    Answers cfg (.request (.register body)) (Api.register cfg body) (.start c) [] := by
  unfold Answers Api.register
  simp only [M.triple_bind, M.triple_pure]
  have issued : (AuthService.register cfg body.organizationName body.email body.password).Triple
      transcript (fun pair _ cs => Vouched cfg (.request (.register body)) pair cs)
        (fun _ _ _ => True) (.start c) [] := by
    unfold AuthService.register
    simp only [M.triple_bind, triple_query, transcript_ok, true_and]
    refine ⟨fun _ _ _ => trivial, ?_⟩
    intro row cs hcs
    cases row with
    | some o => trivial
    | none =>
      simp only [transcript_next, List.nil_append] at hcs
      subst hcs
      simp [hashPassword, commit, Session.start]
      intro n committed u
      let row : User :=
        { id := ⟨c, 1⟩, organizationId := ⟨c, 0⟩, email := cfg.platform.lower body.email,
          hashedPassword := cfg.platform.hashPassword body.password n, role := .admin,
          isActive := true, createdAt := 0 }
      have hrow : (⟨.write [.insert (.user row)], .ok ()⟩ : Made S) ∈
          [⟨.query (.organizationByName body.organizationName), .ok none⟩,
            ⟨.write [.insert (.organization ⟨⟨c, 0⟩, body.organizationName, 0⟩)], .ok ()⟩,
            ⟨.salt, n⟩, ⟨.write [.insert (.user row)], .ok ()⟩, ⟨.commit, .ok committed⟩] := by
        simp
      exact tokenPair_vouched [_, _, _, _, _] rfl (Or.inl rfl) (.registered hrow rfl (by simp))
  refine M.triple_mono (catching_transcript issued) ?_ (fun _ _ _ h => h)
  intro pair σ' cs hpair pair' heq
  cases heq
  exact hpair

theorem authenticate_transcript (body : LoginRequest) {σ : Session S} :
    (AuthService.authenticate cfg body.email body.password).Triple transcript
      (fun x _ cs => Vouched cfg (.request (.login body)) x.1 cs) (fun _ _ _ => True) σ [] := by
  unfold AuthService.authenticate
  simp only [M.triple_bind, triple_query, transcript_ok, true_and]
  refine ⟨fun _ _ _ => trivial, ?_⟩
  intro row cs hcs
  cases row with
  | none => trivial
  | some u =>
    simp only [transcript_next] at hcs
    subst hcs
    simp only [M.triple_ite, M.triple_raise, M.triple_bind, M.triple_pure]
    refine ⟨fun _ => trivial, fun hok => ?_⟩
    have hactive : u.isActive = true ∧
        cfg.platform.verifyPassword body.password u.hashedPassword = true := by simpa using hok
    exact tokenPair_vouched [] rfl (Or.inr ⟨rfl, _, rfl⟩) (.password hactive.1 hactive.2)

theorem login_answers (body : LoginRequest) :
    Answers cfg (.request (.login body)) (Api.login cfg body) (.start c) [] := by
  unfold Answers Api.login
  rw [M.triple_bind, M.triple_except]
  refine M.triple_mono (authenticate_transcript body) ?_ ?_
  · intro x σ cs hpair
    obtain ⟨tokens, user⟩ := x
    rw [M.triple_bind]
    refine M.triple_mono (grows_transcript _) ?_ (fun _ _ _ _ => trivial)
    intro entry σ' cs' hcs' pair heq
    obtain ⟨more, rfl⟩ := hcs'
    cases heq
    exact hpair.more more
  · intro e σ cs _
    cases e with
    | auth m => exact bind_transcript fun _ _ _ => trivial
    | _ => trivial

theorem refresh_answers (body : RefreshRequest) {σ : Session S} :
    Answers cfg (.request (.refresh body)) (Api.refresh cfg body) σ [] := by
  unfold Answers Api.refresh
  simp only [M.triple_bind, M.triple_pure]
  have issued : (AuthService.refresh cfg body.refreshToken).Triple transcript
      (fun pair _ cs => Vouched cfg (.request (.refresh body)) pair cs)
        (fun _ _ _ => True) σ [] := by
    unfold AuthService.refresh
    rw [M.triple_bind, M.triple_except]
    refine M.triple_mono (subject_transcript body.refreshToken .refresh) ?_
      (fun e _ _ _ => by cases e <;> trivial)
    intro id σ' cs hsubject
    obtain ⟨-, claims, now, hvalid, rfl⟩ := hsubject
    simp only [M.triple_bind, triple_query, transcript_ok, true_and]
    refine ⟨fun _ _ _ => trivial, ?_⟩
    intro row cs hcs
    cases row with
    | none => trivial
    | some u =>
      rw [transcript_next] at hcs
      subst hcs
      simp only [M.triple_ite, M.triple_raise]
      refine ⟨fun _ => trivial, fun hok => ?_⟩
      have hactive : u.isActive = true := by simpa using hok
      exact tokenPair_vouched [_] rfl (Or.inl rfl) (.refreshed hvalid (by simp) hactive)
  refine M.triple_mono (catching_transcript issued) ?_ (fun _ _ _ h => h)
  intro pair σ' cs hpair pair' heq
  cases heq
  exact hpair

theorem Response.Justified.more {job : Job} {r : Response} {cs : List (Made S)}
    (h : r.Justified cfg job cs) (more : List (Made S)) : r.Justified cfg job (cs ++ more) :=
  fun pair hr => (h pair hr).more more

theorem getDb_answers {job : Job} {p : M S Response} {σ : Session S} {cs : List (Made S)}
    (h : Answers cfg job p σ cs) : Answers cfg job (getDb p) σ cs := by
  have rolled : (M.except p fun exc => do
      rollback
      M.raise exc).Triple transcript (fun r _ cs' => r.Justified cfg job cs')
        (fun _ _ _ => True) σ cs := by
    rw [M.triple_except]
    refine M.triple_mono h (fun _ _ _ h => h) (fun e σ' cs' _ => ?_)
    exact bind_transcript fun _ _ _ => trivial
  unfold Answers M.Triple getDb sessionScope
  rw [Program.obeys_bind]
  refine Program.obeys_mono rolled ?_
  intro x cs' hx
  obtain ⟨_ | r, σ'⟩ := x
  · exact ⟨trivial, fun _ _ _ => trivial⟩
  · refine ⟨trivial, fun u cs₂ hcs => ?_⟩
    rw [transcript_next] at hcs
    subst hcs
    exact Response.Justified.more hx _

/-- How a session may end: tokens are vouched for. -/
def Outcome.Justified (cfg : Config S) (job : Job) (o : Outcome) (cs : List (Made S)) : Prop :=
  ∀ r, o = .response r → r.Justified cfg job cs

/-- A task answers nobody. -/
theorem task_justified {job : Job} {p : M S Outcome} {σ : Session S} {cs : List (Made S)}
    (h : p.Triple transcript (fun o _ _ => ∀ r, o ≠ .response r) (fun _ _ _ => True) σ cs) :
    ((p σ).bind fun x => .ret (outcomeOf x.1)).Obeys transcript
      (fun o cs' => o.Justified cfg job cs') cs := by
  rw [Program.obeys_bind]
  refine Program.obeys_mono h ?_
  intro x cs' hx r hr
  obtain ⟨_ | o, σ'⟩ := x
  · cases hr
  · exact absurd hr (hx r)

section

variable [Field S] [LinearOrder S] [FloorRing S]

/-- No action of a signed-in user answers with tokens. -/
theorem handle_answers (workflow : Workflow S) (current : User) (creds : Option Token)
    (action : Api.Action) {σ : Session S} {cs : List (Made S)} :
    Answers cfg (.request (.authenticated creds action)) (action.handle cfg workflow current) σ cs := by
  unfold Answers
  cases action with
  | runWorkflow ticketId =>
    refine bind_transcript fun ticket σ' cs' => ?_
    rw [M.triple_ite]
    refine ⟨fun _ => trivial, fun _ => bind_transcript fun run σ' cs' => ?_⟩
    rw [M.triple_ite]
    refine ⟨fun _ => ?_, fun _ => ?_⟩
    · exact bind_transcript fun _ _ _ => answers_pure fun _ h => by cases h
    · exact bind_transcript fun _ _ _ => answers_pure fun _ h => by cases h
  | approve ticketId body =>
    refine bind_transcript fun _ _ _ => ?_
    exact bind_transcript fun _ _ _ => answers_pure fun _ h => by cases h
  | reject ticketId body =>
    refine bind_transcript fun _ _ _ => ?_
    exact bind_transcript fun _ _ _ => answers_pure fun _ h => by cases h
  | editDraft ticketId body =>
    refine bind_transcript fun _ _ _ => ?_
    exact bind_transcript fun _ _ _ => answers_pure fun _ h => by cases h
  | _ => exact bind_transcript fun _ _ _ => answers_pure fun _ h => by cases h

theorem request_answers (workflow : Workflow S) (r : Api.Request) :
    Answers cfg (.request r) (r.handle cfg workflow) (.start c) [] := by
  cases r with
  | register body => exact register_answers body
  | login body => exact login_answers body
  | refresh body => exact refresh_answers body
  | authenticated creds action =>
    exact bind_transcript fun current _ _ => handle_answers workflow current creds action

theorem program_justified (workflow : Workflow S) (job : Job) (c : Nat) :
    (job.program cfg workflow c).Obeys transcript (fun o cs => o.Justified cfg job cs) [] := by
  cases job with
  | request r =>
    simp only [Job.program, Program.obeys_bind]
    refine Program.obeys_mono (getDb_answers (request_answers workflow r)) ?_
    intro x cs hx r' hr'
    cases hr'
    obtain ⟨e | response, σ'⟩ := x
    · intro pair hpair
      cases e <;> cases hpair
    · exact hx
  | runAgent runId =>
    exact task_justified (bind_transcript fun _ _ _ r h => by cases h)
  | deliverWebhook deliveryId retries =>
    refine task_justified (bind_transcript fun success _ _ => ?_)
    rw [M.triple_ite]
    exact ⟨fun _ _ h => (by cases h), fun _ _ h => (by cases h)⟩

end

end AgentDesk
