import AgentDesk.Logic.Homes
import AgentDesk.Logic.Tenants

namespace AgentDesk

open Framework (Program)

variable {S α β : Type} {cfg : Config S} {organizationId : Uuid} {home : RowKey → Option Uuid}
  {org : Nat → Uuid} {c : Nat} {known : Set RowKey} {σ : Session S} {id : Uuid}

/-! Who a job acts for -/

/-- The user that a token names. -/
def Token.subject? : Token → Option Uuid
  | .malformed _ => none
  | .signed _ claims => claims.sub

/-- The ticket that a request is about. -/
def Api.Action.ticketId? : Api.Action → Option Uuid
  | .getTicket id | .listTicketEvents id | .runWorkflow id | .approve id _ | .reject id _
  | .editDraft id _ => some id
  | _ => none

/-- The job acts for a user, a run or a delivery under one of these keys. Registering and logging in
look for a name or an address in all organizations. -/
def Job.ActsFor (keys : Set RowKey) : Job → Prop
  | .request (.authenticated creds _) =>
    ∀ token id, creds = some token → token.subject? = some id → ⟨.user, id⟩ ∈ keys
  | .request (.refresh body) => ∀ id, body.refreshToken.subject? = some id → ⟨.user, id⟩ ∈ keys
  | .request _ => False
  | .runAgent runId => ⟨.agentRun, runId⟩ ∈ keys
  | .deliverWebhook deliveryId _ => ⟨.delivery, deliveryId⟩ ∈ keys

theorem subject_tenant (token : Token) (expected : TokenType)
    (htoken : ∀ id, token.subject? = some id → Knows c known ⟨.user, id⟩) :
    (subject cfg token expected).Triple (tenant organizationId c)
      (fun id σ' known' => σ' = σ ∧ known ⊆ known' ∧ Knows c known' ⟨.user, id⟩)
      (fun _ σ' known' => σ' = σ ∧ known ⊆ known') σ known := by
  cases token with
  | malformed m => exact ⟨rfl, Set.Subset.rfl⟩
  | signed key claims =>
    simp only [subject, decodeToken, M.triple_bind, M.triple_ite, M.triple_raise, triple_clock,
      M.triple_pure]
    refine ⟨fun _ => ⟨trivial, Set.Subset.rfl⟩, fun _ => ⟨trivial, fun now known' h => ?_⟩⟩
    refine ⟨fun _ => ⟨trivial, h.1⟩, fun _ => ⟨fun _ => ⟨trivial, h.1⟩, fun _ => ?_⟩⟩
    cases hsub : claims.sub with
    | none => exact ⟨rfl, h.1⟩
    | some id => exact ⟨rfl, h.1, (htoken id hsub).mono h.1⟩

theorem refresh_stays {refreshToken : Token}
    (htoken : ∀ id, refreshToken.subject? = some id → Knows c known ⟨.user, id⟩) :
    (AuthService.refresh cfg refreshToken).Stays organizationId c known fun _ _ => True := by
  have hsubject : (subject cfg refreshToken .refresh).Stays organizationId c known fun id known' =>
      Knows c known' ⟨.user, id⟩ := by
    intro known₁ σ hle hσ
    refine M.triple_mono (subject_tenant refreshToken .refresh fun id hid => (htoken id hid).mono hle) ?_ ?_
    · intro id σ' known' h
      obtain ⟨rfl, hle', hknows⟩ := h
      exact ⟨hle', hσ.mono hle', hknows⟩
    · intro e σ' known' h
      obtain ⟨rfl, hle'⟩ := h
      exact ⟨hle', hσ.mono hle'⟩
  have htoken : ∀ known' sub type seconds owner role, (createToken cfg sub type seconds owner role).Stays
      organizationId c known' fun _ _ => True :=
    fun _ _ _ _ _ _ => clock_stays.bind fun _ _ _ _ => .pure fun _ _ => trivial
  refine M.Stays.bind (hsubject.except fun e _ _ => by cases e <;> exact .raise _) fun id known₁ _ hid => ?_
  refine (query_stays (.user id) hid).bind fun r known₂ _ _ => ?_
  cases r with
  | none => exact .raise _
  | some u =>
    refine .ite (.raise _) ((htoken _ _ _ _ _ _).bind fun access known₃ _ _ => ?_)
    exact (htoken _ _ _ _ _ _).bind fun _ _ _ _ => .pure fun _ _ => trivial

/-- The caller is a user of the organization, and the check leaves the session as it was. -/
theorem requireRole_tenant (allowed : List Role) {creds : Option Token}
    (hcreds : ∀ token id, creds = some token → token.subject? = some id → Knows c known ⟨.user, id⟩) :
    (requireRole cfg allowed creds).Triple (tenant organizationId c)
      (fun u σ' _ => σ' = σ ∧ u.organizationId = organizationId) (fun _ σ' _ => σ' = σ) σ known := by
  have hcurrent : (getCurrentUser cfg creds).Triple (tenant organizationId c)
      (fun u σ' _ => σ' = σ ∧ u.organizationId = organizationId) (fun _ σ' _ => σ' = σ) σ known := by
    unfold getCurrentUser
    split
    · exact rfl
    · exact rfl
    · rename_i token _
      rw [M.triple_bind, M.triple_except]
      refine M.triple_mono (subject_tenant token .access fun id hid => hcreds token id rfl hid) ?_ ?_
      · intro id σ' known' hid
        obtain ⟨rfl, -, hknows⟩ := hid
        rw [M.triple_bind, triple_query]
        refine ⟨hknows, fun _ _ _ => rfl, fun r known'' hr => ?_⟩
        cases r with
        | none => exact rfl
        | some u =>
          refine (M.triple_ite _ _ _).mpr ⟨fun _ => rfl, fun _ => ⟨rfl, ?_⟩⟩
          exact Option.some.inj (hr.2 (.user u) rfl).filed.organization
      · intro e σ' known' he
        obtain ⟨rfl, -⟩ := he
        cases e <;> exact rfl
  unfold requireRole
  rw [M.triple_bind]
  refine M.triple_mono hcurrent ?_ fun _ _ _ h => h
  intro u σ' known' hu
  exact (M.triple_ite _ _ _).mpr ⟨fun _ => hu.1, fun _ => hu⟩

/-! The endpoints -/

theorem load_stays (hid : Knows c known ⟨.ticket, id⟩) :
    (Api.load organizationId id : M S _).Stays organizationId c known fun t known' =>
      (Row.ticket t : Row S).Held organizationId c known' := by
  refine M.Stays.catching ((getTicketRow_stays hid).bind fun r known₁ _ hr => ?_)
  cases r with
  | none => exact .raise _
  | some t => exact .ite (.raise _) (.pure fun _ hle => (hr t rfl).mono hle)

theorem getTicket_stays (hid : Knows c known ⟨.ticket, id⟩) :
    (TicketService.getTicket organizationId id : M S _).Stays organizationId c known fun _ _ => True := by
  refine (getTicketRow_stays hid).bind fun r known₁ _ hr => ?_
  cases r with
  | none => exact .raise _
  | some t => exact .ite (.raise _) (.pure fun _ _ => trivial)

theorem query_respond_stays {γ : Type} {q : Query S} (hq : q.Local organizationId c known)
    (f : q.Result → γ) : (do
      let r ← query q
      pure (f r) : M S γ).Stays organizationId c known fun _ _ => True :=
  (query_stays q hq).bind fun _ _ _ _ => .pure fun _ _ => trivial

section

variable [Field S] [LinearOrder S] [FloorRing S]

/-- A request keeps to the organization of its caller if its ticket is the organization's. -/
theorem handle_stays (action : Api.Action) {u : User} (hu : u.organizationId = organizationId)
    (hid : ∀ id, action.ticketId? = some id → Knows c known ⟨.ticket, id⟩) :
    (action.handle cfg (.support cfg) u).Stays organizationId c known fun _ _ => True := by
  subst hu
  have answer : ∀ {γ : Type} {p : M S γ} (f : γ → Response) {known : Set RowKey},
      p.Stays u.organizationId c known (fun _ _ => True) →
        (do
          let r ← p
          pure (f r) : M S Response).Stays u.organizationId c known fun _ _ => True :=
    fun f _ hp => hp.bind fun _ _ _ _ => .pure fun _ _ => trivial
  cases action with
  | listUsers => exact (query_stays (.usersOf u.organizationId) rfl).bind fun _ _ _ _ => .pure fun _ _ => trivial
  | createUser body => exact answer _ (createUser_stays _ _ _).catching
  | createTicket body => exact answer _ (createTicket_stays _ _ _ _)
  | listTickets status =>
    exact (query_stays (.ticketsOf u.organizationId status) rfl).bind fun _ _ _ _ => .pure fun _ _ => trivial
  | getTicket id => exact (load_stays (hid id rfl)).bind fun _ _ _ _ => .pure fun _ _ => trivial
  | listTicketEvents id =>
    refine answer _ (M.Stays.catching ((getTicket_stays (hid id rfl)).bind fun _ known₁ hle _ => ?_))
    exact (query_stays (.eventsOf id) ((hid id rfl).mono hle)).mono Set.Subset.rfl fun _ _ _ _ => trivial
  | createDocument body => exact answer _ (createDocument_stays _ _ _ _)
  | listDocuments =>
    exact (query_stays (.documentsOf u.organizationId) rfl).bind fun _ _ _ _ => .pure fun _ _ => trivial
  | searchDocuments body => exact answer _ (search_stays _ _ _)
  | runWorkflow id =>
    refine (load_stays (hid id rfl)).bind fun t known₁ _ _ => .ite (.raise _) ?_
    refine (startRun_stays id _).bind fun run known₂ _ hrun => .ite ?_ ?_
    · exact answer _ (executeRun_stays hrun.key)
    · exact (enqueue_stays hrun.key).bind fun _ _ _ _ => .pure fun _ _ => trivial
  | approve id body =>
    refine (load_stays (hid id rfl)).bind fun t known₁ _ _ => ?_
    exact answer _ (approve_stays id _ _).catching
  | reject id body =>
    refine (load_stays (hid id rfl)).bind fun t known₁ hle _ => ?_
    exact answer _ (reject_stays ((hid id rfl).mono hle) _ _).catching
  | editDraft id body =>
    refine (load_stays (hid id rfl)).bind fun t known₁ _ _ => ?_
    exact answer _ (editDraft_stays id _ _).catching
  | getWebhook => exact getConfig_stays.bind fun _ _ _ _ => .pure fun _ _ => trivial
  | putWebhook body => exact answer _ (upsertConfig_stays _ _ _)
  | listDeliveries =>
    exact (query_stays (.deliveriesOf u.organizationId) rfl).bind fun _ _ _ _ => .pure fun _ _ => trivial
  | getMetrics => exact answer _ compute_stays

/-! Whole sessions -/

omit [Field S] [LinearOrder S] [FloorRing S] in
theorem M.Stays.heeds {p : M S α} {R : α → Set RowKey → Prop} (hc : Drawn home org c)
    (hp : p.Stays (org c) c (homeKeys home (org c)) R)
    (hσ : Homed (org c) c (homeKeys home (org c)) σ)
    {f : Except Err α × Session S → Program (Op S) Res β}
    (hf : ∀ x, Homed (org c) c (homeKeys home (org c)) x.2 → (f x).Heeds (tenancy home org c)) :
    ((p σ).bind f).Heeds (tenancy home org c) := by
  refine Program.heeds_bind (tenant_ensures hc) (hp _ σ Set.Subset.rfl hσ) fun x hx => hf x ?_
  obtain ⟨_ | a, σ'⟩ := x
  · exact hx.2
  · exact hx.2.1

/-- What follows the body of a request in its session. -/
def Api.ending (x : Except Err Response × Session S) : Program (Op S) Res Outcome :=
  (getDb (fun _ => .ret x) x.2).bind fun y => .ret (.response (respond y.1))

theorem request_program (r : Api.Request) : Job.program cfg (.support cfg) (.request r) c =
    (r.handle cfg (.support cfg) (.start c)).bind Api.ending := by
  simp only [Job.program, getDb, sessionScope, M.except, Program.bind_assoc]
  refine congrArg (Program.bind _) (funext fun x => ?_)
  simp only [Api.ending, getDb, sessionScope, M.except, Program.bind_assoc, Program.ret_bind]

omit [Field S] [LinearOrder S] [FloorRing S] in
theorem ending_error (e : Err) (σ : Session S) (tickets : List (Tracked Ticket)) :
    Api.ending (.error e, { σ with tickets }) = Api.ending (.error e, σ) := rfl

omit [Field S] [LinearOrder S] [FloorRing S] in
theorem ending_heeds (hc : Drawn home org c) (x : Except Err Response × Session S) :
    (Api.ending x).Heeds (tenancy home org c) := by
  have hclosed : ∀ y : Except Err Response × Session S, Program.Heeds (tenancy home org c)
      (((close y.2).bind fun z => (.ret (y.1, z.2) : Program (Op S) Res _)).bind
        fun y => .ret (Outcome.response (respond y.1))) :=
    fun y => ⟨⟨hc, Or.inl trivial⟩, fun _ _ => trivial, fun _ _ hmask => hmask.elim⟩
  obtain ⟨e | r, σ⟩ := x
  · refine ⟨⟨hc, Or.inl trivial⟩, fun r _ => ?_, fun _ _ hmask => hmask.elim⟩
    cases r with
    | error e' => exact hclosed (.error e', _)
    | ok _ => exact hclosed (.error e, _)
  · exact hclosed (.ok r, σ)

/-- What a lookup of a ticket returns and leaves in a new session. -/
def found (organizationId : Uuid) (σ : Session S) :
    Except Err (Option Ticket) → Except Err Ticket × Session S
  | .error e => (.error e, σ)
  | .ok none => (.error (.notFound "Ticket not found"), σ)
  | .ok (some t) =>
    (if t.organizationId ≠ organizationId then .error (.notFound "Ticket not found") else .ok t,
      { σ with tickets := [⟨t, t⟩] })

omit [Field S] [LinearOrder S] [FloorRing S] in
theorem getTicket_start : TicketService.getTicket organizationId id (.start c : Session S) =
    .call (.query (.ticket id)) fun r => .ret (found organizationId (.start c) r) := by
  refine congrArg (Program.call (Op.query (.ticket id))) (funext fun r => ?_)
  cases r with
  | error e => rfl
  | ok row =>
    cases row with
    | none => rfl
    | some t =>
      change (if t.organizationId ≠ organizationId then M.raise (.notFound "Ticket not found")
        else Pure.pure t : M S Ticket) { Session.start c with tickets := [⟨t, t⟩] } = _
      simp only [found]
      split <;> rfl

omit [Field S] [LinearOrder S] [FloorRing S] in
/-- A request for a ticket of another organization goes on as if there was none. -/
theorem foreign_heeds (hc : Drawn home org c) (hid : home ⟨.ticket, id⟩ ≠ some (org c)) {p : M S Response}
    {f : Except Err Ticket × Session S → Program (Op S) Res (Except Err Response × Session S)}
    (hp : p (.start c) = (TicketService.getTicket (org c) id (.start c)).bind f)
    (hf : ∀ e, ∃ e', ∀ σ, f (.error e, σ) = .ret (.error e', σ)) :
    ((p (.start c)).bind Api.ending).Heeds (tenancy home org c) := by
  have hfail : ∀ e (σ : Session S), ((f (.error e, σ)).bind Api.ending).Heeds (tenancy home org c) := by
    intro e σ
    obtain ⟨e', he'⟩ := hf e
    rw [he']
    exact ending_heeds hc _
  rw [hp, getTicket_start, Program.call_bind, Program.call_bind]
  refine ⟨⟨hc, Or.inr ⟨id, rfl⟩⟩, fun r hr => ?_, fun r r' hmask => ?_⟩
  · obtain ⟨hfits, hheld⟩ := hr
    obtain e | _ | t := r
    · exact hfail e _
    · exact hfail _ _
    · have hknows := (knows_homeKeys hc).mp (hheld (.ticket t) rfl).key
      have ht : t.id = id := hfits
      subst ht
      exact absurd hknows hid
  · obtain e | _ | t := r
    · exact hmask.elim
    · exact hmask.elim
    · obtain e | _ | t' := r'
      · exact hmask.elim
      · obtain ⟨e', he'⟩ := hf (.notFound "Ticket not found")
        have hleft : found (org c) (.start c : Session S) (.ok (some t)) =
            (.error (.notFound "Ticket not found"), { Session.start c with tickets := [⟨t, t⟩] }) := by
          rw [found, if_pos hmask.2]
        change (f (found (org c) (.start c) (.ok (some t)))).bind Api.ending =
          (f (.error (.notFound "Ticket not found"), .start c)).bind Api.ending
        rw [hleft, he', he']
        exact ending_error e' (.start c) [⟨t, t⟩]
      · exact hmask.elim

omit [Field S] [LinearOrder S] [FloorRing S] in
theorem sessionScope_stays {p : M S α} {R : α → Set RowKey → Prop}
    (hp : p.Stays organizationId c known R) (hR : ∀ a known₁ known₂, known₁ ⊆ known₂ → R a known₁ → R a known₂) :
    (sessionScope p).Stays organizationId c known R := by
  intro known₁ σ hle hσ
  unfold M.Triple sessionScope
  rw [Program.obeys_bind]
  refine Program.obeys_mono (hp known₁ σ hle hσ) fun x known' hx => ?_
  obtain ⟨_ | a, σ'⟩ := x
  · exact ⟨trivial, fun _ known'' h => ⟨hx.1.trans h.1, (hx.2.mono h.1).expired⟩⟩
  · refine ⟨trivial, fun _ known'' h => ⟨hx.1.trans h.1, (hx.2.1.mono h.1).expired, ?_⟩⟩
    exact hR a known' known'' h.1 hx.2.2

/-- A caller's request for a ticket of another organization. -/
theorem handle_foreign (hc : Drawn home org c) (action : Api.Action) {u : User}
    (hu : u.organizationId = org c) (haction : action.ticketId? = some id)
    (hid : home ⟨.ticket, id⟩ ≠ some (org c)) :
    ((action.handle cfg (.support cfg) u (.start c)).bind Api.ending).Heeds (tenancy home org c) := by
  have load_foreign : ∀ k : Ticket → M S Response,
      (((Api.load u.organizationId id >>= k) (.start c)).bind Api.ending).Heeds
        (tenancy home org c) := by
    intro k
    refine foreign_heeds hc hid ((Program.bind_assoc _ _ _).trans (by rw [hu])) fun e => ?_
    cases e <;> exact ⟨_, fun _ => rfl⟩
  cases action with
  | getTicket id' =>
    cases haction
    exact load_foreign _
  | listTicketEvents id' =>
    cases haction
    refine foreign_heeds hc hid ((Program.bind_assoc _ _ _).trans ((Program.bind_assoc
      (TicketService.getTicket u.organizationId id (.start c)) _ _).trans (by rw [hu]))) fun e => ?_
    cases e <;> exact ⟨_, fun _ => rfl⟩
  | runWorkflow id' =>
    cases haction
    exact load_foreign _
  | approve id' body =>
    cases haction
    exact load_foreign _
  | reject id' body =>
    cases haction
    exact load_foreign _
  | editDraft id' body =>
    cases haction
    exact load_foreign _
  | _ => cases haction

/-- The session of a job keeps to the organization that the job acts for. -/
theorem program_heeds (hc : Drawn home org c) {job : Job} (hjob : job.ActsFor (homeKeys home (org c))) :
    (Job.program cfg (.support cfg) job c).Heeds (tenancy home org c) := by
  have hstart : Homed (org c) c (homeKeys home (org c)) (.start c : Session S) := .start
  cases job with
  | runAgent runId =>
    have hscope : (sessionScope (AgentRunService.executeRun cfg (.support cfg) runId)).Stays (org c) c
        (homeKeys home (org c)) fun _ _ => True :=
      sessionScope_stays (executeRun_stays (Or.inl hjob)) fun _ _ _ _ h => h
    have htask : (Tasks.runAgent cfg (.support cfg) runId).Stays (org c) c (homeKeys home (org c))
        fun _ _ => True := hscope.bind fun _ _ _ _ => .pure fun _ _ => trivial
    exact htask.heeds hc hstart fun x _ => trivial
  | deliverWebhook deliveryId retries =>
    have hscope : (sessionScope (WebhookService.deliverOnce cfg deliveryId true)).Stays (org c) c
        (homeKeys home (org c)) fun _ _ => True :=
      sessionScope_stays (deliverOnce_stays (Or.inl hjob) true) fun _ _ _ _ h => h
    have htask : (Tasks.deliverWebhook cfg deliveryId retries).Stays (org c) c (homeKeys home (org c))
        fun _ _ => True :=
      hscope.bind fun _ _ _ _ => .ite (.pure fun _ _ => trivial) (.pure fun _ _ => trivial)
    exact htask.heeds hc hstart fun x _ => trivial
  | request r =>
    rw [request_program]
    cases r with
    | register body => exact hjob.elim
    | login body => exact hjob.elim
    | refresh body =>
      have hrefresh : (Api.refresh cfg body).Stays (org c) c (homeKeys home (org c)) fun _ _ => True :=
        (refresh_stays fun id hid => Or.inl (hjob id hid)).catching.bind fun _ _ _ _ =>
          .pure fun _ _ => trivial
      exact hrefresh.heeds hc hstart fun x _ => ending_heeds hc x
    | authenticated creds action =>
      change Program.Heeds (tenancy home org c) (((requireRole cfg action.allowed creds >>= fun current =>
        action.handle cfg (.support cfg) current) (.start c)).bind Api.ending)
      rw [M.bind_apply, Program.bind_assoc]
      refine Program.heeds_bind (tenant_ensures hc) (requireRole_tenant action.allowed
        fun token id htoken hid => Or.inl (hjob token id htoken hid)) fun x hx => ?_
      obtain ⟨e | u, σ⟩ := x
      · exact ending_heeds hc _
      · obtain ⟨rfl, hu⟩ := hx
        by_cases hid : ∀ id, action.ticketId? = some id → home ⟨.ticket, id⟩ = some (org c)
        · exact (handle_stays action hu fun id h => Or.inl (hid id h)).heeds hc hstart
            fun x _ => ending_heeds hc x
        · push Not at hid
          obtain ⟨id, haction, hforeign⟩ := hid
          exact handle_foreign hc action hu haction hforeign

end

end AgentDesk
