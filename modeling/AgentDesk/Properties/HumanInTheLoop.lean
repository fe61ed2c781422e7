import AgentDesk.Logic.Provenance

namespace AgentDesk

open Framework (Pool Event Table)

variable {S : Type} {cfg : Config S} {jobs : Nat → Option Job}
  {C : List (DB S) → Commit S → Prop} {w : World S} {i j : Nat} {db db' : DB S}

/-- User `u` was authenticated by the request of some session and approved this ticket. -/
structure ApprovedBy (cfg : Config S) (jobs : Nat → Option Job) (w : World S) (t : Ticket)
    (u : User) : Prop where
  event : ∃ e ∈ w.db.ticketEvents.rows, e.ticketId = t.id ∧ e.eventType = "approved" ∧
    e.actorUserId = some u.id
  audit : ∃ a ∈ w.db.auditLogs.rows, a.event = .responseApproved ∧ a.targetType = some "ticket" ∧
    a.targetId = some t.id.str ∧ a.actorUserId = some u.id
  stored : u ∈ w.db.users.rows
  active : u.isActive = true
  role : u.role = .admin ∨ u.role = .operator
  organization : u.organizationId = t.organizationId
  token : ∃ c job claims now, jobs c = some job ∧
    job.creds = some (.signed cfg.settings.jwtSecret claims) ∧ claims.type = some .access ∧
      claims.sub = some u.id ∧ ⟨c, .clock, now⟩ ∈ w.calls ∧ now / 1000000 ≤ claims.exp

/-- Some commit before version `i` approved the ticket. -/
def World.Approval (cfg : Config S) (jobs : Nat → Option Job) (w : World S) (i : Nat)
    (t : Ticket) : Prop :=
  ∃ j < i, ∃ commit job s t₀ p, w.commits[j]? = some commit ∧
    Ledger.Explains cfg jobs (w.versions.take (j + 1)) w.calls commit job s ∧
      s.Approves cfg job.creds t₀ p ∧ t₀.id = t.id ∧ t₀.organizationId = t.organizationId

/-- A final response is never blank and has an approval behind it, and an approved ticket has
a final response. -/
def World.Decided (cfg : Config S) (jobs : Nat → Option Job) (w : World S) (i : Nat)
    (db : DB S) : Prop :=
  ∀ t ∈ db.tickets.rows, (t.status = .approved → t.finalResponse ≠ none) ∧
    ∀ f, t.finalResponse = some f → isBlank f = false ∧ w.Approval cfg jobs i t

/-- A final response is never taken back. -/
def DB.Keeps (db db' : DB S) : Prop :=
  ∀ t ∈ db.tickets.rows, t.finalResponse ≠ none →
    ∃ t' ∈ db'.tickets.rows, t'.id = t.id ∧ t'.finalResponse ≠ none

namespace DB

theorem Keeps.refl (db : DB S) : db.Keeps db := fun t ht hf => ⟨t, ht, rfl, hf⟩

theorem Keeps.trans {db₁ db₂ db₃ : DB S} (h : db₁.Keeps db₂) (k : db₂.Keeps db₃) :
    db₁.Keeps db₃ := by
  intro t ht hf
  obtain ⟨t₂, h₂, hid, hf₂⟩ := h t ht hf
  obtain ⟨t₃, h₃, hid', hf₃⟩ := k t₂ h₂ hf₂
  exact ⟨t₃, h₃, hid'.trans hid, hf₃⟩

end DB

namespace Ledger

variable {s : Ledger S} {t : Ticket} {p : TicketPatch} {job : Job} {c : Nat}

theorem Change.final_cases (h : s.Change cfg job t p) :
    p.finalResponse = none ∨ ∃ f, p.finalResponse = some (some f) := by
  cases hp : p.finalResponse with
  | none => exact Or.inl rfl
  | some x =>
    obtain ⟨u, f, -, -, -, -, hf, -⟩ := h.approval (h.final (by simp [hp]))
    rw [hp] at hf
    exact Or.inr ⟨f, by simpa using hf⟩

/-- A warranted statement takes no final response back. -/
theorem Warrants.keeps {x : Write S} (h : s.Warrants cfg job c x) (start : Time) :
    db.Keeps (x.apply start db) := by
  cases x with
  | insert row =>
    cases row <;> first
      | exact .refl db
      | exact fun t ht hf => ⟨t, Table.mem_insert_of_mem ht, rfl, hf⟩
  | updateTicket id p =>
    obtain ⟨t₀, -, hchange⟩ := h
    intro t ht hf
    refine ⟨if t.id = id then { p.apply t with updatedAt := start } else t,
      List.mem_map.mpr ⟨t, ht, rfl⟩, ?_, ?_⟩
    · split <;> rfl
    · split
      · obtain hp | ⟨f, hp⟩ := hchange.final_cases <;> simp [hp, hf]
      · exact hf
  | _ => exact .refl db

end Ledger

namespace World

theorem Explained.keeps (h : w.Explained cfg jobs C) (hij : i ≤ j)
    (hdb : w.versions[i]? = some db) (hdb' : w.versions[j]? = some db') : db.Keeps db' := by
  induction j, hij using Nat.le_induction generalizing db' with
  | base =>
    rw [hdb] at hdb'
    cases hdb'
    exact .refl db
  | succ j hij ih =>
    obtain ⟨commit, mid, hcommit, hmid⟩ := h.sane.before hdb'
    obtain ⟨rfl, -⟩ := h.sane.step j commit mid db' hcommit hmid hdb'
    obtain ⟨job, s, he⟩ := h.commits j commit hcommit
    refine (ih hmid).trans (applyAll_induction (.refl mid) ?_)
    intro x hx db₁ hk
    exact hk.trans ((he.warranted x hx).keeps commit.start)

theorem Approval.mono {t : Ticket} (h : w.Approval cfg jobs i t) (hij : i ≤ j) :
    w.Approval cfg jobs j t := by
  obtain ⟨k, hk, rest⟩ := h
  exact ⟨k, lt_of_lt_of_le hk hij, rest⟩

theorem Approval.congr {t t' : Ticket} (h : w.Approval cfg jobs i t) (hid : t'.id = t.id)
    (horg : t'.organizationId = t.organizationId) : w.Approval cfg jobs i t' := by
  obtain ⟨k, hk, commit, job, s, t₀, p, hc, he, ha, h₀, h₀'⟩ := h
  exact ⟨k, hk, commit, job, s, t₀, p, hc, he, ha, h₀.trans hid.symm, h₀'.trans horg.symm⟩

theorem Decided.mono (h : w.Decided cfg jobs i db) (hij : i ≤ j) : w.Decided cfg jobs j db :=
  fun t ht => ⟨(h t ht).1, fun f hf => ⟨((h t ht).2 f hf).1, ((h t ht).2 f hf).2.mono hij⟩⟩

/-- The row that a session had read is still the row it updates, up to what may change. -/
theorem Explained.read {commit : Commit S} {job : Job} {s : Ledger S} {id : Uuid} {t₀ : Ticket}
    (h : w.Explained cfg jobs C) (hdb : w.versions[j]? = some db)
    (he : s.Explains cfg jobs (w.versions.take (j + 1)) w.calls commit job)
    (hrow : s.row id = some t₀) : ∃ db₀ : DB S, db₀.Grows db ∧ db₀.Keeps db ∧ t₀ ∈ db₀.tickets.rows ∧
      t₀.id = id := by
  obtain ⟨db₀, hdb₀, hfind⟩ := he.rows id t₀ hrow
  have hseen : commit.seen id ≤ j := by
    have := (List.getElem?_eq_some_iff.mp hdb₀).1
    simp at this
    omega
  rw [List.getElem?_take_of_lt (by omega)] at hdb₀
  obtain ⟨hmem, hid⟩ := Table.find?_eq_some.mp hfind
  exact ⟨db₀, h.sane.grows hseen hdb₀ hdb, h.keeps hseen hdb₀ hdb, hmem, hid⟩

/-- One statement of a commit keeps the tickets decided by humans only. -/
theorem Explained.decided_apply {commit : Commit S} {job : Job} {s : Ledger S} {x : Write S}
    {db₁ : DB S} (h : w.Explained cfg jobs C) (hcommit : w.commits[j]? = some commit)
    (hdb : w.versions[j]? = some db)
    (he : s.Explains cfg jobs (w.versions.take (j + 1)) w.calls commit job)
    (hx : x ∈ commit.writes) (hgrows : db.Grows db₁) (hkeeps : db.Keeps db₁)
    (hdec : w.Decided cfg jobs (j + 1) db₁) :
    w.Decided cfg jobs (j + 1) (x.apply commit.start db₁) := by
  have hw := he.warranted x hx
  cases x with
  | insert row =>
    cases row with
    | ticket t =>
      intro t' ht'
      obtain ht' | rfl := Table.mem_insert ht'
      · exact hdec t' ht'
      · simp [hw.1, hw.2]
    | _ => exact hdec
  | updateTicket id p =>
    obtain ⟨t₀, hrow, hchange⟩ := hw
    obtain ⟨db₀, hg₀, hk₀, hmem₀, hid₀⟩ := h.read hdb he hrow
    intro t' ht'
    obtain ⟨ht', -⟩ | ⟨y, hy, hyid, rfl⟩ := mem_updateTicket.mp ht'
    · exact hdec t' ht'
    have same : ∀ z ∈ db₁.tickets.rows, z.id = t₀.id → z = y := by
      intro z hz hzid
      exact List.inj_on_of_nodup_map db₁.tickets.nodup hz hy ((hzid.trans hid₀).trans hyid.symm)
    have horg : t₀.organizationId = y.organizationId := by
      obtain ⟨z, hz, hzid, hzorg⟩ := (hg₀.trans hgrows).tickets t₀ hmem₀
      rw [← same z hz hzid, hzorg]
    have hkept : t₀.finalResponse ≠ none → y.finalResponse ≠ none := by
      intro hf
      obtain ⟨z, hz, hzid, hzf⟩ := (hk₀.trans hkeeps) t₀ hmem₀ hf
      rwa [← same z hz hzid]
    have approval : p.status = some .approved → w.Approval cfg jobs (j + 1) y := fun hp =>
      ⟨j, Nat.lt_succ_self j, commit, job, s, t₀, p, hcommit, he, hchange.approval hp,
        hid₀.trans hyid.symm, horg⟩
    refine ⟨fun hst => ?_, fun f hf => ?_⟩
    · simp only [TicketPatch.apply_status, TicketPatch.apply_finalResponse] at hst ⊢
      cases hp : p.status with
      | none =>
        have hnone : p.finalResponse = none := by
          by_contra hf
          exact absurd (hchange.final hf) (by simp [hp])
        rw [hp] at hst
        simpa [hnone] using (hdec y hy).1 hst
      | some st =>
        obtain rfl : st = .approved := by simpa [hp] using hst
        obtain ⟨u, final, -, -, -, -, hfinal, -⟩ := hchange.approval hp
        cases hpf : p.finalResponse with
        | none =>
          rw [hpf, Option.getD_none] at hfinal
          exact hkept (by simp [hfinal])
        | some g =>
          rw [hpf, Option.getD_some] at hfinal
          simp [hfinal]
    · simp only [TicketPatch.apply_finalResponse] at hf
      cases hpf : p.finalResponse with
      | none =>
        rw [hpf] at hf
        obtain ⟨hblank, happ⟩ := (hdec y hy).2 f hf
        exact ⟨hblank, happ.congr rfl rfl⟩
      | some g =>
        rw [hpf] at hf
        have hp : p.status = some .approved := hchange.final (by simp [hpf])
        obtain ⟨u, final, -, -, -, hblank, hfinal, -⟩ := hchange.approval hp
        rw [hpf] at hfinal
        obtain rfl : final = f := by simpa using hfinal.symm.trans hf
        exact ⟨hblank, (approval hp).congr rfl rfl⟩
  | _ => exact hdec

/-- Every committed version is decided by humans only. -/
theorem Explained.decided (h : w.Explained cfg jobs C) (hdb : w.versions[i]? = some db) :
    w.Decided cfg jobs i db := by
  induction i generalizing db with
  | zero =>
    rw [getElem?_extended h.sane.first (x := .empty) rfl] at hdb
    cases hdb
    intro t ht
    simp [DB.empty] at ht
  | succ j ih =>
    obtain ⟨commit, mid, hcommit, hmid⟩ := h.sane.before hdb
    obtain ⟨rfl, -⟩ := h.sane.step j commit mid db hcommit hmid hdb
    obtain ⟨job, s, he⟩ := h.commits j commit hcommit
    have hall := @applyAll_induction S commit.start _
      (fun db₁ => w.Decided cfg jobs (j + 1) db₁ ∧ mid.Grows db₁ ∧ mid.Keeps db₁) commit.writes
      ⟨(ih hmid).mono (Nat.le_succ j), .refl mid, .refl mid⟩ ?_
    · exact hall.1
    · rintro x hx db₁ ⟨hdec, hgrows, hkeeps⟩
      exact ⟨h.decided_apply hcommit hmid he hx hgrows hkeeps hdec,
        hgrows.trans (DB.grows_apply x), hkeeps.trans ((he.warranted x hx).keeps commit.start)⟩

/-- An approval leaves its event, its audit row and its approver behind. -/
theorem Explained.approvedBy {t : Ticket} (h : w.Explained cfg jobs C)
    (ha : w.Approval cfg jobs (w.past.length) t) : ∃ u, ApprovedBy cfg jobs w t u := by
  obtain ⟨j, hj, commit, job, s, t₀, p, hcommit, he, ⟨u, final, hauth, hrole, horg, -, -, hrec⟩,
    hid, horg₀⟩ := ha
  obtain ⟨⟨e, he_mem, he_id, he_type, he_actor⟩, a, ha_mem, ha_event, ha_type, ha_id, ha_actor⟩ :=
    hrec
  have hlen : w.versions.length = w.past.length + 1 := versions_length
  obtain ⟨db, hdb⟩ : ∃ db, w.versions[j]? = some db :=
    ⟨_, List.getElem?_eq_getElem (by omega)⟩
  obtain ⟨db', hdb'⟩ : ∃ db', w.versions[j + 1]? = some db' :=
    ⟨_, List.getElem?_eq_getElem (by omega)⟩
  obtain ⟨rfl, habsent⟩ := h.sane.step j commit db db' hcommit hdb hdb'
  have hgrows := h.sane.grows (by omega : j + 1 ≤ w.past.length) hdb' versions_last
  rw [he.writes] at he_mem ha_mem
  have hevent := (stored_of_mem habsent he_mem).grows hgrows
  have haudit := (stored_of_mem habsent ha_mem).grows hgrows
  obtain ⟨dbᵤ, hmem, hu⟩ := he.user u hauth.read
  obtain ⟨k, hk⟩ := List.mem_iff_getElem?.mp (List.mem_of_mem_take hmem)
  have hkle : k ≤ w.past.length := by
    have := (List.getElem?_eq_some_iff.mp hk).1
    omega
  obtain ⟨claims, hcreds, htype, hsub, now, hnow, hexp⟩ := hauth.token
  exact ⟨u, ⟨_, hevent, he_id.trans hid, he_type, he_actor⟩,
    ⟨_, haudit, ha_event, ha_type, by rw [ha_id, hid], ha_actor⟩,
    (h.sane.grows hkle hk versions_last).users u hu, hauth.active, hrole, horg.trans horg₀,
    commit.session, job, claims, now, he.assigned, hcreds, htype, hsub, he.clocks now hnow, hexp⟩

end World

/-- A decision on a ticket is a human's: an approved ticket, or one with a final response, has
a response that is not blank and a user who approved it, and no session that executes a run
ever wrote a final response or moved a ticket to approved or rejected. -/
def HumanInTheLoop (cfg : Config S) (jobs : Nat → Option Job) (w : World S) : Prop :=
  (∀ t ∈ w.db.tickets.rows, t.status = .approved ∨ t.finalResponse ≠ none →
    (∃ final, t.finalResponse = some final ∧ isBlank final = false) ∧
      ∃ u, ApprovedBy cfg jobs w t u) ∧
  ∀ c job, jobs c = some job → job.runs = true → ∀ ws r, ⟨c, .write ws, r⟩ ∈ w.calls →
    ∀ id p, .updateTicket id p ∈ ws →
      p.finalResponse = none ∧ p.status ≠ some .approved ∧ p.status ≠ some .rejected

theorem World.Explained.humanInTheLoop (h : w.Explained cfg jobs C) :
    HumanInTheLoop cfg jobs w := by
  constructor
  · intro t ht hdecided
    obtain ⟨happroved, hfinal⟩ := h.decided World.versions_last t ht
    have hsome : t.finalResponse ≠ none := hdecided.elim happroved id
    obtain ⟨f, hf⟩ := Option.ne_none_iff_exists'.mp hsome
    exact ⟨⟨f, hf, (hfinal f hf).1⟩, h.approvedBy (hfinal f hf).2⟩
  · intro c job hjob hruns ws r hmem id p hp
    obtain ⟨hfinal, hst⟩ :=
      List.forall_iff_forall_mem.mp (h.undecided c ws r job hmem hjob hruns) _ hp
    obtain hst | hst := hst <;> simp [hst, hfinal]

section

variable [Field S] [LinearOrder S] [FloorRing S]

/-- In every interleaving of all requests and tasks, with failures and cut-off sessions
anywhere, for every workflow. -/
theorem deployment_humanInTheLoop (cfg : Config S) (workflow : Workflow S)
    (events : List (Event Job (Reply S))) :
    HumanInTheLoop cfg (fun i => (Pool.spawned events)[i]?)
      (deployment cfg workflow events).world := by
  refine (deployment_explained (C := fun _ _ => True) cfg workflow events ?_).humanInTheLoop
  exact Pool.meets_of_forall (fun _ _ _ _ _ _ _ => trivial) events

end

end AgentDesk
