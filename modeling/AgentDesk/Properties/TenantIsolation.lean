import AgentDesk.Logic.Callers
import AgentDesk.Logic.Portrait
import AgentDesk.Api.Operations

namespace AgentDesk

open Framework (Program Pool Event purge)

variable {S : Type} {cfg : Config S} {workflow : Workflow S} {org : Nat → Uuid}
  {organizationId : Uuid} {db db' : DB S} {c : Nat} {k : RowKey} {place : Place}

/-! Rows and their organizations -/

/-- Only sessions that have begun have rows. -/
theorem Kept.begun {J α : Type} {s : Pool J (Op S) Res α (World S)} (h : Kept s) {i : Nat}
    (hdb : s.world.versions[i]? = some db) (hplace : db.placeOf k = some place) :
    k.id.session < s.threads.length := by
  induction i generalizing db place with
  | zero =>
    rw [World.getElem?_extended h.sane.first (x := .empty) rfl] at hdb
    cases hdb
    obtain ⟨entity, id⟩ := k
    cases entity <;> cases hplace
  | succ i ih =>
    obtain ⟨commit, mid, hcommit, hmid⟩ := h.sane.before hdb
    obtain ⟨rfl, -⟩ := h.sane.step i commit mid db hcommit hmid hdb
    rcases placeOf_applied hplace with hold | ⟨row, hrow, rfl, -⟩
    · exact ih hmid hold
    · have hmem := List.mem_of_getElem? hcommit
      have hown : row.id.session = commit.session :=
        beq_iff_eq.mp (List.all_eq_true.mp (h.owned commit hmem) _ hrow)
      change row.id.session < s.threads.length
      rw [hown]
      by_contra hlt
      have hnone := h.committed commit.session
      rw [(h.fresh commit.session (not_lt.mp hlt)).2] at hnone
      have hempty : s.world.commitsOf commit.session = [] := List.map_eq_nil_iff.mp hnone.symm
      have hin : commit ∈ s.world.commitsOf commit.session := by
        simpa [World.commitsOf] using hmem
      rw [hempty] at hin
      cases hin

section

variable [Field S] [LinearOrder S] [FloorRing S]

theorem housed_version {events : List (Event Job (Reply S))} {i : Nat}
    (hdb : (deployment cfg workflow events).world.versions[i]? = some db) : db.Housed :=
  (deployment_explained (C := fun _ _ => True) cfg workflow events
    (Pool.meets_of_forall (fun _ _ _ _ _ _ _ => trivial) events)).housed hdb

/-- In every run each committed row is filed under the organization of the row that it belongs to,
and stays there. -/
theorem deployment_filed (cfg : Config S) (workflow : Workflow S)
    (events : List (Event Job (Reply S))) (i j : Nat) (db db' : DB S) (hij : i ≤ j)
    (hdb : (deployment cfg workflow events).world.versions[i]? = some db)
    (hdb' : (deployment cfg workflow events).world.versions[j]? = some db') (k : RowKey)
    (place : Place) (hplace : db.placeOf k = some place) :
    db'.placeOf k = some place ∧ ∀ parent, place.parent? = some parent →
      ∃ place', db.placeOf parent = some place' ∧ db'.placeOf parent = some place' ∧
        place'.organization? = place.organization? := by
  have hkept : Kept (deployment cfg workflow events) := deployment_kept
  have hsane := hkept.sane
  refine ⟨hsane.placeOf hij hdb hdb' hplace, fun parent hparent => ?_⟩
  obtain ⟨place', hplace', horg⟩ := housed_version hdb k place parent hplace hparent
  exact ⟨place', hplace', hsane.placeOf hij hdb hdb' hplace', horg⟩

/-- The event of the ticket that session 1 created, when it is new and after a run on the ticket. -/
theorem draftedTicket_filed : ∃ db db',
    (deployment .plain helpfulDraft draftedTicket).world.versions[2]? = some db ∧
      (deployment .plain helpfulDraft draftedTicket).world.versions[4]? = some db' ∧
        db'.placeOf ⟨.ticketEvent, ⟨1, 1⟩⟩ = some ⟨some ⟨0, 0⟩, some ⟨.ticket, ⟨1, 0⟩⟩⟩ ∧
          ∃ place', db.placeOf ⟨.ticket, ⟨1, 0⟩⟩ = some place' ∧
            db'.placeOf ⟨.ticket, ⟨1, 0⟩⟩ = some place' ∧ place'.organization? = some ⟨0, 0⟩ := by
  obtain ⟨db, hdb⟩ := Option.isSome_iff_exists.mp
    (by decide +kernel : ((deployment .plain helpfulDraft draftedTicket).world.versions[2]?).isSome = true)
  obtain ⟨db', hdb'⟩ := Option.isSome_iff_exists.mp
    (by decide +kernel : ((deployment .plain helpfulDraft draftedTicket).world.versions[4]?).isSome = true)
  have hplace : ((deployment .plain helpfulDraft draftedTicket).world.versions[2]?).bind
      (·.placeOf ⟨.ticketEvent, ⟨1, 1⟩⟩) = some ⟨some ⟨0, 0⟩, some ⟨.ticket, ⟨1, 0⟩⟩⟩ := by
    decide +kernel
  rw [hdb, Option.bind_some] at hplace
  obtain ⟨hstays, hparent⟩ := deployment_filed .plain helpfulDraft draftedTicket 2 4 db db' (by decide)
    hdb hdb' _ _ hplace
  exact ⟨db, db', hdb, hdb', hstays, hparent _ rfl⟩

/-! Organizations that do not notice each other -/

/-- The organization of a key: that of its row or, where there is none, that of its session. -/
def DB.homes (db : DB S) (org : Nat → Uuid) (k : RowKey) : Option Uuid :=
  ((db.placeOf k).map Place.organization?).getD (some (org k.id.session))

omit [Field S] [LinearOrder S] [FloorRing S] in
theorem DB.Housed.settled (h : db.Housed) (org : Nat → Uuid) : db.Settled (db.homes org) := by
  have hhome : ∀ k place, db.placeOf k = some place → db.homes org k = place.organization? := by
    intro k place hplace
    rw [DB.homes, hplace, Option.map_some, Option.getD_some]
  refine ⟨fun k place hplace => (hhome k place hplace).symm, fun k place parent hplace hparent => ?_⟩
  obtain ⟨place', hplace', horg⟩ := h k place parent hplace hparent
  rw [hhome k place hplace, hhome parent place' hplace', horg]

omit [Field S] [LinearOrder S] [FloorRing S] in
/-- The deployment of the organization alone, at the point at which others have come to. -/
def Pool.aloneFrom {J α : Type} (s : Pool J (Op S) Res α (World S)) (org : Nat → Uuid)
    (organizationId : Uuid) : Pool J (Op S) Res α (World S) :=
  ⟨s.world.onlyOf (s.world.db.homes org) org organizationId, s.threads⟩

/-- In `t` the organization has what it has in `s`, its sessions stand where they stand in `s`, and
they asked for the same; there is nothing else in `t`. -/
structure AsIfAlone (home : RowKey → Option Uuid) (org : Nat → Uuid) (organizationId : Uuid)
    (s t : Pool Job (Op S) Res Outcome (World S)) : Prop where
  sessions : ∀ i, org i = organizationId → t.threads[i]? = s.threads[i]?
  calls : ∀ i, org i = organizationId →
    (t.world.callsOf i).map Sigma.fst = (s.world.callsOf i).map Sigma.fst
  rows : t.world.db = s.world.db.rowsOf organizationId
  messages : t.world.tasks = s.world.tasks.filter fun task => home task.key == some organizationId

/-- Requests and tasks of any number of organizations, in any order and with any failures: to the
sessions of one organization it makes no difference what the others have and do. -/
theorem deployment_isolates (cfg : Config S) (before after : List (Event Job (Reply S)))
    (org : Nat → Uuid) (organizationId : Uuid)
    (hidle : (deployment cfg (.support cfg) before).world.txs = [])
    (hrest : (deployment cfg (.support cfg) before).resting = true)
    (hjobs : ∀ i (job : Job), (Pool.spawned after)[i]? = some job →
      job.ActsFor (homeKeys ((deployment cfg (.support cfg) before).world.db.homes org)
        (org ((deployment cfg (.support cfg) before).threads.length + i)))) :
    AsIfAlone ((deployment cfg (.support cfg) before).world.db.homes org) org organizationId
      (deployment cfg (.support cfg) (before ++ after))
      (Pool.run (server cfg.platform) (Job.program cfg (.support cfg))
        (Pool.aloneFrom (deployment cfg (.support cfg) before) org organizationId)
        (purge (fun i => org i == organizationId) after)) := by
  have hkept : Kept (deployment cfg (.support cfg) before) := deployment_kept
  have hhoused : (deployment cfg (.support cfg) before).world.db.Housed :=
    housed_version World.versions_last
  have hdrawn : ∀ i, (deployment cfg (.support cfg) before).threads.length ≤ i →
      Drawn ((deployment cfg (.support cfg) before).world.db.homes org) org i := by
    intro i hi k hk
    subst hk
    cases hplace : (deployment cfg (.support cfg) before).world.db.placeOf k with
    | none => rw [DB.homes, hplace, Option.map_none, Option.getD_none]
    | some place => exact absurd (hkept.begun World.versions_last hplace) (not_lt.mpr hi)
  have hstart : Pool.Purged (tenancy ((deployment cfg (.support cfg) before).world.db.homes org) org)
      (fun i => org i == organizationId)
      (fun w v => w.Portrays ((deployment cfg (.support cfg) before).world.db.homes org) org
        organizationId v ∧ ∀ c, w.Sound c)
      (deployment cfg (.support cfg) before)
      (Pool.aloneFrom (deployment cfg (.support cfg) before) org organizationId) :=
    ⟨⟨World.portrays_onlyOf (hhoused.settled org) hidle, hkept.sane.sound⟩, rfl, fun _ _ => rfl,
      fun _ _ _ hp => Pool.heeds_of_resting hrest hp⟩
  have hrun := Pool.purged_run (Job.program cfg (.support cfg))
    (unwinds_portrays cfg.platform _ org organizationId) after hstart fun i job hi hjob => by
      rw [List.getElem?_append_right (by simpa using hi), List.length_map] at hjob
      have hacts := hjobs _ job hjob
      rw [Nat.add_sub_cancel' hi] at hacts
      exact program_heeds (hdrawn i hi) hacts
  have hwhole : (deployment cfg (.support cfg) before).run (server cfg.platform)
      (Job.program cfg (.support cfg)) after = deployment cfg (.support cfg) (before ++ after) := by
    rw [deployment, deployment, Pool.run, Pool.run, Pool.run, List.foldl_append]
  rw [hwhole] at hrun
  exact ⟨fun i hi => hrun.threads i (beq_iff_eq.mpr hi), hrun.world.1.ops, hrun.world.1.db,
    hrun.world.1.tasks⟩

end

/-! Two organizations -/

def initechToken : Token :=
  .signed "change-me-in-production" ⟨some ⟨1, 1⟩, some .access, 0, 1800, none, none⟩

/-- Sessions 0 and 1 register two organizations. -/
def twoOrganizations : List (Event Job (Reply ℚ)) :=
  registration ++
    .spawn (.request (.register ⟨"initech", "admin@initech.com", "passphrase", by decide, by decide⟩)) ::
      calls 1 10

/-- Session 2 creates a ticket of the first one, and session 3 asks for it in the name of the
other. -/
def strangersTicket : List (Event Job (Reply ℚ)) :=
  [.spawn .createHelp, .spawn (.request (.authenticated (some initechToken) (.getTicket ⟨2, 0⟩)))] ++
    calls 2 4 ++ calls 3 2 ++ calls 2 6 ++ calls 3 4

def organizationOf (i : Nat) : Uuid := if i = 1 ∨ i = 3 then ⟨1, 0⟩ else ⟨0, 0⟩

theorem strangersTicket_isolated : AsIfAlone
    ((deployment .plain (.support .plain) twoOrganizations).world.db.homes organizationOf) organizationOf
    ⟨1, 0⟩ (deployment .plain (.support .plain) (twoOrganizations ++ strangersTicket))
    (Pool.run (server .plain) (Job.program .plain (.support .plain))
      (Pool.aloneFrom (deployment .plain (.support .plain) twoOrganizations) organizationOf ⟨1, 0⟩)
      (purge (fun i => organizationOf i == ⟨1, 0⟩) strangersTicket)) := by
  refine deployment_isolates .plain twoOrganizations strangersTicket organizationOf ⟨1, 0⟩
    (List.isEmpty_iff.mp (by decide +kernel)) (by decide +kernel) fun i job hjob => ?_
  have hlen : (deployment .plain (.support .plain) twoOrganizations).threads.length = 2 := by
    decide +kernel
  have hacme : (deployment .plain (.support .plain) twoOrganizations).world.db.homes organizationOf
      ⟨.user, ⟨0, 1⟩⟩ = some ⟨0, 0⟩ := by decide +kernel
  have hinitech : (deployment .plain (.support .plain) twoOrganizations).world.db.homes organizationOf
      ⟨.user, ⟨1, 1⟩⟩ = some ⟨1, 0⟩ := by decide +kernel
  rw [hlen]
  have hspawned : Pool.spawned strangersTicket =
      [.createHelp, .request (.authenticated (some initechToken) (.getTicket ⟨2, 0⟩))] := rfl
  rw [hspawned] at hjob
  match i, hjob with
  | 0, hjob =>
    cases hjob
    intro token id htoken hid
    cases htoken
    cases hid
    exact hacme
  | 1, hjob =>
    cases hjob
    intro token id htoken hid
    cases htoken
    cases hid
    exact hinitech
  | i + 2, hjob => cases hjob

/-- The stranger is told that there is no such ticket. -/
example : ((deployment .plain (.support .plain) (twoOrganizations ++ strangersTicket)).threads[3]?).map
    (fun x => match x.2 with
      | some (.ret o) => some o
      | _ => none) = some (some (.response ⟨404, .detail "Ticket not found"⟩)) := by decide +kernel

end AgentDesk
