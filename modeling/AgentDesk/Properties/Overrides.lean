import AgentDesk.Logic.Provenance

namespace AgentDesk

open Framework (Pool Event Table)

variable {S : Type} {cfg : Config S} {jobs : Nat → Option Job} {w w' : World S} {i j c : Nat}
  {db db' : DB S} {id : Uuid}

def DB.statusOf (db : DB S) (id : Uuid) : Option TicketStatus :=
  (db.tickets.find? id).map Ticket.status

/-- The ticket whose status the statement changes, if it does. -/
def Write.moves : Write S → Option Uuid
  | .updateTicket id p => if p.status = none then none else some id
  | _ => none

/-- What the session is about to commit changes the status of a ticket only where the
committed status is still the one it read. -/
def World.unmoved (w : World S) (c : Nat) : Bool :=
  (w.writesOf c).all fun x => x.moves.all fun id =>
    w.db.statusOf id == (w.versions[w.seen c id]?).bind fun db => db.statusOf id

/-- The condition on the steps of a run: a commit moves no ticket that was moved since its
session read it. -/
def CommitsUnmoved (c : Nat) (w : World S) (op : Op S) (_ : Res op) (_ : World S) : Prop :=
  (match op with
  | .commit => w.unmoved c
  | _ => true) = true

instance (c : Nat) (w : World S) (op : Op S) (r : Res op) (w' : World S) :
    Decidable (CommitsUnmoved c w op r w') :=
  inferInstanceAs (Decidable (_ = true))

/-- The ticket kept its status from version `i` to version `j`. -/
def World.SameOccurrence (w : World S) (id : Uuid) (i j : Nat) : Prop :=
  ∀ k, i ≤ k → k ≤ j →
    (w.versions[k]?).bind (fun db => db.statusOf id) = (w.versions[i]?).bind fun db => db.statusOf id

/-- Commit `i` was made by a session that executes runs, and it moves this ticket to `st`. -/
def World.RunMoves (jobs : Nat → Option Job) (w : World S) (i : Nat) (id : Uuid)
    (st : TicketStatus) : Prop :=
  ∃ commit job p, w.commits[i]? = some commit ∧ jobs commit.session = some job ∧
    job.runs = true ∧ .updateTicket id p ∈ commit.writes ∧ p.status = some st

/-- No run overrides what was committed meanwhile: it makes allowed transitions of the
committed status only, it leaves an approved ticket alone, and no two runs move a ticket out
of the same occurrence of a status. -/
structure NeverOverrides (jobs : Nat → Option Job) (w : World S) : Prop where
  allowed : ∀ (i : Nat) (id : Uuid) (st old : TicketStatus) (db : DB S),
    w.RunMoves jobs i id st → w.versions[i]? = some db → db.statusOf id = some old →
      canTransition old st = true
  approved : ∀ (k : Nat) (db : DB S) (id : Uuid), w.versions[k]? = some db →
    db.statusOf id = some .approved → ∀ j ≥ k, ∀ (commit : Commit S) (job : Job),
      w.commits[j]? = some commit → jobs commit.session = some job → job.runs = true →
        ∀ p, .updateTicket id p ∈ commit.writes → p.status = none ∧ p.draftResponse = none
  once : ∀ i j id st st', i < j → w.RunMoves jobs i id st → w.RunMoves jobs j id st' →
    ¬w.SameOccurrence id i j

/-! What statements do to a status -/

theorem statusOf_update (start : Time) {p : TicketPatch} {st : TicketStatus}
    (h : db.statusOf id ≠ none) (hp : p.status = some st) :
    ((Write.updateTicket id p).apply start db).statusOf id = some st := by
  cases hf : db.tickets.find? id with
  | none => simp [DB.statusOf, hf] at h
  | some t => simp [DB.statusOf, Write.apply, Table.find?_update, hf, hp]

theorem statusOf_apply (start : Time) (x : Write S) (h : db.statusOf id ≠ none) :
    (x.apply start db).statusOf id = db.statusOf id ∨
      ∃ p st, x = .updateTicket id p ∧ p.status = some st ∧
        (x.apply start db).statusOf id = some st := by
  obtain ⟨t, hf⟩ : ∃ t, db.tickets.find? id = some t :=
    Option.ne_none_iff_exists'.mp fun hf => h (by simp [DB.statusOf, hf])
  cases x with
  | insert row =>
    cases row with
    | ticket t' =>
      left
      simp [DB.statusOf, Write.apply, Row.insert, Table.find?_insert, hf]
    | _ => exact Or.inl rfl
  | updateTicket id' p =>
    by_cases hid : id = id'
    · subst hid
      cases hp : p.status with
      | none =>
        left
        simp [DB.statusOf, Write.apply, Table.find?_update, hf, hp]
      | some st => exact Or.inr ⟨p, st, rfl, hp, statusOf_update start h hp⟩
    · left
      simp [DB.statusOf, Write.apply, Table.find?_update, hid]
  | _ => exact Or.inl rfl

/-- What `unmoved` says of a commit, in the versions up to it. -/
def Stands (versions : List (DB S)) (commit : Commit S) : Prop :=
  ∀ x ∈ commit.writes, ∀ id, x.moves = some id →
    (versions.getLast?.bind fun db => db.statusOf id) =
      (versions[commit.seen id]?).bind fun db => db.statusOf id

theorem stands_of_unmoved {tx : Tx S} (hc : w.Commits c tx w') (h : w.unmoved c = true) :
    Stands w.versions ⟨c, tx.start, tx.writes, w.seen c⟩ := by
  have hw : w.writesOf c = tx.writes := by
    rw [World.writesOf, hc.open_]
    rfl
  intro x hx id hid
  have hmoved := List.all_eq_true.mp h x (hw ▸ hx)
  rw [hid] at hmoved
  simpa [World.versions] using hmoved

section

variable (h : w.Explained cfg jobs Stands)
include h

/-- The status that a commit writes is allowed from the committed one. -/
theorem canTransition_of_stands {commit : Commit S} {p : TicketPatch} {st old : TicketStatus}
    (hcommit : w.commits[i]? = some commit) (hx : .updateTicket id p ∈ commit.writes)
    (hp : p.status = some st) (hdb : w.versions[i]? = some db) (hold : db.statusOf id = some old) :
    canTransition old st = true := by
  obtain ⟨job, s, he⟩ := h.commits i commit hcommit
  obtain ⟨t₀, hrow, hchange⟩ := he.warranted _ hx
  obtain ⟨db₀, hdb₀, hfind⟩ := he.rows id t₀ hrow
  have hlast : (w.versions.take (i + 1)).getLast? = some db := by
    have hlt := (List.getElem?_eq_some_iff.mp hdb).1
    rw [List.getLast?_eq_getElem?, List.length_take, Nat.min_eq_left (by omega),
      List.getElem?_take_of_lt (by omega)]
    exact hdb
  have hstands := h.cond i commit hcommit _ hx id (by simp [Write.moves, hp])
  rw [hlast, hdb₀, Option.bind_some, Option.bind_some, hold] at hstands
  simp only [DB.statusOf, hfind, Option.map_some, Option.some.injEq] at hstands
  rw [hstands]
  exact hchange.allowed st hp

/-- A run's statement on a ticket always moves it. -/
theorem status_of_run {commit : Commit S} {job : Job} {p : TicketPatch}
    (hcommit : w.commits[i]? = some commit) (hjob : jobs commit.session = some job)
    (hruns : job.runs = true) (hx : .updateTicket id p ∈ commit.writes) :
    p.status = some .waitingApproval ∨ p.status = some .escalated := by
  obtain ⟨job', s, he⟩ := h.commits i commit hcommit
  obtain rfl : job = job' := Option.some.inj (hjob.symm.trans he.assigned)
  obtain ⟨t₀, -, hchange⟩ := he.warranted _ hx
  exact (hchange.run hruns).2

theorem statusOf_ne_none (hij : i ≤ j) (hdb : w.versions[i]? = some db)
    (hdb' : w.versions[j]? = some db') (hne : db.statusOf id ≠ none) : db'.statusOf id ≠ none := by
  obtain ⟨st, hst⟩ := Option.ne_none_iff_exists'.mp hne
  obtain ⟨t, hfind, -⟩ := Option.map_eq_some_iff.mp hst
  obtain ⟨hmem, hid⟩ := Table.find?_eq_some.mp hfind
  obtain ⟨t', hmem', hid', -⟩ := (h.sane.grows hij hdb hdb').tickets t hmem
  have := Table.find?_eq_some.mpr ⟨hmem', hid'.trans hid⟩
  simp [DB.statusOf, this]

/-- A ticket that a commit updates was there before it. -/
theorem statusOf_updated {commit : Commit S} {p : TicketPatch}
    (hcommit : w.commits[i]? = some commit) (hx : .updateTicket id p ∈ commit.writes)
    (hdb : w.versions[i]? = some db) : db.statusOf id ≠ none := by
  obtain ⟨job, s, he⟩ := h.commits i commit hcommit
  obtain ⟨t₀, hrow, -⟩ := he.warranted _ hx
  obtain ⟨db₀, hdb₀, hfind⟩ := he.rows id t₀ hrow
  have hseen : commit.seen id ≤ i := by
    have := (List.getElem?_eq_some_iff.mp hdb₀).1
    simp at this
    omega
  rw [List.getElem?_take_of_lt (by omega)] at hdb₀
  exact statusOf_ne_none h hseen hdb₀ hdb (by simp [DB.statusOf, hfind])

/-- An approved ticket stays approved, or is closed. -/
theorem settled {k : Nat} (hkj : k ≤ j) (hdb : w.versions[k]? = some db)
    (happ : db.statusOf id = some .approved) (hdb' : w.versions[j]? = some db') :
    db'.statusOf id = some .approved ∨ db'.statusOf id = some .closed := by
  induction j, hkj using Nat.le_induction generalizing db' with
  | base =>
    rw [hdb] at hdb'
    cases hdb'
    exact Or.inl happ
  | succ j hkj ih =>
    obtain ⟨commit, mid, hcommit, hmid⟩ := h.sane.before hdb'
    obtain ⟨rfl, -⟩ := h.sane.step j commit mid db' hcommit hmid hdb'
    refine applyAll_induction (K := fun db₁ => db₁.statusOf id = some .approved ∨
      db₁.statusOf id = some .closed) (ih hmid) ?_
    intro x hx db₁ hdb₁
    have hne : db₁.statusOf id ≠ none := by obtain h | h := hdb₁ <;> simp [h]
    obtain hsame | ⟨p, st, rfl, hp, hst⟩ := statusOf_apply commit.start x hne
    · rwa [hsame]
    · have hclosed : st = .closed := by
        obtain hold | hold := ih hmid
        · have hcan := canTransition_of_stands h hcommit hx hp hmid hold
          simpa [canTransition, allowedTransitions] using hcan
        · have hcan := canTransition_of_stands h hcommit hx hp hmid hold
          simp [canTransition, allowedTransitions] at hcan
      exact Or.inr (by rw [hst, hclosed])

/-- A commit that moves a ticket leaves it in another status. -/
theorem moved {commit : Commit S} {p : TicketPatch} {st old : TicketStatus}
    (hcommit : w.commits[i]? = some commit) (hx : .updateTicket id p ∈ commit.writes)
    (hp : p.status = some st) (hdb : w.versions[i]? = some db) (hold : db.statusOf id = some old)
    (hdb' : w.versions[i + 1]? = some db') : db'.statusOf id ≠ some old := by
  obtain ⟨rfl, -⟩ := h.sane.step i commit db db' hcommit hdb hdb'
  have target : ∀ q st', .updateTicket id q ∈ commit.writes → q.status = some st' → st' ≠ old :=
    fun q st' hq hst' => Ne.symm
      (canTransition_ne (canTransition_of_stands h hcommit hq hst' hdb hold))
  obtain ⟨pre, post, hsplit⟩ := List.append_of_mem hx
  have hne : (applyAll commit.start db pre).statusOf id ≠ none := by
    obtain ⟨t, hfind, -⟩ := Option.map_eq_some_iff.mp hold
    obtain ⟨hmem, hid⟩ := Table.find?_eq_some.mp hfind
    obtain ⟨t', hmem', hid', -⟩ := (@DB.grows_applyAll S commit.start _ pre).tickets t hmem
    have := Table.find?_eq_some.mpr ⟨hmem', hid'.trans hid⟩
    simp [DB.statusOf, this]
  rw [hsplit, applyAll_append, applyAll_cons]
  refine (applyAll_induction (K := fun db₁ => db₁.statusOf id ≠ none ∧
    db₁.statusOf id ≠ some old) ?_ ?_).2
  · rw [statusOf_update commit.start hne hp]
    exact ⟨by simp, by simpa using target p st hx hp⟩
  · rintro y hy db₁ ⟨hsome, hother⟩
    obtain hsame | ⟨q, st', rfl, hq, hst'⟩ := statusOf_apply commit.start y hsome
    · rw [hsame]
      exact ⟨hsome, hother⟩
    · rw [hst']
      refine ⟨by simp, ?_⟩
      simpa using target q st' (by simp [hsplit, hy]) hq

theorem neverOverrides : NeverOverrides jobs w := by
  constructor
  · rintro i id st old db ⟨commit, job, p, hcommit, -, -, hx, hp⟩ hdb hold
    exact canTransition_of_stands h hcommit hx hp hdb hold
  · intro k db id hdb happ j hkj commit job hcommit hjob hruns p hx
    exfalso
    obtain ⟨db', hdb'⟩ := h.sane.version (le_of_lt (List.getElem?_eq_some_iff.mp hcommit).1)
    have hsettled := settled h hkj hdb happ hdb'
    obtain hp | hp := status_of_run h hcommit hjob hruns hx <;>
    obtain hold | hold := hsettled <;>
    · have := canTransition_of_stands h hcommit hx hp hdb' hold
      simp [canTransition, allowedTransitions] at this
  · rintro i j id st st' hij ⟨commit, job, p, hcommit, -, -, hx, hp⟩ - hsame
    have hlt := (List.getElem?_eq_some_iff.mp hcommit).1
    obtain ⟨db, hdb⟩ := h.sane.version (le_of_lt hlt)
    obtain ⟨db', hdb'⟩ := h.sane.version (Nat.succ_le_of_lt hlt)
    obtain ⟨old, hold⟩ := Option.ne_none_iff_exists'.mp (statusOf_updated h hcommit hx hdb)
    have hkept := hsame (i + 1) (by omega) hij
    rw [hdb', hdb, Option.bind_some, Option.bind_some, hold] at hkept
    exact moved h hcommit hx hp hdb hold hdb' hkept

end

section

variable [Field S] [LinearOrder S] [FloorRing S]

/-- Where no session commits a move of a ticket that was moved since it read it, no run
overrides what was committed meanwhile. -/
theorem deployment_neverOverrides (cfg : Config S) (workflow : Workflow S)
    (events : List (Event Job (Reply S)))
    (hm : Pool.Meets (server cfg.platform) (Job.program cfg workflow) CommitsUnmoved
      ⟨.init, []⟩ events) :
    NeverOverrides (fun i => (Pool.spawned events)[i]?)
      (deployment cfg workflow events).world := by
  refine neverOverrides (deployment_explained cfg workflow events ?_)
  refine Pool.meets_mono ?_ hm
  intro c op reply w r w' he hcond tx hc
  obtain hq | ⟨rfl, -⟩ := (World.steps_of_exec he).history
  · have := congrArg List.length (hq.commits.symm.trans hc.commits)
    simp at this
  · exact stands_of_unmoved hc hcond

end

/-! A run and an approval -/

/-- A run is started and executed, and its draft is approved. -/
def approvedRun : List (Event Job (Reply ℚ)) :=
  registration ++ ticketCreation ++ .spawn (.byAdmin (.runWorkflow ⟨1, 0⟩)) :: calls 2 12 ++
    .spawn (.runAgent ⟨2, 0⟩) :: calls 3 14 ++ .spawn (.byAdmin (.approve ⟨1, 0⟩ ⟨none⟩)) :: calls 4 12

theorem approvedRun_neverOverrides :
    NeverOverrides (fun i => (Pool.spawned approvedRun)[i]?)
      (deployment .plain helpfulDraft approvedRun).world :=
  deployment_neverOverrides .plain helpfulDraft approvedRun (by decide +kernel)

/-- The run of session 5 reads the new ticket, then the run of session 4 and the approval of
session 6 commit, and then session 5 commits too. -/
def staleRun : List (Event Job (Reply ℚ)) :=
  registration ++ ticketCreation ++ .spawn (.byAdmin (.runWorkflow ⟨1, 0⟩)) :: calls 2 12 ++
    .spawn (.byAdmin (.runWorkflow ⟨1, 0⟩)) :: calls 3 12 ++
    .spawn (.runAgent ⟨2, 0⟩) :: .spawn (.runAgent ⟨3, 0⟩) :: calls 5 2 ++ calls 4 14 ++
    .spawn (.byAdmin (.approve ⟨1, 0⟩ ⟨none⟩)) :: calls 6 12 ++ calls 5 14


theorem exists_moves {x : Write S} (h : x.moves = some id) :
    ∃ p, x = .updateTicket id p ∧ p.status ≠ none := by
  cases x with
  | updateTicket id' p =>
    simp only [Write.moves] at h
    split at h
    · cases h
    · rename_i hp
      cases h
      exact ⟨p, rfl, hp⟩
  | _ => cases h

theorem staleRun_overrides :
    ¬NeverOverrides (fun i => (Pool.spawned staleRun)[i]?)
      (deployment .plain helpfulDraft staleRun).world := by
  intro h
  have happroved : ((deployment .plain helpfulDraft staleRun).world.versions[6]?).bind
      (fun db => db.statusOf ⟨1, 0⟩) = some .approved := by decide +kernel
  have hmoves : ((deployment .plain helpfulDraft staleRun).world.commits[6]?).any (fun commit =>
      commit.session == 5 && commit.writes.any fun x => x.moves == some ⟨1, 0⟩) = true := by
    decide +kernel
  generalize (deployment .plain helpfulDraft staleRun).world = w at h happroved hmoves
  obtain ⟨db, hdb, hst⟩ := Option.bind_eq_some_iff.mp happroved
  obtain ⟨commit, hcommit, hwrites⟩ := (Option.any_eq_true _ _).mp hmoves
  simp only [Bool.and_eq_true, beq_iff_eq, List.any_eq_true] at hwrites
  obtain ⟨hsession, x, hx, hid⟩ := hwrites
  obtain ⟨p, rfl, hp⟩ := exists_moves hid
  refine hp (h.approved 6 db _ hdb hst 6 le_rfl commit (.runAgent ⟨3, 0⟩) hcommit ?_ rfl p hx).1
  rw [hsession]
  rfl

end AgentDesk
