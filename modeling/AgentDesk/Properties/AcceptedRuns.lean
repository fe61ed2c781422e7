import AgentDesk.Logic.Scoring
import AgentDesk.Properties.Runs

namespace AgentDesk

open Framework (Table)

variable {S : Type} {cfg : Config S} {c n : Nat} {db db' : DB S}

/-- The endpoint has accepted a run on this ticket, and nobody has executed it yet. -/
structure Accepted (db : DB S) (r : AgentRun) (t : Ticket) : Prop where
  run : db.agentRuns.find? r.id = some r
  started : r.Started
  ticket : db.tickets.find? r.ticketId = some t
  status : t.status ≠ .closed

/-- The run is completed with the outcome that its confidence calls for, the ticket is there
with this run's draft, and the earlier runs are kept. -/
def AsClaimed (cfg : Config S) (db db' : DB S) (runId ticketId : Uuid) : Prop :=
  ∃ r' t' q, db'.agentRuns.find? runId = some r' ∧ r'.status = .completed ∧
    r'.confidence = some q ∧
    r'.outcome = some (if cfg.settings.confidenceThreshold ≤ q then .waitingApproval else .escalated) ∧
    db'.tickets.find? ticketId = some t' ∧ t'.status = aim cfg q ∧ t'.draftResponse = r'.draft ∧
    ∀ id, id ≠ runId → db'.agentRuns.find? id = db.agentRuns.find? id

theorem startRun_accepted {t : Ticket} {actorUserId : Option Uuid} {s : Solo S Tally}
    (hs : s.tx = none) (ht : s.db.tickets.find? t.id = some t) (hstatus : t.status ≠ .closed) :
    (AgentRunService.startRun t.id actorUserId).Triple
      (Solo.observer cfg.platform (fun _ => true) Tally.note c)
      (fun r σ' s' => Accepted s'.db r t ∧ Ready c r t σ' ∧
        ∀ id, id ≠ r.id → s'.db.agentRuns.find? id = s.db.agentRuns.find? id)
      (fun _ _ _ => True) ⟨c, n, [⟨t, t⟩], [], [], [], []⟩ s := by
  obtain ⟨db, tx, past, flags, ps⟩ := s
  subst hs
  simp [AgentRunService.startRun, record, commit, ownIds_cons, Row.id]
  intro now hnew _ r hr
  have hnone : db.agentRuns.find? ⟨c, n⟩ = none := by
    simpa [violatesAny, Write.violates, Row.isPresent, Row.isTaken] using hnew
  have hfound : ∀ id r₀, r₀.id = (⟨c, n⟩ : Uuid) → (db.agentRuns.insert r₀).find? id =
      (db.agentRuns.find? id).or (if (⟨c, n⟩ : Uuid) = id then some r₀ else none) := by
    rintro id r₀ hr₀
    rw [Table.find?_insert, ← hr₀]
    rfl
  have hrow := (hfound ⟨c, n⟩ _ rfl).symm.trans hr
  rw [hnone, Option.none_or, if_pos rfl] at hrow
  obtain rfl := Option.some.inj hrow
  refine ⟨⟨hr, ⟨rfl, rfl, rfl⟩, ht, hstatus⟩, .eager _, fun id hid => ?_⟩
  refine (hfound id _ rfl).trans ?_
  rw [if_neg (Ne.symm hid), Option.or_none]

theorem decision_target {state : AgentState} {q : ℚ} (h : state.target = aim cfg q) :
    state.decision =
        (if cfg.settings.confidenceThreshold ≤ q then .waitingApproval else .escalated) ∧
      state.decision.ticketStatus = aim cfg q := by
  unfold AgentState.target aim at h
  unfold AgentState.decision aim
  by_cases hout : state.outcome.getD "escalated" = "waiting_approval" <;>
    by_cases hhigh : cfg.settings.confidenceThreshold ≤ q <;>
    simp [hout, hhigh] at h <;> simp [hout, hhigh, AgentRunOutcome.ticketStatus]

theorem not_asClaimed {runId ticketId : Uuid} {r' : AgentRun}
    (hr : db'.agentRuns.find? runId = some r') (h : r'.status ≠ .completed) :
    ¬AsClaimed cfg db db' runId ticketId := by
  rintro ⟨r₁, -, -, hfind, hstatus, -⟩
  obtain rfl := Option.some.inj (hr.symm.trans hfind)
  exact h hstatus

section

variable [Field S] [LinearOrder S] [FloorRing S]

theorem RunRecord.asClaimed {runId : Uuid} {r' : AgentRun} {t : Ticket}
    (h : RunRecord (.support cfg) db db' runId r' t) : AsClaimed cfg db db' runId t.id := by
  obtain ⟨state, t', ⟨σ, hreturns⟩, hrecorded⟩ := h
  obtain ⟨q, hq, htarget, -⟩ := support_yields ⟨_, σ, σ, hreturns⟩
  obtain ⟨hdecision, hstatus⟩ := decision_target htarget
  refine ⟨r', t', q, hrecorded.run, hrecorded.status, hrecorded.confidence.trans hq, ?_,
    hrecorded.ticket, ?_, ?_, hrecorded.others⟩
  · rw [hrecorded.outcome, hdecision]
  · rw [hrecorded.ticketStatus, hstatus]
  · rw [hrecorded.ticketDraft, hrecorded.draft]

/-- An execution that committed its result is as claimed, and no other. -/
theorem Executed.asClaimed_iff {past : List (DB S)} {r : AgentRun} {t : Ticket}
    {s : Solo S Tally} (h : Executed (.support cfg) db past r t s)
    (hlate : s.tally.flags.late = false) (hr : db.agentRuns.find? r.id = some r)
    (hstarted : r.Started) :
    AsClaimed cfg db s.db r.id t.id ↔ s.tally.flags.persisted = true := by
  cases h with
  | nothing hdb _ hflags =>
    obtain ⟨b, hflags⟩ := hflags
    refine iff_of_false ?_ (by simp [hflags])
    exact not_asClaimed (hdb ▸ hr) (by simp [hstarted.status])
  | failure h _ hflags =>
    obtain ⟨r', hfind, hstatus, -⟩ := h.run
    exact iff_of_false (not_asClaimed hfind (by simp [hstatus])) (by simp [hflags])
  | result r' h _ hflags =>
    obtain ⟨b, late, hflags⟩ := hflags
    exact iff_of_true h.asClaimed (by simp [hflags])
  | both r' db₂ h _ hflags => simp [hflags] at hlate

end

/-- Session 4 starts another run on a ticket that is escalated. -/
def runAgain : List (Framework.Event Job (Reply ℚ)) :=
  registration ++ ticketCreation ++ .spawn (.byAdmin (.runWorkflow ⟨1, 0⟩)) :: calls 2 12 ++
    .spawn (.runAgent ⟨2, 0⟩) :: calls 3 20 ++ .spawn (.byAdmin (.runWorkflow ⟨1, 0⟩)) :: calls 4 12

theorem runAgain_accepted : ∃ r t,
    Accepted (deployment .plain (.support .plain) runAgain).world.db r t ∧ r.id = ⟨4, 0⟩ := by
  have hrun : ((deployment .plain (.support .plain) runAgain).world.db.agentRuns.find? ⟨4, 0⟩).any
      (fun r => decide (r.status = .running ∧ r.outcome = none ∧ r.draft = none ∧
        r.ticketId = ⟨1, 0⟩)) = true := by decide +kernel
  have hticket : ((deployment .plain (.support .plain) runAgain).world.db.tickets.find? ⟨1, 0⟩).any
      (fun t => decide (t.status ≠ .closed)) = true := by decide +kernel
  obtain ⟨r, hr, hstarted⟩ := (Option.any_eq_true _ _).mp hrun
  obtain ⟨t, ht, hstatus⟩ := (Option.any_eq_true _ _).mp hticket
  obtain ⟨hrunning, houtcome, hdraft, hid⟩ := of_decide_eq_true hstarted
  have hrid : r.id = ⟨4, 0⟩ := Table.key_of_find? hr
  exact ⟨r, t, ⟨hrid ▸ hr, ⟨hrunning, houtcome, hdraft⟩, hid ▸ ht, of_decide_eq_true hstatus⟩, hrid⟩

end AgentDesk
