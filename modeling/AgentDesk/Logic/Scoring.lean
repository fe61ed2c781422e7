import AgentDesk.Logic.Execution
import AgentDesk.Logic.Journal

namespace AgentDesk

open Framework (Program Observer Table)

variable {S : Type} {cfg : Config S} {db : DB S} {c n : Nat}

/-! What the workflow of the application yields -/

theorem decisionNode_outcome (cfg : Config S) (state : AgentState) :
    (Agent.decisionNode cfg state).outcome =
      some (if cfg.settings.confidenceThreshold ≤ state.confidence.getD 0 then "waiting_approval"
        else "escalated") := rfl

theorem criticNode_confidence (P : Platform) (state : AgentState) :
    ∃ c, (Agent.criticNode P state).confidence = some c := by
  unfold Agent.criticNode
  split <;> exact ⟨_, rfl⟩

theorem criticNode_priority (P : Platform) (state : AgentState) :
    (Agent.criticNode P state).suggestedPriority = state.suggestedPriority := by
  unfold Agent.criticNode
  split <;> rfl

theorem classifierNode_priority (P : Platform) (state : AgentState) :
    ∃ sp, (Agent.classifierNode P state).suggestedPriority = some sp ∧
      (TicketPriority.ofValue? sp).isSome = true := by
  refine ⟨_, rfl, ?_⟩
  split <;> decide

theorem returns_of_bind {α β : Type} {p : M S α} {f : α → M S β} {b : β} {σ σ' : Session S}
    (h : ((p >>= f) σ).Returns (.ok b, σ')) :
    ∃ a σ₁, (p σ).Returns (.ok a, σ₁) ∧ (f a σ₁).Returns (.ok b, σ') := by
  rw [M.bind_apply, Program.returns_bind] at h
  obtain ⟨⟨_ | a, σ₁⟩, hp, hf⟩ := h
  · exact absurd hf (by simp [Program.Returns])
  · exact ⟨a, σ₁, hp, hf⟩

theorem returns_of_pure {α : Type} {a b : α} {σ σ' : Session S}
    (h : ((pure a : M S α) σ).Returns (.ok b, σ')) : a = b :=
  Except.ok.inj (congrArg Prod.fst (show _ = _ from h))

theorem run_of_bind {α β : Type} {p : M S α} {f : α → M S β} {b : β} {σ σ' : Session S}
    {w w' : World S} {env env' : Nat → Reply S}
    (h : ((p >>= f) σ).run (server cfg.platform) c env w = some ((.ok b, σ'), w', env')) :
    ∃ a σ₁ w₁ env₁, (p σ).run (server cfg.platform) c env w = some ((.ok a, σ₁), w₁, env₁) ∧
      (f a σ₁).run (server cfg.platform) c env₁ w₁ = some ((.ok b, σ'), w', env') := by
  rw [M.bind_apply, Program.run_bind, Option.bind_eq_some_iff] at h
  obtain ⟨⟨⟨_ | a, σ₁⟩, w₁, env₁⟩, hp, hf⟩ := h
  · cases hf
  · exact ⟨a, σ₁, w₁, env₁, hp, hf⟩

theorem run_of_pure {α : Type} {a b : α} {σ σ' : Session S} {w w' : World S}
    {env env' : Nat → Reply S} (h : ((pure a : M S α) σ).run (server cfg.platform) c env w =
      some ((.ok b, σ'), w', env')) : a = b ∧ w = w' := by
  cases h
  exact ⟨rfl, rfl⟩

/-- Where a confidence takes the ticket. -/
def aim (cfg : Config S) (confidence : ℚ) : TicketStatus :=
  if cfg.settings.confidenceThreshold ≤ confidence then .waitingApproval else .escalated

section

variable [Field S] [LinearOrder S] [FloorRing S]

/-- The workflow scores every ticket, and the score decides. -/
theorem support_yields {state : AgentState} (h : (Workflow.support cfg).Yields state) :
    ∃ q, state.confidence = some q ∧ state.target = aim cfg q ∧
      ∃ sp, state.suggestedPriority = some sp ∧ (TicketPriority.ofValue? sp).isSome = true := by
  obtain ⟨initial, σ, σ', h⟩ := h
  obtain ⟨state₁, σ₁, h₁, h⟩ := returns_of_bind h
  obtain ⟨state₂, σ₂, h₂, h⟩ := returns_of_bind h
  obtain ⟨hits, _, -, h₁⟩ := returns_of_bind h₁
  obtain ⟨result, _, -, h₂⟩ := returns_of_bind h₂
  have hpriority : state₂.suggestedPriority =
      (Agent.classifierNode cfg.platform initial).suggestedPriority := by
    rw [← returns_of_pure h₂, ← returns_of_pure h₁]
  obtain ⟨q, hq⟩ := criticNode_confidence cfg.platform state₂
  obtain ⟨sp, hsp, hvalid⟩ := classifierNode_priority cfg.platform initial
  rw [← returns_of_pure h]
  refine ⟨q, hq, ?_, sp, ?_, hvalid⟩
  · unfold AgentState.target aim
    rw [decisionNode_outcome, hq]
    by_cases hhigh : cfg.settings.confidenceThreshold ≤ q <;> simp [hhigh]
  · change (Agent.criticNode cfg.platform state₂).suggestedPriority = some sp
    rw [criticNode_priority, hpriority, hsp]

end

/-! The calls of an execution -/

/-- The confidence that a milestone of a run records. -/
def AuditLog.scored (a : AuditLog) : Option ℚ :=
  if a.event = .draftGenerated then
    match a.metadata with
    | some [(_, .float q)] => some q
    | _ => none
  else none

def Write.scored : Write S → Option ℚ
  | .insert (.auditLog a) => a.scored
  | _ => none

def Op.scored : Op S → Option ℚ
  | .write ws => ws.findSome? Write.scored
  | _ => none

/-- What the calls of an execution have shown so far: whether it has written, committed, rolled
back or failed, and the confidence that it recorded first. -/
@[ext] structure Score where
  wrote : Bool
  persisted : Bool
  rolledBack : Bool
  failed : Bool
  score : Option ℚ

def Op.writes : Op S → Bool
  | .write _ => true
  | _ => false

namespace Score

def start : Score := ⟨false, false, false, false, none⟩

def note (s : Score) (op : Op S) (r : Res op) : Score where
  wrote := s.wrote || op.writes
  persisted := s.persisted || op.commits r && !s.rolledBack
  rolledBack := s.rolledBack || op.rollsBack
  failed := s.failed || op.raised r
  score := s.score.or (if s.rolledBack then none else op.scored)

/-- Before it writes, a session that runs alone reads the tables that it found. -/
def Reads (db : DB S) (s : Score) : (op : Op S) → Res op → Prop
  | .query (.ticket id), .ok row => s.wrote = false → row = db.tickets.find? id
  | .query (.agentRun id), .ok row => s.wrote = false → row = db.agentRuns.find? id
  | _, _ => True

def observer (db : DB S) : Observer (Op S) Res Score where
  ok _ _ := True
  next s op r s' := s' = s.note op r ∧ s.Reads db op r

@[simp] theorem reads_write (s : Score) (ws : List (Write S)) (r : Except Err Unit) :
    s.Reads db (.write ws) r := by cases r <;> trivial
@[simp] theorem reads_commit (s : Score) (r : Except Err Unit) : s.Reads db .commit r := by
  cases r <;> trivial
@[simp] theorem reads_rollback (s : Score) (r : Except Err Unit) : s.Reads db .rollback r := by
  cases r <;> trivial
@[simp] theorem reads_clock (s : Score) (r : Time) : s.Reads db .clock r := trivial

section

variable (w p b f : Bool) (q : Option ℚ)

@[simp] theorem ok_observer (s : Score) (op : Op S) : (observer db).ok s op := trivial

@[simp] theorem next_observer {s s' : Score} {op : Op S} {r : Res op} :
    (observer db).next s op r s' ↔ s' = s.note op r ∧ s.Reads db op r := Iff.rfl

@[simp] theorem note_query_ok (x : Query S) (r : x.Result) :
    (Score.mk w p b f q).note (.query x) (no_index (.ok r)) = ⟨w, p, b, f, q⟩ := by
  simp [note, Op.writes, Op.commits, Op.rollsBack, Op.raised, Op.scored]

@[simp] theorem note_query_error (x : Query S) (e : Err) :
    (Score.mk w p b f q).note (.query x) (no_index (.error e)) = ⟨w, p, b, true, q⟩ := by
  simp [note, Op.writes, Op.commits, Op.rollsBack, Op.raised, Op.scored]

@[simp] theorem note_write_ok (ws : List (Write S)) (u : Unit) :
    (Score.mk w p b f q).note (.write ws) (.ok u) =
      ⟨true, p, b, f, q.or (if b then none else ws.findSome? Write.scored)⟩ := by
  simp [note, Op.writes, Op.commits, Op.rollsBack, Op.raised, Op.scored]

@[simp] theorem note_write_error (ws : List (Write S)) (e : Err) :
    (Score.mk w p b f q).note (.write ws) (.error e) =
      ⟨true, p, b, true, q.or (if b then none else ws.findSome? Write.scored)⟩ := by
  simp [note, Op.writes, Op.commits, Op.rollsBack, Op.raised, Op.scored]

@[simp] theorem note_commit_ok (u : Unit) :
    (Score.mk w p b f q).note (S := S) .commit (.ok u) = ⟨w, p || !b, b, f, q⟩ := by
  simp [note, Op.writes, Op.commits, Op.rollsBack, Op.raised, Op.scored]

@[simp] theorem note_commit_error (e : Err) :
    (Score.mk w p b f q).note (S := S) .commit (.error e) = ⟨w, p, b, true, q⟩ := by
  simp [note, Op.writes, Op.commits, Op.rollsBack, Op.raised, Op.scored]

@[simp] theorem note_rollback_ok (u : Unit) :
    (Score.mk w p b f q).note (S := S) .rollback (.ok u) = ⟨w, p, true, f, q⟩ := by
  simp [note, Op.writes, Op.commits, Op.rollsBack, Op.raised, Op.scored]

@[simp] theorem note_rollback_error (e : Err) :
    (Score.mk w p b f q).note (S := S) .rollback (.error e) = ⟨w, p, true, true, q⟩ := by
  simp [note, Op.writes, Op.commits, Op.rollsBack, Op.raised, Op.scored]

@[simp] theorem note_clock (now : Time) :
    (Score.mk w p b f q).note (S := S) .clock now = ⟨w, p, b, f, q⟩ := by
  simp [note, Op.writes, Op.commits, Op.rollsBack, Op.raised, Op.scored]

end

@[simp] theorem scored_dirtyAgentRun (o : Tracked AgentRun) :
    (@dirtyAgentRun S o).toList.findSome? Write.scored = none := by
  obtain h | h := @dirtyAgentRun_cases S o.loaded o.cur <;> simp [h, Write.scored]

/-- The result is committed, and its confidence takes the ticket where it may go. -/
def Landed (cfg : Config S) (t : Ticket) (s : Score) : Prop :=
  s.persisted = true ∧ ∃ q, s.score = some q ∧ canTransition t.status (aim cfg q) = true

/-- Nothing is committed, and there is a reason for it. -/
def Missed (cfg : Config S) (t : Ticket) (s : Score) : Prop :=
  s.persisted = false ∧ (s.failed = true ∨
    ∀ q, s.score = some q → canTransition t.status (aim cfg q) = false)

/-- Nothing is committed or recorded so far. -/
structure Blank (s : Score) : Prop where
  persisted : s.persisted = false
  rolledBack : s.rolledBack = false
  score : s.score = none

end Score

theorem workflow_score (workflow : Workflow S) (initial : AgentState) {σ : Session S} {s : Score}
    (hs : s.Blank) :
    (workflow.run initial).Triple (Score.observer db)
      (fun state σ' s' => workflow.Yields state ∧ σ' = σ ∧ s'.Blank)
      (fun _ σ' s' => σ' = σ ∧ s'.Blank) σ s := by
  have h := Program.obeys_of_uses (O := Score.observer db) (P := Score.Blank)
    (Program.uses_returns (workflow.readOnly initial σ)) hs ?_
  · refine Program.obeys_mono h ?_
    rintro ⟨_ | state, σ'⟩ s' ⟨⟨rfl, hr⟩, hblank⟩
    · exact ⟨rfl, hblank⟩
    · exact ⟨⟨initial, _, _, hr⟩, rfl, hblank⟩
  · rintro op s₁ hop ⟨hp, hb, hq⟩
    refine ⟨trivial, ?_⟩
    rintro r _ ⟨rfl, -⟩
    cases op <;> first
      | exact hop.elim
      | simp [Score.note, hp, hb, hq, Op.commits, Op.rollsBack, Op.scored, Score.Blank.mk]

namespace Score

theorem missed_of_failed {t : Ticket} {w b : Bool} {q : Option ℚ} :
    Missed cfg t ⟨w, false, b, true, q⟩ := ⟨rfl, Or.inl rfl⟩

theorem missed_of_target {t : Ticket} {w b f : Bool} {q : ℚ}
    (h : ¬canTransition t.status (aim cfg q) = true) : Missed cfg t ⟨w, false, b, f, some q⟩ := by
  refine ⟨rfl, Or.inr ?_⟩
  rintro _ ⟨⟩
  simpa using h

end Score

theorem applyOutcome_score {t : Ticket} {r : AgentRun} {w f : Bool} {q : ℚ} (state : AgentState)
    (htarget : state.target = aim cfg q) :
    (AgentRunService.applyOutcome r.id t state).Triple (Score.observer db)
      (fun _ σ' s' => (∃ n' u o, o.loaded.id = r.id ∧ σ' = ⟨c, n', [⟨u, u⟩], [o], [], [], []⟩) ∧
        s' = ⟨true, false, false, f, some q⟩ ∧ canTransition t.status (aim cfg q) = true)
      (fun _ _ s' => Score.Missed cfg t s')
      ⟨c, n, [⟨t, t.suggested state⟩], [⟨r, r⟩], [], [], []⟩ ⟨w, false, false, f, some q⟩ := by
  by_cases hout : state.outcome.getD "escalated" = "waiting_approval"
  · have haim : aim cfg q = .waitingApproval := by simp [← htarget, AgentState.target, hout]
    by_cases hcan : canTransition t.status .waitingApproval = true
    · simp [AgentRunService.applyOutcome, TicketService.transition, hout, hcan, haim,
        dirtyTicket_of_transition, Score.missed_of_failed]
    · simp [AgentRunService.applyOutcome, TicketService.transition, hout, hcan]
      exact Score.missed_of_target (by rwa [haim])
  · have haim : aim cfg q = .escalated := by simp [← htarget, AgentState.target, hout]
    by_cases hcan : canTransition t.status .escalated = true
    · simp [AgentRunService.applyOutcome, AgentRunService.audit, record, TicketService.transition,
        hout, hcan, haim, dirtyTicket_of_transition, Score.missed_of_failed]
    · simp [AgentRunService.applyOutcome, TicketService.transition, hout, hcan]
      exact Score.missed_of_target (by rwa [haim])

theorem commit_score {ts : List (Tracked Ticket)} {o : Tracked AgentRun} {w f : Bool} {q : ℚ}
    (hts : ts.filterMap (@dirtyTicket S) = []) :
    commit.Triple (Score.observer db)
      (fun _ _ s' => s'.persisted = true ∧ s'.score = some q)
      (fun _ _ s' => s'.persisted = false ∧ s'.failed = true)
      ⟨c, n, ts, [o], [], [], []⟩ ⟨w, false, false, f, some q⟩ := by
  obtain h | h := @dirtyAgentRun_cases S o.loaded o.cur <;> simp [commit, hts, h]

theorem suggestedPriority_valid {state : AgentState} (h : ∃ sp, state.suggestedPriority = some sp ∧
    (TicketPriority.ofValue? sp).isSome = true) :
    (AgentRunService.suggestedPriority state : M S _) =
      pure (state.suggestedPriority.bind TicketPriority.ofValue?) := by
  obtain ⟨sp, hsp, hvalid⟩ := h
  obtain ⟨p, hp⟩ := Option.isSome_iff_exists.mp hvalid
  unfold AgentRunService.suggestedPriority
  split
  · rename_i h
    rw [hsp] at h
    cases h
  · rename_i h
    rw [hsp] at h
    cases h
    cases hvalid
  · rename_i h
    rw [hsp] at h
    cases h
    simp [hsp, hp]

theorem applyResult_score {t : Ticket} {r : AgentRun} {w f : Bool} {q : ℚ} (state : AgentState)
    (hq : state.confidence = some q) (htarget : state.target = aim cfg q)
    (hpriority : ∃ sp, state.suggestedPriority = some sp ∧
      (TicketPriority.ofValue? sp).isSome = true) :
    (AgentRunService.applyResult r.id t state).Triple (Score.observer db)
      (fun _ _ s' => Score.Landed cfg t s')
      (fun _ _ s' => Score.Missed cfg t s')
      ⟨c, n, [⟨t, t⟩], [⟨r, r⟩], [], [], []⟩ ⟨w, false, false, f, none⟩ := by
  simp [AgentRunService.applyResult, AgentRunService.audit, record, suggestedPriority_valid hpriority,
    AgentRunService.confidenceMeta, hq, Write.scored, AuditLog.scored, Score.missed_of_failed]
  refine M.triple_mono (applyOutcome_score state htarget) ?_ (fun _ _ _ h => h)
  rintro _ _ _ ⟨⟨n', u, o, ho, rfl⟩, rfl, hcan⟩ now
  rw [putAgentRun_single ho]
  refine M.triple_mono (commit_score (by simp)) ?_ ?_
  · rintro _ _ s' ⟨hp, hs⟩
    exact ⟨hp, q, hs, hcan⟩
  · rintro _ _ s' ⟨hp, hf⟩
    exact ⟨hp, Or.inl hf⟩

theorem persistResult_score (workflow : Workflow S) {t : Ticket} {r : AgentRun} {s : Score}
    (started : Time) (hs : s.Blank)
    (hyields : ∀ state, workflow.Yields state → ∃ q, state.confidence = some q ∧
      state.target = aim cfg q ∧ ∃ sp, state.suggestedPriority = some sp ∧
        (TicketPriority.ofValue? sp).isSome = true) :
    (AgentRunService.persistResult workflow r.id t started).Triple (Score.observer db)
      (fun _ _ s' => Score.Landed cfg t s')
      (fun _ _ s' => Score.Missed cfg t s')
      ⟨c, n, [⟨t, t⟩], [⟨r, r⟩], [], [], []⟩ s := by
  unfold AgentRunService.persistResult
  rw [M.triple_bind]
  refine M.triple_mono (workflow_score workflow _ hs) ?_ ?_
  · rintro state _ ⟨w, p, b, f, q⟩ ⟨hstate, rfl, rfl, rfl, rfl⟩
    obtain ⟨q, hq, htarget, hpriority⟩ := hyields state hstate
    simp [AgentRunService.audit, record, Write.scored, AuditLog.scored, Score.missed_of_failed]
    exact fun now => applyResult_score
      (r := (AgentRunService.resultPatch state ((now - started) / 1000)).apply r) state hq htarget
      hpriority
  · rintro _ _ s' ⟨-, hp, -, hq⟩
    refine ⟨hp, Or.inr fun q h => ?_⟩
    rw [hq] at h
    cases h

namespace Score

/-- Unless something failed, the confidence tells whether the result was committed. -/
def Judged (cfg : Config S) (t : Ticket) (s : Score) : Prop :=
  s.failed = true ∨ ∀ q, s.score = some q →
    (s.persisted = true ↔ canTransition t.status (aim cfg q) = true)

theorem Landed.note {t : Ticket} {s : Score} (h : Landed cfg t s) (op : Op S) (r : Res op) :
    Landed cfg t (s.note op r) := by
  obtain ⟨hp, q, hq, hcan⟩ := h
  exact ⟨by simp [Score.note, hp], q, by simp [Score.note, hq], hcan⟩

theorem Missed.note {t : Ticket} {s : Score} (h : Missed cfg t s) (hb : s.rolledBack = true)
    (op : Op S) (r : Res op) :
    Missed cfg t (s.note op r) ∧ (s.note op r).rolledBack = true := by
  obtain ⟨hp, hmissed⟩ := h
  refine ⟨⟨by simp [Score.note, hp, hb], ?_⟩, by simp [Score.note, hb]⟩
  refine hmissed.imp (fun hf => by simp [Score.note, hf]) fun hq q hs => hq q ?_
  simpa [Score.note, hb] using hs

theorem Landed.judged {t : Ticket} {s : Score} (h : Landed cfg t s) : Judged cfg t s := by
  obtain ⟨hp, q, hq, hcan⟩ := h
  refine Or.inr fun q' hq' => ?_
  obtain rfl := Option.some.inj (hq.symm.trans hq')
  exact iff_of_true hp hcan

theorem Missed.judged {t : Ticket} {s : Score} (h : Missed cfg t s) : Judged cfg t s := by
  obtain ⟨hp, hmissed⟩ := h
  exact hmissed.imp_right fun hq q hs => iff_of_false (by simp [hp]) (by simp [hq q hs])

end Score

theorem announceResult_score {runId ticketId : Uuid} {t : Ticket} {σ : Session S} {s : Score}
    (h : Score.Landed cfg t s) :
    (AgentRunService.announceResult cfg runId ticketId).Triple (Score.observer db)
      (fun _ _ s' => Score.Landed cfg t s') (fun _ _ s' => Score.Landed cfg t s') σ s := by
  have hinv := Program.obeys_invariant (O := Score.observer db) (I := Score.Landed cfg t)
    (fun h => ⟨trivial, fun r s' hn => hn.1 ▸ h.note _ r⟩)
    (AgentRunService.announceResult cfg runId ticketId σ) h
  refine Program.obeys_mono hinv ?_
  rintro ⟨_ | _, _⟩ s' hs' <;> exact hs'

theorem recordFailure_score {α : Type} {runId : Uuid} {exc : Err} {t : Ticket} {σ : Session S}
    {s : Score} (h : Score.Missed cfg t s) :
    (@AgentRunService.recordFailure S α runId exc).Triple (Score.observer db)
      (fun _ _ s' => Score.Missed cfg t s') (fun _ _ s' => Score.Missed cfg t s') σ s := by
  have stays : ∀ (p : M S α) {σ : Session S} {s : Score}, Score.Missed cfg t s →
      s.rolledBack = true → p.Triple (Score.observer db) (fun _ _ s' => Score.Missed cfg t s')
        (fun _ _ s' => Score.Missed cfg t s') σ s := by
    intro p σ s hs hb
    have hinv := Program.obeys_invariant (O := Score.observer db)
      (I := fun s => Score.Missed cfg t s ∧ s.rolledBack = true)
      (fun h => ⟨trivial, fun r s' hn => hn.1 ▸ h.1.note h.2 _ r⟩) (p σ) ⟨hs, hb⟩
    refine Program.obeys_mono hinv ?_
    rintro ⟨_ | _, _⟩ s' hs' <;> exact hs'.1
  have hrolled : ∀ r, Score.Missed cfg t (s.note (S := S) .rollback r) := by
    obtain ⟨hp, hmissed⟩ := h
    refine fun r => ⟨by simp [Score.note, hp, Op.commits], ?_⟩
    refine hmissed.imp (fun hf => by simp [Score.note, hf]) fun hq q hs => hq q ?_
    simpa [Score.note, Op.scored] using hs
  unfold AgentRunService.recordFailure
  rw [M.triple_bind, triple_rollback]
  refine ⟨trivial, ?_, ?_⟩
  · rintro e _ ⟨rfl, -⟩
    exact hrolled _
  · rintro u _ ⟨rfl, -⟩
    exact stays _ (hrolled _) (by simp [Score.note, Op.rollsBack])

theorem execution_score (workflow : Workflow S) {t : Ticket} {r : AgentRun} {s : Score}
    (started : Time) (hs : s.Blank)
    (hyields : ∀ state, workflow.Yields state → ∃ q, state.confidence = some q ∧
      state.target = aim cfg q ∧ ∃ sp, state.suggestedPriority = some sp ∧
        (TicketPriority.ofValue? sp).isSome = true) :
    (M.except (do
        AgentRunService.persistResult workflow r.id t started
        AgentRunService.announceResult cfg r.id t.id)
      (AgentRunService.recordFailure r.id)).Triple (Score.observer db)
      (fun _ _ s' => Score.Judged cfg t s') (fun _ _ s' => Score.Judged cfg t s')
      ⟨c, n, [⟨t, t⟩], [⟨r, r⟩], [], [], []⟩ s := by
  rw [M.triple_except, M.triple_bind]
  refine M.triple_mono (persistResult_score workflow started hs hyields) ?_ ?_
  · rintro _ _ s' hlanded
    refine M.triple_mono (announceResult_score hlanded) (fun _ _ _ h => h.judged) ?_
    rintro e σ' s₂ h
    have hinv := Program.obeys_invariant (O := Score.observer db) (I := Score.Landed cfg t)
      (fun h => ⟨trivial, fun r s' hn => hn.1 ▸ h.note _ r⟩)
      (@AgentRunService.recordFailure S AgentRun r.id e σ') h
    refine Program.obeys_mono hinv ?_
    rintro ⟨_ | _, _⟩ s' hs' <;> exact hs'.judged
  · rintro e _ s' hmissed
    exact M.triple_mono (recordFailure_score hmissed) (fun _ _ _ h => h.judged)
      fun _ _ _ h => h.judged

theorem executeRun_score (workflow : Workflow S) {t : Ticket} {r : AgentRun} {σ : Session S}
    (hσ : Ready c r t σ) (ht : db.tickets.find? r.ticketId = some t)
    (hr : db.agentRuns.find? r.id = some r)
    (hyields : ∀ state, workflow.Yields state → ∃ q, state.confidence = some q ∧
      state.target = aim cfg q ∧ ∃ sp, state.suggestedPriority = some sp ∧
        (TicketPriority.ofValue? sp).isSome = true) :
    (AgentRunService.executeRun cfg workflow r.id).Triple (Score.observer db)
      (fun _ _ s' => Score.Judged cfg t s') (fun _ _ s' => Score.Judged cfg t s') σ .start := by
  have hid : t.id = r.ticketId := Table.key_of_find? ht
  have failed : ∀ w p b q, Score.Judged cfg t ⟨w, p, b, true, q⟩ := fun _ _ _ _ => Or.inl rfl
  have blank : Score.Blank ⟨false, false, false, false, none⟩ := ⟨rfl, rfl, rfl⟩
  cases hσ with
  | worker =>
    simp [AgentRunService.executeRun, Session.start, Score.start, Score.Reads, failed, hr, ht,
      -M.triple_except]
    exact fun started => execution_score workflow started blank hyields
  | eager n =>
    simp [AgentRunService.executeRun, hid, Score.start, -M.triple_except]
    rw [← hid]
    exact fun started => execution_score workflow started blank hyields

/-! The calls as a whole -/

/-- A session that has written nothing changes nothing until it writes. -/
theorem World.exec_of_not_writes {w w' : World S} {op : Op S} {reply : Reply S} {r : Res op}
    (he : w.exec cfg.platform c op reply = some (r, w')) (hop : op.writes = false)
    (h : w.writesOf c = []) : w'.db = w.db ∧ w'.writesOf c = [] := by
  simp only [World.exec, Option.map_eq_some_iff] at he
  obtain ⟨⟨r₁, w₁⟩, he, heq⟩ := he
  cases heq
  have dropped : (w.dropTx c).writesOf c = [] := by simp [World.writesOf]
  cases op with
  | query q =>
    simp only [World.effect] at he
    split at he
    · cases he
      exact ⟨rfl, dropped⟩
    · cases he
      obtain ⟨tx, htx, hws, -⟩ := World.tx?_noteRead (w := w) (c := c) reply.now q
        (q.eval cfg.platform reply.choice (w.view c))
      refine ⟨(World.quiet_noteRead _ q _).db, ?_⟩
      have htx' : ((w.noteRead c reply.now q (q.eval cfg.platform reply.choice (w.view c))).log c
        (.query q) (.ok (q.eval cfg.platform reply.choice (w.view c)))).tx? c = some tx := htx
      rw [World.writesOf, htx', Option.map_some, Option.getD_some, hws, h]
  | write ws => cases hop
  | commit =>
    simp only [World.effect] at he
    split at he
    · cases he
      exact ⟨rfl, dropped⟩
    · cases he
      obtain ⟨hhist, -, hclosed, -⟩ := World.commitTx_cases (w := w) c
      obtain ⟨-, hq⟩ | ⟨tx, hc⟩ := hhist
      · have htx : ((w.commitTx c).log c .commit (.ok ())).tx? c = none := hclosed
        exact ⟨hq.db, by simp [World.writesOf, htx]⟩
      · rw [World.writesOf, hc.open_] at h
        exact absurd h hc.some
  | rollback =>
    simp only [World.effect] at he
    split at he <;>
    · cases he
      exact ⟨rfl, dropped⟩
  | close =>
    cases he
    exact ⟨rfl, dropped⟩
  | enqueue task =>
    simp only [World.effect] at he
    split at he <;>
    · cases he
      exact ⟨rfl, h⟩
  | _ =>
    cases he
    exact ⟨rfl, h⟩

/-- The confidence that an execution recorded first, if it came so far. -/
def scoreOf (cs : List (Call S)) : Option ℚ :=
  (cs.takeWhile fun x => !x.rollsBack).findSome? fun x => x.op.scored

namespace Score

theorem foldl_note (cs : List (Call S)) (s : Score) :
    (cs.foldl (fun s x => s.note x.op x.result) s).failed = (s.failed || cs.any Call.failed) ∧
    (cs.foldl (fun s x => s.note x.op x.result) s).persisted =
      (s.persisted || !s.rolledBack && persists cs) ∧
    (cs.foldl (fun s x => s.note x.op x.result) s).score =
      s.score.or (if s.rolledBack then none else scoreOf cs) := by
  induction cs generalizing s with
  | nil => simp [persists, scoreOf]
  | cons x cs ih =>
    obtain ⟨hf, hp, hs⟩ := ih (s.note x.op x.result)
    have hroll := @Flags.not_rollsBack_of_commits S x
    refine ⟨?_, ?_, ?_⟩
    · rw [List.foldl_cons, hf, List.any_cons, ← Bool.or_assoc]
      rfl
    · have hnote : (s.note x.op x.result).persisted =
          (s.persisted || x.commits && !s.rolledBack) := rfl
      have hrolled : (s.note x.op x.result).rolledBack = (s.rolledBack || x.rollsBack) := rfl
      rw [List.foldl_cons, hp, hnote, hrolled]
      simp only [persists, List.takeWhile_cons]
      cases hc : x.commits
      · cases x.rollsBack <;> cases s.rolledBack <;> simp [hc]
      · rw [hroll hc]
        cases s.rolledBack <;> simp [hc]
    · have hnote : (s.note x.op x.result).score =
          s.score.or (if s.rolledBack then none else x.op.scored) := rfl
      have hrolled : (s.note x.op x.result).rolledBack = (s.rolledBack || x.rollsBack) := rfl
      have hscored : x.rollsBack = true → x.op.scored = none := by
        obtain ⟨d, op, r⟩ := x
        cases op <;> simp [Call.rollsBack, Op.rollsBack, Op.scored]
      rw [List.foldl_cons, hs, hnote, hrolled]
      simp only [scoreOf, List.takeWhile_cons]
      cases hb : x.rollsBack
      · cases s.rolledBack <;> cases hq : x.op.scored <;> cases s.score <;> simp [hq]
      · rw [hscored hb]
        cases s.rolledBack <;> simp

/-- What the calls of a session that runs alone show is so. -/
structure Shows (db : DB S) (c : Nat) (base w : World S) (s : Score) : Prop where
  found : s.wrote = false → w.db = db ∧ w.writesOf c = []
  calls : ∃ cs, w.calls = base.calls ++ cs ∧ s = cs.foldl (fun s x => s.note x.op x.result) start

theorem Shows.step {base w w' : World S} {s : Score} {op : Op S} {reply : Reply S} {r : Res op}
    (h : s.Shows db c base w) (he : w.exec cfg.platform c op reply = some (r, w')) :
    s.Reads db op r ∧ (s.note op r).Shows db c base w' := by
  have hs := World.steps_of_exec he
  obtain ⟨cs, hcs, hfold⟩ := h.calls
  have hcalls : ∃ cs, w'.calls = base.calls ++ cs ∧
      s.note op r = cs.foldl (fun s x => s.note x.op x.result) start := by
    refine ⟨cs ++ [⟨c, op, r⟩], by rw [hs.calls, hcs, List.append_assoc], ?_⟩
    rw [List.foldl_append, ← hfold]
    rfl
  have hview : s.wrote = false → w.view c = db := by
    intro hw
    rw [World.view_of_writes (h.found hw).2, (h.found hw).1]
  refine ⟨?_, fun hw => ?_, hcalls⟩
  · simp only [World.exec, Option.map_eq_some_iff] at he
    obtain ⟨⟨r₁, w₁⟩, he, heq⟩ := he
    cases heq
    cases op with
    | query q =>
      simp only [World.effect] at he
      split at he
      · cases he
        cases q <;> trivial
      · cases he
        cases q with
        | ticket id => exact fun hw => congrArg (fun db : DB S => db.tickets.find? id) (hview hw)
        | agentRun id => exact fun hw => congrArg (fun db : DB S => db.agentRuns.find? id) (hview hw)
        | _ => trivial
    | _ => trivial
  · have hwrote : s.wrote = false ∧ op.writes = false := by
      simpa [Score.note, Bool.or_eq_false_iff] using hw
    obtain ⟨hdb, hnil⟩ := h.found hwrote.1
    obtain ⟨hdb', hnil'⟩ := World.exec_of_not_writes he hwrote.2 hnil
    exact ⟨hdb'.trans hdb, hnil'⟩

end Score

end AgentDesk
