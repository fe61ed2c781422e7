import AgentDesk.Properties.Deliveries

namespace AgentDesk

variable {S : Type} {cfg : Config S} {c : Nat} {w : World S} {d : WebhookDelivery}
  {r : Except Err Nat} {rs : List (Except Err Nat)}

/-! The result of the last attempt -/

/-- The row shows what an attempt came to: its status code, or its error. -/
structure WebhookDelivery.Describes (d : WebhookDelivery) (r : Except Err Nat) : Prop where
  statusCode : d.lastStatusCode = match r with
    | .ok status => some status
    | .error _ => none
  error : d.lastError = match r with
    | .ok _ => none
    | .error e => some e.str

/-- After each of the attempts the row shows what that attempt came to. -/
def DescribesLast (id : Uuid) (rs : List (Except Err Nat)) (ws : List (World S)) : Prop :=
  ∀ (i : Nat) (r : Except Err Nat) (w : World S), rs[i]? = some r → ws[i]? = some w →
    ∃ d, w.db.webhookDeliveries.find? id = some d ∧ d.Describes r

/-- All attempts get a response and there is no error on record, or all raise and there is no
status code on record. -/
def Unmixed (d : WebhookDelivery) (rs : List (Except Err Nat)) : Prop :=
  rs = [] ∨ ((∀ r ∈ rs, r.isOk = true) ∧ d.lastError = none) ∨
    ((∀ r ∈ rs, r.isOk = false) ∧ d.lastStatusCode = none)

theorem describes_answered (d : WebhookDelivery) (r : Except Err Nat) (maxRetries : Nat) :
    ((d.answered r).settled maxRetries (accepted r)).Describes r ↔ Unmixed d [r] := by
  cases r with
  | ok status =>
    constructor
    · intro h
      have herror : d.lastError = none := h.error
      exact Or.inr (Or.inl ⟨by simp [Except.isOk, Except.toBool], herror⟩)
    · intro h
      have herror : d.lastError = none := by simpa [Unmixed, Except.isOk, Except.toBool] using h
      exact ⟨rfl, herror⟩
  | error e =>
    constructor
    · intro h
      have hcode : d.lastStatusCode = none := h.statusCode
      exact Or.inr (Or.inr ⟨by simp [Except.isOk, Except.toBool], hcode⟩)
    · intro h
      have hcode : d.lastStatusCode = none := by simpa [Unmixed, Except.isOk, Except.toBool] using h
      exact ⟨hcode, rfl⟩

/-- An attempt leaves a row for which the rest is unmixed exactly when all of them are. -/
theorem unmixed_cons (d : WebhookDelivery) (r : Except Err Nat) (rs : List (Except Err Nat))
    (maxRetries : Nat) : Unmixed d (r :: rs) ↔
      Unmixed d [r] ∧ Unmixed ((d.answered r).settled maxRetries (accepted r)) rs := by
  cases r with
  | ok status =>
    have herror : ((d.answered (.ok status)).settled maxRetries
        (accepted (.ok status))).lastError = d.lastError := rfl
    have hcode : ((d.answered (.ok status)).settled maxRetries
        (accepted (.ok status))).lastStatusCode = some status := rfl
    simp only [Unmixed, herror, hcode, List.mem_cons, List.not_mem_nil, or_false]
    cases rs with
    | nil => simp [Except.isOk, Except.toBool]
    | cons x rs => simp [Except.isOk, Except.toBool]
  | error e =>
    have herror : ((d.answered (.error e)).settled maxRetries
        (accepted (.error e))).lastError = some e.str := rfl
    have hcode : ((d.answered (.error e)).settled maxRetries
        (accepted (.error e))).lastStatusCode = d.lastStatusCode := rfl
    simp only [Unmixed, herror, hcode, List.mem_cons, List.not_mem_nil, or_false]
    cases rs with
    | nil => simp [Except.isOk, Except.toBool]
    | cons x rs => simp [Except.isOk, Except.toBool]

theorem describesLast_cons {id : Uuid} {ws : List (World S)} :
    DescribesLast id (r :: rs) (w :: ws) ↔
      (∃ d, w.db.webhookDeliveries.find? id = some d ∧ d.Describes r) ∧ DescribesLast id rs ws := by
  constructor
  · intro h
    exact ⟨h 0 r w rfl rfl, fun i r' w' hr hw => h (i + 1) r' w' hr hw⟩
  · intro h i r' w' hr hw
    cases i with
    | zero =>
      cases hr
      cases hw
      exact h.1
    | succ i => exact h.2 i r' w' hr hw

/-- The record of a delivery describes each attempt in turn exactly when the attempts are not
mixed. -/
theorem executions_describesLast (cfg : Config S) (base : Nat → Nat → Reply S) (c : Nat)
    (rs : List (Except Err Nat)) (w : World S) (d : WebhookDelivery) (h : w.Deliverable c d) :
    (executions cfg d.id base c rs w).length = rs.length ∧
      (DescribesLast d.id rs (executions cfg d.id base c rs w) ↔ Unmixed d rs) := by
  induction rs generalizing c w d with
  | nil =>
    refine ⟨rfl, fun _ => Or.inl rfl, fun _ i r w hr => ?_⟩
    cases hr
  | cons r rs ih =>
    obtain ⟨w₁, hexec, hdelivered⟩ := executions_cons cfg base r rs h
    obtain ⟨hlength, hrest⟩ := ih (c + 1) w₁
      ((d.answered r).settled cfg.settings.webhookMaxRetries (accepted r)) (h.delivered hdelivered)
    rw [hexec]
    refine ⟨congrArg (· + 1) hlength, ?_⟩
    rw [describesLast_cons, unmixed_cons d r rs cfg.settings.webhookMaxRetries]
    refine and_congr ?_ hrest
    rw [← describes_answered d r cfg.settings.webhookMaxRetries, hdelivered.row]
    constructor
    · rintro ⟨d', hd', hdescribes⟩
      cases hd'
      exact hdescribes
    · intro hdescribes
      exact ⟨_, rfl, hdescribes⟩

/-- A timeout and then an accepted attempt: the successful delivery still shows the timeout. -/
theorem approvedTicket_showsTimeout : ¬DescribesLast ⟨5, 2⟩ [.error (.io "timeout"), .ok 200]
    (executions .plain ⟨5, 2⟩ (fun _ _ => .plain) 6 [.error (.io "timeout"), .ok 200]
      (deployment .plain helpfulDraft approvedTicket).world) := by
  intro h
  have hshown : ((executions .plain ⟨5, 2⟩ (fun _ _ => .plain) 6
      [.error (.io "timeout"), .ok 200] (deployment .plain helpfulDraft approvedTicket).world)[1]?).map
        (fun w => (w.db.webhookDeliveries.find? ⟨5, 2⟩).map WebhookDelivery.lastError) =
          some (some (some "timeout")) := by decide +kernel
  obtain ⟨w, hw, heq⟩ := Option.map_eq_some_iff.mp hshown
  obtain ⟨d, hd, hdescribes⟩ := h 1 (.ok 200) w rfl hw
  rw [hd] at heq
  have herror : d.lastError = none := hdescribes.error
  rw [Option.map_some, herror] at heq
  cases heq

theorem approvedTicket_describesLast : ∃ d : WebhookDelivery, d.id = ⟨5, 2⟩ ∧
    (executions .plain d.id (fun _ _ => .plain) 6 [.ok 500, .ok 200]
      (deployment .plain helpfulDraft approvedTicket).world).length = 2 ∧
    (DescribesLast d.id [.ok 500, .ok 200]
      (executions .plain d.id (fun _ _ => .plain) 6 [.ok 500, .ok 200]
        (deployment .plain helpfulDraft approvedTicket).world) ↔ Unmixed d [.ok 500, .ok 200]) := by
  obtain ⟨d, hd, hid, -⟩ := approvedTicket_deliverable
  exact ⟨d, hid, executions_describesLast .plain (fun _ _ => .plain) 6 [.ok 500, .ok 200]
    (deployment .plain helpfulDraft approvedTicket).world d hd⟩

end AgentDesk
