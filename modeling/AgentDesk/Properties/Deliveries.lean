import AgentDesk.Logic.Delivery

namespace AgentDesk

open Framework (Table)

variable {S : Type} {cfg : Config S} {c : Nat} {w w' : World S}

namespace World

def deliveryStatus (w : World S) (id : Uuid) : Option DeliveryStatus :=
  (w.db.webhookDeliveries.find? id).map WebhookDelivery.status

/-- The number of audit rows that say that the delivery was sent. -/
def sentRows (w : World S) (id : Uuid) : Nat :=
  (w.db.auditLogs.rows.filter fun a => a.event == .webhookSent && a.targetId == some id.str).length

/-- The answers to the POSTs since `w`. -/
def postsSince (w w' : World S) : List (Except Err Nat) := posts (w'.calls.drop w.calls.length)

/-- Nothing is in progress, the delivery can be attempted, and the sessions from `c` on are new. -/
structure Deliverable (c : Nat) (d : WebhookDelivery) (w : World S) : Prop where
  idle : ∀ e, w.tx? e = none
  row : w.db.webhookDeliveries.find? d.id = some d
  webhook : ∃ hook, w.db.webhooks.find? d.webhookId = some hook
  auditLogs : ∀ a ∈ w.db.auditLogs.rows, a.id.session < c

theorem Deliverable.new {d : WebhookDelivery} (h : w.Deliverable c d) :
    w.db.auditLogs.find? ⟨c, 0⟩ = none := by
  refine Table.find?_eq_none.mpr fun a ha hid => ?_
  have := h.auditLogs a ha
  change a.id = ⟨c, 0⟩ at hid
  simp [hid] at this

section

variable {d : WebhookDelivery} {maxRetries : Nat} {r : Except Err Nat}

theorem Deliverable.delivered (h : w.Deliverable c d) (hr : w.Delivered maxRetries c r d w') :
    w'.Deliverable (c + 1) ((d.answered r).settled maxRetries (accepted r)) := by
  refine ⟨hr.idle, hr.row, hr.webhooks ▸ h.webhook, fun a ha => ?_⟩
  obtain ⟨start, hrows⟩ := hr.auditLogs
  rw [hrows, List.mem_append] at ha
  obtain ha | ha := ha
  · exact Nat.lt_succ_of_lt (h.auditLogs a ha)
  · split at ha
    · obtain rfl := List.mem_singleton.mp ha
      exact Nat.lt_succ_self c
    · cases ha

theorem Delivered.deliveryStatus (h : w.Delivered maxRetries c r d w') :
    w'.deliveryStatus d.id = some (if accepted r then .success
      else if maxRetries ≤ d.attempts + 1 then .failed else d.status) := by
  rw [World.deliveryStatus, h.row]
  rfl

theorem Delivered.sentRows (h : w.Delivered maxRetries c r d w') :
    w'.sentRows d.id = w.sentRows d.id + if accepted r then 1 else 0 := by
  obtain ⟨start, hrows⟩ := h.auditLogs
  rw [World.sentRows, hrows, List.filter_append, List.length_append]
  cases accepted r with
  | false => rfl
  | true =>
    refine congrArg _ ?_
    simp [WebhookDelivery.sent, WebhookDelivery.answered]

end

end World

/-- The delivery of the approval, ready for a worker in session 6. -/
theorem approvedTicket_deliverable : ∃ d,
    (deployment .plain helpfulDraft approvedTicket).world.Deliverable 6 d ∧ d.id = ⟨5, 2⟩ ∧
    d.status = .pending ∧ d.attempts = 0 ∧
    (deployment .plain helpfulDraft approvedTicket).world.sentRows ⟨5, 2⟩ = 0 := by
  have hfound : ((deployment .plain helpfulDraft approvedTicket).world.db.webhookDeliveries.find?
      ⟨5, 2⟩).any (fun d => d.status == .pending && d.attempts == 0 &&
        ((deployment .plain helpfulDraft approvedTicket).world.db.webhooks.find? d.webhookId).isSome) =
          true := by decide +kernel
  have hidle : (deployment .plain helpfulDraft approvedTicket).world.txs = [] :=
    List.isEmpty_iff.mp (by decide +kernel)
  obtain ⟨d, hd, hrow⟩ := (Option.any_eq_true _ _).mp hfound
  simp only [Bool.and_eq_true, beq_iff_eq] at hrow
  have hid : d.id = ⟨5, 2⟩ := Table.key_of_find? hd
  refine ⟨d, ⟨?_, hid ▸ hd, Option.isSome_iff_exists.mp hrow.2, ?_⟩, hid, hrow.1.1, hrow.1.2, ?_⟩
  · simp [World.tx?, hidle]
  · decide +kernel
  · decide +kernel

/-! The task with its retries -/

/-- Follow `deliver_webhook` from its run number `retries` in session `c` on, each retry in the
next session, when the endpoint answers run `k` with `answers k`: the states after the runs, or
`none` when there are more than `steps`. -/
def follow (cfg : Config S) (answers : Nat → Except Err Nat) (base : Nat → Nat → Reply S) :
    (steps : Nat) → (id : Uuid) → (retries c : Nat) → World S → Option (List (World S))
  | 0, _, _, _, _ => none
  | steps + 1, id, retries, c, w =>
    match (Tasks.deliverWebhook cfg id retries (.start c)).run (serverWhere cfg.platform Op.isPost) c
      (answering (answers retries) (base retries)) w with
    | some ((.ok (.retry id' retries' _), _), w', _) =>
      (follow cfg answers base steps id' retries' (c + 1) w').map (w' :: ·)
    | some (_, w', _) => some [w']
    | none => none

theorem deliverWebhook_run {d : WebhookDelivery} (h : w.Deliverable c d) (retries : Nat)
    (r : Except Err Nat) (base : Nat → Reply S) :
    ∃ σ' w' env', (Tasks.deliverWebhook cfg d.id retries (.start c)).run
      (serverWhere cfg.platform Op.isPost) c (answering r base) w = some ((.ok
        (if !accepted r && decide (retries < cfg.settings.webhookMaxRetries) then
          .retry d.id (retries + 1) (cfg.settings.webhookBackoffBaseSeconds * 2 ^ retries)
        else .finished), σ'), w', env') ∧
      w.Delivered cfg.settings.webhookMaxRetries c r d w' := by
  obtain ⟨hook, hhook⟩ := h.webhook
  obtain ⟨σ', w', env', hrun, hdelivered⟩ :=
    @deliverOnce_run S cfg c w d hook h.idle h.row hhook h.new r base
  refine ⟨σ', w', env', ?_, hdelivered⟩
  rw [Tasks.deliverWebhook, M.bind_apply, Framework.Program.run_bind, hrun]
  simp only [Option.bind_some]
  split <;> rfl

/-- The status of the delivery after run `k`. -/
def statusAfter (maxRetries : Nat) (answers : Nat → Except Err Nat) (k : Nat) : DeliveryStatus :=
  if accepted (answers k) then .success else if maxRetries ≤ k + 1 then .failed else .pending

/-- The runs from number `k` on go on until the first answer 2xx or run number `maxRetries`. -/
structure Followed (maxRetries : Nat) (answers : Nat → Except Err Nat) (id : Uuid) (k : Nat)
    (w : World S) (ws : List (World S)) : Prop where
  length : ∃ m, ws.length = m + 1 ∧ k + m ≤ maxRetries ∧
    (accepted (answers (k + m)) = true ∨ k + m = maxRetries) ∧
      ∀ i < m, accepted (answers (k + i)) = false
  status : ∀ i w', ws[i]? = some w' →
    w'.deliveryStatus id = some (statusAfter maxRetries answers (k + i))
  posts : ∀ w', ws.getLast? = some w' → ∃ cs, w'.calls = w.calls ++ cs ∧
    AgentDesk.posts cs = (List.range ws.length).map fun i => answers (k + i)

theorem Followed.last {maxRetries : Nat} {answers : Nat → Except Err Nat} {id : Uuid} {k : Nat}
    (hr : w.Delivered maxRetries c (answers k) d w') (hk : k ≤ maxRetries)
    (hstatus : w'.deliveryStatus id = some (statusAfter maxRetries answers k))
    (hlast : accepted (answers k) = true ∨ k = maxRetries) :
    Followed maxRetries answers id k w [w'] := by
  refine ⟨⟨0, rfl, hk, hlast, by simp⟩, ?_, ?_⟩
  · intro i w₂ hi
    obtain ⟨rfl, rfl⟩ : i = 0 ∧ w' = w₂ := by
      cases i <;> simp_all
    exact hstatus
  · intro w₂ hw₂
    obtain rfl : w' = w₂ := by simpa using hw₂
    simpa using hr.posts

theorem Followed.cons {maxRetries : Nat} {answers : Nat → Except Err Nat} {id : Uuid} {k : Nat}
    {ws : List (World S)} (hr : w.Delivered maxRetries c (answers k) d w')
    (hstatus : w'.deliveryStatus id = some (statusAfter maxRetries answers k))
    (hrefused : accepted (answers k) = false) (hws : Followed maxRetries answers id (k + 1) w' ws) :
    Followed maxRetries answers id k w (w' :: ws) := by
  obtain ⟨m, hlength, hm, hlast, hbefore⟩ := hws.length
  have hadd : ∀ i, k + 1 + i = k + (i + 1) := by omega
  refine ⟨⟨m + 1, by simp [hlength], by omega, hadd m ▸ hlast, fun i hi => ?_⟩, ?_, ?_⟩
  · cases i with
    | zero => exact hrefused
    | succ i => exact hadd i ▸ hbefore i (by omega)
  · intro i w₂ hi
    cases i with
    | zero =>
      obtain rfl : w' = w₂ := by simpa using hi
      exact hstatus
    | succ i => exact hadd i ▸ hws.status i w₂ (by simpa using hi)
  · intro w₂ hw₂
    rw [List.getLast?_cons_of_ne_nil (List.ne_nil_of_length_pos (by omega))] at hw₂
    obtain ⟨cs, hcs, hposts⟩ := hr.posts
    obtain ⟨cs', hcs', hposts'⟩ := hws.posts w₂ hw₂
    refine ⟨cs ++ cs', by simp [hcs, hcs'], ?_⟩
    rw [posts_append, hposts, hposts', List.length_cons, List.range_succ_eq_map]
    simp [hadd]

theorem follow_spec (cfg : Config S) (answers : Nat → Except Err Nat) (base : Nat → Nat → Reply S)
    (steps k : Nat) {d : WebhookDelivery} (h : w.Deliverable c d)
    (hk : k ≤ cfg.settings.webhookMaxRetries)
    (hsteps : cfg.settings.webhookMaxRetries < k + steps) (hattempts : d.attempts = k)
    (hstatus : k < cfg.settings.webhookMaxRetries → d.status = .pending) :
    ∃ ws, follow cfg answers base steps d.id k c w = some ws ∧
      Followed cfg.settings.webhookMaxRetries answers d.id k w ws := by
  induction steps generalizing k c w d with
  | zero => omega
  | succ steps ih =>
    obtain ⟨σ', w', env', hrun, hdelivered⟩ :=
      @deliverWebhook_run S cfg c w d h k (answers k) (base k)
    have hafter : w'.deliveryStatus d.id =
        some (statusAfter cfg.settings.webhookMaxRetries answers k) := by
      rw [hdelivered.deliveryStatus, statusAfter, hattempts]
      by_cases hend : cfg.settings.webhookMaxRetries ≤ k + 1
      · simp [hend]
      · simp [hend, hstatus (by omega)]
    by_cases hretry : accepted (answers k) = false ∧ k < cfg.settings.webhookMaxRetries
    · obtain ⟨hrefused, hlt⟩ := hretry
      obtain ⟨ws, hws, hfollowed⟩ := ih (k + 1) (h.delivered hdelivered) (by omega) (by omega)
        (by simp [WebhookDelivery.settled, WebhookDelivery.answered, hattempts]) (by
          intro hlt'
          have hend : ¬cfg.settings.webhookMaxRetries ≤ k + 1 := by omega
          simp [WebhookDelivery.settled, WebhookDelivery.answered, hrefused, hattempts, hend,
            hstatus hlt])
      refine ⟨w' :: ws, ?_, hfollowed.cons hdelivered hafter hrefused⟩
      simp only [hrefused, hlt, Bool.not_false, decide_true, Bool.and_self, if_true] at hrun
      simp only [follow, hrun]
      exact congrArg (Option.map _) hws
    · refine ⟨[w'], ?_, Followed.last hdelivered hk hafter ?_⟩
      · have hnot : (!accepted (answers k) && decide (k < cfg.settings.webhookMaxRetries)) = false := by
          simpa using hretry
        rw [hnot, if_neg Bool.false_ne_true] at hrun
        simp only [follow, hrun]
      · cases hacc : accepted (answers k) with
        | true => exact .inl rfl
        | false => exact .inr (by simp [hacc] at hretry; omega)

/-- At most `maxRetries` POSTs are made, the delivery ends as a success when one of them was
answered 2xx and else as failed, and it is failed exactly when no attempt follows. -/
structure RetriesBounded (maxRetries : Nat) (answers : Nat → Except Err Nat) (id : Uuid)
    (w : World S) (ws : List (World S)) : Prop where
  posts : ∀ w', ws.getLast? = some w' → (w.postsSince w').length ≤ maxRetries
  ends : ∀ w', ws.getLast? = some w' →
    ((∃ i < maxRetries, accepted (answers i) = true) → w'.deliveryStatus id = some .success) ∧
    ((¬∃ i < maxRetries, accepted (answers i) = true) → w'.deliveryStatus id = some .failed)
  failed : ∀ i w', ws[i]? = some w' → (w'.deliveryStatus id = some .failed ↔
    i + 1 = ws.length ∧ w'.deliveryStatus id ≠ some .success)

theorem Followed.retriesBounded {maxRetries : Nat} {answers : Nat → Except Err Nat} {id : Uuid}
    {ws : List (World S)} (h : Followed maxRetries answers id 0 w ws) :
    RetriesBounded maxRetries answers id w ws ↔ ∃ i < maxRetries, accepted (answers i) = true := by
  obtain ⟨m, hlength, hm, hlast, hbefore⟩ := h.length
  simp only [Nat.zero_add] at hm hlast hbefore
  have hposts : ∀ w', ws.getLast? = some w' → (w.postsSince w').length = m + 1 := by
    intro w' hw'
    obtain ⟨cs, hcs, hanswers⟩ := h.posts w' hw'
    rw [World.postsSince, hcs, List.drop_left, hanswers, List.length_map, List.length_range,
      hlength]
  refine ⟨fun hbounded => ?_, fun ⟨i, hi, haccepted⟩ => ?_⟩
  · obtain ⟨w', hw'⟩ : ∃ w', ws.getLast? = some w' :=
      ⟨_, List.getLast?_eq_getLast_of_ne_nil (List.ne_nil_of_length_pos (by omega))⟩
    have hle := hbounded.posts w' hw'
    rw [hposts w' hw'] at hle
    exact ⟨m, hle, hlast.resolve_right (by omega)⟩
  · have hmi : m ≤ i := by
      by_contra hlt
      simp [hbefore i (by omega)] at haccepted
    have hacc : accepted (answers m) = true := hlast.resolve_right (by omega)
    refine ⟨fun w' hw' => ?_, fun w' hw' => ⟨fun _ => ?_, fun hnone => ?_⟩, fun j w' hj => ?_⟩
    · rw [hposts w' hw']
      omega
    · rw [List.getLast?_eq_getElem?, hlength] at hw'
      simpa [statusAfter, hacc] using h.status m w' hw'
    · exact absurd ⟨i, hi, haccepted⟩ hnone
    · have hstatus := h.status j w' hj
      have hjm : j ≤ m := by
        have := (List.getElem?_eq_some_iff.mp hj).1
        omega
      rw [Nat.zero_add] at hstatus
      obtain rfl | hlt := Nat.eq_or_lt_of_le hjm
      · simp [hstatus, statusAfter, hacc]
      · have hend : ¬maxRetries ≤ j + 1 := by omega
        have hne : j + 1 ≠ ws.length := by omega
        simp [hstatus, statusAfter, hbefore j hlt, hend, hne]

/-- The task and its retries come to an end, and keep the bound exactly when one of the first
`webhook_max_retries` answers is 2xx. -/
theorem follow_retriesBounded (cfg : Config S) (answers : Nat → Except Err Nat)
    (base : Nat → Nat → Reply S) (c : Nat) (w : World S) (d : WebhookDelivery)
    (h : w.Deliverable c d) (hstatus : d.status = .pending)
    (hattempts : d.attempts = 0) (steps : Nat) (hsteps : cfg.settings.webhookMaxRetries < steps) :
    ∃ ws, follow cfg answers base steps d.id 0 c w = some ws ∧
      (RetriesBounded cfg.settings.webhookMaxRetries answers d.id w ws ↔
        ∃ i < cfg.settings.webhookMaxRetries, accepted (answers i) = true) := by
  obtain ⟨ws, hws, hfollowed⟩ := follow_spec cfg answers base steps 0 h (Nat.zero_le _) (by omega)
    hattempts fun _ => hstatus
  exact ⟨ws, hws, hfollowed.retriesBounded⟩

/-- The endpoint answers 500 throughout: the delivery is failed after five POSTs, and a sixth
one is sent. -/
theorem approvedTicket_sentAgain : ∃ ws,
    follow .plain (fun _ => .ok 500) (fun _ _ => .plain) 7 ⟨5, 2⟩ 0 6
      (deployment .plain helpfulDraft approvedTicket).world = some ws ∧
    ¬RetriesBounded 5 (fun _ => .ok 500) ⟨5, 2⟩
      (deployment .plain helpfulDraft approvedTicket).world ws := by
  have hsent : (follow .plain (fun _ => .ok 500) (fun _ _ => .plain) 7 ⟨5, 2⟩ 0 6
      (deployment .plain helpfulDraft approvedTicket).world).map (fun ws => ws.getLast?.map fun w =>
        ((deployment .plain helpfulDraft approvedTicket).world.postsSince w).length) =
          some (some 6) := by decide +kernel
  obtain ⟨ws, hws, hlast⟩ := Option.map_eq_some_iff.mp hsent
  obtain ⟨w, hw, hcount⟩ := Option.map_eq_some_iff.mp hlast
  refine ⟨ws, hws, fun hbounded => ?_⟩
  have := hbounded.posts w hw
  omega

theorem approvedTicket_retriesBounded : ∃ (d : WebhookDelivery) (ws : List (World ℚ)),
    d.id = ⟨5, 2⟩ ∧
    follow .plain (fun k => .ok (if k < 2 then 500 else 204)) (fun _ _ => .plain) 6 d.id 0 6
      (deployment .plain helpfulDraft approvedTicket).world = some ws ∧
    (RetriesBounded 5 (fun k => .ok (if k < 2 then 500 else 204)) d.id
      (deployment .plain helpfulDraft approvedTicket).world ws ↔
        ∃ i < 5, accepted (.ok (if i < 2 then 500 else 204)) = true) := by
  obtain ⟨d, hd, hid, hstatus, hattempts, -⟩ := approvedTicket_deliverable
  obtain ⟨ws, hws, hbounded⟩ := follow_retriesBounded .plain
    (fun k => .ok (if k < 2 then 500 else 204)) (fun _ _ => .plain) 6
    (deployment .plain helpfulDraft approvedTicket).world d hd hstatus hattempts 6 (by decide)
  exact ⟨d, ws, hid, hws, hbounded⟩

/-! At-least-once execution -/

/-- The states after executions of `deliver_once`, one after another in the sessions from `c`
on, when the endpoint gives these answers. -/
def executions (cfg : Config S) (id : Uuid) (base : Nat → Nat → Reply S) :
    Nat → List (Except Err Nat) → World S → List (World S)
  | _, [], _ => []
  | c, r :: rs, w =>
    match (sessionScope (WebhookService.deliverOnce cfg id true) (.start c)).run
      (serverWhere cfg.platform Op.isPost) c (answering r (base c)) w with
    | none => []
    | some (_, w', _) => w' :: executions cfg id base (c + 1) rs w'

/-- Once the delivery is a success, nothing more is sent for it, it stays a success, and one
audit row says that it was sent. -/
def StaysFinished (id : Uuid) (ws : List (World S)) : Prop :=
  ∀ (i j : Nat) (w w' : World S), i ≤ j → ws[i]? = some w → ws[j]? = some w' → w.deliveryStatus id = some .success →
    w.postsSince w' = [] ∧ w'.deliveryStatus id = some .success ∧ w'.sentRows id = 1

/-- The state after the executions that were answered with `rs`. -/
structure Executions (d : WebhookDelivery) (rs : List (Except Err Nat)) (w w' : World S) : Prop where
  calls : ∃ cs, w'.calls = w.calls ++ cs ∧ posts cs = rs
  sentRows : w'.sentRows d.id = w.sentRows d.id + rs.countP accepted
  succeeded : ∀ r, rs.getLast? = some r → accepted r = true →
    w'.deliveryStatus d.id = some .success
  refused : d.status ≠ .success → (∀ r ∈ rs, accepted r = false) →
    w'.deliveryStatus d.id ≠ some .success

section

variable {d : WebhookDelivery} {maxRetries : Nat} {r : Except Err Nat} {rs : List (Except Err Nat)}
  {w₁ w₂ : World S}

theorem settled_ne_success (hd : d.status ≠ .success) :
    ((d.answered r).settled maxRetries false).status ≠ .success := by
  simp only [WebhookDelivery.settled, WebhookDelivery.answered, Bool.false_eq_true, if_false]
  by_cases h : maxRetries ≤ d.attempts + 1 <;> simp [h, hd]

theorem executions_single (h : w.Delivered maxRetries c r d w₁) : Executions d [r] w w₁ := by
  refine ⟨h.posts, ?_, ?_, ?_⟩
  · rw [h.sentRows]
    cases hr : accepted r <;> simp [hr]
  · rintro _ hlast hr
    obtain rfl : r = _ := by simpa using hlast
    simp [h.deliveryStatus, hr]
  · intro hd hall
    have hr : accepted r = false := hall r (by simp)
    rw [World.deliveryStatus, h.row, hr, Option.map_some, ne_eq, Option.some.injEq]
    exact settled_ne_success hd

theorem Executions.cons (h : w.Delivered maxRetries c r d w₁)
    (hrs : Executions ((d.answered r).settled maxRetries (accepted r)) rs w₁ w₂) (hne : rs ≠ []) :
    Executions d (r :: rs) w w₂ := by
  obtain ⟨cs, hcs, hr⟩ := h.posts
  obtain ⟨cs', hcs', hrs'⟩ := hrs.calls
  refine ⟨⟨cs ++ cs', by simp [hcs, hcs'], by simp [hr, hrs']⟩, ?_, ?_, ?_⟩
  · refine hrs.sentRows.trans ?_
    have := h.sentRows
    change w₁.sentRows d.id + _ = _
    rw [this, List.countP_cons]
    omega
  · rintro x hlast hx
    rw [List.getLast?_cons_of_ne_nil hne] at hlast
    exact hrs.succeeded x hlast hx
  · intro hd hall
    have hr : accepted r = false := hall r (by simp)
    refine hrs.refused ?_ fun x hx => hall x (List.mem_cons_of_mem r hx)
    rw [hr]
    exact settled_ne_success hd

end

theorem executions_cons (cfg : Config S) (base : Nat → Nat → Reply S) (r : Except Err Nat)
    (rs : List (Except Err Nat)) {d : WebhookDelivery} (h : w.Deliverable c d) :
    ∃ w₁, executions cfg d.id base c (r :: rs) w = w₁ :: executions cfg d.id base (c + 1) rs w₁ ∧
      w.Delivered cfg.settings.webhookMaxRetries c r d w₁ := by
  obtain ⟨hook, hhook⟩ := h.webhook
  obtain ⟨σ', w₁, env', hrun, hdelivered⟩ :=
    @deliverOnce_run S cfg c w d hook h.idle h.row hhook h.new r (base c)
  exact ⟨w₁, by simp only [executions, hrun], hdelivered⟩

/-- Each of the states is as the answers so far ask for, and the rest starts from there. -/
theorem executions_spec (cfg : Config S) (base : Nat → Nat → Reply S) (rs : List (Except Err Nat))
    {d : WebhookDelivery} (h : w.Deliverable c d) :
    (executions cfg d.id base c rs w).length = rs.length ∧
      ∀ i w', (executions cfg d.id base c rs w)[i]? = some w' →
        Executions d (rs.take (i + 1)) w w' ∧
        ∃ d', d'.id = d.id ∧ w'.Deliverable (c + i + 1) d' ∧
          (executions cfg d.id base c rs w).drop (i + 1) =
            executions cfg d.id base (c + i + 1) (rs.drop (i + 1)) w' := by
  induction rs generalizing c w d with
  | nil => simp [executions]
  | cons r rs ih =>
    obtain ⟨w₁, hexec, hdelivered⟩ := executions_cons cfg base r rs h
    have hnext := h.delivered hdelivered
    obtain ⟨hlength, hspec⟩ := ih hnext
    rw [hexec]
    refine ⟨congrArg (· + 1) hlength, fun i w' hi => ?_⟩
    cases i with
    | zero =>
      obtain rfl : w₁ = w' := by simpa using hi
      exact ⟨by simpa using executions_single hdelivered,
        (d.answered r).settled cfg.settings.webhookMaxRetries (accepted r), rfl, hnext, rfl⟩
    | succ i =>
      have hi' : (executions cfg d.id base (c + 1) rs w₁)[i]? = some w' := by simpa using hi
      have hlt : i < rs.length := hlength ▸ (List.getElem?_eq_some_iff.mp hi').1
      obtain ⟨hexecs, d', hid, hdel, hdrop⟩ := hspec i w' hi'
      have hc : c + 1 + i + 1 = c + (i + 1) + 1 := by omega
      refine ⟨Executions.cons hdelivered hexecs ?_, d', hid, hc ▸ hdel, ?_⟩
      · rw [ne_eq, List.take_eq_nil_iff]
        rintro (h | rfl)
        · cases h
        · cases hlt
      · rw [List.drop_succ_cons, List.drop_succ_cons, ← hc]
        exact hdrop

/-- What the deliveries promise holds of every sequence of executions in which none follows one
that was answered 2xx, and of no other. -/
theorem executions_stayFinished (cfg : Config S) (base : Nat → Nat → Reply S) (c : Nat)
    (rs : List (Except Err Nat)) (w : World S) (d : WebhookDelivery) (h : w.Deliverable c d)
    (hstatus : d.status ≠ .success) (hsent : w.sentRows d.id = 0) :
    (executions cfg d.id base c rs w).length = rs.length ∧
      (StaysFinished d.id (executions cfg d.id base c rs w) ↔
        ∀ r ∈ rs.dropLast, accepted r = false) := by
  obtain ⟨hlength, hspec⟩ := executions_spec cfg base rs h
  refine ⟨hlength, fun hstays => ?_, fun hrefused => ?_⟩
  · intro r hr
    by_contra haccepted
    obtain ⟨i, hi, hri⟩ := List.getElem_of_mem hr
    rw [List.length_dropLast] at hi
    obtain ⟨w₁, hw₁⟩ : ∃ w₁, (executions cfg d.id base c rs w)[i]? = some w₁ :=
      ⟨_, List.getElem?_eq_getElem (by omega)⟩
    obtain ⟨w₂, hw₂⟩ : ∃ w₂, (executions cfg d.id base c rs w)[i + 1]? = some w₂ :=
      ⟨_, List.getElem?_eq_getElem (by omega)⟩
    obtain ⟨hexecs, d', hid, hdel, hdrop⟩ := hspec i w₁ hw₁
    have hsuccess := hexecs.succeeded r (by
      rw [List.getLast?_take]
      simp [← hri, List.getElem_dropLast]) (by simpa using haccepted)
    obtain ⟨hposts, -, -⟩ := hstays i (i + 1) w₁ w₂ (Nat.le_succ i) hw₁ hw₂ hsuccess
    have hnext : (executions cfg d'.id base (c + i + 1) (rs.drop (i + 1)) w₁)[0]? = some w₂ := by
      rw [hid, ← hdrop, List.getElem?_drop]
      exact hw₂
    obtain ⟨⟨cs, hcs, hrest⟩, -, -, -⟩ := ((executions_spec cfg base _ hdel).2 0 w₂ hnext).1
    rw [World.postsSince, hcs, List.drop_left, hrest, List.take_eq_nil_iff] at hposts
    obtain h | h := hposts
    · cases h
    · rw [List.drop_eq_nil_iff] at h
      omega
  · rintro i j w₁ w₂ hij hi hj hsuccess
    have hi₁ : i < rs.length := hlength ▸ (List.getElem?_eq_some_iff.mp hi).1
    have hj₁ : j < rs.length := hlength ▸ (List.getElem?_eq_some_iff.mp hj).1
    obtain ⟨hexecs, -⟩ := hspec i w₁ hi
    have hlast : i + 1 = rs.length := by
      by_contra hne
      refine hexecs.refused hstatus (fun r hr => hrefused r ?_) hsuccess
      rw [List.dropLast_eq_take]
      exact List.take_subset_take_left rs (by omega) hr
    obtain rfl : i = j := by omega
    obtain rfl := Option.some.inj (hi.symm.trans hj)
    refine ⟨by simp [World.postsSince], hsuccess, ?_⟩
    rw [hexecs.sentRows, hsent, hlast, List.take_length]
    have hne : rs ≠ [] := List.ne_nil_of_length_pos (by omega)
    rw [← List.dropLast_append_getLast hne, List.countP_append,
      List.countP_eq_zero.mpr (by simpa using hrefused)]
    cases hacc : accepted (rs.getLast hne) with
    | true => simp [hacc]
    | false =>
      refine absurd hsuccess (hexecs.refused hstatus fun r hr => ?_)
      rw [hlast, List.take_length, ← List.dropLast_append_getLast hne, List.mem_append,
        List.mem_singleton] at hr
      obtain hr | rfl := hr
      · exact hrefused r hr
      · exact hacc

/-- The first execution is accepted, and a duplicate of the task sends the notification again. -/
theorem approvedTicket_sentTwice : ¬StaysFinished ⟨5, 2⟩
    (executions .plain ⟨5, 2⟩ (fun _ _ => .plain) 6 [.ok 200, .ok 200]
      (deployment .plain helpfulDraft approvedTicket).world) := by
  intro h
  have hsent : ((executions .plain ⟨5, 2⟩ (fun _ _ => .plain) 6 [.ok 200, .ok 200]
      (deployment .plain helpfulDraft approvedTicket).world)[1]?).map (fun w =>
        (w.deliveryStatus ⟨5, 2⟩, w.sentRows ⟨5, 2⟩)) = some (some .success, 2) := by
    decide +kernel
  obtain ⟨w, hw, heq⟩ := Option.map_eq_some_iff.mp hsent
  obtain ⟨hstatus, hcount⟩ := Prod.mk.inj heq
  have := (h 1 1 w w le_rfl hw hw hstatus).2.2
  omega

theorem approvedTicket_executions : ∃ d : WebhookDelivery, d.id = ⟨5, 2⟩ ∧
    (executions .plain d.id (fun _ _ => .plain) 6 [.error (.io "timeout"), .ok 200]
      (deployment .plain helpfulDraft approvedTicket).world).length = 2 ∧
    (StaysFinished d.id (executions .plain d.id (fun _ _ => .plain) 6 [.error (.io "timeout"), .ok 200]
      (deployment .plain helpfulDraft approvedTicket).world) ↔
        ∀ r ∈ [(.error (.io "timeout") : Except Err Nat), .ok 200].dropLast, accepted r = false) := by
  obtain ⟨d, hd, hid, hstatus, -, hsent⟩ := approvedTicket_deliverable
  exact ⟨d, hid, executions_stayFinished .plain (fun _ _ => .plain) 6
    [.error (.io "timeout"), .ok 200] (deployment .plain helpfulDraft approvedTicket).world d hd
    (by simp [hstatus]) (hid ▸ hsent)⟩

end AgentDesk
