import AgentDesk.Logic.Announcement
import AgentDesk.Api.Jobs

namespace AgentDesk

open Framework (Table)

variable {S α : Type} {cfg : Config S} {P : Platform} {c n : Nat} {faults : Op S → Bool}
  {db db' : DB S} {w w' : World S} {start : Time}

/-! The answers of the endpoint -/

/-- What a POST comes to under this reply. -/
def Reply.answer (reply : Reply S) : Except Err Nat :=
  match reply.fault with
  | some e => .error e
  | none => .ok reply.status

/-- The environment in which the endpoint answers `r`, and all else is as in `base`. -/
def answering (r : Except Err Nat) (base : Nat → Reply S) (n : Nat) : Reply S :=
  match r with
  | .ok status => { base n with fault := none, status }
  | .error e => { base n with fault := some e }

@[simp] theorem answer_answering (r : Except Err Nat) (base : Nat → Reply S) (n : Nat) :
    (answering r base n).answer = r := by
  cases r <;> rfl

/-- A run logs its calls, and each of its POSTs was answered by the environment. -/
theorem posts_of_run {p : Framework.Program (Op S) Res α} {env env' : Nat → Reply S} {a : α}
    (h : p.run (serverWhere P Op.isPost) c env w = some (a, w', env')) :
    ∃ cs, w'.calls = w.calls ++ cs ∧ ∀ r ∈ posts cs, ∃ i, r = (env i).answer := by
  induction p generalizing w env with
  | ret b =>
    cases h
    exact ⟨[], by simp, by simp [posts]⟩
  | call op next ih =>
    rw [Framework.Program.run] at h
    split at h
    · cases h
    · rename_i r w₁ hexec
      obtain ⟨cs, hcs, hposts⟩ := ih r h
      have hcalls := (World.steps_of_exec hexec).calls
      refine ⟨⟨c, op, r⟩ :: cs, by simp [hcs, hcalls], ?_⟩
      intro x hx
      rw [posts, List.flatMap_cons, List.mem_append] at hx
      obtain hx | hx := hx
      · cases op with
        | post url body headers =>
          obtain rfl := List.mem_singleton.mp hx
          refine ⟨0, ?_⟩
          simp only [serverWhere, World.exec, World.effect, Op.isPost, if_true,
            Option.map_some, Option.some.injEq, Prod.mk.injEq] at hexec
          exact hexec.1.symm
        | _ => cases hx
      · obtain ⟨i, hi⟩ := hposts x hx
        exact ⟨i + 1, hi⟩

/-! One attempt in a session of its own -/

theorem WebhookDelivery.diff_settled (d : WebhookDelivery) (r : Except Err Nat) (maxRetries : Nat)
    (success : Bool) : (d.diff ((d.answered r).settled maxRetries success)).apply d =
      (d.answered r).settled maxRetries success := by
  simp [WebhookDelivery.diff, DeliveryPatch.apply, changed_getD, settled, answered]

theorem deliverOnce_solo {d : WebhookDelivery} {hook : Webhook} {past : List (DB S)} {tally : Tally}
    (hd : db.webhookDeliveries.find? d.id = some d)
    (hw : db.webhooks.find? d.webhookId = some hook) :
    (sessionScope (WebhookService.deliverOnce cfg d.id true)).Triple
      (Solo.observer cfg.platform faults Tally.note c)
      (fun x _ s' => ∃ r start, x = accepted r ∧ s'.tx = none ∧
        s'.db = applyAll start db
          (d.settlement (d.answered r) cfg.settings.webhookMaxRetries ⟨c, 0⟩ x) ∧
        s'.tally.posts = tally.posts ++ [r])
      (fun _ _ _ => Faulty faults ∨ (db.auditLogs.find? ⟨c, 0⟩).isSome)
      (.start c) ⟨db, none, past, tally⟩ := by
  obtain ⟨flags, ps⟩ := tally
  refine Solo.sessionScope_solo ?_
  have faulty : ∀ op : Op S, op.isPost = false → faults op = true →
      Faulty faults ∨ (db.auditLogs.find? ⟨c, 0⟩).isSome := fun op h h' => Or.inl ⟨op, h, h'⟩
  simp [WebhookService.deliverOnce, Session.start, hd]
  refine ⟨fun _ h => faulty _ rfl h, ?_⟩
  rintro _ now rfl
  refine ⟨fun _ h => faulty _ rfl h, by simp [hw], fun w _ => ?_⟩
  refine M.triple_mono (performAttempt_solo (by simp) (by simp) (by simp) (by simp) (by simp)
    (by simp) true) ?_ ?_
  · rintro x _ _ ⟨r, hx, -, rfl⟩
    exact ⟨r, hx, ⟨now, rfl⟩, rfl⟩
  · rintro _ _ s' ⟨-, -, -, -, h⟩
    exact h

/-- What an attempt that the endpoint answered with `r` does. -/
structure World.Delivered (maxRetries c : Nat) (r : Except Err Nat) (d : WebhookDelivery)
    (w w' : World S) : Prop where
  idle : ∀ e, w'.tx? e = none
  posts : ∃ cs, w'.calls = w.calls ++ cs ∧ posts cs = [r]
  row : w'.db.webhookDeliveries.find? d.id = some ((d.answered r).settled maxRetries (accepted r))
  webhooks : w'.db.webhooks = w.db.webhooks
  auditLogs : ∃ start, w'.db.auditLogs.rows = w.db.auditLogs.rows ++
    if accepted r then [{ (d.answered r).sent ⟨c, 0⟩ with createdAt := start }] else []

theorem delivered_settlement {d : WebhookDelivery} (r : Except Err Nat) (maxRetries : Nat)
    (hd : db.webhookDeliveries.find? d.id = some d) (hnew : db.auditLogs.find? ⟨c, 0⟩ = none) :
    let db' := applyAll start db (d.settlement (d.answered r) maxRetries ⟨c, 0⟩ (accepted r))
    db'.webhookDeliveries.find? d.id = some ((d.answered r).settled maxRetries (accepted r)) ∧
      db'.webhooks = db.webhooks ∧
      db'.auditLogs.rows = db.auditLogs.rows ++
        if accepted r then [{ (d.answered r).sent ⟨c, 0⟩ with createdAt := start }] else [] := by
  have hrow : (db.webhookDeliveries.update d.id
      (d.diff ((d.answered r).settled maxRetries (accepted r))).apply fun _ => rfl).find? d.id =
        some ((d.answered r).settled maxRetries (accepted r)) := by
    rw [Table.find?_update (f := (d.diff ((d.answered r).settled maxRetries (accepted r))).apply)
      fun _ => rfl, if_pos rfl, hd, Option.map_some, d.diff_settled]
  cases h : accepted r with
  | false =>
    rw [h] at hrow
    exact ⟨hrow, rfl, (List.append_nil _).symm⟩
  | true =>
    rw [h] at hrow
    exact ⟨hrow, rfl, Table.rows_insert (t := db.auditLogs)
      (r := { (d.answered r).sent ⟨c, 0⟩ with createdAt := start }) hnew⟩

theorem not_faulty_isPost : ¬Faulty (@Op.isPost S) := by
  rintro ⟨op, h, h'⟩
  rw [h] at h'
  cases h'

/-- An attempt in a session of its own comes to its end, and does what the endpoint's answer
asks for. -/
theorem deliverOnce_run {d : WebhookDelivery} {hook : Webhook} (hidle : ∀ e, w.tx? e = none)
    (hd : w.db.webhookDeliveries.find? d.id = some d)
    (hw : w.db.webhooks.find? d.webhookId = some hook)
    (hnew : w.db.auditLogs.find? ⟨c, 0⟩ = none) (r : Except Err Nat) (base : Nat → Reply S) :
    ∃ σ' w' env', (sessionScope (WebhookService.deliverOnce cfg d.id true) (.start c)).run
      (serverWhere cfg.platform Op.isPost) c (answering r base) w =
        some ((.ok (accepted r), σ'), w', env') ∧
      World.Delivered cfg.settings.webhookMaxRetries c r d w w' := by
  obtain ⟨⟨result, σ'⟩, w', env', hrun, s', hpost, hat⟩ := Solo.run_of_triple (answering r base)
    (@deliverOnce_solo S cfg c Op.isPost w.db d hook [] .start hd hw) (Solo.at_start hidle)
  obtain ⟨cs, hcs, htally⟩ := hat.calls
  rw [Tally.foldl_note_start] at htally
  obtain ⟨cs', hcs', hanswers⟩ := posts_of_run hrun
  obtain rfl := List.append_cancel_left (hcs.symm.trans hcs')
  cases result with
  | error e => exact absurd hpost (by simp [not_faulty_isPost, hnew])
  | ok x =>
    obtain ⟨r', start, rfl, htx, hdb, hposts⟩ := hpost
    rw [htally] at hposts
    have hr : posts cs = [r'] := hposts
    obtain ⟨i, rfl⟩ := hanswers r' (by simp [hr])
    rw [answer_answering] at hrun hdb hr
    have htables := @delivered_settlement S c w.db start d r cfg.settings.webhookMaxRetries hd hnew
    refine ⟨σ', w', env', hrun, fun e => ?_, ⟨cs, hcs, hr⟩, ?_, ?_, start, ?_⟩
    · by_cases he : e = c
      · subst he
        simpa [htx] using hat.tx
      · exact hat.alone e he
    · rw [hat.db, hdb]
      exact htables.1
    · rw [hat.db, hdb]
      exact htables.2.1
    · rw [hat.db, hdb]
      exact htables.2.2

end AgentDesk
