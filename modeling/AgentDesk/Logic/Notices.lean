import AgentDesk.Logic.Progress
import AgentDesk.Logic.Tally

namespace AgentDesk

open Framework (Observer Pool Event Program Table)

variable {S : Type} {cfg : Config S} {workflow : Workflow S} {w : World S} {s : Journal S}
  {start : Time} {db : DB S} {ws : List (Write S)}

/-! What sessions know in the runs of the deployment -/

/-- What the session knows of its own doings. -/
def World.journal (w : World S) (c : Nat) : Journal S :=
  (w.callsOf c).foldl (fun s x => s.after x.1 x.2) .start

/-- A deed after which an announcement is due moved a ticket that the session had read. -/
theorem deed_resolution {ws : List (Write S)} {id : Uuid} {event : String}
    (h : Deed cfg workflow s ws) (hres : ws.findSome? Write.resolution = some (id, event)) :
    ∃ t p e st, s.row id = some t ∧ t.id = id ∧ s.owed = none ∧ p.status = some st ∧
      st.announcement = some event ∧
        ws.filter Write.isHistory = [.updateTicket id p, .insert (.ticketEvent e)] := by
  have hmoved : ∀ {t : Ticket} {p : TicketPatch} {target : TicketStatus} {rest : List (Write S)},
      p.status = some target → (∀ x ∈ rest, x.resolution = none) →
      (Write.updateTicket t.id p :: rest).findSome? Write.resolution = some (id, event) →
        t.id = id ∧ target.announcement = some event := by
    intro t p target rest hp hrest heq
    have hhead : (Write.updateTicket t.id p : Write S).resolution =
        target.announcement.map fun event => (t.id, event) := by
      rw [resolution_updateTicket, hp]
      rfl
    rw [List.findSome?_cons, hhead] at heq
    cases htarget : target.announcement with
    | none =>
      rw [htarget, Option.map_none, List.findSome?_eq_none_iff.mpr hrest] at heq
      cases heq
    | some event' =>
      rw [htarget] at heq
      cases heq
      exact ⟨rfl, rfl⟩
  have hinserts : ∀ {rows : List (Row S)}, ∀ x ∈ rows.map Write.insert, x.resolution = none := by
    intro rows x hx
    obtain ⟨row, -, rfl⟩ := List.mem_map.mp hx
    rfl
  cases h with
  | plain hplain =>
    rw [List.findSome?_eq_none_iff.mpr fun x hx => resolution_of_plain (hplain x hx)] at hres
    cases hres
  | created => cases hres
  | started => cases hres
  | failed => cases hres
  | announced => cases hres
  | @edited t us e read update =>
    have hnone : ∀ x ∈ us ++ [Write.insert (.ticketEvent e)], x.resolution = none := by
      intro x hx
      rcases List.mem_append.mp hx with hx | hx
      · obtain ⟨p, rfl, hp, -⟩ := update x hx
        rw [resolution_updateTicket, hp]
        rfl
      · rw [List.mem_singleton.mp hx]
        rfl
    rw [List.findSome?_eq_none_iff.mpr hnone] at hres
    cases hres
  | @decided t p e a target read free moves decides =>
    obtain ⟨rfl, htarget⟩ := hmoved moves.patch
      (@hinserts [.ticketEvent e, .auditLog a]) hres
    exact ⟨t, p, e, target, read, rfl, free, moves.patch, htarget, rfl⟩
  | @concluded t p e a runId state ws read free yields moves concludes history audit side =>
    rw [findSome?_of_filter (p := Write.isHistory) fun x _ hh => (historyless hh).2, history] at hres
    obtain ⟨rfl, htarget⟩ := hmoved moves.patch (@hinserts [.ticketEvent e]) hres
    exact ⟨t, p, e, state.target, read, rfl, free, moves.patch, htarget, history⟩

/-! The notices that are stored -/

/-- What a delivery tells, and under which key. -/
structure Notice where
  id : Uuid
  event : String
  payload : Json

def WebhookDelivery.notice (d : WebhookDelivery) : Notice := ⟨d.id, d.event, d.payload⟩

def DB.notices (db : DB S) : List Notice := db.webhookDeliveries.rows.map WebhookDelivery.notice

def Json.field? (key : String) : Json → Option Json
  | .obj fields => (fields.find? fun x => x.1 == key).map Prod.snd
  | _ => none

/-- What the payload says of its ticket. -/
def WebhookDelivery.ticketField (d : WebhookDelivery) (key : String) : Option Json :=
  (d.payload.field? "ticket").bind (Json.field? key)

theorem ticketField_of_payload {P : Platform} {d : WebhookDelivery} {t : Ticket} {event : String}
    {id : Uuid} {now : Time} (h : d.payload = WebhookService.buildTicketPayload P t event id now) :
    d.ticketField "id" = some (.str t.id.str) ∧ d.ticketField "status" = some (.str t.status.value) ∧
      d.ticketField "final_response" = some (WebhookService.optional t.finalResponse) := by
  rw [WebhookDelivery.ticketField, WebhookDelivery.ticketField, WebhookDelivery.ticketField, h]
  exact ⟨rfl, rfl, rfl⟩

/-- The statement leaves the notices alone. -/
def Write.Silent : Write S → Prop
  | .insert (.delivery _) => False
  | .updateDelivery _ p => p.payload = none
  | _ => True

theorem notices_apply {x : Write S} (h : x.Silent) : (x.apply start db).notices = db.notices := by
  cases x with
  | insert row => cases row <;> first | rfl | exact h.elim
  | updateDelivery id p =>
    change (db.webhookDeliveries.rows.map fun d => if d.id = id then p.apply d else d).map _ = _
    rw [List.map_map]
    refine List.map_congr_left fun d _ => ?_
    have hsame : (p.apply d).notice = d.notice := by
      simp only [WebhookDelivery.notice, DeliveryPatch.apply, show p.payload = none from h]
      rfl
    simp only [Function.comp_apply]
    split
    · exact hsame
    · rfl
  | _ => rfl

theorem notices_applyAll (h : ∀ x ∈ ws, x.Silent) : (applyAll start db ws).notices = db.notices := by
  induction ws generalizing db with
  | nil => rfl
  | cons x ws ih =>
    rw [applyAll_cons, ih fun y hy => h y (List.mem_cons_of_mem x hy),
      notices_apply (h x List.mem_cons_self)]

/-- A deed is silent, or it is an announcement and stores one notice. -/
theorem notices_of_deed (h : Deed cfg workflow s ws) (habsent : Absent start db ws) :
    (∀ x ∈ ws, x.announces = false) ∧ (applyAll start db ws).notices = db.notices ∨
    ∃ t event hook d p now, ws = [.insert (.delivery d), .updateDelivery d.id p] ∧
      s.row t.id = some t ∧
      (s.owed = some (t.id, event) ∨ s.owed = none ∧ s.strayed = true) ∧
      s.hook = some (t.organizationId, some hook) ∧ hook.isActive = true ∧
      (applyAll start db ws).notices = db.notices ++
        [⟨d.id, event, WebhookService.buildTicketPayload cfg.platform t event d.id now⟩] := by
  have hsilent : (∀ x ∈ ws, x.Silent) →
      (∀ x ∈ ws, x.announces = false) ∧ (applyAll start db ws).notices = db.notices := by
    intro hall
    refine ⟨fun x hx => ?_, notices_applyAll hall⟩
    have hx := hall x hx
    cases x with
    | insert row => cases row <;> first | rfl | exact hx.elim
    | _ => rfl
  cases h with
  | plain hplain =>
    refine Or.inl (hsilent fun x hx => ?_)
    have hx := hplain x hx
    cases x with
    | insert row => cases row <;> trivial
    | updateDelivery id p => exact hx
    | _ => trivial
  | created | started | decided | failed =>
    refine Or.inl (hsilent fun x hx => ?_)
    simp only [List.mem_cons, List.not_mem_nil, or_false] at hx
    rcases hx with rfl | rfl | rfl <;> trivial
  | edited read update =>
    refine Or.inl (hsilent fun x hx => ?_)
    rcases List.mem_append.mp hx with hx | hx
    · obtain ⟨p, rfl, -⟩ := update x hx
      trivial
    · rw [List.mem_singleton.mp hx]
      trivial
  | concluded read free yields moves concludes history audit side =>
    refine Or.inl (hsilent fun x hx => ?_)
    cases hhistory : x.isHistory with
    | true => cases x with
      | insert row => cases row <;> trivial
      | updateDelivery id p => cases hhistory
      | _ => trivial
    | false =>
      have hside := side x hx hhistory
      cases x with
      | insert row => cases row <;> trivial
      | updateDelivery id p => exact hside.elim
      | _ => trivial
  | @announced t event hook d p now read owed hhook active webhook organization named payload =>
    refine Or.inr ⟨t, event, hook, d, p, now, rfl, read, owed, hhook, active, ?_⟩
    have hnew : (db.webhookDeliveries.find? d.id).isSome = false := habsent.1 (.delivery d) rfl
    have hrows : (db.webhookDeliveries.insert { d with createdAt := start }).rows =
        db.webhookDeliveries.rows ++ [{ d with createdAt := start }] := rows_insert_of_absent rfl hnew
    have hold : ∀ x ∈ db.webhookDeliveries.rows, x.id ≠ d.id := by
      have hnone : db.webhookDeliveries.find? d.id = none := by simpa using hnew
      exact Table.find?_eq_none.mp hnone
    change ((db.webhookDeliveries.insert { d with createdAt := start }).rows.map fun x =>
      if x.id = d.id then p.apply x else x).map _ = _
    rw [hrows, List.map_append, List.map_append, DB.notices]
    congr 1
    · rw [List.map_map]
      refine List.map_congr_left fun x hx => ?_
      simp only [Function.comp_apply, if_neg (hold x hx)]
    · simp only [List.map_cons, List.map_nil, if_pos, WebhookDelivery.notice, DeliveryPatch.apply,
        payload, named, Option.getD_some]

/-! Call by call -/

namespace Journal

variable {op : Op S} {r : Res op} {id : Uuid}

theorem after_owed (h : op.commits r = false) : (s.after op r).owed = s.owed := by
  cases op with
  | query q =>
    cases r with
    | error e => cases q <;> rfl
    | ok row => cases q <;> first | rfl | (cases row <;> rfl)
  | commit =>
    cases r with
    | error e => rfl
    | ok u => cases h
  | _ => first | rfl | (cases r <;> rfl)

/-- While an announcement is owed no call raises and the ticket is found again, and an execution that
reads its run again finds it concluded as it concluded it. -/
def steady (s : Journal S) : (op : Op S) → Res op → Bool
  | .query (.ticket _), .ok none => s.owed.isNone
  | .query (.agentRun _), .ok run => !(s.reread run).strayed
  | op, r => s.owed.isNone || !op.raised r

theorem fail_lost (hlost : s.lost = false) (howed : (s.owed.isNone || !true) = true) :
    s.fail.lost = false := by
  rw [Bool.not_true, Bool.or_false, Option.isNone_iff_eq_none] at howed
  rw [fail, hlost, howed]
  rfl

theorem lost_after (h : s.steady op r = true) (hlost : s.lost = false) :
    (s.after op r).lost = false := by
  cases op with
  | query q =>
    cases r with
    | error e =>
      have hfail := fail_lost hlost (s := s) (by cases q <;> exact h)
      cases q <;> exact hfail
    | ok row =>
      cases q with
      | ticket id =>
        cases row with
        | none => exact fail_lost hlost (by rw [Bool.not_true, Bool.or_false]; exact h)
        | some t => exact hlost
      | _ => exact hlost
  | clock | salt | close | post => exact hlost
  | _ =>
    cases r with
    | error e => exact fail_lost hlost h
    | ok u => exact hlost

theorem strayed_after (h : s.steady op r = true) (hstrayed : s.strayed = false) :
    (s.after op r).strayed = false := by
  cases op with
  | query q =>
    cases r with
    | error e => cases q <;> exact hstrayed
    | ok row =>
      cases q with
      | ticket id => cases row <;> exact hstrayed
      | agentRun id => exact (Bool.not_eq_true' _).mp h
      | _ => exact hstrayed
  | clock | salt | close | post => exact hstrayed
  | _ => cases r <;> exact hstrayed

/-- A session learns of a ticket by reading it. -/
theorem after_row (h : op.commits r = false) (id : Uuid) : (s.after op r).row id = s.row id ∨
    ∃ row, (⟨op, r⟩ : Made S) = ⟨.query (.ticket id), .ok row⟩ ∧ (s.after op r).row id = row := by
  cases op with
  | query q =>
    cases r with
    | error e => cases q <;> exact Or.inl rfl
    | ok row =>
      cases q with
      | ticket key =>
        have hrow : (s.after (.query (.ticket key)) (.ok row)).row = Function.update s.row key row := by
          cases row <;> rfl
        by_cases hkey : id = key
        · subst hkey
          exact Or.inr ⟨row, rfl, by rw [hrow, Function.update_self]⟩
        · left
          rw [hrow, Function.update_of_ne hkey]
      | _ => exact Or.inl rfl
  | commit =>
    cases r with
    | error e => exact Or.inl rfl
    | ok u => cases h
  | _ => left; first | rfl | (cases r <;> rfl)

/-- A session strays by reading a run. -/
theorem after_strayed (h : op.commits r = false) : (s.after op r).strayed = s.strayed ∨
    ∃ id run, (⟨op, r⟩ : Made S) = ⟨.query (.agentRun id), .ok run⟩ ∧
      s.after op r = s.reread run := by
  cases op with
  | query q =>
    cases r with
    | error e => cases q <;> exact Or.inl rfl
    | ok row =>
      cases q with
      | agentRun id => exact Or.inr ⟨id, row, rfl, rfl⟩
      | ticket id => cases row <;> exact Or.inl rfl
      | _ => exact Or.inl rfl
  | commit =>
    cases r with
    | error e => exact Or.inl rfl
    | ok u => cases h
  | _ => left; first | rfl | (cases r <;> rfl)

/-- A session learns of a webhook by looking it up. -/
theorem after_hook (h : op.commits r = false) : (s.after op r).hook = s.hook ∨
    ∃ id hook, (⟨op, r⟩ : Made S) = ⟨.query (.webhookOf id), .ok hook⟩ ∧
      (s.after op r).hook = some (id, hook) := by
  cases op with
  | query q =>
    cases r with
    | error e => cases q <;> exact Or.inl rfl
    | ok row =>
      cases q with
      | webhookOf id => exact Or.inr ⟨id, row, rfl, rfl⟩
      | ticket id => cases row <;> exact Or.inl rfl
      | _ => exact Or.inl rfl
  | commit =>
    cases r with
    | error e => exact Or.inl rfl
    | ok u => cases h
  | _ => left; first | rfl | (cases r <;> rfl)

/-- What a call that commits nothing changes in what its session knows. -/
structure Hears (s : Journal S) (x : Made S) (s' : Journal S) : Prop where
  owed : s'.owed = s.owed
  row : ∀ id, s'.row id = s.row id ∨
    ∃ row, x = ⟨.query (.ticket id), .ok row⟩ ∧ s'.row id = row
  strayed : s'.strayed = s.strayed ∨
    ∃ id run, x = ⟨.query (.agentRun id), .ok run⟩ ∧ s' = s.reread run
  hook : s'.hook = s.hook ∨
    ∃ id hook, x = ⟨.query (.webhookOf id), .ok hook⟩ ∧ s'.hook = some (id, hook)

theorem hears (h : op.commits r = false) : s.Hears ⟨op, r⟩ (s.after op r) :=
  ⟨after_owed h, after_row h, after_strayed h, after_hook h⟩

/-- What the session knows of a ticket after its commit it knew before. -/
theorem row_committed {t : Ticket} (h : s.committed.row id = some t) :
    s.row id = some t ∧ s.writes.any (Write.renews id) = false := by
  simp only [Journal.committed] at h
  split at h
  · cases h
  · rename_i hnot
    exact ⟨h, by simpa using hnot⟩

/-- A commit that has nothing to commit. -/
theorem hears_committed (h : s.writes = []) (x : Made S) : s.Hears x s.committed := by
  obtain ⟨writes, row, owed, concluded, lost, strayed, hook⟩ := s
  change writes = [] at h
  subst h
  exact ⟨rfl, fun _ => Or.inl rfl, Or.inl rfl, Or.inl rfl⟩

end Journal

section

variable [Field S] [LinearOrder S] [FloorRing S] {before after : List (Event Job (Reply S))}
  {i : Nat} {job : Job} {op : Op S} {r : Res op}

theorem Advances.journal (h : Advances cfg workflow before after i job op r) :
    (deployment cfg workflow after).world.journal i =
      ((deployment cfg workflow before).world.journal i).after op r := by
  rw [World.journal, h.callsOf, List.foldl_append]
  rfl

theorem Advances.journal_ne (h : Advances cfg workflow before after i job op r) {c : Nat}
    (hc : c ≠ i) : (deployment cfg workflow after).world.journal c =
      (deployment cfg workflow before).world.journal c := by
  rw [World.journal, h.callsOf_ne hc]
  rfl

/-- What a session commits is a deed in the light of what it knows. -/
theorem Advances.deed {tx : Tx S} {r : Res (.commit : Op S)}
    (h : Advances cfg workflow before after i job .commit r)
    (hcommits : (deployment cfg workflow before).world.Commits i tx
      (deployment cfg workflow after).world) :
    ((deployment cfg workflow before).world.journal i).writes = tx.writes ∧
      Deed cfg workflow ((deployment cfg workflow before).world.journal i) tx.writes := by
  have hwrites : ((deployment cfg workflow before).world.journal i).writes = tx.writes := by
    rw [World.journal, ← Book.pending_ofCalls, h.pending, World.writesOf, hcommits.open_]
    rfl
  have hok := h.ok (O := Journal.observer cfg workflow) (f := fun s x => s.after x.1 x.2)
    (fun _ _ _ hfits => Journal.observer_next.mpr ⟨hfits, rfl⟩)
    (Job.program_journaled cfg workflow job i)
  rw [Journal.observer_commit] at hok
  change ((deployment cfg workflow before).world.journal i).writes = [] ∨
    Deed cfg workflow ((deployment cfg workflow before).world.journal i)
      ((deployment cfg workflow before).world.journal i).writes at hok
  rw [hwrites] at hok
  exact ⟨hwrites, hok.resolve_left hcommits.some⟩

/-- A call that leaves the history as it is. -/
theorem Advances.hears (h : Advances cfg workflow before after i job op r)
    (hquiet : (deployment cfg workflow before).world.Quiet (deployment cfg workflow after).world) :
    ((deployment cfg workflow before).world.journal i).Hears ⟨op, r⟩
      ((deployment cfg workflow after).world.journal i) := by
  rw [h.journal]
  cases hcommits : op.commits r with
  | false => exact Journal.hears hcommits
  | true =>
    cases op with
    | commit =>
      cases r with
      | error e => cases hcommits
      | ok u =>
        have hnone := h.idle_of_quiet rfl hquiet
        rw [Book.pending_ofCalls] at hnone
        exact Journal.hears_committed hnone _
    | _ => cases hcommits

end

end AgentDesk
