import AgentDesk.Logic.Acts
import AgentDesk.Logic.Scoring

namespace AgentDesk

open Framework (Table Serial)

variable {S : Type} {cfg : Config S}

/-- A run of this ticket recorded a confidence at or above the threshold. -/
def ScoresHigh (cfg : Config S) (ticketId : Uuid) (a : AuditLog) : Prop :=
  a.event = .draftGenerated ∧ a.targetId = some ticketId.str ∧ ∃ c : ℚ,
    a.metadata = some [("confidence", .float c)] ∧ cfg.settings.confidenceThreshold ≤ c

/-- The ticket is still escalated, or a run has scored high since. -/
structure StillEscalated (cfg : Config S) (ticketId : Uuid) (before db : DB S) : Prop where
  grows : before.Grows db
  status : (∃ t, db.tickets.find? ticketId = some t ∧ t.status = .escalated) ∨
    ∃ a ∈ db.auditLogs.rows, a ∉ before.auditLogs.rows ∧ ScoresHigh cfg ticketId a

section

variable [Field S] [LinearOrder S] [FloorRing S]

theorem StillEscalated.act {ticketId : Uuid} {before db db' : DB S} {s : Journal S} {start : Time}
    (h : StillEscalated cfg ticketId before db)
    (hact : Act cfg (Workflow.support cfg) s start db db') :
    StillEscalated cfg ticketId before db' := by
  obtain ⟨hrows, hdeed, habs, rfl⟩ := hact
  have hgrows : db.Grows (applyAll start db s.writes) := DB.grows_applyAll _
  refine ⟨h.grows.trans hgrows, ?_⟩
  obtain ⟨t, ht, hstatus⟩ | ⟨a, ha, hnew, hscore⟩ := h.status
  swap
  · exact Or.inr ⟨a, hgrows.auditLogs a ha, hnew, hscore⟩
  generalize s.writes = ws at hdeed habs hgrows
  have untouched : ws.any (Write.renews ticketId) = false →
      ∃ t, (applyAll start db ws).tickets.find? ticketId = some t ∧ t.status = .escalated :=
    fun hnot => ⟨t, (Journal.find_applyAll hnot).trans ht, hstatus⟩
  have same : ∀ {t' : Ticket}, s.row t'.id = some t' → t'.id = ticketId → t' = t := by
    intro t' hread hid
    have := hrows _ _ hread
    rw [hid, ht] at this
    exact (Option.some.inj this).symm
  cases hdeed with
  | plain hplain =>
    exact Or.inl (untouched (List.any_eq_false.mpr fun x hx => by
      simp [renews_of_plain (hplain x hx)]))
  | @created t' e a =>
    refine Or.inl (untouched ?_)
    have hne : t'.id ≠ ticketId := by
      rintro rfl
      have habsent := habs.1 _ rfl
      simp [Row.isPresent, ht] at habsent
    simpa [Write.renews] using hne
  | started | failed | announced => exact Or.inl (untouched rfl)
  | @edited t' us e hread hus =>
    by_cases hid : t'.id = ticketId
    · refine Or.inl ?_
      rw [applyAll_append]
      have hus' : ∃ t, (applyAll start db us).tickets.find? ticketId = some t ∧
          t.status = .escalated := by
        refine applyAll_induction (K := fun db => ∃ t, db.tickets.find? ticketId = some t ∧
          t.status = .escalated) ⟨t, ht, hstatus⟩ ?_
        rintro x hx db ⟨y, hy, hst⟩
        obtain ⟨p, rfl, hp, -⟩ := hus x hx
        obtain rfl : y.id = ticketId := Table.key_of_find? hy
        rw [hid]
        exact ⟨_, find?_updateTicket hy, by simp [TicketPatch.apply, hp, hst]⟩
      exact hus'
    · refine Or.inl (untouched (List.any_eq_false.mpr fun x hx => ?_))
      obtain hx | hx := List.mem_append.mp hx
      · obtain ⟨p, rfl, -⟩ := hus x hx
        simpa using hid
      · rw [List.mem_singleton.mp hx]
        simp
  | @decided t' p e a target hread free moves decides =>
    by_cases hid : t'.id = ticketId
    · obtain rfl := same hread hid
      have hallowed := moves.allowed
      rw [hstatus] at hallowed
      cases decides <;> cases hallowed
    · exact Or.inl (untouched (by simpa [Write.renews] using hid))
  | @concluded t' p e a runId state ws hread free yields moves concludes history audit side =>
    by_cases hid : t'.id = ticketId
    · obtain rfl := same hread hid
      have hallowed := moves.allowed
      rw [hstatus] at hallowed
      obtain ⟨q, hq, haim, -⟩ := support_yields yields
      have hhigh : cfg.settings.confidenceThreshold ≤ q := by
        by_contra hlow
        rw [haim, aim, if_neg hlow] at hallowed
        cases hallowed
      obtain ⟨hevent, htarget, hmeta⟩ := concludes.audit
      refine Or.inr ⟨_, stored_of_mem habs audit, fun hold => ?_, hevent, ?_, q, ?_, hhigh⟩
      · have habsent := isPresent_of_absent habs audit
        have hfind := Table.find?_of_mem (h.grows.auditLogs _ hold)
        change db.auditLogs.find? a.id = _ at hfind
        simp [Row.isPresent, hfind] at habsent
      · rw [← hid]
        exact htarget
      · change a.metadata = _
        rw [hmeta]
        simp [AgentRunService.confidenceMeta, hq]
    · refine Or.inl (untouched (List.any_eq_false.mpr fun x hx => ?_))
      cases hhist : x.isHistory with
      | false =>
        have hside := side x hx hhist
        cases x with
        | insert row => cases row <;> first | exact hside.elim | simp
        | updateAgentRun id p => simp
        | updateTicket id p => exact hside.elim
        | updateWebhook id p => exact hside.elim
        | updateDelivery id p => exact hside.elim
      | true =>
        have hmem := List.mem_filter.mpr ⟨hx, hhist⟩
        rw [history] at hmem
        obtain rfl | rfl : x = .updateTicket t'.id p ∨ x = .insert (.ticketEvent e) := by
          simpa using hmem
        · simpa using hid
        · simp

/-- A finite sequence of sessions brings the ticket to an end, and no run scores high on it. -/
def WayOut (cfg : Config S) (n : Nat) (w : World S) (ticketId : Uuid) : Prop :=
  ∃ m w' t, Serial (server cfg.platform) (Job.program cfg (Workflow.support cfg)) n w m w' ∧
    (∀ a ∈ w'.db.auditLogs.rows, a ∉ w.db.auditLogs.rows → ¬ScoresHigh cfg ticketId a) ∧
    w'.db.tickets.find? ticketId = some t ∧ t.status ∈ [.approved, .rejected, .closed]

theorem noWayOut {n : Nat} {w : World S} {t : Ticket} {ticketId : Uuid} (hidle : w.IdleFrom n)
    (ht : w.db.tickets.find? ticketId = some t) (hstatus : t.status = .escalated) :
    ¬WayOut cfg n w ticketId := by
  rintro ⟨m, w', t', hserial, hlow, ht', hresolved⟩
  have h : StillEscalated cfg ticketId w.db w'.db :=
    (serial_acts (K := StillEscalated cfg ticketId w.db)
      (Job.program_journaled cfg (Workflow.support cfg)) (fun hk hact => hk.act hact) hserial hidle
      ⟨.refl _, Or.inl ⟨t, ht, hstatus⟩⟩).1
  obtain ⟨t₁, ht₁, hst⟩ | ⟨a, ha, hnew, hscore⟩ := h.status
  · rw [ht'] at ht₁
    cases ht₁
    rw [hst] at hresolved
    revert hresolved
    decide
  · exact hlow a ha hnew hscore

/-- From no reachable state does an escalated ticket have a way out. -/
theorem deployment_deadEnd (cfg : Config S) (events : List (Framework.Event Job (Reply S)))
    (t : Ticket) (ht : t ∈ (deployment cfg (.support cfg) events).world.db.tickets.rows)
    (hstatus : t.status = .escalated) :
    ¬WayOut cfg (deployment cfg (.support cfg) events).threads.length
      (deployment cfg (.support cfg) events).world t.id :=
  noWayOut (deployment_idle cfg (.support cfg) events) (Table.find?_of_mem ht) hstatus

end

/-- A run on a ticket that the knowledge base has nothing about. -/
def escalatedTicket : List (Framework.Event Job (Reply ℚ)) :=
  registration ++ ticketCreation ++ .spawn (.byAdmin (.runWorkflow ⟨1, 0⟩)) :: calls 2 12 ++
    .spawn (.runAgent ⟨2, 0⟩) :: calls 3 20

theorem escalatedTicket_escalated : ∃ t,
    (deployment .plain (.support .plain) escalatedTicket).world.db.tickets.find? ⟨1, 0⟩ = some t ∧
      t.status = .escalated := by
  have h : ((deployment .plain (.support .plain) escalatedTicket).world.db.tickets.find?
      ⟨1, 0⟩).any (fun t => t.status == .escalated) = true := by decide +kernel
  obtain ⟨t, ht, hstatus⟩ := (Option.any_eq_true _ _).mp h
  exact ⟨t, ht, eq_of_beq hstatus⟩

theorem escalatedTicket_deadEnd : ∃ t : Ticket, t.status = .escalated ∧
    ¬WayOut .plain (deployment .plain (.support .plain) escalatedTicket).threads.length
      (deployment .plain (.support .plain) escalatedTicket).world t.id := by
  obtain ⟨t, ht, hstatus⟩ := escalatedTicket_escalated
  exact ⟨t, hstatus, deployment_deadEnd .plain escalatedTicket t (Table.mem_of_find? ht) hstatus⟩

/-- Not from every reachable state in which a ticket is escalated is there a way out. -/
theorem escalatedTicket_noWayOut : ¬∀ (events : List (Framework.Event Job (Reply ℚ))) (t : Ticket),
    t ∈ (deployment .plain (.support .plain) events).world.db.tickets.rows →
      t.status = .escalated → WayOut .plain
        (deployment .plain (.support .plain) events).threads.length
        (deployment .plain (.support .plain) events).world t.id := by
  intro h
  obtain ⟨t, ht, hstatus⟩ := escalatedTicket_escalated
  have hmem := Table.mem_of_find? ht
  exact noWayOut (deployment_idle .plain (.support .plain) escalatedTicket)
    (Table.find?_of_mem hmem) hstatus (h escalatedTicket t hmem hstatus)

end AgentDesk
