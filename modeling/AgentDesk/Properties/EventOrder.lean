import AgentDesk.Logic.Replay
import AgentDesk.Logic.Sessions

namespace AgentDesk

open Framework (Event Pool Program Table transcript)

variable {S : Type} {cfg : Config S} {workflow : Workflow S} {w : World S} {ticketId : Uuid}

/-! Commit order -/

/-- The events of the ticket that this commit added. -/
def Commit.eventsOf (k : Commit S) (ticketId : Uuid) : List TicketEvent :=
  k.writes.filterMap fun x => match x with
    | .insert (.ticketEvent e) =>
      if e.ticketId = ticketId then some { e with createdAt := k.start } else none
    | _ => none

/-- The events of the ticket in the order in which their transactions committed. -/
def World.eventsOf (w : World S) (ticketId : Uuid) : List TicketEvent :=
  w.commits.flatMap (·.eventsOf ticketId)

/-- The transactions that added events to the ticket committed in the order in which they
started. -/
def World.InOrder (w : World S) (ticketId : Uuid) : Prop :=
  (w.commits.filter fun k => !(k.eventsOf ticketId).isEmpty).Pairwise fun a b => a.start ≤ b.start

instance (w : World S) (ticketId : Uuid) : Decidable (w.InOrder ticketId) :=
  inferInstanceAs (Decidable (List.Pairwise _ _))

theorem createdAt_of_eventsOf {k : Commit S} {e : TicketEvent} (h : e ∈ k.eventsOf ticketId) :
    e.createdAt = k.start := by
  obtain ⟨x, -, hx⟩ := List.mem_filterMap.mp h
  split at hx
  · rw [Option.ite_none_right_eq_some] at hx
    obtain ⟨-, hx⟩ := hx
    cases hx
    rfl
  · cases hx

theorem commit_eventsOf (k : Commit S) : k.eventsOf ticketId =
    (k.writes.filterMap (Growing.ticketEvents.new k.start)).filter (·.ticketId == ticketId) := by
  unfold Commit.eventsOf
  rw [List.filter_filterMap]
  refine List.filterMap_congr fun x _ => ?_
  cases x with
  | insert row =>
    cases row with
    | ticketEvent e => by_cases h : e.ticketId = ticketId <;> simp [Growing.ticketEvents, h, Option.filter]
    | _ => rfl
  | _ => rfl

/-- The rows of the events are in commit order. -/
theorem rows_eventsOf (hw : w.Sane) :
    w.db.ticketEvents.rows.filter (·.ticketId == ticketId) = w.eventsOf ticketId := by
  have hrows := Growing.ticketEvents.rows_db hw
  change w.db.ticketEvents.rows = _ at hrows
  rw [hrows, List.filter_flatMap, World.eventsOf]
  simp only [commit_eventsOf]

theorem inOrder_iff : w.InOrder ticketId ↔
    (w.eventsOf ticketId).Pairwise fun a b => a.createdAt ≤ b.createdAt := by
  have hsame : ∀ k : Commit S, (k.eventsOf ticketId).Pairwise fun a b =>
      a.createdAt ≤ b.createdAt := fun k => by
    refine List.pairwise_iff_getElem.mpr fun i j hi hj _ => ?_
    rw [createdAt_of_eventsOf (List.getElem_mem hi), createdAt_of_eventsOf (List.getElem_mem hj)]
  unfold World.InOrder World.eventsOf
  rw [List.pairwise_filter, List.pairwise_flatMap]
  refine Iff.trans ?_ (and_iff_right fun k _ => hsame k).symm
  have hpair : ∀ a b : Commit S, ((!(a.eventsOf ticketId).isEmpty) = true →
      (!(b.eventsOf ticketId).isEmpty) = true → a.start ≤ b.start) ↔
        ∀ x ∈ a.eventsOf ticketId, ∀ y ∈ b.eventsOf ticketId, x.createdAt ≤ y.createdAt := by
    intro a b
    constructor
    · intro h x hx y hy
      rw [createdAt_of_eventsOf hx, createdAt_of_eventsOf hy]
      exact h (by simpa using List.ne_nil_of_mem hx) (by simpa using List.ne_nil_of_mem hy)
    · intro h ha hb
      obtain ⟨x, hx⟩ := List.exists_mem_of_ne_nil _ (by simpa using ha)
      obtain ⟨y, hy⟩ := List.exists_mem_of_ne_nil _ (by simpa using hb)
      have hle := h x hx y hy
      rwa [createdAt_of_eventsOf hx, createdAt_of_eventsOf hy] at hle
  simp only [hpair]

theorem oldestFirst_eq_iff {ρ : Type} {createdAt : ρ → Time} {rows : List ρ} :
    oldestFirst createdAt rows = rows ↔ rows.Pairwise fun a b => createdAt a ≤ createdAt b := by
  have htotal : Std.Total fun a b : ρ => createdAt a ≤ createdAt b := ⟨fun a b => le_total _ _⟩
  have htrans : IsTrans ρ fun a b => createdAt a ≤ createdAt b := ⟨fun _ _ _ => le_trans⟩
  constructor
  · intro h
    rw [← h]
    exact List.pairwise_insertionSort _ rows
  · exact fun h => h.insertionSort_eq

def Op.isQuery : Op S → Bool
  | .query _ => true
  | _ => false

/-- As long as the session only reads, nothing changes and it reads what was there. -/
def ReadsOnly (cfg : Config S) (c : Nat) (w : World S) (cs : List (Made S)) (v : World S) : Prop :=
  (∀ x ∈ cs, x.1.isQuery = true) → v.db = w.db ∧ v.writesOf c = [] ∧ ∀ (q : Query S) (r : q.Result),
    ⟨.query q, .ok r⟩ ∈ cs → ∃ choice, r = q.eval cfg.platform choice w.db

theorem ReadsOnly.exec {c : Nat} {cs : List (Made S)} {v v' : World S} {op : Op S} {reply : Reply S}
    {r : Res op} (h : ReadsOnly cfg c w cs v)
    (he : v.exec cfg.platform c op reply = some (r, v')) :
    ReadsOnly cfg c w (cs ++ [⟨op, r⟩]) v' := by
  intro hall
  obtain ⟨hdb, hwrites, hreads⟩ := h fun x hx => hall x (List.mem_append_left _ hx)
  have hop := hall ⟨op, r⟩ (List.mem_append_right _ (List.mem_singleton_self _))
  cases op with
  | query q =>
    obtain ⟨hdb', hwrites', hanswer⟩ := World.query_exec hwrites he
    refine ⟨hdb'.trans hdb, hwrites', fun q' r' hmem => ?_⟩
    rcases List.mem_append.mp hmem with hmem | hmem
    · exact hreads q' r' hmem
    · cases List.mem_singleton.mp hmem
      rw [← hdb]
      exact hanswer r' rfl
  | _ => cases hop

theorem listEvents_transcript (organizationId ticketId : Uuid) (c : Nat) :
    (TicketService.listEvents organizationId ticketId).Triple transcript
      (fun es _ cs => ∃ row : Option Ticket, cs =
        [⟨.query (.ticket ticketId), .ok row⟩, ⟨.query (.eventsOf ticketId), .ok es⟩])
      (fun _ _ _ => True) (.start c : Session S) [] := by
  simp [TicketService.listEvents, TicketService.getTicket, M.triple_ite, Session.start]

/-- What `list_events` answers is what the tables hold, oldest first. -/
theorem listEvents_run {c : Nat} {organizationId : Uuid} {env env' : Nat → Reply S}
    {es : List TicketEvent} {σ : Session S} {w' : World S} (hidle : w.tx? c = none)
    (hrun : (TicketService.listEvents organizationId ticketId (.start c)).run (server cfg.platform) c
      env w = some ((.ok es, σ), w', env')) :
    es = oldestFirst TicketEvent.createdAt
      (w.db.ticketEvents.rows.filter (·.ticketId == ticketId)) := by
  have hstep : ∀ {v : World S} {op : Op S} {cs : List (Made S)} {reply : Reply S} {r : Res op}
      {v' : World S}, ReadsOnly cfg c w cs v → True →
        (server cfg.platform).exec c op reply v = some (r, v') →
          ∃ cs', transcript.next cs op r cs' ∧ ReadsOnly cfg c w cs' v' :=
    fun h _ he => ⟨_, rfl, h.exec he⟩
  have hstart : ReadsOnly cfg c w [] w := fun _ =>
    ⟨rfl, by simp [World.writesOf, hidle], fun _ _ h => by cases h⟩
  obtain ⟨cs, ⟨row, rfl⟩, hreads⟩ := Framework.post_of_run hstep
    (listEvents_transcript organizationId ticketId c) hstart hrun
  obtain ⟨-, -, hanswers⟩ := hreads (by simp [Op.isQuery])
  obtain ⟨choice, hes⟩ := hanswers (.eventsOf ticketId) es (by simp)
  exact hes

/-! Drafts -/

/-- The event tells of a new draft. -/
def TicketEvent.drafts (e : TicketEvent) : Bool :=
  e.eventType == "edited" || e.eventType == "agent_run"

/-- The draft that the statement gives the ticket. -/
def Write.draft (ticketId : Uuid) : Write S → Option (Option String)
  | .updateTicket id p => if id = ticketId then p.draftResponse else none
  | _ => none

/-- The draft that the commit gave the ticket, if it wrote one. -/
def Commit.draft (k : Commit S) (ticketId : Uuid) : Option (Option String) :=
  (k.writes.filterMap (Write.draft ticketId)).getLast?

def DB.draftOf (db : DB S) (ticketId : Uuid) : Option (Option String) :=
  (db.tickets.find? ticketId).map Ticket.draftResponse

theorem draftOf_applyAll {start : Time} {db : DB S} {t : Ticket} {ws : List (Write S)}
    (ht : db.tickets.find? ticketId = some t)
    (hnew : ∀ t', .insert (.ticket t') ∈ ws → t'.id ≠ ticketId) :
    ∃ t', (applyAll start db ws).tickets.find? ticketId = some t' ∧
      t'.draftResponse = ((ws.filterMap (Write.draft ticketId)).getLast?).getD t.draftResponse := by
  induction ws generalizing db t with
  | nil => exact ⟨t, ht, rfl⟩
  | cons x ws ih =>
    have hstep : ∃ t₁, (x.apply start db).tickets.find? ticketId = some t₁ ∧
        t₁.draftResponse = (x.draft ticketId).getD t.draftResponse := by
      have hsame : x.renews ticketId = false → x.draft ticketId = none →
          ∃ t₁, (x.apply start db).tickets.find? ticketId = some t₁ ∧
            t₁.draftResponse = (x.draft ticketId).getD t.draftResponse := by
        intro hrenews hdraft
        rw [find?_of_not_renews hrenews, hdraft]
        exact ⟨t, ht, rfl⟩
      cases x with
      | insert row =>
        cases row with
        | ticket t' => exact hsame (by simpa [Write.renews] using hnew t' List.mem_cons_self) rfl
        | _ => exact hsame rfl rfl
      | updateTicket id p =>
        by_cases hid : id = ticketId
        · subst hid
          have hkey : t.id = id := Table.key_of_find? ht
          subst hkey
          exact ⟨_, find?_updateTicket ht, by simp [Write.draft, TicketPatch.apply]⟩
        · exact hsame (by simpa using hid) (by simp [Write.draft, hid])
      | _ => exact hsame rfl rfl
    obtain ⟨t₁, ht₁, hdraft⟩ := hstep
    obtain ⟨t', ht', hlast⟩ := ih ht₁ fun t' hmem => hnew t' (List.mem_cons_of_mem x hmem)
    refine ⟨t', ht', hlast.trans ?_⟩
    rw [hdraft, List.filterMap_cons]
    cases x.draft ticketId with
    | none => rfl
    | some d => rw [List.getLast?_cons]; rfl

/-- A transaction that gives a ticket a draft adds the event that tells of it. -/
theorem drafts_of_deed {s : Journal S} {ws : List (Write S)} (hdeed : Deed cfg workflow s ws)
    {x : Write S} {d : Option String} (hx : x ∈ ws) (hd : x.draft ticketId = some d) :
    ∃ e, .insert (.ticketEvent e) ∈ ws ∧ e.ticketId = ticketId ∧ e.drafts = true := by
  obtain ⟨p, rfl, hp⟩ : ∃ p, x = .updateTicket ticketId p ∧ p.draftResponse = some d := by
    cases x with
    | updateTicket id p =>
      rw [Write.draft, Option.ite_none_right_eq_some] at hd
      obtain ⟨rfl, hp⟩ := hd
      exact ⟨p, rfl, hp⟩
    | _ => cases hd
  cases hdeed with
  | plain hplain => exact (hplain _ hx).elim
  | created | started | failed | announced => simp at hx
  | @edited t us e hread hus hticket horg htarget hevent =>
    refine ⟨e, by simp, ?_, by simp [TicketEvent.drafts, hevent]⟩
    rcases List.mem_append.mp hx with hx | hx
    · obtain ⟨p', hsame, -⟩ := hus _ hx
      cases hsame
      exact hticket
    · cases List.mem_singleton.mp hx
  | @decided t p' e a target hread hfree hmoves hdecides =>
    simp only [List.mem_cons, Write.updateTicket.injEq, reduceCtorEq, List.not_mem_nil,
      or_false] at hx
    obtain ⟨-, rfl⟩ := hx
    cases hdecides <;> simp_all
  | @concluded t p' e a runId state ws hread hfree hyields hmoves hconcludes hhistory =>
    have hmem : Write.updateTicket ticketId p ∈ ws.filter Write.isHistory :=
      List.mem_filter.mpr ⟨hx, rfl⟩
    have hevent : Write.insert (.ticketEvent e) ∈ ws.filter Write.isHistory := by
      rw [hhistory]
      simp
    rw [hhistory] at hmem
    have hid : ticketId = t.id := by
      simp only [List.mem_cons, Write.updateTicket.injEq, reduceCtorEq, List.not_mem_nil,
        or_false] at hmem
      exact hmem.1
    refine ⟨e, (List.mem_filter.mp hevent).1, hmoves.ticket.trans hid.symm, ?_⟩
    simp [TicketEvent.drafts, hconcludes.event]

/-- What a draft's event comes with creates no ticket. -/
theorem no_ticket_of_drafts {s : Journal S} {ws : List (Write S)} (hdeed : Deed cfg workflow s ws)
    {e : TicketEvent} (he : .insert (.ticketEvent e) ∈ ws) (hdrafts : e.drafts = true) (t : Ticket) :
    .insert (.ticket t) ∉ ws := by
  intro ht
  cases hdeed with
  | plain hplain => exact (hplain _ ht).elim
  | created _ _ _ _ _ hevent =>
    simp only [List.mem_cons, Write.insert.injEq, reduceCtorEq, Row.ticketEvent.injEq,
      List.not_mem_nil, or_false, false_or] at he
    subst he
    simp [TicketEvent.drafts, hevent] at hdrafts
  | started | failed | announced | decided => simp at ht
  | edited _ hus =>
    rcases List.mem_append.mp ht with ht | ht
    · obtain ⟨p, hsame, -⟩ := hus _ ht
      cases hsame
    · cases List.mem_singleton.mp ht
  | @concluded t' p e' a runId state ws hread hfree hyields hmoves hconcludes hhistory =>
    have hmem : Write.insert (.ticket t) ∈ ws.filter Write.isHistory :=
      List.mem_filter.mpr ⟨ht, rfl⟩
    rw [hhistory] at hmem
    simp at hmem

/-- Where the last element of a concatenation comes from. -/
theorem getLast?_flatMap {β γ : Type} {f : β → List γ} {ks : List β} {e : γ}
    (h : (ks.flatMap f).getLast? = some e) :
    ∃ pre k post, ks = pre ++ k :: post ∧ e ∈ f k ∧ ∀ k' ∈ post, f k' = [] := by
  induction ks using List.reverseRecOn with
  | nil => cases h
  | append_singleton ks k ih =>
    rw [List.flatMap_append, List.flatMap_singleton] at h
    by_cases hk : f k = []
    · rw [hk, List.append_nil] at h
      obtain ⟨pre, k', post, rfl, he, hpost⟩ := ih h
      refine ⟨pre, k', post ++ [k], by simp, he, fun k'' hk'' => ?_⟩
      rcases List.mem_append.mp hk'' with hk'' | hk''
      · exact hpost k'' hk''
      · rw [List.mem_singleton.mp hk'', hk]
    · rw [List.getLast?_append_of_ne_nil _ hk] at h
      exact ⟨ks, k, [], by simp, List.mem_of_getLast? h, fun _ h => by cases h⟩

section

variable [Field S] [LinearOrder S] [FloorRing S] {events : List (Event Job (Reply S))}

/-- While no transaction adds an event of a draft, the draft of a ticket stays. -/
theorem draftOf_later {i j : Nat} {db db' : DB S} {t : Ticket} (hij : i ≤ j)
    (hdb : (deployment cfg workflow events).world.versions[i]? = some db)
    (hdb' : (deployment cfg workflow events).world.versions[j]? = some db')
    (ht : db.tickets.find? ticketId = some t)
    (hnone : ∀ n k, i ≤ n → n < j → (deployment cfg workflow events).world.commits[n]? = some k →
      (k.eventsOf ticketId).filter TicketEvent.drafts = []) :
    ∃ t', db'.tickets.find? ticketId = some t' ∧ t'.draftResponse = t.draftResponse := by
  have hkept : Kept (deployment cfg workflow events) := deployment_kept
  induction j, hij using Nat.le_induction generalizing db' with
  | base =>
    rw [hdb] at hdb'
    cases hdb'
    exact ⟨t, ht, rfl⟩
  | succ j hij ih =>
    obtain ⟨k, mid, hk, hmid⟩ := hkept.sane.before hdb'
    obtain ⟨t₁, ht₁, hdraft₁⟩ := ih hmid fun n k hi hn => hnone n k hi (Nat.lt_succ_of_lt hn)
    obtain ⟨rfl, habsent⟩ := hkept.sane.step j k mid db' hk hmid hdb'
    obtain ⟨s, hdeed⟩ := deed_of_commit (List.mem_of_getElem? hk)
    have hwritten : k.writes.filterMap (Write.draft ticketId) = [] := by
      refine List.filterMap_eq_nil_iff.mpr fun x hx => ?_
      cases hd : x.draft ticketId with
      | none => rfl
      | some d =>
        obtain ⟨e, he, hid, hdrafts⟩ := drafts_of_deed hdeed hx hd
        have hmem : { e with createdAt := k.start } ∈ (k.eventsOf ticketId).filter
            TicketEvent.drafts := by
          refine List.mem_filter.mpr ⟨List.mem_filterMap.mpr ⟨_, he, by simp [hid]⟩, hdrafts⟩
        rw [hnone j k hij (Nat.lt_succ_self j) hk] at hmem
        cases hmem
    have hfresh : ∀ t', .insert (.ticket t') ∈ k.writes → t'.id ≠ ticketId := by
      rintro t' hnew rfl
      have hpresent := isPresent_of_absent habsent hnew
      simp [Row.isPresent, ht₁] at hpresent
    obtain ⟨t', ht', hdraft⟩ := @draftOf_applyAll _ ticketId k.start _ _ _ ht₁ hfresh
    refine ⟨t', ht', hdraft.trans ?_⟩
    rw [hwritten]
    exact hdraft₁

/-- The ticket holds the draft that it had when this event was committed, the one that its
transaction wrote if it wrote one. -/
def World.HoldsDraft (w : World S) (ticketId : Uuid) (e : TicketEvent) : Prop :=
  ∃ i k, w.commits[i]? = some k ∧ e ∈ k.eventsOf ticketId ∧
    (∀ db, w.versions[i + 1]? = some db → w.db.draftOf ticketId = db.draftOf ticketId) ∧
      ∀ d, k.draft ticketId = some d → w.db.draftOf ticketId = some d

/-- The last event that tells of a draft tells of the draft that the ticket holds. -/
theorem holdsDraft_last {e : TicketEvent}
    (h : (((deployment cfg workflow events).world.eventsOf ticketId).filter
      TicketEvent.drafts).getLast? = some e) :
    (deployment cfg workflow events).world.HoldsDraft ticketId e := by
  have hexplained := deployment_explained (C := fun _ _ => True) cfg workflow events
    (Pool.meets_of_forall (fun _ _ _ _ _ _ _ => trivial) events)
  have hsane := hexplained.sane
  rw [World.eventsOf, List.filter_flatMap] at h
  obtain ⟨pre, k, post, hcommits, he, hpost⟩ := getLast?_flatMap h
  have hk : (deployment cfg workflow events).world.commits[pre.length]? = some k := by
    rw [hcommits]
    simp
  have hlt := (List.getElem?_eq_some_iff.mp hk).1
  obtain ⟨db, hdb⟩ := hsane.version hlt.le
  obtain ⟨db', hdb'⟩ := hsane.version hlt
  have hlast : (deployment cfg workflow events).world.versions[
      (deployment cfg workflow events).world.commits.length]? =
        some (deployment cfg workflow events).world.db := by
    rw [← hsane.length]
    exact World.versions_last
  obtain ⟨hevent, hdrafts⟩ := List.mem_filter.mp he
  have hnew : ∃ e₀, .insert (.ticketEvent e₀) ∈ k.writes ∧ e₀.ticketId = ticketId ∧
      e₀.drafts = true := by
    obtain ⟨x, hx, hadded⟩ := List.mem_filterMap.mp hevent
    split at hadded
    · rename_i e₀
      rw [Option.ite_none_right_eq_some] at hadded
      obtain ⟨hid, hadded⟩ := hadded
      cases hadded
      exact ⟨e₀, hx, hid, hdrafts⟩
    · cases hadded
  obtain ⟨e₀, he₀, hid, hdrafts₀⟩ := hnew
  obtain ⟨s, hdeed⟩ := deed_of_commit (List.mem_of_getElem? hk)
  have hticket : ∃ t ∈ db.tickets.rows, t.id = ticketId := by
    obtain ⟨job, s', hexplains⟩ := hexplained.commits pre.length k hk
    rcases hexplained.parent hdb hexplains (hexplains.warranted _ he₀) with
      ⟨t, ht, htid, -⟩ | ⟨t, ht, -⟩
    · exact ⟨t, ht, htid.trans hid⟩
    · exact absurd ht (no_ticket_of_drafts hdeed he₀ hdrafts₀ t)
  obtain ⟨t, ht, rfl⟩ := hticket
  obtain ⟨rfl, habsent⟩ := hsane.step pre.length k db db' hk hdb hdb'
  have hfresh : ∀ t', .insert (.ticket t') ∈ k.writes → t'.id ≠ t.id := fun t' ht' =>
    absurd ht' (no_ticket_of_drafts hdeed he₀ hdrafts₀ t')
  obtain ⟨t₁, ht₁, hdraft₁⟩ :=
    @draftOf_applyAll _ t.id k.start _ _ _ (Table.find?_of_mem ht) hfresh
  obtain ⟨t₂, ht₂, hdraft₂⟩ := draftOf_later hlt hdb' hlast ht₁ fun n k' hn hn' hk' => by
    have hmem : k' ∈ post := by
      rw [hcommits, List.getElem?_append_right (by omega),
        List.getElem?_cons, if_neg (by omega)] at hk'
      exact List.mem_of_getElem? hk'
    exact hpost k' hmem
  refine ⟨pre.length, k, hk, hevent, fun db'' hdb'' => ?_, fun d hd => ?_⟩
  · rw [hdb'] at hdb''
    cases hdb''
    rw [DB.draftOf, DB.draftOf, ht₁, ht₂, Option.map_some, Option.map_some, hdraft₂]
  · rw [Commit.draft] at hd
    rw [hd] at hdraft₁
    rw [DB.draftOf, ht₂, Option.map_some, hdraft₂, hdraft₁]
    rfl

/-- In every reachable state `list_events` answers with the events of a ticket in the order in
which their transactions committed, the last draft it tells of being the one that the ticket holds,
exactly if these transactions committed in the order in which they started. -/
theorem listEvents_inOrder_iff (cfg : Config S) (workflow : Workflow S)
    (events : List (Event Job (Reply S))) {c : Nat} {organizationId ticketId : Uuid}
    {env env' : Nat → Reply S} {es : List TicketEvent} {σ : Session S} {w' : World S}
    (hidle : (deployment cfg workflow events).world.tx? c = none)
    (hrun : (TicketService.listEvents organizationId ticketId (.start c)).run (server cfg.platform) c
      env (deployment cfg workflow events).world = some ((.ok es, σ), w', env')) :
    (es = (deployment cfg workflow events).world.eventsOf ticketId ∧
      ∀ e, (es.filter TicketEvent.drafts).getLast? = some e →
        (deployment cfg workflow events).world.HoldsDraft ticketId e) ↔
      (deployment cfg workflow events).world.InOrder ticketId := by
  have hkept : Kept (deployment cfg workflow events) := deployment_kept
  have hes := listEvents_run hidle hrun
  rw [rows_eventsOf hkept.sane] at hes
  rw [inOrder_iff, ← oldestFirst_eq_iff, ← hes]
  refine ⟨And.left, fun h => ⟨h, fun e he => ?_⟩⟩
  rw [h] at he
  exact holdsDraft_last he

end

/-! A draft that is changed while a run is under way -/

/-- The times of the calls. -/
def timesOf (events : List (Event Job (Reply S))) : List Time :=
  events.filterMap fun e => match e with
    | .step _ reply => some reply.now
    | _ => none

/-- The same calls, each a microsecond or more after the one before. -/
def ticking (events : List (Event Job (Reply ℚ))) : List (Event Job (Reply ℚ)) :=
  events.mapIdx fun n e => match e with
    | .step i reply => .step i { reply with now := n }
    | e => e

/-- Session 3 executes the run; session 4 changes the draft after session 3 has begun and before
it commits. -/
def overtakenRun : List (Event Job (Reply ℚ)) :=
  ticking (registration ++ ticketCreation ++ .spawn (.byAdmin (.runWorkflow ⟨1, 0⟩)) :: calls 2 12 ++
    .spawn (.runAgent ⟨2, 0⟩) :: calls 3 2 ++
    .spawn (.byAdmin (.editDraft ⟨1, 0⟩ otherDraft)) :: calls 4 12 ++ calls 3 14)

/-- The types of the events that the listing answers with. -/
def listedTypes (w : World ℚ) : Option (List String) :=
  ((TicketService.listEvents ⟨0, 0⟩ ⟨1, 0⟩ (.start 9)).run (server .plain) 9
    (fun _ => .plain) w).bind fun x => x.1.1.toOption.map fun es => es.map TicketEvent.eventType

theorem listed_of_types {w : World ℚ} {types : List String} (h : listedTypes w = some types) :
    ∃ es σ w' env', (TicketService.listEvents ⟨0, 0⟩ ⟨1, 0⟩ (.start 9)).run (server .plain) 9
      (fun _ => .plain) w = some ((.ok es, σ), w', env') ∧ es.map TicketEvent.eventType = types := by
  obtain ⟨⟨⟨r, σ⟩, w', env'⟩, hrun, hx⟩ := Option.bind_eq_some_iff.mp h
  cases r with
  | error e => cases hx
  | ok es => exact ⟨es, σ, w', env', hrun, Option.some.inj hx⟩

theorem listing_idle (events : List (Event Job (Reply ℚ)))
    (h : (deployment .plain helpfulDraft events).world.txs.all (·.session != 9) = true) :
    (deployment .plain helpfulDraft events).world.tx? 9 = none := by
  refine List.find?_eq_none.mpr fun tx htx => ?_
  simpa using List.all_eq_true.mp h tx htx

theorem draftedTicket_inOrder : ∃ es,
    es = (deployment .plain helpfulDraft (ticking draftedTicket)).world.eventsOf ⟨1, 0⟩ ∧
      ∀ e, (es.filter TicketEvent.drafts).getLast? = some e →
        (deployment .plain helpfulDraft (ticking draftedTicket)).world.HoldsDraft ⟨1, 0⟩ e := by
  have htypes : listedTypes (deployment .plain helpfulDraft (ticking draftedTicket)).world =
      some ["created", "agent_run"] := by decide +kernel
  have hordered : (deployment .plain helpfulDraft (ticking draftedTicket)).world.InOrder ⟨1, 0⟩ := by
    decide +kernel
  obtain ⟨es, σ, w', env', hrun, -⟩ := listed_of_types htypes
  have hidle := listing_idle (ticking draftedTicket) (by decide +kernel)
  exact ⟨es, (@listEvents_inOrder_iff _ _ _ _ .plain helpfulDraft _ 9 ⟨0, 0⟩ ⟨1, 0⟩ _ _ _ _ _ hidle
    hrun).mpr hordered⟩

/-- The change of the draft is listed after the run, which committed after it and whose draft the
ticket holds. -/
theorem overtakenRun_not_inOrder : ¬∀ (events : List (Event Job (Reply ℚ))) (c : Nat)
    (organizationId ticketId : Uuid) (env env' : Nat → Reply ℚ) (es : List TicketEvent)
    (σ : Session ℚ) (w' : World ℚ), (timesOf events).Pairwise (· < ·) →
    (deployment .plain helpfulDraft events).world.tx? c = none →
    (TicketService.listEvents organizationId ticketId (.start c)).run (server .plain) c
      env (deployment .plain helpfulDraft events).world = some ((.ok es, σ), w', env') →
    es = (deployment .plain helpfulDraft events).world.eventsOf ticketId ∧
      ∀ e, (es.filter TicketEvent.drafts).getLast? = some e →
        (deployment .plain helpfulDraft events).world.HoldsDraft ticketId e := by
  intro h
  have htypes : listedTypes (deployment .plain helpfulDraft overtakenRun).world =
      some ["created", "agent_run", "edited"] := by decide +kernel
  have hcommitted : ((deployment .plain helpfulDraft overtakenRun).world.eventsOf ⟨1, 0⟩).map
      TicketEvent.eventType = ["created", "edited", "agent_run"] := by decide +kernel
  have hclock : (timesOf overtakenRun).Pairwise (· < ·) := by decide +kernel
  obtain ⟨es, σ, w', env', hrun, hes⟩ := listed_of_types htypes
  have hidle := listing_idle overtakenRun (by decide +kernel)
  have hlisted := (h overtakenRun 9 ⟨0, 0⟩ ⟨1, 0⟩ _ env' es σ w' hclock hidle hrun).1
  rw [← hlisted, hes] at hcommitted
  exact absurd hcommitted (by decide)

end AgentDesk
