import AgentDesk.Logic.Outcomes
import AgentDesk.Logic.Rounding

namespace AgentDesk

open Framework (Event Follows Pool Program Rules transcript transcript_next)

variable {S : Type} {cfg : Config S} {workflow : Workflow S} {w w' : World S} {db db' : DB S}
  {c : Nat} {cs : List (Made S)} {organizationId : Uuid}

/-! The numbers that `compute` reads -/

def DB.numTickets (db : DB S) (organizationId : Uuid) : Nat :=
  (db.tickets.rows.filter fun t => t.organizationId == organizationId).length

def DB.numOutcome (db : DB S) (organizationId : Uuid) (outcome : AgentRunOutcome) : Nat :=
  ((db.completedRuns organizationId).filter fun r => r.outcome == some outcome).length

def DB.numHits (db : DB S) (organizationId : Uuid) : Nat :=
  ((db.completedRuns organizationId).filter (·.retrievalHit)).length

/-- Every ticket has one status. -/
theorem sum_byStatus (db : DB S) (organizationId : Uuid) (P : Platform) (choice : ServerChoice) :
    (((Query.ticketsByStatus organizationId).eval P choice db).map Prod.snd).sum =
      db.numTickets organizationId := by
  have hnonzero : ∀ xs : List (TicketStatus × Nat),
      ((xs.filter fun x => x.2 != 0).map Prod.snd).sum = (xs.map Prod.snd).sum := by
    intro xs
    induction xs with
    | nil => rfl
    | cons x xs ih =>
      by_cases hx : x.2 = 0
      · simp [hx, ih]
      · simp [hx, ih]
  have hstatus : ∀ ts : List Ticket, ((ticketStatuses.map fun s => (s, (ts.filter fun t =>
      t.organizationId == organizationId && t.status == s).length)).map Prod.snd).sum =
        (ts.filter fun t => t.organizationId == organizationId).length := by
    intro ts
    induction ts with
    | nil => rfl
    | cons t ts ih =>
      by_cases horg : t.organizationId = organizationId
      · have hcount : ∀ s, ((t :: ts).filter fun t =>
            t.organizationId == organizationId && t.status == s).length =
              (if t.status = s then 1 else 0) + (ts.filter fun t =>
                t.organizationId == organizationId && t.status == s).length := by
          intro s
          by_cases hs : t.status = s <;> simp [horg, hs, Nat.add_comm]
        simp only [hcount, ticketStatuses, List.map_cons, List.map_nil, List.sum_cons,
          List.sum_nil] at ih ⊢
        simp only [List.filter_cons, horg, beq_self_eq_true, if_true, List.length_cons]
        cases t.status <;> simp <;> omega
      · simpa [List.filter_cons, horg] using ih
  exact (hnonzero _).trans (hstatus _)

/-- A completed run that has an outcome counts for one of the two. -/
theorem length_completedRuns
    (h : ∀ r ∈ db.agentRuns.rows, r.status = .completed → r.outcome ≠ none)
    (organizationId : Uuid) : (db.completedRuns organizationId).length =
      db.numOutcome organizationId .waitingApproval + db.numOutcome organizationId .escalated := by
  have houtcome : ∀ r ∈ db.completedRuns organizationId, r.outcome ≠ none := by
    intro r hr
    obtain ⟨hmem, hcompleted⟩ := List.mem_filter.mp hr
    simp only [Bool.and_eq_true, beq_iff_eq] at hcompleted
    exact h r hmem hcompleted.2
  unfold DB.numOutcome
  generalize db.completedRuns organizationId = rs at houtcome
  induction rs with
  | nil => rfl
  | cons r rs ih =>
    have hrest := ih fun r' hr' => houtcome r' (List.mem_cons_of_mem r hr')
    obtain ⟨out, hout⟩ := Option.ne_none_iff_exists'.mp (houtcome r List.mem_cons_self)
    cases out <;> simp [hout, hrest] <;> omega

theorem numHits_le (db : DB S) (organizationId : Uuid) :
    db.numHits organizationId ≤ (db.completedRuns organizationId).length :=
  List.length_filter_le _ _

/-! Rates -/

open MetricsService (rate)

theorem rate_bounds {total n : Nat} (h : n ≤ total) : 0 ≤ rate total n ∧ rate total n ≤ 1 := by
  unfold rate
  split
  · exact ⟨le_refl _, zero_le_one⟩
  · rename_i hsome
    have hpos : (0 : ℚ) < total := by exact_mod_cast Nat.pos_of_ne_zero hsome
    have hle : (n : ℚ) ≤ total := by exact_mod_cast h
    have hzero := roundTo_mono (S := ℚ) 4 (x := ((0 : ℤ) : ℚ)) (y := (n : ℚ) / total)
      (by positivity)
    have hone := roundTo_mono (S := ℚ) 4 (x := (n : ℚ) / total) (y := ((1 : ℤ) : ℚ))
      (by rw [Int.cast_one, div_le_one hpos]; exact hle)
    rw [roundTo_intCast] at hzero hone
    exact ⟨by simpa using hzero, by simpa using hone⟩

/-- Shares that exhaust the runs. -/
theorem rate_add {total n m : Nat} (h : n + m = total) :
    rate total n + rate total m = if total = 0 then 0 else 1 := by
  unfold rate
  split
  · exact add_zero 0
  · rename_i hsome
    have hne : (total : ℚ) ≠ 0 := by exact_mod_cast hsome
    have hcompl : (m : ℚ) / total = 1 - (n : ℚ) / total := by
      rw [eq_sub_iff_add_eq, ← add_div, div_eq_one_iff_eq hne]
      exact_mod_cast (Nat.add_comm m n).trans h
    rw [hcompl]
    exact roundTo_compl (by decide) _

/-! Commits between the statements -/

/-- What `compute` needs of a commit that comes right after this statement: the numbers that a later
statement sets beside this one's answer are still the same, and no hit is new. -/
def Query.Unmoved : Query S → DB S → DB S → Prop
  | .countTickets o, db, db' => db'.numTickets o = db.numTickets o
  | .countCompleted o, db, db' =>
    db'.numOutcome o .waitingApproval = db.numOutcome o .waitingApproval ∧
      db'.numOutcome o .escalated = db.numOutcome o .escalated ∧ db'.numHits o ≤ db.numHits o
  | .countOutcome o .waitingApproval, db, db' =>
    db'.numOutcome o .escalated = db.numOutcome o .escalated ∧ db'.numHits o ≤ db.numHits o
  | .countOutcome o .escalated, db, db' => db'.numHits o ≤ db.numHits o
  | _, _, _ => True

instance (q : Query S) (db db' : DB S) : Decidable (q.Unmoved db db') := by
  cases q with
  | countTickets o => exact Nat.decEq _ _
  | countCompleted o => exact instDecidableAnd
  | countOutcome o outcome =>
    cases outcome with
    | waitingApproval => exact instDecidableAnd
    | escalated => exact Nat.decLe _ _
  | _ => exact isTrue trivial

/-- The same for the last call of a session. -/
def LastUnmoved (cs : List (Made S)) (db db' : DB S) : Prop :=
  match cs.getLast? with
  | some ⟨.query q, _⟩ => q.Unmoved db db'
  | _ => True

instance (cs : List (Made S)) (db db' : DB S) : Decidable (LastUnmoved cs db db') := by
  unfold LastUnmoved
  split <;> infer_instance

/-- The condition on the steps of a run: none changes the numbers that a session in the middle of
`compute` has counted and sets beside others. -/
def Undisturbed (_ : Nat) (w : World S) (op : Op S) (_ : Res op) (w' : World S) : Prop :=
  ∀ tx ∈ w.txs, LastUnmoved (w.callsOf tx.session) w.db w'.db

instance (c : Nat) (w : World S) (op : Op S) (r : Res op) (w' : World S) :
    Decidable (Undisturbed c w op r w') :=
  inferInstanceAs (Decidable (∀ tx ∈ w.txs, LastUnmoved (w.callsOf tx.session) w.db w'.db))

theorem Query.Unmoved.refl (q : Query S) (db : DB S) : q.Unmoved db db := by
  cases q with
  | countTickets o => rfl
  | countCompleted o => exact ⟨rfl, rfl, le_refl _⟩
  | countOutcome o outcome =>
    cases outcome with
    | waitingApproval => exact ⟨rfl, le_refl _⟩
    | escalated => exact le_refl _
  | _ => trivial

theorem Query.Unmoved.trans {q : Query S} {db₁ db₂ db₃ : DB S} (h : q.Unmoved db₁ db₂)
    (h' : q.Unmoved db₂ db₃) : q.Unmoved db₁ db₃ := by
  cases q with
  | countTickets o => exact Eq.trans h' h
  | countCompleted o => exact ⟨h'.1.trans h.1, h'.2.1.trans h.2.1, h'.2.2.trans h.2.2⟩
  | countOutcome o outcome =>
    cases outcome with
    | waitingApproval => exact ⟨h'.1.trans h.1, h'.2.trans h.2⟩
    | escalated => exact le_trans h' h
  | _ => trivial

theorem LastUnmoved.refl (cs : List (Made S)) (db : DB S) : LastUnmoved cs db db := by
  unfold LastUnmoved
  split
  · exact Query.Unmoved.refl _ db
  · trivial

theorem LastUnmoved.trans {db₁ db₂ db₃ : DB S} (h : LastUnmoved cs db₁ db₂)
    (h' : LastUnmoved cs db₂ db₃) : LastUnmoved cs db₁ db₃ := by
  unfold LastUnmoved at h h' ⊢
  split
  · rename_i hlast
    rw [hlast] at h h'
    exact h.trans h'
  · trivial

/-! What the answers of a session make of the tables -/

/-- The answers fit together, and the last one fits the tables. -/
structure Pictured (cs : List (Made S)) (db : DB S) : Prop where
  tickets : ∀ o n, [⟨.query (.countTickets o), .ok n⟩] <:+ cs → db.numTickets o = n
  byStatus : ∀ o n rows, [⟨.query (.countTickets o), .ok n⟩,
    ⟨.query (.ticketsByStatus o), .ok rows⟩] <:+: cs → (rows.map Prod.snd).sum = n
  completed : ∀ o n, [⟨.query (.countCompleted o), .ok n⟩] <:+ cs →
    db.numOutcome o .waitingApproval + db.numOutcome o .escalated = n ∧ db.numHits o ≤ n
  waiting : ∀ o n k, [⟨.query (.countCompleted o), .ok n⟩,
    ⟨.query (.countOutcome o .waitingApproval), .ok k⟩] <:+ cs →
      k + db.numOutcome o .escalated = n ∧ db.numHits o ≤ n
  escalated : ∀ o n k m, [⟨.query (.countCompleted o), .ok n⟩,
    ⟨.query (.countOutcome o .waitingApproval), .ok k⟩,
    ⟨.query (.countOutcome o .escalated), .ok m⟩] <:+ cs → k + m = n ∧ db.numHits o ≤ n
  hits : ∀ o n k m hit, [⟨.query (.countCompleted o), .ok n⟩,
    ⟨.query (.countOutcome o .waitingApproval), .ok k⟩,
    ⟨.query (.countOutcome o .escalated), .ok m⟩,
    ⟨.query (.countHits o), .ok hit⟩] <:+: cs → k + m = n ∧ hit ≤ n

theorem pictured_nil (db : DB S) : Pictured [] db where
  tickets _ _ h := absurd (List.eq_nil_of_suffix_nil h) (List.cons_ne_nil _ _)
  byStatus _ _ _ h := absurd (List.eq_nil_of_infix_nil h) (List.cons_ne_nil _ _)
  completed _ _ h := absurd (List.eq_nil_of_suffix_nil h) (List.cons_ne_nil _ _)
  waiting _ _ _ h := absurd (List.eq_nil_of_suffix_nil h) (List.cons_ne_nil _ _)
  escalated _ _ _ _ h := absurd (List.eq_nil_of_suffix_nil h) (List.cons_ne_nil _ _)
  hits _ _ _ _ _ h := absurd (List.eq_nil_of_infix_nil h) (List.cons_ne_nil _ _)

theorem suffix_snoc {β : Type} {l l' : List β} {a b : β} :
    l ++ [a] <:+ l' ++ [b] ↔ a = b ∧ l <:+ l' := by
  rw [List.suffix_concat_iff]
  constructor
  · rintro (h | ⟨t, ht, hsuffix⟩)
    · simp at h
    · obtain ⟨rfl, hab⟩ := List.append_inj' ht rfl
      exact ⟨List.singleton_injective hab, hsuffix⟩
  · rintro ⟨rfl, h⟩
    exact Or.inr ⟨l, rfl, h⟩

theorem getLast?_of_suffix {β : Type} {l l' : List β} {a : β} (h : l ++ [a] <:+ l') :
    l'.getLast? = some a := by
  obtain ⟨pre, rfl⟩ := h
  rw [← List.append_assoc, List.getLast?_concat]

/-- A commit that leaves the counted numbers alone. -/
theorem Pictured.later (h : Pictured cs db)
    (hmove : ∀ q r, cs.getLast? = some ⟨.query q, .ok r⟩ → q.Unmoved db db') : Pictured cs db' := by
  refine ⟨fun o n hcs => ?_, h.byStatus, fun o n hcs => ?_, fun o n k hcs => ?_,
    fun o n k m hcs => ?_, h.hits⟩
  · have hsame : db'.numTickets o = db.numTickets o := hmove _ _ (getLast?_of_suffix (l := []) hcs)
    exact hsame.trans (h.tickets o n hcs)
  · obtain ⟨hwaiting, hescalated, hhits⟩ := hmove _ _ (getLast?_of_suffix (l := []) hcs)
    obtain ⟨hsum, hle⟩ := h.completed o n hcs
    exact ⟨by rw [hwaiting, hescalated, hsum], hhits.trans hle⟩
  · obtain ⟨hescalated, hhits⟩ := hmove _ _ (getLast?_of_suffix (l := [_]) hcs)
    obtain ⟨hsum, hle⟩ := h.waiting o n k hcs
    exact ⟨by rw [hescalated, hsum], hhits.trans hle⟩
  · have hhits : db'.numHits o ≤ db.numHits o := hmove _ _ (getLast?_of_suffix (l := [_, _]) hcs)
    obtain ⟨hsum, hle⟩ := h.escalated o n k m hcs
    exact ⟨hsum, hhits.trans hle⟩

/-- The next call of the session, whose answer is what the tables hold. -/
theorem Pictured.snoc (cfg : Config S) (h : Pictured cs db) {x : Made S}
    (hruns : ∀ r ∈ db.agentRuns.rows, r.status = .completed → r.outcome ≠ none)
    (hx : ∀ q r, x = ⟨.query q, .ok r⟩ → ∃ choice, r = q.eval cfg.platform choice db) :
    Pictured (cs ++ [x]) db := by
  refine ⟨fun o n hcs => ?_, fun o n rows hcs => ?_, fun o n hcs => ?_, fun o n k hcs => ?_,
    fun o n k m hcs => ?_, fun o n k m hit hcs => ?_⟩
  · obtain ⟨heq, -⟩ := (suffix_snoc (l := [])).mp hcs
    obtain ⟨choice, hn⟩ := hx _ _ heq.symm
    exact hn.symm
  · rcases List.infix_concat_iff.mp hcs with hcs | hcs
    · obtain ⟨heq, hcs⟩ := (suffix_snoc (l := [_])).mp hcs
      obtain ⟨choice, hrows⟩ := hx _ _ heq.symm
      rw [hrows, sum_byStatus]
      exact h.tickets o n hcs
    · exact h.byStatus o n rows hcs
  · obtain ⟨heq, -⟩ := (suffix_snoc (l := [])).mp hcs
    obtain ⟨choice, hn⟩ := hx _ _ heq.symm
    have hlength : n = (db.completedRuns o).length := hn
    rw [hlength]
    exact ⟨(length_completedRuns hruns o).symm, numHits_le db o⟩
  · obtain ⟨heq, hcs⟩ := (suffix_snoc (l := [_])).mp hcs
    obtain ⟨choice, hk⟩ := hx _ _ heq.symm
    have hnum : k = db.numOutcome o .waitingApproval := hk
    rw [hnum]
    exact h.completed o n hcs
  · obtain ⟨heq, hcs⟩ := (suffix_snoc (l := [_, _])).mp hcs
    obtain ⟨choice, hm⟩ := hx _ _ heq.symm
    have hnum : m = db.numOutcome o .escalated := hm
    rw [hnum]
    exact h.waiting o n k hcs
  · rcases List.infix_concat_iff.mp hcs with hcs | hcs
    · obtain ⟨heq, hcs⟩ := (suffix_snoc (l := [_, _, _])).mp hcs
      obtain ⟨choice, hhit⟩ := hx _ _ heq.symm
      have hnum : hit = db.numHits o := hhit
      rw [hnum]
      exact h.escalated o n k m hcs
    · exact h.hits o n k m hit hcs

/-- The calls of a session that only looks at the tables. -/
def Op.isLook : Op S → Bool
  | .query _ | .clock | .close => true
  | _ => false

/-- What holds of the answers of a session that has only looked at the tables so far. -/
structure Looking (c : Nat) (w : World S) (cs : List (Made S)) : Prop where
  writes : w.writesOf c = []
  live : ∀ q r, cs.getLast? = some ⟨.query q, .ok r⟩ → w.tx? c ≠ none
  pictured : Pictured cs w.db

/-- The rules of the deployment for such sessions. -/
def looking : Rules (Op S) Res (World S) where
  inv w := ∀ r ∈ w.db.agentRuns.rows, r.status = .completed → r.outcome ≠ none
  start c w := w.callsOf c = [] ∧ w.tx? c = none
  rely c w w' := w'.callsOf c = w.callsOf c ∧ w'.tx? c = w.tx? c ∧
    (w.tx? c ≠ none → LastUnmoved (w.callsOf c) w.db w'.db)
  cond c w op r w' := Undisturbed c w op r w' ∧
    ∀ r ∈ w'.db.agentRuns.rows, r.status = .completed → r.outcome ≠ none
  guar _ _ _ _ _ := True

theorem looking_sound (P : Platform) : looking.Sound (server (S := S) P) where
  refl c w := ⟨rfl, rfl, fun _ => .refl _ _⟩
  trans := by
    intro c w₁ w₂ w₃ h h'
    obtain ⟨hcalls, htx, hmove⟩ := h
    obtain ⟨hcalls', htx', hmove'⟩ := h'
    refine ⟨hcalls'.trans hcalls, htx'.trans htx, fun hopen => (hmove hopen).trans ?_⟩
    rw [← hcalls]
    exact hmove' (by rwa [htx])
  start_rely hstart hrely := ⟨hrely.1.trans hstart.1, hrely.2.1.trans hstart.2⟩
  inv_exec _ _ hcond _ := hcond.2
  rely_exec := by
    intro c d op reply r w w' hne _ he hcond _
    have hs := World.steps_of_exec he
    refine ⟨World.callsOf_other hs.calls hne.symm, hs.confined.tx d hne.symm, fun hopen => ?_⟩
    obtain ⟨tx, htx⟩ := Option.ne_none_iff_exists'.mp hopen
    have hsession := World.session_of_tx? htx
    have hmove := hcond.1 tx (List.mem_of_find?_eq_some htx)
    rwa [hsession] at hmove
  inv_abort h := h
  rely_abort hne _ := ⟨rfl, World.tx?_dropTx_ne hne.symm, fun _ => .refl _ _⟩

/-- A call of such a session. -/
theorem Looking.exec {op : Op S} {reply : Reply S} {r : Res op} (h : Looking c w cs)
    (hop : op.isLook = true) (hruns : looking.inv w)
    (he : w.exec cfg.platform c op reply = some (r, w')) : Looking c w' (cs ++ [⟨op, r⟩]) := by
  cases op with
  | query q =>
    obtain ⟨hdb, hwrites, hanswer⟩ := World.query_exec h.writes he
    refine ⟨hwrites, fun q' r' hlast => ?_, ?_⟩
    · rw [List.getLast?_concat] at hlast
      cases hlast
      simp only [World.exec, Option.map_eq_some_iff] at he
      obtain ⟨⟨r₁, w₁⟩, he, heq⟩ := he
      simp only [World.effect] at he
      split at he <;> cases he <;> cases heq
      obtain ⟨tx, htx, -⟩ := World.tx?_noteRead (w := w) (c := c) reply.now q
        (q.eval cfg.platform reply.choice (w.view c))
      intro hnone
      exact Option.some_ne_none tx (htx.symm.trans hnone)
    · rw [hdb]
      refine h.pictured.snoc cfg hruns fun q' r' heq => ?_
      cases heq
      exact hanswer r' rfl
  | clock =>
    simp only [World.exec, World.effect, Option.map_some, Option.some.injEq, Prod.mk.injEq] at he
    obtain ⟨rfl, rfl⟩ := he
    refine ⟨h.writes, fun q r hlast => ?_, ?_⟩
    · rw [List.getLast?_concat] at hlast
      cases hlast
    · exact h.pictured.snoc cfg hruns fun q r heq => by cases heq
  | close =>
    simp only [World.exec, World.effect, Option.map_some, Option.some.injEq, Prod.mk.injEq] at he
    obtain ⟨-, rfl⟩ := he
    refine ⟨?_, fun q r hlast => ?_, ?_⟩
    · have hclosed : ((w.dropTx c).log c .close ()).tx? c = none := World.tx?_dropTx_self (w := w)
      rw [World.writesOf, hclosed]
      rfl
    · rw [List.getLast?_concat] at hlast
      cases hlast
    · exact h.pictured.snoc cfg hruns fun q r heq => by cases heq
  | _ => cases hop

theorem follows_looking (c : Nat) : Follows (server cfg.platform) looking c transcript
    (fun (w : World S) cs => w.callsOf c = cs ∧
      ((∀ x ∈ cs, x.1.isLook = true) → Looking c w cs)) where
  stable := by
    intro w w' cs hrely _ h
    obtain ⟨hcalls, htx, hmove⟩ := hrely
    obtain ⟨rfl, hlooking⟩ := h
    refine ⟨hcalls, fun hall => ?_⟩
    obtain ⟨hwrites, hlive, hpictured⟩ := hlooking hall
    refine ⟨?_, fun q r hlast => ?_, hpictured.later fun q r hlast => ?_⟩
    · rw [← hwrites]
      simp only [World.writesOf, htx]
    · rw [htx]
      exact hlive q r hlast
    · have hunmoved := hmove (hlive q r hlast)
      rwa [LastUnmoved, hlast] at hunmoved
  step := by
    intro w op reply r w' cs hinv h _ he _
    obtain ⟨rfl, hlooking⟩ := h
    refine ⟨trivial, _, rfl, World.callsOf_own (World.steps_of_exec he).calls, fun hall => ?_⟩
    have hop := hall ⟨op, r⟩ (List.mem_append_right _ (List.mem_singleton_self _))
    exact (hlooking fun x hx => hall x (List.mem_append_left _ hx)).exec hop hinv he

/-! The metrics of a request -/

/-- One consistent picture, in which this many runs were counted as completed. -/
structure Metrics.Consistent (m : Metrics) (completed : Nat) : Prop where
  tickets : (m.ticketsByStatus.map Prod.snd).sum = m.totalTickets
  approval : 0 ≤ m.approvalRate ∧ m.approvalRate ≤ 1
  escalation : 0 ≤ m.escalationRate ∧ m.escalationRate ≤ 1
  hits : 0 ≤ m.retrievalHitRate ∧ m.retrievalHitRate ≤ 1
  shares : m.approvalRate + m.escalationRate = if completed = 0 then 0 else 1

/-- The statements of `compute` for the organization, with their answers. -/
def computing (organizationId : Uuid) (total : Nat) (rows : List (TicketStatus × Nat))
    (latency cost : Option ℚ) (completed waiting escalated hits failedRuns failedDeliveries : Nat) :
    List (Made S) :=
  [⟨.query (.countTickets organizationId), .ok total⟩,
    ⟨.query (.ticketsByStatus organizationId), .ok rows⟩,
    ⟨.query (.averageLatency organizationId), .ok latency⟩,
    ⟨.query (.averageCost organizationId), .ok cost⟩,
    ⟨.query (.countCompleted organizationId), .ok completed⟩,
    ⟨.query (.countOutcome organizationId .waitingApproval), .ok waiting⟩,
    ⟨.query (.countOutcome organizationId .escalated), .ok escalated⟩,
    ⟨.query (.countHits organizationId), .ok hits⟩,
    ⟨.query (.countFailedRuns organizationId), .ok failedRuns⟩,
    ⟨.query (.countFailedDeliveries organizationId), .ok failedDeliveries⟩]

/-- The calls before `compute` and after it, and the metrics that it returned. -/
def Computed (m : Metrics) (cs : List (Made S)) : Prop :=
  ∃ organizationId rows latency cost completed waiting escalated hits failedRuns failedDeliveries pre post,
    cs = pre ++ computing organizationId m.totalTickets rows latency cost completed waiting escalated
      hits failedRuns failedDeliveries ++ post ∧ (∀ x ∈ pre ++ post, x.1.isLook = true) ∧
    m.ticketsByStatus = rows.map (fun x => (x.1.value, x.2)) ∧ m.approvalRate = rate completed waiting ∧
      m.escalationRate = rate completed escalated ∧ m.retrievalHitRate = rate completed hits

theorem compute_computed {σ : Session S} (hcs : ∀ x ∈ cs, x.1.isLook = true) :
    (MetricsService.compute organizationId).Triple transcript (fun m _ cs' => Computed m cs')
      (fun _ _ _ => True) σ cs := by
  simp [MetricsService.compute]
  intro total rows latency cost completed waiting escalated hits failedRuns failedDeliveries
  exact ⟨organizationId, rows, latency, cost, completed, waiting, escalated, hits, failedRuns,
    failedDeliveries, cs, [], by simp [computing], by simpa using hcs, rfl, rfl, rfl, rfl⟩

/-- It only looks at the tables. -/
theorem Computed.looks {m : Metrics} (h : Computed m cs) : ∀ x ∈ cs, x.1.isLook = true := by
  obtain ⟨o, rows, latency, cost, n, k, l, hits, fr, fd, pre, post, rfl, hlook, -⟩ := h
  intro x hx
  rcases List.mem_append.mp hx with hx | hpost
  · rcases List.mem_append.mp hx with hpre | hquery
    · exact hlook x (List.mem_append_left _ hpre)
    · simp only [computing, List.mem_cons, List.not_mem_nil, or_false] at hquery
      rcases hquery with rfl | rfl | rfl | rfl | rfl | rfl | rfl | rfl | rfl | rfl <;> rfl
  · exact hlook x (List.mem_append_right _ hpost)

theorem Computed.close {m : Metrics} (h : Computed m cs) : Computed m (cs ++ [⟨.close, ()⟩]) := by
  obtain ⟨o, rows, latency, cost, n, k, l, hits, fr, fd, pre, post, rfl, hlook, hmetrics⟩ := h
  refine ⟨o, rows, latency, cost, n, k, l, hits, fr, fd, pre, post ++ [⟨.close, ()⟩], by simp, ?_,
    hmetrics⟩
  intro x hx
  rw [← List.append_assoc, List.mem_append, List.mem_singleton] at hx
  rcases hx with hx | rfl
  · exact hlook x hx
  · rfl

/-- What a session that has only looked at the tables computed from its answers. -/
theorem Looking.consistent {m : Metrics} (h : Looking c w cs) (hcomputed : Computed m cs) :
    ∃ o completed, ⟨.query (.countCompleted o), .ok completed⟩ ∈ cs ∧ m.Consistent completed := by
  obtain ⟨o, rows, latency, cost, n, k, l, hit, failedRuns, failedDeliveries, pre, post, rfl, -,
    hrows, happroval, hescalation, hhits⟩ := hcomputed
  have hsum : (rows.map Prod.snd).sum = m.totalTickets := by
    refine h.pictured.byStatus o m.totalTickets rows ⟨pre, ?_⟩
    exact ⟨_, by simp [computing]; rfl⟩
  obtain ⟨hshares, hle⟩ : k + l = n ∧ hit ≤ n := by
    refine h.pictured.hits o n k l hit ⟨pre ++ (computing o m.totalTickets rows latency cost n k l hit
      failedRuns failedDeliveries).take 4, ?_⟩
    exact ⟨_, by simp [computing]; rfl⟩
  refine ⟨o, n, by simp [computing], ?_, ?_, ?_, ?_, ?_⟩
  · rw [hrows, List.map_map]
    exact hsum
  · rw [happroval]
    exact rate_bounds (by omega)
  · rw [hescalation]
    exact rate_bounds (by omega)
  · rw [hhits]
    exact rate_bounds hle
  · rw [happroval, hescalation]
    exact rate_add hshares

section

variable [Field S] [LinearOrder S] [FloorRing S]

theorem getMetrics_computed (creds : Option Token) (i : Nat) :
    ((Job.request (.authenticated creds .getMetrics)).program cfg workflow i).Obeys transcript
      (fun o cs => ∀ m, o = .response ⟨200, .metrics m⟩ → Computed m cs) [] := by
  have hhandle : (Api.Request.handle cfg workflow (.authenticated creds .getMetrics)).Triple
      transcript (fun r _ cs => ∃ m, r = ⟨200, .metrics m⟩ ∧ Computed m cs) (fun _ _ _ => True)
      (.start i) [] := by
    unfold Api.Request.handle
    rw [M.triple_bind]
    have hallowed : Api.Action.getMetrics.allowed ≠ [] := by simp [Api.Action.allowed]
    refine M.triple_mono (requireRole_transcript creds hallowed) ?_ (fun _ _ _ h => h)
    intro u σ cs hcaller
    obtain ⟨token, claims, id, now, -, -, -, -, rfl⟩ := hcaller
    have hlook : ∀ x ∈ ([] ++ [⟨.clock, now⟩, ⟨.query (.user id), .ok (some u)⟩] : List (Made S)),
        x.1.isLook = true := by simp [Op.isLook]
    unfold Api.Action.handle Api.getMetrics
    rw [M.triple_bind]
    exact M.triple_mono (compute_computed hlook) (fun m _ cs h => ⟨m, rfl, h⟩) (fun _ _ _ h => h)
  have rolled : (M.except (Api.Request.handle cfg workflow (.authenticated creds .getMetrics))
      fun exc => do
        rollback
        M.raise exc).Triple transcript (fun r _ cs => ∃ m, r = ⟨200, .metrics m⟩ ∧ Computed m cs)
        (fun _ _ _ => True) (.start i) [] := by
    rw [M.triple_except]
    refine M.triple_mono hhandle (fun _ _ _ h => h) (fun e σ cs _ => ?_)
    exact bind_transcript fun _ _ _ => trivial
  simp only [Job.program, Program.obeys_bind, getDb, sessionScope]
  refine Program.obeys_mono rolled ?_
  intro x cs hx
  rcases x with ⟨e | r, σ⟩
  · refine ⟨trivial, fun u cs' _ m hm => ?_⟩
    cases e <;> cases hm
  · obtain ⟨m, rfl, hcomputed⟩ := hx
    refine ⟨trivial, fun u cs' hcs m' hm => ?_⟩
    rw [transcript_next] at hcs
    cases hm
    rw [hcs]
    exact hcomputed.close

/-- A commit that leaves the numbers of `compute` alone leaves the completed runs an outcome. -/
theorem meets_looking {events : List (Event Job (Reply S))}
    (hm : Pool.Meets (server cfg.platform) (Job.program cfg workflow) Undisturbed ⟨.init, []⟩ events) :
    Pool.Meets (server cfg.platform) (Job.program cfg workflow) looking.cond ⟨.init, []⟩ events := by
  induction events using List.reverseRecOn with
  | nil => trivial
  | append_singleton es e ih =>
    obtain ⟨hrest, hlast⟩ := Pool.meets_snoc.mp hm
    refine Pool.meets_snoc.mpr ⟨ih hrest, ?_⟩
    cases e with
    | step i reply =>
      intro job op next hthread r w' hexec
      refine ⟨hlast job op next hthread r w' hexec, ?_⟩
      have hkept := (deployment_outcomesKept cfg workflow (es ++ [.step i reply])).completed
      have hrun : (deployment cfg workflow (es ++ [.step i reply])).world = w' := by
        have hsnoc : deployment cfg workflow (es ++ [.step i reply]) =
            (deployment cfg workflow es).next (server cfg.platform) (Job.program cfg workflow)
              (.step i reply) := List.foldl_append
        have hmove : (deployment cfg workflow es).move (server cfg.platform) i reply =
            some (job, next r, w') := by
          simp only [Pool.move, deployment, hthread, hexec]
        rw [hsnoc]
        simp only [Pool.next, hmove]
      rwa [hrun] at hkept
    | _ => trivial

/-- In every run in which no commit changes, between two statements of `compute`, the numbers that it
sets beside each other, the metrics that a request returns are one consistent picture. -/
theorem deployment_metricsConsistent (cfg : Config S) (workflow : Workflow S)
    (events : List (Event Job (Reply S)))
    (hm : Pool.Meets (server cfg.platform) (Job.program cfg workflow) Undisturbed ⟨.init, []⟩ events)
    {i : Nat} {creds : Option Token} {m : Metrics}
    (hdone : (deployment cfg workflow events).threads[i]? =
      some (.request (.authenticated creds .getMetrics), some (.ret (.response ⟨200, .metrics m⟩)))) :
    ∃ organizationId completed, ⟨.query (.countCompleted organizationId), .ok completed⟩ ∈
      (deployment cfg workflow events).world.callsOf i ∧ m.Consistent completed := by
  have hgood : (deployment cfg workflow events).Good (server cfg.platform) looking
      fun job i o w => ∀ creds m, job = .request (.authenticated creds .getMetrics) →
        o = .response ⟨200, .metrics m⟩ → ∃ o completed,
          ⟨.query (.countCompleted o), .ok completed⟩ ∈ w.callsOf i ∧ m.Consistent completed := by
    refine @Pool.good_run _ _ _ _ _ _ _ _ _ _ _ (looking_sound cfg.platform)
      (fun i => (Pool.spawned events)[i]?) ?_ events ⟨fun _ h => absurd h List.not_mem_nil, fun _ _ => ⟨rfl, rfl⟩, fun _ _ _ h => by simp at h⟩
      (fun i job h => by simpa using h) (meets_looking hm)
    intro job i w _ _ hstart
    have hlooking : Looking i w [] := by
      refine ⟨?_, fun _ _ h => (by cases h), ?_⟩
      · rw [World.writesOf, hstart.2]
        rfl
      · exact pictured_nil w.db
    by_cases hjob : ∃ creds, job = .request (.authenticated creds .getMetrics)
    · obtain ⟨creds, rfl⟩ := hjob
      refine Framework.wp_mono (Framework.wp_of_obeys (follows_looking i)
        (getMetrics_computed creds i) ⟨hstart.1, fun _ => hlooking⟩) ?_
      intro o w' hend _ m _ hresponse
      obtain ⟨cs, hpost, rfl, hlooks⟩ := hend
      have hcomputed := hpost m hresponse
      exact (hlooks hcomputed.looks).consistent hcomputed
    · refine Framework.wp_mono (Framework.wp_of_obeys (follows_looking i)
        (program_justified workflow job i) ⟨hstart.1, fun _ => hlooking⟩) ?_
      intro _ _ _ creds _ hmetrics
      exact absurd ⟨creds, hmetrics⟩ hjob
  obtain ⟨w₀, hrely, hw⟩ := hgood.safe i _ _ hdone
  obtain ⟨o, completed, hmem, hconsistent⟩ := hw creds m rfl rfl
  rw [← hrely.1] at hmem
  exact ⟨o, completed, hmem, hconsistent⟩

end

/-- The metrics that session `i` has returned. -/
def returnedMetrics (s : Pool Job (Op S) Res Outcome (World S)) (i : Nat) : Option Metrics :=
  match s.threads[i]? with
  | some (.request (.authenticated _ .getMetrics), some (.ret (.response ⟨200, .metrics m⟩))) => some m
  | _ => none

theorem returnedMetrics_some {s : Pool Job (Op S) Res Outcome (World S)} {i : Nat} {m : Metrics}
    (h : returnedMetrics s i = some m) : ∃ creds, s.threads[i]? =
      some (.request (.authenticated creds .getMetrics),
        some (.ret (.response ⟨200, .metrics m⟩))) := by
  unfold returnedMetrics at h
  split at h
  · rename_i creds m' hthread
    cases h
    exact ⟨creds, hthread⟩
  · cases h

/-- Session 4 asks for the metrics when session 3 has executed its run. -/
def measuredTicket : List (Event Job (Reply ℚ)) :=
  draftedTicket ++ .spawn (.byAdmin .getMetrics) :: calls 4 14

theorem measuredTicket_metricsConsistent : ∃ (m : Metrics) (organizationId : Uuid) (completed : Nat),
    m.totalTickets = 1 ∧ ⟨.query (.countCompleted organizationId), .ok completed⟩ ∈
      (deployment .plain helpfulDraft measuredTicket).world.callsOf 4 ∧ m.Consistent completed := by
  have hreturned : (returnedMetrics (deployment .plain helpfulDraft measuredTicket) 4).any
      (fun m => m.totalTickets == 1) = true := by decide +kernel
  obtain ⟨m, hm, htotal⟩ := (Option.any_eq_true _ _).mp hreturned
  obtain ⟨creds, hdone⟩ := returnedMetrics_some hm
  obtain ⟨o, completed, hcounted, hconsistent⟩ :=
    @deployment_metricsConsistent _ _ _ _ .plain helpfulDraft measuredTicket (by decide +kernel) _ _ _ hdone
  exact ⟨m, o, completed, eq_of_beq htotal, hcounted, hconsistent⟩

/-- Session 2 counts the tickets before session 1 commits one, and their statuses after that. -/
def ticketBetween : List (Event Job (Reply ℚ)) :=
  registration ++
    .spawn .createHelp :: .spawn (.byAdmin .getMetrics) :: calls 2 3 ++ calls 1 10 ++ calls 2 12

theorem ticketBetween_metrics : ∃ creds m, (deployment .plain helpfulDraft ticketBetween).threads[2]? =
    some (.request (.authenticated creds .getMetrics), some (.ret (.response ⟨200, .metrics m⟩))) ∧
      m.totalTickets = 0 ∧ (m.ticketsByStatus.map Prod.snd).sum = 1 := by
  have hreturned : (returnedMetrics (deployment .plain helpfulDraft ticketBetween) 2).any
      (fun m => m.totalTickets == 0 && (m.ticketsByStatus.map Prod.snd).sum == 1) = true := by
    decide +kernel
  obtain ⟨m, hm, hnumbers⟩ := (Option.any_eq_true _ _).mp hreturned
  obtain ⟨creds, hdone⟩ := returnedMetrics_some hm
  rw [Bool.and_eq_true, beq_iff_eq, beq_iff_eq] at hnumbers
  exact ⟨creds, m, hdone, hnumbers⟩

end AgentDesk
