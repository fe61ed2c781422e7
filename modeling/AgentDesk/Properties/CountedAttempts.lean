import AgentDesk.Framework.Serial
import AgentDesk.Logic.Attempts
import AgentDesk.Logic.Progress
import AgentDesk.Properties.Deliveries

namespace AgentDesk

open Framework (Pool Event Program)

variable {S : Type} {cfg : Config S} {workflow : Workflow S} {w w' : World S} {c i : Nat} {id : Uuid}
  {op : Op S} {r : Res op}

/-! The POSTs of a delivery -/

/-- The attempts that are recorded of the delivery. -/
def DB.attempts? (db : DB S) (id : Uuid) : Option Nat :=
  (db.webhookDeliveries.find? id).map WebhookDelivery.attempts

/-- The call ends the transaction of its session without a commit. -/
def Op.undoes : (op : Op S) → Res op → Bool
  | .query _, .error _ => true
  | .write _, .error _ => true
  | .commit, .error _ => true
  | .rollback, _ => true
  | .close, _ => true
  | _, _ => false

/-- Where the session stood after these calls. -/
def standing (calls : List (Call S)) (c : Nat) : Standing :=
  Standing.ofCalls ((calls.filter fun x => x.session == c).map fun x => ⟨x.op, x.result⟩)

namespace World

/-- The delivery as the session has loaded it, if a POST of the session for it waits for its commit. -/
def attempt? (w : World S) (c : Nat) (id : Uuid) : Option WebhookDelivery :=
  (standing w.calls c).due.filter fun d => d.id == id

/-- The call is a POST of a session that has loaded this delivery. -/
def postsFor (id : Uuid) (before : List (Call S)) (x : Call S) : Bool :=
  x.op.isPost && (standing before x.session).loaded.any fun d => d.id == id

/-- How many POSTs were sent for the delivery. -/
def postsSent (w : World S) (id : Uuid) : Nat :=
  (List.range w.calls.length).countP fun n => w.calls[n]?.any (postsFor id (w.calls.take n))

end World

/-- A POST for the delivery is sent when no other waits for its commit and with the attempts that are
committed, and no transaction that counts one is undone. -/
def CountsEach (id : Uuid) (c : Nat) (w : World S) (op : Op S) (r : Res op) (_ : World S) : Prop :=
  (op.isPost = true → ∀ d ∈ (standing w.calls c).loaded, d.id = id →
    (∀ x ∈ w.calls, w.attempt? x.session id = none) ∧ w.db.attempts? id = some d.attempts) ∧
  (w.attempt? c id ≠ none → op.undoes r = false)

instance : Decidable (CountsEach id c w op r w') := by
  unfold CountsEach
  infer_instance

theorem standing_own (h : w'.calls = w.calls ++ [⟨c, op, r⟩]) :
    standing w'.calls c = (standing w.calls c).note ⟨op, r⟩ := by
  have hcalls := World.callsOf_own h
  rw [World.callsOf, World.callsOf] at hcalls
  rw [standing, hcalls, Standing.ofCalls_snoc]
  rfl

theorem standing_other {d : Nat} (h : w'.calls = w.calls ++ [⟨c, op, r⟩]) (hd : d ≠ c) :
    standing w'.calls d = standing w.calls d :=
  congrArg Standing.ofCalls (World.callsOf_other h hd)

theorem standing_idle (h : ∀ x ∈ w.calls, x.session ≠ c) : standing w.calls c = .start := by
  have hnone : (w.calls.filter fun x => x.session == c) = [] :=
    List.filter_eq_nil_iff.mpr fun x hx => by simpa using h x hx
  rw [standing, hnone]
  rfl

theorem postsSent_snoc {x : Call S} (h : w'.calls = w.calls ++ [x]) :
    w'.postsSent id = w.postsSent id + if World.postsFor id w.calls x then 1 else 0 := by
  have hbefore : (List.range w.calls.length).countP
      (fun n => (w.calls ++ [x])[n]?.any (World.postsFor id ((w.calls ++ [x]).take n))) =
        w.postsSent id := by
    refine List.countP_congr fun n hn => ?_
    have hlt := List.mem_range.mp hn
    rw [List.getElem?_append_left hlt, List.take_append_of_le_length hlt.le]
  rw [World.postsSent, h, List.length_append, List.length_singleton, List.range_succ,
    List.countP_append, hbefore, List.countP_singleton, List.getElem?_concat_length, List.take_left,
    Option.any_some]

/-- No call but a POST begins an attempt; it ends with the transaction. -/
theorem Standing.due_note {s : Standing} (hpost : op.isPost = false) :
    (s.note ⟨op, r⟩ : Standing).due = s.due ∨
      (s.note ⟨op, r⟩ : Standing).due = none ∧ (op.undoes r = true ∨ op = .commit) := by
  have hend : ({ s with posted := false } : Standing).due = none := rfl
  cases op with
  | query q =>
    cases r with
    | error e => exact Or.inr ⟨by cases q <;> exact hend, Or.inl rfl⟩
    | ok row =>
      left
      cases q with
      | delivery key =>
        cases row with
        | none => rfl
        | some d =>
          obtain ⟨loaded, posted⟩ := s
          cases posted <;> rfl
      | _ => rfl
  | write ws =>
    cases r with
    | error e => exact Or.inr ⟨hend, Or.inl rfl⟩
    | ok u => exact Or.inl rfl
  | commit => exact Or.inr ⟨hend, Or.inr rfl⟩
  | rollback => exact Or.inr ⟨hend, Or.inl rfl⟩
  | close => exact Or.inr ⟨hend, Or.inl rfl⟩
  | post => cases hpost
  | _ => exact Or.inl rfl

/-! What a commit makes of the attempts -/

section

variable (start : Time) {db : DB S} {ws : List (Write S)} {x : Write S} {due : Option WebhookDelivery}
  {d : WebhookDelivery} {n : Nat}

theorem attempts?_update (key : Uuid) (p : DeliveryPatch) :
    ((Write.updateDelivery key p).apply start db).attempts? id =
      if id = key then (db.attempts? id).map fun n => p.attempts.getD n else db.attempts? id := by
  have hfind : ((Write.updateDelivery key p).apply start db).webhookDeliveries.find? id =
      if id = key then (db.webhookDeliveries.find? key).map p.apply
      else db.webhookDeliveries.find? id := Framework.Table.find?_update (f := p.apply) fun _ => rfl
  rw [DB.attempts?, hfind, DB.attempts?]
  by_cases hkey : id = key
  · rw [if_pos hkey, if_pos hkey, hkey, Option.map_map, Option.map_map]
    rfl
  · rw [if_neg hkey, if_neg hkey]

theorem attempts?_insert (row : Row S) :
    ((Write.insert row).apply start db).attempts? id = db.attempts? id ∨
      ∃ d, row = .delivery d ∧ db.attempts? id = none ∧
        ((Write.insert row).apply start db).attempts? id = some d.attempts := by
  cases row with
  | delivery d =>
    have hfind : ((Write.insert (.delivery d)).apply start db).webhookDeliveries.find? id =
        (db.webhookDeliveries.find? id).or
          (if d.id = id then some { d with createdAt := start } else none) :=
      Framework.Table.find?_insert
    rw [DB.attempts?, hfind, DB.attempts?]
    cases db.webhookDeliveries.find? id with
    | some row => exact Or.inl rfl
    | none =>
      by_cases hid : d.id = id
      · rw [if_pos hid]
        exact Or.inr ⟨d, rfl, rfl, rfl⟩
      · rw [if_neg hid]
        exact Or.inl rfl
  | _ => exact Or.inl rfl

/-- A statement leaves the attempts of a delivery as they are or counts the one that is due. -/
theorem attempts?_apply (hx : x.Counts due) (h : db.attempts? id = some n) :
    (x.apply start db).attempts? id = some n ∨
      ∃ d, due = some d ∧ d.id = id ∧ (x.apply start db).attempts? id = some (d.attempts + 1) := by
  cases x with
  | insert row =>
    rcases @attempts?_insert S id start db row with hsame | ⟨d, -, hnone, -⟩
    · exact Or.inl (hsame.trans h)
    · rw [h] at hnone
      cases hnone
  | updateDelivery key p =>
    rw [attempts?_update, h]
    by_cases hkey : id = key
    · rw [if_pos hkey]
      rcases hx with hnone | ⟨d, hdue, hid, hone⟩
      · rw [hnone]
        exact Or.inl rfl
      · rw [hone]
        exact Or.inr ⟨d, hdue, hid.trans hkey.symm, rfl⟩
    · rw [if_neg hkey]
      exact Or.inl rfl
  | _ => exact Or.inl h

theorem attempts?_applyAll (hws : ∀ x ∈ ws, x.Counts due) (h : db.attempts? id = some n) :
    (applyAll start db ws).attempts? id = some n ∨
      ∃ d, due = some d ∧ d.id = id ∧ (applyAll start db ws).attempts? id = some (d.attempts + 1) := by
  induction ws generalizing db n with
  | nil => exact Or.inl h
  | cons x ws ih =>
    have hrest := fun y hy => hws y (List.mem_cons_of_mem x hy)
    rcases attempts?_apply start (hws x List.mem_cons_self) h with hx | ⟨d, hdue, hid, hx⟩
    · exact ih hrest hx
    · right
      rcases ih hrest hx with hsame | hcounted
      · exact ⟨d, hdue, hid, hsame⟩
      · exact hcounted

/-- The attempt that is due is counted once. -/
theorem attempts?_counted (hws : ∀ x ∈ ws, x.Counts (some d)) (hone : ∃ x ∈ ws, x.CountsOne d)
    (h : db.attempts? d.id = some n) : (applyAll start db ws).attempts? d.id = some (d.attempts + 1) := by
  obtain ⟨x, hx, p, rfl, hp⟩ := hone
  obtain ⟨pre, post, rfl⟩ := List.append_of_mem hx
  have hpre := fun y hy => hws y (List.mem_append_left _ hy)
  have hpost := fun y hy => hws y (List.mem_append_right pre (List.mem_cons_of_mem _ hy))
  have hthen : ∃ m, (applyAll start db pre).attempts? d.id = some m := by
    rcases attempts?_applyAll start hpre h with hsame | ⟨d', -, -, hcounted⟩
    · exact ⟨n, hsame⟩
    · exact ⟨_, hcounted⟩
  obtain ⟨m, hm⟩ := hthen
  rw [applyAll_append, applyAll_cons]
  have hcounted : ((Write.updateDelivery d.id p).apply start (applyAll start db pre)).attempts? d.id =
      some (d.attempts + 1) := by
    rw [attempts?_update, if_pos rfl, hm, hp]
    rfl
  rcases attempts?_applyAll start hpost hcounted with hsame | ⟨d', hdue, -, hsame⟩
  · exact hsame
  · cases hdue
    exact hsame

/-- A delivery that a transaction creates has no attempts. -/
theorem attempts?_created (hws : ∀ x ∈ ws, x.Counts due) (hdue : ∀ d, due = some d → d.id ≠ id)
    (h : db.attempts? id = none) :
    (applyAll start db ws).attempts? id = none ∨ (applyAll start db ws).attempts? id = some 0 := by
  induction ws generalizing db with
  | nil => exact Or.inl h
  | cons x ws ih =>
    have hx := hws x List.mem_cons_self
    have hrest := fun y hy => hws y (List.mem_cons_of_mem x hy)
    have hfirst : (x.apply start db).attempts? id = none ∨ (x.apply start db).attempts? id = some 0 := by
      cases x with
      | insert row =>
        rcases @attempts?_insert S id start db row with hsame | ⟨d, rfl, -, hnew⟩
        · exact Or.inl (hsame.trans h)
        · rw [hnew]
          exact Or.inr (congrArg some hx)
      | updateDelivery key p =>
        left
        rw [attempts?_update, h]
        exact ite_self _
      | _ => exact Or.inl h
    rcases hfirst with hnone | hzero
    · exact ih hrest hnone
    · right
      rcases attempts?_applyAll start hrest hzero with hsame | ⟨d, hd, hid, -⟩
      · exact hsame
      · exact absurd hid (hdue d hd)

end

/-! The runs of the deployment -/

/-- Every POST for the delivery is counted, but for one that waits for its commit. -/
structure Tallied (id : Uuid) (w : World S) : Prop where
  settled : (∀ c, w.attempt? c id = none) → ∀ n, w.db.attempts? id = some n → n = w.postsSent id
  waiting : ∀ c d, w.attempt? c id = some d →
    w.db.attempts? id = some d.attempts ∧ d.attempts + 1 = w.postsSent id
  single : ∀ c c', w.attempt? c id ≠ none → w.attempt? c' id ≠ none → c = c'
  absent : w.db.attempts? id = none → w.postsSent id = 0

theorem tallied_init : Tallied id (.init : World S) := by
  refine ⟨fun _ n h => ?_, fun c d h => ?_, fun c c' h => ?_, fun _ => rfl⟩
  · cases h
  · cases h
  · exact absurd rfl h

/-- Nothing happens to the delivery. -/
theorem Tallied.same (h : Tallied id w) (hdb : w'.db.attempts? id = w.db.attempts? id)
    (hsent : w'.postsSent id = w.postsSent id) (hattempt : ∀ c, w'.attempt? c id = w.attempt? c id) :
    Tallied id w' := by
  refine ⟨fun hidle n hn => ?_, fun c d hd => ?_, fun c c' hc hc' => ?_, fun hnone => ?_⟩
  · rw [hdb] at hn
    rw [hsent]
    exact h.settled (fun c => (hattempt c).symm.trans (hidle c)) n hn
  · rw [hattempt] at hd
    rw [hdb, hsent]
    exact h.waiting c d hd
  · rw [hattempt] at hc hc'
    exact h.single c c' hc hc'
  · rw [hdb] at hnone
    rw [hsent]
    exact h.absent hnone

/-- A POST for the delivery is sent. -/
theorem Tallied.posted {d : WebhookDelivery} (h : Tallied id w)
    (hidle : ∀ c, w.attempt? c id = none) (hdb : w'.db = w.db)
    (hfresh : w.db.attempts? id = some d.attempts) (hsent : w'.postsSent id = w.postsSent id + 1)
    (hown : w'.attempt? i id = some d) (hother : ∀ c, c ≠ i → w'.attempt? c id = w.attempt? c id) :
    Tallied id w' := by
  have honly : ∀ c, w'.attempt? c id ≠ none → c = i := by
    intro c hc
    by_contra hne
    exact hc ((hother c hne).trans (hidle c))
  refine ⟨fun hnone => ?_, fun c d' hd => ?_, fun c c' hc hc' => ?_, fun hnone => ?_⟩
  · rw [hnone i] at hown
    cases hown
  · have hc : c = i := honly c (by rw [hd]; exact Option.some_ne_none d')
    subst hc
    rw [hown] at hd
    cases hd
    have hcount := h.settled hidle _ hfresh
    rw [hdb, hsent, hcount]
    exact ⟨hcount ▸ hfresh, rfl⟩
  · rw [honly c hc, honly c' hc']
  · rw [hdb, hfresh] at hnone
    cases hnone

/-- The POST is counted by the commit that it waited for. -/
theorem Tallied.counted {d : WebhookDelivery} (h : Tallied id w) (hwaiting : w.attempt? i id = some d)
    (hdb : w'.db.attempts? id = some (d.attempts + 1)) (hsent : w'.postsSent id = w.postsSent id)
    (hown : w'.attempt? i id = none) (hother : ∀ c, c ≠ i → w'.attempt? c id = w.attempt? c id) :
    Tallied id w' := by
  have hnone : ∀ c, w'.attempt? c id = none := by
    intro c
    by_cases hc : c = i
    · rw [hc, hown]
    · rw [hother c hc]
      by_contra hne
      exact hc (h.single c i hne (by rw [hwaiting]; exact Option.some_ne_none d))
  obtain ⟨-, hcount⟩ := h.waiting i d hwaiting
  refine ⟨fun _ n hn => ?_, fun c d' hd => ?_, fun c c' hc => ?_, fun habsent => ?_⟩
  · rw [hdb] at hn
    cases hn
    rw [hsent, hcount]
  · rw [hnone c] at hd
    cases hd
  · exact absurd (hnone c) hc
  · rw [hdb] at habsent
    cases habsent

/-- The delivery is created. -/
theorem Tallied.created (h : Tallied id w) (hnone : w.db.attempts? id = none)
    (hdb : w'.db.attempts? id = some 0) (hsent : w'.postsSent id = w.postsSent id)
    (hattempt : ∀ c, w'.attempt? c id = w.attempt? c id) : Tallied id w' := by
  have hidle : ∀ c, w'.attempt? c id = none := by
    intro c
    rw [hattempt]
    by_contra hne
    obtain ⟨d, hd⟩ := Option.ne_none_iff_exists'.mp hne
    have hrow := (h.waiting c d hd).1
    rw [hnone] at hrow
    cases hrow
  refine ⟨fun _ n hn => ?_, fun c d hd => ?_, fun c c' hc => absurd (hidle c) hc, fun habsent => ?_⟩
  · rw [hdb] at hn
    cases hn
    rw [hsent, h.absent hnone]
  · rw [hidle c] at hd
    cases hd
  · rw [hdb] at habsent
    cases habsent

section

variable [Field S] [LinearOrder S] [FloorRing S] {before after : List (Event Job (Reply S))}
  {job : Job}

/-- What waits for a commit of another session goes on waiting. -/
theorem Advances.attempt?_ne (h : Advances cfg workflow before after i job op r) (hc : c ≠ i) :
    (deployment cfg workflow after).world.attempt? c id =
      (deployment cfg workflow before).world.attempt? c id := by
  rw [World.attempt?, standing_other h.steps.calls hc, World.attempt?]

theorem Advances.attempt?_self (h : Advances cfg workflow before after i job op r) :
    (deployment cfg workflow after).world.attempt? i id =
      ((standing (deployment cfg workflow before).world.calls i).note ⟨op, r⟩).due.filter
        fun d => d.id == id := by
  rw [World.attempt?, standing_own h.steps.calls]

/-- Where no POST is sent for the delivery and no commit counts one, its attempts and its POSTs stay
what they are. -/
theorem Advances.postsSent (h : Advances cfg workflow before after i job op r)
    (hpost : op.isPost = false) : (deployment cfg workflow after).world.postsSent id =
      (deployment cfg workflow before).world.postsSent id := by
  rw [postsSent_snoc h.steps.calls]
  have hnone : World.postsFor id (deployment cfg workflow before).world.calls ⟨i, op, r⟩ = false := by
    rw [World.postsFor, hpost]
    rfl
  rw [hnone]
  rfl

/-- A session counts the attempt that waits for its commit, and no other. -/
theorem Advances.countsAttempts {r : Res (.commit : Op S)}
    (h : Advances cfg workflow before after i job .commit r) :
    CountsAttempts ((deployment cfg workflow before).world.callsOf i) := by
  have hok := h.ok (O := atCommit CountsAttempts) (f := fun cs x => cs ++ [x])
    (fun _ _ _ hfits => ⟨hfits, rfl⟩) (Job.program_countsAttempts cfg workflow job i)
  rw [Framework.foldl_snoc, List.nil_append] at hok
  exact hok

theorem Advances.tallied_post {url : String} {body : List Char} {headers : List (String × String)}
    {r : Res (.post url body headers : Op S)}
    (h : Advances cfg workflow before after i job (.post url body headers) r)
    (hcond : CountsEach id i (deployment cfg workflow before).world (.post url body headers) r
      (deployment cfg workflow after).world)
    (htallied : Tallied id (deployment cfg workflow before).world) :
    Tallied id (deployment cfg workflow after).world := by
  have hdb : (deployment cfg workflow after).world.db = (deployment cfg workflow before).world.db := by
    rcases h.history with hquiet | ⟨hcommit, -⟩
    · exact hquiet.db
    · cases hcommit
  have hsent := @postsSent_snoc S _ _ id _ h.steps.calls
  have hown : (deployment cfg workflow after).world.attempt? i id =
      (standing (deployment cfg workflow before).world.calls i).loaded.filter fun d => d.id == id :=
    h.attempt?_self
  have hidle : (∀ x ∈ (deployment cfg workflow before).world.calls,
      (deployment cfg workflow before).world.attempt? x.session id = none) →
        ∀ c, (deployment cfg workflow before).world.attempt? c id = none := by
    intro hall c
    by_cases hc : ∃ x ∈ (deployment cfg workflow before).world.calls, x.session = c
    · obtain ⟨x, hx, rfl⟩ := hc
      exact hall x hx
    · rw [World.attempt?, standing_idle fun x hx hs => hc ⟨x, hx, hs⟩]
      rfl
  rcases hloaded : (standing (deployment cfg workflow before).world.calls i).loaded with _ | d
  · rw [hloaded] at hown
    rw [World.postsFor, hloaded, Option.any_none, Bool.and_false] at hsent
    refine htallied.same (by rw [hdb]) hsent fun c => ?_
    by_cases hc : c = i
    · subst hc
      rw [hown, World.attempt?, Standing.due, hloaded, ite_self]
    · exact h.attempt?_ne hc
  · by_cases hid : d.id = id
    · obtain ⟨hall, hfresh⟩ := hcond.1 rfl d hloaded hid
      rw [hloaded, Option.filter_some, if_pos (beq_iff_eq.mpr hid)] at hown
      have hpost : World.postsFor id (deployment cfg workflow before).world.calls
          ⟨i, .post url body headers, r⟩ = true := by
        rw [World.postsFor, hloaded, Option.any_some]
        exact beq_iff_eq.mpr hid
      rw [hpost, if_pos rfl] at hsent
      exact htallied.posted (hidle hall) hdb hfresh hsent hown fun c hc => h.attempt?_ne hc
    · have hne : (d.id == id) = false := beq_eq_false_iff_ne.mpr hid
      rw [hloaded, Option.filter_some, hne] at hown
      rw [World.postsFor, hloaded, Option.any_some, hne, Bool.and_false] at hsent
      refine htallied.same (by rw [hdb]) hsent fun c => ?_
      by_cases hc : c = i
      · subst hc
        rw [hown, World.attempt?, Standing.due, hloaded]
        cases (standing (deployment cfg workflow before).world.calls c).posted
        · rfl
        · rw [if_pos rfl, Option.filter_some, hne]
      · exact h.attempt?_ne hc

/-- A commit that writes counts the attempt that waits for it. -/
theorem Advances.tallied_commit {tx : Tx S} {r : Res (.commit : Op S)}
    (h : Advances cfg workflow before after i job .commit r)
    (hcommits : (deployment cfg workflow before).world.Commits i tx
      (deployment cfg workflow after).world)
    (htallied : Tallied id (deployment cfg workflow before).world) :
    Tallied id (deployment cfg workflow after).world := by
  have hsent := @Advances.postsSent S cfg workflow i id _ _ _ _ _ before after job h rfl
  have hcounts := h.countsAttempts
  have hpending : (Book.ofCalls ((deployment cfg workflow before).world.callsOf i)).pending =
      tx.writes := by
    rw [h.pending, World.writesOf, hcommits.open_]
    rfl
  have hown : (deployment cfg workflow after).world.attempt? i id = none := by
    rw [h.attempt?_self]
    rfl
  have hwrites : ∀ x ∈ tx.writes,
      x.Counts (standing (deployment cfg workflow before).world.calls i).due := by
    rw [← hpending]
    exact hcounts.counts
  cases hwaiting : (deployment cfg workflow before).world.attempt? i id with
  | some d =>
    obtain ⟨hdue, hid⟩ := Option.filter_eq_some_iff.mp hwaiting
    have hid : d.id = id := beq_iff_eq.mp hid
    subst hid
    obtain ⟨hrow, -⟩ := htallied.waiting i d hwaiting
    rw [hdue] at hwrites
    have hone : ∃ x ∈ tx.writes, x.CountsOne d := by
      rw [← hpending]
      exact hcounts.counted d hdue
    refine htallied.counted hwaiting ?_ hsent hown fun c hc => h.attempt?_ne hc
    rw [hcommits.db]
    exact attempts?_counted tx.start hwrites hone hrow
  | none =>
    have hattempt : ∀ c, (deployment cfg workflow after).world.attempt? c id =
        (deployment cfg workflow before).world.attempt? c id := by
      intro c
      by_cases hc : c = i
      · rw [hc, hown, hwaiting]
      · exact h.attempt?_ne hc
    have hdue : ∀ d, (standing (deployment cfg workflow before).world.calls i).due = some d →
        d.id ≠ id := by
      intro d hd hid
      have hsome : (deployment cfg workflow before).world.attempt? i id = some d :=
        Option.filter_eq_some_iff.mpr ⟨hd, beq_iff_eq.mpr hid⟩
      rw [hwaiting] at hsome
      cases hsome
    cases hrow : (deployment cfg workflow before).world.db.attempts? id with
    | some n =>
      refine htallied.same ?_ hsent hattempt
      rw [hrow, hcommits.db]
      rcases attempts?_applyAll tx.start hwrites hrow with hsame | ⟨d, hd, hid, -⟩
      · exact hsame
      · exact absurd hid (hdue d hd)
    | none =>
      have hnew := attempts?_created tx.start hwrites hdue hrow
      rw [← hcommits.db] at hnew
      rcases hnew with hnone | hzero
      · exact htallied.same (hnone.trans hrow.symm) hsent hattempt
      · exact htallied.created hrow hzero hsent hattempt

/-- A session whose POST waits for its commit has something to commit. -/
theorem Advances.commits_of_waiting {d : WebhookDelivery} {r : Res (.commit : Op S)}
    (h : Advances cfg workflow before after i job .commit r) (hok : r = .ok ())
    (hwaiting : (deployment cfg workflow before).world.attempt? i id = some d) :
    ¬(deployment cfg workflow before).world.Quiet (deployment cfg workflow after).world := by
  intro hquiet
  obtain ⟨hdue, -⟩ := Option.filter_eq_some_iff.mp hwaiting
  obtain ⟨x, hx, -⟩ := h.countsAttempts.counted d hdue
  rw [h.idle_of_quiet hok hquiet] at hx
  cases hx

theorem Advances.tallied (h : Advances cfg workflow before after i job op r)
    (hcond : CountsEach id i (deployment cfg workflow before).world op r
      (deployment cfg workflow after).world)
    (htallied : Tallied id (deployment cfg workflow before).world) :
    Tallied id (deployment cfg workflow after).world := by
  rcases h.history with hquiet | ⟨rfl, tx, s, hcommits, -, -⟩
  · cases hpost : op.isPost with
    | true =>
      cases op with
      | post url body headers => exact h.tallied_post hcond htallied
      | _ => cases hpost
    | false =>
      refine htallied.same (by rw [hquiet.db]) (h.postsSent hpost) fun c => ?_
      by_cases hc : c = i
      · subst hc
        rw [h.attempt?_self]
        rcases @Standing.due_note S op r (standing (deployment cfg workflow before).world.calls c)
          hpost with hsame | ⟨hnone, hends⟩
        · rw [hsame]
          rfl
        · rw [hnone]
          by_contra hne
          obtain ⟨d, hwaiting⟩ := Option.ne_none_iff_exists'.mp (Ne.symm hne)
          have hkept := hcond.2 (Ne.symm hne)
          rcases hends with hundoes | rfl
          · rw [hundoes] at hkept
            cases hkept
          · cases r with
            | error e => cases hkept
            | ok u => exact h.commits_of_waiting rfl hwaiting hquiet
      · exact h.attempt?_ne hc
  · exact h.tallied_commit hcommits htallied

theorem deployment_tallied {events : List (Event Job (Reply S))}
    (hm : Pool.Meets (server cfg.platform) (Job.program cfg workflow) (CountsEach id) ⟨.init, []⟩
      events)
    (hs : Pool.Spares (server cfg.platform) (Job.program cfg workflow)
      (fun c w => w.attempt? c id ≠ none) ⟨.init, []⟩ events) :
    Tallied id (deployment cfg workflow events).world :=
  deployment_induction_sparing tallied_init (fun h hcond htallied => h.tallied hcond htallied)
    (fun _ h => h.same rfl rfl fun _ => rfl) hm hs

/-- Where POSTs for the delivery never overlap and each of them reaches its commit, the attempts that
are recorded are the POSTs that were sent, whenever no session is between the two. -/
theorem deployment_attemptsCounted {events : List (Event Job (Reply S))} {d : WebhookDelivery}
    (hm : Pool.Meets (server cfg.platform) (Job.program cfg workflow) (CountsEach id) ⟨.init, []⟩
      events)
    (hs : Pool.Spares (server cfg.platform) (Job.program cfg workflow)
      (fun c w => w.attempt? c id ≠ none) ⟨.init, []⟩ events)
    (hidle : ∀ i job op next,
      (deployment cfg workflow events).threads[i]? = some (job, some (.call op next)) →
        (deployment cfg workflow events).world.attempt? i id = none)
    (hd : (deployment cfg workflow events).world.db.webhookDeliveries.find? id = some d) :
    d.attempts = (deployment cfg workflow events).world.postsSent id := by
  have htallied := deployment_tallied hm hs
  refine htallied.settled (fun i => ?_) d.attempts (congrArg (Option.map _) hd)
  rcases hthread : (deployment cfg workflow events).threads[i]? with _ | ⟨job, _ | _ | ⟨op, next⟩⟩
  · have hfresh : (deployment cfg workflow events).world.callsOf i = [] :=
      (deployment_kept.fresh i (List.getElem?_eq_none_iff.mp hthread)).2
    have hstart : standing (deployment cfg workflow events).world.calls i = .start :=
      congrArg Standing.ofCalls hfresh
    rw [World.attempt?, hstart]
    rfl
  · refine not_not.mp (idle_of_cut (fun hd hcalls hbusy => ?_) (fun hbusy => hbusy) hs hthread)
    rw [World.attempt?, standing_other hcalls hd] at hbusy
    exact hbusy
  · rename_i o
    have hend := ends_of_thread (O := atCommit fun _ => True) (f := fun cs x => cs ++ [x]) (fun _ _ _ hfits => ⟨hfits, rfl⟩)
      (Job.program_ends cfg workflow job i) hthread
    rw [Framework.foldl_snoc, List.nil_append] at hend
    have hposted : (standing (deployment cfg workflow events).world.calls i).posted = false := hend
    rw [World.attempt?, Standing.due, hposted]
    rfl
  · exact hidle i job op next hthread

end

/-- The webhook of the approved ticket is delivered. -/
def deliveredWebhook : List (Event Job (Reply ℚ)) :=
  approvedTicket ++ .spawn (.deliverWebhook ⟨5, 2⟩ 0) :: calls 6 8

theorem deliveredWebhook_counted : ∃ d : WebhookDelivery,
    (deployment .plain helpfulDraft deliveredWebhook).world.db.webhookDeliveries.find? ⟨5, 2⟩ = some d ∧
      d.attempts = 1 ∧
      (deployment .plain helpfulDraft deliveredWebhook).world.postsSent ⟨5, 2⟩ = 1 := by
  have hrow : ((deployment .plain helpfulDraft deliveredWebhook).world.db.webhookDeliveries.find?
      ⟨5, 2⟩).any (fun d => d.attempts == 1) = true := by decide +kernel
  have hrests : rests (deployment .plain helpfulDraft deliveredWebhook) = true := by decide +kernel
  obtain ⟨d, hd, hone⟩ := (Option.any_eq_true _ _).mp hrow
  have hone : d.attempts = 1 := eq_of_beq hone
  have hcounted := @deployment_attemptsCounted _ .plain helpfulDraft ⟨5, 2⟩ _ _ _ deliveredWebhook d
    (by decide +kernel) (by decide +kernel)
    (fun _ _ _ _ hthread => absurd hthread (rests_thread hrests)) hd
  exact ⟨d, hd, hone, hcounted.symm.trans hone⟩

/-- A POST is lost on a worker that is cut off before it commits. -/
theorem deliveredWebhook_cut : ¬∀ (events : List (Event Job (Reply ℚ))) (id : Uuid)
    (d : WebhookDelivery), rests (deployment .plain helpfulDraft events) = true →
      (deployment .plain helpfulDraft events).world.db.webhookDeliveries.find? id = some d →
        d.attempts = (deployment .plain helpfulDraft events).world.postsSent id := by
  intro h
  let cut : List (Event Job (Reply ℚ)) :=
    approvedTicket ++ .spawn (.deliverWebhook ⟨5, 2⟩ 0) :: calls 6 4 ++ [.kill 6]
  have hlost : ((deployment .plain helpfulDraft cut).world.db.webhookDeliveries.find? ⟨5, 2⟩).any
      (fun d => d.attempts != (deployment .plain helpfulDraft cut).world.postsSent ⟨5, 2⟩) = true := by
    decide +kernel
  obtain ⟨d, hd, hne⟩ := (Option.any_eq_true _ _).mp hlost
  have heq := h cut ⟨5, 2⟩ d (by decide +kernel) hd
  rw [heq] at hne
  simp at hne

end AgentDesk
