import AgentDesk.Logic.Tables
import AgentDesk.Logic.History

namespace AgentDesk

open Framework (Observer Table)

variable {S τ α : Type}

/-- A session that runs alone: the committed tables, its open transaction, the versions it
has replaced, and a summary of its calls. -/
@[ext] structure Solo (S τ : Type) where
  db : DB S
  tx : Option (Time × List (Write S))
  past : List (DB S)
  tally : τ

namespace Solo

/-- The transaction, opened now if need be. -/
def opened (s : Solo S τ) (now : Time) : Time × List (Write S) := s.tx.getD (now, [])

def view (s : Solo S τ) : DB S :=
  match s.tx with
  | none => s.db
  | some (start, ws) => applyAll start s.db ws

/-- The state after a commit. -/
def committed (s : Solo S τ) (tally : τ) : Solo S τ :=
  match s.tx with
  | none => ⟨s.db, none, s.past, tally⟩
  | some (_, []) => ⟨s.db, none, s.past, tally⟩
  | some (start, x :: ws) => ⟨applyAll start s.db (x :: ws), none, s.past ++ [s.db], tally⟩

section

variable (P : Platform) (faults : Op S → Bool) (note : τ → (op : Op S) → Res op → τ)

def Next (s : Solo S τ) : (op : Op S) → Res op → Solo S τ → Prop
  | .query q, .error e, s' =>
    faults (.query q) = true ∧ s' = ⟨s.db, none, s.past, note s.tally (.query q) (.error e)⟩
  | .query q, .ok r, s' => ∃ now choice, r = q.eval P choice s.view ∧
      s' = ⟨s.db, some (s.opened now), s.past, note s.tally (.query q) (.ok r)⟩
  | .write ws, .error e, s' =>
    (faults (.write ws) = true ∨ ∃ now, violatesAny (s.opened now).1 s.view ws = true) ∧
      s' = ⟨s.db, none, s.past, note s.tally (.write ws) (.error e)⟩
  | .write ws, .ok u, s' => ∃ now, violatesAny (s.opened now).1 s.view ws = false ∧
      s' = ⟨s.db, some ((s.opened now).1, (s.opened now).2 ++ ws), s.past,
        note s.tally (.write ws) (.ok u)⟩
  | .commit, .error e, s' =>
    faults .commit = true ∧ s' = ⟨s.db, none, s.past, note s.tally .commit (.error e)⟩
  | .commit, .ok u, s' => s' = s.committed (note s.tally .commit (.ok u))
  | .rollback, .error e, s' =>
    faults .rollback = true ∧ s' = ⟨s.db, none, s.past, note s.tally .rollback (.error e)⟩
  | .rollback, .ok u, s' => s' = ⟨s.db, none, s.past, note s.tally .rollback (.ok u)⟩
  | .close, u, s' => s' = ⟨s.db, none, s.past, note s.tally .close u⟩
  | .clock, now, s' => s' = { s with tally := note s.tally .clock now }
  | .salt, n, s' => s' = { s with tally := note s.tally .salt n }
  | .embed texts, r, s' => (∀ e, r = .error e → faults (.embed texts) = true) ∧
      s' = { s with tally := note s.tally (.embed texts) r }
  | .chat request, r, s' => (∀ e, r = .error e → faults (.chat request) = true) ∧
      s' = { s with tally := note s.tally (.chat request) r }
  | .post url body headers, r, s' =>
    (∀ e, r = .error e → faults (.post url body headers) = true) ∧
      s' = { s with tally := note s.tally (.post url body headers) r }
  | .aclose, r, s' => (∀ e, r = .error e → faults .aclose = true) ∧
      s' = { s with tally := note s.tally .aclose r }
  | .enqueue task, r, s' => (∀ e, r = .error e → faults (.enqueue task) = true) ∧
      s' = { s with tally := note s.tally (.enqueue task) r }

/-- The observer of a session that runs alone; it knows the tables exactly. -/
def observer (c : Nat) : Observer (Op S) Res (Solo S τ) where
  ok _ op := match op with
    | .write ws => World.ownIds c ws = true
    | _ => True
  next := Next P faults note

end

/-! The rules, call by call -/

section

variable {P : Platform} {faults : Op S → Bool} {note : τ → (op : Op S) → Res op → τ}
  {c : Nat} {s : Solo S τ} {db : DB S} {past : List (DB S)} {tally : τ} {start now : Time}
  {ws : List (Write S)}

@[simp] theorem view_none : (Solo.mk db none past tally).view = db := rfl

@[simp] theorem view_some :
    (Solo.mk db (some (start, ws)) past tally).view = applyAll start db ws := rfl

@[simp] theorem opened_none : (Solo.mk db none past tally).opened now = (now, []) := rfl

@[simp] theorem opened_some {tx : Time × List (Write S)} :
    (Solo.mk db (some tx) past tally).opened now = tx := rfl

@[simp] theorem committed_none (t : τ) :
    (Solo.mk db none past tally).committed t = ⟨db, none, past, t⟩ := rfl

@[simp] theorem committed_nil (t : τ) :
    (Solo.mk db (some (start, [])) past tally).committed t = ⟨db, none, past, t⟩ := rfl

@[simp] theorem committed_cons (t : τ) (x : Write S) :
    (Solo.mk db (some (start, x :: ws)) past tally).committed t =
      ⟨applyAll start db (x :: ws), none, past ++ [db], t⟩ := rfl

@[simp] theorem committed_db (t : τ) : (s.committed t).db = s.view := by
  obtain ⟨db, _ | ⟨start, _ | ⟨x, ws⟩⟩, past, tally⟩ := s <;> rfl

@[simp] theorem committed_tx (t : τ) : (s.committed t).tx = none := by
  obtain ⟨db, _ | ⟨start, _ | ⟨x, ws⟩⟩, past, tally⟩ := s <;> rfl

@[simp] theorem committed_tally (t : τ) : (s.committed t).tally = t := by
  obtain ⟨db, _ | ⟨start, _ | ⟨x, ws⟩⟩, past, tally⟩ := s <;> rfl

theorem committed_past (t : τ) :
    ∃ more, (s.committed t).past = s.past ++ more ∧ ∀ v ∈ more, v = s.db := by
  obtain ⟨db, _ | ⟨start, _ | ⟨x, ws⟩⟩, past, tally⟩ := s
  · exact ⟨[], by simp, by simp⟩
  · exact ⟨[], by simp, by simp⟩
  · exact ⟨[db], rfl, by simp⟩

@[simp] theorem ok_write (ws : List (Write S)) :
    (observer P faults note c).ok s (.write ws) ↔ World.ownIds c ws = true := Iff.rfl

@[simp] theorem ok_query (q : Query S) : (observer P faults note c).ok s (.query q) := trivial
@[simp] theorem ok_commit : (observer P faults note c).ok s .commit := trivial
@[simp] theorem ok_rollback : (observer P faults note c).ok s .rollback := trivial
@[simp] theorem ok_close : (observer P faults note c).ok s .close := trivial
@[simp] theorem ok_clock : (observer P faults note c).ok s .clock := trivial
@[simp] theorem ok_salt : (observer P faults note c).ok s .salt := trivial
@[simp] theorem ok_embed (texts : List String) :
    (observer P faults note c).ok s (.embed texts) := trivial
@[simp] theorem ok_chat (request : ChatRequest) :
    (observer P faults note c).ok s (.chat request) := trivial
@[simp] theorem ok_post (url : String) (body : List Char) (headers : List (String × String)) :
    (observer P faults note c).ok s (.post url body headers) := trivial
@[simp] theorem ok_aclose : (observer P faults note c).ok s .aclose := trivial
@[simp] theorem ok_enqueue (task : Task) :
    (observer P faults note c).ok s (.enqueue task) := trivial

section

variable {Q : Solo S τ → Prop}

@[simp] theorem forall_query_error (q : Query S) (e : Err) :
    (∀ s', (observer P faults note c).next s (.query q) (no_index (.error e)) s' → Q s') ↔
      (faults (.query q) = true →
        Q ⟨s.db, none, s.past, note s.tally (.query q) (no_index (.error e))⟩) :=
  ⟨fun h hf => h _ ⟨hf, rfl⟩, fun h _ hn => hn.2 ▸ h hn.1⟩

/-- A lookup by key does not depend on what the server chooses. -/
theorem forall_query_ok {q : Query S} {r x : q.Result} (h : ∀ choice, q.eval P choice s.view = x) :
    (∀ s', (observer P faults note c).next s (.query q) (.ok r) s' → Q s') ↔
      ∀ now, x = r → Q ⟨s.db, some (s.opened now), s.past, note s.tally (.query q) (.ok r)⟩ := by
  constructor
  · exact fun hx now hr => hx _ ⟨now, ⟨0, none⟩, hr.symm.trans (h _).symm, rfl⟩
  · rintro hx _ ⟨now, choice, hr, rfl⟩
    exact hx now ((h choice).symm.trans hr.symm)

@[simp] theorem forall_ticket (id : Uuid) (r : Option Ticket) :
    (∀ s', (observer P faults note c).next s (.query (.ticket id)) (no_index (.ok r)) s' → Q s') ↔
      ∀ now, s.view.tickets.find? id = r → Q ⟨s.db, some (s.opened now), s.past,
        note s.tally (.query (.ticket id)) (no_index (.ok r))⟩ :=
  forall_query_ok fun _ => rfl

@[simp] theorem forall_agentRun (id : Uuid) (r : Option AgentRun) :
    (∀ s', (observer P faults note c).next s (.query (.agentRun id)) (no_index (.ok r)) s' →
      Q s') ↔
      ∀ now, s.view.agentRuns.find? id = r → Q ⟨s.db, some (s.opened now), s.past,
        note s.tally (.query (.agentRun id)) (no_index (.ok r))⟩ :=
  forall_query_ok fun _ => rfl

@[simp] theorem forall_webhook (id : Uuid) (r : Option Webhook) :
    (∀ s', (observer P faults note c).next s (.query (.webhook id)) (no_index (.ok r)) s' → Q s') ↔
      ∀ now, s.view.webhooks.find? id = r → Q ⟨s.db, some (s.opened now), s.past,
        note s.tally (.query (.webhook id)) (no_index (.ok r))⟩ :=
  forall_query_ok fun _ => rfl

@[simp] theorem forall_delivery (id : Uuid) (r : Option WebhookDelivery) :
    (∀ s', (observer P faults note c).next s (.query (.delivery id)) (no_index (.ok r)) s' →
      Q s') ↔
      ∀ now, s.view.webhookDeliveries.find? id = r → Q ⟨s.db, some (s.opened now), s.past,
        note s.tally (.query (.delivery id)) (no_index (.ok r))⟩ :=
  forall_query_ok fun _ => rfl

/-- Any webhook of the organization may come first. -/
@[simp] theorem forall_webhookOf (organizationId : Uuid) (r : Option Webhook) :
    (∀ s', (observer P faults note c).next s (.query (.webhookOf organizationId))
      (no_index (.ok r)) s' → Q s') ↔
      ∀ now pick, pickFrom pick (s.view.webhooks.rows.filter fun w =>
        w.organizationId == organizationId) = r → Q ⟨s.db, some (s.opened now), s.past,
          note s.tally (.query (.webhookOf organizationId)) (no_index (.ok r))⟩ := by
  constructor
  · exact fun hx now pick hr => hx _ ⟨now, ⟨pick, none⟩, hr.symm, rfl⟩
  · rintro hx _ ⟨now, choice, hr, rfl⟩
    exact hx now choice.pick hr.symm

@[simp] theorem forall_write_error (e : Err) :
    (∀ s', (observer P faults note c).next s (.write ws) (.error e) s' → Q s') ↔
      ((faults (.write ws) = true ∨ ∃ now, violatesAny (s.opened now).1 s.view ws = true) →
        Q ⟨s.db, none, s.past, note s.tally (.write ws) (.error e)⟩) :=
  ⟨fun h hf => h _ ⟨hf, rfl⟩, fun h _ hn => hn.2 ▸ h hn.1⟩

@[simp] theorem forall_write_ok (u : Unit) :
    (∀ s', (observer P faults note c).next s (.write ws) (.ok u) s' → Q s') ↔
      ∀ now, violatesAny (s.opened now).1 s.view ws = false →
        Q ⟨s.db, some ((s.opened now).1, (s.opened now).2 ++ ws), s.past,
          note s.tally (.write ws) (.ok u)⟩ := by
  constructor
  · exact fun hx now hv => hx _ ⟨now, hv, rfl⟩
  · rintro hx _ ⟨now, hv, rfl⟩
    exact hx now hv

@[simp] theorem forall_commit_error (e : Err) :
    (∀ s', (observer P faults note c).next s .commit (.error e) s' → Q s') ↔
      (faults .commit = true → Q ⟨s.db, none, s.past, note s.tally .commit (.error e)⟩) :=
  ⟨fun h hf => h _ ⟨hf, rfl⟩, fun h _ hn => hn.2 ▸ h hn.1⟩

@[simp] theorem forall_commit_ok (u : Unit) :
    (∀ s', (observer P faults note c).next s .commit (.ok u) s' → Q s') ↔
      Q (s.committed (note s.tally .commit (.ok u))) :=
  ⟨fun h => h _ rfl, fun h _ hn => hn ▸ h⟩

@[simp] theorem forall_rollback_error (e : Err) :
    (∀ s', (observer P faults note c).next s .rollback (.error e) s' → Q s') ↔
      (faults .rollback = true → Q ⟨s.db, none, s.past, note s.tally .rollback (.error e)⟩) :=
  ⟨fun h hf => h _ ⟨hf, rfl⟩, fun h _ hn => hn.2 ▸ h hn.1⟩

@[simp] theorem forall_rollback_ok (u : Unit) :
    (∀ s', (observer P faults note c).next s .rollback (.ok u) s' → Q s') ↔
      Q ⟨s.db, none, s.past, note s.tally .rollback (.ok u)⟩ :=
  ⟨fun h => h _ rfl, fun h _ hn => hn ▸ h⟩

@[simp] theorem forall_close (u : Unit) :
    (∀ s', (observer P faults note c).next s .close u s' → Q s') ↔
      Q ⟨s.db, none, s.past, note s.tally .close u⟩ :=
  ⟨fun h => h _ rfl, fun h _ hn => hn ▸ h⟩

@[simp] theorem forall_clock (now : Time) :
    (∀ s', (observer P faults note c).next s .clock now s' → Q s') ↔
      Q { s with tally := note s.tally .clock now } :=
  ⟨fun h => h _ rfl, fun h _ hn => hn ▸ h⟩

@[simp] theorem forall_salt (n : Nat) :
    (∀ s', (observer P faults note c).next s .salt n s' → Q s') ↔
      Q { s with tally := note s.tally .salt n } :=
  ⟨fun h => h _ rfl, fun h _ hn => hn ▸ h⟩

@[simp] theorem forall_post (url : String) (body : List Char) (headers : List (String × String))
    (r : Except Err Nat) :
    (∀ s', (observer P faults note c).next s (.post url body headers) r s' → Q s') ↔
      ((∀ e, r = .error e → faults (.post url body headers) = true) →
        Q { s with tally := note s.tally (.post url body headers) r }) :=
  ⟨fun h hf => h _ ⟨hf, rfl⟩, fun h _ hn => hn.2 ▸ h hn.1⟩

@[simp] theorem forall_aclose (r : Except Err Unit) :
    (∀ s', (observer P faults note c).next s .aclose r s' → Q s') ↔
      ((∀ e, r = .error e → faults .aclose = true) →
        Q { s with tally := note s.tally .aclose r }) :=
  ⟨fun h hf => h _ ⟨hf, rfl⟩, fun h _ hn => hn.2 ▸ h hn.1⟩

@[simp] theorem forall_enqueue (task : Task) (r : Except Err Unit) :
    (∀ s', (observer P faults note c).next s (.enqueue task) r s' → Q s') ↔
      ((∀ e, r = .error e → faults (.enqueue task) = true) →
        Q { s with tally := note s.tally (.enqueue task) r }) :=
  ⟨fun h hf => h _ ⟨hf, rfl⟩, fun h _ hn => hn.2 ▸ h hn.1⟩

end

end

/-! Around the body of a session -/

section

variable {P : Platform} {faults : Op S → Bool} {note : τ → (op : Op S) → Res op → τ}
  {c : Nat} {s : Solo S τ} {σ : Session S} {p : M S α}

/-- The state once the session is closed. -/
def closed (note : τ → (op : Op S) → Res op → τ) (s : Solo S τ) : Solo S τ :=
  ⟨s.db, none, s.past, note s.tally .close ()⟩

theorem sessionScope_solo {Q : α → Solo S τ → Prop} {E : Err → Solo S τ → Prop}
    (h : p.Triple (observer P faults note c) (fun a _ s' => Q a (s'.closed note))
      (fun e _ s' => E e (s'.closed note)) σ s) :
    (sessionScope p).Triple (observer P faults note c) (fun a _ => Q a) (fun e _ => E e) σ s := by
  unfold M.Triple sessionScope
  rw [Framework.Program.obeys_bind]
  refine Framework.Program.obeys_mono h ?_
  rintro ⟨_ | a, σ'⟩ s' hx <;>
  · refine ⟨trivial, ?_⟩
    rintro _ _ rfl
    exact hx

theorem getDb_solo {Q : α → Solo S τ → Prop} {E : Err → Solo S τ → Prop}
    (h : p.Triple (observer P faults note c) (fun a _ s' => Q a (s'.closed note))
      (fun e _ s' => (∀ e', faults .rollback = true →
        E e' ((⟨s'.db, none, s'.past, note s'.tally .rollback (.error e')⟩ : Solo S τ).closed note)) ∧
        E e ((⟨s'.db, none, s'.past, note s'.tally .rollback (.ok ())⟩ : Solo S τ).closed note))
      σ s) :
    (getDb p).Triple (observer P faults note c) (fun a _ => Q a) (fun e _ => E e) σ s := by
  refine sessionScope_solo ?_
  rw [M.triple_except]
  refine M.triple_mono h (fun _ _ _ h => h) (fun e _ _ h => ?_)
  simp
  exact ⟨h.1, fun _ => h.2⟩

end

/-- The world in which session `c` is the only one with a transaction. -/
structure At (note : τ → (op : Op S) → Res op → τ) (c : Nat) (base : World S) (init : τ)
    (w : World S) (s : Solo S τ) : Prop where
  db : w.db = s.db
  alone : ∀ d, d ≠ c → w.tx? d = none
  tx : (w.tx? c).map (fun tx => (tx.start, tx.writes)) = s.tx
  past : w.past = base.past ++ s.past
  calls : ∃ cs, w.calls = base.calls ++ cs ∧
    s.tally = cs.foldl (fun t x => note t x.op x.result) init

section

variable {P : Platform} {faults : Op S → Bool} {note : τ → (op : Op S) → Res op → τ}
  {c : Nat} {base w : World S} {init : τ} {s : Solo S τ}

theorem At.view (h : At note c base init w s) : w.view c = s.view := by
  cases ht : w.tx? c with
  | none =>
    have := h.tx
    rw [ht] at this
    simp [World.view, Solo.view, ht, ← this, h.db]
  | some tx =>
    have := h.tx
    rw [ht] at this
    simp [World.view, Solo.view, ht, ← this, h.db]

theorem At.opened (h : At note c base init w s) (now : Time) :
    s.opened now = ((w.txOf c now).start, (w.txOf c now).writes) := by
  cases ht : w.tx? c with
  | none => simp [World.txOf, Solo.opened, ht, ← h.tx]
  | some tx => simp [World.txOf, Solo.opened, ht, ← h.tx]

theorem At.not_blocked (h : At note c base init w s) (ws : List (Write S)) :
    w.blocked c ws = false := by
  rw [World.blocked, List.any_eq_false]
  intro t ht
  by_cases hc : t.session = c
  · simp [hc]
  · exfalso
    have hnone := List.find?_eq_none.mp (h.alone t.session hc) t ht
    simp at hnone

/-- The call is logged and nothing else is left of the session's transaction. -/
theorem At.dropped (h : At note c base init w s) (op : Op S) (r : Res op) :
    At note c base init ((w.dropTx c).log c op r) ⟨s.db, none, s.past, note s.tally op r⟩ := by
  obtain ⟨cs, hcs, htally⟩ := h.calls
  refine ⟨h.db, ?_, ?_, h.past, cs ++ [⟨c, op, r⟩], ?_, ?_⟩
  · intro d hd
    exact (World.tx?_dropTx_ne (w := w) hd).trans (h.alone d hd)
  · exact congrArg (Option.map _) (World.tx?_dropTx_self (w := w) (c := c))
  · simp [World.log, World.dropTx, hcs]
  · simp [htally]

theorem At.logged (h : At note c base init w s) (op : Op S) (r : Res op) :
    At note c base init (w.log c op r) { s with tally := note s.tally op r } := by
  obtain ⟨cs, hcs, htally⟩ := h.calls
  exact ⟨h.db, h.alone, h.tx, h.past, cs ++ [⟨c, op, r⟩], by simp [World.log, hcs],
    by simp [htally]⟩

theorem At.noted (h : At note c base init w s) (now : Time) (q : Query S) (r : q.Result)
    (op : Op S) (x : Res op) :
    At note c base init ((w.noteRead c now q r).log c op x)
      ⟨s.db, some (s.opened now), s.past, note s.tally op x⟩ := by
  obtain ⟨cs, hcs, htally⟩ := h.calls
  obtain ⟨tx, htx, hw, hstart⟩ := World.tx?_noteRead (w := w) (c := c) now q r
  have hq := World.quiet_noteRead (w := w) (c := c) now q r
  have hc := World.confined_noteRead (w := w) (c := c) now q r
  refine ⟨hq.db.trans h.db, ?_, ?_, hq.past.trans h.past, cs ++ [⟨c, op, x⟩], ?_, ?_⟩
  · intro d hd
    exact (hc.tx d hd).trans (h.alone d hd)
  · have hclosed : ((w.noteRead c now q r).log c op x).tx? c = some tx := htx
    rw [hclosed, Option.map_some, h.opened, hw, hstart, ← World.txOf_writes now]
  · have hcalls : (w.noteRead c now q r).calls = w.calls := by cases q <;> rfl
    simp [World.log, hcalls, hcs]
  · simp [htally]

theorem At.committed (h : At note c base init w s) (op : Op S) (x : Res op) :
    At note c base init ((w.commitTx c).log c op x) (s.committed (note s.tally op x)) := by
  obtain ⟨cs, hcs, htally⟩ := h.calls
  obtain ⟨-, hconf, hclosed, hcalls⟩ := World.commitTx_cases (w := w) c
  have rest : ∀ db past, (w.commitTx c).db = db → (w.commitTx c).past = base.past ++ past →
      At note c base init ((w.commitTx c).log c op x) ⟨db, none, past, note s.tally op x⟩ := by
    intro db past hdb hpast
    refine ⟨hdb, fun d hd => (hconf.tx d hd).trans (h.alone d hd), ?_, hpast,
      cs ++ [⟨c, op, x⟩], by simp [World.log, hcalls, hcs], by simp [htally]⟩
    exact congrArg (Option.map _) hclosed
  have htx := h.tx
  cases ht : w.tx? c with
  | none =>
    rw [ht] at htx
    rw [Solo.committed, ← htx]
    exact rest s.db s.past (by simp [World.commitTx, ht, h.db])
      (by simp [World.commitTx, ht, h.past])
  | some tx =>
    rw [ht] at htx
    rw [Solo.committed, ← htx]
    cases hw : tx.writes with
    | nil =>
      simp only [Option.map_some, hw]
      exact rest s.db s.past (by simp [World.commitTx, ht, hw, World.dropTx, h.db])
        (by simp [World.commitTx, ht, hw, World.dropTx, h.past])
    | cons y ws =>
      simp only [Option.map_some, hw]
      exact rest (applyAll tx.start s.db (y :: ws)) (s.past ++ [s.db])
        (by simp [World.commitTx, ht, hw, h.db]) (by simp [World.commitTx, ht, hw, h.past, h.db])

/-- Alone, an allowed call returns, and the observer knows what it did. -/
theorem At.step {op : Op S} (h : At note c base init w s)
    (hok : (observer P faults note c).ok s op) (reply : Reply S) :
    ∃ r w', (serverWhere P faults).exec c op reply w = some (r, w') ∧
      ∃ s', (observer P faults note c).next s op r s' ∧ At note c base init w' s' := by
  have faulty : ∀ e, (if faults op then reply else { reply with fault := none }).fault = some e →
      faults op = true := by
    intro e he
    by_contra hf
    simp [hf] at he
  simp only [serverWhere, World.exec]
  generalize (if faults op then reply else { reply with fault := none }) = reply at faulty
  cases op with
  | query q =>
    simp only [World.effect]
    cases hf : reply.fault with
    | some e => exact ⟨_, _, rfl, _, ⟨faulty e hf, rfl⟩, h.dropped _ _⟩
    | none =>
      rw [h.view]
      exact ⟨_, _, rfl, _, ⟨reply.now, reply.choice, rfl, rfl⟩, h.noted _ q _ _ _⟩
  | write ws =>
    simp only [World.effect]
    have hown : World.ownIds c ws = true := hok
    have hopened := h.opened reply.now
    cases hf : reply.fault with
    | some e => exact ⟨_, _, rfl, _, ⟨Or.inl (faulty e hf), rfl⟩, h.dropped _ _⟩
    | none =>
      simp only [h.not_blocked, hown, Bool.not_true, Bool.or_self, Bool.false_eq_true, if_false]
      rw [h.view]
      cases hv : violatesAny (w.txOf c reply.now).start s.view ws with
      | true =>
        refine ⟨_, _, rfl, _, ⟨Or.inr ⟨reply.now, ?_⟩, rfl⟩, h.dropped _ _⟩
        rw [hopened]
        exact hv
      | false =>
        refine ⟨_, _, rfl, _, ⟨reply.now, ?_, rfl⟩, ?_⟩
        · rw [hopened]
          exact hv
        · obtain ⟨cs, hcs, htally⟩ := h.calls
          refine ⟨h.db, ?_, ?_, h.past, cs ++ [⟨c, .write ws, .ok ()⟩], ?_, ?_⟩
          · intro d hd
            exact (World.tx?_setTx_ne (w := w) (by simpa using hd)).trans (h.alone d hd)
          · rw [hopened]
            exact congrArg (Option.map _) (World.tx?_setTx_self (w := w)
              { w.txOf c reply.now with writes := (w.txOf c reply.now).writes ++ ws }
              (World.txOf_session reply.now))
          · simp [World.log, World.setTx, hcs]
          · simp [htally]
  | commit =>
    simp only [World.effect]
    cases hf : reply.fault with
    | some e => exact ⟨_, _, rfl, _, ⟨faulty e hf, rfl⟩, h.dropped _ _⟩
    | none => exact ⟨_, _, rfl, _, rfl, h.committed _ _⟩
  | rollback =>
    simp only [World.effect]
    cases hf : reply.fault with
    | some e => exact ⟨_, _, rfl, _, ⟨faulty e hf, rfl⟩, h.dropped _ _⟩
    | none => exact ⟨_, _, rfl, _, rfl, h.dropped _ _⟩
  | close => exact ⟨_, _, rfl, _, rfl, h.dropped _ _⟩
  | clock => exact ⟨_, _, rfl, _, rfl, h.logged _ _⟩
  | salt => exact ⟨_, _, rfl, _, rfl, h.logged _ _⟩
  | enqueue task =>
    simp only [World.effect]
    cases hf : reply.fault with
    | some e => exact ⟨_, _, rfl, _, ⟨fun _ _ => faulty e hf, rfl⟩, h.logged _ _⟩
    | none =>
      obtain ⟨cs, hcs, htally⟩ := h.calls
      refine ⟨_, _, rfl, _, ⟨fun _ he => (by cases he), rfl⟩, h.db, h.alone, h.tx, h.past,
        cs ++ [⟨c, .enqueue task, .ok ()⟩], by simp [World.log, hcs], by simp [htally]⟩
  | _ =>
    simp only [World.effect]
    cases hf : reply.fault with
    | some e => exact ⟨_, _, rfl, _, ⟨fun _ _ => faulty e hf, rfl⟩, h.logged _ _⟩
    | none => exact ⟨_, _, rfl, _, ⟨fun _ he => (by cases he), rfl⟩, h.logged _ _⟩

theorem at_start (h : ∀ d, w.tx? d = none) : At note c w init w ⟨w.db, none, [], init⟩ :=
  ⟨rfl, fun d _ => h d, by rw [h]; rfl, by simp, [], by simp, rfl⟩

/-- A coroutine that runs alone comes to its end, and ends as its triple says. -/
theorem run_of_triple {p : M S α} {Q : α → Session S → Solo S τ → Prop}
    {E : Err → Session S → Solo S τ → Prop} {σ : Session S} (env : Nat → Reply S)
    (hp : p.Triple (observer P faults note c) Q E σ s) (h : At note c base init w s) :
    ∃ x w' env', (p σ).run (serverWhere P faults) c env w = some (x, w', env') ∧
      ∃ s', (match x.1 with
        | .ok a => Q a x.2 s'
        | .error e => E e x.2 s') ∧ At note c base init w' s' :=
  Framework.run_of_obeys (fun reply h hok => h.step hok reply) env hp h

end

end Solo

end AgentDesk
