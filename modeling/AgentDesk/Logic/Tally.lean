import AgentDesk.Logic.Solo

namespace AgentDesk

variable {S : Type}

/-! Which calls of a session failed, and when -/

/-- The call raised. The POST of a webhook does not count: its failure is an answer that
the program records. -/
def Op.raised : (op : Op S) → Res op → Bool
  | .query _, .error _ => true
  | .write _, .error _ => true
  | .commit, .error _ => true
  | .rollback, .error _ => true
  | .embed _, .error _ => true
  | .chat _, .error _ => true
  | .aclose, .error _ => true
  | .enqueue _, .error _ => true
  | _, _ => false

def Op.isPost : Op S → Bool
  | .post _ _ _ => true
  | _ => false

/-- Something other than the POST of a webhook can fail. -/
def Faulty (faults : Op S → Bool) : Prop := ∃ op, op.isPost = false ∧ faults op = true

def Op.commits : (op : Op S) → Res op → Bool
  | .commit, .ok _ => true
  | _, _ => false

def Op.rollsBack : Op S → Bool
  | .rollback => true
  | _ => false

/-- The call raised. -/
def Call.failed (x : Call S) : Bool := x.op.raised x.result

/-- The call made a transaction durable. -/
def Call.commits (x : Call S) : Bool := x.op.commits x.result

def Call.rollsBack (x : Call S) : Bool := x.op.rollsBack

/-- Some call failed after a commit had succeeded. -/
def failsAfterCommit (cs : List (Call S)) : Bool := (cs.dropWhile fun x => !x.commits).any Call.failed

/-- A commit succeeded before any rollback. -/
def persists (cs : List (Call S)) : Bool := (cs.takeWhile fun x => !x.rollsBack).any Call.commits

/-- A commit succeeded after a rollback. -/
def recordsFailure (cs : List (Call S)) : Bool :=
  (cs.dropWhile fun x => !x.rollsBack).any Call.commits

/-- The same, counted call by call. -/
@[ext] structure Flags where
  rolledBack : Bool
  persisted : Bool
  recorded : Bool
  late : Bool
  deriving DecidableEq

namespace Flags

def start : Flags := ⟨false, false, false, false⟩

def note (t : Flags) (op : Op S) (r : Res op) : Flags where
  rolledBack := t.rolledBack || op.rollsBack
  persisted := t.persisted || op.commits r && !t.rolledBack
  recorded := t.recorded || op.commits r && t.rolledBack
  late := t.late || op.raised r && (t.persisted || t.recorded)

theorem not_rollsBack_of_commits {x : Call S} (h : x.commits = true) : x.rollsBack = false := by
  obtain ⟨c, op, r⟩ := x
  cases op <;> first | rfl | simp [Call.commits, Op.commits] at h

theorem not_failed_of_commits {x : Call S} (h : x.commits = true) : x.failed = false := by
  obtain ⟨c, op, r⟩ := x
  cases op
  case commit =>
    cases r with
    | ok u => rfl
    | error e => simp [Call.commits, Op.commits] at h
  all_goals simp [Call.commits, Op.commits] at h

theorem foldl_note (cs : List (Call S)) (t : Flags) :
    cs.foldl (fun t x => t.note x.op x.result) t =
      ⟨t.rolledBack || cs.any Call.rollsBack,
        t.persisted || !t.rolledBack && persists cs,
        t.recorded || (if t.rolledBack then cs.any Call.commits else recordsFailure cs),
        t.late || (if t.persisted || t.recorded then cs.any Call.failed else failsAfterCommit cs)⟩ := by
  induction cs generalizing t with
  | nil => simp [persists, recordsFailure, failsAfterCommit]
  | cons x cs ih =>
    have hroll := @not_rollsBack_of_commits S x
    have hfail := @not_failed_of_commits S x
    have hnote : t.note x.op x.result = ⟨t.rolledBack || x.rollsBack,
        t.persisted || x.commits && !t.rolledBack, t.recorded || x.commits && t.rolledBack,
        t.late || x.failed && (t.persisted || t.recorded)⟩ := rfl
    rw [List.foldl_cons, hnote, ih]
    obtain ⟨rolledBack, persisted, recorded, late⟩ := t
    simp only [persists, recordsFailure, failsAfterCommit, List.any_cons, List.takeWhile_cons,
      List.dropWhile_cons]
    cases hc : x.commits
    · cases x.rollsBack <;> cases x.failed <;> cases rolledBack <;> cases persisted <;>
        cases recorded <;> simp [hc]
    · rw [hroll hc, hfail hc]
      cases rolledBack <;> cases persisted <;> cases recorded <;> simp [hc, hfail hc]

/-! Call by call -/

def failed (t : Flags) : Flags := { t with late := t.late || (t.persisted || t.recorded) }

def committed (t : Flags) : Flags :=
  { t with
    persisted := t.persisted || !t.rolledBack
    recorded := t.recorded || t.rolledBack }

section

variable (t : Flags)

theorem note_failed {op : Op S} {r : Res op} (hr : op.raised r = true) (hc : op.commits r = false)
    (hb : op.rollsBack = false) : t.note op r = t.failed := by
  simp [note, failed, hr, hc, hb]

theorem note_returned {op : Op S} {r : Res op} (hr : op.raised r = false)
    (hc : op.commits r = false) (hb : op.rollsBack = false) : t.note op r = t := by
  simp [note, hr, hc, hb]

@[simp] theorem note_query_error (q : Query S) (e : Err) :
    t.note (.query q) (no_index (.error e)) = t.failed := note_failed t rfl rfl rfl

@[simp] theorem note_query_ok (q : Query S) (r : q.Result) :
    t.note (.query q) (no_index (.ok r)) = t := note_returned t rfl rfl rfl

@[simp] theorem note_write_error (ws : List (Write S)) (e : Err) :
    t.note (.write ws) (.error e) = t.failed := note_failed t rfl rfl rfl

@[simp] theorem note_write_ok (ws : List (Write S)) (u : Unit) :
    t.note (.write ws) (.ok u) = t := note_returned t rfl rfl rfl

@[simp] theorem note_commit_error (e : Err) : t.note (S := S) .commit (.error e) = t.failed :=
  note_failed t rfl rfl rfl

@[simp] theorem note_commit_ok (u : Unit) : t.note (S := S) .commit (.ok u) = t.committed := by
  simp [note, committed, Op.raised, Op.commits, Op.rollsBack]

@[simp] theorem note_rollback_error (e : Err) :
    t.note (S := S) .rollback (.error e) = { t.failed with rolledBack := true } := by
  simp [note, Op.raised, Op.commits, Op.rollsBack, failed]

@[simp] theorem note_rollback_ok (u : Unit) :
    t.note (S := S) .rollback (.ok u) = { t with rolledBack := true } := by
  simp [note, Op.raised, Op.commits, Op.rollsBack]

@[simp] theorem note_close (u : Unit) : t.note (S := S) .close u = t := note_returned t rfl rfl rfl
@[simp] theorem note_clock (now : Time) : t.note (S := S) .clock now = t :=
  note_returned t rfl rfl rfl
@[simp] theorem note_salt (n : Nat) : t.note (S := S) .salt n = t := note_returned t rfl rfl rfl

@[simp] theorem note_post (url : String) (body : List Char) (headers : List (String × String))
    (r : Except Err Nat) : t.note (S := S) (.post url body headers) r = t :=
  note_returned t rfl rfl rfl

@[simp] theorem note_aclose_error (e : Err) : t.note (S := S) .aclose (.error e) = t.failed :=
  note_failed t rfl rfl rfl

@[simp] theorem note_aclose_ok (u : Unit) : t.note (S := S) .aclose (.ok u) = t :=
  note_returned t rfl rfl rfl

@[simp] theorem note_enqueue_error (task : Task) (e : Err) :
    t.note (S := S) (.enqueue task) (.error e) = t.failed := note_failed t rfl rfl rfl

@[simp] theorem note_enqueue_ok (task : Task) (u : Unit) :
    t.note (S := S) (.enqueue task) (.ok u) = t := note_returned t rfl rfl rfl

end

@[simp] theorem committed_mk (r p q l : Bool) :
    (Flags.mk r p q l).committed = ⟨r, p || !r, q || r, l⟩ := rfl

@[simp] theorem failed_mk (r p q l : Bool) :
    (Flags.mk r p q l).failed = ⟨r, p, q, l || (p || q)⟩ := rfl

@[simp] theorem failed_start : start.failed = .start := rfl

end Flags

/-- What the endpoint of a webhook answered. -/
def Op.posted : (op : Op S) → Res op → List (Except Err Nat)
  | .post _ _ _, r => [r]
  | _, _ => []

def posts (cs : List (Call S)) : List (Except Err Nat) := cs.flatMap fun x => x.op.posted x.result

@[simp] theorem posts_nil : posts ([] : List (Call S)) = [] := rfl

@[simp] theorem posts_append (xs ys : List (Call S)) : posts (xs ++ ys) = posts xs ++ posts ys :=
  List.flatMap_append

/-- The failures of a session so far, and the answers to its POSTs. -/
structure Tally where
  flags : Flags
  posts : List (Except Err Nat)

namespace Tally

def start : Tally := ⟨.start, []⟩

def note (t : Tally) (op : Op S) (r : Res op) : Tally := ⟨t.flags.note op r, t.posts ++ op.posted r⟩

def ofCalls (cs : List (Call S)) : Tally :=
  ⟨⟨cs.any Call.rollsBack, persists cs, recordsFailure cs, failsAfterCommit cs⟩, AgentDesk.posts cs⟩

theorem foldl_note (cs : List (Call S)) (t : Tally) :
    cs.foldl (fun t x => t.note x.op x.result) t =
      ⟨cs.foldl (fun t x => t.note x.op x.result) t.flags, t.posts ++ AgentDesk.posts cs⟩ := by
  induction cs generalizing t with
  | nil => simp [AgentDesk.posts]
  | cons x cs ih =>
    rw [List.foldl_cons, ih]
    simp [note, AgentDesk.posts]

theorem foldl_note_start (cs : List (Call S)) :
    cs.foldl (fun t x => t.note x.op x.result) start = ofCalls cs := by
  rw [foldl_note, Flags.foldl_note]
  simp [start, Flags.start, ofCalls]

section

variable (flags : Flags) (ps : List (Except Err Nat))

@[simp] theorem note_post (url : String) (body : List Char) (headers : List (String × String))
    (r : Except Err Nat) :
    (Tally.mk flags ps).note (S := S) (.post url body headers) r = ⟨flags, ps ++ [r]⟩ := by
  simp [note, Op.posted]

@[simp] theorem note_query (q : Query S) (r : Except Err q.Result) :
    (Tally.mk flags ps).note (.query q) (no_index r) = ⟨flags.note (.query q) r, ps⟩ := by
  simp [note, Op.posted]

@[simp] theorem note_write (ws : List (Write S)) (r : Except Err Unit) :
    (Tally.mk flags ps).note (.write ws) r = ⟨flags.note (.write ws) r, ps⟩ := by
  simp [note, Op.posted]

@[simp] theorem note_commit (r : Except Err Unit) :
    (Tally.mk flags ps).note (S := S) .commit r = ⟨flags.note (S := S) .commit r, ps⟩ := by
  simp [note, Op.posted]

@[simp] theorem note_rollback (r : Except Err Unit) :
    (Tally.mk flags ps).note (S := S) .rollback r = ⟨flags.note (S := S) .rollback r, ps⟩ := by
  simp [note, Op.posted]

@[simp] theorem note_close (r : Unit) :
    (Tally.mk flags ps).note (S := S) .close r = ⟨flags, ps⟩ := by
  simp [note, Op.posted]

@[simp] theorem note_clock (now : Time) :
    (Tally.mk flags ps).note (S := S) .clock now = ⟨flags, ps⟩ := by
  simp [note, Op.posted]

@[simp] theorem note_salt (n : Nat) :
    (Tally.mk flags ps).note (S := S) .salt n = ⟨flags, ps⟩ := by
  simp [note, Op.posted]

@[simp] theorem note_aclose (r : Except Err Unit) :
    (Tally.mk flags ps).note (S := S) .aclose r = ⟨flags.note (S := S) .aclose r, ps⟩ := by
  simp [note, Op.posted]

@[simp] theorem note_enqueue (task : Task) (r : Except Err Unit) :
    (Tally.mk flags ps).note (S := S) (.enqueue task) r =
      ⟨flags.note (S := S) (.enqueue task) r, ps⟩ := by
  simp [note, Op.posted]

end

end Tally

@[simp] theorem Solo.closed_db {τ : Type} (note : τ → (op : Op S) → Res op → τ) (s : Solo S τ) :
    (s.closed note).db = s.db := rfl

@[simp] theorem Solo.closed_tx {τ : Type} (note : τ → (op : Op S) → Res op → τ) (s : Solo S τ) :
    (s.closed note).tx = none := rfl

@[simp] theorem Solo.closed_past {τ : Type} (note : τ → (op : Op S) → Res op → τ)
    (s : Solo S τ) : (s.closed note).past = s.past := rfl

@[simp] theorem Solo.closed_tally (s : Solo S Tally) : (s.closed Tally.note).tally = s.tally :=
  Tally.note_close s.tally.flags s.tally.posts ()

end AgentDesk
