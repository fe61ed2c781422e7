import Mathlib.Data.List.TakeWhile
import Mathlib.Data.Rat.Floor

namespace AgentDesk

/-- The characters that `str.isspace`, `str.strip` and the class `\s` of `re` treat as
white space. -/
def isSpace (c : Char) : Bool :=
  let n := c.toNat
  (9 ≤ n && n ≤ 13) || (28 ≤ n && n ≤ 32) || n == 0x85 || n == 0xa0 || n == 0x1680 ||
    (0x2000 ≤ n && n ≤ 0x200a) || n == 0x2028 || n == 0x2029 || n == 0x202f ||
    n == 0x205f || n == 0x3000

/-- `str.strip` without arguments. -/
def strip (s : String) : String :=
  String.ofList ((s.toList.dropWhile isSpace).reverse.dropWhile isSpace).reverse

/-- What `not s.strip()` tests. -/
def isBlank (s : String) : Bool := strip s == ""

theorem strip_eq_empty (s : String) : strip s = "" ↔ ∀ c ∈ s.toList, isSpace c = true := by
  have hlist : ∀ l : List Char, String.ofList l = "" ↔ l = [] := by
    intro l
    constructor
    · intro h
      have := congrArg String.toList h
      simpa using this
    · rintro rfl
      rfl
  rw [strip, hlist, List.reverse_eq_nil_iff, List.dropWhile_eq_nil_iff]
  constructor
  · intro h
    have hd : s.toList.dropWhile isSpace = [] := by
      by_contra hne
      have hhead := List.head_dropWhile_not isSpace hne
      have hin := h ((s.toList.dropWhile isSpace).head hne)
        (List.mem_reverse.mpr (List.head_mem hne))
      simp [hin] at hhead
    exact List.dropWhile_eq_nil_iff.mp hd
  · intro h c hc
    exact h c ((List.dropWhile_sublist isSpace).subset (List.mem_reverse.mp hc))

/-- The maximal runs of characters that satisfy `p`, in order; `run` holds the open run,
newest character first. -/
def runsFrom (p : Char → Bool) : List Char → List Char → List String
  | run, [] => if run.isEmpty then [] else [String.ofList run.reverse]
  | run, c :: cs =>
    if p c then runsFrom p (c :: run) cs
    else if run.isEmpty then runsFrom p [] cs
    else String.ofList run.reverse :: runsFrom p [] cs

/-- `re.findall` for a class of characters under `+`. -/
def runs (p : Char → Bool) (s : String) : List String := runsFrom p [] s.toList

theorem ofList_eq_empty {l : List Char} : String.ofList l = "" ↔ l = [] := by
  rw [← String.toList_inj, String.toList_ofList, String.toList_empty]

section

variable {p : Char → Bool}

theorem runsFrom_append {cs : List Char} (hcs : ∀ c ∈ cs, p c = true) (run rest : List Char) :
    runsFrom p run (cs ++ rest) = runsFrom p (cs.reverse ++ run) rest := by
  induction cs generalizing run with
  | nil => rfl
  | cons c cs ih =>
    rw [List.cons_append, runsFrom, if_pos (hcs c List.mem_cons_self),
      ih fun d hd => hcs d (List.mem_cons_of_mem c hd), List.reverse_cons, List.append_assoc]
    rfl

theorem ofList_run {run : List Char} (hrun : ∀ c ∈ run, p c = true) (hne : run.isEmpty = false) :
    String.ofList run.reverse ≠ "" ∧ ∀ c ∈ (String.ofList run.reverse).toList, p c = true := by
  constructor
  · rw [ne_eq, ofList_eq_empty, List.reverse_eq_nil_iff]
    rintro rfl
    cases hne
  · intro c hc
    rw [String.toList_ofList, List.mem_reverse] at hc
    exact hrun c hc

theorem mem_runsFrom {cs : List Char} (run : List Char) (hrun : ∀ c ∈ run, p c = true) :
    ∀ w ∈ runsFrom p run cs, w ≠ "" ∧ ∀ c ∈ w.toList, p c = true := by
  induction cs generalizing run with
  | nil =>
    intro w hw
    cases hne : run.isEmpty with
    | true => simp [runsFrom, hne] at hw
    | false =>
      obtain rfl : w = String.ofList run.reverse := by simpa [runsFrom, hne] using hw
      exact ofList_run hrun hne
  | cons c cs ih =>
    intro w hw
    rw [runsFrom] at hw
    cases hc : p c with
    | true =>
      rw [if_pos hc] at hw
      exact ih (c :: run) (by simpa [hc] using hrun) w hw
    | false =>
      rw [if_neg (by simp [hc])] at hw
      cases hne : run.isEmpty with
      | true => exact ih [] (by simp) w (by simpa [hne] using hw)
      | false =>
        rw [hne, if_neg Bool.false_ne_true, List.mem_cons] at hw
        obtain rfl | hw := hw
        · exact ofList_run hrun hne
        · exact ih [] (by simp) w hw

/-- Every run is a non-empty word of the class. -/
theorem mem_runs {s : String} : ∀ w ∈ runs p s, w ≠ "" ∧ ∀ c ∈ w.toList, p c = true :=
  mem_runsFrom [] (by simp)

theorem flatMap_runsFrom (run cs : List Char) :
    (runsFrom p run cs).flatMap String.toList = run.reverse ++ cs.filter p := by
  induction cs generalizing run with
  | nil =>
    cases run with
    | nil => rfl
    | cons c run => simp [runsFrom]
  | cons c cs ih =>
    rw [runsFrom]
    cases hc : p c with
    | true => rw [if_pos rfl, ih, List.filter_cons_of_pos hc, List.reverse_cons, List.append_assoc]; rfl
    | false =>
      rw [if_neg Bool.false_ne_true, List.filter_cons_of_neg (by simp [hc])]
      cases run with
      | nil => exact ih []
      | cons d run => simp [ih]

/-- The runs hold all characters of the class, in order. -/
theorem flatMap_runs (s : String) : (runs p s).flatMap String.toList = s.toList.filter p :=
  flatMap_runsFrom [] s.toList

/-- Words of the class that a character outside it separates are found again. -/
theorem runs_intercalate {sep : String} {c : Char} (hsep : sep.toList = [c]) (hc : p c = false)
    {ws : List String} (hws : ∀ w ∈ ws, w ≠ "" ∧ ∀ d ∈ w.toList, p d = true) :
    runs p (sep.intercalate ws) = ws := by
  have hopen : ∀ w : String, w ≠ "" → w.toList.reverse.isEmpty = false := by
    intro w hne
    rw [List.isEmpty_reverse, List.isEmpty_eq_false_iff]
    intro hw
    exact hne (String.toList_inj.mp (by rw [hw, String.toList_empty]))
  induction ws with
  | nil => rfl
  | cons w ws ih =>
    obtain ⟨hne, hw⟩ := hws w List.mem_cons_self
    have hws' := fun v hv => hws v (List.mem_cons_of_mem w hv)
    have hrun := hopen w hne
    cases ws with
    | nil =>
      rw [String.intercalate_singleton, runs, ← List.append_nil w.toList, runsFrom_append hw,
        List.append_nil, runsFrom, hrun]
      simp
    | cons v ws =>
      rw [String.intercalate_cons_cons, runs, String.toList_append, String.toList_append, hsep,
        List.append_assoc, runsFrom_append hw, List.append_nil, List.singleton_append, runsFrom,
        hc, if_neg Bool.false_ne_true, hrun, if_neg Bool.false_ne_true, List.reverse_reverse,
        String.ofList_toList]
      exact congrArg (w :: ·) (ih hws')

end

/-- The class `[a-z0-9]`. -/
def isWordChar (c : Char) : Bool :=
  let n := c.toNat
  (97 ≤ n && n ≤ 122) || (48 ≤ n && n ≤ 57)

/-- The nearest integer, half to even. -/
def halfEven {S : Type} [Field S] [LinearOrder S] [FloorRing S] (y : S) : ℤ :=
  let f := ⌊y⌋
  let d := y - (f : S)
  if d < 1 / 2 then f else if 1 / 2 < d then f + 1 else if f % 2 = 0 then f else f + 1

/-- `round(x, n)`, on the exact value. -/
def roundTo {S : Type} [Field S] [LinearOrder S] [FloorRing S] (n : Nat) (x : S) : ℚ :=
  (halfEven (x * 10 ^ n) : ℚ) / 10 ^ n

/-- The interpreter, the database server and the libraries, as far as the program relies
on them without showing how they work. -/
structure Platform where
  /-- `str.lower`. -/
  lower : String → String
  /-- SQL `lower()`. -/
  sqlLower : String → String
  /-- `CryptContext.hash` with its random salt. -/
  hashPassword : String → Nat → String
  verifyPassword : String → String → Bool
  /-- The hexadecimal HMAC-SHA256 of a body under a secret. -/
  hmacSha256 : String → String → String
  /-- The first eight bytes of the SHA-256 digest, as a big-endian number. -/
  sha256Word : String → Nat
  /-- `datetime.isoformat`. -/
  isoformat : Nat → String

/-- `_WORD_RE.findall(text.lower())`. -/
def tokens (P : Platform) (text : String) : List String := runs isWordChar (P.lower text)

end AgentDesk
