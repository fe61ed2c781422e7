import AgentDesk.Properties.Grounding

namespace AgentDesk

variable {P : Platform}

/-! Words of a text that is put together -/

/-- The text with a blank for every character that is no word character. -/
def blurred (s : String) : List Char := s.toList.map fun c => if isWordChar c then c else ' '

/-- `str.lower` maps the characters one by one, up to which character stands outside a word (that
of a final sigma is the only one that depends on its neighbours), and it leaves white space alone. -/
structure Platform.LowersEach (P : Platform) : Prop where
  each : ∀ s, blurred (P.lower s) = s.toList.flatMap fun c => blurred (P.lower (String.singleton c))
  space : ∀ c, isSpace c = true → P.lower (String.singleton c) = String.singleton c

theorem Platform.plain_lowersEach : Platform.plain.LowersEach := by
  refine ⟨fun s => ?_, fun _ _ => rfl⟩
  change s.toList.map _ = s.toList.flatMap fun c => (String.singleton c).toList.map _
  simp only [String.toList_singleton, List.map_cons, List.map_nil]
  induction s.toList with
  | nil => rfl
  | cons c l ih => rw [List.map_cons, ih, List.flatMap_cons, List.singleton_append]

theorem runsFrom_blur (l run : List Char) : runsFrom isWordChar run l =
    runsFrom isWordChar run (l.map fun c => if isWordChar c then c else ' ') := by
  have hblank : isWordChar ' ' = false := by decide
  induction l generalizing run with
  | nil => rfl
  | cons c l ih =>
    rw [List.map_cons, runsFrom, runsFrom]
    cases hc : isWordChar c with
    | true =>
      rw [if_pos rfl, if_pos rfl, if_pos hc]
      exact ih (c :: run)
    | false =>
      rw [if_neg Bool.false_ne_true, if_neg Bool.false_ne_true, hblank,
        if_neg Bool.false_ne_true, ih []]

theorem runsFrom_gap {x : Char} (hx : isWordChar x = false) (l r run : List Char) :
    runsFrom isWordChar run (l ++ x :: r) =
      runsFrom isWordChar run l ++ runsFrom isWordChar [] r := by
  induction l generalizing run with
  | nil =>
    cases hrun : run.isEmpty <;> simp [runsFrom, hx, hrun]
  | cons c l ih =>
    rw [List.cons_append, runsFrom, runsFrom]
    split
    · exact ih (c :: run)
    · split
      · exact ih []
      · rw [ih [], List.cons_append]

theorem not_word_of_space {c : Char} (h : isSpace c = true) : isWordChar c = false := by
  simp only [isSpace, Bool.or_eq_true, Bool.and_eq_true, decide_eq_true_eq, beq_iff_eq] at h
  rw [isWordChar, Bool.eq_false_iff]
  simp only [ne_eq, Bool.or_eq_true, Bool.and_eq_true, decide_eq_true_eq]
  omega

/-- What `tokens` sees of a text. -/
def lowered (P : Platform) (l : List Char) : List Char :=
  l.flatMap fun c => blurred (P.lower (String.singleton c))

/-- The words of a text that is given by its characters. -/
def wordsOf (P : Platform) (l : List Char) : List String := runsFrom isWordChar [] (lowered P l)

theorem tokens_eq (h : P.LowersEach) (s : String) : tokens P s = wordsOf P s.toList := by
  rw [tokens, runs, runsFrom_blur]
  exact congrArg (runsFrom isWordChar []) (h.each s)

theorem lowered_space (h : P.LowersEach) {c : Char} (hc : isSpace c = true) (l : List Char) :
    lowered P (c :: l) = ' ' :: lowered P l := by
  rw [lowered, List.flatMap_cons, h.space c hc, blurred, String.toList_singleton, List.map_cons,
    not_word_of_space hc]
  rfl

/-- White space ends a word. -/
theorem wordsOf_space (h : P.LowersEach) {c : Char} (hc : isSpace c = true) (l r : List Char) :
    wordsOf P (l ++ c :: r) = wordsOf P l ++ wordsOf P r := by
  have hsplit : lowered P (l ++ c :: r) = lowered P l ++ lowered P (c :: r) := List.flatMap_append
  rw [wordsOf, hsplit, lowered_space h hc]
  exact runsFrom_gap (by decide) _ _ _

theorem wordsOf_nil : wordsOf P [] = [] := rfl

theorem wordsOf_spaces (h : P.LowersEach) {l : List Char} (hl : ∀ c ∈ l, isSpace c = true)
    (r : List Char) : wordsOf P (l ++ r) = wordsOf P r := by
  induction l with
  | nil => rfl
  | cons c l ih =>
    have hfirst := wordsOf_space h (hl c List.mem_cons_self) [] (l ++ r)
    rw [List.cons_append]
    rw [List.nil_append, wordsOf_nil, List.nil_append] at hfirst
    rw [hfirst, ih fun d hd => hl d (List.mem_cons_of_mem c hd)]

theorem wordsOf_gap (h : P.LowersEach) {sep : List Char} (hne : sep ≠ [])
    (hsep : ∀ c ∈ sep, isSpace c = true) (l r : List Char) :
    wordsOf P (l ++ sep ++ r) = wordsOf P l ++ wordsOf P r := by
  cases sep with
  | nil => exact absurd rfl hne
  | cons c sep =>
    rw [List.append_assoc, List.cons_append, wordsOf_space h (hsep c List.mem_cons_self),
      wordsOf_spaces h fun d hd => hsep d (List.mem_cons_of_mem c hd)]

theorem wordsOf_trimStart (h : P.LowersEach) (l : List Char) :
    wordsOf P (trimStart l) = wordsOf P l := by
  have hsplit : l = l.takeWhile isSpace ++ trimStart l := List.takeWhile_append_dropWhile.symm
  have hspaces : ∀ c ∈ l.takeWhile isSpace, isSpace c = true := fun c hc => List.mem_takeWhile_imp hc
  calc wordsOf P (trimStart l) = wordsOf P (l.takeWhile isSpace ++ trimStart l) :=
        (wordsOf_spaces h hspaces _).symm
    _ = wordsOf P l := by rw [← hsplit]

theorem wordsOf_trimEnd (h : P.LowersEach) (l : List Char) :
    wordsOf P (trimEnd l) = wordsOf P l := by
  have hsplit : l = trimEnd l ++ (l.reverse.takeWhile isSpace).reverse := by
    rw [trimEnd, ← List.reverse_append, List.takeWhile_append_dropWhile, List.reverse_reverse]
  have hspaces : ∀ c ∈ (l.reverse.takeWhile isSpace).reverse, isSpace c = true := fun c hc =>
    List.mem_takeWhile_imp (List.mem_reverse.mp hc)
  by_cases hnil : (l.reverse.takeWhile isSpace).reverse = []
  · rw [hnil, List.append_nil] at hsplit
    rw [← hsplit]
  · have hgap := wordsOf_gap h hnil hspaces (trimEnd l) []
    rw [List.append_nil, wordsOf_nil, List.append_nil, ← hsplit] at hgap
    exact hgap.symm

/-- Dropping the outer white space drops no word. -/
theorem tokens_strip (h : P.LowersEach) (s : String) : tokens P (strip s) = tokens P s := by
  rw [tokens_eq h, tokens_eq h, toList_strip, wordsOf_trimEnd h, wordsOf_trimStart h]

theorem tokens_gap (h : P.LowersEach) {sep : String} (hne : sep.toList ≠ [])
    (hsep : ∀ c ∈ sep.toList, isSpace c = true) (a b : String) :
    tokens P (a ++ sep ++ b) = tokens P a ++ tokens P b := by
  rw [tokens_eq h, tokens_eq h, tokens_eq h, String.toList_append, String.toList_append]
  exact wordsOf_gap h hne hsep a.toList b.toList

/-- The words of passages that white space separates are the words of the passages. -/
theorem tokens_intercalate (h : P.LowersEach) {sep : String} (hne : sep.toList ≠ [])
    (hsep : ∀ c ∈ sep.toList, isSpace c = true) (parts : List String) :
    tokens P (sep.intercalate parts) = parts.flatMap (tokens P) := by
  induction parts with
  | nil =>
    rw [String.intercalate_nil, tokens_eq h]
    rfl
  | cons part parts ih =>
    by_cases hnil : parts = []
    · subst hnil
      rw [String.intercalate_singleton, List.flatMap_singleton]
    · rw [String.intercalate_cons_of_ne_nil hnil, tokens_gap h hne hsep, ih, List.flatMap_cons]

/-! Texts that neither begin nor end with white space -/

/-- `strip` leaves it alone. -/
structure Tight (s : String) : Prop where
  first : ∃ c l, s.toList = c :: l ∧ isSpace c = false
  last : ∃ l c, s.toList = l ++ [c] ∧ isSpace c = false

theorem strip_tight {s : String} (h : Tight s) : strip s = s := by
  obtain ⟨c, l, hfirst, hc⟩ := h.first
  obtain ⟨r, d, hlast, hd⟩ := h.last
  rw [← String.toList_inj, toList_strip]
  have hstart : trimStart s.toList = s.toList := by
    rw [hfirst, trimStart, List.dropWhile_cons_of_neg (by simp [hc])]
  rw [hstart, hlast, trimEnd, List.reverse_append, List.reverse_singleton, List.singleton_append,
    List.dropWhile_cons_of_neg (by simp [hd]), List.reverse_cons, List.reverse_reverse]

theorem Tight.append {a b : String} (ha : Tight a) (hb : Tight b) (sep : String) :
    Tight (a ++ sep ++ b) := by
  obtain ⟨c, l, hfirst, hc⟩ := ha.first
  obtain ⟨r, d, hlast, hd⟩ := hb.last
  refine ⟨⟨c, l ++ sep.toList ++ b.toList, ?_, hc⟩, ⟨a.toList ++ sep.toList ++ r, d, ?_, hd⟩⟩
  · rw [String.toList_append, String.toList_append, hfirst]
    rfl
  · rw [String.toList_append, String.toList_append, hlast, List.append_assoc _ r]

theorem tight_intercalate (sep : String) {parts : List String} (hne : parts ≠ [])
    (h : ∀ part ∈ parts, Tight part) : Tight (sep.intercalate parts) := by
  induction parts with
  | nil => exact absurd rfl hne
  | cons part parts ih =>
    have hpart := h part List.mem_cons_self
    by_cases hnil : parts = []
    · subst hnil
      rwa [String.intercalate_singleton]
    · have hrest := ih hnil fun p hp => h p (List.mem_cons_of_mem part hp)
      rw [String.intercalate_cons_of_ne_nil hnil]
      exact hpart.append hrest sep

theorem tight_word {w : String} (hne : w ≠ "") (h : ∀ c ∈ w.toList, isSpace c = false) :
    Tight w := by
  have hlist : w.toList ≠ [] := by
    intro hnil
    exact hne (String.toList_inj.mp (by rw [hnil, String.toList_empty]))
  obtain ⟨c, l, hfirst⟩ := List.exists_cons_of_ne_nil hlist
  obtain ⟨r, d, hlast⟩ := List.eq_nil_or_concat w.toList |>.resolve_left hlist
  refine ⟨⟨c, l, hfirst, h c ?_⟩, ⟨r, d, by rw [hlast, List.concat_eq_append], h d ?_⟩⟩
  · rw [hfirst]
    exact List.mem_cons_self
  · rw [hlast, List.concat_eq_append]
    exact List.mem_append_right r (List.mem_singleton_self d)

end AgentDesk
