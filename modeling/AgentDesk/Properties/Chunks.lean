import AgentDesk.Framework.Windows
import AgentDesk.Services.Documents

namespace AgentDesk

open Framework (Slides)

/-- The maximal runs of characters that are not white space. -/
def words (text : String) : List String := runs (fun c => !isSpace c) text

theorem words_join {ws : List String} (h : ∀ w ∈ ws, w ≠ "" ∧ ∀ c ∈ w.toList, (!isSpace c) = true) :
    words (" ".intercalate ws) = ws :=
  runs_intercalate (show " ".toList = [' '] by rfl) (by decide) h

/-- What the chunks of a text hold, as lists of words: one chunk after another starts `step`
words later, and they cover the text without a gap or a chunk too many. -/
structure Chunked (text : String) (size overlap : Nat) (chunks : List (List String)) : Prop where
  nil_iff : chunks = [] ↔ words text = []
  bounds : ∀ chunk ∈ chunks, 1 ≤ chunk.length ∧ chunk.length ≤ size
  full : ∀ chunk ∈ chunks.dropLast, chunk.length = size
  starts : ∀ k chunk, chunks[k]? = some chunk →
    chunk = ((words text).drop (k * max 1 (size - overlap))).take chunk.length
  cover : chunks.headD [] ++ chunks.tail.flatMap (List.drop (size - max 1 (size - overlap))) =
    words text
  fresh : ∀ chunk ∈ chunks.tail, size - max 1 (size - overlap) < chunk.length

/-- From an index within the text on, the loop makes the windows of what is left. -/
theorem windows_slides (ws : List String) {size step : Nat} (hsize : 1 ≤ size) (hstep : step ≤ size)
    (count k : Nat) (hk : k * step < ws.length) (hcount : ws.length ≤ (k + count) * step) :
    ∃ chunks, Slides size step (ws.drop (k * step)) chunks ∧
      DocumentService.windows ws size ((List.range' k count).map (· * step)) =
        chunks.map (" ".intercalate ·) := by
  induction count generalizing k with
  | zero =>
    rw [Nat.add_zero] at hcount
    omega
  | succ count ih =>
    have hlen : (ws.drop (k * step)).length = ws.length - k * step := List.length_drop
    have hne : ((ws.drop (k * step)).take size).isEmpty = false := by
      rw [List.isEmpty_eq_false_iff, ← List.length_pos_iff, List.length_take]
      omega
    rw [List.range'_succ, List.map_cons, DocumentService.windows, hne]
    by_cases hend : ws.length ≤ k * step + size
    · refine ⟨[ws.drop (k * step)], .last ?_ (by omega), ?_⟩
      · rw [← List.length_pos_iff]
        omega
      · rw [if_pos hend, List.take_of_length_le (by omega)]
        rfl
    · have hnext : (k + 1) * step = k * step + step := Nat.succ_mul k step
      obtain ⟨chunks, hslides, hwindows⟩ := ih (k + 1) (by omega)
        (by rwa [show k + 1 + count = k + (count + 1) by omega])
      refine ⟨(ws.drop (k * step)).take size :: chunks, .more (by omega) ?_, ?_⟩
      · rwa [List.drop_drop, ← hnext]
      · rw [if_neg hend, hwindows]
        rfl

theorem chunkText_slides (text : String) (overlap : Nat) {size : Nat} (hsize : 1 ≤ size)
    (hne : words text ≠ []) :
    ∃ chunks, Slides size (max 1 (size - overlap)) (words text) chunks ∧
      DocumentService.chunkText text size overlap = chunks.map (" ".intercalate ·) := by
  have hlen := List.length_pos_iff.mpr hne
  have hempty : (words text).isEmpty = false := List.isEmpty_eq_false_iff.mpr hne
  have hstep : max 1 (size - overlap) ≤ size := by omega
  have hpos : 0 < max 1 (size - overlap) := by omega
  obtain ⟨chunks, hslides, hwindows⟩ := windows_slides (words text) hsize hstep
    (((words text).length + max 1 (size - overlap) - 1) / max 1 (size - overlap)) 0 (by omega) (by
      rw [Nat.zero_add]
      have := Nat.lt_div_mul_add (a := (words text).length + max 1 (size - overlap) - 1) hpos
      omega)
  rw [Nat.zero_mul, List.drop_zero] at hslides
  rw [← List.range_eq_range'] at hwindows
  refine ⟨chunks, hslides, ?_⟩
  rw [← hwindows, DocumentService.chunkText]
  exact if_neg (by rw [← words, hempty]; exact Bool.false_ne_true)

theorem chunkText_chunked (text : String) (size overlap : Nat) (hsize : 1 ≤ size) :
    Chunked text size overlap ((DocumentService.chunkText text size overlap).map words) := by
  have hstep : max 1 (size - overlap) ≤ size := by omega
  by_cases hne : words text = []
  · have hchunks : DocumentService.chunkText text size overlap = [] := by
      rw [DocumentService.chunkText]
      exact if_pos (by rw [← words, hne]; rfl)
    rw [hchunks]
    exact ⟨by simp [hne], by simp, by simp, by simp, by simp [hne], by simp⟩
  · obtain ⟨chunks, hslides, hchunks⟩ := chunkText_slides text overlap hsize hne
    have hwords : (DocumentService.chunkText text size overlap).map words = chunks := by
      rw [hchunks, List.map_map]
      refine (List.map_congr_left fun chunk hchunk => words_join fun w hw => ?_).trans
        (List.map_id chunks)
      obtain ⟨k, hk⟩ := List.getElem?_of_mem hchunk
      rw [hslides.window_eq k chunk hk] at hw
      exact mem_runs w (List.mem_of_mem_drop (List.mem_of_mem_take hw))
    rw [hwords]
    refine ⟨⟨fun h => ?_, fun h => absurd h hne⟩, hslides.bounds hsize, hslides.full,
      fun k chunk hk => ?_, hslides.cover hstep, hslides.fresh (by omega) hstep⟩
    · obtain ⟨rest, hrest⟩ := hslides.head_eq
      rw [h] at hrest
      cases hrest
    · have hchunk := hslides.window_eq k chunk hk
      have hlen := congrArg List.length hchunk
      rw [hlen, List.length_take, ← List.take_eq_take_min]
      exact hchunk

/-- Three words are cut into chunks of two that share a word. -/
theorem threeWords_chunked : Chunked "reset the password" 2 1
    ((DocumentService.chunkText "reset the password" 2 1).map words) :=
  chunkText_chunked "reset the password" 2 1 (by decide)

end AgentDesk
