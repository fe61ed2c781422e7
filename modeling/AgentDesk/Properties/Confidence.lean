import AgentDesk.Logic.Rounding
import AgentDesk.Logic.Scoring
import AgentDesk.Logic.Similarity
import AgentDesk.Properties.Search
import Mathlib.Analysis.Real.Sqrt

namespace AgentDesk

open Framework (Program Top)
open RetrievalService (RetrievedChunk cosine search)

variable {S : Type} {cfg : Config S} {P : Platform}

namespace Agent

/-! What the critic computes -/

/-- The words of the retrieved passages. -/
def contextTokens (P : Platform) (state : AgentState) : List String :=
  (tokens P (" ".intercalate ((state.retrieved.getD []).map RetrievedRef.content))).dedup

/-- The words of the reply. -/
def replyTokens (P : Platform) (state : AgentState) : List String :=
  tokens P (state.draft.getD "")

/-- The share of the passages' words that the reply uses. -/
def overlap (P : Platform) (state : AgentState) : ℚ :=
  if (contextTokens P state).isEmpty then 0
  else ((contextTokens P state).filter ((replyTokens P state).contains ·)).length /
    (contextTokens P state).length

def topScore : List RetrievedRef → ℚ
  | [] => 0
  | r :: rs => (rs.map RetrievedRef.score).foldl max r.score

theorem criticNode_eq (P : Platform) (state : AgentState) :
    (criticNode P state).confidence = some (if (state.retrieved.getD []).isEmpty then 0
      else min 1 (roundTo 6 (1 / 2 * topScore (state.retrieved.getD []) +
        1 / 2 * overlap P state))) := by
  unfold criticNode overlap contextTokens replyTokens
  cases h : state.retrieved.getD [] with
  | nil => rfl
  | cons r rs => simp only [List.isEmpty_cons, Bool.false_eq_true, if_false, topScore]

/-- The critic leaves what it judges alone. -/
theorem criticNode_inputs (P : Platform) (state : AgentState) :
    (criticNode P state).retrieved = state.retrieved ∧ (criticNode P state).draft = state.draft := by
  unfold criticNode
  split <;> exact ⟨rfl, rfl⟩

theorem overlap_congr {state state' : AgentState} (hretrieved : state'.retrieved = state.retrieved)
    (hdraft : state'.draft = state.draft) : overlap P state' = overlap P state := by
  unfold overlap contextTokens replyTokens
  rw [hretrieved, hdraft]

theorem overlap_nonneg (P : Platform) (state : AgentState) : 0 ≤ overlap P state := by
  unfold overlap
  split
  · exact le_rfl
  · positivity

theorem overlap_le_one (P : Platform) (state : AgentState) : overlap P state ≤ 1 := by
  unfold overlap
  split
  · exact zero_le_one
  · refine div_le_one_of_le₀ ?_ (by positivity)
    exact_mod_cast List.length_filter_le _ _

theorem overlap_disjoint {state : AgentState}
    (h : ∀ tok ∈ contextTokens P state, tok ∉ replyTokens P state) : overlap P state = 0 := by
  unfold overlap
  split
  · rfl
  · have hnone : (contextTokens P state).filter ((replyTokens P state).contains ·) = [] := by
      refine List.filter_eq_nil_iff.mpr fun tok htok => ?_
      simpa using h tok htok
    rw [hnone, List.length_nil, Nat.cast_zero, zero_div]

/-- More words in the reply do not lower its share. -/
theorem overlap_mono {state state' : AgentState} (hsame : state'.retrieved = state.retrieved)
    (h : ∀ tok ∈ replyTokens P state, tok ∈ replyTokens P state') :
    overlap P state ≤ overlap P state' := by
  have hcontext : contextTokens P state' = contextTokens P state := by
    rw [contextTokens, contextTokens, hsame]
  unfold overlap
  rw [hcontext]
  split
  · exact le_rfl
  · refine div_le_div_of_nonneg_right ?_ (by positivity)
    rw [← List.countP_eq_length_filter, ← List.countP_eq_length_filter]
    have hcount := List.countP_mono_left (l := contextTokens P state)
      (p := ((replyTokens P state).contains ·)) (q := ((replyTokens P state').contains ·))
      fun tok _ htok => by simpa using h tok (by simpa using htok)
    exact_mod_cast hcount

end Agent

/-! The scores of the passages -/

section

variable {T : Type} [LinearOrder T]

theorem le_foldl_max (l : List T) (a : T) : a ≤ l.foldl max a := by
  induction l generalizing a with
  | nil => exact le_rfl
  | cons x l ih => exact (le_max_left a x).trans (ih (max a x))

theorem foldl_max_le {l : List T} {a b : T} (ha : a ≤ b) (h : ∀ x ∈ l, x ≤ b) :
    l.foldl max a ≤ b := by
  induction l generalizing a with
  | nil => exact ha
  | cons x l ih =>
    exact ih (max_le ha (h x List.mem_cons_self)) fun y hy => h y (List.mem_cons_of_mem x hy)

theorem foldl_max_map {T' : Type} [LinearOrder T'] {f : T → T'} (hf : Monotone f) (l : List T)
    (a : T) : (l.map f).foldl max (f a) = f (l.foldl max a) := by
  induction l generalizing a with
  | nil => rfl
  | cons x l ih =>
    rw [List.map_cons, List.foldl_cons, List.foldl_cons, ← hf.map_max]
    exact ih (max a x)

end

section

variable [Field S] [LinearOrder S]

/-- The highest true cosine of the hits. -/
def trueTop (cfg : Config S) (queryVec : List S) : List (RetrievedChunk S) → S
  | [] => 0
  | h :: hs => (hs.map fun h => cosine cfg queryVec h.chunk.embedding).foldl max
      (cosine cfg queryVec h.chunk.embedding)

/-- The score of the reply without any rounding. -/
def trueScore (cfg : Config S) (queryVec : List S) (hits : List (RetrievedChunk S)) (overlap : ℚ) :
    S :=
  if hits.isEmpty then 0 else ((1 / 2 : ℚ) : S) * trueTop cfg queryVec hits + ((1 / 2 * overlap : ℚ) : S)

/-- What a search of the organization's knowledge base may return. -/
structure Passages (cfg : Config S) (organizationId : Uuid) (queryVec : List S)
    (chunks : List (DocumentChunk S)) (hits : List (RetrievedChunk S)) : Prop where
  own : ∀ h ∈ hits, h.chunk ∈ chunks ∧ h.chunk.organizationId = organizationId
  score : ∀ h ∈ hits, h.score = some (cosine cfg queryVec h.chunk.embedding)
  reach : ∀ h ∈ hits,
    ((cfg.settings.similarityThreshold : ℚ) : S) ≤ cosine cfg queryVec h.chunk.embedding

variable [FloorRing S]

/-- A hit as the retriever hands it on. -/
def refOf (h : RetrievedChunk S) : RetrievedRef :=
  ⟨h.chunk.id.str, h.chunk.documentId.str, h.chunk.content, roundTo 6 (h.score.getD 0)⟩

/-- What the workflow makes of the passages that were found. -/
structure Graded (cfg : Config S) (hits : List (RetrievedChunk S)) (state : AgentState) :
    Prop where
  retrieved : state.retrieved = some (hits.map refOf)
  confidence : state.confidence = some (if hits.isEmpty then 0
    else min 1 (roundTo 6 (1 / 2 * Agent.topScore (hits.map refOf) +
      1 / 2 * Agent.overlap cfg.platform state)))
  outcome : ∀ q, state.confidence = some q → state.outcome =
    some (if cfg.settings.confidenceThreshold ≤ q then "waiting_approval" else "escalated")

theorem graded_of_critic {hits : List (RetrievedChunk S)} {state : AgentState}
    (h : state.retrieved = some (hits.map refOf)) :
    Graded cfg hits (Agent.decisionNode cfg (Agent.criticNode cfg.platform state)) := by
  obtain ⟨hretrieved, hdraft⟩ := Agent.criticNode_inputs cfg.platform state
  have hoverlap : Agent.overlap cfg.platform
      (Agent.decisionNode cfg (Agent.criticNode cfg.platform state)) =
        Agent.overlap cfg.platform state :=
    Agent.overlap_congr (hretrieved : _ = _) (hdraft : _ = _)
  have hconfidence := Agent.criticNode_eq cfg.platform state
  rw [h] at hconfidence
  refine ⟨hretrieved.trans h, ?_, ?_⟩
  · rw [hoverlap]
    refine hconfidence.trans ?_
    rw [Option.getD_some, List.isEmpty_map]
  · intro q hq
    have hq' : (Agent.criticNode cfg.platform state).confidence = some q := hq
    rw [decisionNode_outcome, hq', Option.getD_some]

end

/-! What the score is -/

section

variable [Field S] [LinearOrder S] [IsStrictOrderedRing S] {organizationId : Uuid}
  {queryVec : List S} {chunks : List (DocumentChunk S)} {hits : List (RetrievedChunk S)}

theorem Passages.trueTop_nonneg (h : Passages cfg organizationId queryVec chunks hits)
    (hthreshold : 0 ≤ cfg.settings.similarityThreshold) : 0 ≤ trueTop cfg queryVec hits := by
  cases hits with
  | nil => exact le_rfl
  | cons x hits =>
    have hcast : (0 : S) ≤ ((cfg.settings.similarityThreshold : ℚ) : S) := by
      exact_mod_cast hthreshold
    calc (0 : S) ≤ cosine cfg queryVec x.chunk.embedding :=
          hcast.trans (h.reach x List.mem_cons_self)
      _ ≤ trueTop cfg queryVec (x :: hits) := le_foldl_max _ _

theorem trueTop_le_one (hsqrt : cfg.SquareRoots) (queryVec : List S)
    (hits : List (RetrievedChunk S)) : trueTop cfg queryVec hits ≤ 1 := by
  cases hits with
  | nil => exact zero_le_one
  | cons x hits =>
    refine foldl_max_le (RetrievalService.cosine_le_one hsqrt _ _) fun s hs => ?_
    obtain ⟨y, -, rfl⟩ := List.mem_map.mp hs
    exact RetrievalService.cosine_le_one hsqrt _ _

variable [FloorRing S]

theorem Passages.topScore_eq (h : Passages cfg organizationId queryVec chunks hits) :
    Agent.topScore (hits.map refOf) = roundTo 6 (trueTop cfg queryVec hits) := by
  have hzero : roundTo 6 (0 : S) = 0 := by exact_mod_cast roundTo_intCast (S := S) 6 0
  cases hits with
  | nil => exact hzero.symm
  | cons x hits =>
    have hscore : ∀ y ∈ x :: hits,
        (refOf y).score = roundTo 6 (cosine cfg queryVec y.chunk.embedding) := by
      intro y hy
      rw [refOf, h.score y hy, Option.getD_some]
    have hrest : (hits.map refOf).map RetrievedRef.score =
        (hits.map fun y => cosine cfg queryVec y.chunk.embedding).map (roundTo 6) := by
      rw [List.map_map, List.map_map]
      exact List.map_congr_left fun y hy => hscore y (List.mem_cons_of_mem x hy)
    rw [List.map_cons, Agent.topScore, hrest, hscore x List.mem_cons_self]
    exact foldl_max_map (fun a b hab => roundTo_mono 6 hab) _ _

/-- The score before it is rounded to six places, from a top score that already is. -/
def criticScore (cfg : Config S) (queryVec : List S) (hits : List (RetrievedChunk S))
    (overlap : ℚ) : ℚ :=
  if hits.isEmpty then 0 else 1 / 2 * roundTo 6 (trueTop cfg queryVec hits) + 1 / 2 * overlap

omit [IsStrictOrderedRing S] in
theorem criticScore_mono (queryVec : List S) (hits : List (RetrievedChunk S)) {o o' : ℚ}
    (h : o ≤ o') : criticScore cfg queryVec hits o ≤ criticScore cfg queryVec hits o' := by
  unfold criticScore
  split
  · exact le_rfl
  · linarith

theorem Passages.criticScore_bounds (h : Passages cfg organizationId queryVec chunks hits)
    (hsqrt : cfg.SquareRoots) (hthreshold : 0 ≤ cfg.settings.similarityThreshold) {o : ℚ}
    (ho : 0 ≤ o) : 0 ≤ criticScore cfg queryVec hits o ∧
      criticScore cfg queryVec hits o ≤ 1 / 2 + 1 / 2 * o := by
  have hlow : roundTo 6 ((0 : ℤ) : S) ≤ roundTo 6 (trueTop cfg queryVec hits) :=
    roundTo_mono 6 (by exact_mod_cast h.trueTop_nonneg hthreshold)
  have hhigh : roundTo 6 (trueTop cfg queryVec hits) ≤ roundTo 6 ((1 : ℤ) : S) :=
    roundTo_mono 6 (by exact_mod_cast trueTop_le_one hsqrt queryVec hits)
  rw [roundTo_intCast, Int.cast_zero] at hlow
  rw [roundTo_intCast, Int.cast_one] at hhigh
  unfold criticScore
  split
  · exact ⟨le_rfl, by linarith⟩
  · exact ⟨by linarith, by linarith⟩

/-- The two roundings move the score by three quarters of a unit of the last place at most. -/
theorem criticScore_near (cfg : Config S) (queryVec : List S) (hits : List (RetrievedChunk S))
    (o : ℚ) :
    |((roundTo 6 (criticScore cfg queryVec hits o) : ℚ) : S) - trueScore cfg queryVec hits o| ≤
      3 / 4 / 10 ^ 6 := by
  have houter : |((roundTo 6 (criticScore cfg queryVec hits o) : ℚ) : S) -
      (criticScore cfg queryVec hits o : S)| ≤ 1 / 2 / 10 ^ 6 := by
    have hq := roundTo_near 6 (criticScore cfg queryVec hits o)
    rw [Rat.cast_id] at hq
    have hcast : ((|roundTo 6 (criticScore cfg queryVec hits o) -
        criticScore cfg queryVec hits o| : ℚ) : S) ≤ ((1 / 2 / 10 ^ 6 : ℚ) : S) :=
      Rat.cast_le.mpr hq
    rw [Rat.cast_abs, Rat.cast_sub] at hcast
    refine hcast.trans_eq ?_
    push_cast
    rfl
  have hinner : |(criticScore cfg queryVec hits o : S) - trueScore cfg queryVec hits o| ≤
      1 / 4 / 10 ^ 6 := by
    unfold criticScore trueScore
    split
    · rw [Rat.cast_zero, sub_zero, abs_zero]
      positivity
    · have htop := abs_le.mp (roundTo_near 6 (trueTop cfg queryVec hits))
      push_cast
      rw [abs_le]
      constructor <;> linarith
  have hsum := abs_sub_le ((roundTo 6 (criticScore cfg queryVec hits o) : ℚ) : S)
    (criticScore cfg queryVec hits o : S) (trueScore cfg queryVec hits o)
  calc _ ≤ _ := hsum
    _ ≤ 1 / 2 / 10 ^ 6 + 1 / 4 / 10 ^ 6 := add_le_add houter hinner
    _ = 3 / 4 / 10 ^ 6 := by ring

theorem Graded.confidence_eq {state : AgentState} (h : Graded cfg hits state)
    (hpassages : Passages cfg organizationId queryVec chunks hits) (hsqrt : cfg.SquareRoots)
    (hthreshold : 0 ≤ cfg.settings.similarityThreshold) :
    state.confidence =
      some (roundTo 6 (criticScore cfg queryVec hits (Agent.overlap cfg.platform state))) := by
  have hzero : roundTo 6 (0 : ℚ) = 0 := by exact_mod_cast roundTo_intCast (S := ℚ) 6 0
  have hone : roundTo 6 (1 : ℚ) = 1 := by exact_mod_cast roundTo_intCast (S := ℚ) 6 1
  rw [h.confidence, hpassages.topScore_eq]
  obtain ⟨-, hle⟩ := hpassages.criticScore_bounds hsqrt hthreshold
    (Agent.overlap_nonneg cfg.platform state)
  have hle' : criticScore cfg queryVec hits (Agent.overlap cfg.platform state) ≤ 1 := by
    have hoverlap := Agent.overlap_le_one cfg.platform state
    linarith
  have hrounded := roundTo_mono 6 hle'
  rw [hone] at hrounded
  unfold criticScore at hrounded ⊢
  split
  · rw [hzero]
  · rename_i hne
    rw [if_neg hne] at hrounded
    rw [min_eq_right hrounded]

/-! The run of the workflow -/

variable {c : Nat} {w w' : World S} {env env' : Nat → Reply S} {σ σ' : Session S}

omit [IsStrictOrderedRing S] [FloorRing S] in
/-- The provider of the vectors sees no row. -/
theorem embed_view {texts : List String} {vectors : List (List S)}
    (h : (embed cfg texts σ).run (server cfg.platform) c env w = some ((.ok vectors, σ'), w', env')) :
    w'.view c = w.view c := by
  have hclient : ∀ {a σ₁ w₁ env₁}, (openaiClient cfg σ).run (server cfg.platform) c env w =
      some ((.ok a, σ₁), w₁, env₁) → w₁ = w := by
    intro a σ₁ w₁ env₁ h
    unfold openaiClient at h
    split at h
    · cases h
    · split at h <;> cases h
      rfl
  have hproviders : embed cfg texts = (openaiClient cfg >>= fun _ => embedCall texts) ∨
      (∃ e, embed cfg texts = M.raise e) ∨ ∃ vectors, embed cfg texts = pure vectors := by
    unfold embed
    split
    · exact .inl rfl
    · exact .inr (.inl ⟨_, rfl⟩)
    · exact .inr (.inr ⟨_, rfl⟩)
  rcases hproviders with hopenai | ⟨e, hraise⟩ | ⟨mock, hpure⟩
  · rw [hopenai] at h
    obtain ⟨a, σ₁, w₁, env₁, hfirst, hrest⟩ := run_of_bind h
    rw [hclient hfirst] at hrest
    simp only [embedCall, Program.run, server, World.exec, World.effect, Option.map_some] at hrest
    cases hfault : (env₁ 0).fault <;> rw [hfault] at hrest <;> cases hrest
    rfl
  · rw [hraise] at h
    cases h
  · rw [hpure] at h
    rw [← (run_of_pure h).2]

omit [FloorRing S] in
/-- A search that returns has found passages of the organization. -/
theorem search_passages {text : String}
    (h : (search cfg organizationId text none none σ).run (server cfg.platform) c env w =
      some ((.ok hits, σ'), w', env')) :
    ∃ queryVec rest σ₁ w₁ env₁, (embed cfg [text] σ).run (server cfg.platform) c env w =
        some ((.ok (queryVec :: rest), σ₁), w₁, env₁) ∧
      Passages cfg organizationId queryVec (w.view c).documentChunks.rows hits := by
  obtain ⟨vectors, σ₁, w₁, env₁, hembed, hrest⟩ := run_of_bind h
  cases vectors with
  | nil => cases hrest
  | cons queryVec rest =>
    have hfault : (env₁ 0).fault = none := by
      cases hfault : (env₁ 0).fault with
      | none => rfl
      | some e =>
        simp only [List.head?_cons] at hrest
        split at hrest <;>
        · obtain ⟨_, _, _, _, hquery, -⟩ := run_of_bind hrest
          simp only [query, Program.run, server, World.exec, World.effect, hfault,
            Option.map_some] at hquery
          cases hquery
    obtain ⟨hits', w₂, env₂, hrun, htop⟩ :=
      RetrievalService.search_run organizationId none none hembed hfault
    rw [h] at hrun
    cases hrun
    have hview := embed_view hembed
    have found : ∀ x ∈ hits, ∃ d ∈ (w.view c).documentChunks.rows,
        d.organizationId = organizationId ∧ x = RetrievalService.fallbackHit cfg queryVec d ∧
          ((cfg.settings.similarityThreshold : ℚ) : S) ≤ cosine cfg queryVec d.embedding := by
      intro x hx
      obtain ⟨hin, hreach⟩ := htop.mem hx
      rw [hview] at hin
      have hfound : ∃ d ∈ (w.view c).documentChunks.rows,
          d.organizationId = organizationId ∧ x = RetrievalService.fallbackHit cfg queryVec d := by
        split at hin
        · obtain ⟨d, hd, rfl⟩ := List.mem_map.mp hin
          obtain ⟨hd, horg⟩ := List.mem_filter.mp hd
          obtain ⟨hd, -⟩ := List.mem_filter.mp hd
          have hseen : RetrievalService.seen cfg none queryVec d = true := by
            cases hdistance : RetrievalService.cosineDistance cfg queryVec d.embedding with
            | none =>
              rw [RetrievalService.pgvectorHit_nan hdistance] at hreach
              exact absurd hreach (WithBot.not_coe_le_bot _)
            | some s => simp [RetrievalService.seen, hdistance]
          exact ⟨d, hd, eq_of_beq horg, RetrievalService.pgvectorHit_seen cfg hseen⟩
        · obtain ⟨d, hd, rfl⟩ := List.mem_map.mp hin
          obtain ⟨hd, horg⟩ := List.mem_filter.mp hd
          exact ⟨d, hd, eq_of_beq horg, rfl⟩
      obtain ⟨d, hd, horg, rfl⟩ := hfound
      exact ⟨d, hd, horg, rfl, WithBot.coe_le_coe.mp hreach⟩
    refine ⟨queryVec, rest, _, w₁, env₁, hembed, ?_, ?_, ?_⟩
    · intro x hx
      obtain ⟨d, hd, horg, rfl, -⟩ := found x hx
      exact ⟨hd, horg⟩
    · intro x hx
      obtain ⟨d, -, -, rfl, -⟩ := found x hx
      rfl
    · intro x hx
      obtain ⟨d, -, -, rfl, hd⟩ := found x hx
      exact hd

omit [IsStrictOrderedRing S] in
theorem runWorkflow_graded {initial state : AgentState}
    (h : (Agent.runWorkflow cfg initial σ).run (server cfg.platform) c env w =
      some ((.ok state, σ'), w', env')) :
    ∃ hits σ₁ w₁ env₁, (search cfg initial.organizationId (Agent.ticketText initial) none none
        σ).run (server cfg.platform) c env w = some ((.ok hits, σ₁), w₁, env₁) ∧
      Graded cfg hits state := by
  obtain ⟨state₁, σ₁, w₁, env₁, h₁, h⟩ := run_of_bind h
  obtain ⟨state₂, σ₂, w₂, env₂, h₂, h⟩ := run_of_bind h
  obtain ⟨hits, σ₃, w₃, env₃, hsearch, h₁⟩ := run_of_bind h₁
  obtain ⟨result, _, _, _, -, h₂⟩ := run_of_bind h₂
  refine ⟨hits, σ₃, w₃, env₃, hsearch, ?_⟩
  rw [← (run_of_pure h).1]
  refine graded_of_critic ?_
  rw [← (run_of_pure h₂).1, ← (run_of_pure h₁).1]
  rfl

omit [IsStrictOrderedRing S] in
theorem Graded.confidence_mono {hits hits' : List (RetrievedChunk S)} {state state' : AgentState}
    (h : Graded cfg hits state) (h' : Graded cfg hits' state')
    (hsame : state'.retrieved = state.retrieved)
    (hmore : ∀ tok ∈ Agent.replyTokens cfg.platform state,
      tok ∈ Agent.replyTokens cfg.platform state') {q : ℚ} (hq : state.confidence = some q) :
    ∃ q', state'.confidence = some q' ∧ q ≤ q' := by
  have hrefs : hits'.map refOf = hits.map refOf :=
    Option.some.inj (h'.retrieved.symm.trans (hsame.trans h.retrieved))
  have hempty : hits'.isEmpty = hits.isEmpty := by
    have hmap := congrArg List.isEmpty hrefs
    rwa [List.isEmpty_map, List.isEmpty_map] at hmap
  have hoverlap := Agent.overlap_mono hsame hmore
  refine ⟨_, h'.confidence, ?_⟩
  obtain rfl := Option.some.inj (h.confidence.symm.trans hq)
  rw [hempty, hrefs]
  split
  · exact le_rfl
  · exact min_le_min_left 1 (roundTo_mono 6 (by linarith))

/-- What the confidence of a reply is, and what it decides. -/
structure Gate (cfg : Config S) (organizationId : Uuid) (queryVec : List S)
    (chunks : List (DocumentChunk S)) (hits : List (RetrievedChunk S)) (state : AgentState)
    (q : ℚ) : Prop where
  unit : 0 ≤ q ∧ q ≤ 1
  ungrounded : (∀ d ∈ chunks, d.organizationId = organizationId →
    cosine cfg queryVec d.embedding < ((cfg.settings.similarityThreshold : ℚ) : S)) →
      q = 0 ∧ state.outcome = some "escalated"
  disjoint : (∀ tok ∈ Agent.contextTokens cfg.platform state,
    tok ∉ Agent.replyTokens cfg.platform state) → q ≤ 1 / 2
  outcome : 1 / 10 ^ 6 < |trueScore cfg queryVec hits (Agent.overlap cfg.platform state) -
      ((cfg.settings.confidenceThreshold : ℚ) : S)| →
    state.outcome = some (if ((cfg.settings.confidenceThreshold : ℚ) : S) ≤
        trueScore cfg queryVec hits (Agent.overlap cfg.platform state) then "waiting_approval"
      else "escalated")

theorem Graded.gate {state : AgentState} (h : Graded cfg hits state)
    (hpassages : Passages cfg organizationId queryVec chunks hits) (hsqrt : cfg.SquareRoots)
    (hsimilarity : 0 ≤ cfg.settings.similarityThreshold)
    (hconfidence : 0 < cfg.settings.confidenceThreshold) :
    ∃ q, state.confidence = some q ∧ Gate cfg organizationId queryVec chunks hits state q := by
  have hq := h.confidence_eq hpassages hsqrt hsimilarity
  have hzero : roundTo 6 (0 : ℚ) = 0 := by exact_mod_cast roundTo_intCast (S := ℚ) 6 0
  have hone : roundTo 6 (1 : ℚ) = 1 := by exact_mod_cast roundTo_intCast (S := ℚ) 6 1
  have hnonneg := Agent.overlap_nonneg cfg.platform state
  have hle := Agent.overlap_le_one cfg.platform state
  obtain ⟨hlow, hhigh⟩ := hpassages.criticScore_bounds hsqrt hsimilarity hnonneg
  refine ⟨_, hq, ⟨?_, ?_⟩, fun hfar => ?_, fun hdisjoint => ?_, fun hfar => ?_⟩
  · exact hzero.ge.trans (roundTo_mono 6 hlow)
  · exact (roundTo_mono 6 (by linarith)).trans hone.le
  · have hnone : hits = [] := by
      refine List.eq_nil_iff_forall_not_mem.mpr fun x hx => ?_
      obtain ⟨hin, horg⟩ := hpassages.own x hx
      exact absurd (hpassages.reach x hx) (not_le_of_gt (hfar x.chunk hin horg))
    have hscore : roundTo 6 (criticScore cfg queryVec hits (Agent.overlap cfg.platform state)) =
        0 := by
      rw [hnone]
      exact hzero
    rw [hscore] at hq
    refine ⟨hscore, ?_⟩
    rw [h.outcome 0 hq, if_neg (not_le_of_gt hconfidence)]
  · have hoverlap := Agent.overlap_disjoint hdisjoint
    have hhalf : roundTo 6 (1 / 2 : ℚ) = 1 / 2 := by
      have hexact := roundTo_exact (S := ℚ) 6 500000
      norm_num at hexact
      norm_num
      exact hexact
    rw [hoverlap] at hhigh ⊢
    refine (roundTo_mono 6 ?_).trans hhalf.le
    linarith
  · rw [h.outcome _ hq]
    have hnear := abs_le.mp (criticScore_near cfg queryVec hits
      (Agent.overlap cfg.platform state))
    have hsides := lt_abs.mp hfar
    have hsame : cfg.settings.confidenceThreshold ≤
        roundTo 6 (criticScore cfg queryVec hits (Agent.overlap cfg.platform state)) ↔
          ((cfg.settings.confidenceThreshold : ℚ) : S) ≤
            trueScore cfg queryVec hits (Agent.overlap cfg.platform state) := by
      rw [← Rat.cast_le (K := S)]
      rcases hsides with habove | hbelow
      · exact iff_of_true (by linarith) (by linarith)
      · exact iff_of_false (by linarith) (by linarith)
    exact congrArg some (if_congr hsame rfl rfl)

end

/-- Vectors of the vendor over the reals. -/
noncomputable def Config.real : Config ℝ :=
  ⟨.plain, { embeddingProvider := "openai", openaiApiKey := some "key" }, "sqlite", false, true,
    Real.sqrt⟩

theorem Config.real_squareRoots : Config.real.SquareRoots := fun x hx =>
  ⟨Real.sqrt_nonneg x, Real.mul_self_sqrt hx⟩

/-- One chunk, and a vendor that answers with its embedding. -/
noncomputable def realWorld : World ℝ :=
  { World.init with db := { (DB.empty : DB ℝ) with
      documentChunks := ⟨[⟨⟨4, 1⟩, ⟨0, 0⟩, ⟨4, 0⟩, 0, "reset the password", [1]⟩], by simp⟩ } }

noncomputable def Reply.real : Reply ℝ :=
  ⟨none, 0, ⟨0, none⟩, 0, [[1]], ⟨"", 0, 0, ""⟩, 200⟩

end AgentDesk
