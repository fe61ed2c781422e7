import AgentDesk.Framework.Ranking
import AgentDesk.Api.Jobs
import Mathlib.Algebra.Order.Group.Basic

namespace AgentDesk

open Framework (Top Agree)

variable {S : Type} [Field S] [LinearOrder S]

namespace RetrievalService

/-- The order of the scores, in which NaN is below every number. -/
def RetrievedChunk.rank (h : RetrievedChunk S) : WithBot S := h.score

def fallbackHit (cfg : Config S) (queryVec : List S) (c : DocumentChunk S) : RetrievedChunk S :=
  ⟨c, some (cosine cfg queryVec c.embedding)⟩

def pgvectorHit (cfg : Config S) (queryVec : List S) (c : DocumentChunk S) : RetrievedChunk S :=
  ⟨c, (cosineDistance cfg queryVec c.embedding).map (1 - ·)⟩

/-- PostgreSQL sees the chunk, and its distance is a number. -/
def seen (cfg : Config S) (probed : Option (List Uuid)) (queryVec : List S)
    (c : DocumentChunk S) : Bool :=
  probed.all (·.contains c.id) && (cosineDistance cfg queryVec c.embedding).isSome

/-- Every chunk that reaches the threshold unseen is matched by `topK` chunks that are seen. -/
def Covered (cfg : Config S) (probed : Option (List Uuid)) (queryVec : List S) (threshold : S)
    (topK : Nat) (chunks : List (DocumentChunk S)) : Prop :=
  ∀ c ∈ chunks, threshold ≤ cosine cfg queryVec c.embedding →
    seen cfg probed queryVec c = false → topK ≤ (chunks.filter fun c' =>
      seen cfg probed queryVec c' &&
        decide (cosine cfg queryVec c.embedding ≤ cosine cfg queryVec c'.embedding)).length

/-- An exact scan misses only zero vectors, which no positive threshold lets in. -/
theorem covered_exact (cfg : Config S) (queryVec : List S) {threshold : S} (h : 0 < threshold)
    (topK : Nat) (chunks : List (DocumentChunk S)) :
    Covered cfg none queryVec threshold topK chunks := by
  intro c _ hreach hunseen
  have hnan : cosineDistance cfg queryVec c.embedding = none := by
    simpa [seen] using hunseen
  simp only [cosineDistance] at hnan
  split at hnan
  · rename_i hzero
    simp only [cosine, if_pos hzero] at hreach
    exact absurd h (not_lt_of_ge hreach)
  · cases hnan

omit [Field S] in
theorem reaches_iff (threshold : S) (h : RetrievedChunk S) :
    reaches threshold h.score = decide ((threshold : WithBot S) ≤ h.rank) := by
  obtain ⟨c, _ | s⟩ := h
  · exact (decide_eq_false (WithBot.not_coe_le_bot threshold)).symm
  · exact decide_eq_decide.mpr WithBot.coe_le_coe.symm

theorem pgvectorHit_seen (cfg : Config S) {probed : Option (List Uuid)} {queryVec : List S}
    {c : DocumentChunk S} (h : seen cfg probed queryVec c = true) :
    pgvectorHit cfg queryVec c = fallbackHit cfg queryVec c := by
  simp only [seen, Bool.and_eq_true] at h
  obtain ⟨-, hsome⟩ := h
  simp only [pgvectorHit, fallbackHit, cosineDistance, cosine] at hsome ⊢
  split
  · rename_i hzero
    simp [hzero] at hsome
  · simp

theorem pgvectorHit_nan {cfg : Config S} {queryVec : List S} {c : DocumentChunk S}
    (h : cosineDistance cfg queryVec c.embedding = none) : (pgvectorHit cfg queryVec c).rank = ⊥ := by
  simp only [RetrievedChunk.rank, pgvectorHit, h]
  rfl

section

variable [IsStrictOrderedRing S] {x y : DocumentChunk S}

theorem closer_iff (a b : Option S) : closer a b = true ↔
    (⟨y, b.map (1 - ·)⟩ : RetrievedChunk S).rank ≤
      (⟨x, a.map (1 - ·)⟩ : RetrievedChunk S).rank := by
  cases a with
  | none =>
    cases b with
    | none => exact iff_of_true rfl (le_refl (⊥ : WithBot S))
    | some b => exact iff_of_false Bool.false_ne_true (WithBot.not_coe_le_bot (1 - b))
  | some a =>
    cases b with
    | none => exact iff_of_true rfl (bot_le (a := ((1 - a : S) : WithBot S)))
    | some b =>
      calc closer (some a) (some b) = true ↔ a ≤ b := decide_eq_true_iff
        _ ↔ 1 - b ≤ 1 - a := (sub_le_sub_iff_left 1).symm
        _ ↔ ((1 - b : S) : WithBot S) ≤ ((1 - a : S) : WithBot S) := WithBot.coe_le_coe.symm

/-- What the pgvector branch makes of the chunks that the statement sees. -/
theorem pgvector_top (cfg : Config S) (queryVec : List S) (threshold : S) (topK : Nat)
    (chunks : List (DocumentChunk S)) : Top RetrievedChunk.rank topK (threshold : WithBot S)
      (chunks.map (pgvectorHit cfg queryVec))
      (((((chunks.map fun c => (c, cosineDistance cfg queryVec c.embedding)).insertionSort
        fun a b => closer a.2 b.2 = true).take topK).map fun x =>
          (⟨x.1, x.2.map (1 - ·)⟩ : RetrievedChunk S)).filter fun h =>
            reaches threshold h.score) := by
  have hle : ∀ a b : DocumentChunk S × Option S, closer a.2 b.2 = true ↔
      (⟨b.1, b.2.map (1 - ·)⟩ : RetrievedChunk S).rank ≤
        (⟨a.1, a.2.map (1 - ·)⟩ : RetrievedChunk S).rank := fun a b => closer_iff a.2 b.2
  have htotal : Std.Total fun a b : DocumentChunk S × Option S => closer a.2 b.2 = true :=
    ⟨fun a b => by rw [hle, hle]; exact le_total _ _⟩
  have htrans : IsTrans (DocumentChunk S × Option S) fun a b => closer a.2 b.2 = true :=
    ⟨fun a b c hab hbc => by rw [hle] at *; exact hbc.trans hab⟩
  refine ⟨(((chunks.map fun c => (c, cosineDistance cfg queryVec c.embedding)).insertionSort
    fun a b => closer a.2 b.2 = true).map fun x => ⟨x.1, x.2.map (1 - ·)⟩), ?_, ?_, ?_⟩
  · refine ((List.perm_insertionSort _ _).map _).trans ?_
    rw [List.map_map]
    rfl
  · rw [List.pairwise_map]
    exact (List.pairwise_insertionSort _ _).imp fun {a b} h => (hle a b).mp h
  · rw [List.map_take]
    exact List.filter_congr fun h _ => reaches_iff threshold h

omit [IsStrictOrderedRing S] in
theorem fallback_top (cfg : Config S) (queryVec : List S) (threshold : S) (topK : Nat)
    (chunks : List (DocumentChunk S)) : Top RetrievedChunk.rank topK (threshold : WithBot S)
      (chunks.map (fallbackHit cfg queryVec))
      ((((rankAll cfg queryVec chunks).take topK).map fun x =>
        (⟨x.1, some x.2⟩ : RetrievedChunk S)).filter fun h => reaches threshold h.score) := by
  have htotal : Std.Total fun a b : DocumentChunk S × S => b.2 ≤ a.2 :=
    ⟨fun a b => le_total b.2 a.2⟩
  have htrans : IsTrans (DocumentChunk S × S) fun a b => b.2 ≤ a.2 :=
    ⟨fun a b c hab hbc => hbc.trans hab⟩
  refine ⟨(rankAll cfg queryVec chunks).map fun x => ⟨x.1, some x.2⟩, ?_, ?_, ?_⟩
  · refine ((List.perm_insertionSort _ _).map _).trans ?_
    rw [List.map_map]
    rfl
  · rw [List.pairwise_map]
    exact (List.pairwise_insertionSort _ _).imp fun {a b} h => WithBot.coe_le_coe.mpr h
  · rw [List.map_take]
    exact List.filter_congr fun h _ => reaches_iff threshold h

end

/-! The best matches of the fallback -/

/-- The fallback's ranking as hits. -/
def ranking (cfg : Config S) (queryVec : List S) (chunks : List (DocumentChunk S)) :
    List (RetrievedChunk S) := (rankAll cfg queryVec chunks).map fun x => ⟨x.1, some x.2⟩

theorem ranking_perm (cfg : Config S) (queryVec : List S) (chunks : List (DocumentChunk S)) :
    (ranking cfg queryVec chunks).Perm (chunks.map (fallbackHit cfg queryVec)) := by
  have hperm := (List.perm_insertionSort (fun a b : DocumentChunk S × S => b.2 ≤ a.2)
    (chunks.map fun c => (c, cosine cfg queryVec c.embedding))).map fun x =>
      (⟨x.1, some x.2⟩ : RetrievedChunk S)
  rw [List.map_map] at hperm
  exact hperm

theorem ranking_sorted (cfg : Config S) (queryVec : List S) (chunks : List (DocumentChunk S)) :
    (ranking cfg queryVec chunks).Pairwise fun a b => b.rank ≤ a.rank := by
  have htotal : Std.Total fun a b : DocumentChunk S × S => b.2 ≤ a.2 :=
    ⟨fun a b => le_total b.2 a.2⟩
  have htrans : IsTrans (DocumentChunk S × S) fun a b => b.2 ≤ a.2 :=
    ⟨fun a b c hab hbc => hbc.trans hab⟩
  rw [ranking, List.pairwise_map]
  exact (List.pairwise_insertionSort _ _).imp fun {a b} h => WithBot.coe_le_coe.mpr h

/-- The hits are best matches: distinct chunks of the organization that reach the threshold, best
first, and a chunk that is left out although it reaches the threshold is outdone by `topK`. -/
structure BestMatches (cfg : Config S) (organizationId : Uuid) (queryVec : List S) (threshold : S)
    (topK : Nat) (chunks : List (DocumentChunk S)) (hits : List (RetrievedChunk S)) : Prop where
  distinct : (hits.map RetrievedChunk.chunk).Nodup
  own : ∀ h ∈ hits, h.chunk ∈ chunks ∧ h.chunk.organizationId = organizationId
  score : ∀ h ∈ hits, h.score = some (cosine cfg queryVec h.chunk.embedding)
  sorted : hits.Pairwise fun a b =>
    cosine cfg queryVec b.chunk.embedding ≤ cosine cfg queryVec a.chunk.embedding
  length : hits.length ≤ topK
  reach : ∀ h ∈ hits, threshold ≤ cosine cfg queryVec h.chunk.embedding
  complete : ∀ c ∈ chunks, c.organizationId = organizationId →
    threshold ≤ cosine cfg queryVec c.embedding → c ∉ hits.map RetrievedChunk.chunk →
      hits.length = topK ∧ ∀ h ∈ hits,
        cosine cfg queryVec c.embedding ≤ cosine cfg queryVec h.chunk.embedding

theorem bestMatches_of_top {cfg : Config S} {organizationId : Uuid} {queryVec : List S}
    {threshold : S} {topK : Nat} {chunks : List (DocumentChunk S)} {hits : List (RetrievedChunk S)}
    (hchunks : chunks.Nodup) (h : Top RetrievedChunk.rank topK (threshold : WithBot S)
      ((chunks.filter fun c => c.organizationId == organizationId).map
        (fallbackHit cfg queryVec)) hits) :
    BestMatches cfg organizationId queryVec threshold topK chunks hits := by
  have found : ∀ x ∈ hits, ∃ c ∈ chunks, c.organizationId = organizationId ∧
      x = fallbackHit cfg queryVec c := by
    intro x hx
    obtain ⟨c, hc, rfl⟩ := List.mem_map.mp (h.mem hx).1
    obtain ⟨hin, horg⟩ := List.mem_filter.mp hc
    exact ⟨c, hin, eq_of_beq horg, rfl⟩
  have hrank : ∀ x ∈ hits, x.rank =
      ((cosine cfg queryVec x.chunk.embedding : S) : WithBot S) := by
    intro x hx
    obtain ⟨c, -, -, rfl⟩ := found x hx
    rfl
  have hnodup : hits.Nodup := by
    obtain ⟨ranked, hperm, -, rfl⟩ := h
    have hrows := (hchunks.filter fun c => c.organizationId == organizationId).map
      (f := fallbackHit cfg queryVec) fun c c' heq => congrArg RetrievedChunk.chunk heq
    exact ((hperm.nodup_iff.mpr hrows).sublist (List.take_sublist _ _)).filter _
  refine ⟨?_, ?_, ?_, ?_, h.length_le, ?_, ?_⟩
  · refine hnodup.map_on fun x hx y hy heq => ?_
    obtain ⟨c, -, -, rfl⟩ := found x hx
    obtain ⟨c', -, -, rfl⟩ := found y hy
    have hc : c = c' := heq
    rw [hc]
  · intro x hx
    obtain ⟨c, hc, horg, rfl⟩ := found x hx
    exact ⟨hc, horg⟩
  · intro x hx
    obtain ⟨c, -, -, rfl⟩ := found x hx
    rfl
  · have hsorted := List.pairwise_map.mp h.pairwise
    refine hsorted.imp_of_mem fun {a b} ha hb hle => ?_
    rw [hrank a ha, hrank b hb] at hle
    exact WithBot.coe_le_coe.mp hle
  · intro x hx
    have hle := (h.mem hx).2
    rw [hrank x hx] at hle
    exact WithBot.coe_le_coe.mp hle
  · intro c hc horg hreach hout
    have hrow : fallbackHit cfg queryVec c ∈
        (chunks.filter fun c => c.organizationId == organizationId).map
          (fallbackHit cfg queryVec) :=
      List.mem_map_of_mem (List.mem_filter.mpr ⟨hc, beq_iff_eq.mpr horg⟩)
    have hle : (threshold : WithBot S) ≤ (fallbackHit cfg queryVec c).rank :=
      WithBot.coe_le_coe.mpr hreach
    have hnot : fallbackHit cfg queryVec c ∉ hits := fun hin =>
      hout (List.mem_map.mpr ⟨_, hin, rfl⟩)
    obtain ⟨hlength, hall⟩ := h.full hle (h.cut hrow hle hnot)
    refine ⟨hlength, fun x hx => ?_⟩
    have hx' := hall x hx
    rw [hrank x hx] at hx'
    exact WithBot.coe_le_coe.mp hx'

theorem mem_pgvectorHits {cfg : Config S} {probed : Option (List Uuid)} {queryVec : List S}
    {chunks : List (DocumentChunk S)} {c : DocumentChunk S} (hc : c ∈ chunks) :
    fallbackHit cfg queryVec c ∈ (chunks.filter fun c => probed.all (·.contains c.id)).map
      (pgvectorHit cfg queryVec) ↔ seen cfg probed queryVec c = true := by
  rw [List.mem_map]
  constructor
  · rintro ⟨c', hc', heq⟩
    obtain rfl : c' = c := congrArg RetrievedChunk.chunk heq
    have hscore : (cosineDistance cfg queryVec c'.embedding).map (1 - ·) =
      some (cosine cfg queryVec c'.embedding) := congrArg RetrievedChunk.score heq
    have hsome := congrArg Option.isSome hscore
    rw [Option.isSome_map] at hsome
    rw [seen, (List.mem_filter.mp hc').2, hsome]
    rfl
  · intro hseen
    refine ⟨c, List.mem_filter.mpr ⟨hc, ?_⟩, pgvectorHit_seen cfg hseen⟩
    rw [seen, Bool.and_eq_true] at hseen
    exact hseen.1

theorem countP_pgvectorHits (cfg : Config S) (probed : Option (List Uuid)) (queryVec : List S)
    (chunks : List (DocumentChunk S)) (s : S) :
    ((chunks.filter fun c => probed.all (·.contains c.id)).map (pgvectorHit cfg queryVec)).countP
        (fun h => (s : WithBot S) ≤ h.rank) =
      (chunks.filter fun c => seen cfg probed queryVec c &&
        decide (s ≤ cosine cfg queryVec c.embedding)).length := by
  rw [List.countP_map, List.countP_filter, ← List.countP_eq_length_filter]
  refine List.countP_congr fun c _ => ?_
  cases hd : cosineDistance cfg queryVec c.embedding with
  | none =>
    have hrank : ¬(s : WithBot S) ≤ (pgvectorHit cfg queryVec c).rank := by
      rw [pgvectorHit_nan hd]
      exact WithBot.not_coe_le_bot s
    simp [seen, hd, hrank]
  | some d =>
    cases hp : probed.all (·.contains c.id) with
    | false =>
      have hseen : seen cfg probed queryVec c = false := by rw [seen, hp, Bool.false_and]
      simp only [hseen, Bool.and_false, Bool.false_and]
    | true =>
      have hseen : seen cfg probed queryVec c = true := by rw [seen, hp, hd]; rfl
      have hrank : (s : WithBot S) ≤ (pgvectorHit cfg queryVec c).rank ↔
          s ≤ cosine cfg queryVec c.embedding := by
        rw [pgvectorHit_seen cfg hseen]
        exact WithBot.coe_le_coe
      simp only [Function.comp_apply, hseen, Bool.and_true, Bool.true_and, hrank]

omit [Field S] [LinearOrder S] in
theorem nodup_hits {chunks : List (DocumentChunk S)} (h : chunks.Nodup)
    {f : DocumentChunk S → RetrievedChunk S} (hf : ∀ c, (f c).chunk = c) : (chunks.map f).Nodup :=
  h.map fun c c' heq => by rw [← hf c, heq, hf c']

theorem covered_iff (cfg : Config S) (probed : Option (List Uuid)) (queryVec : List S)
    (threshold : S) (topK : Nat) (chunks : List (DocumentChunk S)) :
    Covered cfg probed queryVec threshold topK chunks ↔
      ∀ h ∈ chunks.map (fallbackHit cfg queryVec), (threshold : WithBot S) ≤ h.rank →
        h ∉ (chunks.filter fun c => probed.all (·.contains c.id)).map (pgvectorHit cfg queryVec) →
          topK ≤ ((chunks.filter fun c => probed.all (·.contains c.id)).map
            (pgvectorHit cfg queryVec)).countP fun h' => h.rank ≤ h'.rank := by
  rw [List.forall_mem_map]
  refine forall₂_congr fun c hc => ?_
  have hrank : (threshold : WithBot S) ≤ (fallbackHit cfg queryVec c).rank ↔
      threshold ≤ cosine cfg queryVec c.embedding := WithBot.coe_le_coe
  rw [hrank, mem_pgvectorHits hc, Bool.not_eq_true]
  refine imp_congr_right fun _ => imp_congr_right fun _ => ?_
  rw [← countP_pgvectorHits]
  rfl

/-! The two branches of the code -/

section

variable [IsStrictOrderedRing S] {c : Nat} {w w₁ : World S} {env env₁ : Nat → Reply S} {σ σ₁ : Session S}
  {queryVec : List S} {rest : List (List S)} {text : String}

theorem search_run {cfg : Config S} (organizationId : Uuid) (threshold : Option ℚ) (topK : Option Nat)
    (hembed : (embed cfg [text] σ).run (server cfg.platform) c env w =
      some ((.ok (queryVec :: rest), σ₁), w₁, env₁)) (hfault : (env₁ 0).fault = none) :
    ∃ hits w' env', (search cfg organizationId text threshold topK σ).run
        (server cfg.platform) c env w = some ((.ok hits, σ₁), w', env') ∧
      Top RetrievedChunk.rank (topK.getD cfg.settings.retrievalTopK)
        (((threshold.getD cfg.settings.similarityThreshold : ℚ) : S) : WithBot S)
        (if cfg.dialect = "postgresql" then
          ((((w₁.view c).documentChunks.rows.filter fun d => (env₁ 0).choice.probed.all
            (·.contains d.id)).filter fun d => d.organizationId == organizationId).map
              (pgvectorHit cfg queryVec))
        else ((w₁.view c).documentChunks.rows.filter fun d =>
          d.organizationId == organizationId).map (fallbackHit cfg queryVec)) hits := by
  rw [search, M.bind_apply, Framework.Program.run_bind, hembed]
  simp only [Option.bind_some, List.head?_cons]
  split
  · rw [M.bind_apply]
    simp only [query, Framework.Program.call_bind, Framework.Program.ret_bind,
      Framework.Program.run, server, World.exec, World.effect, hfault, Option.map_some,
      M.pure_apply]
    exact ⟨_, _, _, rfl, pgvector_top cfg queryVec _ _ _⟩
  · rw [M.bind_apply]
    simp only [query, Framework.Program.call_bind, Framework.Program.ret_bind,
      Framework.Program.run, server, World.exec, World.effect, hfault, Option.map_some,
      M.pure_apply]
    exact ⟨_, _, _, rfl, fallback_top cfg queryVec _ _ _⟩

omit [IsStrictOrderedRing S] in
theorem search_fallback {cfg : Config S} (hdialect : cfg.dialect ≠ "postgresql")
    (organizationId : Uuid) (threshold : Option ℚ) (topK : Option Nat)
    (hembed : (embed cfg [text] σ).run (server cfg.platform) c env w =
      some ((.ok (queryVec :: rest), σ₁), w₁, env₁)) (hfault : (env₁ 0).fault = none) :
    ∃ w' env', (search cfg organizationId text threshold topK σ).run
        (server cfg.platform) c env w = some ((.ok
          (((ranking cfg queryVec ((w₁.view c).documentChunks.rows.filter fun d =>
            d.organizationId == organizationId)).take
              (topK.getD cfg.settings.retrievalTopK)).filter fun h =>
                (((threshold.getD cfg.settings.similarityThreshold : ℚ) : S) : WithBot S) ≤
                  h.rank), σ₁), w', env') := by
  rw [search, M.bind_apply, Framework.Program.run_bind, hembed]
  simp only [Option.bind_some, List.head?_cons, if_neg hdialect]
  rw [M.bind_apply]
  simp only [query, Framework.Program.call_bind, Framework.Program.ret_bind,
    Framework.Program.run, server, World.exec, World.effect, hfault, Option.map_some,
    M.pure_apply]
  refine ⟨_, _, congrArg some (congrArg (·, _) (congrArg (·, σ₁) (congrArg Except.ok ?_)))⟩
  rw [ranking, ← List.map_take]
  exact List.filter_congr fun h _ => reaches_iff _ h

/-- On the in-Python path a search returns best matches; it could as well filter before it cuts,
and a higher threshold or a lower `top_k` only removes hits from the end. -/
theorem search_bestMatches (cfg : Config S) (hdialect : cfg.dialect ≠ "postgresql")
    (organizationId : Uuid) (threshold : Option ℚ) (topK : Option Nat)
    (hembed : (embed cfg [text] σ).run (server cfg.platform) c env w =
      some ((.ok (queryVec :: rest), σ₁), w₁, env₁)) (hfault : (env₁ 0).fault = none) :
    let chunks := (w₁.view c).documentChunks.rows
    let t := threshold.getD cfg.settings.similarityThreshold
    let k := topK.getD cfg.settings.retrievalTopK
    ∃ hits w' env', (search cfg organizationId text threshold topK σ).run
        (server cfg.platform) c env w = some ((.ok hits, σ₁), w', env') ∧
      BestMatches cfg organizationId queryVec (t : S) k chunks hits ∧
      hits = ((ranking cfg queryVec (chunks.filter fun d =>
        d.organizationId == organizationId)).filter fun h => reaches (t : S) h.score).take k ∧
      ∀ t' k', t ≤ t' → k' ≤ k → ∃ hits' w'' env'',
        (search cfg organizationId text (some t') (some k') σ).run (server cfg.platform) c env w =
          some ((.ok hits', σ₁), w'', env'') ∧ hits' <+: hits := by
  intro chunks t k
  obtain ⟨w', env', hrun⟩ := search_fallback hdialect organizationId threshold topK hembed hfault
  have hsorted := ranking_sorted cfg queryVec
    (chunks.filter fun d => d.organizationId == organizationId)
  refine ⟨_, w', env', hrun, bestMatches_of_top ?_ ⟨_, ranking_perm cfg queryVec _, hsorted, rfl⟩,
    ?_, ?_⟩
  · exact List.Nodup.of_map _ (w₁.view c).documentChunks.nodup
  · rw [Framework.filter_take hsorted]
    exact congrArg (List.take k) (List.filter_congr fun h _ => (reaches_iff _ h).symm)
  · intro t' k' ht hk
    obtain ⟨w'', env'', hrun'⟩ :=
      search_fallback hdialect organizationId (some t') (some k') hembed hfault
    refine ⟨_, w'', env'', hrun', Framework.filter_take_within hsorted hk ?_⟩
    have hcast : (t : S) ≤ (t' : S) := Rat.cast_le.mpr ht
    exact WithBot.coe_le_coe.mpr hcast

/-- With the same query vector and the same rows, the PostgreSQL branch and the fallback agree
exactly when the unseen chunks that reach the threshold are matched by seen ones. -/
theorem search_agree (cfg : Config S) (dialect : String) (hdialect : dialect ≠ "postgresql")
    (organizationId : Uuid) (threshold : Option ℚ) (topK : Option Nat)
    (hembed : (embed cfg [text] σ).run (server cfg.platform) c env w =
      some ((.ok (queryVec :: rest), σ₁), w₁, env₁)) (hfault : (env₁ 0).fault = none) :
    ∃ hits hits' w₂ w₃ env₂ env₃,
      (search { cfg with dialect } organizationId text threshold topK σ).run
        (server cfg.platform) c env w = some ((.ok hits, σ₁), w₂, env₂) ∧
      (search { cfg with dialect := "postgresql" } organizationId text threshold topK σ).run
        (server cfg.platform) c env w = some ((.ok hits', σ₁), w₃, env₃) ∧
      (Agree RetrievedChunk.rank (topK.getD cfg.settings.retrievalTopK) hits hits' ↔
        Covered cfg (env₁ 0).choice.probed queryVec
          ((threshold.getD cfg.settings.similarityThreshold : ℚ) : S)
          (topK.getD cfg.settings.retrievalTopK)
          ((w₁.view c).documentChunks.rows.filter fun d => d.organizationId == organizationId)) := by
  obtain ⟨hits, w₂, env₂, hrun, htop⟩ :=
    @search_run S _ _ _ c w w₁ env env₁ σ σ₁ queryVec rest text { cfg with dialect }
      organizationId threshold topK hembed hfault
  obtain ⟨hits', w₃, env₃, hrun', htop'⟩ :=
    @search_run S _ _ _ c w w₁ env env₁ σ σ₁ queryVec rest text
      { cfg with dialect := "postgresql" } organizationId threshold topK hembed hfault
  refine ⟨hits, hits', w₂, w₃, env₂, env₃, hrun, hrun', ?_⟩
  rw [if_neg hdialect] at htop
  rw [if_pos rfl, List.filter_comm] at htop'
  have hnodup := (List.Nodup.of_map _ (w₁.view c).documentChunks.nodup).filter
    fun d => d.organizationId == organizationId
  refine (htop.agree_iff htop' (nodup_hits hnodup fun _ => rfl)
    (nodup_hits (hnodup.filter _) fun _ => rfl) ?_).trans (covered_iff cfg _ _ _ _ _).symm
  intro h hin hreach
  obtain ⟨d, hd, rfl⟩ := List.mem_map.mp hin
  obtain ⟨hchunk, hprobed⟩ := List.mem_filter.mp hd
  have hseen : seen cfg (env₁ 0).choice.probed queryVec d = true := by
    cases hdist : cosineDistance cfg queryVec d.embedding with
    | none =>
      rw [show (pgvectorHit { cfg with dialect := "postgresql" } queryVec d).rank = ⊥ from
        pgvectorHit_nan hdist] at hreach
      exact absurd hreach (WithBot.not_coe_le_bot _)
    | some x => rw [seen, hprobed, hdist]; rfl
  exact List.mem_map.mpr ⟨d, hchunk, (pgvectorHit_seen cfg hseen).symm⟩

end

end RetrievalService

open RetrievalService

/-- One chunk, whose embedding is that of the query. -/
def resetWorld : World ℚ :=
  { World.init with db := { (DB.empty : DB ℚ) with
      documentChunks := ⟨[⟨⟨4, 1⟩, ⟨0, 0⟩, ⟨4, 0⟩, 0, "reset", [-1, 0]⟩], by decide⟩ } }

/-- The index is asked for the nearest list, and the chunk is in another one. -/
def otherList : Nat → Reply ℚ := fun _ => { Reply.plain with choice := ⟨0, some []⟩ }

def Config.planar (dialect : String) : Config ℚ :=
  { Config.plain with settings := { embeddingDim := 2 }, dialect }

/-- A search for "reset" in the fixture's organization, and its hits. -/
def resetSearch (dialect : String) : Option (Except Err (List (RetrievedChunk ℚ))) :=
  ((search (.planar dialect) ⟨0, 0⟩ "reset" none none (.start 5)).run (server .plain) 5 otherList
    resetWorld).map fun x => x.1.1

/-- The fallback finds the chunk, and PostgreSQL finds nothing. -/
theorem otherList_disagree : ∃ hits hits', resetSearch "sqlite" = some (.ok hits) ∧
    resetSearch "postgresql" = some (.ok hits') ∧ ¬Agree RetrievedChunk.rank 5 hits hits' := by
  have hfound : (resetSearch "sqlite").map (fun r => r.toOption.map List.length) =
      some (some 1) := by decide +kernel
  have hnone : (resetSearch "postgresql").map (fun r => r.toOption.map List.length) =
      some (some 0) := by decide +kernel
  obtain ⟨r, hr, hlen⟩ := Option.map_eq_some_iff.mp hfound
  obtain ⟨r', hr', hlen'⟩ := Option.map_eq_some_iff.mp hnone
  cases r with
  | error e => cases hlen
  | ok hits =>
    cases r' with
    | error e => cases hlen'
    | ok hits' =>
      refine ⟨hits, hits', hr, hr', fun hagree => ?_⟩
      have hscores := congrArg List.length hagree.scores
      rw [List.length_map, List.length_map, Option.some.inj hlen, Option.some.inj hlen'] at hscores
      cases hscores

theorem embed_planar (dialect : String) (σ : Session ℚ) :
    embed (.planar dialect) ["reset"] σ = .ret (.ok [[-1, 0]], σ) := by
  have hvector : MockProvider.embedOne (.planar "sqlite") "reset" = [-1, 0] := by decide +kernel
  change Framework.Program.ret (Except.ok [MockProvider.embedOne (.planar "sqlite") "reset"], σ) = _
  rw [hvector]

theorem resetSearch_agree : ∃ hits hits' w₂ w₃ env₂ env₃,
    (search { Config.planar "sqlite" with dialect := "sqlite" } ⟨0, 0⟩ "reset" (some 0) (some 5)
      (.start 5)).run (server .plain) 5 (fun _ => .plain) resetWorld =
        some ((.ok hits, .start 5), w₂, env₂) ∧
    (search { Config.planar "sqlite" with dialect := "postgresql" } ⟨0, 0⟩ "reset" (some 0)
      (some 5) (.start 5)).run (server .plain) 5 (fun _ => .plain) resetWorld =
        some ((.ok hits', .start 5), w₃, env₃) ∧
    (Agree RetrievedChunk.rank 5 hits hits' ↔
      Covered (.planar "sqlite") none [-1, 0] (((0 : ℚ) : ℚ)) 5
        ((resetWorld.view 5).documentChunks.rows.filter fun d => d.organizationId == ⟨0, 0⟩)) :=
  @search_agree ℚ _ _ _ 5 resetWorld resetWorld (fun _ => .plain) (fun _ => .plain) (.start 5)
    (.start 5) [-1, 0] [] "reset" (.planar "sqlite") "sqlite" (by decide) ⟨0, 0⟩ (some 0) (some 5)
    (by rw [embed_planar]; rfl) rfl

/-- The fixture's chunk is the best match for its own text. -/
theorem resetSearch_bestMatches : ∃ hits w' env',
    (search (.planar "sqlite") ⟨0, 0⟩ "reset" none none (.start 5)).run (server .plain) 5
      (fun _ => .plain) resetWorld = some ((.ok hits, .start 5), w', env') ∧
    BestMatches (.planar "sqlite") ⟨0, 0⟩ [-1, 0] (((1 / 2 : ℚ) : ℚ)) 5
      (resetWorld.view 5).documentChunks.rows hits := by
  obtain ⟨hits, w', env', hrun, hbest, -⟩ :=
    @search_bestMatches ℚ _ _ _ 5 resetWorld resetWorld (fun _ => .plain) (fun _ => .plain)
      (.start 5) (.start 5) [-1, 0] [] "reset" (.planar "sqlite") (by decide) ⟨0, 0⟩ none none
      (by rw [embed_planar]; rfl) rfl
  exact ⟨hits, w', env', hrun, hbest⟩

end AgentDesk
