import AgentDesk.Logic.Similarity
import AgentDesk.Properties.Search
import Mathlib.Analysis.Real.Sqrt

namespace AgentDesk

open RetrievalService (RetrievedChunk BestMatches bestMatches_of_top abs_cosine_le cosine dot search
  search_run squares_nonneg)

variable {S : Type} [Field S] [LinearOrder S] {cfg : Config S}

/-- A vector of the configured dimension with norm one. -/
structure UnitVector (cfg : Config S) (v : List S) : Prop where
  length : v.length = cfg.settings.embeddingDim
  norm : RetrievalService.norm cfg v = 1

/-- The factory falls back to the mock embedding provider. -/
structure Config.EmbedsOffline (cfg : Config S) : Prop where
  openai : cfg.platform.lower cfg.settings.embeddingProvider ≠ "openai"
  anthropic : cfg.platform.lower cfg.settings.embeddingProvider ≠ "anthropic"

theorem embed_offline (h : cfg.EmbedsOffline) (texts : List String) :
    embed cfg texts = pure (texts.map (MockProvider.embedOne cfg)) := by
  unfold embed
  split
  · exact absurd ‹_› h.openai
  · exact absurd ‹_› h.anthropic
  · rfl

/-! The vectors of the mock provider -/

omit [LinearOrder S] in
theorem length_addTokens (P : Platform) (dim : Nat) (toks : List String) (v : List S) :
    (toks.foldl (MockProvider.addToken P dim) v).length = v.length := by
  induction toks generalizing v with
  | nil => rfl
  | cons tok toks ih =>
    rw [List.foldl_cons, ih]
    exact List.length_modify ..

section

variable [IsStrictOrderedRing S]

theorem Config.SquareRoots.one (h : cfg.SquareRoots) : cfg.sqrt 1 = 1 := by
  obtain ⟨hnonneg, hsq⟩ := h 1 zero_le_one
  have hsquare : cfg.sqrt 1 * cfg.sqrt 1 = 1 * 1 := by rw [hsq, one_mul]
  exact (mul_self_inj hnonneg zero_le_one).mp hsquare

/-- Only the zero vector has no square. -/
theorem eq_replicate_of_squares {v : List S} (h : (v.map fun x => x * x).sum = 0) :
    v = List.replicate v.length 0 := by
  induction v with
  | nil => rfl
  | cons x v ih =>
    rw [List.map_cons, List.sum_cons] at h
    have hx := mul_self_nonneg x
    have hv := squares_nonneg v
    have hzero : x * x = 0 := by linarith
    rw [List.length_cons, List.replicate_succ, mul_self_eq_zero.mp hzero]
    exact congrArg (0 :: ·) (ih (by linarith))

omit [LinearOrder S] [IsStrictOrderedRing S] in
theorem squares_div (v : List S) (n : S) :
    ((v.map (· / n)).map fun x => x * x).sum = (v.map fun x => x * x).sum / (n * n) := by
  induction v with
  | nil => exact (zero_div _).symm
  | cons x v ih =>
    have hhead : x / n * (x / n) = x * x / (n * n) := div_mul_div_comm x n x n
    rw [List.map_cons, List.map_cons, List.sum_cons, ih, hhead, List.map_cons, List.sum_cons,
      add_div]

/-- Whatever the words cancel to, the embedding of a text is a unit vector. -/
theorem embedOne_unit (hsqrt : cfg.SquareRoots) (hdim : 1 ≤ cfg.settings.embeddingDim)
    (text : String) : UnitVector cfg (MockProvider.embedOne cfg text) := by
  unfold MockProvider.embedOne
  simp only
  generalize hv : (tokens cfg.platform text).foldl
    (MockProvider.addToken cfg.platform cfg.settings.embeddingDim)
      (List.replicate cfg.settings.embeddingDim (0 : S)) = v
  have hlength : v.length = cfg.settings.embeddingDim := by
    rw [← hv, length_addTokens, List.length_replicate]
  obtain ⟨-, hsq⟩ := hsqrt _ (squares_nonneg v)
  split
  · rename_i hzero
    rw [hzero, mul_zero] at hsq
    refine ⟨by rw [List.length_set, hlength], ?_⟩
    obtain ⟨n, hn⟩ : ∃ n, v.length = n + 1 := ⟨v.length - 1, by omega⟩
    rw [RetrievalService.norm, eq_replicate_of_squares hsq.symm, hn, List.replicate_succ,
      List.set_cons_zero]
    simp [hsqrt.one]
  · rename_i hne
    refine ⟨by rw [List.length_map, hlength], ?_⟩
    have hpos : cfg.sqrt (v.map fun x => x * x).sum * cfg.sqrt (v.map fun x => x * x).sum ≠ 0 :=
      mul_ne_zero hne hne
    rw [RetrievalService.norm, squares_div, hsq, div_self, hsqrt.one]
    rwa [hsq] at hpos

omit [LinearOrder S] [IsStrictOrderedRing S] in
theorem dot_self (v : List S) : dot v v = (v.map fun x => x * x).sum := by
  rw [dot, List.zipWith_self]

theorem cosine_self (hsqrt : cfg.SquareRoots) {v : List S} (h : RetrievalService.norm cfg v = 1) :
    cosine cfg v v = 1 := by
  obtain ⟨-, hsq⟩ := hsqrt _ (squares_nonneg v)
  have hsquares : (v.map fun x => x * x).sum = 1 := by
    rw [← hsq]
    change RetrievalService.norm cfg v * RetrievalService.norm cfg v = 1
    rw [h, one_mul]
  simp [cosine, h, dot_self, hsquares]

/-! A search for the text of a chunk -/

/-- The other chunks of the organization that match the query completely. -/
def equals (cfg : Config S) (organizationId : Uuid) (queryVec : List S)
    (chunks : List (DocumentChunk S)) (x : DocumentChunk S) : List (DocumentChunk S) :=
  chunks.filter fun d => d.organizationId == organizationId && d.id != x.id &&
    decide (cosine cfg queryVec d.embedding = 1)

/-- What a search for the text of chunk `x` returns. -/
structure FindsOwnText (cfg : Config S) (organizationId : Uuid) (topK : Nat)
    (chunks : List (DocumentChunk S)) (x : DocumentChunk S) (hits : List (RetrievedChunk S)) :
    Prop where
  units : ∀ d ∈ chunks, d.organizationId = organizationId → UnitVector cfg d.embedding
  scores : ∀ d ∈ chunks, -1 ≤ cosine cfg x.embedding d.embedding ∧
    cosine cfg x.embedding d.embedding ≤ 1
  scored : ∀ h ∈ hits, h.score = some (cosine cfg x.embedding h.chunk.embedding) ∧ h.chunk ∈ chunks
  first : ∃ h rest, hits = h :: rest ∧ h.score = some 1
  found : x ∈ hits.map RetrievedChunk.chunk ∨
    topK ≤ (equals cfg organizationId x.embedding chunks x).length

theorem findsOwnText_of_best {organizationId : Uuid} {threshold : S} {topK : Nat}
    {chunks : List (DocumentChunk S)} {x : DocumentChunk S} {hits : List (RetrievedChunk S)}
    (hsqrt : cfg.SquareRoots) (hids : (chunks.map (·.id)).Nodup)
    (hunits : ∀ d ∈ chunks, d.organizationId = organizationId → UnitVector cfg d.embedding)
    (hx : x ∈ chunks) (horg : x.organizationId = organizationId) (hthreshold : threshold ≤ 1)
    (htopK : 1 ≤ topK)
    (h : BestMatches cfg organizationId x.embedding threshold topK chunks hits) :
    FindsOwnText cfg organizationId topK chunks x hits := by
  have hbounds : ∀ v, -1 ≤ cosine cfg x.embedding v ∧ cosine cfg x.embedding v ≤ 1 :=
    fun v => abs_le.mp (abs_cosine_le hsqrt x.embedding v)
  have hself : cosine cfg x.embedding x.embedding = 1 := cosine_self hsqrt (hunits x hx horg).norm
  have hreach : threshold ≤ cosine cfg x.embedding x.embedding := by rwa [hself]
  have hout : x ∉ hits.map RetrievedChunk.chunk → hits.length = topK ∧
      ∀ h ∈ hits, cosine cfg x.embedding h.chunk.embedding = 1 := by
    intro hnot
    obtain ⟨hlength, hall⟩ := h.complete x hx horg hreach hnot
    refine ⟨hlength, fun y hy => le_antisymm (hbounds _).2 ?_⟩
    rw [← hself]
    exact hall y hy
  refine ⟨hunits, fun d _ => hbounds d.embedding, fun y hy => ⟨h.score y hy, (h.own y hy).1⟩, ?_, ?_⟩
  · cases hits with
    | nil =>
      have hlength := (hout List.not_mem_nil).1
      rw [List.length_nil] at hlength
      omega
    | cons y rest =>
      refine ⟨y, rest, rfl, ?_⟩
      have htop : cosine cfg x.embedding y.chunk.embedding = 1 := by
        by_cases hin : x ∈ (y :: rest).map RetrievedChunk.chunk
        · refine le_antisymm (hbounds _).2 ?_
          obtain ⟨z, hz, hzx⟩ := List.mem_map.mp hin
          rcases List.mem_cons.mp hz with rfl | hz
          · rw [hzx, hself]
          · have hsorted := List.rel_of_pairwise_cons h.sorted hz
            rwa [hzx, hself] at hsorted
        · exact (hout hin).2 y List.mem_cons_self
      rw [h.score y List.mem_cons_self, htop]
  · by_cases hin : x ∈ hits.map RetrievedChunk.chunk
    · exact Or.inl hin
    · right
      obtain ⟨hlength, hall⟩ := hout hin
      have hsubset : hits.map RetrievedChunk.chunk ⊆
          equals cfg organizationId x.embedding chunks x := by
        intro d hd
        obtain ⟨y, hy, rfl⟩ := List.mem_map.mp hd
        obtain ⟨hchunk, hown⟩ := h.own y hy
        have hne : y.chunk.id ≠ x.id := by
          intro hid
          have hsame := List.inj_on_of_nodup_map hids hchunk hx hid
          exact hin (hsame ▸ hd)
        refine List.mem_filter.mpr ⟨hchunk, ?_⟩
        simp [hown, hne, hall y hy]
      have hle := (h.distinct.subperm hsubset).length_le
      rwa [List.length_map, hlength] at hle

/-- A search for the text of a chunk, among chunks that the mock provider embedded. -/
theorem search_contentHits (cfg : Config S) (hsqrt : cfg.SquareRoots)
    (hdim : 1 ≤ cfg.settings.embeddingDim) (hmock : cfg.EmbedsOffline)
    (hdialect : cfg.dialect ≠ "postgresql") (organizationId : Uuid) (threshold : Option ℚ)
    (topK : Option Nat) (hthreshold : threshold.getD cfg.settings.similarityThreshold ≤ 1)
    (htopK : 1 ≤ topK.getD cfg.settings.retrievalTopK) {c : Nat} {w : World S}
    {env : Nat → Reply S} {σ : Session S} (hfault : (env 0).fault = none)
    (hingested : ∀ d ∈ (w.view c).documentChunks.rows, d.organizationId = organizationId →
      d.embedding = MockProvider.embedOne cfg d.content)
    {x : DocumentChunk S} (hx : x ∈ (w.view c).documentChunks.rows)
    (horg : x.organizationId = organizationId) :
    ∃ hits w' env', (search cfg organizationId x.content threshold topK σ).run
        (server cfg.platform) c env w = some ((.ok hits, σ), w', env') ∧
      FindsOwnText cfg organizationId (topK.getD cfg.settings.retrievalTopK)
        (w.view c).documentChunks.rows x hits := by
  have hunit := embedOne_unit hsqrt hdim
  have hembed : (embed cfg [x.content] σ).run (server cfg.platform) c env w =
      some ((.ok [x.embedding], σ), w, env) := by
    rw [embed_offline hmock, hingested x hx horg]
    rfl
  obtain ⟨hits, w', env', hrun, htop⟩ := search_run organizationId threshold topK hembed hfault
  rw [if_neg hdialect] at htop
  have hids := (w.view c).documentChunks.nodup
  have hcast : ((threshold.getD cfg.settings.similarityThreshold : ℚ) : S) ≤ 1 := by
    exact_mod_cast hthreshold
  refine ⟨hits, w', env', hrun, findsOwnText_of_best hsqrt hids (fun d hd hown => ?_) hx horg hcast
    htopK (bestMatches_of_top (List.Nodup.of_map _ hids) htop)⟩
  rw [hingested d hd hown]
  exact hunit d.content

/-- A passage is found by its own text, in an organization whose chunks the mock provider
embedded. -/
theorem search_ownText (cfg : Config S) (hsqrt : cfg.SquareRoots)
    (hdim : 1 ≤ cfg.settings.embeddingDim) (hmock : cfg.EmbedsOffline)
    (hdialect : cfg.dialect ≠ "postgresql") (organizationId : Uuid) (threshold : Option ℚ)
    (topK : Option Nat) (hthreshold : threshold.getD cfg.settings.similarityThreshold ≤ 1)
    (htopK : 1 ≤ topK.getD cfg.settings.retrievalTopK) {c : Nat} {w : World S}
    {env : Nat → Reply S} {σ : Session S} (hfault : (env 0).fault = none)
    (hingested : ∀ d ∈ (w.view c).documentChunks.rows, d.organizationId = organizationId →
      d.embedding = MockProvider.embedOne cfg d.content)
    {x : DocumentChunk S} (hx : x ∈ (w.view c).documentChunks.rows)
    (horg : x.organizationId = organizationId) :
    (∀ text, UnitVector cfg (MockProvider.embedOne cfg text)) ∧
    ∃ hits w' env', (search cfg organizationId x.content threshold topK σ).run
        (server cfg.platform) c env w = some ((.ok hits, σ), w', env') ∧
      FindsOwnText cfg organizationId (topK.getD cfg.settings.retrievalTopK)
        (w.view c).documentChunks.rows x hits := by
  exact ⟨embedOne_unit hsqrt hdim, search_contentHits cfg hsqrt hdim hmock hdialect organizationId
    threshold topK hthreshold htopK hfault hingested hx horg⟩

end

/-- The mock provider over the reals. -/
noncomputable def Config.realMock : Config ℝ := ⟨.plain, {}, "sqlite", false, false, Real.sqrt⟩

theorem Config.realMock_squareRoots : Config.realMock.SquareRoots := fun x hx =>
  ⟨Real.sqrt_nonneg x, Real.mul_self_sqrt hx⟩

/-- A chunk without any word of the tokenizer. -/
noncomputable def unspaced : DocumentChunk ℝ :=
  ⟨⟨4, 1⟩, ⟨0, 0⟩, ⟨4, 0⟩, 0, "重置密码", MockProvider.embedOne Config.realMock "重置密码"⟩

noncomputable def unspacedWorld : World ℝ :=
  { World.init with db := { (DB.empty : DB ℝ) with documentChunks := ⟨[unspaced], by simp⟩ } }

/-- It is found by its own text. -/
theorem unspaced_ownText : ∃ hits w' env', (search Config.realMock ⟨0, 0⟩ unspaced.content none none
      (.start 5)).run (server .plain) 5 (fun _ => ⟨none, 0, ⟨0, none⟩, 0, [], ⟨"", 0, 0, ""⟩, 200⟩)
        unspacedWorld = some ((.ok hits, .start 5), w', env') ∧
    FindsOwnText Config.realMock ⟨0, 0⟩ 5 (unspacedWorld.view 5).documentChunks.rows unspaced hits :=
  (search_ownText Config.realMock Config.realMock_squareRoots (by decide) ⟨by decide, by decide⟩
    (by decide) ⟨0, 0⟩ none none (by norm_num [Config.realMock]) (by decide) rfl
    (fun d hd _ => by rw [List.mem_singleton.mp hd]; rfl) (List.mem_singleton_self _) rfl).2

end AgentDesk
