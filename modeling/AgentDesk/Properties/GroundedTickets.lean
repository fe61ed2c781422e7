import AgentDesk.Logic.Wording
import AgentDesk.Properties.Confidence
import AgentDesk.Properties.Ingestion
import AgentDesk.Properties.OwnText

namespace AgentDesk

open RetrievalService (RetrievedChunk search)

variable {S : Type} {cfg : Config S} {P : Platform}

/-! Retrieved passages and the reply that the mock provider makes of them -/

theorem mem_chunkText {text x : String} {size overlap : Nat} (hsize : 1 ≤ size)
    (hx : x ∈ DocumentService.chunkText text size overlap) :
    ∃ ws : List String, ws ≠ [] ∧ (∀ w ∈ ws, w ∈ words text) ∧ x = " ".intercalate ws := by
  by_cases hne : words text = []
  · have hnil : DocumentService.chunkText text size overlap = [] := by
      rw [DocumentService.chunkText]
      exact if_pos (by rw [← words, hne]; rfl)
    rw [hnil] at hx
    cases hx
  · obtain ⟨chunks, hslides, hchunks⟩ := chunkText_slides text overlap hsize hne
    rw [hchunks] at hx
    obtain ⟨ws, hws, rfl⟩ := List.mem_map.mp hx
    refine ⟨ws, ?_, ?_, rfl⟩
    · rintro rfl
      have hlength := (hslides.bounds hsize [] hws).1
      rw [List.length_nil] at hlength
      omega
    · intro w hw
      obtain ⟨k, hk⟩ := List.getElem?_of_mem hws
      rw [hslides.window_eq k ws hk] at hw
      exact List.mem_of_mem_drop (List.mem_of_mem_take hw)

/-- A chunk of a document neither begins nor ends with white space. -/
theorem tight_of_chunk {text x : String} (hx : x ∈ chunksOf text) : Tight x := by
  obtain ⟨ws, hne, hws, rfl⟩ := mem_chunkText (by decide) hx
  refine tight_intercalate " " hne fun w hw => ?_
  obtain ⟨hword, hchars⟩ := mem_runs w (hws w hw)
  exact tight_word hword fun c hc => by simpa using hchars c hc

theorem complete_text (P : Platform) (prompt : String) (system : Option String) {context : String}
    (h : strip context ≠ "") : (MockProvider.complete P prompt system context).text =
      "Based on our documentation:" ++ "\n\n" ++ strip context ++
        "\n\n" ++ "Please let us know if this resolves your issue." := by
  have hopen : "Based on our documentation:\n\n" = "Based on our documentation:" ++ "\n\n" := by
    decide
  have hclose : "\n\nPlease let us know if this resolves your issue." =
      "\n\n" ++ "Please let us know if this resolves your issue." := by decide
  unfold MockProvider.complete
  simp only
  rw [if_pos h, hopen, hclose]
  exact String.append_assoc.symm

/-- The reply uses every word of the passages. -/
theorem tokens_reply (h : P.LowersEach) (prompt : String) (system : Option String)
    (context : String) : ∀ tok ∈ tokens P context,
      tok ∈ tokens P (MockProvider.complete P prompt system context).text := by
  have hne : "\n\n".toList ≠ [] := by decide
  have hsep : ∀ c ∈ "\n\n".toList, isSpace c = true := List.all_eq_true.mp (by decide)
  intro tok htok
  rw [← tokens_strip h] at htok
  have hcontext : strip context ≠ "" := by
    intro hnil
    rw [hnil, tokens_eq h, String.toList_empty] at htok
    cases htok
  rw [complete_text P prompt system hcontext, tokens_gap h hne hsep, tokens_gap h hne hsep]
  exact List.mem_append_left _ (List.mem_append_right _ htok)

theorem shown_reply (prompt : String) (system : Option String) {context : String}
    (h : Tight context) :
    context.toList <:+: (MockProvider.complete P prompt system context).text.toList := by
  have hne : strip context ≠ "" := by
    obtain ⟨c, l, hfirst, -⟩ := h.first
    rw [strip_tight h]
    rintro rfl
    cases hfirst
  rw [complete_text P prompt system hne, strip_tight h]
  simp only [String.toList_append, List.append_assoc]
  rw [← List.append_assoc]
  exact ⟨_, _, List.append_assoc _ _ _⟩

/-! What the critic makes of them -/

/-- The reply shows the retrieved passages, covers all their words, and goes to a human. -/
structure PutBeforeHuman (P : Platform) (state : AgentState) : Prop where
  shown : ("\n\n".intercalate (retrievedContents state)).toList <:+:
    (state.draft.getD "").toList
  overlap : Agent.overlap P state = 1
  outcome : state.outcome = some "waiting_approval"

theorem mem_contextTokens (h : P.LowersEach) (state : AgentState) (tok : String) :
    tok ∈ Agent.contextTokens P state ↔
      ∃ content ∈ retrievedContents state, tok ∈ tokens P content := by
  have hne : " ".toList ≠ [] := by decide
  have hsep : ∀ c ∈ " ".toList, isSpace c = true := List.all_eq_true.mp (by decide)
  rw [Agent.contextTokens, List.mem_dedup, tokens_intercalate h hne hsep, List.mem_flatMap]
  rfl

theorem overlap_none {state : AgentState} (h : Agent.contextTokens P state = []) :
    Agent.overlap P state = 0 := by
  rw [Agent.overlap, h]
  exact if_pos rfl

theorem overlap_all {state : AgentState} (hne : Agent.contextTokens P state ≠ [])
    (h : ∀ tok ∈ Agent.contextTokens P state, tok ∈ Agent.replyTokens P state) :
    Agent.overlap P state = 1 := by
  have hall : (Agent.contextTokens P state).filter ((Agent.replyTokens P state).contains ·) =
      Agent.contextTokens P state :=
    List.filter_eq_self.mpr fun tok htok => by simpa using h tok htok
  have hlength : ((Agent.contextTokens P state).length : ℚ) ≠ 0 := by
    rw [Nat.cast_ne_zero]
    exact fun hzero => hne (List.length_eq_zero_iff.mp hzero)
  rw [Agent.overlap, if_neg (by simpa using hne), hall, div_self hlength]

section

variable [Field S] [LinearOrder S] [FloorRing S]

variable {c : Nat} {w w₁ : World S} {env env₁ : Nat → Reply S} {σ σ₁ : Session S}
  {hits : List (RetrievedChunk S)}

/-- After the retrieval nothing stops a run with the mock provider, which drafts from the
retrieved passages. -/
theorem runWorkflow_of_search (hmock : cfg.Mocked) {initial : AgentState}
    (hsearch : (search cfg initial.organizationId (Agent.ticketText initial) none none σ).run
      (server cfg.platform) c env w = some ((.ok hits, σ₁), w₁, env₁)) :
    ∃ state prompt system, (Agent.runWorkflow cfg initial σ).run (server cfg.platform) c env w =
        some ((.ok (Agent.decisionNode cfg (Agent.criticNode cfg.platform state)), σ₁), w₁, env₁) ∧
      state.retrieved = some (hits.map refOf) ∧
      state.draft = some (MockProvider.complete cfg.platform prompt system
        ("\n\n".intercalate (retrievedContents state))).text := by
  have hretrieved : (search cfg (Agent.classifierNode cfg.platform initial).organizationId
      (Agent.ticketText (Agent.classifierNode cfg.platform initial)) none none σ).run
        (server cfg.platform) c env w = some ((.ok hits, σ₁), w₁, env₁) := hsearch
  refine ⟨?_, ?_, ?_, ?_, ?_, ?_⟩
  rotate_left 3
  · simp only [Agent.runWorkflow, Agent.retrieverNode, Agent.draftNode, complete_mock hmock,
      M.bind_apply, M.pure_apply, Framework.Program.run_bind, hretrieved, Option.bind_some,
      Framework.Program.run_ret]
    rfl
  · rfl
  · rfl

variable [IsStrictOrderedRing S] {organizationId : Uuid} {queryVec : List S}
  {chunks : List (DocumentChunk S)} {state : AgentState}

omit [FloorRing S] in
theorem half_le_trueTop (hsimilarity : cfg.settings.similarityThreshold = 1 / 2)
    (hfound : hits ≠ []) (hpassages : Passages cfg organizationId queryVec chunks hits) :
    1 / 2 ≤ trueTop cfg queryVec hits := by
  cases hits with
  | nil => exact absurd rfl hfound
  | cons x hits =>
    have hreach := hpassages.reach x List.mem_cons_self
    rw [hsimilarity] at hreach
    push_cast at hreach
    exact hreach.trans (le_foldl_max _ _)

/-- A reply that covers the words of the passages reaches the threshold. -/
theorem outcome_of_overlap (hsqrt : cfg.SquareRoots)
    (hsimilarity : cfg.settings.similarityThreshold = 1 / 2)
    (hconfidence : cfg.settings.confidenceThreshold = 7 / 10) (hfound : hits ≠ [])
    (h : Graded cfg hits state) (hpassages : Passages cfg organizationId queryVec chunks hits)
    (hoverlap : Agent.overlap cfg.platform state = 1) : state.outcome = some "waiting_approval" := by
  have hhalf : roundTo 6 (1 / 2 : S) = 1 / 2 := by
    have hexact := roundTo_exact (S := S) 6 500000
    norm_num at hexact
    norm_num
    exact hexact
  have hquarters : roundTo 6 (3 / 4 : ℚ) = 3 / 4 := by
    have hexact := roundTo_exact (S := ℚ) 6 750000
    norm_num at hexact
    norm_num
    exact hexact
  have htop := roundTo_mono 6 (half_le_trueTop hsimilarity hfound hpassages)
  rw [hhalf] at htop
  have hscore : 3 / 4 ≤ criticScore cfg queryVec hits 1 := by
    rw [criticScore, if_neg (by simpa using hfound)]
    linarith
  have hrounded := roundTo_mono 6 hscore
  rw [hquarters] at hrounded
  have hq := h.confidence_eq hpassages hsqrt (by rw [hsimilarity]; norm_num)
  rw [h.outcome _ hq, hoverlap, hconfidence, if_pos (by linarith)]

/-- A reply that covers none of them does not. -/
theorem outcome_of_none (hsqrt : cfg.SquareRoots)
    (hsimilarity : cfg.settings.similarityThreshold = 1 / 2)
    (hconfidence : cfg.settings.confidenceThreshold = 7 / 10) (h : Graded cfg hits state)
    (hpassages : Passages cfg organizationId queryVec chunks hits)
    (hoverlap : Agent.overlap cfg.platform state = 0) : state.outcome = some "escalated" := by
  have hhalf : roundTo 6 (1 / 2 : ℚ) = 1 / 2 := by
    have hexact := roundTo_exact (S := ℚ) 6 500000
    norm_num at hexact
    norm_num
    exact hexact
  have hthreshold : 0 ≤ cfg.settings.similarityThreshold := by rw [hsimilarity]; norm_num
  have hbound := (hpassages.criticScore_bounds hsqrt hthreshold le_rfl).2
  have hrounded := roundTo_mono 6 hbound
  rw [mul_zero, add_zero, hhalf] at hrounded
  have hq := h.confidence_eq hpassages hsqrt hthreshold
  rw [h.outcome _ hq, hoverlap, hconfidence, if_neg (by linarith)]

/-- Words of the tokenizer in the passages decide between a human's approval and an escalation. -/
theorem runWorkflow_words (hsqrt : cfg.SquareRoots) (hmock : cfg.Mocked)
    (hlower : cfg.platform.LowersEach)
    (hsimilarity : cfg.settings.similarityThreshold = 1 / 2)
    (hconfidence : cfg.settings.confidenceThreshold = 7 / 10)
    (hknowledge : ∀ d ∈ (w.view c).documentChunks.rows, ∃ text, d.content ∈ chunksOf text)
    (initial : AgentState)
    (hsearch : (search cfg initial.organizationId (Agent.ticketText initial) none none σ).run
      (server cfg.platform) c env w = some ((.ok hits, σ₁), w₁, env₁)) (hfound : hits ≠ []) :
    ∃ state, (Agent.runWorkflow cfg initial σ).run (server cfg.platform) c env w =
        some ((.ok state, σ₁), w₁, env₁) ∧
      retrievedContents state = hits.map (fun h => h.chunk.content) ∧
      ((∃ h ∈ hits, tokens cfg.platform h.chunk.content ≠ []) → PutBeforeHuman cfg.platform state) ∧
      ((∀ h ∈ hits, tokens cfg.platform h.chunk.content = []) →
        Agent.overlap cfg.platform state = 0 ∧ state.outcome = some "escalated") := by
  obtain ⟨drafted, prompt, system, hrun, hretrieved, hdraft⟩ := runWorkflow_of_search hmock hsearch
  obtain ⟨queryVec, rest, σ₂, w₂, env₂, -, hpassages⟩ := search_passages hsearch
  have hgraded := @graded_of_critic S cfg _ _ _ hits drafted hretrieved
  obtain ⟨hsame, hreply⟩ := Agent.criticNode_inputs cfg.platform drafted
  refine ⟨_, hrun, ?_⟩
  generalize hstate : Agent.decisionNode cfg (Agent.criticNode cfg.platform drafted) = state at *
  have hcontents : retrievedContents state = retrievedContents drafted := by
    rw [← hstate, retrievedContents, retrievedContents, ← hsame]
    rfl
  have htext : state.draft = some (MockProvider.complete cfg.platform prompt system
      ("\n\n".intercalate (retrievedContents state))).text := by
    rw [hcontents, ← hdraft, ← hreply, ← hstate]
    rfl
  have hpassage : retrievedContents state = hits.map fun h => h.chunk.content := by
    rw [hcontents, retrievedContents, hretrieved, Option.getD_some, List.map_map]
    rfl
  have hwords : Agent.contextTokens cfg.platform state ≠ [] ↔
      ∃ h ∈ hits, tokens cfg.platform h.chunk.content ≠ [] := by
    constructor
    · intro hne
      obtain ⟨tok, htok⟩ := List.exists_mem_of_ne_nil _ hne
      obtain ⟨content, hcontent, htok⟩ := (mem_contextTokens hlower state tok).mp htok
      rw [hpassage] at hcontent
      obtain ⟨h, hh, rfl⟩ := List.mem_map.mp hcontent
      exact ⟨h, hh, List.ne_nil_of_mem htok⟩
    · rintro ⟨h, hh, hne⟩
      obtain ⟨tok, htok⟩ := List.exists_mem_of_ne_nil _ hne
      refine List.ne_nil_of_mem ((mem_contextTokens hlower state tok).mpr ⟨_, ?_, htok⟩)
      rw [hpassage]
      exact List.mem_map_of_mem hh
  refine ⟨hpassage, fun hsome => ?_, fun hnone => ?_⟩
  · have hall : Agent.overlap cfg.platform state = 1 := by
      refine overlap_all (hwords.mpr hsome) fun tok htok => ?_
      rw [Agent.replyTokens, htext, Option.getD_some]
      refine tokens_reply hlower prompt system _ tok ?_
      obtain ⟨content, hcontent, htok⟩ := (mem_contextTokens hlower state tok).mp htok
      rw [tokens_intercalate hlower (by decide) (List.all_eq_true.mp (by decide)), List.mem_flatMap]
      exact ⟨content, hcontent, htok⟩
    refine ⟨?_, hall, outcome_of_overlap hsqrt hsimilarity hconfidence hfound hgraded hpassages hall⟩
    rw [htext, Option.getD_some]
    refine shown_reply prompt system (tight_intercalate "\n\n" ?_ fun content hcontent => ?_)
    · rw [hpassage]
      simpa using hfound
    · rw [hpassage] at hcontent
      obtain ⟨h, hh, rfl⟩ := List.mem_map.mp hcontent
      obtain ⟨text, hchunk⟩ := hknowledge h.chunk (hpassages.own h hh).1
      exact tight_of_chunk hchunk
  · have hcontext : Agent.contextTokens cfg.platform state = [] := by
      by_contra hne
      obtain ⟨h, hh, htok⟩ := hwords.mp hne
      exact htok (hnone h hh)
    have hzero := overlap_none hcontext
    exact ⟨hzero, outcome_of_none hsqrt hsimilarity hconfidence hgraded hpassages hzero⟩

/-- With the mock provider and the default thresholds, a run that has found passages shows them,
covers their words and puts the ticket before a human exactly when one of them has a word of the
tokenizer. -/
theorem runWorkflow_putBeforeHuman (hsqrt : cfg.SquareRoots) (hmock : cfg.Mocked)
    (hlower : cfg.platform.LowersEach)
    (hsimilarity : cfg.settings.similarityThreshold = 1 / 2)
    (hconfidence : cfg.settings.confidenceThreshold = 7 / 10)
    (hknowledge : ∀ d ∈ (w.view c).documentChunks.rows, ∃ text, d.content ∈ chunksOf text)
    (initial : AgentState)
    (hsearch : (search cfg initial.organizationId (Agent.ticketText initial) none none σ).run
      (server cfg.platform) c env w = some ((.ok hits, σ₁), w₁, env₁)) (hfound : hits ≠ []) :
    ∃ state, (Agent.runWorkflow cfg initial σ).run (server cfg.platform) c env w =
        some ((.ok state, σ₁), w₁, env₁) ∧
      retrievedContents state = hits.map (fun h => h.chunk.content) ∧
      (PutBeforeHuman cfg.platform state ↔
        ∃ h ∈ hits, tokens cfg.platform h.chunk.content ≠ []) := by
  obtain ⟨state, hrun, hcontents, hsome, hnone⟩ := runWorkflow_words hsqrt hmock hlower hsimilarity
    hconfidence hknowledge initial hsearch hfound
  refine ⟨state, hrun, hcontents, fun hput => ?_, hsome⟩
  by_contra hwords
  have hzero := (hnone fun h hh => by
    by_contra hne
    exact hwords ⟨h, hh, hne⟩).1
  rw [hput.overlap] at hzero
  exact one_ne_zero hzero

end

/-! A knowledge base of one passage -/

/-- The knowledge base of an organization whose one document is this passage. -/
noncomputable def passageWorld (content : String) : World ℝ :=
  { World.init with db := { (DB.empty : DB ℝ) with documentChunks := ⟨[⟨⟨4, 1⟩, ⟨0, 0⟩, ⟨4, 0⟩, 0,
      content, MockProvider.embedOne Config.realMock content⟩], by simp⟩ } }

/-- A ticket whose text is the passage. -/
def ticketOn (title description : String) : AgentState where
  organizationId := ⟨0, 0⟩
  ticketTitle := title
  ticketDescription := description

theorem passageWorld_found (title description : String) : ∃ hits w' env',
    (search Config.realMock ⟨0, 0⟩ (title ++ " " ++ description) none none (.start 5)).run
        (server .plain) 5 (fun _ => .real) (passageWorld (title ++ " " ++ description)) =
      some ((.ok hits, .start 5), w', env') ∧
    hits ≠ [] ∧ ∀ h ∈ hits, h.chunk.content = title ++ " " ++ description := by
  have hfault : ((fun _ => Reply.real : Nat → Reply ℝ) 0).fault = none := rfl
  have hingested : ∀ d ∈ ((passageWorld (title ++ " " ++ description)).view 5).documentChunks.rows,
      d.organizationId = ⟨0, 0⟩ → d.embedding = MockProvider.embedOne Config.realMock d.content := by
    intro d hd _
    rw [List.mem_singleton.mp hd]
  obtain ⟨hits, w', env', hrun, hfinds⟩ := @search_contentHits ℝ _ _ _ Config.realMock
    Config.realMock_squareRoots (by decide) ⟨by decide, by decide⟩ (by decide) ⟨0, 0⟩ none none
    (by norm_num [Config.realMock]) (by decide) 5 (passageWorld (title ++ " " ++ description))
    (fun _ => .real) (.start 5) hfault hingested _ (List.mem_singleton_self _) rfl
  refine ⟨hits, w', env', hrun, ?_, fun h hh => ?_⟩
  · obtain ⟨h, rest, hcons, -⟩ := hfinds.first
    rw [hcons]
    exact List.cons_ne_nil h rest
  · rw [List.mem_singleton.mp (hfinds.scored h hh).2]

theorem passageWorld_knowledge {content : String} (h : content ∈ chunksOf content) :
    ∀ d ∈ ((passageWorld content).view 5).documentChunks.rows, ∃ text, d.content ∈ chunksOf text := by
  intro d hd
  refine ⟨content, ?_⟩
  rw [List.mem_singleton.mp hd]
  exact h

/-- The reply to a ticket about the password goes to a human. -/
theorem resetTicket_putBeforeHuman : ∃ state w' env',
    (Agent.runWorkflow Config.realMock (ticketOn "reset" "password") (.start 5)).run
        (server .plain) 5 (fun _ => .real) (passageWorld "reset password") =
      some ((.ok state, .start 5), w', env') ∧ PutBeforeHuman .plain state := by
  have hchunk : "reset password" ∈ chunksOf "reset password" := by decide
  obtain ⟨hits, w', env', hsearch, hfound, hcontents⟩ := passageWorld_found "reset" "password"
  obtain ⟨state, hrun, -, hput⟩ := runWorkflow_putBeforeHuman Config.realMock_squareRoots
    ⟨by decide, by decide⟩ Platform.plain_lowersEach rfl rfl
    (passageWorld_knowledge hchunk) (ticketOn "reset" "password") hsearch hfound
  obtain ⟨h, hh⟩ := List.exists_mem_of_ne_nil _ hfound
  refine ⟨state, w', env', hrun, hput.mpr ⟨h, hh, ?_⟩⟩
  rw [hcontents h hh]
  decide

/-- The passage is found and the reply shows it, but it has no word of the tokenizer, and the
ticket is escalated. -/
theorem unspacedTicket_escalated : ∃ state w' env',
    (Agent.runWorkflow Config.realMock (ticketOn "密码" "重置") (.start 5)).run
        (server .plain) 5 (fun _ => .real) (passageWorld "密码 重置") =
      some ((.ok state, .start 5), w', env') ∧ retrievedContents state ≠ [] ∧
    state.outcome = some "escalated" ∧ ¬PutBeforeHuman .plain state := by
  have hchunk : "密码 重置" ∈ chunksOf "密码 重置" := by decide
  obtain ⟨hits, w', env', hsearch, hfound, hcontents⟩ := passageWorld_found "密码" "重置"
  obtain ⟨state, hrun, hretrieved, -, hnone⟩ := runWorkflow_words Config.realMock_squareRoots
    ⟨by decide, by decide⟩ Platform.plain_lowersEach rfl rfl
    (passageWorld_knowledge hchunk) (ticketOn "密码" "重置") hsearch hfound
  have hescalated := hnone fun h hh => by
    rw [hcontents h hh]
    decide
  refine ⟨state, w', env', hrun, ?_, hescalated.2, fun hput => ?_⟩
  · rw [hretrieved]
    simpa using hfound
  · have hzero := hescalated.1
    rw [show Config.realMock.platform = .plain from rfl, hput.overlap] at hzero
    exact one_ne_zero hzero

end AgentDesk
