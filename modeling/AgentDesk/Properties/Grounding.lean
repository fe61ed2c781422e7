import AgentDesk.Api.Jobs

namespace AgentDesk

variable {S : Type}

/-! The ends of a text -/

def trimStart (l : List Char) : List Char := l.dropWhile isSpace

def trimEnd (l : List Char) : List Char := (l.reverse.dropWhile isSpace).reverse

theorem toList_strip (s : String) : (strip s).toList = trimEnd (trimStart s.toList) :=
  String.toList_ofList

theorem trimStart_append {first : Bool} {P C : List Char} (S : List Char)
    (hP : first = false → ∃ c ∈ P, isSpace c = false)
    (hC : (if first then trimStart C else C) ≠ []) :
    ∃ P', trimStart (P ++ C ++ S) = P' ++ (if first then trimStart C else C) ++ S := by
  have hend : ∃ C₀, C = C₀ ++ (if first then trimStart C else C) := by
    cases first with
    | true => exact ⟨C.takeWhile isSpace, (List.takeWhile_append_dropWhile).symm⟩
    | false => exact ⟨[], rfl⟩
  by_cases hall : ∀ c ∈ P, isSpace c = true
  · cases first with
    | false =>
      obtain ⟨c, hc, hspace⟩ := hP rfl
      simp [hall c hc] at hspace
    | true =>
      refine ⟨[], ?_⟩
      have hne : (C.dropWhile isSpace).isEmpty = false := List.isEmpty_eq_false_iff.mpr hC
      rw [trimStart, List.append_assoc, List.dropWhile_append_of_pos hall, List.dropWhile_append,
        hne, if_neg Bool.false_ne_true, List.nil_append, if_pos rfl, trimStart]
  · obtain ⟨C₀, hC₀⟩ := hend
    have hne : (P.dropWhile isSpace).isEmpty = false := by
      rw [List.isEmpty_eq_false_iff, ne_eq, List.dropWhile_eq_nil_iff]
      exact hall
    refine ⟨trimStart P ++ C₀, ?_⟩
    rw [trimStart, List.append_assoc, List.dropWhile_append, hne, if_neg Bool.false_ne_true,
      trimStart, List.append_assoc, List.append_assoc, ← List.append_assoc C₀, ← hC₀]

theorem trimEnd_append {last : Bool} {C S : List Char} (P : List Char)
    (hS : last = false → ∃ c ∈ S, isSpace c = false)
    (hC : (if last then trimEnd C else C) ≠ []) :
    ∃ S', trimEnd (P ++ C ++ S) = P ++ (if last then trimEnd C else C) ++ S' := by
  have hrev : (if last then trimStart C.reverse else C.reverse) =
      (if last then trimEnd C else C).reverse := by
    cases last with
    | true => exact (List.reverse_reverse _).symm
    | false => rfl
  obtain ⟨S', hS'⟩ := @trimStart_append last S.reverse C.reverse P.reverse
    (by simpa using hS) (by rw [hrev, ne_eq, List.reverse_eq_nil_iff]; exact hC)
  refine ⟨S'.reverse, ?_⟩
  have hlist : (P ++ C ++ S).reverse = S.reverse ++ C.reverse ++ P.reverse := by
    simp [List.append_assoc]
  rw [trimEnd, hlist, ← trimStart, hS', hrev]
  simp [List.append_assoc]

/-- What is left of a passage when the outer white space of the joined passages
`before ++ content :: after` is dropped. -/
def keptPart (before : List String) (content : String) (after : List String) : List Char :=
  let start := if before.all isBlank then trimStart content.toList else content.toList
  if after.all isBlank then trimEnd start else start

theorem exists_not_space {parts : List String} (h : parts.all isBlank = false) :
    ∃ part ∈ parts, ∃ c ∈ part.toList, isSpace c = false := by
  obtain ⟨part, hpart, hblank⟩ := List.all_eq_false.mp h
  refine ⟨part, hpart, ?_⟩
  by_contra hnone
  refine hblank (beq_iff_eq.mpr ((strip_eq_empty part).mpr fun c hc => ?_))
  by_contra hc'
  exact hnone ⟨c, hc, by simpa using hc'⟩

theorem subset_intercalate (sep : String) {parts : List String} {part : String}
    (h : part ∈ parts) : ∀ c ∈ part.toList, c ∈ (sep.intercalate parts).toList := by
  intro c hc
  induction parts with
  | nil => cases h
  | cons p parts ih =>
    by_cases hne : parts = []
    · subst hne
      obtain rfl := List.mem_singleton.mp h
      rwa [String.intercalate_singleton]
    · rw [String.intercalate_cons_of_ne_nil hne, String.toList_append, List.mem_append]
      obtain rfl | h := List.mem_cons.mp h
      · exact .inl (by simp [hc])
      · exact .inr (ih h)

theorem intercalate_cons_split (sep content : String) (after : List String) : ∃ S,
    (sep.intercalate (content :: after)).toList = content.toList ++ S ∧
      ∀ part ∈ after, ∀ c ∈ part.toList, c ∈ S := by
  by_cases hne : after = []
  · subst hne
    exact ⟨[], by simp, by simp⟩
  · refine ⟨sep.toList ++ (sep.intercalate after).toList, ?_, fun part hpart c hc => ?_⟩
    · rw [String.intercalate_cons_of_ne_nil hne, String.toList_append, String.toList_append,
        List.append_assoc]
    · exact List.mem_append_right _ (subset_intercalate sep hpart c hc)

theorem intercalate_split (sep : String) (before : List String) (content : String)
    (after : List String) : ∃ P S,
    (sep.intercalate (before ++ content :: after)).toList = P ++ content.toList ++ S ∧
      (∀ part ∈ before, ∀ c ∈ part.toList, c ∈ P) ∧ ∀ part ∈ after, ∀ c ∈ part.toList, c ∈ S := by
  obtain ⟨S, hS, hafter⟩ := intercalate_cons_split sep content after
  by_cases hne : before = []
  · subst hne
    exact ⟨[], S, hS, by simp, hafter⟩
  · refine ⟨(sep.intercalate before).toList ++ sep.toList, S, ?_, fun part hpart c hc => ?_, hafter⟩
    · rw [String.intercalate_append_of_ne_nil hne (by simp), String.toList_append,
        String.toList_append, hS, List.append_assoc (_ ++ _)]
    · exact List.mem_append_left _ (subset_intercalate sep hpart c hc)

/-- The passage is found in the stripped join. -/
theorem keptPart_within (sep : String) (before : List String) (content : String)
    (after : List String) : keptPart before content after <:+:
      (strip (sep.intercalate (before ++ content :: after))).toList := by
  obtain ⟨P, S, hjoin, hbefore, hafter⟩ := intercalate_split sep before content after
  rw [toList_strip, hjoin]
  by_cases hempty : keptPart before content after = []
  · rw [hempty]
    exact List.nil_infix
  · have hstart : (if before.all isBlank then trimStart content.toList else content.toList) ≠ [] := by
      intro h
      refine hempty ?_
      rw [keptPart, h]
      exact ite_self _
    obtain ⟨P', hP'⟩ := @trimStart_append (before.all isBlank) P content.toList S (fun h => by
      obtain ⟨part, hpart, c, hc, hspace⟩ := exists_not_space h
      exact ⟨c, hbefore part hpart c hc, hspace⟩) hstart
    obtain ⟨S', hS'⟩ := @trimEnd_append (after.all isBlank) _ S P' (fun h => by
      obtain ⟨part, hpart, c, hc, hspace⟩ := exists_not_space h
      exact ⟨c, hafter part hpart c hc, hspace⟩) hempty
    rw [hP', hS']
    exact ⟨P', S', rfl⟩

/-! What the model is shown -/

/-- The texts that a call of a node puts before the model: those of the chat request that it
makes, or the reply that the mock provider generates from them. -/
def presented : Framework.Program (Op S) Res (Except Err AgentState × Session S) →
    Option (List String)
  | .call (.chat request) _ => some (request.system.toList ++ request.messages.map Prod.snd)
  | .ret (.ok state, _) => state.draft.map fun draft => [draft]
  | _ => none

/-- Each of the passages is found in one of the texts, up to the outer white space of their join. -/
def Shows (texts contents : List String) : Prop :=
  ∀ before content after, contents = before ++ content :: after →
    ∃ text ∈ texts, keptPart before content after <:+: text.toList

/-- What `draft_node` says to a model of its own accord: its instruction and the ticket. -/
def ticketTexts (state : AgentState) : List String :=
  ["You are a careful support agent. Only use the provided context.",
    "Ticket: " ++ state.ticketTitle ++ "\nDetails: " ++ state.ticketDescription ++
      "\nWrite a helpful support reply grounded in the provided context."]

def retrievedContents (state : AgentState) : List String :=
  (state.retrieved.getD []).map RetrievedRef.content

namespace Config

/-- The factory falls back to the mock provider. -/
def Mocked (cfg : Config S) : Prop :=
  cfg.platform.lower cfg.settings.llmProvider ≠ "anthropic" ∧
    cfg.platform.lower cfg.settings.llmProvider ≠ "openai"

/-- The SDK of the selected vendor is installed, and its key is set. -/
structure LlmReady (cfg : Config S) : Prop where
  anthropic : cfg.platform.lower cfg.settings.llmProvider = "anthropic" →
    cfg.anthropicInstalled = true ∧ missing cfg.settings.anthropicApiKey = false
  openai : cfg.platform.lower cfg.settings.llmProvider = "openai" →
    cfg.openaiInstalled = true ∧ missing cfg.settings.openaiApiKey = false

end Config

theorem presented_vendor {cfg : Config S} (hready : cfg.LlmReady) (hmock : ¬cfg.Mocked)
    (state : AgentState) (σ : Session S) :
    presented (Agent.draftNode cfg state σ) = some (ticketTexts state) := by
  by_cases hanthropic : cfg.platform.lower cfg.settings.llmProvider = "anthropic"
  · obtain ⟨hinstalled, hkey⟩ := hready.anthropic hanthropic
    simp [Agent.draftNode, complete, hanthropic, anthropicClient, hinstalled, hkey]
    rfl
  · have hopenai : cfg.platform.lower cfg.settings.llmProvider = "openai" := by
      by_contra h
      exact hmock ⟨hanthropic, h⟩
    obtain ⟨hinstalled, hkey⟩ := hready.openai hopenai
    simp [Agent.draftNode, complete, hopenai, openaiClient, hinstalled, hkey]
    rfl

theorem complete_mock {cfg : Config S} (hmock : cfg.Mocked) (prompt : String)
    (system : Option String) (context : String) : complete cfg prompt system context =
      pure (MockProvider.complete cfg.platform prompt system context) := by
  rw [complete]
  split
  · exact absurd ‹_› hmock.1
  · exact absurd ‹_› hmock.2
  · rfl

theorem presented_mock {cfg : Config S} (hmock : cfg.Mocked) (state : AgentState)
    (σ : Session S) : ∃ prompt system, presented (Agent.draftNode cfg state σ) =
      some [(MockProvider.complete cfg.platform prompt system
        ("\n\n".intercalate (retrievedContents state))).text] := by
  rw [Agent.draftNode, complete_mock hmock]
  exact ⟨_, _, rfl⟩

theorem shows_mock (P : Platform) (prompt : String) (system : Option String)
    (contents : List String) :
    Shows [(MockProvider.complete P prompt system ("\n\n".intercalate contents)).text] contents := by
  rintro before content after rfl
  refine ⟨_, List.mem_singleton_self _, ?_⟩
  refine (keptPart_within "\n\n" before content after).trans ?_
  simp only [MockProvider.complete]
  split
  · simp only [String.toList_append]
    exact ⟨_, _, rfl⟩
  · rename_i h
    rw [not_not] at h
    rw [h]
    exact List.nil_infix

/-- The model is shown the retrieved passages exactly when the mock provider is selected, or the
ticket's own text and the instruction hold them already. -/
theorem draftNode_shows (cfg : Config S) (hready : cfg.LlmReady) (state : AgentState)
    (σ : Session S) : ∃ texts, presented (Agent.draftNode cfg state σ) = some texts ∧
      (Shows texts (retrievedContents state) ↔
        cfg.Mocked ∨ Shows (ticketTexts state) (retrievedContents state)) := by
  by_cases hmock : cfg.Mocked
  · obtain ⟨prompt, system, htexts⟩ := presented_mock hmock state σ
    exact ⟨_, htexts, fun _ => .inl hmock, fun _ => shows_mock _ _ _ _⟩
  · exact ⟨_, presented_vendor hready hmock state σ, .inr, fun h => h.resolve_left hmock⟩

/-- A deployment that asks OpenAI. -/
def Config.openai : Config ℚ :=
  { Config.plain with
    openaiInstalled := true
    settings := { llmProvider := "openai", openaiApiKey := some "key" } }

/-- A ticket for which one passage was found. -/
def resetState : AgentState where
  organizationId := ⟨0, 0⟩
  ticketTitle := "login"
  ticketDescription := "I cannot log in"
  retrieved := some [⟨"1", "1", "Use the reset link.", 1⟩]

theorem openai_ready : Config.openai.LlmReady :=
  ⟨fun h => absurd h (by decide), fun _ => ⟨rfl, by decide⟩⟩

/-- OpenAI is told to use the provided context, and never gets the passage. -/
theorem resetState_notShown : ∃ texts,
    presented (Agent.draftNode .openai resetState (.start 0)) = some texts ∧
      ¬Shows texts (retrievedContents resetState) := by
  refine ⟨_, presented_vendor openai_ready (fun h => h.2 rfl) resetState (.start 0), fun h => ?_⟩
  obtain ⟨text, htext, hinfix⟩ := h [] "Use the reset link." [] rfl
  revert hinfix
  revert text
  decide +kernel

theorem resetState_shows : ∃ texts,
    presented (Agent.draftNode .openai resetState (.start 0)) = some texts ∧
      (Shows texts (retrievedContents resetState) ↔
        Config.openai.Mocked ∨ Shows (ticketTexts resetState) (retrievedContents resetState)) :=
  draftNode_shows .openai openai_ready resetState (.start 0)

end AgentDesk
