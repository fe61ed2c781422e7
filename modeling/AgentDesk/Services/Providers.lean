import AgentDesk.Model.Config

namespace AgentDesk

variable {S : Type}

/-! The mock provider -/

namespace MockProvider

section Embedding

variable [Field S] [DecidableEq S]

/-- One step of the hashed bag of words. -/
def addToken (P : Platform) (dim : Nat) (vec : List S) (tok : String) : List S :=
  let h := P.sha256Word tok
  let sign : S := if (h / 256) % 2 = 1 then 1 else -1
  vec.modify (h % dim) (· + sign)

def embedOne (cfg : Config S) (text : String) : List S :=
  let dim := cfg.settings.embeddingDim
  let vec := (tokens cfg.platform text).foldl (addToken cfg.platform dim) (List.replicate dim 0)
  let norm := cfg.sqrt (vec.map fun v => v * v).sum
  if norm = 0 then vec.set 0 1 else vec.map (· / norm)

end Embedding

def complete (P : Platform) (prompt : String) (system : Option String) (context : String) :
    LLMResult :=
  let context := strip context
  let body :=
    if context ≠ "" then
      "Based on our documentation:\n\n" ++ context ++
        "\n\nPlease let us know if this resolves your issue."
    else
      "Thank you for reaching out. We are looking into your request and will follow up shortly."
  { text := body
    promptTokens := (tokens P prompt).length +
      match system with
      | none => 0
      | some s => if s = "" then 0 else (tokens P s).length
    completionTokens := (tokens P body).length
    model := "mock-1" }

end MockProvider

/-! Provider selection -/

def systemOr (system : Option String) : String :=
  match system with
  | none | some "" => "You are a helpful support assistant."
  | some s => s

/-- `not settings.openai_api_key`. -/
def missing (key : Option String) : Bool := (key.getD "").isEmpty

def openaiClient (cfg : Config S) : M S Unit :=
  if !cfg.openaiInstalled then
    M.raise (.runtime ("The 'openai' package is required for the OpenAI provider. " ++
      "Install it or use the mock provider."))
  else if missing cfg.settings.openaiApiKey then
    M.raise (.runtime "OPENAI_API_KEY is not configured.")
  else pure ()

def anthropicClient (cfg : Config S) : M S Unit :=
  if !cfg.anthropicInstalled then
    M.raise (.runtime ("The 'anthropic' package is required for LLM_PROVIDER=anthropic. " ++
      "Install it or use LLM_PROVIDER=mock."))
  else if missing cfg.settings.anthropicApiKey then
    M.raise (.runtime "ANTHROPIC_API_KEY is not configured.")
  else pure ()

/-- `get_llm_provider().complete(prompt, system=system, context=context)`. -/
def complete (cfg : Config S) (prompt : String) (system : Option String) (context : String) :
    M S LLMResult := do
  match cfg.platform.lower cfg.settings.llmProvider with
  | "anthropic" =>
    anthropicClient cfg
    let r ← chatCall
      { model := "claude-haiku-4-5-20251001", maxTokens := some 1024,
        system := some (systemOr system), messages := [("user", prompt)] }
    pure { r with model := "claude-haiku-4-5-20251001" }
  | "openai" =>
    openaiClient cfg
    let r ← chatCall
      { model := "gpt-4o-mini", maxTokens := none, system := none,
        messages := [("system", systemOr system), ("user", prompt)] }
    pure { r with model := "gpt-4o-mini" }
  | _ => pure (MockProvider.complete cfg.platform prompt system context)

/-- `get_embedding_provider().embed(texts)`. -/
def embed [Field S] [DecidableEq S] (cfg : Config S) (texts : List String) :
    M S (List (List S)) := do
  match cfg.platform.lower cfg.settings.embeddingProvider with
  | "openai" =>
    openaiClient cfg
    embedCall texts
  | "anthropic" =>
    M.raise (.runtime "Anthropic has no embeddings API; use EMBEDDING_PROVIDER=openai or mock.")
  | _ => pure (texts.map (MockProvider.embedOne cfg))

end AgentDesk
