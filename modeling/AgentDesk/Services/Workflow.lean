import AgentDesk.Services.Retrieval
import Mathlib.Data.List.MinMax

namespace AgentDesk

variable {S : Type}

structure RetrievedRef where
  chunkId : String
  documentId : String
  content : String
  score : ℚ

/-- `AgentState`; the entries after the inputs may be absent. -/
structure AgentState where
  organizationId : Uuid
  ticketTitle : String
  ticketDescription : String
  classification : Option Classification := none
  suggestedType : Option String := none
  suggestedPriority : Option String := none
  retrieved : Option (List RetrievedRef) := none
  retrievalHit : Option Bool := none
  draft : Option String := none
  model : Option String := none
  promptTokens : Option Nat := none
  completionTokens : Option Nat := none
  confidence : Option ℚ := none
  outcome : Option String := none

namespace Agent

/-- `_TYPE_KEYWORDS`. -/
def typeKeywords : List (String × List String) :=
  [("billing", ["billing", "invoice", "payment", "refund", "charge", "subscription", "price"]),
    ("technical", ["error", "bug", "crash", "broken", "fail", "login", "password", "reset"]),
    ("account", ["account", "profile", "settings", "email", "username", "permission"])]

/-- `_URGENT_WORDS`. -/
def urgentWords : List String := ["urgent", "asap", "immediately", "critical", "outage", "down"]

def ticketText (state : AgentState) : String := state.ticketTitle ++ " " ++ state.ticketDescription

def score (toks : List String) : List (String × Nat) :=
  typeKeywords.map fun x => (x.1, (x.2.filter (toks.contains ·)).length)

/-- The first type with the highest score. -/
def bestType (scores : List (String × Nat)) : String :=
  if scores.any fun x => x.2 != 0 then
    ((scores.argmax Prod.snd).map Prod.fst).getD "general"
  else "general"

def classifierNode (P : Platform) (state : AgentState) : AgentState :=
  let toks := tokens P (ticketText state)
  let scores := score toks
  let best := bestType scores
  { state with
    classification := some ⟨best, scores⟩
    suggestedType := some best
    suggestedPriority := some (if toks.any (urgentWords.contains ·) then "urgent" else "medium") }

section

variable [Field S] [LinearOrder S] [FloorRing S]

def retrieverNode (cfg : Config S) (state : AgentState) : M S AgentState := do
  let hits ← RetrievalService.search cfg state.organizationId (ticketText state) none none
  let retrieved := hits.map fun h =>
    (⟨h.chunk.id.str, h.chunk.documentId.str, h.chunk.content, roundTo 6 (h.score.getD 0)⟩ :
      RetrievedRef)
  pure { state with retrieved := some retrieved, retrievalHit := some (!retrieved.isEmpty) }

end

def draftNode (cfg : Config S) (state : AgentState) : M S AgentState := do
  let context := "\n\n".intercalate ((state.retrieved.getD []).map RetrievedRef.content)
  let prompt := "Ticket: " ++ state.ticketTitle ++ "\nDetails: " ++ state.ticketDescription ++
    "\nWrite a helpful support reply grounded in the provided context."
  let result ← complete cfg prompt
    (some "You are a careful support agent. Only use the provided context.") context
  pure { state with
    draft := some result.text
    model := some result.model
    promptTokens := some result.promptTokens
    completionTokens := some result.completionTokens }

/-- Score how well the draft is grounded in the retrieved context. -/
def criticNode (P : Platform) (state : AgentState) : AgentState :=
  match state.retrieved.getD [] with
  | [] => { state with confidence := some 0 }
  | r :: rs =>
    let topScore := (rs.map RetrievedRef.score).foldl max r.score
    let contextTokens := (tokens P (" ".intercalate ((r :: rs).map RetrievedRef.content))).dedup
    let draftTokens := tokens P (state.draft.getD "")
    let overlap : ℚ :=
      if contextTokens.isEmpty then 0
      else (contextTokens.filter (draftTokens.contains ·)).length / contextTokens.length
    let confidence := roundTo 6 (1 / 2 * topScore + 1 / 2 * overlap)
    { state with confidence := some (min 1 confidence) }

def decisionNode (cfg : Config S) (state : AgentState) : AgentState :=
  let outcome :=
    if cfg.settings.confidenceThreshold ≤ state.confidence.getD 0 then "waiting_approval"
    else "escalated"
  { state with outcome := some outcome }

/-- The graph: classifier, retriever, draft, critic, decision. -/
def runWorkflow [Field S] [LinearOrder S] [FloorRing S] (cfg : Config S) (initial : AgentState) :
    M S AgentState := do
  let state := classifierNode cfg.platform initial
  let state ← retrieverNode cfg state
  let state ← draftNode cfg state
  let state := criticNode cfg.platform state
  pure (decisionNode cfg state)

/-- `_PRICES`, with the default entry. -/
def prices (model : String) : ℚ × ℚ :=
  match model with
  | "mock-1" => (5 / 10000, 15 / 10000)
  | "claude-haiku-4-5-20251001" => (1 / 1000, 5 / 1000)
  | "gpt-4o-mini" => (15 / 100000, 6 / 10000)
  | _ => (5 / 10000, 15 / 10000)

def estimateCost (model : String) (promptTokens completionTokens : Nat) : ℚ :=
  let price := prices model
  roundTo 8 ((promptTokens : ℚ) / 1000 * price.1 + (completionTokens : ℚ) / 1000 * price.2)

end Agent

/-- The calls of a program that only reads the knowledge base and asks the providers. -/
def Reads : Op S → Prop
  | .query (.chunksOf _) | .query (.chunksByDistance _ _ _ _) => True
  | .clock | .embed _ | .chat _ => True
  | _ => False

/-- Whatever the program computes, it only reads, and it leaves the session alone. -/
def M.ReadOnly {α : Type} (p : M S α) : Prop := ∀ σ, (p σ).Uses Reads fun x => x.2 = σ

namespace M

variable {α β : Type}

theorem readOnly_pure (a : α) : ReadOnly (Pure.pure a : M S α) := fun _ => rfl

theorem readOnly_raise (e : Err) : ReadOnly (raise e : M S α) := fun _ => rfl

theorem readOnly_bind {p : M S α} {f : α → M S β} (hp : p.ReadOnly) (hf : ∀ a, (f a).ReadOnly) :
    (p >>= f).ReadOnly := by
  intro σ
  rw [bind_apply]
  refine Framework.Program.uses_bind (hp σ) ?_
  rintro ⟨_ | a, σ'⟩ hσ
  · exact hσ
  · simp only at hσ
    subst hσ
    exact hf a _

theorem readOnly_chat (request : ChatRequest) : ReadOnly (chatCall request : M S LLMResult) :=
  fun _ => ⟨trivial, fun _ => rfl⟩

theorem readOnly_embed (texts : List String) : ReadOnly (embedCall texts : M S (List (List S))) :=
  fun _ => ⟨trivial, fun _ => rfl⟩

theorem readOnly_query {q : Query S} (h : Reads (.query q)) : ReadOnly (query q) :=
  fun _ => ⟨h, fun _ => rfl⟩

end M

open M (ReadOnly readOnly_pure readOnly_raise readOnly_bind)

theorem readOnly_openaiClient (cfg : Config S) : ReadOnly (openaiClient cfg) := by
  unfold openaiClient
  split
  · exact readOnly_raise _
  · split
    · exact readOnly_raise _
    · exact readOnly_pure ()

theorem readOnly_anthropicClient (cfg : Config S) : ReadOnly (anthropicClient cfg) := by
  unfold anthropicClient
  split
  · exact readOnly_raise _
  · split
    · exact readOnly_raise _
    · exact readOnly_pure ()

theorem readOnly_complete (cfg : Config S) (prompt : String) (system : Option String)
    (context : String) : ReadOnly (complete cfg prompt system context) := by
  unfold complete
  split
  · exact readOnly_bind (readOnly_anthropicClient cfg) fun _ =>
      readOnly_bind (M.readOnly_chat _) fun _ => readOnly_pure _
  · exact readOnly_bind (readOnly_openaiClient cfg) fun _ =>
      readOnly_bind (M.readOnly_chat _) fun _ => readOnly_pure _
  · exact readOnly_pure _

section

variable [Field S] [LinearOrder S]

theorem readOnly_embedProvider (cfg : Config S) (texts : List String) :
    ReadOnly (embed cfg texts) := by
  unfold embed
  split
  · exact readOnly_bind (readOnly_openaiClient cfg) fun _ => M.readOnly_embed _
  · exact readOnly_raise _
  · exact readOnly_pure _

theorem readOnly_search (cfg : Config S) (organizationId : Uuid) (text : String)
    (threshold : Option ℚ) (topK : Option Nat) :
    ReadOnly (RetrievalService.search cfg organizationId text threshold topK) := by
  refine readOnly_bind (readOnly_embedProvider cfg _) fun vectors => ?_
  split
  · exact readOnly_raise _
  · split
    · exact readOnly_bind (M.readOnly_query trivial) fun _ => readOnly_pure _
    · exact readOnly_bind (M.readOnly_query trivial) fun _ => readOnly_pure _

theorem readOnly_runWorkflow [FloorRing S] (cfg : Config S) (initial : AgentState) :
    ReadOnly (Agent.runWorkflow cfg initial) :=
  readOnly_bind (readOnly_bind (readOnly_search cfg _ _ _ _) fun _ => readOnly_pure _) fun _ =>
    readOnly_bind (readOnly_bind (readOnly_complete cfg _ _ _) fun _ => readOnly_pure _) fun _ =>
      readOnly_pure _

end

/-- A workflow of `execute_run`, with the fact that it only reads. -/
structure Workflow (S : Type) where
  run : AgentState → M S AgentState
  readOnly : ∀ initial, (run initial).ReadOnly

def Workflow.support [Field S] [LinearOrder S] [FloorRing S] (cfg : Config S) : Workflow S :=
  ⟨Agent.runWorkflow cfg, readOnly_runWorkflow cfg⟩

end AgentDesk
