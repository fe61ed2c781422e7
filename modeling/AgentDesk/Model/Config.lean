import AgentDesk.Model.Session

namespace AgentDesk

/-- The fields of `Settings` that the program's logic reads, with their defaults. -/
structure Settings where
  jwtSecret : String := "change-me-in-production"
  accessTokenMinutes : Nat := 30
  refreshTokenDays : Nat := 7
  llmProvider : String := "mock"
  embeddingProvider : String := "mock"
  embeddingDim : Nat := 384
  anthropicApiKey : Option String := none
  openaiApiKey : Option String := none
  confidenceThreshold : ℚ := 7 / 10
  similarityThreshold : ℚ := 1 / 2
  retrievalTopK : Nat := 5
  agentRunEager : Bool := false
  webhookMaxRetries : Nat := 5
  webhookBackoffBaseSeconds : ℚ := 2
  webhookDeliveryEager : Bool := false
  webhookDispatchEnabled : Bool := true

/-- A deployment: the platform, the settings, the SQL dialect, the vendor SDKs that are
installed, and `math.sqrt` over the scalars of the embeddings. -/
structure Config (S : Type) where
  platform : Platform
  settings : Settings
  dialect : String
  anthropicInstalled : Bool
  openaiInstalled : Bool
  sqrt : S → S

end AgentDesk
