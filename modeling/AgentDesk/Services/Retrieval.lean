import AgentDesk.Services.Providers
import Mathlib.Algebra.Order.Field.Basic

namespace AgentDesk.RetrievalService

variable {S : Type}

/-- A passage with its cosine similarity; `none` is the NaN of a zero vector. -/
structure RetrievedChunk (S : Type) where
  chunk : DocumentChunk S
  score : Option S

section

variable [Field S] [LinearOrder S]

def dot (a b : List S) : S := (List.zipWith (· * ·) a b).sum

def norm (cfg : Config S) (a : List S) : S := cfg.sqrt (a.map fun x => x * x).sum

/-- `_cosine`. -/
def cosine (cfg : Config S) (a b : List S) : S :=
  let na := norm cfg a
  let nb := norm cfg b
  if na = 0 ∨ nb = 0 then 0 else dot a b / (na * nb)

/-- pgvector's `<=>`: one minus the cosine, NaN for a zero vector. -/
def cosineDistance (cfg : Config S) (a b : List S) : Option S :=
  let na := norm cfg a
  let nb := norm cfg b
  if na = 0 ∨ nb = 0 then none else some (1 - dot a b / (na * nb))

/-- PostgreSQL sorts NaN after every number. -/
def closer : Option S → Option S → Bool
  | some a, some b => decide (a ≤ b)
  | _, none => true
  | none, some _ => false

/-- `h.score >= threshold`, false for NaN. -/
def reaches (threshold : S) (score : Option S) : Bool := score.any fun s => decide (threshold ≤ s)

def rankAll (cfg : Config S) (queryVec : List S) (chunks : List (DocumentChunk S)) :
    List (DocumentChunk S × S) :=
  (chunks.map fun c => (c, cosine cfg queryVec c.embedding)).insertionSort fun a b => b.2 ≤ a.2

def search (cfg : Config S) (organizationId : Uuid) (text : String) (threshold : Option ℚ)
    (topK : Option Nat) : M S (List (RetrievedChunk S)) := do
  let threshold := threshold.getD cfg.settings.similarityThreshold
  let topK := topK.getD cfg.settings.retrievalTopK
  let vectors ← embed cfg [text]
  match vectors.head? with
  | none => M.raise (.value "list index out of range")
  | some queryVec =>
    if cfg.dialect = "postgresql" then
      let rows ← query (.chunksByDistance organizationId (cosineDistance cfg queryVec) closer topK)
      let hits := rows.map fun x => (⟨x.1, x.2.map (1 - ·)⟩ : RetrievedChunk S)
      pure (hits.filter fun h => reaches (threshold : S) h.score)
    else
      let chunks ← query (.chunksOf organizationId)
      let hits := ((rankAll cfg queryVec chunks).take topK).map fun x =>
        (⟨x.1, some x.2⟩ : RetrievedChunk S)
      pure (hits.filter fun h => reaches (threshold : S) h.score)

end

end AgentDesk.RetrievalService
