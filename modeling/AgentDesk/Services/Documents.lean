import AgentDesk.Services.Retrieval

namespace AgentDesk.DocumentService

variable {S : Type}

def chunkSizeWords : Nat := 120
def chunkOverlapWords : Nat := 20

/-- The body of the loop over the starts of the windows, with its early `break`. -/
def windows (words : List String) (size : Nat) : List Nat → List String
  | [] => []
  | start :: starts =>
    let window := (words.drop start).take size
    let here := if window.isEmpty then [] else [" ".intercalate window]
    if words.length ≤ start + size then here else here ++ windows words size starts

def chunkText (text : String) (size overlap : Nat) : List String :=
  let words := runs (fun c => !isSpace c) text
  if words.isEmpty then []
  else
    let step := max 1 (size - overlap)
    windows words size ((List.range ((words.length + step - 1) / step)).map (· * step))

/-- `for idx, (chunk, vector) in enumerate(zip(chunks, embeddings, strict=True))`. -/
def addChunks (organizationId documentId : Uuid) :
    Nat → List String → List (List S) → M S Unit
  | _, [], [] => pure ()
  | idx, chunk :: chunks, vector :: vectors => do
    let id ← uuid4
    add (.chunk
      { id, organizationId, documentId, chunkIndex := idx, content := chunk, embedding := vector })
    addChunks organizationId documentId (idx + 1) chunks vectors
  | _, [], _ :: _ => M.raise (.value "zip() argument 2 is longer than argument 1")
  | _, _ :: _, [] => M.raise (.value "zip() argument 2 is shorter than argument 1")

def createDocument [Field S] [DecidableEq S] (cfg : Config S) (organizationId actorUserId : Uuid)
    (title content : String) (sourceType : DocumentSource) : M S (Document × Nat) := do
  let id ← uuid4
  add (.document
    { id, organizationId, title, sourceType, content, createdBy := some actorUserId,
      createdAt := 0 })
  flush
  let chunks := chunkText content chunkSizeWords chunkOverlapWords
  let embeddings ← if chunks.isEmpty then pure [] else embed cfg chunks
  addChunks organizationId id 0 chunks embeddings
  commit
  let document ← refreshDocument id
  pure (document, chunks.length)

def listDocuments (organizationId : Uuid) : M S (List (Document × Nat)) :=
  query (.documentsOf organizationId)

end AgentDesk.DocumentService
