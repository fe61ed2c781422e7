import AgentDesk.Logic.Replay
import AgentDesk.Properties.Chunks

namespace AgentDesk

open Framework (Program Observer Pool Event)

variable {S : Type} {cfg : Config S} {c : Nat} {cs : List (Made S)}

/-! What an ingestion writes -/

/-- The chunks of a document. -/
def chunksOf (content : String) : List String :=
  DocumentService.chunkText content DocumentService.chunkSizeWords DocumentService.chunkOverlapWords

theorem chunksOf_ne_nil {content : String} (h : isBlank content = false) :
    chunksOf content ≠ [] := by
  intro hnil
  have hchunked := chunkText_chunked content DocumentService.chunkSizeWords
    DocumentService.chunkOverlapWords (by decide)
  have hwords : words content = [] := by
    rw [← hchunked.nil_iff, List.map_eq_nil_iff]
    exact hnil
  have hspaces : ∀ x ∈ content.toList, isSpace x = true := by
    have hflat := flatMap_runsFrom (p := fun x => !isSpace x) [] content.toList
    rw [show runsFrom (fun x => !isSpace x) [] content.toList = [] from hwords, List.flatMap_nil,
      List.reverse_nil, List.nil_append] at hflat
    intro x hx
    have hnot := List.filter_eq_nil_iff.mp hflat.symm x hx
    simpa using hnot
  rw [isBlank, (strip_eq_empty content).mpr hspaces] at h
  cases h

section

variable [Field S] [LinearOrder S]

/-- The embedding provider's vectors for these texts. -/
def Provided (cfg : Config S) (cs : List (Made S)) (texts : List String)
    (vectors : List (List S)) : Prop :=
  match cfg.platform.lower cfg.settings.embeddingProvider with
  | "openai" => ⟨.embed texts, .ok vectors⟩ ∈ cs
  | "anthropic" => False
  | _ => vectors = texts.map (MockProvider.embedOne cfg)

theorem Provided.mono {cs' : List (Made S)} {texts : List String} {vectors : List (List S)}
    (h : Provided cfg cs texts vectors) (hcs : ∀ x ∈ cs, x ∈ cs') :
    Provided cfg cs' texts vectors := by
  unfold Provided at h ⊢
  split at h
  · exact hcs _ h
  · exact h
  · exact h

theorem provided_openai {texts : List String} {vectors : List (List S)}
    (h : cfg.platform.lower cfg.settings.embeddingProvider = "openai")
    (hcall : ⟨.embed texts, .ok vectors⟩ ∈ cs) : Provided cfg cs texts vectors := by
  unfold Provided
  rw [h]
  exact hcall

theorem provided_mock (texts : List String)
    (hopenai : cfg.platform.lower cfg.settings.embeddingProvider ≠ "openai")
    (hanthropic : cfg.platform.lower cfg.settings.embeddingProvider ≠ "anthropic") :
    Provided cfg cs texts (texts.map (MockProvider.embedOne cfg)) := by
  unfold Provided
  split
  · exact absurd ‹_› hopenai
  · exact absurd ‹_› hanthropic
  · rfl

end

/-- The row of the document that session `c` ingests for `u`. -/
def documentRow (c : Nat) (u : User) (body : DocumentCreate) : Document :=
  { id := ⟨c, 0⟩, organizationId := u.organizationId, title := body.title,
    sourceType := body.sourceType, content := body.content, createdBy := some u.id, createdAt := 0 }

/-- The rows of its chunks: one for each text with its vector, numbered in order. -/
def chunkRows (organizationId documentId : Uuid) (n idx : Nat) (chunks : List String)
    (vectors : List (List S)) : List (DocumentChunk S) :=
  (chunks.zip vectors).mapIdx fun k x =>
    ⟨⟨documentId.session, n + k⟩, organizationId, documentId, idx + k, x.1, x.2⟩

theorem chunkRows_cons (organizationId documentId : Uuid) (n idx : Nat) (chunk : String)
    (chunks : List String) (vector : List S) (vectors : List (List S)) :
    chunkRows organizationId documentId n idx (chunk :: chunks) (vector :: vectors) =
      ⟨⟨documentId.session, n⟩, organizationId, documentId, idx, chunk, vector⟩ ::
        chunkRows organizationId documentId (n + 1) (idx + 1) chunks vectors := by
  unfold chunkRows
  rw [List.zip_cons_cons, List.mapIdx_cons]
  refine congrArg (_ :: ·) (congrArg (List.mapIdx · _) ?_)
  funext k x
  rw [Nat.add_comm k 1, ← Nat.add_assoc, ← Nat.add_assoc]

theorem length_chunkRows {organizationId documentId : Uuid} {n idx : Nat} {chunks : List String}
    {vectors : List (List S)} (h : vectors.length = chunks.length) :
    (chunkRows organizationId documentId n idx chunks vectors).length = chunks.length := by
  rw [chunkRows, List.length_mapIdx, List.length_zip, h, Nat.min_self]

theorem mem_documentsOf {P : Platform} {choice : ServerChoice} {organizationId : Uuid}
    {db : DB S} {x : Document × Nat} :
    x ∈ (Query.documentsOf organizationId).eval P choice db ↔
      x.1 ∈ db.documents.rows ∧ x.1.organizationId = organizationId ∧
        x.2 = (db.documentChunks.rows.filter (·.documentId == x.1.id)).length := by
  simp only [Query.eval, newestFirst, List.mem_map, (List.perm_insertionSort _ _).mem_iff,
    List.mem_filter, beq_iff_eq]
  constructor
  · rintro ⟨d, ⟨hd, horg⟩, rfl⟩
    exact ⟨hd, horg, rfl⟩
  · intro h
    obtain ⟨hd, horg, hcount⟩ := h
    exact ⟨x.1, ⟨hd, horg⟩, Prod.ext rfl hcount.symm⟩

theorem chunkRows_spec (organizationId documentId : Uuid) (n : Nat) {chunks : List String}
    {vectors : List (List S)} (h : vectors.length = chunks.length) :
    (chunkRows organizationId documentId n 0 chunks vectors).map (·.chunkIndex) =
        List.range chunks.length ∧
      (chunkRows organizationId documentId n 0 chunks vectors).map (·.content) = chunks ∧
      (chunkRows organizationId documentId n 0 chunks vectors).map (·.embedding) = vectors ∧
      ∀ x ∈ chunkRows organizationId documentId n 0 chunks vectors,
        x.organizationId = organizationId ∧ x.documentId = documentId := by
  refine ⟨?_, ?_, ?_, ?_⟩
  · refine List.ext_getElem (by simp [chunkRows, h]) fun k _ _ => ?_
    simp [chunkRows]
  · refine List.ext_getElem (by simp [chunkRows, h]) fun k _ _ => ?_
    simp [chunkRows]
  · refine List.ext_getElem (by simp [chunkRows, h]) fun k _ _ => ?_
    simp [chunkRows]
  · intro x hx
    obtain ⟨k, hk, rfl⟩ := List.mem_mapIdx.mp hx
    exact ⟨rfl, rfl⟩

/-- The loop adds a row for each pair, and raises when the lists differ in length. -/
theorem addChunks_rows {D : List (Made S) → Prop} (organizationId documentId : Uuid)
    (hc : documentId.session = c) (chunks : List String) (vectors : List (List S)) (idx n : Nat)
    (new : List (Row S)) :
    (DocumentService.addChunks organizationId documentId idx chunks vectors).Triple (atCommit D)
      (fun _ σ' cs' => cs' = cs ∧ vectors.length = chunks.length ∧ ∃ n', σ' = ⟨c, n', [], [], [], [],
        new ++ (chunkRows organizationId documentId n idx chunks vectors).map .chunk⟩)
      (fun _ _ _ => True) ⟨c, n, [], [], [], [], new⟩ cs := by
  induction chunks generalizing vectors idx n new with
  | nil =>
    cases vectors with
    | nil => exact ⟨rfl, rfl, n, by simp [chunkRows]⟩
    | cons v vectors => trivial
  | cons chunk chunks ih =>
    cases vectors with
    | nil => trivial
    | cons v vectors =>
      simp only [DocumentService.addChunks, M.triple_bind, triple_uuid4, triple_add]
      refine M.triple_mono (ih vectors (idx + 1) (n + 1) _) ?_ (fun _ _ _ h => h)
      rintro - σ' cs' ⟨rfl, hlen, n', rfl⟩
      refine ⟨rfl, by rw [List.length_cons, List.length_cons, hlen], n', ?_⟩
      rw [chunkRows_cons, List.map_cons, ← hc, List.append_assoc]
      rfl

section

variable [Field S] [LinearOrder S]

theorem embed_provided {D : List (Made S) → Prop} (texts : List String) {σ : Session S} :
    (embed cfg texts).Triple (atCommit D)
      (fun vectors σ' cs' => σ' = σ ∧ Provided cfg cs' texts vectors ∧
        Book.ofCalls cs' = Book.ofCalls cs ∧ ∀ x ∈ cs, x ∈ cs')
      (fun _ _ _ => True) σ cs := by
  have hclient : (openaiClient cfg).Triple (atCommit D) (fun _ σ' cs' => σ' = σ ∧ cs' = cs)
      (fun _ _ _ => True) σ cs := by
    unfold openaiClient
    rw [M.triple_ite]
    refine ⟨fun _ => trivial, fun _ => ?_⟩
    rw [M.triple_ite]
    exact ⟨fun _ => trivial, fun _ => ⟨rfl, rfl⟩⟩
  unfold embed
  split
  · rename_i hprovider
    rw [M.triple_bind]
    refine M.triple_mono hclient ?_ (fun _ _ _ _ => trivial)
    rintro - σ' cs' ⟨rfl, rfl⟩
    rw [triple_embedCall]
    refine ⟨trivial, fun _ _ _ => trivial, ?_⟩
    rintro vectors cs'' ⟨-, rfl⟩
    refine ⟨rfl, provided_openai hprovider (by simp), ?_, fun x hx => List.mem_append_left _ hx⟩
    rw [Book.ofCalls_snoc]
    rfl
  · trivial
  · exact ⟨rfl, provided_mock texts ‹_› ‹_›, rfl, fun _ h => h⟩

/-- What a session that ingests this document has done when it commits. -/
structure Ingests (cfg : Config S) (c : Nat) (body : DocumentCreate) (u : User)
    (vectors : List (List S)) (cs : List (Made S)) : Prop where
  caller : ∃ id, ⟨.query (.user id), .ok (some u)⟩ ∈ cs
  complete : vectors.length = (chunksOf body.content).length
  provided : Provided cfg cs (chunksOf body.content) vectors
  book : Book.ofCalls cs = ⟨.insert (.document (documentRow c u body)) ::
    (chunkRows u.organizationId ⟨c, 0⟩ 1 0 (chunksOf body.content) vectors).map
      fun x => .insert (.chunk x), []⟩

theorem Ingests.committed {body : DocumentCreate} {u : User} {vectors : List (List S)}
    (h : Ingests cfg c body u vectors cs) (x : Made S)
    (hx : ∀ b : Book S, (b.note x).committed = b.committed) :
    (Book.ofCalls (cs ++ [⟨.commit, .ok ()⟩] ++ [x])).committed ≠ [] := by
  rw [Book.ofCalls_snoc, hx, Book.ofCalls_snoc, h.book]
  exact List.cons_ne_nil _ _

theorem createDocument_triple (body : DocumentCreate) {u : User}
    (hread : ∃ id, ⟨.query (.user id), .ok (some u)⟩ ∈ cs) (hbook : Book.ofCalls cs = .start) :
    (Api.createDocument cfg u body).Triple
      (atCommit fun cs => ∃ u vectors, Ingests cfg c body u vectors cs)
      (fun r _ cs' => (Book.ofCalls cs').committed ≠ [] ∧
        ∃ d, r = ⟨201, .document (DocumentOut.of d (chunksOf body.content).length)⟩)
      (fun _ _ _ => True) (.start c) cs := by
  obtain ⟨id, hread⟩ := hread
  have hne : (chunksOf body.content).isEmpty = false :=
    List.isEmpty_eq_false_iff.mpr (chunksOf_ne_nil body.content_not_blank)
  unfold Api.createDocument DocumentService.createDocument
  simp only [M.triple_bind, triple_uuid4, triple_add, triple_flush]
  simp [Session.start]
  have hwritten : Book.ofCalls (cs ++ [⟨.write [.insert (.document (documentRow c u body))],
      .ok ()⟩]) = ⟨[.insert (.document (documentRow c u body))], []⟩ := by
    rw [Book.ofCalls_snoc, hbook]
    rfl
  rw [M.triple_ite]
  refine ⟨fun hnil => absurd hnil (chunksOf_ne_nil body.content_not_blank), fun _ => ?_⟩
  rw [M.triple_bind]
  refine M.triple_mono (embed_provided _) ?_ (fun _ _ _ _ => trivial)
  rintro vectors σ cs₁ ⟨rfl, hprovided, hbook₁, hcalls⟩
  rw [M.triple_bind]
  refine M.triple_mono (addChunks_rows u.organizationId ⟨c, 0⟩ rfl _ vectors 0 1 []) ?_
    (fun _ _ _ _ => trivial)
  rintro - σ cs₂ ⟨hcs₂, hlength, n, rfl⟩
  have hrows : (chunkRows u.organizationId ⟨c, 0⟩ 1 0 (chunksOf body.content) vectors).length =
    (chunksOf body.content).length := length_chunkRows hlength
  have hingests : Ingests cfg c body u vectors (cs₂ ++ [⟨.write ((chunkRows u.organizationId ⟨c, 0⟩
      1 0 (chunksOf body.content) vectors).map fun x => .insert (.chunk x)), .ok ()⟩]) := by
    refine ⟨⟨id, ?_⟩, hlength, ?_, ?_⟩
    · rw [hcs₂]
      exact List.mem_append_left _ (hcalls _ (List.mem_append_left _ hread))
    · rw [hcs₂]
      exact hprovided.mono fun x hx => List.mem_append_left _ hx
    · rw [Book.ofCalls_snoc, hcs₂, hbook₁]
      exact congrArg (Book.note · _) hwritten
  cases hchunks : chunkRows u.organizationId ⟨c, 0⟩ 1 0 (chunksOf body.content) vectors with
  | nil =>
    rw [hchunks] at hrows
    exact absurd (List.length_eq_zero_iff.mp hrows.symm) (chunksOf_ne_nil body.content_not_blank)
  | cons x rows =>
    have hchunks' := hchunks
    unfold chunksOf at hchunks'
    rw [hchunks, List.map_cons] at hingests
    simp [commit, hchunks']
    refine ⟨⟨u, vectors, hingests⟩, fun r d _ => ⟨?_, d, rfl⟩⟩
    have hcommitted := hingests.committed ⟨.query (.document ⟨c, 0⟩), .ok (some d)⟩ fun _ => rfl
    rw [List.append_assoc, List.append_assoc] at hcommitted
    exact hcommitted

variable [FloorRing S] {workflow : Workflow S}

/-- The program of a request that ingests a document: it commits nothing but the ingestion, and
it answers with the number of chunks only when that is done. -/
theorem ingestion_obeys (creds : Option Token) (body : DocumentCreate) :
    ((Job.request (.authenticated creds (.createDocument body))).program cfg workflow c).Obeys
      (atCommit fun cs => ∃ u vectors, Ingests cfg c body u vectors cs)
      (fun o cs => ∀ r, o = .response r → (∃ e, r = respond (.error e)) ∨
        (Book.ofCalls cs).committed ≠ [] ∧
          ∃ d, r = ⟨201, .document (DocumentOut.of d (chunksOf body.content).length)⟩) [] := by
  have hrole : (requireRole cfg [.admin, .operator] creds).Triple
      (atCommit fun cs => ∃ u vectors, Ingests cfg c body u vectors cs)
      (fun u σ' cs' => σ' = .start c ∧ Book.ofCalls cs' = .start ∧
        ∃ id, ⟨.query (.user id), .ok (some u)⟩ ∈ cs') (fun _ _ _ => True) (.start c) [] := by
    refine Program.obeys_mono (obeys_atCommit (requireRole_transcript creds (by simp))
      (requireRole_uncommitted _ creds _)) ?_
    rintro ⟨_ | u, σ'⟩ cs' ⟨h, hσ⟩
    · trivial
    · obtain ⟨token, claims, id, now, -, -, -, -, rfl⟩ := h
      exact ⟨hσ, rfl, id, by simp⟩
  have hhandle : (M.except (requireRole cfg [.admin, .operator] creds >>= fun u =>
      Api.createDocument cfg u body) fun exc => do
        rollback
        M.raise exc).Triple (atCommit fun cs => ∃ u vectors, Ingests cfg c body u vectors cs)
      (fun r _ cs' => (Book.ofCalls cs').committed ≠ [] ∧
        ∃ d, r = ⟨201, .document (DocumentOut.of d (chunksOf body.content).length)⟩)
      (fun _ _ _ => True) (.start c) [] := by
    rw [M.triple_except, M.triple_bind]
    refine M.triple_mono hrole ?_ (fun e _ _ _ => by simp)
    rintro u _ cs' ⟨rfl, hbook, hread⟩
    exact M.triple_mono (createDocument_triple body hread hbook) (fun _ _ _ h => h)
      (fun e _ _ _ => by simp)
  simp only [Job.program, Program.obeys_bind, getDb, sessionScope]
  refine Program.obeys_mono hhandle ?_
  rintro ⟨e | r, σ'⟩ cs' h
  · exact ⟨trivial, fun _ _ _ r hr => Or.inl ⟨e, by cases hr; rfl⟩⟩
  · refine ⟨trivial, ?_⟩
    rintro u _ ⟨-, rfl⟩ r' hr
    cases hr
    refine Or.inr ⟨?_, h.2⟩
    rw [Book.ofCalls_snoc]
    exact h.1

/-! What the database holds of it -/

variable {events : List (Event Job (Reply S))}

/-- The database holds nothing that session `i` wrote. -/
structure NotIngested (i : Nat) (db : DB S) : Prop where
  documents : ∀ d ∈ db.documents.rows, d.id.session ≠ i
  chunks : ∀ x ∈ db.documentChunks.rows, x.id.session ≠ i ∧ x.documentId.session ≠ i

/-- What session `i` wrote is one document with its chunks: numbered from 0, with the contents in
order and the vectors of these, and counted in the list of documents. -/
structure Ingested (P : Platform) (i : Nat) (body : DocumentCreate) (u : User)
    (vectors : List (List S)) (d : Document) (db : DB S) : Prop where
  document : db.documents.rows.filter (fun d => d.id.session == i) = [d]
  row : ∃ start, d = { documentRow i u body with createdAt := start }
  own : ∀ x ∈ db.documentChunks.rows, x.id.session = i ↔ x.documentId = d.id
  organization : ∀ x ∈ db.documentChunks.rows, x.documentId = d.id →
    x.organizationId = d.organizationId
  indices : (db.documentChunks.rows.filter (·.documentId == d.id)).map (·.chunkIndex) =
    List.range (chunksOf body.content).length
  contents : (db.documentChunks.rows.filter (·.documentId == d.id)).map (·.content) =
    chunksOf body.content
  embeddings : (db.documentChunks.rows.filter (·.documentId == d.id)).map (·.embedding) = vectors
  listed : ∀ choice, (d, (chunksOf body.content).length) ∈
    (Query.documentsOf d.organizationId).eval P choice db
  counted : ∀ choice organizationId d' n, (d', n) ∈
    (Query.documentsOf organizationId).eval P choice db → d'.id = d.id →
      d' = d ∧ n = (chunksOf body.content).length

/-- A chunk belongs to a document of the session that added it. -/
theorem deployment_chunk_session {x : DocumentChunk S}
    (hx : x ∈ (deployment cfg workflow events).world.db.documentChunks.rows) :
    x.documentId.session = x.id.session := by
  have hkept : Kept (deployment cfg workflow events) := deployment_kept
  have hexplained := deployment_explained (C := fun _ _ => True) cfg workflow events
    (Pool.meets_of_forall (fun _ _ _ _ _ _ _ => trivial) events)
  have hrows := Growing.chunks.rows_db hkept.sane
  change (deployment cfg workflow events).world.db.documentChunks.rows = _ at hrows
  rw [hrows, List.mem_flatMap] at hx
  obtain ⟨k, hk, hx⟩ := hx
  obtain ⟨y, hy, hnew⟩ := List.mem_filterMap.mp hx
  obtain ⟨row, rfl, hid⟩ := Growing.chunks.keyed hnew
  have howned := List.all_eq_true.mp (hkept.owned k hk)
  obtain ⟨n, hn⟩ := List.mem_iff_getElem?.mp hk
  obtain ⟨job, s, hs⟩ := hexplained.commits n k hn
  have hwarrant := hs.warranted _ hy
  cases row with
  | chunk z =>
    cases hnew
    obtain ⟨d, hd, hdid, -⟩ := hwarrant
    rw [hs.writes] at hd
    have hsession : d.id.session = k.session := eq_of_beq (howned _ hd)
    have hown : x.id.session = k.session := eq_of_beq (howned _ hy)
    rw [← hdid, hsession, hown]
  | _ => cases hnew

/-- A session that committed nothing has left nothing. -/
theorem notIngested_of_commitsOf {i : Nat}
    (h : (deployment cfg workflow events).world.commitsOf i = []) :
    NotIngested i (deployment cfg workflow events).world.db := by
  have hkept : Kept (deployment cfg workflow events) := deployment_kept
  have hdocuments := Growing.documents.rows_own hkept.sane hkept.owned i
  have hchunks := Growing.chunks.rows_own hkept.sane hkept.owned i
  rw [h] at hdocuments hchunks
  refine ⟨fun d hd hsession => ?_, fun x hx => ?_⟩
  · exact List.filter_eq_nil_iff.mp hdocuments d hd (beq_iff_eq.mpr hsession)
  · have hown : x.id.session ≠ i := fun hsession =>
      List.filter_eq_nil_iff.mp hchunks x hx (beq_iff_eq.mpr hsession)
    exact ⟨hown, fun hdoc => hown ((deployment_chunk_session hx).symm.trans hdoc)⟩

/-- A session whose one commit is an ingestion has left just that. -/
theorem ingested_of_commitsOf {i : Nat} {body : DocumentCreate} {u : User}
    {vectors : List (List S)} {k : Commit S}
    (h : (deployment cfg workflow events).world.commitsOf i = [k])
    (hlength : vectors.length = (chunksOf body.content).length)
    (hk : k.writes = .insert (.document (documentRow i u body)) ::
      (chunkRows u.organizationId ⟨i, 0⟩ 1 0 (chunksOf body.content) vectors).map
        fun x => .insert (.chunk x)) :
    Ingested cfg.platform i body u vectors { documentRow i u body with createdAt := k.start }
      (deployment cfg workflow events).world.db := by
  have hkept : Kept (deployment cfg workflow events) := deployment_kept
  have hdocuments := Growing.documents.rows_own hkept.sane hkept.owned i
  have hchunks := Growing.chunks.rows_own hkept.sane hkept.owned i
  rw [h, List.flatMap_singleton, hk] at hdocuments hchunks
  have hdocs : (deployment cfg workflow events).world.db.documents.rows.filter
      (fun d => d.id.session == i) = [{ documentRow i u body with createdAt := k.start }] := by
    refine hdocuments.trans ?_
    simp [Growing.documents, List.filterMap_map]
  have hown : (deployment cfg workflow events).world.db.documentChunks.rows.filter
      (fun x => x.id.session == i) =
        chunkRows u.organizationId ⟨i, 0⟩ 1 0 (chunksOf body.content) vectors := by
    refine hchunks.trans ?_
    simp [Growing.chunks, List.filterMap_map]
  obtain ⟨hindices, hcontents, hembeddings, hfields⟩ :=
    chunkRows_spec u.organizationId ⟨i, 0⟩ 1 hlength
  have hdocument : ∀ x ∈ (deployment cfg workflow events).world.db.documentChunks.rows,
      x.id.session = i ↔ x.documentId = ⟨i, 0⟩ := by
    intro x hx
    refine ⟨fun hsession => ?_, fun hdoc => ?_⟩
    · refine (hfields x ?_).2
      rw [← hown]
      exact List.mem_filter.mpr ⟨hx, by simpa using hsession⟩
    · rw [← deployment_chunk_session hx, hdoc]
  have hrows : (deployment cfg workflow events).world.db.documentChunks.rows.filter
      (·.documentId == ⟨i, 0⟩) =
        chunkRows u.organizationId ⟨i, 0⟩ 1 0 (chunksOf body.content) vectors := by
    rw [← hown]
    refine List.filter_congr fun x hx => ?_
    rw [Bool.eq_iff_iff, beq_iff_eq, beq_iff_eq]
    exact (hdocument x hx).symm
  have hmem : { documentRow i u body with createdAt := k.start } ∈
      (deployment cfg workflow events).world.db.documents.rows := by
    have hone := List.mem_singleton_self { documentRow i u body with createdAt := k.start }
    rw [← hdocs] at hone
    exact (List.mem_filter.mp hone).1
  have hcount : (chunksOf body.content).length =
      ((deployment cfg workflow events).world.db.documentChunks.rows.filter
        (·.documentId == ⟨i, 0⟩)).length := by
    rw [hrows, length_chunkRows hlength]
  refine ⟨hdocs, ⟨k.start, rfl⟩, hdocument, ?_, ?_, ?_, ?_, ?_, ?_⟩
  · intro x hx hdoc
    refine (hfields x ?_).1
    rw [← hrows]
    exact List.mem_filter.mpr ⟨hx, beq_iff_eq.mpr hdoc⟩
  · exact (congrArg _ hrows).trans hindices
  · exact (congrArg _ hrows).trans hcontents
  · exact (congrArg _ hrows).trans hembeddings
  · intro choice
    exact mem_documentsOf.mpr ⟨hmem, rfl, hcount⟩
  · intro choice organizationId d' n hlisted hid
    obtain ⟨hd', -, hn⟩ := mem_documentsOf.mp hlisted
    have hone : d' ∈ (deployment cfg workflow events).world.db.documents.rows.filter
        (fun d => d.id.session == i) := by
      refine List.mem_filter.mpr ⟨hd', ?_⟩
      change d'.id = ⟨i, 0⟩ at hid
      simp [hid]
    rw [hdocs, List.mem_singleton] at hone
    refine ⟨hone, ?_⟩
    rw [hcount]
    exact hn.trans (by rw [hone]; rfl)

/-- The request that ingests this document. -/
abbrev ingestion (creds : Option Token) (body : DocumentCreate) : Job :=
  .request (.authenticated creds (.createDocument body))

section

variable {i : Nat} {creds : Option Token} {body : DocumentCreate}
  (hjob : (Pool.spawned events)[i]? = some (ingestion creds body))
include hjob

/-- The session commits nothing, or one ingestion. -/
theorem ingestion_commits (cfg : Config S) (workflow : Workflow S) :
    (deployment cfg workflow events).world.commitsOf i = [] ∨
    ∃ u vectors pre post k, Ingests cfg i body u vectors pre ∧
      (deployment cfg workflow events).world.callsOf i = pre ++ ⟨.commit, .ok ()⟩ :: post ∧
      (deployment cfg workflow events).world.commitsOf i = [k] ∧
      k.writes = (Book.ofCalls pre).pending := by
  have hkept : Kept (deployment cfg workflow events) := deployment_kept
  have hdemand : ∀ pre post, (deployment cfg workflow events).world.callsOf i =
      pre ++ ⟨.commit, .ok ()⟩ :: post → ∃ u vectors, Ingests cfg i body u vectors pre := by
    intro pre post hcalls
    have hok := ok_of_call (f := fun cs x => cs ++ [x])
      (fun _ _ _ hfits => atCommit_next.mpr ⟨hfits, rfl⟩) (ingestion_obeys creds body) hjob hcalls
    rwa [Framework.foldl_snoc, List.nil_append, atCommit_commit] at hok
  have hwrites := hkept.committed i
  have honce := Book.committed_once fun pre post hcalls => by
    obtain ⟨u, vectors, hingests⟩ := hdemand pre post hcalls
    rw [hingests.book]
  rcases honce with hnone | ⟨pre, post, hcalls, hone⟩
  · rw [hnone] at hwrites
    exact Or.inl (List.map_eq_nil_iff.mp hwrites.symm)
  · obtain ⟨u, vectors, hingests⟩ := hdemand pre post hcalls
    rw [hone] at hwrites
    obtain ⟨k, hk, hkw⟩ := List.map_eq_singleton_iff.mp hwrites.symm
    exact Or.inr ⟨u, vectors, pre, post, k, hingests, hcalls, hk, hkw⟩

/-- The session answers with an error, or with the count of the chunks that it committed. -/
theorem ingestion_responds {job : Job} {r : Response}
    (hthread : (deployment cfg workflow events).threads[i]? =
      some (job, some (.ret (.response r)))) :
    (∃ e, r = respond (.error e)) ∨
      (deployment cfg workflow events).world.commitsOf i ≠ [] ∧
        ∃ d, r = ⟨201, .document (DocumentOut.of d (chunksOf body.content).length)⟩ := by
  have hsame := deployment_job cfg workflow events i
  rw [hthread, hjob, Option.map_some, Option.some_inj] at hsame
  change job = ingestion creds body at hsame
  subst hsame
  have hend := ends_of_thread (f := fun cs x => cs ++ [x])
    (fun _ _ _ hfits => atCommit_next.mpr ⟨hfits, rfl⟩) (ingestion_obeys creds body) hthread r rfl
  rw [Framework.foldl_snoc, List.nil_append, deployment_kept.committed i] at hend
  refine hend.imp_right fun h => ⟨fun hnil => h.1 ?_, h.2⟩
  rw [hnil, List.map_nil]

end

end

/-- A document of one chunk. -/
def refundPolicy : DocumentCreate :=
  ⟨"Refunds", "refunds take five days", .manual, by decide, by decide⟩

/-- The administrator of the registered organization ingests it. -/
def ingestedPolicy : List (Event Job (Reply ℚ)) :=
  registration ++ .spawn (ingestion (some adminToken) refundPolicy) :: calls 1 20

end AgentDesk
