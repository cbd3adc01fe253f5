/-
DocumentIngestion.lean

Uploads of documents, from where the request has been validated.  The original file is stored,
then the document's row, then one memory for each chunk with its events, then the event of the
collection; last the row gets what has been counted.

Every write is committed on its own.  An upload that raises stops where it is, and what it has
written stays.
-/
import OpenAgency.DocumentChunks
import OpenAgency.GraphBackfill
import OpenAgency.Lib.Faults
import OpenAgency.MemoryService

namespace OpenAgency

open Relational Interaction OpenAgency.Graph Program Dict

/-! ### Documents -/

inductive DocumentUploadMode where
  | vector
  | context
  | both
  deriving DecidableEq

namespace DocumentUploadMode

def value : DocumentUploadMode → String
  | vector => "vector"
  | context => "context"
  | both => "both"

/-- The text is kept as memories. -/
def keepsMemories (mode : DocumentUploadMode) : Bool := mode = vector || mode = both

/-- The text is attached to prompts. -/
def attaches (mode : DocumentUploadMode) : Bool := mode = context || mode = both

end DocumentUploadMode

inductive UploadedDocumentStatus where
  | active
  | deleted
  deriving DecidableEq

structure UploadedDocument where
  id : String
  filename : String
  contentType : Option String
  storageUri : Option String
  extractedText : Option String
  contentSha256 : String
  textCharacters : ℕ
  estimatedTokens : ℕ
  uploadMode : DocumentUploadMode
  scope : String
  createdByUserId : Option String
  workspaceId : Option String
  conversationId : Option String
  workflowId : Option String
  agentId : Option String
  status : UploadedDocumentStatus := .active
  metadata : Dict Json
  updatedAt : Time

abbrev UploadedDocuments := Catalog fun d : UploadedDocument => d.id

/-- What `ingest_upload` has of a request once it has been validated. -/
structure DocumentUpload where
  filename : String
  contentType : Option String
  contentHash : String
  text : String
  currentUser : UserDefinition
  scope : String
  workspaceId : Option String := none
  conversationId : Option String := none
  workflowId : Option String := none
  agentId : Option String := none
  source : String := "document_upload"
  tags : List String := []
  chunkSize : Option ℤ := none
  chunkOverlap : Option ℤ := none
  uploadMode : DocumentUploadMode := .vector
  uploadIntelligence : Option Json := none

/-- `chunk_size or 1200`. -/
def DocumentUpload.chunkSizeOrDefault (upload : DocumentUpload) : ℤ :=
  match upload.chunkSize with
  | some size => if size = 0 then 1200 else size
  | none => 1200

structure DocumentIngestionResult where
  documentId : String
  filename : String
  contentType : Option String
  storageUri : Option String
  textCharacters : ℕ
  estimatedTokens : ℕ
  uploadMode : String
  contextAttachmentId : Option String
  chunksCreated : ℕ
  memoryIds : List String

namespace DocumentIngestionService

/-! ### Operations -/

inductive IngestionError where
  | documentIngestion (message : String)
  | memory (e : MemoryError)
  | integrity
  | failure (name : String)

/-- What an upload asks of its context. -/
inductive IngestOp where
  | uploadToS3 (documentId filename userId : String)
  | draw
  | createDocument (document : UploadedDocument)
  | memoryContext
  | createMemory (now : Time) (m : MemoryRecord)
  | append (event : GraphProjectionEvent)
  | listMemories
  | getDocument (documentId : String)
  | saveDocument (document : UploadedDocument)

def IngestOps : Signature where
  Op := IngestOp
  Ret
    | .uploadToS3 .. => Option String
    | .draw => String × Time
    | .createDocument _ => Except IngestionError Unit
    | .memoryContext => MemoryContext
    | .createMemory .. => Except MemoryError MemoryRecord
    | .append _ => Except RuntimeException GraphProjectionEvent
    | .listMemories => List MemoryRecord
    | .getDocument _ => Option UploadedDocument
    | .saveDocument _ => Unit

/-- Every operation may fail. -/
abbrev IngestSig : Signature := IngestOps.fallible IngestionError

abbrev Ingest := Program IngestSig IngestionError

/-- Perform one operation; a failure is raised. -/
def await (o : IngestOp) : Ingest (IngestOps.Ret o) :=
  (perform (S := IngestOps) o : Program IngestOps IngestionError _).fallibly

structure IngestStores where
  documents : UploadedDocuments
  memories : MemoryStore
  outbox : GraphOutbox

/-- The stores, and how often the rest has been asked. -/
structure IngestWorld where
  stores : IngestStores
  asked : ℕ := 0

/-- The file storage, the clock and the ids, and what memories are checked against: each may
answer differently every time. -/
structure IngestEnvironment where
  stored : ℕ → Option String
  drawn : ℕ → String × Time
  memoryContext : ℕ → MemoryContext

def ingestHandler (env : IngestEnvironment) : Handler IngestOps IngestWorld
  | .uploadToS3 .., w => (env.stored w.asked, { w with asked := w.asked + 1 })
  | .draw, w => (env.drawn w.asked, { w with asked := w.asked + 1 })
  | .memoryContext, w => (env.memoryContext w.asked, { w with asked := w.asked + 1 })
  | .createDocument document, w =>
    match w.stores.documents.get document.id with
    | some _ => (.error .integrity, w)
    | none =>
      (.ok (), { w with stores.documents := w.stores.documents.put document })
  | .createMemory now m, w =>
    ((w.stores.memories.create now m).1,
      { w with stores.memories := (w.stores.memories.create now m).2 })
  | .append event, w =>
    let answer := SQLGraphProjectionEventRepository.append w.stores.outbox event
    (answer.1, { w with stores.outbox := answer.2 })
  | .listMemories, w => (w.stores.memories.items, w)
  | .getDocument documentId, w => (w.stores.documents.get documentId, w)
  | .saveDocument document, w =>
    ((), { w with stores.documents := w.stores.documents.put document })

/-- The settings, and which repositories there are. -/
structure IngestSettings where
  lib : MemoryLibrary
  hasDocuments : Bool := true
  graphProjectionEnabled : Bool := true
  graphEntityExtractionEnabled : Bool := true

/-! ### Payloads -/

def directContextMaxTokens : ℕ := 24000

def directContextMaxCharacters : ℕ := directContextMaxTokens * 4

/-- `estimate_tokens`. -/
def estimateTokens (text : String) : ℕ := max 1 ((text.length + 3) / 4)

/-- `Path(filename).suffix`. -/
def pathSuffix (filename : String) : List Char :=
  let extension := filename.toList.rtakeWhile (· ≠ '.')
  if extension = [] ∨ filename.length ≤ extension.length + 1 then [] else '.' :: extension

/-- `_upload_observability_metadata`. -/
def uploadObservabilityMetadata (documentId : String) (upload : DocumentUpload)
    (chunksCreated : ℕ) (memoryIds : List String) (projectionEventCreated : Bool) : Dict Json :=
  [("upload_mode", .str upload.uploadMode.value),
    ("text_characters", .nat upload.text.length),
    ("estimated_tokens", .nat (estimateTokens upload.text)),
    ("direct_context_attachment", .bool upload.uploadMode.attaches),
    ("context_attachment_id", if upload.uploadMode.attaches then .str documentId else .null),
    ("direct_context_max_tokens",
      if upload.uploadMode.attaches then .nat directContextMaxTokens else .null),
    ("archive_memory_created", .bool (!memoryIds.isEmpty)),
    ("chunks_created", .nat chunksCreated), ("memory_ids", .strs memoryIds),
    ("projection_event_created", .bool projectionEventCreated)]

/-- The row that an upload stores. -/
def uploadedDocument (documentId : String) (storageUri : Option String) (upload : DocumentUpload)
    (now : Time) : UploadedDocument where
  id := documentId
  filename := upload.filename
  contentType := upload.contentType
  storageUri := storageUri
  extractedText := some (takeChars directContextMaxCharacters upload.text)
  contentSha256 := upload.contentHash
  textCharacters := upload.text.length
  estimatedTokens := estimateTokens upload.text
  uploadMode := upload.uploadMode
  scope := upload.scope
  createdByUserId := some upload.currentUser.id
  workspaceId := upload.workspaceId
  conversationId := upload.conversationId
  workflowId := upload.workflowId
  agentId := upload.agentId
  metadata := [("source", .str upload.source), ("tags", .strs upload.tags),
    ("upload_intelligence", upload.uploadIntelligence.getD .null),
    ("stored_text_truncated", .bool (directContextMaxCharacters < upload.text.length)),
    ("upload_observability", .obj (uploadObservabilityMetadata documentId upload 0 [] false))]
  updatedAt := now

/-- The identifier of a chunk's memory. -/
def chunkMemoryId (documentId : String) (chunk : DocumentChunk) : String :=
  documentId ++ "-chunk-" ++ toString chunk.index

/-- `_memory_payload`. -/
def chunkPayload (cfg : IngestSettings) (documentId : String) (storageUri : Option String)
    (upload : DocumentUpload) (chunkCount : ℕ) (chunk : DocumentChunk) : Dict Json :=
  let extension := cfg.lib.lower (String.ofList (pathSuffix upload.filename))
  let extension := String.ofList (extension.toList.dropWhile (· = '.'))
  let tags := (upload.tags ++ ["document", extension]).dedup.insertionSort (· ≤ ·)
  let metadata : Dict Json := [("document_id", .str documentId), ("filename", .str upload.filename),
    ("content_type", .ofOption upload.contentType), ("storage_uri", .ofOption storageUri),
    ("content_sha256", .str upload.contentHash), ("upload_mode", .str upload.uploadMode.value),
    ("chunk_index", .nat chunk.index), ("chunk_count", .nat chunkCount),
    ("start_char", .nat chunk.startChar), ("end_char", .nat chunk.endChar),
    ("semantic_hint", .str ("Document upload " ++ upload.filename))]
  let metadata := match upload.uploadIntelligence with
    | some intelligence => set metadata "upload_intelligence" intelligence
    | none => metadata
  let payload : Dict Json := [("id", .str (chunkMemoryId documentId chunk)),
    ("scope", .str upload.scope), ("content", .str chunk.text),
    ("summary", .str (upload.filename ++ " chunk " ++ toString (chunk.index + 1) ++ "/" ++
      toString chunkCount)),
    ("tags", .strs tags), ("source", .str upload.source), ("memory_type", .str "archive"),
    ("status", .str "active"), ("importance", .nat 55), ("agent_id", .ofOption upload.agentId),
    ("metadata", .obj metadata), ("sensitive", .bool false)]
  if upload.scope = "user" then set payload "created_by_user_id" (.str upload.currentUser.id)
  else if upload.scope = "workspace" then
    set payload "workspace_id" (.ofOption upload.workspaceId)
  else if upload.scope = "conversation" then
    set payload "conversation_id" (.ofOption upload.conversationId)
  else if upload.scope = "workflow" then
    set payload "workflow_id" (.ofOption upload.workflowId)
  else payload

/-! ### Events -/

/-- `GraphProjectionEvent(...)` of the memory service, handed to the repository. -/
def appendEvent (event : String → Time → GraphProjectionEvent) : Ingest GraphProjectionEvent := do
  let drawn ← await .draw
  match normalizeProjectionEvent (event drawn.1 drawn.2) with
  | .error e => raise (.failure e.message)
  | .ok event => do
    match ← await (.append event) with
    | .ok stored => done stored
    | .error e => raise (.failure e.message)

/-- The event of a memory that has been created. -/
def memoryCreatedEvent (cfg : IngestSettings) (m : OpenAgency.MemoryRecord) (eventId : String)
    (occurredAt : Time) : GraphProjectionEvent where
  eventId := eventId
  eventType := "memory.created"
  aggregateType := "memory"
  aggregateId := m.id
  occurredAt := occurredAt
  userId := m.createdByUserId
  payload := .obj (Graph.memoryPayload cfg.lib.toLibrary m.toMemoryRecord)
  source := "memory_service"

/-- The event of the entities that a memory names. -/
def memoryEntitiesEvent (cfg : IngestSettings) (m : OpenAgency.MemoryRecord) (candidates : List Json)
    (sourceEventId eventId : String) (occurredAt : Time) : GraphProjectionEvent where
  eventId := eventId
  eventType := "memory.entities.extracted"
  aggregateType := "memory"
  aggregateId := m.id
  occurredAt := occurredAt
  userId := m.createdByUserId
  payload := .obj [("memory_id", .str m.id),
    ("document_id",
      getJson (Graph.memoryMetadataPayload cfg.lib.toLibrary m.metadata) "document_id"),
    ("entities", .arr candidates)]
  source := "memory_entity_extraction"
  sourceEventId := some sourceEventId

/-- The event of a collection of memories; `append_document_collection_projection_event` bounds
the ids it names. -/
def collectionEvent (cfg : IngestSettings) (documentId : String)
    (memories : List OpenAgency.MemoryRecord) (eventId : String) (occurredAt : Time) :
    GraphProjectionEvent where
  eventId := eventId
  eventType := "document_memory_collection.created"
  aggregateType := "document_memory_collection"
  aggregateId := documentId
  occurredAt := occurredAt
  userId := memories.head?.bind fun m => m.createdByUserId
  payload :=
    let payload := Graph.documentPayload cfg.lib.toLibrary documentId
      (memories.map fun m => m.toMemoryRecord)
    .obj (set (set payload "projection_max_chunks"
      (.num cfg.lib.graphDocumentProjectionMaxChunks)) "source" (.str "document_upload"))
  source := "memory_service"

/-- Whatever is raised is logged. -/
def logged (p : Ingest Unit) : Ingest Unit := p.rescue fun _ => done ()

/-- `_append_memory_projection_event`, of a memory that has been created. -/
def appendMemoryProjectionEvent (cfg : IngestSettings) (m : OpenAgency.MemoryRecord) : Ingest Unit :=
  if cfg.graphProjectionEnabled then
    logged do
      let projected ← appendEvent (memoryCreatedEvent cfg m)
      if cfg.graphEntityExtractionEnabled then
        match cfg.lib.extract (.obj (Graph.memoryPayload cfg.lib.toLibrary m.toMemoryRecord)) with
        | [] => done ()
        | candidates => do
          let _ ← appendEvent (memoryEntitiesEvent cfg m candidates projected.eventId)
          done ()
      else done ()
  else done ()

/-- `append_document_collection_projection_event`. -/
def appendDocumentCollectionProjectionEvent (cfg : IngestSettings) (documentId : String)
    (memories : List OpenAgency.MemoryRecord) : Ingest Unit :=
  if cfg.graphProjectionEnabled then
    logged do
      let _ ← appendEvent (collectionEvent cfg documentId memories)
      done ()
  else done ()

/-! ### An upload -/

/-- `create_memory`, confirmed, for the user of the upload. -/
def createChunkMemory (cfg : IngestSettings) (user : UserDefinition) (payload : Dict Json) :
    Ingest OpenAgency.MemoryRecord := do
  let drawn ← await .draw
  let ctx ← await .memoryContext
  match ctx.preparedCreate ⟨.createMemory payload true, some user, false, drawn.1, drawn.2⟩ payload
      true with
  | .error e => raise (.memory e)
  | .ok m => do
    match ← await (.createMemory drawn.2 m) with
    | .error e => raise (.memory e)
    | .ok created => do
      appendMemoryProjectionEvent cfg created
      done created

/-- The loop over the chunks, with the identifiers of their memories. -/
def createChunkMemories (cfg : IngestSettings) (documentId : String) (storageUri : Option String)
    (upload : DocumentUpload) (chunks : List DocumentChunk) : Ingest (List String) :=
  collect (fun chunk => do
    let m ← createChunkMemory cfg upload.currentUser
      (chunkPayload cfg documentId storageUri upload chunks.length chunk)
    done [m.id]) chunks

/-- `_store_uploaded_document`. -/
def storeUploadedDocument (cfg : IngestSettings) (document : UploadedDocument) : Ingest Unit :=
  if cfg.hasDocuments then do
    ofExcept (← await (.createDocument document))
  else done ()

/-- `_update_uploaded_document_metadata`. -/
def updateUploadedDocumentMetadata (cfg : IngestSettings) (documentId : String)
    (metadata : Dict Json) : Ingest Unit :=
  if cfg.hasDocuments then do
    match ← await (.getDocument documentId) with
    | none => done ()
    | some document => do
      let drawn ← await .draw
      await (.saveDocument { document with
        metadata := union document.metadata metadata, updatedAt := drawn.2 })
  else done ()

/-- The chunks of an upload, and their memories and events. -/
def storeChunks (cfg : IngestSettings) (documentId : String) (storageUri : Option String)
    (upload : DocumentUpload) (chunks : List DocumentChunk) : Ingest (List String) :=
  if chunks = [] then
    raise (.documentIngestion "No text chunks were produced from the uploaded document.")
  else do
    let memoryIds ← createChunkMemories cfg documentId storageUri upload chunks
    let memories ← await .listMemories
    appendDocumentCollectionProjectionEvent cfg documentId
      (memories.filter fun m => m.id ∈ memoryIds)
    done memoryIds

/-- What counts the writes, and the answer. -/
def finishUpload (cfg : IngestSettings) (documentId : String) (storageUri : Option String)
    (upload : DocumentUpload) (chunks : List DocumentChunk) (memoryIds : List String) :
    Ingest DocumentIngestionResult := do
  updateUploadedDocumentMetadata cfg documentId [("upload_observability",
    .obj (uploadObservabilityMetadata documentId upload chunks.length memoryIds
      upload.uploadMode.keepsMemories))]
  done {
    documentId := documentId
    filename := upload.filename
    contentType := upload.contentType
    storageUri := storageUri
    textCharacters := upload.text.length
    estimatedTokens := estimateTokens upload.text
    uploadMode := upload.uploadMode.value
    contextAttachmentId := if upload.uploadMode.attaches then some documentId else none
    chunksCreated := chunks.length
    memoryIds := memoryIds }

/-- `ingest_upload` from where it draws the document's id, with as much fuel for the chunks; it
has no result where `chunk_text` does not return. -/
def ingestUpload (cfg : IngestSettings) (upload : DocumentUpload) (documentId : String)
    (fuel : ℕ) : Ingest (Option DocumentIngestionResult) := do
  let storageUri ← await (.uploadToS3 documentId upload.filename upload.currentUser.id)
  let drawn ← await .draw
  storeUploadedDocument cfg (uploadedDocument documentId storageUri upload drawn.2)
  if upload.uploadMode.keepsMemories then
    match chunkText upload.text upload.chunkSizeOrDefault (upload.chunkOverlap.getD 150) fuel with
    | none => done none
    | some chunks => do
      let memoryIds ← storeChunks cfg documentId storageUri upload chunks
      let result ← finishUpload cfg documentId storageUri upload chunks memoryIds
      done (some result)
  else do
    let result ← finishUpload cfg documentId storageUri upload [] []
    done (some result)

end DocumentIngestionService

end OpenAgency
