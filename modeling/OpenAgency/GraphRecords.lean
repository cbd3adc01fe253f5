/-
GraphRecords.lean

The canonical records the graph projection is filled from, and what each of them
is described by: the payloads that `GraphProjectionBackfillService` builds of
workflows, of the memory links in a workflow's metadata, of memories and of the
documents whose chunks memories are.

Only the fields that a payload or a key is made of are there.  What the code takes
from the standard library and what the entity extractor finds in a payload are
parameters.
-/
import Mathlib.Data.List.Sort
import Mathlib.Data.String.Basic
import OpenAgency.Domain.Basic

namespace OpenAgency

open Dict

namespace Graph

/-! ### Surroundings -/

/-- What the payloads take from elsewhere. -/
structure Library where
  /-- `str(value)` of a value that is not a string. -/
  repr : Json → String
  /-- `int(s)`, unless it raises. -/
  int : String → Option ℤ
  /-- `float(s)`, unless it raises or the result is no number. -/
  float : String → Option ℚ
  /-- `json.dumps` with sorted keys. -/
  dumps : Json → String
  /-- `hashlib.sha1(...).hexdigest()`. -/
  sha1 : String → String
  /-- `MemoryEntityExtractor().extract`, as projection payloads. -/
  extract : Json → List Json
  /-- `get_settings().graph_document_projection_max_chunks`. -/
  graphDocumentProjectionMaxChunks : ℤ

namespace Library

variable (lib : Library)

/-- `str(value)`. -/
def strOf : Json → String
  | .str s => s
  | value => lib.repr value

/-- `float(value)`, unless it raises. -/
def floatOf : Json → Option ℚ
  | .num q => some q
  | .bool b => some (if b then 1 else 0)
  | .str s => lib.float s
  | _ => none

/-- `int(value)`, unless it raises. -/
def intOf : Json → Option ℤ
  | .num q => some (q.num.tdiv q.den)
  | .bool b => some (if b then 1 else 0)
  | .str s => lib.int s
  | _ => none

end Library

/-! ### Workflows -/

structure AgentRecord where
  id : String
  name : String
  displayName : Option String
  description : Option String
  role : Option String
  modelProfileId : Option String
  toolIds : List String
  handoffAgentIds : List String
  memoryEnabled : Bool
  memoryScope : Option String
  memoryStrategy : Option String
  memoryBackendRef : Option String

structure TaskRecord where
  id : String
  name : String
  description : String
  agentId : Option String
  toolIds : List String
  dependsOnTaskIds : List String
  humanApprovalRequired : Bool
  inputSchema : Dict Json
  outputSchema : Dict Json

structure ToolRecord where
  id : String
  name : String
  displayName : Option String
  description : String
  toolType : String
  tags : List String
  requiresApproval : Bool
  sandboxRequired : Bool
  allowShell : Bool
  allowBrowser : Bool
  allowFilesystem : Bool
  allowNetwork : Bool
  readOnly : Bool
  readOnlySql : Bool
  dangerous : Bool
  inputSchema : Dict Json
  outputSchema : Dict Json

structure NodeRecord where
  id : String
  name : String
  nodeType : String
  agentId : Option String
  taskId : Option String
  toolId : Option String

structure EdgeRecord where
  id : String
  sourceNodeId : String
  targetNodeId : String
  edgeType : String
  condition : Option String

structure VersionDefinition where
  version : String := "1.0.0"
  revision : ℕ := 1
  isPublished : Bool := false
  labels : List String := []

structure WorkflowRecord where
  id : String
  name : String
  description : Option String := none
  entrypoint : String
  versioning : VersionDefinition := {}
  defaultRuntimeAdapterId : Option String := none
  allowedRuntimeAdapterIds : List String := []
  agentDefinitions : List AgentRecord := []
  taskDefinitions : List TaskRecord := []
  toolDefinitions : List ToolRecord := []
  nodes : List NodeRecord := []
  edges : List EdgeRecord := []
  metadata : Dict Json := []

/-- `_agent_payload`. -/
def agentPayload (agent : AgentRecord) : Json := .obj
  [("id", .str agent.id), ("name", .str agent.name),
    ("display_name", .ofOption agent.displayName), ("description", .ofOption agent.description),
    ("role", .ofOption agent.role), ("model_profile_id", .ofOption agent.modelProfileId),
    ("tool_ids", .strs agent.toolIds), ("handoff_agent_ids", .strs agent.handoffAgentIds),
    ("memory_enabled", .bool agent.memoryEnabled), ("memory_scope", .ofOption agent.memoryScope),
    ("memory_strategy", .ofOption agent.memoryStrategy),
    ("memory_backend_ref", .ofOption agent.memoryBackendRef)]

/-- `_task_payload`. -/
def taskPayload (task : TaskRecord) : Json := .obj
  [("id", .str task.id), ("name", .str task.name), ("description", .str task.description),
    ("agent_id", .ofOption task.agentId), ("tool_ids", .strs task.toolIds),
    ("depends_on_task_ids", .strs task.dependsOnTaskIds),
    ("human_approval_required", .bool task.humanApprovalRequired),
    ("has_input_schema", .bool (!task.inputSchema.isEmpty)),
    ("has_output_schema", .bool (!task.outputSchema.isEmpty))]

/-- `_tool_payload`. -/
def toolPayload (tool : ToolRecord) : Json := .obj
  [("id", .str tool.id), ("name", .str tool.name), ("display_name", .ofOption tool.displayName),
    ("description", .str tool.description), ("tool_type", .str tool.toolType),
    ("tags", .strs tool.tags), ("requires_approval", .bool tool.requiresApproval),
    ("sandbox_required", .bool tool.sandboxRequired), ("allow_shell", .bool tool.allowShell),
    ("allow_browser", .bool tool.allowBrowser), ("allow_filesystem", .bool tool.allowFilesystem),
    ("allow_network", .bool tool.allowNetwork), ("read_only", .bool tool.readOnly),
    ("read_only_sql", .bool tool.readOnlySql), ("dangerous", .bool tool.dangerous),
    ("has_input_schema", .bool (!tool.inputSchema.isEmpty)),
    ("has_output_schema", .bool (!tool.outputSchema.isEmpty))]

/-- `_workflow_node_payload`. -/
def workflowNodePayload (node : NodeRecord) : Json := .obj
  [("id", .str node.id), ("name", .str node.name), ("node_type", .str node.nodeType),
    ("agent_id", .ofOption node.agentId), ("task_id", .ofOption node.taskId),
    ("tool_id", .ofOption node.toolId)]

/-- `_workflow_edge_payload`. -/
def workflowEdgePayload (edge : EdgeRecord) : Json := .obj
  [("id", .str edge.id), ("source_node_id", .str edge.sourceNodeId),
    ("target_node_id", .str edge.targetNodeId), ("edge_type", .str edge.edgeType),
    ("has_condition", .bool (Json.ofOption edge.condition).truthy)]

/-- The payload of a workflow in `backfill_workflows`. -/
def workflowPayload (workflow : WorkflowRecord) : Dict Json :=
  [("workflow_id", .str workflow.id), ("name", .str workflow.name),
    ("description", .ofOption workflow.description), ("entrypoint", .str workflow.entrypoint),
    ("revision", .nat workflow.versioning.revision),
    ("is_published", .bool workflow.versioning.isPublished),
    ("version", .str workflow.versioning.version), ("labels", .strs workflow.versioning.labels),
    ("default_runtime_adapter_id", .ofOption workflow.defaultRuntimeAdapterId),
    ("allowed_runtime_adapter_ids", .strs workflow.allowedRuntimeAdapterIds),
    ("agents", .arr ((workflow.agentDefinitions.filter (·.id ≠ "")).map agentPayload)),
    ("tasks", .arr ((workflow.taskDefinitions.filter (·.id ≠ "")).map taskPayload)),
    ("tools", .arr ((workflow.toolDefinitions.filter (·.id ≠ "")).map toolPayload)),
    ("nodes", .arr ((workflow.nodes.filter (·.id ≠ "")).map workflowNodePayload)),
    ("edges", .arr ((workflow.edges.filter (·.id ≠ "")).map workflowEdgePayload))]

/-- `_metadata_user_id`. -/
def metadataUserId (metadata : Dict Json) : Option String :=
  ((metadata.getJson "updated_by").orElse (metadata.getJson "created_by")).asStr?

/-! ### Memory links -/

/-- `_workflow_memory_links`. -/
def workflowMemoryLinks (metadata : Dict Json) : List (Dict Json) :=
  match metadata.get? "memory_links" with
  | some (.arr items) => items.filterMap fun
      | .obj fields => some fields
      | _ => none
  | _ => []

/-- The memory link at a place, counted from one, in a backfill's scan of all workflows. -/
structure MemoryLink where
  workflow : WorkflowRecord
  link : Dict Json
  scanned : ℕ

/-- The links of all workflows, in the order in which a backfill scans them. -/
def scannedLinks (workflows : List WorkflowRecord) : List MemoryLink :=
  ((workflows.flatMap fun workflow =>
      (workflowMemoryLinks workflow.metadata).map (Prod.mk workflow)).zipIdx 1).map
    fun ((workflow, link), scanned) => ⟨workflow, link, scanned⟩

/-- `link_id`. -/
def MemoryLink.linkId (lib : Library) (l : MemoryLink) : String :=
  let id := l.link.getJson "id"
  if id.truthy then lib.strOf id
  else
    let ref := l.link.getJson "ref_id"
    l.workflow.id ++ ":" ++ if ref.truthy then lib.strOf ref else toString l.scanned

/-- `_serialize_workflow_memory_link`. -/
def serializeWorkflowMemoryLink (lib : Library) (workflowId : String) (link : Dict Json) : Json :=
  let get := link.getJson
  let strOf (value : Json) : Json := .str (lib.strOf value)
  let memoryIds := match get "memory_ids" with
    | .arr items => .arr items
    | _ => (get "memoryIds").orElse (.arr [])
  .obj
    [("id", strOf ((get "id").orElse (.str ""))), ("workflowId", .str workflowId),
      ("targetType", strOf (((get "target_type").orElse (get "targetType")).orElse (.str ""))),
      ("targetId", (get "target_id").orElse (get "targetId")),
      ("refType", strOf (((get "ref_type").orElse (get "refType")).orElse (.str ""))),
      ("refId", strOf (((get "ref_id").orElse (get "refId")).orElse (.str ""))),
      ("memoryIds", memoryIds),
      ("accessMode", strOf (((get "access_mode").orElse (get "accessMode")).orElse (.str "read"))),
      ("label", get "label"),
      ("createdAt", (get "created_at").orElse (get "createdAt")),
      ("createdBy", (get "created_by").orElse (get "createdBy")),
      ("updatedAt", (get "updated_at").orElse (get "updatedAt")),
      ("updatedBy", (get "updated_by").orElse (get "updatedBy"))]

/-- The payload of a link in `backfill_workflow_memory_links`. -/
def MemoryLink.payload (lib : Library) (l : MemoryLink) : Dict Json :=
  [("workflow_id", .str l.workflow.id),
    ("link", serializeWorkflowMemoryLink lib l.workflow.id l.link)]

/-! ### Memories -/

inductive MemoryScope where
  | user
  | workspace
  | conversation
  | workflow
  | global

def MemoryScope.value : MemoryScope → String
  | user => "user"
  | workspace => "workspace"
  | conversation => "conversation"
  | workflow => "workflow"
  | global => "global"

inductive MemoryType where
  | fact
  | preference
  | dailySummary
  | contextPack
  | decision
  | taskCommitment
  | archive
  | runSummary

def MemoryType.value : MemoryType → String
  | fact => "fact"
  | preference => "preference"
  | dailySummary => "daily_summary"
  | contextPack => "context_pack"
  | decision => "decision"
  | taskCommitment => "task_commitment"
  | archive => "archive"
  | runSummary => "run_summary"

inductive MemoryStatus where
  | active
  | superseded
  | archived
  deriving DecidableEq

def MemoryStatus.value : MemoryStatus → String
  | active => "active"
  | superseded => "superseded"
  | archived => "archived"

structure MemoryRecord where
  id : String
  scope : MemoryScope
  summary : Option String := none
  tags : List String := []
  isSensitive : Bool := false
  createdByUserId : Option String := none
  workspaceId : Option String := none
  conversationId : Option String := none
  workflowId : Option String := none
  agentId : Option String := none
  source : Option String := none
  memoryType : Option MemoryType := none
  status : MemoryStatus := .active
  importance : ℕ := 50
  summaryDate : Option Time := none
  archivedWindowStart : Option Time := none
  archivedWindowEnd : Option Time := none
  sourceConversationId : Option String := none
  sourceExecutionId : Option String := none
  supersedesMemoryId : Option String := none
  metadata : Dict Json := []
  embeddingModelProfileId : Option String := none
  createdAt : Time
  updatedAt : Time

/-- The metadata keys that a memory's payload keeps. -/
def metadataAllowlist : List String :=
  ["document_id", "filename", "content_type", "content_sha256", "chunk_index", "chunk_count",
    "start_char", "end_char", "semantic_hint", "mode", "source_range", "target_scope",
    "source_message_start_id", "source_message_end_id", "source_message_start_at",
    "source_message_end_at", "source_message_count", "compactable_message_count",
    "output_format", "generation_strategy", "schema_version", "graph_context_source",
    "graph_working_set_id", "working_set_id", "created_from_graph_working_set",
    "graph_provenance", "task_id", "execution_id", "source_model_request_id", "compacted",
    "compaction_reason", "estimated_tokens_saved", "decisions", "constraints",
    "open_questions", "next_actions", "source_intelligence", "graph_hints", "vector_tags"]

/-- The name, the type and the confidence an entity hint gives, if it is one. -/
def entityHintFields (lib : Library) : Json → Option (String × String × Json)
  | .str name => some (strip name, "concept", .num (85 / 100))
  | .obj item =>
    let get := getJson item
    some (strip (lib.strOf ((get "name").orElse (.str ""))),
      strip (lib.strOf (((get "type").orElse (get "entity_type")).orElse (.str "concept"))),
      (get? item "confidence").getD (.num (9 / 10)))
  | _ => none

/-- One hint of `_projection_entity_hints`. -/
def projectionEntityHint (lib : Library) (item : Json) : Option Json :=
  match entityHintFields lib item with
  | none => none
  | some (name, entityType, confidence) =>
    if name = "" then none
    else
      let entityType := takeChars 64 entityType
      some (.obj
        [("name", .str (takeChars 160 name)),
          ("type", .str (if entityType = "" then "concept" else entityType)),
          ("confidence", .num (max 0 (min ((lib.floatOf confidence).getD 0) 1)))])

/-- `_projection_entity_hints`. -/
def projectionEntityHints (lib : Library) (metadata : Dict Json) : List Json :=
  match (metadata.getJson "entity_hints").orElse (metadata.getJson "entities") with
  | .arr items => (items.filterMap (projectionEntityHint lib)).take 25
  | _ => []

def isoformatOrNone (t : Option Time) : Json := .ofOption (t.map isoformat)

/-- The metadata of `graph_projection_payload_for_memory`. -/
def memoryMetadataPayload (lib : Library) (metadata : Dict Json) : Dict Json :=
  let allowed := metadataAllowlist.filterMap fun key => (metadata.get? key).map (Prod.mk key)
  match projectionEntityHints lib metadata with
  | [] => allowed
  | hints => set allowed "entity_hints" (.arr hints)

/-- `graph_projection_payload_for_memory`. -/
def memoryPayload (lib : Library) (memory : MemoryRecord) : Dict Json :=
  [("memory_id", .str memory.id), ("scope", .str memory.scope.value),
    ("summary", if memory.isSensitive then .null else .ofOption memory.summary),
    ("tags", .strs memory.tags), ("sensitive", .bool memory.isSensitive),
    ("created_by_user_id", .ofOption memory.createdByUserId),
    ("workspace_id", .ofOption memory.workspaceId),
    ("missing_embedding", .bool (!(Json.ofOption memory.embeddingModelProfileId).truthy)),
    ("conversation_id", .ofOption memory.conversationId),
    ("workflow_id", .ofOption memory.workflowId), ("agent_id", .ofOption memory.agentId),
    ("source", .ofOption memory.source),
    ("memory_type", .ofOption (memory.memoryType.map MemoryType.value)),
    ("status", .str memory.status.value), ("importance", .nat memory.importance),
    ("summary_date", isoformatOrNone memory.summaryDate),
    ("archived_window_start", isoformatOrNone memory.archivedWindowStart),
    ("archived_window_end", isoformatOrNone memory.archivedWindowEnd),
    ("source_conversation_id", .ofOption memory.sourceConversationId),
    ("source_execution_id", .ofOption memory.sourceExecutionId),
    ("supersedes_memory_id", .ofOption memory.supersedesMemoryId),
    ("metadata", .obj (memoryMetadataPayload lib memory.metadata)),
    ("created_at", .str (isoformat memory.createdAt)),
    ("updated_at", .str (isoformat memory.updatedAt))]

/-! ### Documents -/

/-- `_document_chunk_sort_key`. -/
def documentChunkSortKey (lib : Library) (memory : MemoryRecord) : ℤ × String :=
  ((lib.intOf (memory.metadata.getJson "chunk_index")).getD (10 ^ 9), memory.id)

/-- `_bounded_document_projection_ids`. -/
def boundedDocumentProjectionIds (memoryIds : List String) (maxChunks : ℤ) : List String :=
  if maxChunks ≤ 0 then memoryIds else memoryIds.take maxChunks.toNat

/-- The document a memory is a chunk of. -/
def documentIdOf (memory : MemoryRecord) : Option String :=
  match memory.metadata.getJson "document_id" with
  | .str s => if strip s = "" then none else some (strip s)
  | _ => none

/-- `groups` in `backfill_documents`: the memories of each document. -/
def documentGroups (memories : List MemoryRecord) : Dict (List MemoryRecord) :=
  memories.foldl (fun groups memory =>
    match documentIdOf memory with
    | some documentId =>
      set groups documentId ((get? groups documentId).getD [] ++ [memory])
    | none => groups) []

/-- The ids of a document's memories in the order of their chunks. -/
def documentMemoryIds (lib : Library) (memories : List MemoryRecord) : List String :=
  (memories.insertionSort fun a b =>
      let ka := documentChunkSortKey lib a
      let kb := documentChunkSortKey lib b
      ka.1 < kb.1 ∨ ka.1 = kb.1 ∧ ka.2 ≤ kb.2).map MemoryRecord.id

/-- `_document_payload`. -/
def documentPayload (lib : Library) (documentId : String) (memories : List MemoryRecord) :
    Dict Json :=
  let representative := memories.head?
  let field (f : MemoryRecord → Option String) : Json := .ofOption (representative.bind f)
  let metadata := getJson (representative.elim [] MemoryRecord.metadata)
  let memoryIds := documentMemoryIds lib memories
  let projected := boundedDocumentProjectionIds memoryIds lib.graphDocumentProjectionMaxChunks
  [("document_id", .str documentId), ("scope", field fun m => some m.scope.value),
    ("created_by_user_id", field MemoryRecord.createdByUserId),
    ("workspace_id", field MemoryRecord.workspaceId),
    ("conversation_id", field MemoryRecord.conversationId),
    ("workflow_id", field MemoryRecord.workflowId), ("agent_id", field MemoryRecord.agentId),
    ("filename", metadata "filename"), ("content_type", metadata "content_type"),
    ("content_sha256", metadata "content_sha256"), ("memory_ids", .strs projected),
    ("chunk_count", .nat memoryIds.length), ("projected_chunk_count", .nat projected.length),
    ("omitted_chunk_count", .nat (memoryIds.length - projected.length)),
    ("projection_capped", .bool (projected.length < memoryIds.length)),
    ("source", .str "graph_backfill")]

/-! ### Approved graph hints -/

/-- The dict under a metadata key; empty if there is none. -/
def metadataDict (metadata : Dict Json) (key : String) : Dict Json :=
  match metadata.get? key with
  | some (.obj fields) => fields
  | _ => []

/-- The list under a key of the graph hints; empty if there is none. -/
def hintList (hints : Dict Json) (key : String) : List Json :=
  match hints.get? key with
  | some (.arr items) => items
  | _ => []

/-- A memory whose graph hints are approved and name something. -/
def hasApprovedHints (memory : MemoryRecord) : Bool :=
  let hints := metadataDict memory.metadata "graph_hints"
  (hints.getJson "review_status").asStr? = some "approved" && memory.status = .active &&
    !((hintList hints "entities").isEmpty && (hintList hints "relationships").isEmpty)

/-- `SourceIntelligenceService.source_ref`. -/
def sourceRef (memory : MemoryRecord) : Json := .obj
  [("memory_id", .str memory.id), ("document_id", memory.metadata.getJson "document_id"),
    ("filename", memory.metadata.getJson "filename"),
    ("chunk_index", memory.metadata.getJson "chunk_index"), ("confidence", .num (75 / 100))]

/-- `_graph_hints_source_event_id`. -/
def graphHintsSourceEventId (lib : Library) (memoryId : String) (entities relationships : List Json) :
    String :=
  let payload := lib.dumps (.obj [("entities", .arr entities), ("relationships", .arr relationships)])
  "memory-graph-hints:" ++ takeChars 16 (lib.sha1 memoryId) ++ ":" ++
    takeChars 16 (lib.sha1 payload)

/-- The payload of a memory in `backfill_source_intelligence_graph_hints`. -/
def graphHintsPayload (memory : MemoryRecord) : Dict Json :=
  let hints := metadataDict memory.metadata "graph_hints"
  [("memory_id", .str memory.id), ("document_id", memory.metadata.getJson "document_id"),
    ("filename", memory.metadata.getJson "filename"),
    ("chunk_index", memory.metadata.getJson "chunk_index"),
    ("status", .str memory.status.value), ("source_ref", sourceRef memory),
    ("source_intelligence", .obj (metadataDict memory.metadata "source_intelligence")),
    ("graph_hints", .obj hints), ("entities", .arr (hintList hints "entities")),
    ("relationships", .arr (hintList hints "relationships")), ("review", hints.getJson "review")]

end Graph

end OpenAgency
