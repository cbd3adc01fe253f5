/-
GraphBackfill.lean

`GraphProjectionBackfillService`: outbox events for the canonical records as they
are.  Each domain describes its records one after the other and appends the
descriptions under keys of its own.  The keys are there so that a second backfill
appends nothing, and they decide what a backfill after an edit can do: a record
whose key is already in the outbox keeps the description that is stored there.

The domain of executions, which copies the events of the execution log under
their own ids, is left out; the other five are here.
-/
import OpenAgency.GraphOutbox
import OpenAgency.GraphRecords
import OpenAgency.Lib.FirstWins
import OpenAgency.Lib.Wp

namespace OpenAgency

namespace Graph

open Interaction Program

/-! ### The context -/

/-- What a backfill asks its context. -/
inductive BackfillOp where
  | listWorkflows
  | listMemories
  | utcNow
  | uuid4
  | append (event : GraphProjectionEvent)

def BackfillSig : Signature where
  Op := BackfillOp
  Ret
    | .listWorkflows => List WorkflowRecord
    | .listMemories => List MemoryRecord
    | .utcNow => Time
    | .uuid4 => String
    | .append _ => GraphProjectionEvent

abbrev Backfill (α : Type) := Program BackfillSig RuntimeException α

def listWorkflows : Backfill (List WorkflowRecord) :=
  perform (S := BackfillSig) .listWorkflows

def listMemories : Backfill (List MemoryRecord) :=
  perform (S := BackfillSig) .listMemories

def utcNow : Backfill Time := perform (S := BackfillSig) .utcNow

def uuid4 : Backfill String := perform (S := BackfillSig) .uuid4

/-- `graph_projection_event_repo.append`. -/
def append (event : GraphProjectionEvent) : Backfill GraphProjectionEvent :=
  perform (S := BackfillSig) (.append event)

/-- The canonical records, the outbox, and how often the clock was read and an id drawn. -/
structure BackfillWorld where
  workflows : List WorkflowRecord
  memories : List MemoryRecord
  outbox : GraphOutbox
  ticks : ℕ := 0
  draws : ℕ := 0

/-- The clock, and ids that are never drawn twice. -/
structure BackfillEnvironment where
  utcNow : ℕ → Time
  uuid4 : ℕ → String
  uuid4_injective : Function.Injective uuid4
  uuid4_ne : ∀ n, uuid4 n ≠ ""

def backfillHandler (env : BackfillEnvironment) : Handler BackfillSig BackfillWorld
  | .listWorkflows, w => (w.workflows, w)
  | .listMemories, w => (w.memories, w)
  | .utcNow, w => (env.utcNow w.ticks, { w with ticks := w.ticks + 1 })
  | .uuid4, w => (env.uuid4 w.draws, { w with draws := w.draws + 1 })
  | .append event, w =>
    let answer := InMemoryGraphProjectionEventRepository.append w.outbox event
    (answer.1, { w with outbox := answer.2 })

/-! ### Events -/

/-- The arguments an event is built from. -/
structure ProjectionDraft where
  eventType : String
  aggregateType : String
  aggregateId : String
  userId : Option String
  payload : Dict Json
  source : String
  sourceEventId : String

/-- `normalize_projection_event` on the fields that a backfill sets. -/
def normalizeProjectionEvent (event : GraphProjectionEvent) :
    Except RuntimeException GraphProjectionEvent :=
  let event := { event with
    eventType := strip event.eventType
    aggregateType := strip event.aggregateType
    aggregateId := strip event.aggregateId
    source := if strip event.source = "" then "application" else strip event.source }
  if event.eventType = "" then .error ⟨.validationError, "event_type is required"⟩
  else if event.aggregateType = "" then .error ⟨.validationError, "aggregate_type is required"⟩
  else if event.aggregateId = "" then .error ⟨.validationError, "aggregate_id is required"⟩
  else .ok event

/-- The event as it is handed to the validator. -/
def ProjectionDraft.event (d : ProjectionDraft) (eventId : String) (occurredAt : Time) :
    GraphProjectionEvent where
  eventId := eventId
  eventType := d.eventType
  aggregateType := d.aggregateType
  aggregateId := d.aggregateId
  occurredAt := occurredAt
  userId := d.userId
  payload := .obj d.payload
  source := d.source
  sourceEventId := some d.sourceEventId

/-- `_append(GraphProjectionEvent(...))`. -/
def appendDraft (d : ProjectionDraft) : Backfill GraphProjectionEvent := do
  let eventId ← uuid4
  let occurredAt ← utcNow
  let event ← ofExcept (normalizeProjectionEvent (d.event eventId occurredAt))
  append event

/-- The draft with the instant of the backfill in its payload. -/
def ProjectionDraft.backfilledAt (d : ProjectionDraft) (now : Time) : ProjectionDraft :=
  { d with payload := Dict.set d.payload "backfilled_at" (.str (isoformat now)) }

def appendBackfilled (d : ProjectionDraft) : Backfill GraphProjectionEvent := do
  let now ← utcNow
  appendDraft (d.backfilledAt now)

/-! ### Domains -/

inductive BackfillDomain where
  | workflows
  | workflowMemoryLinks
  | memories
  | documents
  | sourceIntelligenceGraphHints
  deriving DecidableEq

/-- The domains in the order of a backfill. -/
def BackfillDomain.all : List BackfillDomain :=
  [.workflows, .workflowMemoryLinks, .memories, .documents, .sourceIntelligenceGraphHints]

def BackfillDomain.name : BackfillDomain → String
  | workflows => "workflows"
  | workflowMemoryLinks => "workflow_memory_links"
  | memories => "memories"
  | documents => "documents"
  | sourceIntelligenceGraphHints => "source_intelligence_graph_hints"

/-- The source of a domain's events. -/
def BackfillDomain.source : BackfillDomain → String
  | workflows => "graph_backfill_workflows"
  | workflowMemoryLinks => "graph_backfill_workflow_memory_links"
  | memories => "graph_backfill_memories"
  | documents => "graph_backfill_documents"
  | sourceIntelligenceGraphHints => "source_intelligence"

/-- The source of the entities a memory's payload names. -/
def entitySource : String := "graph_backfill_memory_entities"

/-- `_normalize_domains`. -/
def normalizeDomains (domains : Option (List String)) : List String :=
  let given := domains.getD []
  if given.isEmpty ∨ "all" ∈ given then
    ["workflows", "workflow_memory_links", "executions", "memories", "documents",
      "source_intelligence_graph_hints"]
  else
    given.map fun
      | "workflow" => "workflows"
      | "workflow-memory-links" => "workflow_memory_links"
      | "execution" => "executions"
      | "memory" => "memories"
      | "document" => "documents"
      | "source-intelligence-graph-hints" => "source_intelligence_graph_hints"
      | "graph-hints" => "source_intelligence_graph_hints"
      | "source_intelligence" => "source_intelligence_graph_hints"
      | domain => domain

section Drafts

variable (lib : Library)

def workflowDraft (workflow : WorkflowRecord) : ProjectionDraft where
  eventType := "workflow.updated"
  aggregateType := "workflow"
  aggregateId := workflow.id
  userId := metadataUserId workflow.metadata
  payload := workflowPayload workflow
  source := BackfillDomain.workflows.source
  sourceEventId := s!"workflow:{workflow.id}:revision:{workflow.versioning.revision}"

def linkDraft (l : MemoryLink) : ProjectionDraft where
  eventType := "workflow_memory_link.updated"
  aggregateType := "workflow_memory_link"
  aggregateId := l.linkId lib
  userId := metadataUserId l.workflow.metadata
  payload := l.payload lib
  source := BackfillDomain.workflowMemoryLinks.source
  sourceEventId := s!"workflow_memory_link:{l.workflow.id}:{l.linkId lib}"

def memoryDraft (memory : MemoryRecord) : ProjectionDraft where
  eventType := if memory.status ≠ .active then "memory.deleted" else "memory.updated"
  aggregateType := "memory"
  aggregateId := memory.id
  userId := memory.createdByUserId
  payload := memoryPayload lib memory
  source := BackfillDomain.memories.source
  sourceEventId := s!"memory:{memory.id}:updated:{isoformat memory.updatedAt}"

/-- The entities named by a memory's payload, under the id of the memory's own event. -/
def entityDraft (memory : MemoryRecord) (candidates : List Json) (sourceEventId : String) :
    ProjectionDraft where
  eventType := "memory.entities.extracted"
  aggregateType := "memory"
  aggregateId := memory.id
  userId := memory.createdByUserId
  payload :=
    [("memory_id", .str memory.id),
      ("document_id", Dict.getJson (memoryMetadataPayload lib memory.metadata) "document_id"),
      ("entities", .arr candidates)]
  source := entitySource
  sourceEventId := sourceEventId

def documentDraft (document : String × List MemoryRecord) : ProjectionDraft where
  eventType := "document_memory_collection.created"
  aggregateType := "document_memory_collection"
  aggregateId := document.1
  userId := document.2.head?.bind MemoryRecord.createdByUserId
  payload := documentPayload lib document.1 document.2
  source := BackfillDomain.documents.source
  sourceEventId :=
    s!"document_memory_collection:{document.1}:{(documentMemoryIds lib document.2).length}"

def graphHintsDraft (memory : MemoryRecord) : ProjectionDraft :=
  let hints := metadataDict memory.metadata "graph_hints"
  { eventType := "memory.source_intelligence.graph_hints.approved"
    aggregateType := "memory"
    aggregateId := memory.id
    userId := memory.createdByUserId
    payload := graphHintsPayload memory
    source := BackfillDomain.sourceIntelligenceGraphHints.source
    sourceEventId := graphHintsSourceEventId lib memory.id (hintList hints "entities")
      (hintList hints "relationships") }

end Drafts

/-! ### The service -/

structure DomainCounts where
  scanned : ℕ
  enqueued : ℕ
  skipped : ℕ

/-- `items[: max(limit, 0)]`. -/
def upTo {α : Type} (limit : ℤ) (items : List α) : List α := items.take (max limit 0).toNat

/-- Append the draft of every item, one event each. -/
def backfillItems {α : Type} (draft : α → ProjectionDraft) (items : List α) :
    Backfill DomainCounts := do
  let events ← collect (fun item => do
    let event ← appendBackfilled (draft item)
    done [event]) items
  done ⟨items.length, events.length, 0⟩

section Service

variable (lib : Library)

/-- `backfill_workflows`. -/
def backfillWorkflows (limit : ℤ) : Backfill DomainCounts := do
  let workflows ← listWorkflows
  backfillItems workflowDraft (upTo limit workflows)

/-- `backfill_workflow_memory_links`. -/
def backfillWorkflowMemoryLinks (limit : ℤ) : Backfill DomainCounts := do
  let workflows ← listWorkflows
  backfillItems (linkDraft lib) (upTo limit (scannedLinks workflows))

/-- `_append_memory_entities`. -/
def appendMemoryEntities (memory : MemoryRecord) (sourceEventId : String) :
    Backfill (List GraphProjectionEvent) :=
  match lib.extract (.obj (memoryPayload lib memory)) with
  | [] => done []
  | candidates => do
    let event ← appendDraft (entityDraft lib memory candidates sourceEventId)
    done [event]

/-- One memory of `backfill_memories`: its event, and that of its entities. -/
def backfillMemory (memory : MemoryRecord) : Backfill (List GraphProjectionEvent) := do
  let projected ← appendBackfilled (memoryDraft lib memory)
  let entities ← appendMemoryEntities lib memory projected.eventId
  done (projected :: entities)

/-- `backfill_memories`. -/
def backfillMemories (limit : ℤ) : Backfill DomainCounts := do
  let memories ← listMemories
  let events ← collect (backfillMemory lib) (upTo limit memories)
  done ⟨(upTo limit memories).length, events.length, 0⟩

/-- `backfill_documents`. -/
def backfillDocuments (limit : ℤ) : Backfill DomainCounts := do
  let memories ← listMemories
  backfillItems (documentDraft lib) (upTo limit (documentGroups memories))

/-- `backfill_source_intelligence_graph_hints`. -/
def backfillSourceIntelligenceGraphHints (limit : ℤ) : Backfill DomainCounts := do
  let memories ← listMemories
  let approved := (upTo limit memories).filter hasApprovedHints
  let counts ← backfillItems (graphHintsDraft lib) approved
  done ⟨(upTo limit memories).length, counts.enqueued,
    (upTo limit memories).length - approved.length⟩

def backfillDomain (limit : ℤ) : BackfillDomain → Backfill DomainCounts
  | .workflows => backfillWorkflows limit
  | .workflowMemoryLinks => backfillWorkflowMemoryLinks lib limit
  | .memories => backfillMemories lib limit
  | .documents => backfillDocuments lib limit
  | .sourceIntelligenceGraphHints => backfillSourceIntelligenceGraphHints lib limit

/-- `backfill`: the counts of each selected domain, in their order. -/
def backfill (domains : Option (List String)) (limit : ℤ) :
    Backfill (List (String × DomainCounts)) :=
  collect (fun domain => do
    let counts ← backfillDomain lib limit domain
    done [(domain.name, counts)])
    (BackfillDomain.all.filter fun domain => domain.name ∈ normalizeDomains domains)

end Service

end Graph

end OpenAgency
