/-
WorkflowCatalog.lean

The two repositories of workflow definitions.  `SQLWorkflowRepository` keeps a row of each
workflow with a pointer to its current revision, and its contents in a row of each revision;
a deleted workflow has its `enabled` flag down.  `InMemoryWorkflowCatalogRepository` keeps
the current contents with a mark of their deletion, and the versions beside them.

Both hold workflows as dumped fields, and read them back through the validation of the
domain model, which is a parameter (`WorkflowModel`).  The projection events of the SQL
repository are left out, and all readings of the clock in one call answer the same.
-/
import OpenAgency.ConversationApprovals
import OpenAgency.Lib.Table

namespace OpenAgency

open Relational

/-! ### Definitions as they are dumped -/

namespace WorkflowField

/-- The key of a field in a dump. -/
def key : WorkflowField → String
  | name => "name"
  | description => "description"
  | nodes => "nodes"
  | edges => "edges"
  | entrypoint => "entrypoint"
  | taskDefinitions => "task_definitions"
  | agentDefinitions => "agent_definitions"
  | toolDefinitions => "tool_definitions"
  | allowedRuntimeAdapterIds => "allowed_runtime_adapter_ids"
  | defaultRuntimeAdapterId => "default_runtime_adapter_id"
  | maxRuntimeSeconds => "max_runtime_seconds"
  | maxRetries => "max_retries"
  | concurrencyLimit => "concurrency_limit"
  | approvalMode => "approval_mode"
  | frameworkHints => "framework_hints"

/-- The fields that come before the versioning in a dump. -/
def leading : List WorkflowField := [name, description, nodes, edges, entrypoint,
  taskDefinitions, agentDefinitions, toolDefinitions, allowedRuntimeAdapterIds,
  defaultRuntimeAdapterId, maxRuntimeSeconds, maxRetries, concurrencyLimit, approvalMode]

end WorkflowField

def WorkflowVersioning.modelDump (v : WorkflowVersioning) : Dict Json := [
  ("version", .str v.version),
  ("revision", .num v.revision),
  ("parent_version", .ofOption v.parentVersion),
  ("is_published", .bool v.isPublished),
  ("labels", .strs v.labels)]

namespace CatalogWorkflow

variable (w : CatalogWorkflow)

/-- `model_dump(mode="json")`. -/
def modelDump : Dict Json :=
  ("id", .str w.id) :: WorkflowField.leading.map (fun f => (f.key, w.field f)) ++ [
    ("versioning", .obj w.versioning.modelDump),
    ("framework_hints", w.field .frameworkHints),
    ("metadata", .obj w.metadata)]

abbrev revision : ℤ := w.versioning.revision

/-- The identifier of the version that a workflow is. -/
def versionId (workflowId : String) (revision : ℤ) : String := s!"{workflowId}:v{revision}"

def status : String := if w.versioning.isPublished then "published" else "draft"

/-- The instant of publication, for a workflow stored at `now`. -/
def publishedAt (now : Time) : Option Time := if w.versioning.isPublished then some now else none

end CatalogWorkflow

/-- `WorkflowDefinition.model_validate`, as far as the repositories depend on it: it keeps an
identifier, and it accepts the dump of what it has answered without a change. -/
structure WorkflowModel where
  validate : Dict Json → Except RuntimeException CatalogWorkflow
  reads_id : ∀ {d w}, validate d = .ok w → d.getJson "id" = .str w.id
  redump : ∀ {d w}, validate d = .ok w → validate w.modelDump = .ok w

/-- A workflow that has been validated. -/
abbrev WorkflowModel.Workflow (m : WorkflowModel) : Type :=
  { w : CatalogWorkflow // m.validate w.modelDump = .ok w }

/-- A version as `list_versions` shows it. -/
structure VersionRecord where
  id : String
  workflowId : String
  revision : ℤ
  version : Json
  status : String
  labels : Json
  parentVersion : Json
  isPublished : Bool
  isCurrent : Bool := false
  definition : Dict Json
  createdAt : Time
  publishedAt : Option Time
  provenance : Json

/-! ### Calls -/

inductive WorkflowCall (m : WorkflowModel) where
  | create (item : m.Workflow)
  | save (item : m.Workflow)
  | update (id : String) (patch : Dict Json)
  | softDelete (id : String)
  | get (id : String) (includeDeleted : Bool)
  | list (includeDeleted : Bool)
  | listVersions (id : String)
  | getVersion (id : String) (revision : ℤ)

inductive CatalogAnswer where
  | workflow (w : CatalogWorkflow)
  | found (w : Option CatalogWorkflow)
  | workflows (ws : List CatalogWorkflow)
  | flag (ok : Bool)
  | versions (vs : List VersionRecord)
  | version (v : Option VersionRecord)

/-! ### The SQL repository -/

structure WorkflowORM where
  id : String
  name : Json
  description : Json
  currentVersion : Option ℤ
  enabled : Bool

structure WorkflowVersionORM where
  id : String
  workflowId : String
  version : ℤ
  status : String
  definitionJson : Dict Json
  createdAt : Time
  publishedAt : Option Time

structure SqlWorkflows where
  workflows : Table fun row : WorkflowORM => row.id := Table.empty
  versions : Table fun row : WorkflowVersionORM => row.id := Table.empty

/-- The row of a workflow. -/
def WorkflowORM.ofItem (item : CatalogWorkflow) : WorkflowORM where
  id := item.id
  name := item.field .name
  description := item.field .description
  currentVersion := some item.revision
  enabled := true

/-- The row of the version that a workflow is, created and stored at the given times. -/
def WorkflowVersionORM.ofItem (item : CatalogWorkflow) (createdAt now : Time) :
    WorkflowVersionORM where
  id := CatalogWorkflow.versionId item.id item.revision
  workflowId := item.id
  version := item.revision
  status := item.status
  definitionJson := item.modelDump
  createdAt := createdAt
  publishedAt := item.publishedAt now

/-- A version row as it is listed, where `current` is the pointer of its workflow. -/
def WorkflowVersionORM.toRecord (row : WorkflowVersionORM) (current : Option ℤ) :
    VersionRecord :=
  let definition := row.definitionJson
  let versioning := ((definition.get? "versioning").bind Json.asDict?).getD []
  let metadata := ((definition.get? "metadata").bind Json.asDict?).getD []
  { id := row.id
    workflowId := row.workflowId
    revision := row.version
    version := Dict.getJson versioning "version"
    status := row.status
    labels := (Dict.getJson versioning "labels").orElse (.arr [])
    parentVersion := Dict.getJson versioning "parent_version"
    isPublished := (Dict.getJson versioning "is_published").isTrue
    isCurrent := some row.version = current
    definition := definition
    createdAt := row.createdAt
    publishedAt := row.publishedAt
    provenance := Dict.getJson metadata "provenance" }

namespace SqlWorkflows

variable (m : WorkflowModel) (s : SqlWorkflows)

/-- `workflow.current_version or 1`. -/
def versionNumber : Option ℤ → ℤ
  | some 0 | none => 1
  | some n => n

/-- `scalar_one_or_none`: a unique constraint rules out a second row. -/
def versionOf (workflowId : String) (revision : ℤ) : Option WorkflowVersionORM :=
  (s.versions.select fun row => row.workflowId = workflowId && row.version = revision).head?

/-- `_load_domain`. -/
def loadDomain (workflowId : String) : Except RuntimeException (Option CatalogWorkflow) :=
  match s.workflows.get workflowId with
  | none => .ok none
  | some workflow =>
    if !workflow.enabled then .ok none
    else
      match s.versionOf workflowId (versionNumber workflow.currentVersion) with
      | none => .ok none
      | some version =>
        let payload := version.definitionJson.set "id" (.str workflow.id)
        let payload := payload.set "name" workflow.name
        let payload := payload.set "description" workflow.description
        some <$> m.validate payload

def create (now : Time) (item : CatalogWorkflow) :
    Except RuntimeException CatalogWorkflow × SqlWorkflows :=
  let version := WorkflowVersionORM.ofItem item now now
  if (s.workflows.get item.id).isSome || (s.versions.get version.id).isSome then
    (.error ⟨.integrityError, "UNIQUE constraint failed"⟩, s)
  else
    (.ok item, ⟨s.workflows.save (.ofItem item), s.versions.save version⟩)

def save (now : Time) (item : CatalogWorkflow) : CatalogWorkflow × SqlWorkflows :=
  let existing := s.versions.get (CatalogWorkflow.versionId item.id item.revision)
  let createdAt := (existing.map (·.createdAt)).getD now
  (item, ⟨s.workflows.save (.ofItem item), s.versions.save (.ofItem item createdAt now)⟩)

/-- By name; the order of equal names is left open. -/
def byName (a b : WorkflowORM) : Bool := a.name.asStr?.getD "" ≤ b.name.asStr?.getD ""

def list (includeDeleted : Bool) : Except RuntimeException (List CatalogWorkflow) :=
  let rows := s.workflows.selectOrdered (fun row => includeDeleted || row.enabled) byName
  (·.reduceOption) <$> rows.mapM fun row => s.loadDomain m row.id

def get (id : String) (includeDeleted : Bool) :
    Except RuntimeException (Option CatalogWorkflow) :=
  match s.workflows.get id with
  | none => .ok none
  | some workflow =>
    if !includeDeleted && !workflow.enabled then .ok none
    else s.loadDomain m id

def update (now : Time) (id : String) (patch : Dict Json) :
    Except RuntimeException (Option CatalogWorkflow) × SqlWorkflows :=
  match s.get m id true with
  | .error e => (.error e, s)
  | .ok none => (.ok none, s)
  | .ok (some current) =>
    match m.validate (current.modelDump.union patch) with
    | .error e => (.error e, s)
    | .ok item => (.ok (some (s.save now item).1), (s.save now item).2)

def softDelete (id : String) : Bool × SqlWorkflows :=
  match s.workflows.get id with
  | none => (false, s)
  | some workflow =>
    (true, { s with workflows := s.workflows.save { workflow with enabled := false } })

/-- `ORDER BY version DESC`. -/
def versionDesc (a b : WorkflowVersionORM) : Bool := b.version ≤ a.version

def listVersions (id : String) : List VersionRecord :=
  match s.workflows.get id with
  | none => []
  | some workflow =>
    (s.versions.selectOrdered (·.workflowId = id) versionDesc).map
      (·.toRecord workflow.currentVersion)

def getVersion (id : String) (revision : ℤ) : Option VersionRecord :=
  match s.workflows.get id with
  | none => none
  | some workflow => (s.versionOf id revision).map (·.toRecord workflow.currentVersion)

/-- `SQLWorkflowRepository`: a call made at `now`. -/
def answer (now : Time) :
    WorkflowCall m → SqlWorkflows → Except RuntimeException CatalogAnswer × SqlWorkflows
  | .create item, s => ((s.create now item.1).1.map .workflow, (s.create now item.1).2)
  | .save item, s => (.ok (.workflow (s.save now item.1).1), (s.save now item.1).2)
  | .update id patch, s => ((s.update m now id patch).1.map .found, (s.update m now id patch).2)
  | .softDelete id, s => (.ok (.flag (s.softDelete id).1), (s.softDelete id).2)
  | .get id includeDeleted, s => ((s.get m id includeDeleted).map .found, s)
  | .list includeDeleted, s => ((s.list m includeDeleted).map .workflows, s)
  | .listVersions id, s => (.ok (.versions (s.listVersions id)), s)
  | .getVersion id revision, s => (.ok (.version (s.getVersion id revision)), s)

end SqlWorkflows

/-! ### The in-memory repository -/

/-- A payload with its marks `_deleted_at` and `_updated_at`. -/
structure StoredWorkflow where
  id : String
  payload : Dict Json
  deletedAt : Option Time
  updatedAt : Time

structure MemoryWorkflows where
  items : Catalog fun item : StoredWorkflow => item.id := Catalog.empty
  /-- The versions of each workflow by revision. -/
  versions : Table fun v : VersionRecord => (v.workflowId, v.revision) := Table.empty

/-- `_version_payload`, created and stored at the given times. -/
def CatalogWorkflow.versionPayload (w : CatalogWorkflow) (createdAt now : Time) : VersionRecord where
  id := versionId w.id w.revision
  workflowId := w.id
  revision := w.revision
  version := .str w.versioning.version
  status := w.status
  labels := .strs w.versioning.labels
  parentVersion := .ofOption w.versioning.parentVersion
  isPublished := w.versioning.isPublished
  definition := w.modelDump
  createdAt := createdAt
  publishedAt := w.publishedAt now
  provenance := w.metadata.getJson "provenance"

namespace MemoryWorkflows

variable (m : WorkflowModel) (s : MemoryWorkflows)

/-- `_remember_version`. -/
def rememberVersion (now : Time) (w : CatalogWorkflow) : MemoryWorkflows :=
  let existing := s.versions.get (w.id, w.revision)
  let createdAt := (existing.map (·.createdAt)).getD now
  { s with versions := s.versions.save (w.versionPayload createdAt now) }

/-- An item is stored, read back and remembered. -/
def store (now : Time) (deletedAt : Option Time) (item : CatalogWorkflow) :
    Except RuntimeException CatalogWorkflow × MemoryWorkflows :=
  let stored := { s with items := s.items.put ⟨item.id, item.modelDump, deletedAt, now⟩ }
  match m.validate item.modelDump with
  | .error e => (.error e, stored)
  | .ok w => (.ok w, stored.rememberVersion now w)

def create (now : Time) (item : CatalogWorkflow) :
    Except RuntimeException CatalogWorkflow × MemoryWorkflows := s.store m now none item

def save (now : Time) (item : CatalogWorkflow) :
    Except RuntimeException CatalogWorkflow × MemoryWorkflows :=
  s.store m now ((s.items.get item.id).bind (·.deletedAt)) item

def list (includeDeleted : Bool) : Except RuntimeException (List CatalogWorkflow) :=
  (s.items.items.filter fun item => includeDeleted || item.deletedAt.isNone).mapM fun item =>
    m.validate item.payload

def get (id : String) (includeDeleted : Bool) :
    Except RuntimeException (Option CatalogWorkflow) :=
  match s.items.get id with
  | none => .ok none
  | some item =>
    if !includeDeleted && item.deletedAt.isSome then .ok none
    else some <$> m.validate item.payload

/-- `update`: what is saved is remembered once more. -/
def update (now : Time) (id : String) (patch : Dict Json) :
    Except RuntimeException (Option CatalogWorkflow) × MemoryWorkflows :=
  match s.items.get id with
  | none => (.ok none, s)
  | some existing =>
    if existing.deletedAt.isSome then (.ok none, s)
    else
      match m.validate ((existing.payload.union patch).set "id" (.str id)) with
      | .error e => (.error e, s)
      | .ok model =>
        match s.save m now model with
        | (.error e, saved) => (.error e, saved)
        | (.ok updated, saved) => (.ok (some updated), saved.rememberVersion now updated)

def softDelete (now : Time) (id : String) : Bool × MemoryWorkflows :=
  match s.items.get id with
  | none => (false, s)
  | some existing =>
    if existing.deletedAt.isSome then (false, s)
    else
      (true, { s with
        items := s.items.put { existing with deletedAt := some now, updatedAt := now } })

/-- `reverse=True` on the revision. -/
def revisionDesc (a b : VersionRecord) : Bool := b.revision ≤ a.revision

def listVersions (id : String) : Except RuntimeException (List VersionRecord) := do
  match ← s.get m id true with
  | none => return []
  | some current =>
    return (s.versions.selectOrdered (·.workflowId = id) revisionDesc).map fun item =>
      { item with isCurrent := item.revision = current.revision }

def getVersion (id : String) (revision : ℤ) : Except RuntimeException (Option VersionRecord) := do
  let versions ← s.listVersions m id
  return versions.find? (·.revision = revision)

/-- `InMemoryWorkflowCatalogRepository`: a call made at `now`. -/
def answer (now : Time) :
    WorkflowCall m → MemoryWorkflows → Except RuntimeException CatalogAnswer × MemoryWorkflows
  | .create item, s => ((s.create m now item.1).1.map .workflow, (s.create m now item.1).2)
  | .save item, s => ((s.save m now item.1).1.map .workflow, (s.save m now item.1).2)
  | .update id patch, s => ((s.update m now id patch).1.map .found, (s.update m now id patch).2)
  | .softDelete id, s => (.ok (.flag (s.softDelete now id).1), (s.softDelete now id).2)
  | .get id includeDeleted, s => ((s.get m id includeDeleted).map .found, s)
  | .list includeDeleted, s => ((s.list m includeDeleted).map .workflows, s)
  | .listVersions id, s => ((s.listVersions m id).map .versions, s)
  | .getVersion id revision, s => ((s.getVersion m id revision).map .version, s)

end MemoryWorkflows

end OpenAgency
