/-
Memories.lean

Durable memories: what validation asks of a record, how it reads one out of a dict, and
the repository that keeps them.

The fields that the graph projection reads are those of `Graph.MemoryRecord`; a memory
adds its content and its embedding.  What validation takes from its library (numbers and
dates written as text) and `str.lower` are parameters.
-/
import OpenAgency.GraphRecords
import OpenAgency.Lib.Catalog

namespace OpenAgency

open Relational

deriving instance DecidableEq for Graph.MemoryScope, Graph.MemoryType

/-! ### Records -/

structure MemoryFields extends Graph.MemoryRecord where
  content : String
  embedding : Option (List ℚ) := none
  embeddingModel : Option String := none
  embeddingDimensions : Option ℤ := none
  embeddedAt : Option Time := none
  lastUsedAt : Option Time := none

/-- `not value`, of an optional string. -/
def isBlank (value : Option String) : Bool := value.getD "" = ""

namespace MemoryFields

/-- What `validate_scope_binding` objects to. -/
def problem (f : MemoryFields) : Option String :=
  if strip f.content = "" then some "Memory content cannot be empty."
  else if 100 < f.importance then some "Memory importance must be between 0 and 100."
  else if f.scope = .user ∧ isBlank f.createdByUserId then
    some "User-scoped memory requires created_by_user_id."
  else if f.scope = .workspace ∧ isBlank f.workspaceId then
    some "Workspace-scoped memory requires workspace_id."
  else if f.scope = .conversation ∧ isBlank f.conversationId then
    some "Conversation-scoped memory requires conversation_id."
  else if f.scope = .workflow ∧ isBlank f.workflowId then
    some "Workflow-scoped memory requires workflow_id."
  else if f.memoryType = some .dailySummary ∧ f.summaryDate = none then
    some "Daily-summary memory requires summary_date."
  else if f.memoryType = some .dailySummary ∧ isBlank f.sourceConversationId then
    some "Daily-summary memory requires source_conversation_id."
  else if f.memoryType = some .dailySummary ∧
      (f.archivedWindowStart = none ∨ f.archivedWindowEnd = none) then
    some "Daily-summary memory requires archived window timestamps."
  else match f.archivedWindowStart, f.archivedWindowEnd with
    | some start, some stop =>
      if stop < start then
        some "Memory archived_window_end must be greater than or equal to archived_window_start."
      else none
    | _, _ => none

end MemoryFields

/-- A memory that passed validation. -/
structure MemoryRecord extends MemoryFields where
  valid : toMemoryFields.problem = none

/-! ### Validation -/

inductive MemoryErrorClass where
  | memoryPolicyError
  | memoryPermissionError
  | memoryEmbeddingError
  | validationError
  | valueError
  | typeError
  | keyError
  | integrityError
  deriving DecidableEq

structure MemoryError where
  cls : MemoryErrorClass
  message : String

/-- What the standard library and the validation library read out of values. -/
structure MemoryLibrary extends Graph.Library where
  /-- `s.lower()`. -/
  lower : String → String
  /-- `dict(value)` of a value that is neither a dict nor false. -/
  dict : Json → Except MemoryError (Dict Json)
  /-- A `date` field. -/
  date : Json → Option Time
  /-- A `datetime` field. -/
  datetime : Json → Option Time

/-- `dict(value or {})`. -/
def MemoryLibrary.dictOrEmpty (lib : MemoryLibrary) : Json → Except MemoryError (Dict Json)
  | .obj fields => .ok fields
  | value => if value.truthy then lib.dict value else .ok []

namespace Json

/-- A `bool` field takes a truth value, zero or one, or a word for either. -/
def boolField? : Json → Option Bool
  | .bool b => some b
  | .num q => if q = 0 then some false else if q = 1 then some true else none
  | .str s =>
    let word := s.toList.map Char.toLower
    if word ∈ ["0".toList, "f".toList, "n".toList, "no".toList, "off".toList, "false".toList]
    then some false
    else if word ∈ ["1".toList, "t".toList, "y".toList, "on".toList, "yes".toList, "true".toList]
    then some true
    else none
  | _ => none

/-- A field that may be `None`. -/
def optional? {α : Type} (read : Json → Option α) : Json → Option (Option α)
  | .null => some none
  | value => (read value).map some

/-- A list field. -/
def listField? {α : Type} (read : Json → Option α) : Json → Option (List α)
  | .arr items => items.mapM read
  | _ => none

/-- An enumeration, given by its values. -/
def enumField? {α : Type} (members : List α) (value : α → String) (j : Json) : Option α :=
  j.asStr?.bind fun s => members.find? (value · = s)

/-- What a field reads as true is true. -/
theorem truthy_of_boolField? {j : Json} (h : j.boolField? = some true) : j.truthy := by
  cases j with
  | null => simp [boolField?] at h
  | bool b => simpa [boolField?, truthy] using h
  | num q =>
    have hq : q ≠ 0 := by
      rintro rfl
      simp [boolField?] at h
    simp [truthy, hq]
  | str s =>
    have hs : s ≠ "" := by
      rintro rfl
      simp [boolField?] at h
    simp [truthy, hs]
  | arr items => simp [boolField?] at h
  | obj fields => simp [boolField?] at h

end Json

/-- The value of a field, or its default where the key is missing. -/
def fieldOr {α : Type} (d : Dict Json) (key : String) (default : Option α)
    (read : Json → Option α) : Except MemoryError α :=
  match (d.get? key).elim default read with
  | some a => .ok a
  | none => .error ⟨.validationError, key⟩

theorem fieldOr_eq_ok {α : Type} {d : Dict Json} {key : String} {default : Option α}
    {read : Json → Option α} {a : α} :
    fieldOr d key default read = .ok a ↔ (d.get? key).elim default read = some a := by
  unfold fieldOr
  split <;> simp_all

/-- A `str` field that may be `None`. -/
def optionalStr (d : Dict Json) (key : String) : Except MemoryError (Option String) :=
  fieldOr d key (some none) (Json.optional? Json.asStr?)

/-- A date or an instant that may be `None`. -/
def optionalTime (d : Dict Json) (key : String) (read : Json → Option Time) :
    Except MemoryError (Option Time) :=
  fieldOr d key (some none) (Json.optional? read)

namespace MemoryRecord

/-- The fields of a record, which has no others. -/
def fieldNames : List String :=
  ["id", "scope", "content", "summary", "tags", "sensitive", "created_by_user_id",
    "workspace_id", "conversation_id", "workflow_id", "agent_id", "source", "memory_type",
    "status", "importance", "summary_date", "archived_window_start", "archived_window_end",
    "source_conversation_id", "source_execution_id", "supersedes_memory_id", "metadata",
    "embedding", "embedding_model_profile_id", "embedding_model", "embedding_dimensions",
    "embedded_at", "last_used_at", "created_at", "updated_at"]

/-- The validators of a record's fields taken together. -/
def validate (f : MemoryFields) : Except MemoryError MemoryRecord :=
  if h : f.problem = none then .ok ⟨f, h⟩
  else .error ⟨.validationError, f.problem.getD ""⟩

theorem toMemoryFields_of_validate {f : MemoryFields} {m : MemoryRecord}
    (h : validate f = .ok m) : m.toMemoryFields = f := by
  unfold validate at h
  split at h
  · cases h
    rfl
  · cases h

variable (lib : MemoryLibrary)

/-- An `int` field. -/
def intField? : Json → Option ℤ
  | .num q => if q.den = 1 then some q.num else none
  | .bool b => some (if b then 1 else 0)
  | .str s => lib.int s
  | _ => none

/-- Validation of the values of a dict, field by field; an identifier that is missing is
the next one that is drawn, and the timestamps are the current time. -/
def readFields (fresh : String) (now : Time) (d : Dict Json) : Except MemoryError MemoryFields := do
  let id ← fieldOr d "id" (some fresh) Json.asStr?
  let scope ← fieldOr d "scope" none (Json.enumField?
    [.user, .workspace, .conversation, .workflow, .global] Graph.MemoryScope.value)
  let content ← fieldOr d "content" none Json.asStr?
  let isSensitive ← fieldOr d "sensitive" (some false) Json.boolField?
  let createdByUserId ← optionalStr d "created_by_user_id"
  let workspaceId ← optionalStr d "workspace_id"
  let conversationId ← optionalStr d "conversation_id"
  let workflowId ← optionalStr d "workflow_id"
  let metadata ← fieldOr d "metadata" (some []) Json.asDict?
  let summary ← optionalStr d "summary"
  let tags ← fieldOr d "tags" (some []) (Json.listField? Json.asStr?)
  let agentId ← optionalStr d "agent_id"
  let source ← optionalStr d "source"
  let memoryType ← fieldOr d "memory_type" (some none) (Json.optional? (Json.enumField?
    [.fact, .preference, .dailySummary, .contextPack, .decision, .taskCommitment, .archive,
      .runSummary] Graph.MemoryType.value))
  let status ← fieldOr d "status" (some .active) (Json.enumField?
    [.active, .superseded, .archived] Graph.MemoryStatus.value)
  let importance ← fieldOr d "importance" (some 50) (intField? lib)
  let summaryDate ← optionalTime d "summary_date" lib.date
  let archivedWindowStart ← optionalTime d "archived_window_start" lib.datetime
  let archivedWindowEnd ← optionalTime d "archived_window_end" lib.datetime
  let sourceConversationId ← optionalStr d "source_conversation_id"
  let sourceExecutionId ← optionalStr d "source_execution_id"
  let supersedesMemoryId ← optionalStr d "supersedes_memory_id"
  let embedding ← fieldOr d "embedding" (some none)
    (Json.optional? (Json.listField? lib.floatOf))
  let embeddingModelProfileId ← optionalStr d "embedding_model_profile_id"
  let embeddingModel ← optionalStr d "embedding_model"
  let embeddingDimensions ← fieldOr d "embedding_dimensions" (some none)
    (Json.optional? (intField? lib))
  let embeddedAt ← optionalTime d "embedded_at" lib.datetime
  let lastUsedAt ← optionalTime d "last_used_at" lib.datetime
  let createdAt ← fieldOr d "created_at" (some now) lib.datetime
  let updatedAt ← fieldOr d "updated_at" (some now) lib.datetime
  if importance < 0 then
    .error ⟨.validationError, "Memory importance must be between 0 and 100."⟩
  else .ok {
    id, scope, summary, tags, isSensitive, createdByUserId, workspaceId, conversationId,
    workflowId, agentId, source, memoryType, status, summaryDate, archivedWindowStart,
    archivedWindowEnd, sourceConversationId, sourceExecutionId, supersedesMemoryId, metadata,
    embeddingModelProfileId, createdAt, updatedAt, content, embedding, embeddingModel,
    embeddingDimensions, embeddedAt, lastUsedAt, importance := importance.toNat }

/-- `model_validate`: other keys are refused. -/
def modelValidate (fresh : String) (now : Time) (d : Dict Json) :
    Except MemoryError MemoryRecord :=
  match d.find? fun p => p.1 ∉ fieldNames with
  | some p => .error ⟨.validationError, p.1⟩
  | none => readFields lib fresh now d >>= validate

section Validation

variable {lib} {fresh : String} {now : Time} {d : Dict Json} {m : MemoryRecord}

/-- What a record has been read from. -/
structure ReadFrom (fresh : String) (d : Dict Json) (f : MemoryFields) : Prop where
  id : (d.get? "id").elim (some fresh) Json.asStr? = some f.id
  content : (d.get? "content").elim none Json.asStr? = some f.content
  isSensitive : (d.get? "sensitive").elim (some false) Json.boolField? = some f.isSensitive

private theorem of_bind_ok {α β : Type} {x : Except MemoryError α} {k : α → Except MemoryError β}
    {P : β → Prop} (hk : ∀ a, x = .ok a → ∀ b, k a = .ok b → P b) (b : β)
    (h : (x >>= k) = .ok b) : P b := by
  cases x with
  | error e => cases h
  | ok a => exact hk a rfl b h

theorem readFrom_of_readFields : ∀ f, readFields lib fresh now d = .ok f → ReadFrom fresh d f := by
  unfold readFields
  refine of_bind_ok fun id hid => ?_
  refine of_bind_ok fun scope _ => ?_
  refine of_bind_ok fun content hcontent => ?_
  refine of_bind_ok fun isSensitive hsensitive => ?_
  -- The other fields are of no matter here.
  iterate 26 refine of_bind_ok fun _ _ => ?_
  intro f hf
  split at hf
  · cases hf
  cases hf
  exact ⟨fieldOr_eq_ok.mp hid, fieldOr_eq_ok.mp hcontent, fieldOr_eq_ok.mp hsensitive⟩

theorem readFrom_of_modelValidate (h : modelValidate lib fresh now d = .ok m) :
    ReadFrom fresh d m.toMemoryFields := by
  unfold modelValidate at h
  split at h
  · cases h
  · refine of_bind_ok (P := fun m => ReadFrom fresh d m.toMemoryFields) (fun f hf m hm => ?_) m h
    rw [toMemoryFields_of_validate hm]
    exact readFrom_of_readFields f hf

end Validation

/-- `model_dump(mode="json")`. -/
def modelDump (m : MemoryRecord) : Dict Json :=
  let time (t : Option Time) : Json := Graph.isoformatOrNone t
  [("id", .str m.id), ("scope", .str m.scope.value), ("content", .str m.content),
    ("summary", .ofOption m.summary), ("tags", .strs m.tags), ("sensitive", .bool m.isSensitive),
    ("created_by_user_id", .ofOption m.createdByUserId),
    ("workspace_id", .ofOption m.workspaceId), ("conversation_id", .ofOption m.conversationId),
    ("workflow_id", .ofOption m.workflowId), ("agent_id", .ofOption m.agentId),
    ("source", .ofOption m.source),
    ("memory_type", .ofOption (m.memoryType.map Graph.MemoryType.value)),
    ("status", .str m.status.value), ("importance", .nat m.importance),
    ("summary_date", time m.summaryDate),
    ("archived_window_start", time m.archivedWindowStart),
    ("archived_window_end", time m.archivedWindowEnd),
    ("source_conversation_id", .ofOption m.sourceConversationId),
    ("source_execution_id", .ofOption m.sourceExecutionId),
    ("supersedes_memory_id", .ofOption m.supersedesMemoryId), ("metadata", .obj m.metadata),
    ("embedding", m.embedding.elim .null fun e => .arr (e.map .num)),
    ("embedding_model_profile_id", .ofOption m.embeddingModelProfileId),
    ("embedding_model", .ofOption m.embeddingModel),
    ("embedding_dimensions", m.embeddingDimensions.elim .null fun n => .num n),
    ("embedded_at", time m.embeddedAt), ("last_used_at", time m.lastUsedAt),
    ("created_at", .str (isoformat m.createdAt)), ("updated_at", .str (isoformat m.updatedAt))]

end MemoryRecord

/-! ### The repository -/

/-- The rows of `SQLMemoryRepository`, each under its identifier. -/
abbrev MemoryStore := Catalog fun m : MemoryRecord => m.id

/-- A record as it is stored at `now`, in a row that has been there since `createdAt`. -/
def MemoryRecord.stamp (m : MemoryRecord) (createdAt now : Time) : MemoryRecord where
  toMemoryFields := { m.toMemoryFields with createdAt := createdAt, updatedAt := now }
  valid := m.valid

namespace MemoryStore

/-- `create`; the primary key admits one row for an identifier. -/
def create (now : Time) (m : MemoryRecord) (s : MemoryStore) :
    Except MemoryError MemoryRecord × MemoryStore :=
  match s.get m.id with
  | some _ => (.error ⟨.integrityError, "UNIQUE constraint failed: memory_records.id"⟩, s)
  | none => (.ok (m.stamp now now), s.put (m.stamp now now))

/-- `save`: what a record says goes into the row under its identifier. -/
def save (now : Time) (m : MemoryRecord) (s : MemoryStore) : MemoryRecord × MemoryStore :=
  let row := m.stamp (((s.get m.id).map fun existing => existing.createdAt).getD now) now
  (row, s.put row)

end MemoryStore

end OpenAgency
