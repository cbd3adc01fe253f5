/-
MemoryService.lean

Who may read and who may write a memory, and the calls of `MemoryService` that write one.

The conversation and workflow repositories and the embedding provider are parameters.
The events a write appends for the graph projection are left out: they go to another
table, and a failure to append one is swallowed.
-/
import OpenAgency.Memories
import OpenAgency.Domain.User

namespace OpenAgency

open Relational Dict MemoryRecord

/-! ### Surroundings -/

inductive ConversationChannelType where
  | web
  | api
  | telegram
  | discord
  | whatsapp
  | microsoftTeams
  | slack
  | other
  deriving DecidableEq

structure Conversation where
  id : String
  createdByUserId : Option String := none
  channelType : ConversationChannelType := .api
  channelUserId : Option String := none
  workspaceId : Option String := none

/-- A model profile that embeds texts. -/
structure EmbeddingProfile where
  id : String
  model : String

structure MemoryContext where
  lib : MemoryLibrary
  /-- `conversation_repo.get`. -/
  conversation : String → Option Conversation
  /-- The metadata of what `workflow_repo.get` finds. -/
  workflow : String → Option (Dict Json)
  /-- `_resolve_embedding_profile`. -/
  embeddingProfile : Option EmbeddingProfile
  /-- `_embed_texts`, or the text of its error. -/
  embedTexts : EmbeddingProfile → List String → Except String (List (List ℚ))
  memoryEmbeddingWriteErrorsStrict : Bool

/-! ### Access -/

/-- The strings in the list under a metadata key. -/
def metadataStrings (metadata : Dict Json) (key : String) : List String :=
  match metadata.getJson key with
  | .arr items => items.filterMap Json.asStr?
  | _ => []

/-- `_user_has_metadata_access`. -/
def userHasMetadataAccess (metadata : Dict Json) (user : UserDefinition) : Bool :=
  user.id ∈ metadataStrings metadata "owner_ids" ++ metadataStrings metadata "trusted_user_ids" ||
    (metadata.getJson "created_by").asStr? = some user.id

namespace MemoryContext

variable (ctx : MemoryContext)

/-- `_user_can_access_conversation`. -/
def userCanAccessConversation (conversationId : Option String) (user : UserDefinition) : Bool :=
  !isBlank conversationId &&
    match conversationId.bind ctx.conversation with
    | some conversation => conversation.createdByUserId = some user.id
    | none => false

/-- `_user_can_access_workflow`: a workflow that nobody has claimed is open to every user. -/
def userCanAccessWorkflow (workflowId : Option String) (user : UserDefinition) : Bool :=
  !isBlank workflowId &&
    match workflowId.bind ctx.workflow with
    | some metadata =>
      let ownerIds := match metadata.getJson "owner_ids" with
        | .arr items => items
        | _ => []
      (ownerIds.isEmpty && !(metadata.getJson "created_by").truthy) ||
        user.id ∈ ownerIds.filterMap Json.asStr? ||
        (metadata.getJson "created_by").asStr? = some user.id
    | none => false

/-- What a user without the admin role may do with a memory that is not global. -/
def userCanAccess (m : MemoryFields) (user : UserDefinition) : Bool :=
  match m.scope with
  | .user => m.createdByUserId = some user.id
  | .workspace => userHasMetadataAccess m.metadata user
  | .conversation => ctx.userCanAccessConversation m.conversationId user
  | .workflow => ctx.userCanAccessWorkflow m.workflowId user
  | .global => false

/-- `can_read`. -/
def canRead (m : MemoryFields) : Option UserDefinition → Bool
  | some user => "admin" ∈ user.roles || m.scope = .global || ctx.userCanAccess m user
  | none => m.scope = .global && !m.isSensitive

/-- `_assert_can_write`. -/
def assertCanWrite (m : MemoryFields) (currentUser : Option UserDefinition)
    (trustedActor : Bool) : Except MemoryError Unit :=
  match currentUser with
  | some user =>
    if "admin" ∈ user.roles || trustedActor || ctx.userCanAccess m user then .ok ()
    else .error ⟨.memoryPermissionError, "Memory write access is not allowed."⟩
  | none =>
    if trustedActor || (m.scope = .global && !m.isSensitive) then .ok ()
    else .error ⟨.memoryPermissionError, "Authenticated memory access is required."⟩

/-- The owner fields of a payload with this metadata. -/
def withOwners (user : UserDefinition) (payload metadata : Dict Json) : Dict Json :=
  let scope := (payload.getJson "scope").asStr?
  let payload :=
    if scope = some "user" && !(payload.getJson "created_by_user_id").truthy then
      set payload "created_by_user_id" (.str user.id)
    else payload
  let metadata :=
    if scope = some "workspace" then
      setdefault (setdefault metadata "created_by" (some (.str user.id)))
        "owner_ids" (some (.arr [.str user.id]))
    else metadata
  set payload "metadata" (.obj metadata)

/-- `_normalize_memory_owner_fields`. -/
def normalizeMemoryOwnerFields (payload : Dict Json) (currentUser : Option UserDefinition) :
    Except MemoryError (Dict Json) := do
  let metadata ← ctx.lib.dictOrEmpty (payload.getJson "metadata")
  match currentUser with
  | none => .ok payload
  | some user => .ok (withOwners user payload metadata)

/-! ### Embeddings -/

/-- `_memory_embedding_text`. -/
def memoryEmbeddingText (m : MemoryFields) : String :=
  let parts := [m.summary.getD "", m.content, " ".intercalate m.tags,
    ctx.lib.strOf ((m.metadata.getJson "semantic_hint").orElse (.str ""))]
  "\n".intercalate (parts.filter fun part => strip part ≠ "")

/-- A memory with its vector. -/
def withEmbedding (m : MemoryRecord) (profile : EmbeddingProfile) (embedding : List ℚ)
    (now : Time) : MemoryRecord where
  toMemoryFields := { m.toMemoryFields with
    embedding := some embedding
    embeddingModelProfileId := some profile.id
    embeddingModel := some profile.model
    embeddingDimensions := some embedding.length
    embeddedAt := some now
    metadata := m.metadata.filter (·.1 ≠ "embedding_error") }
  valid := m.valid

/-- `_embed_memory`. -/
def embedMemory (profile : EmbeddingProfile) (force : Bool) (now : Time) (m : MemoryRecord) :
    Except String MemoryRecord :=
  if !force && !(m.embedding.getD []).isEmpty && m.embeddingModelProfileId = some profile.id then
    .ok m
  else
    match ctx.embedTexts profile [ctx.memoryEmbeddingText m.toMemoryFields] with
    | .error e => .error e
    | .ok [] => .error "Embedding provider returned no vector."
    | .ok (embedding :: _) => .ok (withEmbedding m profile embedding now)

/-- A memory with other metadata. -/
def withMetadata (m : MemoryRecord) (metadata : Dict Json) : MemoryRecord where
  toMemoryFields := { m.toMemoryFields with metadata }
  valid := m.valid

/-- `_embed_memory_for_write`. -/
def embedMemoryForWrite (force : Bool) (now : Time) (m : MemoryRecord) :
    Except MemoryError MemoryRecord :=
  match ctx.embeddingProfile with
  | none => .ok m
  | some profile =>
    match ctx.embedMemory profile force now m with
    | .ok m => .ok m
    | .error e =>
      if ctx.memoryEmbeddingWriteErrorsStrict then .error ⟨.memoryEmbeddingError, e⟩
      else .ok (withMetadata m (m.metadata.set "embedding_error" (.str e)))

end MemoryContext

/-! ### Sensitive memories -/

def sensitiveMemoryMarkers : List String :=
  ["api key", "apikey", "password", "passwd", "secret", "token", "credential", "private key",
    "ssn", "social security"]

/-- A marker stands in the content. -/
def hasSensitiveMarker (lib : MemoryLibrary) (content : String) : Bool :=
  sensitiveMemoryMarkers.any (isIn · (lib.lower content))

/-- `infer_sensitive`: an explicit value is taken as it is. -/
def inferSensitive (lib : MemoryLibrary) (content : String) (explicit : Json) : Json :=
  if explicit.isNull then .bool (hasSensitiveMarker lib content) else explicit

/-- The content of a payload, stripped. -/
def contentOf (lib : MemoryLibrary) (d : Dict Json) : String :=
  strip (lib.strOf ((d.getJson "content").orElse (.str "")))

/-- What a payload says of its content, or else what its content says of itself. -/
def sensitivityOf (lib : MemoryLibrary) (d : Dict Json) : Json :=
  inferSensitive lib (contentOf lib d) (d.getJson "sensitive")

/-- The payload with both of these. -/
def withSensitivity (lib : MemoryLibrary) (d : Dict Json) : Dict Json :=
  set (set d "content" (.str (contentOf lib d))) "sensitive" (sensitivityOf lib d)

/-! ### Calls -/

structure DailySummary where
  sourceConversationId : String
  summaryDate : Time
  content : String
  summary : String
  createdByUserId : Option String
  workspaceId : Option String
  agentId : Option String
  archivedWindowStart : Time
  archivedWindowEnd : Time
  metadata : Dict Json := []
  tags : List String := []
  importance : ℕ := 60

inductive MemoryCall where
  | createMemory (payload : Dict Json) (confirmed : Bool)
  | updateMemory (memoryId : String) (patch : Dict Json) (confirmed : Bool)
  | deleteMemory (memoryId : String)
  | addMemoryExclusion (memoryId targetType : String) (targetId reason : Option String)
  | deleteMemoryExclusion (memoryId exclusionId : String)
  | createDailySummaryMemory (summary : DailySummary)

/-- The call of the summary job, which checks nothing. -/
def MemoryCall.isDailySummary : MemoryCall → Bool
  | .createDailySummaryMemory _ => true
  | _ => false

/-- The caller confirmed a sensitive write. -/
def MemoryCall.isConfirmed : MemoryCall → Bool
  | .createMemory _ confirmed => confirmed
  | .updateMemory _ _ confirmed => confirmed
  | _ => false

/-- The calls that store a record under its own content. -/
def MemoryCall.isStoring : MemoryCall → Bool
  | .createMemory .. | .updateMemory .. | .createDailySummaryMemory _ => true
  | _ => false

/-- A call, who makes it, and what it draws: an identifier and the time. -/
structure MemoryRequest where
  call : MemoryCall
  currentUser : Option UserDefinition := none
  trustedActor : Bool := false
  fresh : String
  now : Time

inductive MemoryAnswer where
  | stored (m : MemoryRecord)
  | missing
  | deleted (done : Bool)
  | exclusion (fields : Dict Json)

/-- The record that an answer says was stored. -/
def storedRecord? : Except MemoryError MemoryAnswer → Option MemoryRecord
  | .ok (.stored m) => some m
  | _ => none

/-! ### Exclusions -/

/-- `_memory_exclusions`. -/
def memoryExclusions (m : MemoryFields) : List (Dict Json) :=
  match m.metadata.getJson "exclusions" with
  | .arr items => items.filterMap fun raw => raw.asDict?.map fun d => set d "memory_id" (.str m.id)
  | _ => []

def memoryExclusionTargetTypes : List String :=
  ["global", "workflow", "agent", "task", "conversation", "run"]

/-- `_normalize_exclusion_target` of a target that is required. -/
def normalizeExclusionTarget (lib : MemoryLibrary) (targetType : String) :
    Except MemoryError String :=
  let normalized := lib.lower (strip targetType)
  if strip targetType = "" then .error ⟨.valueError, "target_type is required."⟩
  else if normalized ∈ memoryExclusionTargetTypes then .ok normalized
  else .error ⟨.valueError, "Unsupported memory exclusion target_type '" ++ targetType ++
    "'. Choose one of: agent, conversation, global, run, task, workflow."⟩

/-- The fields of an exclusion, each under the name it has in a response or in a row. -/
def exclusionFields (lib : MemoryLibrary) (exclusion : Dict Json)
    (targetType targetId createdAt updatedAt : String) : Dict Json :=
  let get := getJson exclusion
  [(targetType, .str (lib.strOf ((get "target_type").orElse (.str "")))),
    (targetId, get "target_id"), ("reason", get "reason"), (createdAt, get "created_at"),
    (updatedAt, get "updated_at")]

/-- `_persistable_exclusion`. -/
def persistableExclusion (lib : MemoryLibrary) (exclusion : Dict Json) : Dict Json :=
  ("id", .str (lib.strOf ((exclusion.getJson "id").orElse (.str "")))) ::
    exclusionFields lib exclusion "target_type" "target_id" "created_at" "updated_at"

/-- `_catalog_exclusion`. -/
def catalogExclusion (lib : MemoryLibrary) (memoryId : String) (exclusion : Dict Json) :
    Dict Json :=
  let get := getJson exclusion
  let memory := (Json.str memoryId).orElse
    (.str (lib.strOf ((get "memory_id").orElse (.str ""))))
  [("id", .str (lib.strOf ((get "id").orElse (.str "")))), ("memoryId", memory)] ++
    exclusionFields lib exclusion "targetType" "targetId" "createdAt" "updatedAt"

/-- The metadata with these exclusions. -/
def withExclusions (lib : MemoryLibrary) (metadata : Dict Json) (exclusions : List (Dict Json)) :
    Dict Json :=
  metadata.set "exclusions" (.arr (exclusions.map fun e => .obj (persistableExclusion lib e)))

/-- The exclusion for a target, made or brought up to date, and the list it then stands in. -/
def putExclusion (fresh : String) (now : Time) (targetType : String)
    (targetId reason : Option String) (exclusions : List (Dict Json)) :
    Dict Json × List (Dict Json) :=
  let reason : Json := .ofOption (reason.bind fun r => if strip r = "" then none else some (strip r))
  let isFor (e : Dict Json) : Bool :=
    (e.getJson "target_type").eq (.str targetType) && (e.getJson "target_id").eq (.ofOption targetId)
  match exclusions.findIdx? isFor with
  | none =>
    let made : Dict Json :=
      [("id", .str ("memory-exclusion-" ++ takeChars 12 fresh)), ("target_type", .str targetType),
        ("target_id", .ofOption targetId), ("reason", reason),
        ("created_at", .str (isoformat now)), ("updated_at", .str (isoformat now))]
    (made, exclusions ++ [made])
  | some i =>
    let changed := ((exclusions.getD i []).set "reason" reason).set "updated_at"
      (.str (isoformat now))
    (changed, exclusions.set i changed)

namespace MemoryContext

variable (ctx : MemoryContext)

/-! ### What a call is about to store -/

/-- The record `create_memory` stores. -/
def preparedCreate (req : MemoryRequest) (payload : Dict Json) (confirmed : Bool) :
    Except MemoryError MemoryRecord := do
  if (sensitivityOf ctx.lib payload).truthy && !confirmed then
    .error ⟨.memoryPolicyError, "Sensitive memory writes require explicit user confirmation."⟩
  else
    let normalized ← ctx.normalizeMemoryOwnerFields (withSensitivity ctx.lib payload) req.currentUser
    let memory ← modelValidate ctx.lib req.fresh req.now normalized
    ctx.assertCanWrite memory.toMemoryFields req.currentUser req.trustedActor
    ctx.embedMemoryForWrite false req.now memory

/-- The record `update_memory` stores for the current one. -/
def preparedUpdate (req : MemoryRequest) (current : MemoryRecord) (patch : Dict Json)
    (confirmed : Bool) : Except MemoryError MemoryRecord := do
  ctx.assertCanWrite current.toMemoryFields req.currentUser req.trustedActor
  let merged := union current.modelDump patch
  if (sensitivityOf ctx.lib merged).truthy && !confirmed then
    .error ⟨.memoryPolicyError, "Sensitive memory updates require explicit user confirmation."⟩
  else
    let memory ← modelValidate ctx.lib req.fresh req.now
      (withSensitivity ctx.lib merged)
    ctx.assertCanWrite memory.toMemoryFields req.currentUser req.trustedActor
    let shouldRefreshEmbedding :=
      ["content", "summary", "tags", "metadata"].any fun key => (patch.get? key).isSome
    ctx.embedMemoryForWrite shouldRefreshEmbedding req.now memory

/-- The record `create_daily_summary_memory` stores. -/
def preparedDailySummary (req : MemoryRequest) (d : DailySummary) :
    Except MemoryError MemoryRecord := do
  let memory ← validate
    { id := req.fresh
      scope := .conversation
      conversationId := some d.sourceConversationId
      sourceConversationId := some d.sourceConversationId
      content := strip d.content
      summary := if strip d.summary = "" then none else some (strip d.summary)
      createdByUserId := d.createdByUserId
      workspaceId := d.workspaceId
      agentId := d.agentId
      source := some "daily_summary_job"
      memoryType := some .dailySummary
      importance := d.importance
      summaryDate := some d.summaryDate
      archivedWindowStart := some d.archivedWindowStart
      archivedWindowEnd := some d.archivedWindowEnd
      metadata := d.metadata
      tags := d.tags
      createdAt := req.now
      updatedAt := req.now }
  ctx.embedMemoryForWrite false req.now memory

/-- The answer of `add_memory_exclusion` and the record it stores. -/
def preparedExclusion (req : MemoryRequest) (m : MemoryRecord) (targetType : String)
    (targetId reason : Option String) : Except MemoryError (Dict Json × MemoryRecord) := do
  ctx.assertCanWrite m.toMemoryFields req.currentUser false
  let targetType ← normalizeExclusionTarget ctx.lib targetType
  let targetId := targetId.map strip
  if targetType ≠ "global" && isBlank targetId then
    .error ⟨.valueError, "target_id is required for non-global memory exclusions."⟩
  else
    let (exclusion, exclusions) := putExclusion req.fresh req.now targetType targetId reason
      (memoryExclusions m.toMemoryFields)
    .ok (catalogExclusion ctx.lib m.id exclusion,
      withMetadata m (withExclusions ctx.lib m.metadata exclusions))

/-- The record `delete_memory_exclusion` stores, if the exclusion is there. -/
def preparedDeleteExclusion (req : MemoryRequest) (m : MemoryRecord) (exclusionId : String) :
    Except MemoryError (Option MemoryRecord) := do
  ctx.assertCanWrite m.toMemoryFields req.currentUser false
  let exclusions := memoryExclusions m.toMemoryFields
  let remaining := exclusions.filter fun e => !((e.getJson "id").eq (.str exclusionId))
  if remaining.length = exclusions.length then .ok none
  else .ok (some (withMetadata m (withExclusions ctx.lib m.metadata remaining)))

/-! ### The service -/

/-- Create a prepared record. -/
def storeCreated (now : Time) (prepared : Except MemoryError MemoryRecord) (s : MemoryStore) :
    Except MemoryError MemoryAnswer × MemoryStore :=
  match prepared with
  | .error e => (.error e, s)
  | .ok m => ((s.create now m).1.map .stored, (s.create now m).2)

/-- What the service answers, and the store it leaves. -/
def handle (req : MemoryRequest) (s : MemoryStore) :
    Except MemoryError MemoryAnswer × MemoryStore :=
  match req.call with
  | .createMemory payload confirmed =>
    storeCreated req.now (ctx.preparedCreate req payload confirmed) s
  | .createDailySummaryMemory d => storeCreated req.now (ctx.preparedDailySummary req d) s
  | .updateMemory memoryId patch confirmed =>
    match s.get memoryId with
    | none => (.ok .missing, s)
    | some current =>
      match ctx.preparedUpdate req current patch confirmed with
      | .error e => (.error e, s)
      | .ok m => (.ok (.stored (s.save req.now m).1), (s.save req.now m).2)
  | .deleteMemory memoryId =>
    match s.get memoryId with
    | none => (.ok (.deleted false), s)
    | some current =>
      match ctx.assertCanWrite current.toMemoryFields req.currentUser req.trustedActor with
      | .error e => (.error e, s)
      | .ok _ => (.ok (.deleted true), s.erase memoryId)
  | .addMemoryExclusion memoryId targetType targetId reason =>
    match s.get memoryId with
    | none => (.error ⟨.keyError, memoryId⟩, s)
    | some current =>
      match ctx.preparedExclusion req current targetType targetId reason with
      | .error e => (.error e, s)
      | .ok (exclusion, m) => (.ok (.exclusion exclusion), (s.save req.now m).2)
  | .deleteMemoryExclusion memoryId exclusionId =>
    match s.get memoryId with
    | none => (.ok (.deleted false), s)
    | some current =>
      match ctx.preparedDeleteExclusion req current exclusionId with
      | .error e => (.error e, s)
      | .ok none => (.ok (.deleted false), s)
      | .ok (some m) => (.ok (.deleted true), (s.save req.now m).2)

/-! ### What a call does -/

/-- The record a call that creates one is about to store. -/
def prepared (req : MemoryRequest) : Option (Except MemoryError MemoryRecord) :=
  match req.call with
  | .createMemory payload confirmed => some (ctx.preparedCreate req payload confirmed)
  | .createDailySummaryMemory d => some (ctx.preparedDailySummary req d)
  | _ => none

/-- Everything a call can do to a store. -/
inductive Effect (req : MemoryRequest) (s : MemoryStore) :
    Except MemoryError MemoryAnswer × MemoryStore → Prop
  | none (a : Except MemoryError MemoryAnswer) (hstored : storedRecord? a = Option.none) :
      Effect req s (a, s)
  | created {m : MemoryRecord} (hm : ctx.prepared req = some (.ok m)) (hfree : s.get m.id = none) :
      Effect req s (.ok (.stored (m.stamp req.now req.now)), s.put (m.stamp req.now req.now))
  | updated {memoryId : String} {patch : Dict Json} {confirmed : Bool} {current m : MemoryRecord}
      (hcall : req.call = .updateMemory memoryId patch confirmed)
      (hcurrent : s.get memoryId = some current)
      (hm : ctx.preparedUpdate req current patch confirmed = .ok m) :
      Effect req s (.ok (.stored (s.save req.now m).1), (s.save req.now m).2)
  | deleted {memoryId : String} {current : MemoryRecord} (hcurrent : s.get memoryId = some current)
      (hwrite : ctx.assertCanWrite current.toMemoryFields req.currentUser req.trustedActor = .ok ()) :
      Effect req s (.ok (.deleted true), s.erase memoryId)
  | excluded {memoryId : String} {current : MemoryRecord} (exclusions : List (Dict Json))
      (a : Except MemoryError MemoryAnswer) (hcurrent : s.get memoryId = some current)
      (hwrite : ctx.assertCanWrite current.toMemoryFields req.currentUser false = .ok ())
      (hstored : storedRecord? a = Option.none) :
      Effect req s (a, (s.save req.now
        (withMetadata current (withExclusions ctx.lib current.metadata exclusions))).2)

variable {ctx}

variable {m m' : MemoryRecord}

/-- Embedding a record leaves it, adds its vector, or notes the error. -/
theorem of_embedMemoryForWrite {force : Bool} {now : Time}
    (h : ctx.embedMemoryForWrite force now m = .ok m') :
    m' = m ∨ (∃ profile embedding, m' = withEmbedding m profile embedding now) ∨
      ∃ e, m' = withMetadata m (m.metadata.set "embedding_error" e) := by
  unfold embedMemoryForWrite at h
  split at h
  · cases h
    exact .inl rfl
  next profile _ =>
    unfold embedMemory at h
    split at h
    next hm =>
      split at hm
      · cases hm
        cases h
        exact .inl rfl
      · split at hm
        · cases hm
        · cases hm
        · cases hm
          cases h
          exact .inr (.inl ⟨_, _, rfl⟩)
    · split at h
      · cases h
      · cases h
        exact .inr (.inr ⟨_, rfl⟩)

theorem id_embedded {force : Bool} {now : Time} (h : ctx.embedMemoryForWrite force now m = .ok m') :
    m'.id = m.id := by
  rcases of_embedMemoryForWrite h with rfl | ⟨profile, embedding, rfl⟩ | ⟨e, rfl⟩ <;> rfl

/-- Filling in the owners touches no other field. -/
theorem get?_normalizeMemoryOwnerFields {payload normalized : Dict Json}
    {currentUser : Option UserDefinition}
    (h : ctx.normalizeMemoryOwnerFields payload currentUser = .ok normalized) {key : String}
    (hcreator : key ≠ "created_by_user_id") (hmetadata : key ≠ "metadata") :
    normalized.get? key = payload.get? key := by
  unfold normalizeMemoryOwnerFields at h
  obtain ⟨metadata, -, h⟩ := bind_eq_ok.mp h
  cases currentUser with
  | none =>
    cases h
    rfl
  | some user =>
    cases h
    unfold withOwners
    rw [get?_set_ne hmetadata]
    split
    · rw [get?_set_ne hcreator]
    · rfl

variable {req : MemoryRequest}

variable {m : MemoryRecord} {confirmed : Bool}

/-- What a record is that `create_memory` stores. -/
theorem of_preparedCreate {payload : Dict Json}
    (h : ctx.preparedCreate req payload confirmed = .ok m) :
    ((sensitivityOf ctx.lib payload).truthy → confirmed) ∧ ∃ normalized m₀,
      ctx.normalizeMemoryOwnerFields (withSensitivity ctx.lib payload) req.currentUser
        = .ok normalized ∧
      modelValidate ctx.lib req.fresh req.now normalized = .ok m₀ ∧
      ctx.assertCanWrite m₀.toMemoryFields req.currentUser req.trustedActor = .ok () ∧
      ctx.embedMemoryForWrite false req.now m₀ = .ok m := by
  unfold preparedCreate at h
  split at h
  · cases h
  next hconfirmed =>
    obtain ⟨normalized, hn, h⟩ := bind_eq_ok.mp h
    obtain ⟨m₀, hm, h⟩ := bind_eq_ok.mp h
    obtain ⟨_, hw, h⟩ := bind_eq_ok.mp h
    refine ⟨?_, normalized, m₀, hn, hm, hw, h⟩
    intro htruthy
    simpa [htruthy] using hconfirmed

/-- A record keeps the identifier of its payload. -/
theorem id_preparedCreate {payload : Dict Json} {id : String}
    (h : ctx.preparedCreate req payload confirmed = .ok m)
    (hid : payload.get? "id" = some (.str id)) : m.id = id := by
  obtain ⟨-, normalized, m₀, hnormalized, hm₀, -, hembed⟩ := of_preparedCreate h
  have hread := (readFrom_of_modelValidate hm₀).id
  rw [get?_normalizeMemoryOwnerFields hnormalized (by decide) (by decide), withSensitivity,
    get?_set_ne (by decide), get?_set_ne (by decide), hid] at hread
  rw [id_embedded hembed]
  exact (Option.some.inj hread).symm

/-- What a record is that `update_memory` stores. -/
theorem of_preparedUpdate {current : MemoryRecord} {patch : Dict Json}
    (h : ctx.preparedUpdate req current patch confirmed = .ok m) :
    ctx.assertCanWrite current.toMemoryFields req.currentUser req.trustedActor = .ok () ∧
      ((sensitivityOf ctx.lib (union current.modelDump patch)).truthy → confirmed) ∧
      ∃ m₀ force, modelValidate ctx.lib req.fresh req.now
          (withSensitivity ctx.lib (union current.modelDump patch)) = .ok m₀ ∧
        ctx.assertCanWrite m₀.toMemoryFields req.currentUser req.trustedActor = .ok () ∧
        ctx.embedMemoryForWrite force req.now m₀ = .ok m := by
  unfold preparedUpdate at h
  obtain ⟨_, hcurrent, h⟩ := bind_eq_ok.mp h
  dsimp only at h
  split at h
  · cases h
  next hconfirmed =>
    obtain ⟨m₀, hm, h⟩ := bind_eq_ok.mp h
    obtain ⟨_, hw, h⟩ := bind_eq_ok.mp h
    refine ⟨hcurrent, ?_, m₀, _, hm, hw, h⟩
    intro htruthy
    simpa [htruthy] using hconfirmed

theorem of_preparedExclusion {targetType : String} {targetId reason : Option String}
    {exclusion : Dict Json}
    (h : ctx.preparedExclusion req m targetType targetId reason = .ok (exclusion, m')) :
    ctx.assertCanWrite m.toMemoryFields req.currentUser false = .ok () ∧
      ∃ exclusions, m' = withMetadata m (withExclusions ctx.lib m.metadata exclusions) := by
  unfold preparedExclusion at h
  obtain ⟨_, hwrite, h⟩ := bind_eq_ok.mp h
  obtain ⟨targetType', -, h⟩ := bind_eq_ok.mp h
  refine ⟨hwrite, ?_⟩
  dsimp only at h
  split at h
  · cases h
  · cases h
    exact ⟨_, rfl⟩

theorem of_preparedDeleteExclusion {exclusionId : String}
    (h : ctx.preparedDeleteExclusion req m exclusionId = .ok (some m')) :
    ctx.assertCanWrite m.toMemoryFields req.currentUser false = .ok () ∧
      ∃ exclusions, m' = withMetadata m (withExclusions ctx.lib m.metadata exclusions) := by
  unfold preparedDeleteExclusion at h
  obtain ⟨_, hwrite, h⟩ := bind_eq_ok.mp h
  refine ⟨hwrite, ?_⟩
  dsimp only at h
  split at h
  · cases h
  · cases h
    exact ⟨_, rfl⟩

theorem effect_storeCreated {x : Except MemoryError MemoryRecord} (hx : ctx.prepared req = some x)
    (s : MemoryStore) :
    ctx.Effect req s (storeCreated req.now x s) := by
  unfold storeCreated
  split
  · exact .none _ rfl
  next m =>
    unfold MemoryStore.create
    split
    · exact .none _ rfl
    next hfree => exact .created hx hfree

/-- What a call does is one of these. -/
theorem effect_handle (req : MemoryRequest) (s : MemoryStore) :
    ctx.Effect req s (ctx.handle req s) := by
  unfold handle
  split
  case h_1 payload confirmed hcall => exact effect_storeCreated (by rw [prepared, hcall]) s
  case h_2 d hcall => exact effect_storeCreated (by rw [prepared, hcall]) s
  case h_3 memoryId patch confirmed hcall =>
    split
    · exact .none _ rfl
    next current hcurrent =>
      split
      · exact .none _ rfl
      next m hm => exact .updated hcall hcurrent hm
  case h_4 memoryId hcall =>
    split
    · exact .none _ rfl
    next current hcurrent =>
      split
      · exact .none _ rfl
      next hwrite => exact .deleted hcurrent hwrite
  case h_5 memoryId targetType targetId reason hcall =>
    split
    · exact .none _ rfl
    next current hcurrent =>
      split
      · exact .none _ rfl
      next exclusion m hm =>
        obtain ⟨hwrite, exclusions, rfl⟩ := of_preparedExclusion hm
        exact .excluded exclusions _ hcurrent hwrite rfl
  case h_6 memoryId exclusionId hcall =>
    split
    · exact .none _ rfl
    next current hcurrent =>
      split
      · exact .none _ rfl
      · exact .none _ rfl
      next m hm =>
        obtain ⟨hwrite, exclusions, rfl⟩ := of_preparedDeleteExclusion hm
        exact .excluded exclusions _ hcurrent hwrite rfl

end MemoryContext

/-- Surroundings without conversations, workflows or embeddings. -/
def bareContext : MemoryContext where
  lib :=
    { repr := fun _ => ""
      int := fun _ => none
      float := fun _ => none
      dumps := fun _ => ""
      sha1 := id
      extract := fun _ => []
      graphDocumentProjectionMaxChunks := 0
      lower := id
      dict := fun _ => .error ⟨.typeError, "object is not iterable"⟩
      date := fun _ => none
      datetime := fun _ => none }
  conversation := fun _ => none
  workflow := fun _ => none
  embeddingProfile := none
  embedTexts := fun _ _ => .error "Embedding provider call failed."
  memoryEmbeddingWriteErrorsStrict := false

end OpenAgency
