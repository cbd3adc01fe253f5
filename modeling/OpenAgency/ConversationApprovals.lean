/-
ConversationApprovals.lean

Approval requests of conversations, and the four calls that resolve them.

The approvals and the workflows are kept in repositories that return copies.  Every other
part of the process (messages, events, tools, agents, executions, profiles) answers as it
likes.  Each step may raise, with or without having had its effect.  The audit trail and
the handoff packs never raise and are left out, and so are the values that the calls
return.

A step that occurs at several places of a call says at which of them it is performed.
-/
import OpenAgency.Domain.Execution
import OpenAgency.Lib.Catalog
import OpenAgency.Lib.Faults

namespace OpenAgency

open Relational Interaction Program

/-! ### Workflow definitions -/

/-- `VersionDefinition`. -/
structure WorkflowVersioning where
  version : String := "1.0.0"
  revision : ℤ := 1
  parentVersion : Option String := none
  isPublished : Bool := false
  labels : List String := []
  deriving DecidableEq

/-- The fields of a workflow definition that approvals replace as a whole. -/
inductive WorkflowField where
  | name
  | description
  | nodes
  | edges
  | entrypoint
  | taskDefinitions
  | agentDefinitions
  | toolDefinitions
  | allowedRuntimeAdapterIds
  | defaultRuntimeAdapterId
  | maxRuntimeSeconds
  | maxRetries
  | concurrencyLimit
  | approvalMode
  | frameworkHints
  deriving DecidableEq

/-- A workflow definition as the catalog keeps it, its fields as they are dumped. -/
structure CatalogWorkflow where
  id : String
  field : WorkflowField → Json
  versioning : WorkflowVersioning := {}
  metadata : Dict Json := []

abbrev WorkflowRecords := Catalog fun w : CatalogWorkflow => w.id

/-! ### Approval requests -/

inductive ConversationApprovalStatus where
  | pending
  | approved
  | rejected
  | cancelled
  deriving DecidableEq

/-- `ApprovalRequest` of a conversation, without its times. -/
structure ConversationApproval where
  id : String
  approvalType : String
  status : ConversationApprovalStatus := .pending
  targetType : String
  targetId : Option String := none
  requestedByAgentId : String
  requestedByProfileId : Option String := none
  conversationId : String
  originMessageId : String
  summary : String
  diffSummary : Option String := none
  proposedPayload : Option (Dict Json) := none
  decisionReason : Option String := none
  approvedByUserId : Option String := none
  metadata : Dict Json := []

abbrev ConversationApprovals := Catalog fun a : ConversationApproval => a.id

/-- A patch of `update`. -/
structure ApprovalPatch where
  status : Option ConversationApprovalStatus := none
  decisionReason : Option (Option String) := none
  approvedByUserId : Option (Option String) := none
  metadata : Option (Dict Json) := none
  proposedPayload : Option (Option (Dict Json)) := none

namespace ConversationApproval

variable (approval : ConversationApproval)

def merge (patch : ApprovalPatch) : ConversationApproval :=
  { approval with
    status := patch.status.getD approval.status
    decisionReason := patch.decisionReason.getD approval.decisionReason
    approvedByUserId := patch.approvedByUserId.getD approval.approvedByUserId
    metadata := patch.metadata.getD approval.metadata
    proposedPayload := patch.proposedPayload.getD approval.proposedPayload }

/-- `approval.proposed_payload or {}`. -/
def payload : Dict Json := approval.proposedPayload.getD []

def action : Json := approval.metadata.getJson "action"

def hasAction (name : String) : Bool := approval.action.asStr? = some name

/-- `(approval.proposed_payload or {}).get("workflow") or {}`. -/
def workflowPayload : Json := (approval.payload.getJson "workflow").orElse (.obj [])

end ConversationApproval

/-- The type of an exception and its text. -/
structure ConversationFault where
  type : String
  message : String
  deriving DecidableEq

/-- What the functions below are told about the rest of the program. -/
structure ApprovalSettings where
  workflowMutationEnabled : Bool
  toolMutationEnabled : Bool
  /-- `WorkflowDefinition.model_validate`. -/
  validateWorkflow : Json → Except ConversationFault CatalogWorkflow
  /-- `ToolDefinition.model_validate` of the normalized payload, and its dump. -/
  validateTool : Json → Except ConversationFault Json
  /-- `AgentDefinition.model_validate`, and its dump. -/
  validateAgent : Json → Except ConversationFault Json
  /-- The id that `ScheduleDefinition.model_validate` gives a schedule, if it accepts it. -/
  validateSchedule : Json → Option String
  /-- `_workflow_requires_repo_write_permission`. -/
  requiresRepoWrite : CatalogWorkflow → Bool
  defaultMounts : Json
  /-- `utcnow().isoformat()`. -/
  now : String

/-! ### Operations -/

/-- What a call may do on behalf of its approval. -/
inductive ApprovalEffect where
  | workflow
  | tool
  | agent
  | execution
  | launch
  | toolRun
  | steering
  deriving DecidableEq

/-- Where a workflow is read. -/
inductive WorkflowReading where
  | mutation
  | governance
  | governanceRecord
  | launch
  deriving DecidableEq

/-- What is asked of the other parts of the process. -/
inductive ApprovalAside where
  | createMessage (kind : String)
  | publish (event : String)
  /-- The owner of a conversation and the user of its channel. -/
  | getConversation (id : String)
  /-- The type of the channel of a conversation. -/
  | getChannelType (id : String)
  | validateSteering (payload : Dict Json) (parameters : Json)
  | getSchedule (id : String)
  | createSchedule (id : String)
  | replaceActiveExecutions (workflowId : String) (restartRequested : Bool)
  | getTool (id : String)
  | getAgent (id : String)
  | syncAgent (agent : Json)
  /-- The workflow of an execution. -/
  | getExecution (id : Json)
  | saveSteeringEvent
  | updateSteeringRequest (execution : Json)
  | resolveMainProfile (conversationId : String)
  | updateExecution (execution : String)
  | publishActivity (execution : String)
  | syncCompletion (execution : String)
  | generateReply
  | storeMemory
  | uuid4
  deriving Inhabited

abbrev ApprovalAside.Val : ApprovalAside → Type
  | getConversation _ => Option (Option String × Option String)
  | getChannelType _ => Option String
  | validateSteering _ _ => Dict Json
  | getSchedule _ | getAgent _ => Bool
  | getTool _ => Option String
  | getExecution _ => Option (Option String)
  | uuid4 => String
  | _ => Unit

inductive ApprovalOp where
  | getApproval (id : String)
  | updateApproval (id : String) (patch : ApprovalPatch)
  | createApproval (approval : ConversationApproval)
  | getWorkflow (reading : WorkflowReading) (id : String)
  /-- `workflow_repo.save` of an approved definition. -/
  | saveWorkflow (w : CatalogWorkflow)
  /-- `workflow_repo.save` of a rejected definition. -/
  | saveDraft (w : CatalogWorkflow)
  /-- `workflow_repo.update` of the metadata. -/
  | updateMetadata (id : String) (metadata : Dict Json)
  | perform (effect : ApprovalEffect) (payload : Json)
  | aside (o : ApprovalAside)

abbrev ApprovalOp.Val : ApprovalOp → Type
  | getApproval _ | updateApproval _ _ => Option ConversationApproval
  | createApproval _ | saveWorkflow _ | saveDraft _ => Unit
  -- Whether the workflow is there.
  | updateMetadata _ _ => Bool
  | getWorkflow _ _ => Option CatalogWorkflow
  | perform _ _ => String
  | aside o => o.Val

abbrev ApprovalOps : Signature := ⟨ApprovalOp, ApprovalOp.Val⟩

abbrev ApprovalSig : Signature := ApprovalOps.fallible ConversationFault

abbrev ApprovalRun := Program ApprovalSig ConversationFault

/-- The repositories, the decisions that have been recorded and what has been done. -/
structure ApprovalWorld (ω : Type) where
  environment : ω
  approvals : ConversationApprovals
  workflows : WorkflowRecords
  decisions : ℕ := 0
  effects : List ApprovalEffect := []

/-- How the rest of the process behaves. -/
structure ApprovalEnvironment (ω : Type) where
  fault : ApprovalOp → ω → Fault ConversationFault × ω
  answer : (o : ApprovalAside) → ω → o.Val × ω
  perform : ApprovalEffect → Json → ω → String × ω

variable {ω : Type}

/-- What a step answers and does if nothing is raised. -/
def ApprovalOp.exec (env : ApprovalEnvironment ω) :
    (o : ApprovalOp) → ApprovalWorld ω → o.Val × ApprovalWorld ω
  | getApproval id, s => (s.approvals.get id, s)
  | updateApproval id patch, s =>
    match s.approvals.get id with
    | none => (none, s)
    | some approval =>
      (some (approval.merge patch), { s with
        approvals := s.approvals.put (approval.merge patch)
        decisions := if patch.status.isSome then s.decisions + 1 else s.decisions })
  | createApproval approval, s =>
    if (s.approvals.get approval.id).isSome then ((), s)
    else ((), { s with approvals := s.approvals.put approval })
  | getWorkflow _ id, s => (s.workflows.get id, s)
  | saveWorkflow w, s =>
    ((), { s with workflows := s.workflows.put w, effects := s.effects ++ [.workflow] })
  | saveDraft w, s => ((), { s with workflows := s.workflows.put w })
  | updateMetadata id metadata, s =>
    match s.workflows.get id with
    | none => (false, s)
    | some w => (true, { s with workflows := s.workflows.put { w with metadata } })
  | perform effect payload, s =>
    let (answer, environment) := env.perform effect payload s.environment
    (answer, { s with environment, effects := s.effects ++ [effect] })
  | aside o, s =>
    let (answer, environment) := env.answer o s.environment
    (answer, { s with environment })

/-- A step raises as the environment says. -/
def approvalHandler (env : ApprovalEnvironment ω) : Handler ApprovalSig (ApprovalWorld ω) :=
  fun o s =>
    let (fault, environment) := env.fault o s.environment
    let (answer, after) := ApprovalOp.exec env o { s with environment }
    match fault with
    | .none => (.ok answer, after)
    | .before e => (.error e, { s with environment })
    | .after e => (.error e, after)

/-- Ask for something that may raise. -/
def askFor (o : ApprovalOp) : ApprovalRun o.Val := .call (S := ApprovalSig) o ofExcept

def askAside (o : ApprovalAside) : ApprovalRun o.Val := askFor (.aside o)

def raiseFault {α : Type} (type message : String) : ApprovalRun α := .raise ⟨type, message⟩

/-- `WorkflowNotFoundError`. -/
def workflowMissing (id : String) : ApprovalRun Unit :=
  raiseFault "WorkflowNotFoundError" s!"Workflow '{id}' was not found"

/-- The `KeyError` of a tool that is not there. -/
def toolMissing (id : String) : ApprovalRun Unit :=
  raiseFault "KeyError" s!"Tool '{id}' was not found"

/-- The `KeyError` of an agent that is not there. -/
def agentMissing (id : String) : ApprovalRun Unit :=
  raiseFault "KeyError" s!"Agent '{id}' was not found"

/-- A message is appended to the conversation and published. -/
def appendMessage (kind : String) : ApprovalRun Unit := do
  askAside (.createMessage kind)
  askAside (.publish kind)

/-! ### Metadata -/

/-- `x in {"…"}` raises for a value that has no hash. -/
def ensureHashable (x : Json) : Except ConversationFault Unit :=
  match x with
  | .arr _ => .error ⟨"TypeError", "unhashable type: 'list'"⟩
  | .obj _ => .error ⟨"TypeError", "unhashable type: 'dict'"⟩
  | _ => .ok ()

/-- A string that is there and not empty. -/
def nonempty (s : Option String) : Option String := s.filter (· ≠ "")

/-- `_normalized_optional_string`. -/
def normalizedString (x : Json) : Option String := nonempty (x.asStr?.map strip)

/-- `_workflow_provenance_metadata`. -/
def provenanceMetadata (metadata : Dict Json) (approval : ConversationApproval)
    (action decision : String) (ownerUserId : Option String) (fallback : Dict Json) : Dict Json :=
  let merged := fallback.union metadata
  let ownerIds := match merged.getJson "owner_ids" with
    | .arr items => items.filterMap fun x => nonempty x.asStr?
    | _ => []
  let owner := nonempty (((nonempty ownerUserId).or
    (nonempty (merged.getJson "created_by").asStr?)).or approval.approvedByUserId)
  let owned := match owner with
    | none => merged
    | some owner => (merged.set "created_by" (.str owner)).set "owner_ids"
        (.strs (ownerIds ++ [owner]).eraseDups)
  owned.set "provenance" (.obj [
    ("action", .str action),
    ("decision", .str decision),
    ("conversation_id", .str approval.conversationId),
    ("origin_message_id", .str approval.originMessageId),
    ("approval_request_id", .str approval.id),
    ("requested_by_profile_id", .ofOption approval.requestedByProfileId),
    ("resolved_by_user_id", .ofOption approval.approvedByUserId)])

namespace ApprovalSettings

variable (cfg : ApprovalSettings) (approval : ConversationApproval)

/-- `_repo_write_permission_request`. -/
def repoWriteRequest (w : CatalogWorkflow) : Option (Dict Json) :=
  if cfg.requiresRepoWrite w then
    let configured := (w.metadata.getJson "repo_write_permission").asDict?.getD []
    if (Dict.getJson configured "status").asStr? = some "approved" then some configured
    else
      let mounts := match Dict.getJson configured "mounts" with
        | .arr mounts => .arr mounts
        | _ => cfg.defaultMounts
      some [
        ("approval_required", .bool true),
        ("status", .str "pending_human_approval"),
        ("permission_type", .str "repo_write"),
        ("reason", (Dict.getJson configured "reason").orElse (.str <|
          "This workflow can run shell/filesystem-capable coding steps and needs read-write " ++
          "access to the selected repository mount(s). Approve only if the workflow may " ++
          "inspect, modify, and verify files in those repos.")),
        ("mounts", mounts),
        ("operator_action", .str <|
          "Approve the workflow proposal only when these repos should be mounted read-write " ++
          "for worker containers. Reject or request changes to keep the workflow read-only.")]
  else none

/-- `_workflow_metadata_with_approved_repo_write`. -/
def withApprovedRepoWrite (w : CatalogWorkflow) (metadata : Dict Json) : Dict Json :=
  match cfg.repoWriteRequest w with
  | none => metadata
  | some permission =>
    if (Dict.getJson permission "status").asStr? = some "pending_human_approval" then
      metadata.set "repo_write_permission" (.obj ((((permission.set "status"
        (.str "approved")).set "approval_request_id" (.str approval.id)).set
        "approved_by_user_id" (.ofOption approval.approvedByUserId)).set "approved_at"
        (.str cfg.now)))
    else metadata

/-- The definition that an approved `workflow_create` saves. -/
def createdWorkflow (proposed : CatalogWorkflow) : CatalogWorkflow :=
  { proposed with
    metadata := cfg.withApprovedRepoWrite approval proposed (provenanceMetadata proposed.metadata
      approval "workflow_create" "approved" approval.approvedByUserId []) }

/-- The definition that an approved `workflow_update` saves over `current`. -/
def updatedWorkflow (current proposed : CatalogWorkflow) : CatalogWorkflow :=
  { proposed with
    id := current.id
    versioning := {
      version := if proposed.versioning.version = "" then current.versioning.version
        else proposed.versioning.version
      revision := current.versioning.revision + 1
      parentVersion := some current.versioning.version
      isPublished := true
      labels := proposed.versioning.labels }
    metadata := cfg.withApprovedRepoWrite approval proposed (provenanceMetadata proposed.metadata
      approval "workflow_update" "approved" none current.metadata) }

end ApprovalSettings

/-- The definition that a rejected `workflow_create` keeps as a draft. -/
def ConversationApproval.draftWorkflow (approval : ConversationApproval)
    (proposed : CatalogWorkflow) : CatalogWorkflow :=
  { proposed with
    versioning := { proposed.versioning with
      isPublished := false
      labels := if "draft" ∈ proposed.versioning.labels then proposed.versioning.labels
        else proposed.versioning.labels ++ ["draft"] }
    metadata := provenanceMetadata proposed.metadata approval "workflow_create"
      "rejected_saved_as_draft" approval.approvedByUserId [] }

/-! ### Governance records -/

/-- `dict(x or {})`. -/
def dictOrEmpty (x : Json) : Except ConversationFault (Dict Json) :=
  if !x.truthy then .ok []
  else match x with
    | .obj fields => .ok fields
    | _ => .error ⟨"ValueError", "dictionary update sequence element has the wrong length"⟩

/-- The dicts of `_raw_history_list`. -/
def rawHistory : Json → List (Dict Json)
  | .arr items => items.filterMap Json.asDict?
  | _ => []

/-- What is patched into the record of an approval that has been decided. -/
def governancePatch (cfg : ApprovalSettings) (approval : ConversationApproval)
    (record : Dict Json) : Dict Json :=
  let status := match approval.status with
    | .pending => "approval_requested"
    | .approved => "approved"
    | .rejected => "rejected"
    | .cancelled => "cancelled"
  let decidedBy := if approval.status = .pending then none else approval.approvedByUserId
  let text (s : Option String) : Json := .ofOption (nonempty (s.map strip))
  ((((((((record.set "approval_request_id" (text (some approval.id))).set "status"
    (.str status)).set "decision_reason" (text (if approval.status = .pending then none
      else approval.decisionReason))).set "decision_at"
    (if approval.status = .pending then .null else .str cfg.now)).set "decided_by"
    (text decidedBy)).set "approved_by" (text (if approval.status = .approved then decidedBy
      else none))).set "rejected_by" (text (if approval.status = .rejected then decidedBy
        else none))).set "updated_at" (.str cfg.now))

/-- Patch the first record that has this id under one of the keys. -/
def patchRecord (patch : Dict Json → Dict Json) (keys : List String) (id : String) :
    List (Dict Json) → Option (List (Dict Json))
  | [] => none
  | record :: records =>
    if keys.any fun key => normalizedString (record.getJson key) = some id then
      some (patch record :: records)
    else (patchRecord patch keys id records).map (record :: ·)

/-- The metadata of a workflow whose record has been patched, as `update_workflow_…` saves
it. -/
def governanceMetadata (cfg : ApprovalSettings) (approval : ConversationApproval)
    (history key id : String) (metadata : Dict Json) : Except ConversationFault (Dict Json) := do
  let monitoring ← dictOrEmpty (metadata.getJson "main_agent_monitoring")
  let records := rawHistory (monitoring.getJson history)
  match patchRecord (governancePatch cfg approval) ["id", key] id records with
  | none => .error ⟨"ValueError", s!"Record '{id}' was not found."⟩
  | some records =>
    let kept := records.drop (records.length - 50)
    .ok (metadata.set "main_agent_monitoring"
      (.obj (monitoring.set history (.arr (kept.map .obj)))))

/-- The record that an approval names: where it is kept, the key that also may hold its id,
and the id. -/
def governanceRecord (approval : ConversationApproval) : Option (String × String × String) :=
  match normalizedString (approval.metadata.getJson "proposal_id") with
  | some id => some ("improvement_proposals", "proposal_event_id", id)
  | none =>
    (normalizedString (approval.metadata.getJson "approval_id")).map fun id =>
      ("steering_approvals", "approval_request_id", id)

/-- `sync_governance_record_from_approval`. -/
def syncGovernance (cfg : ApprovalSettings) (approval : ConversationApproval) :
    ApprovalRun Unit :=
  match nonempty ((normalizedString (approval.metadata.getJson "workflow_id")).or
      approval.targetId) with
  | none => .done ()
  | some workflowId => do
    let found ← askFor (.getWorkflow .governance workflowId)
    match found with
    | none => .done ()
    | some _ =>
      match governanceRecord approval with
      | none => .done ()
      | some (history, key, id) => do
        let again ← askFor (.getWorkflow .governanceRecord workflowId)
        match again with
        | none => raiseFault "WorkflowNotFoundError" s!"Workflow '{workflowId}' not found"
        | some w => do
          let metadata ← ofExcept
            (governanceMetadata cfg approval history key id w.metadata)
          let updated : Bool ← askFor (.updateMetadata w.id metadata)
          if updated = true then .done () else raiseFault "AssertionError" ""

/-! ### Applying an approval -/

section Apply

variable (cfg : ApprovalSettings) (approval : ConversationApproval)

/-- `_maybe_create_requested_schedule_for_workflow`. -/
def createRequestedSchedule (w : CatalogWorkflow) : ApprovalRun Unit :=
  match (w.metadata.getJson "requested_schedule").asObj?.bind cfg.validateSchedule with
  | none => .done ()
  | some id => do
    let existing : Bool ← askAside (.getSchedule id)
    if existing = true then .done ()
    else rescue (askAside (.createSchedule id)) fun _ => .done ()

/-- `_maybe_apply_workflow_mutation_from_approval` of a `workflow_create`. -/
def applyWorkflowCreate : ApprovalRun Unit := do
  let proposed ← ofExcept (cfg.validateWorkflow approval.workflowPayload)
  askFor (.saveWorkflow (cfg.createdWorkflow approval proposed))
  createRequestedSchedule cfg (cfg.createdWorkflow approval proposed)

/-- `_maybe_apply_workflow_mutation_from_approval` of a `workflow_update`. -/
def applyWorkflowUpdate : ApprovalRun Unit := do
  let found ← askFor (.getWorkflow .mutation (approval.targetId.getD ""))
  match found with
  | none => workflowMissing (approval.targetId.getD "None")
  | some current => do
    let proposed ← ofExcept (cfg.validateWorkflow approval.workflowPayload)
    askFor (.saveWorkflow (cfg.updatedWorkflow approval current proposed))
    askAside (.replaceActiveExecutions current.id
      ((approval.payload.getJson "restart_active_executions").truthy ||
        (approval.metadata.getJson "restart_active_executions").truthy))

/-- `_maybe_apply_workflow_mutation_from_approval`. -/
def applyWorkflowMutation : ApprovalRun Unit :=
  if approval.status ≠ .approved then .done ()
  else do
    ofExcept (ensureHashable approval.action)
    if approval.hasAction "workflow_create" then
      if cfg.workflowMutationEnabled then applyWorkflowCreate cfg approval
      else appendMessage "workflow_mutation_disabled"
    else if approval.hasAction "workflow_update" then
      if cfg.workflowMutationEnabled then applyWorkflowUpdate cfg approval
      else appendMessage "workflow_mutation_disabled"
    else .done ()

/-- The tool that is proposed, saved with its provenance. -/
def saveProposedTool : ApprovalRun Unit :=
  match approval.payload.getJson "tool" with
  | .obj fields => do
    let tool ← ofExcept (cfg.validateTool (.obj fields))
    let _ ← askFor (.perform .tool tool)
    .done ()
  | _ => raiseFault "ValueError" "Approval proposal is missing a tool payload"

/-- `_maybe_apply_tool_mutation_from_approval`. -/
def applyToolMutation : ApprovalRun Unit :=
  if approval.status ≠ .approved then .done ()
  else do
    ofExcept (ensureHashable approval.action)
    if approval.hasAction "tool_create" then
      if cfg.toolMutationEnabled then saveProposedTool cfg approval
      else appendMessage "tool_mutation_disabled"
    else if approval.hasAction "tool_update" then
      if cfg.toolMutationEnabled then do
        let current : Option String ← askAside (.getTool (approval.targetId.getD ""))
        if current.isNone then
          toolMissing (approval.targetId.getD "None")
        else saveProposedTool cfg approval
      else appendMessage "tool_mutation_disabled"
    else .done ()

/-- `_maybe_apply_agent_mutation_from_approval`. -/
def applyAgentMutation : ApprovalRun Unit :=
  if approval.status ≠ .approved || !approval.hasAction "agent_update" then .done ()
  else do
    let current : Bool ← askAside (.getAgent (approval.targetId.getD ""))
    if !current then
      agentMissing (approval.targetId.getD "None")
    else do
      let agent ← ofExcept (cfg.validateAgent
        ((approval.payload.getJson "agent").orElse (.obj [])))
      let _ ← askFor (.perform .agent agent)
      askAside (.syncAgent agent)

/-- `_maybe_apply_supervisor_steering_from_approval`. -/
def applySteering : ApprovalRun Unit :=
  if approval.status ≠ .approved || !approval.hasAction "supervisor_steering" then .done ()
  else match nonempty (approval.payload.getJson "execution_id").asStr? with
    | none => .done ()
    | some executionId => do
      let execution : Option (Option String) ← askAside (.getExecution (.str executionId))
      if execution.isNone then .done ()
      else do
        let _ ← askFor (.perform .steering (.obj approval.payload))
        askAside .saveSteeringEvent
        askAside (.updateSteeringRequest (.str executionId))

/-- `_launch_execution_from_request`. -/
def launchExecution (w : CatalogWorkflow) : ApprovalRun String := do
  let channel : Option String ← askAside (.getChannelType approval.conversationId)
  if channel.isNone then
    raiseFault "AttributeError" "'NoneType' object has no attribute 'channel_type'"
  else do
    let execution : String ← askFor (.perform .execution (.obj [("workflow_id", .str w.id),
      ("input_payload", approval.payload.getJson "input_payload"),
      ("runtime_adapter_id", approval.payload.getJson "runtime_adapter_id")]))
    askAside (.updateExecution execution)
    let _ ← askFor (.perform .launch (.str execution))
    askAside (.publishActivity execution)
    appendMessage "execution_started"
    askAside (.syncCompletion execution)
    .done execution

/-- `_maybe_launch_execution_from_approval`. -/
def launchExecutionFromApproval : ApprovalRun Unit :=
  if !approval.hasAction "workflow_execution" || approval.status ≠ .approved then .done ()
  else if (approval.metadata.getJson "execution_id").truthy then do
    let _ ← askAside (.getExecution (approval.metadata.getJson "execution_id"))
    .done ()
  else match approval.payload.getJson "workflow_id" with
    | .str workflowId =>
      if workflowId = "" then .done ()
      else do
        let found ← askFor (.getWorkflow .launch workflowId)
        match found with
        | none => workflowMissing workflowId
        | some w => do
          askAside (.resolveMainProfile approval.conversationId)
          let execution ← launchExecution approval w
          let _ ← askFor (.updateApproval approval.id {
            metadata := some (approval.metadata.set "execution_id" (.str execution)) })
          .done ()
    | value =>
      if value.truthy then workflowMissing "?" else .done ()

/-- `_maybe_execute_tool_from_approval`. -/
def executeToolFromApproval : ApprovalRun Unit :=
  if !approval.hasAction "tool_execution" || approval.status ≠ .approved then .done ()
  else match approval.payload.getJson "tool_id" with
    | .str toolId =>
      if toolId = "" then .done ()
      else do
        let found : Option String ← askAside (.getTool toolId)
        if found.isNone then appendMessage "tool_unavailable"
        else do
          appendMessage "tool_call"
          rescue (do
            let _ ← askFor (.perform .toolRun (approval.payload.getJson "arguments"))
            .done ()) fun _ => .done ()
          appendMessage "tool_result"
          askAside (.resolveMainProfile approval.conversationId)
          askAside .generateReply
    | value =>
      if value.truthy then appendMessage "tool_unavailable" else .done ()

end Apply

/-! ### Resolving an approval -/

/-- `_assert_may_resolve_approval`. -/
def assertMayResolve (approval : ConversationApproval) (actorUserId : String) :
    ApprovalRun Unit := do
  let conversation : Option (Option String × Option String) ←
    askAside (.getConversation approval.conversationId)
  match conversation with
  | none =>
    raiseFault "ConversationNotFoundError" <| s!"Conversation '{approval.conversationId}' not found"
  | some (owner, channelUser) =>
    if owner.getD ("external:" ++ channelUser.getD "") = actorUserId then .done ()
    else raiseFault "ConversationApprovalPermissionError" <|
      s!"User '{actorUserId}' may not resolve approval request '{approval.id}'"

/-- How every resolver starts: an approval that is pending and may be resolved. -/
def pendingApproval (id actorUserId : String) : ApprovalRun ConversationApproval := do
  let found ← askFor (.getApproval id)
  match found with
  | none => raiseFault "ConversationApprovalNotFoundError" s!"Approval request '{id}' not found"
  | some approval =>
    if approval.status ≠ .pending then
      raiseFault "ConversationApprovalStateError" s!"Approval request '{id}' is not pending"
    else do
      assertMayResolve approval actorUserId
      .done approval

/-- Record a decision; the approval as it is then stored. -/
def recordDecision (approval : ConversationApproval) (patch : ApprovalPatch) :
    ApprovalRun ConversationApproval := do
  let resolved ← askFor (.updateApproval approval.id patch)
  match resolved with
  | none => raiseFault "AssertionError" ""
  | some resolved => .done resolved

/-- What follows once an approval has been granted. -/
def applyApproval (cfg : ApprovalSettings) (resolved : ConversationApproval) :
    ApprovalRun Unit := do
  appendMessage "approval_result"
  applyWorkflowMutation cfg resolved
  applyToolMutation cfg resolved
  applyAgentMutation cfg resolved
  applySteering resolved
  syncGovernance cfg resolved
  launchExecutionFromApproval resolved
  executeToolFromApproval resolved
  askAside (.publish "approval.resolved")

/-- The steering parameters that an approval keeps, validated. -/
def steeringParameters (approval : ConversationApproval) (parameters : Option Json) :
    ApprovalRun (Option (Dict Json)) :=
  match parameters with
  | some value =>
    if approval.hasAction "supervisor_steering" then do
      let clean ← askAside (.validateSteering approval.payload value)
      .done (some clean)
    else .done none
  | none => .done none

/-- The patch of an approval that is granted. -/
def approvalPatch (approval : ConversationApproval) (actorUserId : String)
    (reason : Option String) (clean : Option (Dict Json)) : ApprovalPatch :=
  let add (d : Dict Json) : Dict Json := match clean with
    | none => d
    | some clean => d.set "operator_steering_parameters" (.obj clean)
  { status := some .approved
    decisionReason := some reason
    approvedByUserId := some (some actorUserId)
    metadata := some (add approval.metadata)
    proposedPayload := some (approval.proposedPayload.map add) }

/-- `approve_request`. -/
def approveRequest (cfg : ApprovalSettings) (id actorUserId : String) (reason : Option String)
    (parameters : Option Json) : ApprovalRun Unit := do
  let approval ← pendingApproval id actorUserId
  let clean ← steeringParameters approval parameters
  let resolved ← recordDecision approval (approvalPatch approval actorUserId reason clean)
  applyApproval cfg resolved

/-- `_maybe_persist_rejected_create_draft`. -/
def persistRejectedDraft (cfg : ApprovalSettings) (approval : ConversationApproval) :
    ApprovalRun Unit :=
  if approval.status ≠ .rejected || !approval.hasAction "workflow_create" then .done ()
  else do
    let proposed ← ofExcept (cfg.validateWorkflow approval.workflowPayload)
    askFor (.saveDraft (approval.draftWorkflow proposed))

/-- `_maybe_reject_supervisor_steering_from_approval`. -/
def rejectSteering (approval : ConversationApproval) : ApprovalRun Unit :=
  if approval.status ≠ .rejected || !approval.hasAction "supervisor_steering" then .done ()
  else match nonempty (approval.payload.getJson "execution_id").asStr? with
    | none => .done ()
    | some executionId => askAside (.updateSteeringRequest (.str executionId))

/-- `_maybe_store_rejected_approval_memory`. -/
def storeReason (storeReasonAsMemory : Bool) : ApprovalRun Unit :=
  if storeReasonAsMemory then askAside .storeMemory else .done ()

/-- `reject_request`. -/
def rejectRequest (cfg : ApprovalSettings) (id actorUserId : String) (reason : Option String)
    (storeReasonAsMemory : Bool) : ApprovalRun Unit := do
  let approval ← pendingApproval id actorUserId
  let resolved ← recordDecision approval {
    status := some .rejected
    decisionReason := some reason
    approvedByUserId := some (some actorUserId) }
  storeReason storeReasonAsMemory
  rejectSteering resolved
  persistRejectedDraft cfg resolved
  syncGovernance cfg resolved
  appendMessage "approval_result"
  askAside (.publish "approval.resolved")

/-- `list(value or [])`. -/
def listOrEmpty : Json → Except ConversationFault (List Json)
  | .arr items => .ok items
  | .str s => .ok (s.toList.map fun c => .str (String.singleton c))
  | .obj fields => .ok (fields.map fun field => .str field.1)
  | value => if value.truthy then .error ⟨"TypeError", "object is not iterable"⟩ else .ok []

/-- `request_changes_to_approval`. -/
def requestChanges (cfg : ApprovalSettings) (id actorUserId : String) (reason : Option String) :
    ApprovalRun Unit := do
  let approval ← pendingApproval id actorUserId
  let request : Json := .obj [("requested_by_user_id", .str actorUserId),
    ("reason", .ofOption reason), ("requested_at", .str cfg.now)]
  let requests ← ofExcept (listOrEmpty (approval.metadata.getJson "revision_requests"))
  let _ ← recordDecision approval {
    status := some .cancelled
    decisionReason := some reason
    approvedByUserId := some (some actorUserId)
    metadata := some (((approval.metadata.set "revision_requested" (.bool true)).set
      "last_revision_request" request).set "revision_requests" (.arr (requests ++ [request]))) }
  appendMessage "revision_requested"
  askAside (.publish "approval.revision_requested")

/-! ### Splitting -/

/-- A part of an approval that is split. -/
structure ApprovalPart where
  approvalType : String
  summary : String
  diffSummary : Option String
  proposedPayload : Dict Json
  metadata : Dict Json

/-- The reviews that an approval may ask for besides its workflow: the key, the name of the
part and its summary. -/
def splitReviews : List (String × String × String) := [
  ("schedule_change_approval", "schedule_change",
    "schedule, concurrency, runtime adapter, or execution host review"),
  ("tool_assignment_change_approval", "tool_assignment", "tool assignment permission review"),
  ("memory_write_approval", "memory_write", "durable workflow memory write review")]

/-- `_split_approval_parts`. -/
def splitParts (approval : ConversationApproval) : List ApprovalPart :=
  let definition : List ApprovalPart :=
    if (approval.payload.getJson "workflow").isNull then [] else [{
      approvalType := approval.approvalType
      summary := approval.summary ++ " (workflow definition)"
      diffSummary := approval.diffSummary
      proposedPayload := approval.payload.filter fun entry =>
        entry.1 ∉ splitReviews.map (·.1)
      metadata := [("split_part", .str "workflow_definition"), ("action", approval.action)] }]
  definition ++ splitReviews.filterMap fun (key, part, summary) =>
    let requirements :=
      (approval.payload.getJson key).orElse (approval.metadata.getJson key)
    if requirements.isNull then none else some {
      approvalType := "other"
      summary := approval.summary ++ " (" ++ summary ++ ")"
      diffSummary := some summary
      proposedPayload := [("workflow_id", .ofOption approval.targetId), (key, requirements),
        ("parent_proposed_payload", .obj [
          ("current_revision", approval.payload.getJson "current_revision"),
          ("expected_replacement_revision",
            approval.payload.getJson "expected_replacement_revision"),
          ("evidence", approval.payload.getJson "evidence")])]
      metadata := [("split_part", .str part), ("action", .str (part ++ "_review"))] }

/-- The approval of a part. -/
def childApproval (cfg : ApprovalSettings) (approval : ConversationApproval)
    (actorUserId id : String) (part : ApprovalPart) : ConversationApproval where
  id := id
  approvalType := part.approvalType
  targetType := approval.targetType
  targetId := approval.targetId
  requestedByAgentId := approval.requestedByAgentId
  requestedByProfileId := approval.requestedByProfileId
  conversationId := approval.conversationId
  originMessageId := approval.originMessageId
  summary := part.summary
  diffSummary := part.diffSummary
  proposedPayload := some part.proposedPayload
  metadata := (approval.metadata.union part.metadata).union [
    ("parent_approval_request_id", .str approval.id),
    ("split_from_parent", .bool true),
    ("split_requested_by_user_id", .str actorUserId),
    ("split_requested_at", .str cfg.now)]

/-- `split_approval_request`. -/
def splitRequest (cfg : ApprovalSettings) (id actorUserId : String) (reason : Option String) :
    ApprovalRun Unit := do
  let approval ← pendingApproval id actorUserId
  let parts := splitParts approval
  if parts.length < 2 then
    raiseFault "ConversationApprovalStateError" s!"Approval request '{id}' cannot be split"
  else do
    let _ ← recordDecision approval {
      status := some .cancelled
      decisionReason := some reason
      approvedByUserId := some (some actorUserId)
      metadata := some (approval.metadata.union [
        ("split_requested", .bool true),
        ("split_requested_by_user_id", .str actorUserId),
        ("split_requested_at", .str cfg.now),
        ("split_reason", .ofOption reason),
        ("split_part_count", .nat parts.length)]) }
    let _ ← collect (fun part => do
      let childId : String ← askAside .uuid4
      askFor (.createApproval (childApproval cfg approval actorUserId childId part))
      appendMessage "approval_request"
      askAside (.publish "approval.requested")
      .done ([] : List Unit)) parts
    appendMessage "approval_split"
    askAside (.publish "approval.split")

end OpenAgency
