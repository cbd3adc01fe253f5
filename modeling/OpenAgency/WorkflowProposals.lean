/-
WorkflowProposals.lean

Proposals to change workflows, and the policy that they are held to.

An approval that changes a workflow comes about in one of three ways.  A proposal of a new
workflow and a proposal of an update are drafted by the main agent, after the policy has
been asked whether the conversation and the workflow allow it.  An approval can also be
spelled out in the content of a message; nobody is asked then.

How the main agent turns a request into a definition is not modelled: a proposal is given
the definition it ends with.
-/
import OpenAgency.ConversationApprovals

namespace OpenAgency

open Relational Interaction

/-! ### Policy -/

/-- What the policy asks of a conversation. -/
structure ConversationIdentity where
  createdByUserId : Option String
  channelType : String

/-- `_TRUSTED_FIRST_PARTY_CHANNELS`. -/
def trustedFirstPartyChannels : List String := ["api", "web"]

/-- `is_trusted_conversation`. -/
def isTrustedConversation : Option ConversationIdentity → Bool
  | none => false
  | some conversation =>
    (nonempty conversation.createdByUserId).isSome ||
      conversation.channelType ∈ trustedFirstPartyChannels

/-- `_DENY_METADATA_KEYS`. -/
def denyMetadataKeys : List String := [
  "deny_main_agent",
  "denied_to_main_agent",
  "hidden_from_main_agent",
  "hide_from_main_agent",
  "main_agent_denied"]

/-- `_metadata_denies`. -/
def metadataDenies (metadata : Dict Json) : Bool :=
  denyMetadataKeys.any fun key => (metadata.getJson key).isTrue

/-- What `workflow_is_visible` reads of a workflow. -/
def metadataIsVisible (metadata : Dict Json) : Bool :=
  !metadataDenies metadata &&
    ((metadata.getJson "visible_to_agent").isTrue ||
      (metadata.getJson "visible_to_main_agent").isTrue)

/-- What `workflow_is_mutable` reads of a workflow. -/
def metadataIsMutable (metadata : Dict Json) : Bool :=
  metadataIsVisible metadata && (metadata.getJson "mutable_by_main_agent").isTrue &&
    !metadataDenies metadata

/-- `workflow_is_visible`. -/
def workflowIsVisible (w : CatalogWorkflow) : Bool := metadataIsVisible w.metadata

/-- `workflow_is_mutable`. -/
def workflowIsMutable (cfg : ApprovalSettings) (w : CatalogWorkflow) : Bool :=
  cfg.workflowMutationEnabled && metadataIsMutable w.metadata

/-! ### Approvals in the content of a message -/

structure MainAgentProfile where
  id : String
  agentId : String

/-- The keys of `_approval_origin_metadata`. -/
def approvalOriginKeys : List String := [
  "source",
  "source_page_context",
  "source_surface",
  "source_route",
  "source_channel_context",
  "source_channel_type",
  "source_provider_ids"]

/-- A message of a user, with what `_approval_origin_metadata` finds in it under each key. -/
structure OriginMessage where
  id : String
  conversationId : String
  content : Json
  origin : String → Option Json

/-- `_approval_origin_metadata`. -/
def OriginMessage.approvalOriginMetadata (message : OriginMessage) : Dict Json :=
  approvalOriginKeys.filterMap fun key => (message.origin key).map (key, ·)

/-- The values of `ApprovalType`. -/
def approvalTypes : List String := [
  "workflow_execution",
  "workflow_create",
  "workflow_update",
  "tool_create",
  "tool_update",
  "tool_execute",
  "other"]

/-- The values of `ApprovalTargetType`. -/
def approvalTargetTypes : List String := ["workflow", "tool", "agent", "other"]

/-- A string field of a model, `default` where it is missing. -/
def stringField (default : String) : Option Json → Option String
  | none => some default
  | some value => value.asStr?

/-- A field of a model that is one of these values. -/
def enumField (values : List String) (default : String) (value : Option Json) : Option String :=
  (stringField default value).filter (· ∈ values)

/-- An optional string field of a model. -/
def optionalStringField : Option Json → Option (Option String)
  | none | some .null => some none
  | some value => value.asStr?.map some

/-- An optional dict field of a model. -/
def optionalDictField : Option Json → Option (Option (Dict Json))
  | none | some .null => some none
  | some value => value.asDict?.map some

/-- The `approval_request` of a message's content, unless it asks for an execution. -/
def OriginMessage.approvalRequest (message : OriginMessage) : Option (Dict Json) :=
  match message.content.asDict? with
  | none => none
  | some content =>
    if (Dict.getJson content "execution_request").asDict?.isSome then none
    else (Dict.getJson content "approval_request").asDict?

/-- `_maybe_create_approval_request`, if `ApprovalRequest` accepts what the message says. -/
def requestedApproval (profile : MainAgentProfile) (message : OriginMessage) (id : String) :
    Option ConversationApproval := do
  let structured ← message.approvalRequest
  let approvalType ← enumField approvalTypes "other" (structured.get? "approval_type")
  let targetType ← enumField approvalTargetTypes "other" (structured.get? "target_type")
  let targetId ← optionalStringField (structured.get? "target_id")
  let summary ← stringField "Approval requested" (structured.get? "summary")
  let diffSummary ← optionalStringField (structured.get? "diff_summary")
  let proposedPayload ← optionalDictField (structured.get? "proposed_payload")
  let metadata ← ((structured.get? "metadata").getD (.obj [])).asDict?
  some {
    id, approvalType, targetType, targetId, summary, diffSummary, proposedPayload
    requestedByAgentId := profile.agentId
    requestedByProfileId := some profile.id
    conversationId := message.conversationId
    originMessageId := message.id
    metadata := (Dict.union [("source", .str "conversation")]
      message.approvalOriginMetadata).union metadata }

/-! ### Proposals of the main agent -/

/-- What proposals are told about the rest of the program besides. -/
structure ProposalSettings extends ApprovalSettings where
  /-- `WorkflowDefinition.model_dump(mode="json")`. -/
  dumpWorkflow : CatalogWorkflow → Dict Json
  /-- `_approval_diff_rows`. -/
  approvalDiffRows : Json → Json → List Json
  dumpWorkflow_ne_nil : ∀ w, dumpWorkflow w ≠ []
  /-- A dump that is validated gives a definition with the same id. -/
  id_of_validate_dump : ∀ w proposed,
    validateWorkflow (.obj (dumpWorkflow w)) = .ok proposed → proposed.id = w.id

/-- What the main agent makes of a request for a proposal. -/
structure ProposalDraft where
  workflow : CatalogWorkflow
  summary : String
  diffSummary : String
  /-- The `validation_repair` of a definition that had to be repaired. -/
  repair : Option Json
  restartActiveExecutions : Bool

section Proposals

variable (cfg : ProposalSettings)

/-- `_workflow_with_repo_write_permission_request`. -/
def withRepoWriteRequest (w : CatalogWorkflow) : CatalogWorkflow × Option (Dict Json) :=
  match cfg.repoWriteRequest w with
  | none => (w, none)
  | some permission =>
    if (permission.getJson "status").asStr? = some "approved" then (w, none)
    else ({ w with metadata := w.metadata.set "repo_write_permission" (.obj permission) },
      some permission)

/-- `{key: permission}` if there is one. -/
def repoWriteField (permission : Option (Dict Json)) : Dict Json :=
  permission.toList.map fun permission => ("repo_write_permission", .obj permission)

def ProposalDraft.repairMetadata (draft : ProposalDraft) (permission : Option (Dict Json)) :
    Dict Json :=
  draft.repair.toList.map (("validation_repair", ·)) ++ repoWriteField permission

/-- The policy of both proposals: changes are enabled, the conversation is trusted, and it
has an owner. -/
def mayPropose (conversation : Option ConversationIdentity) : Bool :=
  cfg.workflowMutationEnabled && isTrustedConversation conversation &&
    ((conversation.bind (·.createdByUserId)).any fun owner => strip owner ≠ "")

/-- `_create_workflow_create_proposal`. -/
def createProposal (conversation : Option ConversationIdentity) (workflows : WorkflowRecords)
    (profile : MainAgentProfile) (message : OriginMessage) (draft : ProposalDraft) (id : String) :
    Option ConversationApproval :=
  if !mayPropose cfg conversation || (workflows.get draft.workflow.id).isSome then none
  else
    let (workflow, permission) := withRepoWriteRequest cfg draft.workflow
    let proposedPayload : Dict Json := cfg.dumpWorkflow workflow
    some {
      id
      approvalType := "workflow_create"
      targetType := "workflow"
      targetId := some workflow.id
      requestedByAgentId := profile.agentId
      requestedByProfileId := some profile.id
      conversationId := message.conversationId
      originMessageId := message.id
      summary := draft.summary
      diffSummary := some draft.diffSummary
      proposedPayload := some ([
        ("workflow", .obj proposedPayload),
        ("diff", .arr (cfg.approvalDiffRows .null (.obj proposedPayload)))] ++
        repoWriteField permission)
      metadata := [("action", .str "workflow_create")] ++ message.approvalOriginMetadata ++
        draft.repairMetadata permission }

/-- `_create_workflow_update_proposal`: the draft is made from the current definition, and
keeps its id. -/
def updateProposal (conversation : Option ConversationIdentity) (workflows : WorkflowRecords)
    (profile : MainAgentProfile) (message : OriginMessage) (workflowId : String)
    (draft : CatalogWorkflow → Option ProposalDraft) (id : String) :
    Option ConversationApproval :=
  if !mayPropose cfg conversation || workflowId = "" then none
  else do
    let current ← workflows.get workflowId
    if !workflowIsVisible current || !workflowIsMutable cfg.toApprovalSettings current then none
    else do
      let draft ← draft current
      let (workflow, permission) :=
        withRepoWriteRequest cfg { draft.workflow with id := current.id }
      let proposedPayload : Dict Json := cfg.dumpWorkflow workflow
      let diff := cfg.approvalDiffRows (.obj (cfg.dumpWorkflow current)) (.obj proposedPayload)
      if diff.isEmpty then none
      else some {
        id
        approvalType := "workflow_update"
        targetType := "workflow"
        targetId := some current.id
        requestedByAgentId := profile.agentId
        requestedByProfileId := some profile.id
        conversationId := message.conversationId
        originMessageId := message.id
        summary := draft.summary
        diffSummary := some draft.diffSummary
        proposedPayload := some ([
          ("workflow_id", .str current.id),
          ("current_revision", .num current.versioning.revision),
          ("restart_active_executions", .bool draft.restartActiveExecutions),
          ("workflow", .obj proposedPayload),
          ("diff", .arr diff)] ++ repoWriteField permission)
        metadata := [
          ("action", .str "workflow_update"),
          ("restart_active_executions", .bool draft.restartActiveExecutions)] ++
          message.approvalOriginMetadata ++ draft.repairMetadata permission }

end Proposals

/-! ### What happens in conversations -/

/-- What happens one after the other: messages that lead to an approval, and approvals that
are granted. -/
inductive ConversationCall where
  | requestApproval (profile : MainAgentProfile) (message : OriginMessage) (id : String)
  | proposeCreate (profile : MainAgentProfile) (message : OriginMessage) (draft : ProposalDraft)
      (id : String)
  | proposeUpdate (profile : MainAgentProfile) (message : OriginMessage) (workflowId : String)
      (draft : CatalogWorkflow → Option ProposalDraft) (id : String)
  | approve (id actorUserId : String) (reason : Option String) (parameters : Option Json)

variable {ω : Type}

/-- The approval that a message leads to. -/
def ConversationCall.approval? (cfg : ProposalSettings)
    (conversations : String → Option ConversationIdentity) (workflows : WorkflowRecords) :
    ConversationCall → Option ConversationApproval
  | requestApproval profile message id => requestedApproval profile message id
  | proposeCreate profile message draft id =>
    createProposal cfg (conversations message.conversationId) workflows profile message draft id
  | proposeUpdate profile message workflowId draft id =>
    updateProposal cfg (conversations message.conversationId) workflows profile message workflowId
      draft id
  | approve _ _ _ _ => none

/-- `create` of an approval; its id is new. -/
def ApprovalWorld.requested (s : ApprovalWorld ω) (approval : ConversationApproval) :
    ApprovalWorld ω :=
  if (s.approvals.get approval.id).isSome then s
  else { s with approvals := s.approvals.put approval }

def ConversationCall.next (cfg : ProposalSettings) (env : ApprovalEnvironment ω)
    (conversations : String → Option ConversationIdentity) (call : ConversationCall)
    (s : ApprovalWorld ω) : ApprovalWorld ω :=
  match call with
  | approve id actorUserId reason parameters =>
    ((approveRequest cfg.toApprovalSettings id actorUserId reason parameters).run
      (approvalHandler env) s).2
  | _ =>
    match call.approval? cfg conversations s.workflows with
    | none => s
    | some approval => s.requested approval

end OpenAgency
