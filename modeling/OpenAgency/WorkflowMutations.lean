/-
WorkflowMutations.lean

The policy on workflows, and what granted approvals write.

Proposals of the main agent ask the policy when they are drafted; an approval that is
granted asks only whether changes are enabled.  So an approval spelled out in a message may
overwrite a workflow that is hidden from the main agent (`hiddenWorkflow_overwritten`), and
so may a proposal whose workflow has been closed since.  The main result is
`workflowMutations_bounded`: if approvals in messages pass the checks that proposals make,
and no granted definition closes a workflow that another pending approval is for, then what
is granted only ever writes to workflows that are mutable, for conversations that are
trusted.

The invariant is that this holds of whatever a pending approval may write.
-/
import OpenAgency.ApprovalWrites
import OpenAgency.WorkflowProposals
import OpenAgency.Lib.History

namespace OpenAgency

open Relational Interaction Program Catalog ApprovalOp Dict ApprovalExample ApprovalSettings

/-! ### What an approval may write -/

namespace ConversationApproval

variable (approval : ConversationApproval)

/-- The approval proposes to create or to update a workflow. -/
def Mutates : Prop :=
  approval.hasAction "workflow_create" ∨ approval.hasAction "workflow_update"

/-- The definition that is saved if the approval is granted goes under this id. -/
def Overwrites (cfg : ApprovalSettings) (proposed : CatalogWorkflow) (x : String) : Prop :=
  cfg.workflowMutationEnabled ∧ cfg.validateWorkflow approval.workflowPayload = .ok proposed ∧
    (approval.hasAction "workflow_create" ∧ proposed.id = x ∨
      approval.hasAction "workflow_update" ∧ approval.targetId.getD "" = x)

/-- Granting the approval may write to the workflow with this id. -/
def Aims (cfg : ApprovalSettings) (x : String) : Prop :=
  approval.Mutates ∧ ((∃ proposed, approval.Overwrites cfg proposed x) ∨ approval.governs x)

/-- The metadata that the saved definition takes over. -/
def mergedMetadata (workflows : WorkflowRecords) (proposed : CatalogWorkflow) : Dict Json :=
  let current : Dict Json :=
    if approval.hasAction "workflow_update" then
      (workflows.get (approval.targetId.getD "")).elim [] (·.metadata)
    else []
  current.union proposed.metadata

end ConversationApproval

/-- The workflow that a step writes. -/
def ApprovalOp.writesTo : ApprovalOp → Option String
  | saveWorkflow w => some w.id
  | updateMetadata id _ => some id
  | _ => none

section Policy

variable {ω : Type} (cfg : ProposalSettings) (conversations : String → Option ConversationIdentity)

/-- Whatever the approval may write is mutable, and its conversation is trusted. -/
def WithinPolicy (s : ApprovalWorld ω) (approval : ConversationApproval) : Prop :=
  approval.Mutates →
    isTrustedConversation (conversations approval.conversationId) ∧
      ∀ x, approval.Aims cfg.toApprovalSettings x →
        ∀ w, s.workflows.get x = some w → workflowIsMutable cfg.toApprovalSettings w

/-- An approval in a message is within the policy; and what is granted leaves its workflow
mutable, or no other pending approval may write to it. -/
def KeepsPolicy (s : ApprovalWorld ω) : ConversationCall → Prop
  | .requestApproval profile message id =>
    ∀ approval, requestedApproval profile message id = some approval →
      WithinPolicy cfg conversations s approval
  | .approve id _ _ _ =>
    ∀ approval, s.approvals.get id = some approval → approval.status = .pending →
      ∀ proposed x, approval.Overwrites cfg.toApprovalSettings proposed x →
        metadataIsMutable (approval.mergedMetadata s.workflows proposed) ∨
          ∀ other, s.approvals.get other.id = some other → other.status = .pending →
            other.id ≠ id → ¬ other.Aims cfg.toApprovalSettings x
  | _ => True

/-- Every pending approval is within the policy. -/
def PendingWithinPolicy (s : ApprovalWorld ω) : Prop :=
  ∀ approval, s.approvals.get approval.id = some approval → approval.status = .pending →
    WithinPolicy cfg conversations s approval

end Policy

/-! ### Metadata -/

/-- The keys that the policy reads. -/
def policyKeys : List String :=
  denyMetadataKeys ++ ["visible_to_agent", "visible_to_main_agent", "mutable_by_main_agent"]

/-- The keys that a granted approval writes itself. -/
def approvalKeys : List String :=
  ["created_by", "owner_ids", "provenance", "repo_write_permission"]

/-- The policy reads no other keys. -/
theorem metadataIsMutable_congr {metadata metadata' : Dict Json}
    (h : ∀ key ∈ policyKeys, metadata'.getJson key = metadata.getJson key) :
    metadataIsMutable metadata' = metadataIsMutable metadata := by
  have hdenies : metadataDenies metadata' = metadataDenies metadata := by
    unfold metadataDenies
    rw [Bool.eq_iff_iff, List.any_eq_true, List.any_eq_true]
    refine exists_congr fun key => and_congr_right fun hkey => ?_
    rw [h key (List.mem_append_left _ hkey)]
  have hkeys : ∀ key ∈ ["visible_to_agent", "visible_to_main_agent", "mutable_by_main_agent"],
      metadata'.getJson key = metadata.getJson key := fun key hkey =>
    h key (List.mem_append_right _ hkey)
  unfold metadataIsMutable metadataIsVisible
  rw [hdenies, hkeys _ (by simp), hkeys _ (by simp), hkeys _ (by simp)]

variable {approval : ConversationApproval}

theorem getJson_provenanceMetadata {metadata fallback : Dict Json} {action decision key : String}
    {owner : Option String} (hkey : key ∉ approvalKeys) :
    (provenanceMetadata metadata approval action decision owner fallback).getJson key
      = (fallback.union metadata).getJson key := by
  have hne : key ≠ "created_by" ∧ key ≠ "owner_ids" ∧ key ≠ "provenance" := by
    simp only [approvalKeys, List.mem_cons, not_or] at hkey
    exact ⟨hkey.1, hkey.2.1, hkey.2.2.1⟩
  unfold provenanceMetadata
  dsimp only
  rw [getJson_set_ne hne.2.2]
  split
  · rfl
  · rw [getJson_set_ne hne.2.1, getJson_set_ne hne.1]

variable {key : String}

variable {w : CatalogWorkflow}

theorem getJson_withApprovedRepoWrite {cfg : ApprovalSettings} {metadata : Dict Json}
    (hkey : key ∉ approvalKeys) :
    (cfg.withApprovedRepoWrite approval w metadata).getJson key = metadata.getJson key := by
  have hne : key ≠ "repo_write_permission" := by
    simp only [approvalKeys, List.mem_cons, not_or] at hkey
    exact hkey.2.2.2.1
  unfold withApprovedRepoWrite
  split
  · rfl
  · split
    · exact getJson_set_ne hne
    · rfl

theorem policyKeys_disjoint (hkey : key ∈ policyKeys) : key ∉ approvalKeys := by
  revert key
  decide

variable {workflows : WorkflowRecords}

/-- What a granted approval saves is as mutable as the metadata it takes over. -/
theorem metadataIsMutable_savedBy {cfg : ApprovalSettings} {resolved : ConversationApproval}
    (hsaved : SavedBy cfg workflows resolved w) :
    ∃ proposed, resolved.Overwrites cfg proposed w.id ∧
      metadataIsMutable w.metadata = metadataIsMutable (resolved.mergedMetadata workflows proposed) := by
  obtain ⟨henabled, proposed, hvalid, ⟨hcreate, rfl⟩ | ⟨hupdate, current, hcurrent, rfl⟩⟩ := hsaved
  · refine ⟨proposed, ⟨henabled, hvalid, .inl ⟨hcreate, rfl⟩⟩, metadataIsMutable_congr ?_⟩
    intro key hkey
    have hnot := policyKeys_disjoint hkey
    have hupdate : resolved.hasAction "workflow_update" = false := by
      have hstr : resolved.action.asStr? = some "workflow_create" := of_decide_eq_true hcreate
      simp [ConversationApproval.hasAction, hstr]
    simp only [createdWorkflow, ConversationApproval.mergedMetadata, hupdate,
      Bool.false_eq_true, if_false]
    rw [getJson_withApprovedRepoWrite hnot, getJson_provenanceMetadata hnot]
  · have hid : current.id = resolved.targetId.getD "" := key_of_get hcurrent
    refine ⟨proposed, ⟨henabled, hvalid, .inr ⟨hupdate, hid.symm⟩⟩, metadataIsMutable_congr ?_⟩
    intro key hkey
    have hnot := policyKeys_disjoint hkey
    simp only [updatedWorkflow, ConversationApproval.mergedMetadata, hupdate,
      if_true, hcurrent, Option.elim_some]
    rw [getJson_withApprovedRepoWrite hnot, getJson_provenanceMetadata hnot]

/-! ### The approval that is granted -/

section Granted

variable {approval : ConversationApproval} {actorUserId : String} {reason : Option String}
  {clean : Option (Dict Json)}

/-- Steering parameters are kept under a key of their own. -/
theorem getJson_clean {metadata : Dict Json} (hkey : key ≠ "operator_steering_parameters") :
    (match clean with
      | none => metadata
      | some clean => metadata.set "operator_steering_parameters" (.obj clean)).getJson key
      = metadata.getJson key := by
  rcases clean with - | clean
  · rfl
  · exact getJson_set_ne hkey

theorem getJson_granted_metadata (hkey : key ≠ "operator_steering_parameters") :
    (approval.merge (approvalPatch approval actorUserId reason clean)).metadata.getJson key
      = approval.metadata.getJson key := getJson_clean hkey

theorem getJson_granted_payload (hkey : key ≠ "operator_steering_parameters") :
    (approval.merge (approvalPatch approval actorUserId reason clean)).payload.getJson key
      = approval.payload.getJson key := by
  unfold ConversationApproval.payload ConversationApproval.merge approvalPatch
  rcases approval.proposedPayload with - | payload
  · rfl
  · exact getJson_clean hkey

theorem hasAction_granted (name : String) :
    (approval.merge (approvalPatch approval actorUserId reason clean)).hasAction name
      = approval.hasAction name := by
  unfold ConversationApproval.hasAction ConversationApproval.action
  rw [getJson_granted_metadata (by decide)]

theorem workflowPayload_granted :
    (approval.merge (approvalPatch approval actorUserId reason clean)).workflowPayload
      = approval.workflowPayload := by
  unfold ConversationApproval.workflowPayload
  rw [getJson_granted_payload (by decide)]

theorem targetId_granted :
    (approval.merge (approvalPatch approval actorUserId reason clean)).targetId
      = approval.targetId := rfl

theorem overwrites_granted {cfg : ApprovalSettings} {proposed : CatalogWorkflow} {x : String} :
    (approval.merge (approvalPatch approval actorUserId reason clean)).Overwrites cfg proposed x ↔
      approval.Overwrites cfg proposed x := by
  unfold ConversationApproval.Overwrites
  rw [workflowPayload_granted, hasAction_granted, hasAction_granted, targetId_granted]

theorem mergedMetadata_granted {proposed : CatalogWorkflow} :
    (approval.merge (approvalPatch approval actorUserId reason clean)).mergedMetadata workflows
      proposed = approval.mergedMetadata workflows proposed := by
  unfold ConversationApproval.mergedMetadata
  rw [hasAction_granted, targetId_granted]

theorem governs_granted {x : String} :
    (approval.merge (approvalPatch approval actorUserId reason clean)).governs x ↔
      approval.governs x := by
  unfold ConversationApproval.governs governanceRecord
  rw [getJson_granted_metadata (by decide), getJson_granted_metadata (by decide),
    getJson_granted_metadata (by decide), targetId_granted]

end Granted

/-! ### Proposals are within the policy -/

section Proposals

variable {ω : Type} {cfg : ProposalSettings}
  {conversations : String → Option ConversationIdentity} {s s' : ApprovalWorld ω}

theorem WithinPolicy.of_workflows (h : WithinPolicy cfg conversations s approval)
    (hworkflows : s'.workflows = s.workflows) :
    WithinPolicy cfg conversations s' approval := by
  unfold WithinPolicy
  rw [hworkflows]
  exact h

variable {message : OriginMessage}

/-- The main agent's proposals name no governance record. -/
theorem origin_getJson (hkey : key ∉ approvalOriginKeys) :
    message.approvalOriginMetadata.lookup key = none := by
  refine List.lookup_eq_none_iff.mpr fun entry hentry => ?_
  obtain ⟨key', hkey', hvalue⟩ := List.mem_filterMap.mp hentry
  obtain ⟨value, -, rfl⟩ := Option.map_eq_some_iff.mp hvalue
  simp only [bne_iff_ne, ne_eq]
  rintro rfl
  exact hkey hkey'

theorem mayPropose_trusted {conversation : Option ConversationIdentity}
    (h : mayPropose cfg conversation = true) : isTrustedConversation conversation = true := by
  unfold mayPropose at h
  simp only [Bool.and_eq_true] at h
  exact h.1.2

theorem repair_getJson {draft : ProposalDraft} {permission : Option (Dict Json)}
    (hkey : key ≠ "validation_repair" ∧ key ≠ "repo_write_permission") :
    (draft.repairMetadata permission).lookup key = none := by
  refine List.lookup_eq_none_iff.mpr fun entry hentry => ?_
  simp only [bne_iff_ne, ne_eq]
  rintro rfl
  rcases List.mem_append.mp hentry with hentry | hentry
  · obtain ⟨value, -, rfl⟩ := List.mem_map.mp hentry
    exact hkey.1 rfl
  · obtain ⟨value, -, rfl⟩ := List.mem_map.mp hentry
    exact hkey.2 rfl

theorem proposal_not_governs (head : Dict Json) (message : OriginMessage) (draft : ProposalDraft)
    (permission : Option (Dict Json))
    (hmetadata : approval.metadata = head ++ message.approvalOriginMetadata ++ draft.repairMetadata
      permission) (hhead : head.lookup "proposal_id" = none ∧ head.lookup "approval_id" = none)
    (x : String) :
    ¬ approval.governs x := by
  have hmissing : ∀ key, head.lookup key = none → key ∉ approvalOriginKeys →
      key ≠ "validation_repair" ∧ key ≠ "repo_write_permission" →
      approval.metadata.getJson key = .null := by
    intro key hkey horigin hrepair
    unfold getJson get?
    rw [hmetadata, List.lookup_append, List.lookup_append, hkey, origin_getJson horigin,
      repair_getJson hrepair]
    rfl
  have hrecord : governanceRecord approval = none := by
    unfold governanceRecord
    rw [hmissing "proposal_id" hhead.1 (by decide) (by decide),
      hmissing "approval_id" hhead.2 (by decide) (by decide)]
    rfl
  rintro ⟨-, hsome⟩
  rw [hrecord] at hsome
  cases hsome

theorem withRepoWriteRequest_id (w : CatalogWorkflow) :
    (withRepoWriteRequest cfg w).1.id = w.id := by
  unfold withRepoWriteRequest
  split
  · rfl
  · split <;> rfl

theorem withinPolicy_createProposal {profile : MainAgentProfile} {draft : ProposalDraft}
    {id : String}
    (h : createProposal cfg (conversations message.conversationId) s.workflows profile message draft
      id = some approval) : WithinPolicy cfg conversations s approval := by
  unfold createProposal at h
  split at h
  · cases h
  next hnot =>
  simp only [Bool.or_eq_true, Bool.not_eq_true', not_or, Bool.not_eq_false] at hnot
  obtain ⟨hmay, hnew⟩ := hnot
  have happroval := (Option.some.inj h).symm
  have haction : approval.action = .str "workflow_create" := by
    rw [happroval]
    rfl
  have hpayload : approval.workflowPayload
      = .obj (cfg.dumpWorkflow (withRepoWriteRequest cfg draft.workflow).1) := by
    have htruthy : (Json.obj (cfg.dumpWorkflow (withRepoWriteRequest cfg draft.workflow).1)).truthy
        = true := by
      simp [Json.truthy, cfg.dumpWorkflow_ne_nil]
    rw [happroval]
    exact if_pos htruthy
  intro _
  refine ⟨?_, fun x haims w hget => ?_⟩
  · rw [happroval]
    exact mayPropose_trusted hmay
  -- The id of a new workflow is not in use.
  rcases haims.2 with ⟨proposed, -, hvalid, ⟨-, hid⟩ | ⟨hupdate, -⟩⟩ | hgoverns
  · rw [hpayload] at hvalid
    have hsame := cfg.id_of_validate_dump _ _ hvalid
    rw [withRepoWriteRequest_id] at hsame
    rw [← hid, hsame] at hget
    rw [hget] at hnew
    exact absurd rfl hnew
  · have hstr : approval.action.asStr? = some "workflow_update" := of_decide_eq_true hupdate
    rw [haction] at hstr
    exact absurd (Option.some.inj hstr) (by decide)
  · refine absurd hgoverns (proposal_not_governs [("action", .str "workflow_create")]
      message draft (withRepoWriteRequest cfg draft.workflow).2 ?_ ⟨rfl, rfl⟩ x)
    rw [happroval]
    rfl

theorem withinPolicy_updateProposal {profile : MainAgentProfile} {workflowId : String}
    {draft : CatalogWorkflow → Option ProposalDraft} {id : String}
    (h : updateProposal cfg (conversations message.conversationId) s.workflows profile message
      workflowId draft id = some approval) : WithinPolicy cfg conversations s approval := by
  unfold updateProposal at h
  split at h
  · cases h
  next hnot =>
  simp only [Bool.or_eq_true, Bool.not_eq_true', not_or, Bool.not_eq_false] at hnot
  obtain ⟨current, hcurrent, h⟩ := Option.bind_eq_some_iff.mp h
  split at h
  · cases h
  next hopen =>
  simp only [Bool.or_eq_true, Bool.not_eq_true', not_or, Bool.not_eq_false] at hopen
  obtain ⟨drafted, -, h⟩ := Option.bind_eq_some_iff.mp h
  dsimp only at h
  split at h
  · cases h
  have happroval := (Option.some.inj h).symm
  have haction : approval.action = .str "workflow_update" := by
    rw [happroval]
    rfl
  intro _
  refine ⟨?_, fun x haims w hget => ?_⟩
  · rw [happroval]
    exact mayPropose_trusted hnot.1
  rcases haims.2 with ⟨proposed, -, hvalid, ⟨hcreate, -⟩ | ⟨-, hid⟩⟩ | hgoverns
  · have hstr : approval.action.asStr? = some "workflow_create" := of_decide_eq_true hcreate
    rw [haction] at hstr
    exact absurd (Option.some.inj hstr) (by decide)
  · have hkey : current.id = workflowId := key_of_get hcurrent
    have htarget : approval.targetId.getD "" = current.id := by
      rw [happroval]
      rfl
    rw [← hid, htarget, hkey, hcurrent] at hget
    cases hget
    exact hopen.2
  · refine absurd hgoverns (proposal_not_governs [("action", .str "workflow_update"),
      ("restart_active_executions", .bool drafted.restartActiveExecutions)] message drafted
      (withRepoWriteRequest cfg { drafted.workflow with id := current.id }).2 ?_ ⟨rfl, rfl⟩ x)
    rw [happroval]

end Proposals

/-! ### Granting an approval -/

section Granting

variable {ω : Type} {cfg : ProposalSettings} {env : ApprovalEnvironment ω}
  {conversations : String → Option ConversationIdentity} {s t t' : ApprovalWorld ω}
  {x actorUserId : String} {reason : Option String}

/-- What holds while the approval `x` is granted in a call that was made in the state `s`:
nothing becomes pending, and what is pending is within the policy. -/
structure Granting.Kept (cfg : ProposalSettings)
    (conversations : String → Option ConversationIdentity) (s t : ApprovalWorld ω) : Prop where
  pending : ∀ a : ConversationApproval, t.approvals.get a.id = some a → a.status = .pending →
    s.approvals.get a.id = some a
  policy : PendingWithinPolicy cfg conversations t

theorem Granting.Kept.sameStores (h : Granting.Kept cfg conversations s t)
    (hsame : SameStores t t') : Granting.Kept cfg conversations s t' := by
  refine ⟨?_, fun a hget hpending => ?_⟩
  · rw [hsame.approvals]
    exact h.pending
  · rw [hsame.approvals] at hget
    exact (h.policy a hget hpending).of_workflows hsame.workflows

/-- The decision, or the note of an execution, leaves nothing pending that was not. -/
theorem Granting.Kept.updateApproval (h : Granting.Kept cfg conversations s t)
    {patch : ApprovalPatch}
    (hpatch : patch.status = some .approved ∨ patch.status = none ∧ Decided x t) :
    Granting.Kept cfg conversations s (exec env (.updateApproval x patch) t).2 := by
  rcases hget : t.approvals.get x with - | a
  · have hsame : SameStores t (exec env (.updateApproval x patch) t).2 := by
      simp only [exec, hget]
      exact ⟨rfl, rfl⟩
    exact h.sameStores hsame
  have hworkflows : (exec env (.updateApproval x patch) t).2.workflows = t.workflows := by
    simp only [exec, hget]
  have happrovals : (exec env (.updateApproval x patch) t).2.approvals
      = t.approvals.put (a.merge patch) := by
    simp only [exec, hget]
  have hmerged : (a.merge patch).status ≠ .pending := by
    rcases hpatch with hpatch | ⟨hpatch, b, hb, hstatus⟩
    · simp [ConversationApproval.merge, hpatch]
    · obtain rfl : a = b := Option.some.inj (hget.symm.trans hb)
      simpa [ConversationApproval.merge, hpatch] using hstatus
  -- What is pending now was pending before.
  have hbefore : ∀ b : ConversationApproval,
      (t.approvals.put (a.merge patch)).get b.id = some b → b.status = .pending →
      t.approvals.get b.id = some b := by
    intro b hb hpending
    by_cases hid : b.id = (a.merge patch).id
    · rw [hid, get_put_self] at hb
      cases hb
      exact absurd hpending hmerged
    · rwa [get_put_ne hid] at hb
  refine ⟨fun b hb hpending => ?_, fun b hb hpending => ?_⟩
  · rw [happrovals] at hb
    exact h.pending b (hbefore b hb hpending) hpending
  · rw [happrovals] at hb
    exact (h.policy b (hbefore b hb hpending) hpending).of_workflows hworkflows

/-- A workflow is written. -/
theorem Granting.Kept.put (h : Granting.Kept cfg conversations s t)
    (happrovals : t'.approvals = t.approvals) (hworkflows : t'.workflows = t.workflows.put w)
    (hw : ∀ a : ConversationApproval, t.approvals.get a.id = some a → a.status = .pending →
      a.Aims cfg.toApprovalSettings w.id → workflowIsMutable cfg.toApprovalSettings w) :
    Granting.Kept cfg conversations s t' := by
  refine ⟨?_, fun a hget hpending => ?_⟩
  · rw [happrovals]
    exact h.pending
  · rw [happrovals] at hget
    intro hmutates
    obtain ⟨htrusted, hmutable⟩ := h.policy a hget hpending hmutates
    refine ⟨htrusted, fun y haims w' hget' => ?_⟩
    rw [hworkflows] at hget'
    by_cases hy : y = w.id
    · rw [hy, get_put_self] at hget'
      cases hget'
      exact hw a hget hpending (hy ▸ haims)
    · rw [get_put_ne hy] at hget'
      exact hmutable y haims w' hget'

/-- **One step** of a call that grants the approval `x`. -/
theorem kept_step {parameters : Option Json}
    (hcond : KeepsPolicy cfg conversations s (.approve x actorUserId reason parameters))
    {o : ApprovalOp} (h : Granting.Kept cfg conversations s t)
    (hwrites : Writes cfg.toApprovalSettings x actorUserId reason s o t) :
    Granting.Kept cfg conversations s (approvalHandler env o t).2 := by
  rcases handler_stores env o t with hsame | ⟨environment, heq⟩
  · exact h.sameStores hsame
  rw [heq]
  have h' : Granting.Kept cfg conversations s { t with environment } := h.sameStores ⟨rfl, rfl⟩
  cases o with
  | aside | getApproval | getWorkflow | perform => exact h'.sameStores ⟨rfl, rfl⟩
  | createApproval | saveDraft => cases hwrites
  | updateApproval id patch =>
    obtain ⟨rfl, hpatch⟩ := hwrites
    exact h'.updateApproval hpatch
  | updateMetadata id metadata =>
    obtain ⟨-, w, monitoring, hget, rfl⟩ := hwrites
    have hexec : (exec env (.updateMetadata id
        (w.metadata.set "main_agent_monitoring" monitoring)) { t with environment }).2.workflows
        = t.workflows.put { w with
            metadata := w.metadata.set "main_agent_monitoring" monitoring } := by
      simp only [exec, hget]
    have happrovals : (exec env (.updateMetadata id
        (w.metadata.set "main_agent_monitoring" monitoring)) { t with environment }).2.approvals
        = t.approvals := by
      simp only [exec, hget]
    refine h.put happrovals hexec fun a ha hpending haims => ?_
    -- The policy does not read what a governance record changes.
    have hid : w.id = id := key_of_get hget
    have hmutable := (h.policy a ha hpending haims.1).2 w.id haims w (hid ▸ hget)
    have hsame : metadataIsMutable (w.metadata.set "main_agent_monitoring" monitoring)
        = metadataIsMutable w.metadata := by
      refine metadataIsMutable_congr fun key hkey => getJson_set_ne ?_
      rintro rfl
      exact absurd hkey (by decide)
    unfold workflowIsMutable at hmutable ⊢
    rw [hsame]
    exact hmutable
  | saveWorkflow w =>
    obtain ⟨hworkflows, hdecided, a, clean, hget, hpending, hsaved⟩ := hwrites
    refine h.put rfl rfl fun b hb hbpending haims => ?_
    have henabled := hsaved.1
    obtain ⟨proposed, hover, hmutable⟩ := metadataIsMutable_savedBy hsaved
    rw [overwrites_granted] at hover
    rw [mergedMetadata_granted] at hmutable
    have hne : b.id ≠ x := by
      rintro rfl
      obtain ⟨b', hb', hstatus⟩ := hdecided
      obtain rfl : b = b' := Option.some.inj (hb.symm.trans hb')
      exact hstatus hbpending
    rcases hcond a hget hpending proposed w.id hover with hkept | hnone
    · unfold workflowIsMutable
      rw [hmutable, hkept, henabled]
      rfl
    · exact absurd haims (hnone b (h.pending b hb hbpending) hbpending hne)

/-- Granting an approval keeps what is pending within the policy. -/
theorem pendingWithinPolicy_approve {parameters : Option Json}
    (hcond : KeepsPolicy cfg conversations s (.approve x actorUserId reason parameters))
    (hs : PendingWithinPolicy cfg conversations s) :
    PendingWithinPolicy cfg conversations ((approveRequest cfg.toApprovalSettings x actorUserId
      reason parameters).run (approvalHandler env) s).2 := by
  have hstart : Granting.Kept cfg conversations s s := ⟨fun _ hget _ => hget, hs⟩
  have hkept := run_invariant (I := Granting.Kept cfg conversations s)
    (P := Writes cfg.toApprovalSettings x actorUserId reason s)
    (approvalHandler env) (fun _ _ h hwrites => kept_step hcond h hwrites) hstart
    (everyOp_approveRequest env cfg.toApprovalSettings x actorUserId reason parameters s)
  exact hkept.policy

/-- What a granted approval writes is within the policy, if the approval is. -/
theorem writes_withinPolicy {o : ApprovalOp} {a : ConversationApproval}
    (hs : PendingWithinPolicy cfg conversations s) (hget : s.approvals.get x = some a)
    (hwrites : Writes cfg.toApprovalSettings x actorUserId reason s o t) {y : String}
    (hy : o.writesTo = some y) (hmutates : a.Mutates) :
    isTrustedConversation (conversations a.conversationId) ∧
      ∀ w, s.workflows.get y = some w → workflowIsMutable cfg.toApprovalSettings w := by
  have hid : a.id = x := key_of_get hget
  have hpolicy : a.status = .pending → a.Aims cfg.toApprovalSettings y →
      isTrustedConversation (conversations a.conversationId) ∧
        ∀ w, s.workflows.get y = some w → workflowIsMutable cfg.toApprovalSettings w := by
    intro hpending haims
    obtain ⟨htrusted, hmutable⟩ := hs a (hid ▸ hget) hpending hmutates
    exact ⟨htrusted, hmutable y haims⟩
  cases o with
  | saveWorkflow w =>
    cases hy
    obtain ⟨-, -, a', clean, hget', hpending, hsaved⟩ := hwrites
    obtain rfl : a = a' := Option.some.inj (hget.symm.trans hget')
    obtain ⟨proposed, hover, -⟩ := metadataIsMutable_savedBy hsaved
    exact hpolicy hpending ⟨hmutates, .inl ⟨proposed, overwrites_granted.mp hover⟩⟩
  | updateMetadata id metadata =>
    cases hy
    obtain ⟨⟨a', clean, hget', hpending, hgoverns⟩, -⟩ := hwrites
    obtain rfl : a = a' := Option.some.inj (hget.symm.trans hget')
    exact hpolicy hpending ⟨hmutates, .inr (governs_granted.mp hgoverns)⟩
  | _ => cases hy

end Granting

/-! ### Every run -/

section Runs

variable {ω : Type} (cfg : ProposalSettings) (env : ApprovalEnvironment ω)
  (conversations : String → Option ConversationIdentity)

/-- Messages and approvals, one after the other. -/
def conversationService (call : ConversationCall) (s : ApprovalWorld ω) :
    Unit × ApprovalWorld ω := ((), call.next cfg env conversations s)

variable {cfg env conversations} {s : ApprovalWorld ω}

theorem pendingWithinPolicy_requested (hs : PendingWithinPolicy cfg conversations s)
    (happroval : WithinPolicy cfg conversations s approval) :
    PendingWithinPolicy cfg conversations (s.requested approval) := by
  unfold ApprovalWorld.requested
  split
  · exact hs
  · intro a hget hpending
    by_cases hid : a.id = approval.id
    · have hput : (s.approvals.put approval).get approval.id = some approval :=
        get_put_self s.approvals approval
      have hsame : a = approval := by
        refine Option.some.inj (Eq.trans ?_ hput)
        rw [← hid]
        exact hget.symm
      rw [hsame]
      exact happroval.of_workflows rfl
    · have hold : s.approvals.get a.id = some a := by
        rw [← get_put_ne hid]
        exact hget
      exact (hs a hold hpending).of_workflows rfl

/-- A message adds the approval it asks for, if it asks for one. -/
theorem next_of_message {call : ConversationCall} (h : ∀ id user reason parameters,
    call ≠ .approve id user reason parameters) :
    call.next cfg env conversations s
      = (call.approval? cfg conversations s.workflows).elim s s.requested := by
  unfold ConversationCall.next
  split
  · exact absurd rfl (h _ _ _ _)
  · rcases call.approval? cfg conversations s.workflows with - | approval <;> rfl

/-- **Each call** keeps what is pending within the policy. -/
theorem pendingWithinPolicy_next {call : ConversationCall}
    (hcond : KeepsPolicy cfg conversations s call)
    (hs : PendingWithinPolicy cfg conversations s) :
    PendingWithinPolicy cfg conversations (call.next cfg env conversations s) := by
  have hmessage : ∀ approval?, (∀ approval, approval? = some approval →
      WithinPolicy cfg conversations s approval) →
      PendingWithinPolicy cfg conversations (approval?.elim s s.requested) := by
    intro approval? happroval
    rcases approval? with - | approval
    · exact hs
    · exact pendingWithinPolicy_requested hs (happroval approval rfl)
  cases call with
  | requestApproval profile message id =>
    rw [next_of_message (by simp)]
    exact hmessage _ hcond
  | proposeCreate profile message draft id =>
    rw [next_of_message (by simp)]
    exact hmessage _ fun _ h => withinPolicy_createProposal h
  | proposeUpdate profile message workflowId draft id =>
    rw [next_of_message (by simp)]
    exact hmessage _ fun _ h => withinPolicy_updateProposal h
  | approve id actorUserId reason parameters => exact pendingWithinPolicy_approve hcond hs

end Runs

/-- **Policy bounds what approvals write.**  Let messages and approvals follow each other in
any order.  If every approval in a message is within the policy when it is sent, and no
granted definition closes a workflow that another pending approval may write to, then
whatever a call writes for an approval that creates or updates a workflow, it writes to one
that was mutable before the call or was not there, for a conversation that is trusted. -/
theorem workflowMutations_bounded {ω : Type} (cfg : ProposalSettings)
    (env : ApprovalEnvironment ω) (conversations : String → Option ConversationIdentity) (w : ω)
    (workflows : WorkflowRecords) {h : List (ConversationCall × Unit)} {s : ApprovalWorld ω}
    (hrun : Serves (conversationService cfg env conversations) (KeepsPolicy cfg conversations)
      { environment := w, approvals := Catalog.empty, workflows } h s)
    (id actorUserId : String) (reason : Option String) (parameters : Option Json) :
    (approveRequest cfg.toApprovalSettings id actorUserId reason parameters).EveryOp
      (approvalHandler env) (fun o _ => ∀ x, o.writesTo = some x →
        ∀ a, s.approvals.get id = some a → a.Mutates →
          isTrustedConversation (conversations a.conversationId) ∧
            ∀ w, s.workflows.get x = some w → workflowIsMutable cfg.toApprovalSettings w) s := by
  have hs : PendingWithinPolicy cfg conversations s := by
    refine hrun.invariant (I := fun _ s => PendingWithinPolicy cfg conversations s) ?_ ?_
    · intro a hget
      cases hget
    · exact fun _ s call hs hcond => pendingWithinPolicy_next hcond hs
  refine everyOp_mono _ ?_ (everyOp_approveRequest env cfg.toApprovalSettings id actorUserId
    reason parameters s)
  intro o t hwrites x hx a hget hmutates
  exact writes_withinPolicy hs hget hwrites hx hmutates

/-! ### Two runs -/

namespace PolicyExample

/-- A definition with an id, a name and metadata, and nothing else. -/
def definition (id : String) (name : Json) (metadata : Dict Json) : CatalogWorkflow where
  id := id
  field f := if f = .name then name else .null
  metadata := metadata

def validate (value : Json) : Except ConversationFault CatalogWorkflow :=
  match value.string? "id" with
  | none => .error ⟨"ValidationError", "id: Field required"⟩
  | some id => .ok (definition id ((value.get? "name").getD .null)
      (((value.get? "metadata").bind Json.asDict?).getD []))

def cfg : ProposalSettings where
  workflowMutationEnabled := true
  toolMutationEnabled := true
  validateWorkflow := validate
  validateTool := .ok
  validateAgent := .ok
  validateSchedule _ := none
  requiresRepoWrite _ := false
  defaultMounts := .arr []
  now := "2024-01-01T00:00:00"
  dumpWorkflow w := [("id", .str w.id), ("name", w.field .name), ("metadata", .obj w.metadata)]
  approvalDiffRows current proposed :=
    if current.eq proposed then [] else [.obj [("current", current), ("proposed", proposed)]]
  dumpWorkflow_ne_nil _ := List.cons_ne_nil _ _
  id_of_validate_dump w proposed h := by
    have hid : (Json.obj [("id", .str w.id), ("name", w.field .name),
        ("metadata", .obj w.metadata)]).string? "id" = some w.id := rfl
    unfold validate at h
    rw [hid] at h
    cases h
    rfl

def conversations (_ : String) : Option ConversationIdentity := some ⟨some "u", "web"⟩

def profile : MainAgentProfile := ⟨"profile", "agent"⟩

def openMetadata : Dict Json :=
  [("visible_to_main_agent", .bool true), ("mutable_by_main_agent", .bool true)]

/-- A message whose content spells out an approval of an update of the workflow. -/
def message : OriginMessage where
  id := "m"
  conversationId := "c"
  content := .obj [("approval_request", .obj [
    ("approval_type", .str "workflow_update"),
    ("target_type", .str "workflow"),
    ("target_id", .str "w"),
    ("proposed_payload", .obj [("workflow", .obj [("id", .str "w"), ("name", .str "changed")])]),
    ("metadata", .obj [("action", .str "workflow_update")])])]
  origin _ := none

def start (metadata : Dict Json) : ApprovalWorld Unit where
  environment := ()
  approvals := Catalog.empty
  workflows := Catalog.empty.put (definition "w" (.str "kept") metadata)

/-- The main agent drafts an update with another name. -/
def draft (current : CatalogWorkflow) : Option ProposalDraft :=
  some ⟨definition current.id (.str "changed") current.metadata, "Update", "Update", none, false⟩

end PolicyExample

open PolicyExample in
/-- A proposal of an update of an open workflow is granted within the policy. -/
theorem workflowMutations_bounded_proposal :
    ∃ s, Serves (conversationService cfg env conversations)
        (KeepsPolicy cfg conversations) (start openMetadata)
        [(.proposeUpdate profile message "w" draft "a", ())] s ∧
      (s.approvals.get "a").isSome ∧
      (approveRequest cfg.toApprovalSettings "a" "u" none none).EveryOp
        (approvalHandler env) (fun o _ => ∀ x, o.writesTo = some x →
          ∀ a, s.approvals.get "a" = some a → a.Mutates →
            isTrustedConversation (conversations a.conversationId) ∧
              ∀ w, s.workflows.get x = some w → workflowIsMutable cfg.toApprovalSettings w) s := by
  have hrun : Serves (conversationService cfg env conversations)
      (KeepsPolicy cfg conversations) (start openMetadata)
      ([] ++ [(ConversationCall.proposeUpdate profile message "w" draft "a", ())])
      (conversationService cfg env conversations
        (.proposeUpdate profile message "w" draft "a") (start openMetadata)).2 :=
    .call .start trivial
  exact ⟨_, hrun, rfl, workflowMutations_bounded cfg env conversations () _ hrun
    "a" "u" none none⟩

open PolicyExample in
/-- An approval that a message spells out overwrites a workflow that is hidden from the main
agent. -/
theorem hiddenWorkflow_overwritten :
    let s := (ConversationCall.requestApproval profile message "a").next cfg env
      conversations (start [("hidden_from_main_agent", .bool true)])
    let s' := (ConversationCall.approve "a" "u" none none).next cfg env
      conversations s
    (s.workflows.get "w").map (fun w => (w.field .name).asStr?) = some (some "kept") ∧
      (s.workflows.get "w").map (workflowIsMutable cfg.toApprovalSettings ·) = some false ∧
      (s'.workflows.get "w").map (fun w => (w.field .name).asStr?) = some (some "changed") := by
  exact ⟨by decide +kernel, by decide +kernel, by decide +kernel⟩

end OpenAgency
