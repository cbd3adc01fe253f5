/-
ApprovalWrites.lean

What `approve_request` writes.

A call that is run alone writes to the repositories at four places: it stores its decision,
it saves the definition that the approval proposes, it patches the governance record that
the approval names, and it notes the execution that it has launched.  `everyOp_approveRequest`
says of each of them what is written, and what the repositories hold at that moment.
-/
import OpenAgency.ApprovalFailures
import OpenAgency.Domain.Goal

namespace OpenAgency

open Relational Interaction Program ApprovalOp

/-- A step that leaves approvals and workflows as they are. -/
def ApprovalOp.isOutside : ApprovalOp → Prop
  | aside _ | getApproval _ | getWorkflow _ _ | perform _ _ => True
  | _ => False

/-- The definition that a granted approval saves. -/
def SavedBy (cfg : ApprovalSettings) (workflows : WorkflowRecords)
    (resolved : ConversationApproval) (w : CatalogWorkflow) : Prop :=
  cfg.workflowMutationEnabled ∧
    ∃ proposed, cfg.validateWorkflow resolved.workflowPayload = .ok proposed ∧
      (resolved.hasAction "workflow_create" ∧ w = cfg.createdWorkflow resolved proposed ∨
        resolved.hasAction "workflow_update" ∧
          ∃ current, workflows.get (resolved.targetId.getD "") = some current ∧
            w = cfg.updatedWorkflow resolved current proposed)

/-- The workflow whose governance record a decided approval patches. -/
def ConversationApproval.governs (approval : ConversationApproval) (id : String) : Prop :=
  nonempty ((normalizedString (approval.metadata.getJson "workflow_id")).or approval.targetId)
    = some id ∧ (governanceRecord approval).isSome

section Writes

variable {ω : Type} {env : ApprovalEnvironment ω} {s s' : ApprovalWorld ω} {α β : Type}

/-- Approvals and workflows are as they were. -/
structure SameStores (s s' : ApprovalWorld ω) : Prop where
  approvals : s'.approvals = s.approvals
  workflows : s'.workflows = s.workflows

theorem SameStores.trans {s'' : ApprovalWorld ω} (h : SameStores s s')
    (h' : SameStores s' s'') : SameStores s s'' :=
  ⟨h'.approvals.trans h.approvals, h'.workflows.trans h.workflows⟩

theorem SameStores.decided {x : String} (h : SameStores s s') (hs : Decided x s) :
    Decided x s' := by
  unfold Decided
  rw [h.approvals]
  exact hs

variable {o : ApprovalOp}

theorem sameStores_handler (ho : o.isOutside) : SameStores s (approvalHandler env o s).2 := by
  have hexec : ∀ environment, SameStores s (o.exec env { s with environment }).2 := by
    intro environment
    cases o with
    | aside | getApproval | getWorkflow | perform => exact ⟨rfl, rfl⟩
    | updateApproval | createApproval | saveWorkflow | saveDraft | updateMetadata => cases ho
  unfold approvalHandler
  rcases env.fault o s.environment with ⟨- | e | e, environment⟩
  · exact hexec environment
  · exact ⟨rfl, rfl⟩
  · exact hexec environment

variable (env) in
/-- A step that fails before its effect leaves everything as it was. -/
theorem handler_stores (o : ApprovalOp) (s : ApprovalWorld ω) :
    SameStores s (approvalHandler env o s).2 ∨ ∃ environment,
      (approvalHandler env o s).2 = (o.exec env { s with environment }).2 := by
  unfold approvalHandler
  rcases env.fault o s.environment with ⟨- | e | e, environment⟩
  · exact .inr ⟨environment, rfl⟩
  · exact .inl ⟨rfl, rfl⟩
  · exact .inr ⟨environment, rfl⟩

/-! ### Every operation of a program -/

variable {P : ApprovalOp → ApprovalWorld ω → Prop}

theorem everyOp_askFor_bind {f : o.Val → ApprovalRun β} (ho : P o s)
    (hf : ∀ environment, (f (o.exec env { s with environment }).1).EveryOp (approvalHandler env) P
      (o.exec env { s with environment }).2) :
    (askFor o >>= f).EveryOp (approvalHandler env) P s := by
  refine ⟨ho, ?_⟩
  unfold approvalHandler
  rcases env.fault o s.environment with ⟨- | e | e, environment⟩
  · exact hf environment
  · trivial
  · trivial

theorem everyOp_askFor (ho : P o s) : (askFor o).EveryOp (approvalHandler env) P s := by
  rw [← bind_done (askFor o)]
  exact everyOp_askFor_bind ho fun _ => trivial

theorem everyOp_ofExcept_bind {r : Except ConversationFault α} {f : α → ApprovalRun β}
    (hf : ∀ a, r = .ok a → (f a).EveryOp (approvalHandler env) P s) :
    (ofExcept r >>= f).EveryOp (approvalHandler env) P s := by
  rcases r with e | a
  · trivial
  · exact hf a rfl

variable (env) in
theorem everyOp_outside (hP : ∀ o t, isOutside o → P o t) {p : ApprovalRun α}
    (hp : p.Within (fun _ _ => True) isOutside) :
    p.EveryOp (approvalHandler env) P s ∧ SameStores s (p.run (approvalHandler env) s).2 := by
  induction p generalizing s with
  | done a => exact ⟨trivial, rfl, rfl⟩
  | raise e => exact ⟨trivial, rfl, rfl⟩
  | call o k ih =>
    obtain ⟨hrest, hsame⟩ := ih (approvalHandler env o s).1 (hp.2 _ trivial)
      (s := (approvalHandler env o s).2)
    exact ⟨⟨hP o s hp.1, hrest⟩, (sameStores_handler hp.1).trans hsame⟩

theorem everyOp_outside_bind (hP : ∀ o t, isOutside o → P o t) {p : ApprovalRun α}
    (hp : p.Within (fun _ _ => True) isOutside) {f : α → ApprovalRun β}
    (hf : ∀ a s', SameStores s s' → (f a).EveryOp (approvalHandler env) P s') :
    (p >>= f).EveryOp (approvalHandler env) P s := by
  obtain ⟨hop, hsame⟩ := everyOp_outside env (s := s) hP hp
  refine everyOp_bind _ hop fun a s' hrun => hf a s' ?_
  rw [hrun] at hsame
  exact hsame

/-! ### The parts of a call -/

theorem outside_saveProposedTool (cfg : ApprovalSettings) (approval : ConversationApproval) :
    (saveProposedTool cfg approval).Within (fun _ _ => True) isOutside := by
  unfold saveProposedTool
  split
  · refine Within.bind (within_ofExcept _) fun tool => ?_
    exact Within.bind (within_askFor trivial) fun _ => trivial
  · trivial

theorem outside_applyToolMutation (cfg : ApprovalSettings) (approval : ConversationApproval) :
    (applyToolMutation cfg approval).Within (fun _ _ => True) isOutside := by
  have hmessage : (appendMessage "tool_mutation_disabled").Within (fun _ _ => True)
      isOutside := within_appendMessage (fun _ => trivial) _
  unfold applyToolMutation
  split
  · trivial
  refine Within.bind (within_ofExcept _) fun _ => ?_
  split
  · split
    · exact outside_saveProposedTool cfg approval
    · exact hmessage
  split
  · split
    · refine Within.bind (within_askFor trivial) fun current => ?_
      rcases (current : Option String) with - | current
      · trivial
      · exact outside_saveProposedTool cfg approval
    · exact hmessage
  · trivial

theorem outside_applyAgentMutation (cfg : ApprovalSettings) (approval : ConversationApproval) :
    (applyAgentMutation cfg approval).Within (fun _ _ => True) isOutside := by
  unfold applyAgentMutation
  split
  · trivial
  refine Within.bind (within_askFor trivial) fun current => ?_
  cases (current : Bool) with
  | false => trivial
  | true =>
    refine Within.bind (within_ofExcept _) fun agent => ?_
    exact Within.bind (within_askFor trivial) fun _ => within_askFor trivial

theorem outside_applySteering (approval : ConversationApproval) :
    (applySteering approval).Within (fun _ _ => True) isOutside := by
  unfold applySteering
  split
  · trivial
  split
  · trivial
  refine Within.bind (within_askFor trivial) fun execution => ?_
  rcases (execution : Option (Option String)) with - | execution
  · trivial
  refine Within.bind (within_askFor trivial) fun _ => ?_
  exact Within.bind (within_askFor trivial) fun _ => within_askFor trivial

theorem outside_launchExecution (approval : ConversationApproval) (w : CatalogWorkflow) :
    (launchExecution approval w).Within (fun _ _ => True) isOutside := by
  unfold launchExecution
  refine Within.bind (within_askFor trivial) fun channel => ?_
  rcases (channel : Option String) with - | channel
  · trivial
  refine Within.bind (within_askFor trivial) fun execution => ?_
  refine Within.bind (within_askFor trivial) fun _ => ?_
  refine Within.bind (within_askFor trivial) fun _ => ?_
  refine Within.bind (within_askFor trivial) fun _ => ?_
  refine Within.bind (within_appendMessage (fun _ => trivial) _) fun _ => ?_
  exact Within.bind (within_askFor trivial) fun _ => trivial

theorem outside_executeToolFromApproval (approval : ConversationApproval) :
    (executeToolFromApproval approval).Within (fun _ _ => True) isOutside := by
  have hmessage : ∀ kind, (appendMessage kind).Within (fun _ _ => True) isOutside :=
    within_appendMessage fun _ => trivial
  unfold executeToolFromApproval
  split
  · trivial
  split
  · split
    · trivial
    refine Within.bind (within_askFor trivial) fun found => ?_
    rcases (found : Option String) with - | found
    · exact hmessage _
    refine Within.bind (hmessage _) fun _ => ?_
    refine Within.bind (Within.rescue ?_ fun _ => trivial) fun _ => ?_
    · exact Within.bind (within_askFor trivial) fun _ => trivial
    refine Within.bind (hmessage _) fun _ => ?_
    exact Within.bind (within_askFor trivial) fun _ => within_askFor trivial
  · split
    · exact hmessage _
    · trivial

/-! ### What a call may write -/

variable (cfg : ApprovalSettings) (x actorUserId : String) (reason : Option String)

/-- What a call on the approval `x` that was made in the state `s` may write in the state
`t`. -/
def Writes (s : ApprovalWorld ω) : ApprovalOp → ApprovalWorld ω → Prop
  | .updateApproval id patch, t =>
    id = x ∧ (patch.status = some .approved ∨ patch.status = none ∧ Decided x t)
  | .saveWorkflow w, t => t.workflows = s.workflows ∧ Decided x t ∧
      ∃ a clean, s.approvals.get x = some a ∧ a.status = .pending ∧
        SavedBy cfg s.workflows (a.merge (approvalPatch a actorUserId reason clean)) w
  | .updateMetadata id metadata, t =>
    (∃ a clean, s.approvals.get x = some a ∧ a.status = .pending ∧
      (a.merge (approvalPatch a actorUserId reason clean)).governs id) ∧
    ∃ w monitoring, t.workflows.get id = some w ∧
      metadata = w.metadata.set "main_agent_monitoring" monitoring
  | .createApproval _, _ | .saveDraft _, _ => False
  | _, _ => True

variable {cfg x actorUserId reason}

theorem writes_outside {s : ApprovalWorld ω} (o : ApprovalOp) (t : ApprovalWorld ω)
    (ho : o.isOutside) : Writes cfg x actorUserId reason s o t := by
  cases o with
  | aside | getApproval | getWorkflow | perform => trivial
  | updateApproval | createApproval | saveWorkflow | saveDraft | updateMetadata => cases ho

/-- The program writes only what a call that was made in the state `s` may write. -/
abbrev WritesOnly (env : ApprovalEnvironment ω) (cfg : ApprovalSettings) (x actorUserId : String)
    (reason : Option String) (s : ApprovalWorld ω) (p : ApprovalRun α) (t : ApprovalWorld ω) :
    Prop := p.EveryOp (approvalHandler env) (Writes cfg x actorUserId reason s) t

/-- The approval `x` has been granted as `resolved`. -/
structure GrantedAs (x actorUserId : String) (reason : Option String) (s : ApprovalWorld ω)
    (resolved : ConversationApproval) : Prop where
  id : resolved.id = x
  stored : ∃ a clean, s.approvals.get x = some a ∧ a.status = .pending ∧
    resolved = a.merge (approvalPatch a actorUserId reason clean)

variable {resolved : ConversationApproval} {t : ApprovalWorld ω}

theorem governanceMetadata_set {approval : ConversationApproval} {history key id : String}
    {metadata metadata' : Dict Json}
    (h : governanceMetadata cfg approval history key id metadata = .ok metadata') :
    ∃ monitoring, metadata' = metadata.set "main_agent_monitoring" monitoring := by
  unfold governanceMetadata at h
  obtain ⟨monitoring, -, h⟩ := bind_eq_ok.mp h
  dsimp only at h
  split at h
  · cases h
  · cases h
    exact ⟨_, rfl⟩

variable {f : Unit → ApprovalRun β}

/-- The governance record is patched, and the approvals stay as they are. -/
theorem writesOnly_syncGovernance_bind (hresolved : GrantedAs x actorUserId reason s resolved)
    (hf : ∀ t', t'.approvals = t.approvals → WritesOnly env cfg x actorUserId reason s (f ()) t') :
    WritesOnly env cfg x actorUserId reason s (syncGovernance cfg resolved >>= f) t := by
  unfold syncGovernance
  split
  · exact hf t rfl
  next workflowId hid =>
  rw [Program.bind_assoc]
  refine everyOp_askFor_bind trivial fun environment => ?_
  dsimp only [exec]
  rcases t.workflows.get workflowId with - | w
  · exact hf _ rfl
  dsimp only
  rcases hrecord : governanceRecord resolved with - | ⟨history, key, id⟩
  · exact hf _ rfl
  dsimp only
  rw [Program.bind_assoc]
  refine everyOp_askFor_bind trivial fun environment' => ?_
  dsimp only [exec]
  rcases hget : t.workflows.get workflowId with - | w
  · trivial
  dsimp only
  rw [Program.bind_assoc]
  refine everyOp_ofExcept_bind fun metadata hmetadata => ?_
  rw [Program.bind_assoc]
  have hwid : w.id = workflowId := Catalog.key_of_get hget
  obtain ⟨monitoring, hset⟩ := governanceMetadata_set hmetadata
  obtain ⟨a, clean, hstored, hpending, hmerged⟩ := hresolved.stored
  refine everyOp_askFor_bind ⟨⟨a, clean, hstored, hpending, ?_⟩, w, monitoring, ?_, hset⟩
    fun environment'' => ?_
  · rw [← hmerged, hwid]
    refine ⟨hid, ?_⟩
    rw [hrecord]
    rfl
  · rw [hwid]
    exact hget
  · have hget' : t.workflows.get w.id = some w := by
      rw [hwid]
      exact hget
    simp only [exec, hget', if_true]
    exact hf _ rfl

theorem writesOnly_launchExecutionFromApproval_bind
    (hresolved : GrantedAs x actorUserId reason s resolved) (ht : Decided x t)
    (hf : ∀ t', WritesOnly env cfg x actorUserId reason s (f ()) t') :
    WritesOnly env cfg x actorUserId reason s (launchExecutionFromApproval resolved >>= f) t := by
  unfold launchExecutionFromApproval
  split
  · exact hf t
  split
  · rw [Program.bind_assoc]
    exact everyOp_askFor_bind trivial fun _ => hf _
  split
  · next workflowId _ =>
    split
    · exact hf t
    rw [Program.bind_assoc]
    refine everyOp_askFor_bind trivial fun environment => ?_
    dsimp only [exec]
    rcases t.workflows.get workflowId with - | w
    · trivial
    dsimp only
    rw [Program.bind_assoc]
    refine everyOp_askFor_bind trivial fun environment' => ?_
    rw [Program.bind_assoc]
    refine everyOp_outside_bind writes_outside (outside_launchExecution _ _) fun execution t' h => ?_
    rw [Program.bind_assoc]
    have hdecided : Decided x t' := h.decided ht
    refine everyOp_askFor_bind ⟨hresolved.id, .inr ⟨rfl, hdecided⟩⟩ fun _ => hf _
  · split
    · trivial
    · exact hf t

/-- The definition that is proposed is saved, if at all, over what the repository held when
the call was made. -/
theorem writesOnly_applyWorkflowMutation_bind
    (hresolved : GrantedAs x actorUserId reason s resolved) (ht : Decided x t)
    (hworkflows : t.workflows = s.workflows)
    (hf : ∀ t', Decided x t' → WritesOnly env cfg x actorUserId reason s (f ()) t') :
    WritesOnly env cfg x actorUserId reason s (applyWorkflowMutation cfg resolved >>= f) t := by
  obtain ⟨a, clean, hstored, hpending, hmerged⟩ := hresolved.stored
  have hmessage : ∀ {t' : ApprovalWorld ω}, Decided x t' → WritesOnly env cfg x actorUserId reason s
      (appendMessage "workflow_mutation_disabled" >>= f) t' := fun ht' =>
    everyOp_outside_bind writes_outside (within_appendMessage (fun _ => trivial) _)
      fun _ _ h => hf _ (h.decided ht')
  have hsaved : ∀ w, SavedBy cfg s.workflows resolved w → ∀ t', SameStores t t' →
      Writes cfg x actorUserId reason s (.saveWorkflow w) t' := fun w hw t' h =>
    ⟨h.workflows.trans hworkflows, h.decided ht, a, clean, hstored, hpending, hmerged ▸ hw⟩
  unfold applyWorkflowMutation
  split
  · exact hf t ht
  rw [Program.bind_assoc]
  refine everyOp_ofExcept_bind fun _ _ => ?_
  split
  · next hcreate =>
    split
    · next henabled =>
      unfold applyWorkflowCreate
      rw [Program.bind_assoc]
      refine everyOp_ofExcept_bind fun proposed hproposed => ?_
      rw [Program.bind_assoc]
      refine everyOp_askFor_bind (hsaved _ ⟨henabled, proposed, hproposed, .inl ⟨hcreate, rfl⟩⟩ t
        ⟨rfl, rfl⟩) fun environment => ?_
      exact everyOp_outside_bind writes_outside
        (within_createRequestedSchedule (fun _ => trivial) _ _) fun _ _ h => hf _ (h.decided ht)
    · exact hmessage ht
  split
  · next hupdate =>
    split
    · next henabled =>
      unfold applyWorkflowUpdate
      rw [Program.bind_assoc]
      refine everyOp_askFor_bind trivial fun environment => ?_
      dsimp only [exec]
      rcases hget : t.workflows.get (resolved.targetId.getD "") with - | current
      · trivial
      dsimp only
      rw [Program.bind_assoc]
      refine everyOp_ofExcept_bind fun proposed hproposed => ?_
      rw [Program.bind_assoc]
      have hcurrent : s.workflows.get (resolved.targetId.getD "") = some current := by
        rw [← hworkflows]
        exact hget
      refine everyOp_askFor_bind (hsaved _ ⟨henabled, proposed, hproposed, .inr ⟨hupdate, current,
        hcurrent, rfl⟩⟩ _ ⟨rfl, rfl⟩) fun environment' => ?_
      exact everyOp_outside_bind writes_outside (within_askFor (o := .aside _) trivial)
        fun _ _ h => hf _ (h.decided ht)
    · exact hmessage ht
  · exact hf t ht

theorem writesOnly_applyApproval (hresolved : GrantedAs x actorUserId reason s resolved)
    (ht : Decided x t) (hworkflows : t.workflows = s.workflows) :
    WritesOnly env cfg x actorUserId reason s (applyApproval cfg resolved) t := by
  unfold applyApproval
  refine everyOp_outside_bind writes_outside (within_appendMessage (fun _ => trivial) _)
    fun _ t₁ h₁ => ?_
  refine writesOnly_applyWorkflowMutation_bind hresolved (h₁.decided ht)
    (h₁.workflows.trans hworkflows) fun t₂ ht₂ => ?_
  refine everyOp_outside_bind writes_outside (outside_applyToolMutation _ _) fun _ t₃ h₃ => ?_
  refine everyOp_outside_bind writes_outside (outside_applyAgentMutation _ _) fun _ t₄ h₄ => ?_
  refine everyOp_outside_bind writes_outside (outside_applySteering _) fun _ t₅ h₅ => ?_
  refine writesOnly_syncGovernance_bind hresolved fun t₆ h₆ => ?_
  have ht₆ : Decided x t₆ := by
    unfold Decided
    rw [h₆]
    exact h₅.decided (h₄.decided (h₃.decided ht₂))
  refine writesOnly_launchExecutionFromApproval_bind hresolved ht₆ fun t₇ => ?_
  refine everyOp_outside_bind writes_outside (outside_executeToolFromApproval _) fun _ t₈ _ => ?_
  exact everyOp_askFor trivial

/-- **What `approve_request` writes.** -/
theorem everyOp_approveRequest (env : ApprovalEnvironment ω) (cfg : ApprovalSettings)
    (x actorUserId : String) (reason : Option String) (parameters : Option Json)
    (s : ApprovalWorld ω) :
    WritesOnly env cfg x actorUserId reason s
      (approveRequest cfg x actorUserId reason parameters) s := by
  unfold approveRequest pendingApproval
  rw [Program.bind_assoc]
  refine everyOp_askFor_bind trivial fun environment => ?_
  dsimp only [exec]
  rcases hget : s.approvals.get x with - | a
  · trivial
  have hid : a.id = x := Catalog.key_of_get hget
  dsimp only
  by_cases hpending : a.status = .pending
  · have hnot : ¬ a.status ≠ .pending := not_not.mpr hpending
    rw [if_neg hnot, Program.bind_assoc]
    refine everyOp_outside_bind writes_outside (within_assertMayResolve (fun _ => trivial) _ _)
      fun _ t₁ h₁ => ?_
    refine everyOp_outside_bind writes_outside (within_steeringParameters (fun _ => trivial) _ _)
      fun clean t₂ h₂ => ?_
    have hget₂ : t₂.approvals.get x = some a := by
      rw [h₂.approvals, h₁.approvals]
      exact hget
    unfold recordDecision
    rw [Program.bind_assoc, hid]
    refine everyOp_askFor_bind ⟨rfl, .inl rfl⟩ fun environment' => ?_
    obtain ⟨hanswer, hget₃, -⟩ := exec_updateApproval env (s := { t₂ with environment := environment' }) hget₂
      (approvalPatch a actorUserId reason clean)
    rw [hanswer]
    refine writesOnly_applyApproval ⟨hid, a, clean, hget, hpending, rfl⟩ ⟨_, hget₃, ?_⟩ ?_
    · simp [ConversationApproval.merge, approvalPatch]
    · have hworkflows : (exec env (.updateApproval x (approvalPatch a actorUserId reason clean))
          { t₂ with environment := environment' }).2.workflows = t₂.workflows := by
        simp only [exec, hget₂]
      rw [hworkflows, h₂.workflows, h₁.workflows]
  · rw [if_pos hpending]
    trivial

end Writes

end OpenAgency
