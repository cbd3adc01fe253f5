/-
ApprovalFailures.lean

Approvals that fail on the way.

`approve_request` stores its decision first.  Only then it appends messages, validates the
definition, saves it or launches the execution, and any of these steps may raise.  What
raises in between leaves the approval granted and its change undone, with nobody who may
grant it again (`failedApproval_stuck`).  The main result is `failedApproval_retriable`: a
call that raises leaves an approval that can be granted again, or a change that has been
applied, if and only if nothing raises from the decision to the change.

A plan says of each step whether it raises.  No step occurs twice in a call, so this is no
restriction.
-/
import OpenAgency.ApprovalDecisions

namespace OpenAgency

open Relational Interaction Program ApprovalOp Catalog ConversationApproval

/-- Which steps raise, and what the rest of the process answers. -/
structure ApprovalPlan where
  fault : ApprovalOp → Fault ConversationFault
  answer : (o : ApprovalAside) → o.Val
  perform : ApprovalEffect → Json → String

/-- What an approval may propose to do. -/
inductive ProposedChange where
  | create
  | update
  | execution
  deriving DecidableEq

def ProposedChange.action : ProposedChange → String
  | create => "workflow_create"
  | update => "workflow_update"
  | execution => "workflow_execution"

namespace ApprovalPlan

variable (plan : ApprovalPlan)

def environment : ApprovalEnvironment Unit where
  fault o _ := (plan.fault o, ())
  answer o _ := (plan.answer o, ())
  perform effect payload _ := (plan.perform effect payload, ())

abbrev handler : Handler ApprovalSig (ApprovalWorld Unit) := approvalHandler plan.environment

/-! ### What may raise between the decision and the change -/

/-- The step raises nothing. -/
def Passes (o : ApprovalOp) : Prop := plan.fault o = .none

/-- The step has its effect, whether or not it raises afterwards. -/
def Takes (o : ApprovalOp) : Prop := ∀ e, plan.fault o ≠ .before e

/-- A message is appended and published. -/
def Appends (kind : String) : Prop :=
  plan.Passes (.aside (.createMessage kind)) ∧ plan.Passes (.aside (.publish kind))

section Change

variable (cfg : ApprovalSettings) (workflows : WorkflowRecords) (approval : ConversationApproval)

/-- The record that the approval names, if its workflow is there, can be patched. -/
def Governs : Prop :=
  ∀ workflowId, nonempty ((normalizedString (approval.metadata.getJson "workflow_id")).or
      approval.targetId) = some workflowId →
    plan.Passes (.getWorkflow .governance workflowId) ∧
    ∀ w, workflows.get workflowId = some w →
      ∀ history key id, governanceRecord approval = some (history, key, id) →
        plan.Passes (.getWorkflow .governanceRecord workflowId) ∧
        ∃ metadata, governanceMetadata cfg approval history key id w.metadata = .ok metadata ∧
          plan.Passes (.updateMetadata w.id metadata)

/-- The proposed definition is valid and is saved. -/
def Creates : Prop :=
  ∃ proposed, cfg.validateWorkflow approval.workflowPayload = .ok proposed ∧
    plan.Takes (.saveWorkflow (cfg.createdWorkflow approval proposed))

/-- The target is there, the proposed definition is valid and is saved over it. -/
def Updates : Prop :=
  plan.Passes (.getWorkflow .mutation (approval.targetId.getD "")) ∧
    ∃ current proposed, workflows.get (approval.targetId.getD "") = some current ∧
      cfg.validateWorkflow approval.workflowPayload = .ok proposed ∧
      plan.Takes (.saveWorkflow (cfg.updatedWorkflow approval current proposed))

/-- Changes of workflows are switched off, and the call says so and ends. -/
def Declines : Prop :=
  plan.Appends "workflow_mutation_disabled" ∧ plan.Governs cfg workflows approval ∧
    plan.Passes (.aside (.publish "approval.resolved"))

/-- The execution of a workflow is created and launched. -/
def Launches (workflowId : String) : Prop :=
  let payload : Json := .obj [("workflow_id", .str workflowId),
    ("input_payload", approval.payload.getJson "input_payload"),
    ("runtime_adapter_id", approval.payload.getJson "runtime_adapter_id")]
  let execution := plan.perform .execution payload
  plan.Passes (.aside (.resolveMainProfile approval.conversationId)) ∧
    plan.Passes (.aside (.getChannelType approval.conversationId)) ∧
    (plan.answer (.getChannelType approval.conversationId)).isSome ∧
    plan.Passes (.perform .execution payload) ∧
    plan.Passes (.aside (.updateExecution execution)) ∧
    plan.Takes (.perform .launch (.str execution))

/-- The workflow that is named is there and is launched; or an execution has been recorded
or none is named, and the call ends. -/
def Executes : Prop :=
  if (approval.metadata.getJson "execution_id").truthy then
    plan.Passes (.aside (.getExecution (approval.metadata.getJson "execution_id"))) ∧
      plan.Passes (.aside (.publish "approval.resolved"))
  else if (approval.payload.getJson "workflow_id").truthy then
    ∃ workflowId, approval.payload.getJson "workflow_id" = .str workflowId ∧
      plan.Passes (.getWorkflow .launch workflowId) ∧ (workflows.get workflowId).isSome ∧
      plan.Launches approval workflowId
  else plan.Passes (.aside (.publish "approval.resolved"))

/-- Nothing raises before the change that a granted approval proposes has been applied. -/
def Applies (change : ProposedChange) : Prop :=
  plan.Appends "approval_result" ∧
    match change with
    | .create =>
      if cfg.workflowMutationEnabled then plan.Creates cfg approval
      else plan.Declines cfg workflows approval
    | .update =>
      if cfg.workflowMutationEnabled then plan.Updates cfg workflows approval
      else plan.Declines cfg workflows approval
    | .execution => plan.Governs cfg workflows approval ∧ plan.Executes workflows approval

/-- The actor is the one who may decide. -/
def MayDecide (actorUserId : String) : Prop :=
  ∃ owner channelUser, plan.answer (.getConversation approval.conversationId)
      = some (owner, channelUser) ∧
    owner.getD ("external:" ++ channelUser.getD "") = actorUserId

/-- If the decision is written, nothing raises from there until the change has been
applied. -/
def CarriesOut (change : ProposedChange) (actorUserId : String) (reason : Option String) : Prop :=
  let patch := approvalPatch approval actorUserId reason none
  plan.Passes (.getApproval approval.id) →
  plan.Passes (.aside (.getConversation approval.conversationId)) →
  plan.MayDecide approval actorUserId →
  plan.Takes (.updateApproval approval.id patch) →
    plan.Passes (.updateApproval approval.id patch) ∧
      plan.Applies cfg workflows (approval.merge patch) change

end Change

end ApprovalPlan

/-! ### What a call leaves -/

/-- A proposed definition has been saved, or an execution has been launched. -/
def Applied {ω : Type} (s : ApprovalWorld ω) : Prop := .workflow ∈ s.effects ∨ .launch ∈ s.effects

def StillPending {ω : Type} (x : String) (s : ApprovalWorld ω) : Prop :=
  ∃ a, s.approvals.get x = some a ∧ a.status = .pending

def Decided {ω : Type} (x : String) (s : ApprovalWorld ω) : Prop :=
  ∃ a, s.approvals.get x = some a ∧ a.status ≠ .pending

/-- A call that has raised has applied the change, or has left the approval pending and
has done nothing for it; and what has been applied cannot be granted again. -/
def Retriable {ω : Type} (x : String) (outcome : Except ConversationFault Unit × ApprovalWorld ω) :
    Prop :=
  (∀ e, outcome.1 = .error e →
    (StillPending x outcome.2 ∧ outcome.2.effects = []) ∨ Applied outcome.2) ∧
  (Applied outcome.2 → ¬ StillPending x outcome.2)

section Retrying

variable {x : String} {α β : Type}

theorem Decided.not_pending {ω : Type} {s : ApprovalWorld ω} (h : Decided x s) :
    ¬ StillPending x s := by
  obtain ⟨a, hget, hstatus⟩ := h
  rintro ⟨b, hb, hpending⟩
  obtain rfl : a = b := Option.some.inj (hget.symm.trans hb)
  exact hstatus hpending

theorem not_applied {ω : Type} {s : ApprovalWorld ω} (hs : s.effects = []) : ¬ Applied s := by
  unfold Applied
  rw [hs]
  simp

/-! ### A granted approval stays granted -/

section Granted

variable {ω : Type} {env : ApprovalEnvironment ω} {s : ApprovalWorld ω}

/-- What a call does for an approval that it has granted leaves it granted. -/
theorem decided_step {o : ApprovalOp} {attempted : List ApprovalEffect} (hs : Decided x s)
    (ho : (Resolving.approved attempted).Allows x o) :
    Decided x (approvalHandler env o s).2 := by
  obtain ⟨a, hget, hstatus⟩ := hs
  rcases handler_cases env x o s with ⟨hunmoved, -⟩ | ⟨environment, hexec, -⟩
  · exact ⟨a, hunmoved.approvals.trans hget, hstatus⟩
  rw [hexec]
  cases o with
  | updateApproval id patch =>
    obtain ⟨rfl, hpatch⟩ := ho
    obtain ⟨-, hget', -⟩ := exec_updateApproval env (s := { s with environment }) hget patch
    refine ⟨_, hget', ?_⟩
    simpa [merge, hpatch] using hstatus
  | saveWorkflow w => exact ⟨a, hget, hstatus⟩
  | perform effect payload => exact ⟨a, hget, hstatus⟩
  | getApproval | createApproval | saveDraft => cases ho
  | getWorkflow reading id => exact ⟨a, hget, hstatus⟩
  | aside o => exact ⟨a, hget, hstatus⟩
  | updateMetadata id metadata =>
    have hunmoved := exec_unmoved env (o := .updateMetadata id metadata)
      (s := { s with environment }) hget trivial
    exact ⟨a, hunmoved.approvals.trans hget, hstatus⟩

theorem decided_applyApproval (cfg : ApprovalSettings) {resolved : ConversationApproval}
    (hid : resolved.id = x) (hs : Decided x s) :
    (applyApproval cfg resolved).wp (approvalHandler env) (fun _ => Decided x)
      (fun _ => Decided x) s := by
  have hkeeps := keeps_applyApproval (x := x) (l := .approve "" none none)
    (φ := .approved []) cfg hid fun e he => absurd he List.not_mem_nil
  have hwp := hkeeps.wp (H := approvalHandler env)
    (J := fun s φ => (∃ attempted, φ = .approved attempted) ∧ Decided x s) ?_ ⟨⟨[], rfl⟩, hs⟩
  · exact wp_mono hwp (fun _ _ ⟨_, _, h⟩ => h.2) fun _ _ ⟨_, _, h⟩ => h.2
  rintro o s φ ⟨⟨attempted, rfl⟩, hs⟩ ho
  refine ⟨answersApproval_handler x o s, ?_, decided_step hs ho⟩
  cases o with
  | updateApproval id patch =>
    obtain ⟨-, hpatch⟩ := ho
    refine ⟨attempted, ?_⟩
    simp only [resolvingProtocol, Resolving.after, hpatch, Option.elim_none]
  | saveWorkflow w => exact ⟨attempted ++ [.workflow], rfl⟩
  | perform effect payload => exact ⟨attempted ++ [effect], rfl⟩
  | _ => exact ⟨attempted, rfl⟩

end Granted

/-! ### Steps of a plan -/

variable {plan : ApprovalPlan} {s : ApprovalWorld Unit}

variable {E : ConversationFault → ApprovalWorld Unit → Prop}

theorem wp_askFor_bind {Q : β → ApprovalWorld Unit → Prop} (o : ApprovalOp)
    (f : o.Val → ApprovalRun β) :
    (askFor o >>= f).wp plan.handler Q E s ↔
      match plan.fault o with
      | .none => (f (o.exec plan.environment s).1).wp plan.handler Q E
          (o.exec plan.environment s).2
      | .before e => E e s
      | .after e => E e (o.exec plan.environment s).2 := by
  unfold askFor
  rw [call_bind, wp_call]
  have hfault : plan.environment.fault o s.environment = (plan.fault o, ()) := rfl
  simp only [ApprovalPlan.handler, approvalHandler, hfault]
  cases plan.fault o with
  | none => exact Iff.rfl
  | before e => exact wp_raise e s
  | after e => exact wp_raise e (o.exec plan.environment s).2

/-- If the program raises, the change has been applied. -/
abbrev Carries (plan : ApprovalPlan) (p : ApprovalRun α) (s : ApprovalWorld Unit) : Prop :=
  p.wp plan.handler (fun _ _ => True) (fun _ => Applied) s

/-- What has been done stays done. -/
theorem applied_handler {ω : Type} {env : ApprovalEnvironment ω} {s : ApprovalWorld ω}
    (o : ApprovalOp) (hs : Applied s) : Applied (approvalHandler env o s).2 := by
  have hexec : ∀ environment, s.effects ⊆ (o.exec env { s with environment }).2.effects := by
    intro environment e he
    cases o with
    | getApproval | getWorkflow | saveDraft | aside => exact he
    | createApproval approval =>
      simp only [exec]
      split <;> exact he
    | updateApproval | updateMetadata =>
      simp only [exec]
      split <;> exact he
    | saveWorkflow | perform => exact List.mem_append_left _ he
  have hgrow : s.effects ⊆ (approvalHandler env o s).2.effects := by
    rcases handler_cases env "" o s with ⟨hunmoved, -⟩ | ⟨environment, heq, -⟩
    · rw [hunmoved.effects]
      exact fun _ he => he
    · rw [heq]
      exact hexec environment
  exact hs.imp (fun h => hgrow h) fun h => hgrow h

theorem carries_of_applied (p : ApprovalRun α) (hs : Applied s) : Carries plan p s := by
  induction p generalizing s with
  | done a => exact wp_of_done trivial
  | raise e => exact wp_of_raise hs
  | call o k ih => exact (wp_call o k s).mpr (ih _ (applied_handler o hs))

theorem carries_done_bind {a : α} {f : α → ApprovalRun β} :
    Carries plan (done a >>= f) s ↔ Carries plan (f a) s := Iff.rfl

/-- A step that applies nothing must not raise. -/
theorem carries_askFor_bind (hs : ¬ Applied s) {o : ApprovalOp}
    (ho : ¬ Applied (o.exec plan.environment s).2) {f : o.Val → ApprovalRun β} :
    Carries plan (askFor o >>= f) s ↔
      plan.Passes o ∧ Carries plan (f (o.exec plan.environment s).1)
        (o.exec plan.environment s).2 := by
  rw [Carries, wp_askFor_bind, ApprovalPlan.Passes]
  cases plan.fault o with
  | none => simp
  | before e => simpa using hs
  | after e => simpa using ho

/-- A step that applies the change must be performed. -/
theorem carries_apply_bind (hs : ¬ Applied s) {o : ApprovalOp}
    (ho : Applied (o.exec plan.environment s).2) {f : o.Val → ApprovalRun β} :
    Carries plan (askFor o >>= f) s ↔ plan.Takes o := by
  rw [Carries, wp_askFor_bind, ApprovalPlan.Takes]
  cases plan.fault o with
  | none => simpa using carries_of_applied _ ho
  | before e => simpa using hs
  | after e => simpa using ho

theorem carries_askAside_bind (hs : ¬ Applied s) {o : ApprovalAside}
    {f : o.Val → ApprovalRun β} :
    Carries plan (askAside o >>= f) s ↔
      plan.Passes (.aside o) ∧ Carries plan (f (plan.answer o)) s :=
  carries_askFor_bind (o := .aside o) hs hs

theorem carries_getWorkflow_bind (hs : ¬ Applied s) {reading : WorkflowReading} {id : String}
    {f : Option CatalogWorkflow → ApprovalRun β} :
    Carries plan (askFor (.getWorkflow reading id) >>= f) s ↔
      plan.Passes (.getWorkflow reading id) ∧ Carries plan (f (s.workflows.get id)) s :=
  carries_askFor_bind (o := .getWorkflow reading id) hs hs

theorem carries_askAside (hs : ¬ Applied s) {o : ApprovalAside} :
    Carries plan (askAside o) s ↔ plan.Passes (.aside o) := by
  rw [← bind_done (askAside o), carries_askAside_bind hs]
  simp

variable {f : Unit → ApprovalRun β}

theorem carries_appendMessage_bind (hs : ¬ Applied s) {kind : String} :
    Carries plan (appendMessage kind >>= f) s ↔ plan.Appends kind ∧ Carries plan (f ()) s := by
  unfold appendMessage ApprovalPlan.Appends
  rw [Program.bind_assoc, carries_askAside_bind hs, carries_askAside_bind hs, and_assoc]

theorem carries_raise (hs : ¬ Applied s) {type message : String} {f : α → ApprovalRun β} :
    ¬ Carries plan (raiseFault type message >>= f) s := fun h => hs ((wp_raise _ s).mp h)

theorem carries_ofExcept_bind (hs : ¬ Applied s) {r : Except ConversationFault α}
    {f : α → ApprovalRun β} :
    Carries plan (ofExcept r >>= f) s ↔ ∃ a, r = .ok a ∧ Carries plan (f a) s := by
  cases r with
  | error e => simpa using hs
  | ok a => simp

/-! ### The parts of a granted approval -/

section Parts

variable {cfg : ApprovalSettings} {approval : ConversationApproval} {change : ProposedChange}

theorem ConversationApproval.hasAction_eq (haction : approval.hasAction change.action)
    (name : String) : approval.hasAction name = decide (change.action = name) := by
  have hstr : approval.action.asStr? = some change.action := of_decide_eq_true haction
  simp [hasAction, hstr]

theorem ConversationApproval.ensureHashable_action (haction : approval.hasAction change.action) :
    ensureHashable approval.action = .ok () := by
  have hstr : approval.action.asStr? = some change.action := of_decide_eq_true haction
  cases haction : approval.action with
  | str name => rfl
  | _ =>
    rw [haction] at hstr
    cases hstr

/-- What is left of `apply…` for an approval that proposes one of these changes. -/
theorem applyApproval_eq (haction : approval.hasAction change.action) :
    applyApproval cfg approval = (do
      appendMessage "approval_result"
      applyWorkflowMutation cfg approval
      syncGovernance cfg approval
      launchExecutionFromApproval approval
      askAside (.publish "approval.resolved")) := by
  have hname := approval.hasAction_eq haction
  have htool : applyToolMutation cfg approval = done () := by
    unfold applyToolMutation
    rw [approval.ensureHashable_action haction, hname, hname]
    cases change <;> simp [ProposedChange.action]
  have hagent : applyAgentMutation cfg approval = done () := by
    unfold applyAgentMutation
    rw [hname]
    cases change <;> simp [ProposedChange.action]
  have hsteering : applySteering approval = done () := by
    unfold applySteering
    rw [hname]
    cases change <;> simp [ProposedChange.action]
  have hrun : executeToolFromApproval approval = done () := by
    unfold executeToolFromApproval
    rw [hname]
    cases change <;> simp [ProposedChange.action]
  unfold applyApproval
  rw [htool, hagent, hsteering, hrun]
  rfl

/-- The states between which only metadata of workflows may differ. -/
structure SameWorkflows (s s' : ApprovalWorld Unit) : Prop where
  effects : s'.effects = s.effects
  stored : ∀ id, (s'.workflows.get id).isSome = (s.workflows.get id).isSome

/-- What follows the governance record depends on which workflows there are. -/
theorem carries_syncGovernance_bind (hs : ¬ Applied s) {C : Prop}
    (hf : ∀ s', SameWorkflows s s' → (Carries plan (f ()) s' ↔ C)) :
    Carries plan (syncGovernance cfg approval >>= f) s ↔
      plan.Governs cfg s.workflows approval ∧ C := by
  have hsame : Carries plan (f ()) s ↔ C := hf s ⟨rfl, fun _ => rfl⟩
  unfold syncGovernance ApprovalPlan.Governs
  rcases hid : nonempty ((normalizedString (approval.metadata.getJson "workflow_id")).or
    approval.targetId) with - | workflowId
  · simpa [carries_done_bind] using hsame
  simp only [Option.some.injEq, forall_eq']
  rw [Program.bind_assoc, carries_getWorkflow_bind hs, and_assoc]
  refine and_congr_right fun _ => ?_
  rcases hget : s.workflows.get workflowId with - | w
  · simpa [carries_done_bind] using hsame
  simp only [Option.some.injEq, forall_eq']
  rcases hrecord : governanceRecord approval with - | ⟨history, key, id⟩
  · simpa [carries_done_bind] using hsame
  have hwid : w.id = workflowId := key_of_get hget
  dsimp only
  rw [Program.bind_assoc, carries_getWorkflow_bind hs]
  rw [hget]
  simp only [Option.some.injEq, Prod.mk.injEq]
  rw [Program.bind_assoc, carries_ofExcept_bind hs]
  have hupdate : ∀ metadata, Carries plan ((askFor (.updateMetadata w.id metadata) >>=
      fun updated : Bool => if updated = true then done () else raiseFault "AssertionError" "")
        >>= f) s ↔ plan.Passes (.updateMetadata w.id metadata) ∧ C := by
    intro metadata
    have hstored : s.workflows.get w.id = some w := by
      rw [hwid]
      exact hget
    have hnot : ¬ Applied (exec plan.environment (.updateMetadata w.id metadata) s).2 := by
      simp only [exec, hstored]
      exact hs
    rw [Program.bind_assoc, carries_askFor_bind hs hnot]
    simp only [exec, hstored, if_true, carries_done_bind]
    refine and_congr_right fun _ => hf _ ⟨rfl, fun id => ?_⟩
    by_cases hne : id = w.id
    · have hput : (s.workflows.put { w with metadata }).get w.id = some { w with metadata } :=
        get_put_self s.workflows { w with metadata }
      rw [hne, hput, hstored]
      rfl
    · exact congrArg Option.isSome (get_put_ne (r := { w with metadata }) hne)
  simp only [hupdate]
  constructor
  · rintro ⟨hagain, metadata, hmetadata, hpasses, hC⟩
    refine ⟨fun history' key' id' => ?_, hC⟩
    rintro ⟨rfl, rfl, rfl⟩
    exact ⟨hagain, metadata, hmetadata, hpasses⟩
  · rintro ⟨hall, hC⟩
    obtain ⟨hagain, metadata, hmetadata, hpasses⟩ := hall history key id ⟨rfl, rfl, rfl⟩
    exact ⟨hagain, metadata, hmetadata, hpasses, hC⟩

theorem carries_applyWorkflowCreate_bind (hs : ¬ Applied s) :
    Carries plan (applyWorkflowCreate cfg approval >>= f) s ↔ plan.Creates cfg approval := by
  unfold applyWorkflowCreate ApprovalPlan.Creates
  rw [Program.bind_assoc, carries_ofExcept_bind hs]
  refine exists_congr fun proposed => and_congr_right fun _ => ?_
  rw [Program.bind_assoc]
  exact carries_apply_bind hs (.inl (List.mem_append_right _ List.mem_cons_self))

theorem carries_applyWorkflowUpdate_bind (hs : ¬ Applied s) :
    Carries plan (applyWorkflowUpdate cfg approval >>= f) s ↔
      plan.Updates cfg s.workflows approval := by
  unfold applyWorkflowUpdate ApprovalPlan.Updates
  rw [Program.bind_assoc, carries_getWorkflow_bind hs]
  refine and_congr_right fun _ => ?_
  rcases s.workflows.get (approval.targetId.getD "") with - | current
  · simp only [reduceCtorEq, false_and, exists_false, iff_false]
    exact carries_raise hs
  · dsimp only
    rw [Program.bind_assoc, carries_ofExcept_bind hs]
    have hsave : ∀ proposed, Carries plan ((do
        askFor (.saveWorkflow (cfg.updatedWorkflow approval current proposed))
        askAside (.replaceActiveExecutions current.id
          ((approval.payload.getJson "restart_active_executions").truthy ||
            (approval.metadata.getJson "restart_active_executions").truthy))) >>= f) s ↔
        plan.Takes (.saveWorkflow (cfg.updatedWorkflow approval current proposed)) :=
      fun proposed => by
        rw [Program.bind_assoc]
        exact carries_apply_bind hs (.inl (List.mem_append_right _ List.mem_cons_self))
    simp only [hsave]
    constructor
    · rintro ⟨proposed, hvalid, htakes⟩
      exact ⟨current, proposed, rfl, hvalid, htakes⟩
    · rintro ⟨_, proposed, hcurrent, hvalid, htakes⟩
      cases hcurrent
      exact ⟨proposed, hvalid, htakes⟩

theorem carries_launchExecution_bind (hs : ¬ Applied s) {w : CatalogWorkflow}
    {f : String → ApprovalRun β} :
    (plan.Passes (.aside (.resolveMainProfile approval.conversationId)) ∧
      Carries plan (launchExecution approval w >>= f) s) ↔ plan.Launches approval w.id := by
  unfold launchExecution ApprovalPlan.Launches
  refine and_congr_right fun _ => ?_
  rw [Program.bind_assoc, carries_askAside_bind hs]
  refine and_congr_right fun _ => ?_
  rcases plan.answer (.getChannelType approval.conversationId) with - | channel
  · simp only [Option.isSome_none, Bool.false_eq_true, false_and, iff_false]
    exact carries_raise hs
  simp only [Option.isNone_some, Bool.false_eq_true, if_false, Option.isSome_some, true_and]
  rw [Program.bind_assoc]
  -- The execution that is created is not yet a launch.
  have hcreated : ∀ payload,
      ¬ Applied (exec plan.environment (.perform .execution payload) s).2 := by
    intro payload
    simpa [Applied, exec] using hs
  rw [carries_askFor_bind hs (hcreated _)]
  refine and_congr_right fun _ => ?_
  rw [Program.bind_assoc, carries_askAside_bind (hcreated _)]
  refine and_congr_right fun _ => ?_
  rw [Program.bind_assoc]
  exact carries_apply_bind (hcreated _) (.inr (List.mem_append_right _ List.mem_cons_self))

theorem carries_launchExecutionFromApproval (hs : ¬ Applied s)
    (haction : approval.hasAction "workflow_execution") (hstatus : approval.status = .approved) :
    Carries plan (do
      launchExecutionFromApproval approval
      askAside (.publish "approval.resolved")) s ↔ plan.Executes s.workflows approval := by
  unfold launchExecutionFromApproval ApprovalPlan.Executes
  simp only [haction, hstatus, Bool.not_true, Bool.false_eq_true, ne_eq, not_true_eq_false,
    decide_false, Bool.or_self, if_false]
  split
  · rw [Program.bind_assoc, carries_askAside_bind hs]
    exact and_congr_right fun _ => carries_askAside hs
  split
  next workflowId hworkflow =>
    rw [hworkflow]
    by_cases hempty : workflowId = ""
    · rw [if_pos hempty, hempty]
      exact carries_askAside hs
    · have htruthy : (Json.str workflowId).truthy = true := by simp [Json.truthy, hempty]
      rw [if_neg hempty, if_pos htruthy, Program.bind_assoc, carries_getWorkflow_bind hs]
      have hstr : ∀ name, (Json.str workflowId = .str name) = (name = workflowId) := fun name =>
        propext ⟨fun h => (Json.str.inj h).symm, fun h => h ▸ rfl⟩
      simp only [hstr, exists_eq_left]
      refine and_congr_right fun _ => ?_
      rcases hget : s.workflows.get workflowId with - | w
      · simp only [Option.isSome_none, Bool.false_eq_true, false_and, iff_false]
        exact carries_raise hs
      · have hid : w.id = workflowId := key_of_get hget
        simp only [Option.isSome_some, true_and]
        rw [← hid, ← carries_launchExecution_bind hs, Program.bind_assoc,
          carries_askAside_bind hs, Program.bind_assoc]
  next value hvalue =>
    by_cases htruthy : (approval.payload.getJson "workflow_id").truthy = true
    · rw [if_pos htruthy, if_pos htruthy]
      refine iff_of_false (carries_raise hs) ?_
      rintro ⟨workflowId, hworkflow, -⟩
      exact hvalue workflowId hworkflow
    · rw [if_neg htruthy, if_neg htruthy]
      exact carries_askAside hs

theorem launchExecutionFromApproval_eq (haction : approval.hasAction change.action)
    (hchange : change ≠ .execution) : launchExecutionFromApproval approval = done () := by
  unfold launchExecutionFromApproval
  rw [approval.hasAction_eq haction]
  cases change with
  | create => simp [ProposedChange.action]
  | update => simp [ProposedChange.action]
  | execution => exact absurd rfl hchange

/-- What is left of a granted approval whose change is switched off. -/
theorem carries_declined (hs : ¬ Applied s) (haction : approval.hasAction change.action)
    (hchange : change ≠ .execution) :
    Carries plan (do
      appendMessage "workflow_mutation_disabled"
      syncGovernance cfg approval
      launchExecutionFromApproval approval
      askAside (.publish "approval.resolved")) s ↔ plan.Declines cfg s.workflows approval := by
  unfold ApprovalPlan.Declines
  rw [carries_appendMessage_bind hs]
  refine and_congr_right fun _ => carries_syncGovernance_bind hs fun s' hsame => ?_
  have hs' : ¬ Applied s' := by
    unfold Applied
    rw [hsame.effects]
    exact hs
  rw [launchExecutionFromApproval_eq haction hchange]
  exact carries_askAside hs'

theorem executes_congr {workflows workflows' : WorkflowRecords}
    (hstored : ∀ id, (workflows'.get id).isSome = (workflows.get id).isSome) :
    plan.Executes workflows' approval ↔ plan.Executes workflows approval := by
  simp only [ApprovalPlan.Executes, hstored]

/-- **What a granted approval does** raises only after its change has been applied, if and
only if nothing raises before that. -/
theorem carries_applyApproval (hs : ¬ Applied s) (haction : approval.hasAction change.action)
    (hstatus : approval.status = .approved) :
    Carries plan (applyApproval cfg approval) s ↔ plan.Applies cfg s.workflows approval change := by
  have hname := approval.hasAction_eq haction
  have hhash := approval.ensureHashable_action haction
  have hnot : ¬ approval.status ≠ .approved := not_not.mpr hstatus
  unfold ApprovalPlan.Applies
  rw [applyApproval_eq haction, carries_appendMessage_bind hs]
  refine and_congr_right fun _ => ?_
  unfold applyWorkflowMutation
  rw [if_neg hnot, hhash, hname, hname]
  cases change with
  | create =>
    by_cases henabled : cfg.workflowMutationEnabled = true
    · simpa [ProposedChange.action, henabled] using carries_applyWorkflowCreate_bind hs
    · simpa [ProposedChange.action, henabled] using carries_declined hs haction (by decide)
  | update =>
    by_cases henabled : cfg.workflowMutationEnabled = true
    · simpa [ProposedChange.action, henabled] using carries_applyWorkflowUpdate_bind hs
    · simpa [ProposedChange.action, henabled] using carries_declined hs haction (by decide)
  | execution =>
    simp only [ProposedChange.action, ofExcept_ok, done_bind]
    refine carries_syncGovernance_bind hs fun s' hsame => ?_
    have hs' : ¬ Applied s' := by
      unfold Applied
      rw [hsame.effects]
      exact hs
    rw [carries_launchExecutionFromApproval hs' haction hstatus, executes_congr hsame.stored]

end Parts

/-! ### The call -/

/-- What a call leaves, as a postcondition. -/
theorem retriable_iff_wp {ω : Type} {H : Handler ApprovalSig (ApprovalWorld ω)}
    {p : ApprovalRun Unit} {s : ApprovalWorld ω} :
    Retriable x (p.run H s) ↔
      p.wp H (fun _ s' => Applied s' → ¬ StillPending x s')
        (fun _ s' => ((StillPending x s' ∧ s'.effects = []) ∨ Applied s') ∧
          (Applied s' → ¬ StillPending x s')) s := by
  unfold Retriable
  rcases hrun : p.run H s with ⟨e | a, s'⟩
  · rw [wp_of_run_error hrun]
    simp
  · rw [wp_of_run_ok hrun]
    simp

/-- A step that is passed or raises in a state that may be left. -/
theorem wp_mayRaise_bind {Q : β → ApprovalWorld Unit → Prop} (hs : ∀ e, E e s) {o : ApprovalOp}
    (ho : (o.exec plan.environment s).2 = s) {f : o.Val → ApprovalRun β} :
    (askFor o >>= f).wp plan.handler Q E s ↔
      (plan.Passes o → (f (o.exec plan.environment s).1).wp plan.handler Q E s) := by
  rw [wp_askFor_bind, ho, ApprovalPlan.Passes]
  cases plan.fault o with
  | none => simp
  | before e => simpa using hs e
  | after e => simpa using hs e

theorem steeringParameters_eq {approval : ConversationApproval} {change : ProposedChange}
    (haction : approval.hasAction change.action) (parameters : Option Json) :
    steeringParameters approval parameters = done none := by
  unfold steeringParameters
  rw [approval.hasAction_eq haction]
  cases parameters with
  | none => rfl
  | some value => cases change <;> simp [ProposedChange.action]

/-- Once the approval is granted, only the change is left to speak of. -/
theorem wp_granted {p : ApprovalRun Unit}
    (hdecided : p.wp plan.handler (fun _ => Decided x) (fun _ => Decided x) s) :
    p.wp plan.handler (fun _ s' => Applied s' → ¬ StillPending x s')
        (fun _ s' => ((StillPending x s' ∧ s'.effects = []) ∨ Applied s') ∧
          (Applied s' → ¬ StillPending x s')) s ↔ Carries plan p s := by
  constructor
  · intro h
    refine wp_mono (wp_and h hdecided) (fun _ _ _ => trivial) fun _ s' h => ?_
    obtain ⟨⟨hpending | happlied, -⟩, hdecided'⟩ := h
    · exact absurd hpending.1 hdecided'.not_pending
    · exact happlied
  · intro h
    refine wp_mono (wp_and h hdecided) (fun _ s' h _ => h.2.not_pending) fun _ s' h => ?_
    exact ⟨.inr h.1, fun _ => h.2.not_pending⟩

/-- The decision is stored, and the rest is what a granted approval does. -/
theorem wp_decision {approval : ConversationApproval} {patch : ApprovalPatch}
    (hget : s.approvals.get approval.id = some approval) (hpending : approval.status = .pending)
    (hs : s.effects = []) (hpatch : patch.status = some .approved) {cfg : ApprovalSettings} :
    (recordDecision approval patch >>= applyApproval cfg).wp plan.handler
        (fun _ s' => Applied s' → ¬ StillPending approval.id s')
        (fun _ s' => ((StillPending approval.id s' ∧ s'.effects = []) ∨ Applied s') ∧
          (Applied s' → ¬ StillPending approval.id s')) s ↔
      (plan.Takes (.updateApproval approval.id patch) →
        plan.Passes (.updateApproval approval.id patch) ∧
          Carries plan (applyApproval cfg (approval.merge patch))
            ((updateApproval approval.id patch).exec plan.environment s).2) := by
  obtain ⟨hanswer, hget', -, heffects⟩ := exec_updateApproval plan.environment hget patch
  have hdecided : Decided approval.id
      ((updateApproval approval.id patch).exec plan.environment s).2 := by
    refine ⟨_, hget', ?_⟩
    simp [merge, hpatch]
  have hnot : ¬ Applied ((updateApproval approval.id patch).exec
      plan.environment s).2 := not_applied (heffects.trans hs)
  unfold recordDecision
  rw [Program.bind_assoc, wp_askFor_bind, ApprovalPlan.Takes, ApprovalPlan.Passes]
  cases plan.fault (.updateApproval approval.id patch) with
  | before e =>
    have hleft : StillPending approval.id s := ⟨approval, hget, hpending⟩
    simpa using ⟨.inl ⟨hleft, hs⟩, fun h => absurd h (not_applied hs)⟩
  | after e =>
    simpa using fun h => (h.resolve_right hnot).1.elim fun a ha =>
      absurd ⟨a, ha⟩ hdecided.not_pending
  | none =>
    have htakes : ∀ e : ConversationFault, (Fault.none : Fault ConversationFault) ≠ .before e :=
      fun e h => by cases h
    have hid : (approval.merge patch).id = approval.id := rfl
    simp only [hanswer, done_bind, true_and]
    rw [imp_iff_right htakes]
    exact wp_granted (decided_applyApproval cfg hid hdecided)

end Retrying

/-- **A failed approval can be retried** if and only if, once its decision is written,
nothing raises until the change it proposes has been applied. -/
theorem failedApproval_retriable (cfg : ApprovalSettings) (plan : ApprovalPlan)
    (approvals : ConversationApprovals) (workflows : WorkflowRecords)
    (approval : ConversationApproval) (change : ProposedChange)
    (hstored : approvals.get approval.id = some approval) (hpending : approval.status = .pending)
    (haction : approval.hasAction change.action) (actorUserId : String) (reason : Option String)
    (parameters : Option Json) :
    Retriable approval.id
        ((approveRequest cfg approval.id actorUserId reason parameters).run plan.handler
          { environment := (), approvals, workflows }) ↔
      plan.CarriesOut cfg workflows approval change actorUserId reason := by
  rw [retriable_iff_wp]
  set s : ApprovalWorld Unit := { environment := (), approvals, workflows }
  have hs : ¬ Applied s := not_applied rfl
  -- Nothing is lost while the approval is pending.
  have hleft : ((StillPending approval.id s ∧ s.effects = []) ∨ Applied s) ∧
      (Applied s → ¬ StillPending approval.id s) :=
    ⟨.inl ⟨⟨approval, hstored, hpending⟩, rfl⟩, fun h => absurd h hs⟩
  unfold approveRequest pendingApproval assertMayResolve ApprovalPlan.CarriesOut
  rw [Program.bind_assoc, wp_mayRaise_bind (fun _ => hleft) rfl]
  refine imp_congr_right fun _ => ?_
  have hanswer : ((getApproval approval.id).exec plan.environment s).1 = some approval := hstored
  have hnot : ¬ approval.status ≠ .pending := not_not.mpr hpending
  rw [hanswer]
  dsimp only
  rw [if_neg hnot, Program.bind_assoc, Program.bind_assoc]
  rw [askAside, wp_mayRaise_bind (fun _ => hleft) rfl]
  refine imp_congr_right fun _ => ?_
  have howner : ((aside (.getConversation approval.conversationId)).exec
      plan.environment s).1 = plan.answer (.getConversation approval.conversationId) := rfl
  rw [howner, ApprovalPlan.MayDecide]
  rcases plan.answer (.getConversation approval.conversationId) with - | ⟨owner, channelUser⟩
  · simp only [reduceCtorEq, false_and, exists_false, false_implies, iff_true]
    exact wp_of_raise hleft
  simp only [Option.some.injEq, Prod.mk.injEq]
  by_cases hactor : owner.getD ("external:" ++ channelUser.getD "") = actorUserId
  · have hmay : ∃ owner' channelUser', (owner = owner' ∧ channelUser = channelUser') ∧
        owner'.getD ("external:" ++ channelUser'.getD "") = actorUserId :=
      ⟨owner, channelUser, ⟨rfl, rfl⟩, hactor⟩
    rw [if_pos hactor, imp_iff_right hmay, done_bind, done_bind,
      steeringParameters_eq haction, done_bind, wp_decision hstored hpending rfl rfl]
    refine imp_congr_right fun _ => and_congr_right fun _ => ?_
    obtain ⟨-, -, -, heffects⟩ := exec_updateApproval plan.environment (s := s) hstored
      (approvalPatch approval actorUserId reason none)
    have hworkflows : ((updateApproval approval.id
        (approvalPatch approval actorUserId reason none)).exec plan.environment s).2.workflows
        = workflows := by
      simp only [exec, s, hstored]
    have haction' : (approval.merge
        (approvalPatch approval actorUserId reason none)).hasAction change.action := haction
    rw [carries_applyApproval (not_applied heffects) haction' rfl, hworkflows]
  · rw [if_neg hactor]
    refine iff_of_true (wp_of_raise hleft) ?_
    rintro ⟨_, _, ⟨rfl, rfl⟩, hactor'⟩
    exact absurd hactor' hactor

/-! ### Two calls -/

namespace ApprovalExample

/-- Nothing raises. -/
def plan : ApprovalPlan where
  fault _ := .none
  answer o := (env.answer o ()).1
  perform effect payload := (env.perform effect payload ()).1

/-- The definition that is proposed is not valid. -/
def strictCfg : ApprovalSettings :=
  { cfg with validateWorkflow _ := .error ⟨"ValidationError", "nodes: Field required"⟩ }

end ApprovalExample

open ApprovalExample in
/-- A definition that is valid is saved. -/
theorem failedApproval_retriable_saved :
    Retriable "a" ((approveRequest cfg "a" "u" none none).run plan.handler
      { environment := (), approvals := Catalog.empty.put approval,
        workflows := Catalog.empty }) := by
  refine (failedApproval_retriable cfg plan _ _ approval .create rfl rfl rfl "u" none none).mpr ?_
  intro _ _ _ _
  exact ⟨rfl, ⟨rfl, rfl⟩, proposed, rfl, fun e h => nomatch h⟩

open ApprovalExample in
/-- A definition that is not: the approval is granted, nothing has been saved, and no one
may grant it again. -/
theorem failedApproval_stuck :
    let left := (approveRequest strictCfg "a" "u" none none).run plan.handler
      { environment := (), approvals := Catalog.empty.put approval, workflows := Catalog.empty }
    left.1 = .error ⟨"ValidationError", "nodes: Field required"⟩ ∧
      (left.2.approvals.get "a").map (·.status) = some .approved ∧ left.2.effects = [] ∧
      ¬ Retriable "a" left := by
  refine ⟨rfl, rfl, rfl, fun h => ?_⟩
  rcases h.1 _ rfl with ⟨⟨a, hget, hpending⟩, -⟩ | happlied
  · cases hget
    cases hpending
  · exact not_applied rfl happlied

end OpenAgency
