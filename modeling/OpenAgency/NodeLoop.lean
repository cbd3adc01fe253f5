/-
NodeLoop.lean

The node loop keeps every property of the cycle record.  Each function between
`start_execution`'s loop and the statements it issues has one lemma here, in the order
in which they call each other: the services, the agent loop, the attempts at a task,
the turn of the loop.  `runNodes` is `runWorkflow` up to the end of its loop.
-/
import OpenAgency.CycleFrame
import OpenAgency.TaskRules

namespace OpenAgency

open Interaction Program

namespace CycleFrame

variable {F : CycleFrame}

/-! ### Services -/

namespace Keeps

variable {α β : Type}

theorem consumeResolvedDecision (y : Uuid) (toolId digest : String) :
    F.Keeps (OpenAgency.consumeResolvedDecision y toolId digest) := by
  refine getExecution (pure none) fun e hid he => ?_
  dsimp only
  split
  · exact pure none
  · split
    · exact pure none
    · split
      · exact pure none
      · refine .bind (query trivial) fun request => ?_
        split
        · exact pure none
        · exact .bind (updateExecution hid he ⟨rfl, rfl, rfl⟩) fun _ => pure _

theorem listPendingWaits (y : Uuid) : F.Keeps (OpenAgency.listPendingWaits y) :=
  .bind (query trivial) fun _ => ofExcept _

theorem resolveExecutionWait (id : Uuid) (r : ExecutionWait.Resolution) :
    F.Keeps (OpenAgency.resolveExecutionWait id r) := by
  refine .bind utcNow fun now => .bind (query trivial) fun updated => ?_
  rcases updated with e | rowcount
  · exact within_ofExcept (.error e)
  · refine .bind (query trivial) fun row => ?_
    rcases row with - | row
    · exact pure _
    · refine .bind (ofExcept _) fun resolved => ?_
      split
      · exact pure _
      · split <;> exact pure _

theorem resolveApproval (y : Uuid) (toolId : String) (decision : ApprovalDecision)
    (respondedBy : String) :
    F.Keeps (OpenAgency.resolveApproval y toolId decision respondedBy) := by
  refine .bind (.bind utcNow fun now => .bind (query trivial) fun latest => ?_) fun request => ?_
  · rcases latest with - | requestId
    · exact pure none
    · refine .bind (query trivial) fun rowcount => .bind (query trivial) fun entity => ?_
      rcases entity with - | entity
      · exact pure none
      · dsimp only
        split <;> exact pure _
  · rcases request with - | request
    · exact pure false
    · refine .bind (.bind (listPendingWaits y) fun waits => ?_) fun _ => pure true
      split
      · exact pure ()
      · exact .bind (resolveExecutionWait _ _) fun _ => pure ()

/-- The wait of an approval is stored. -/
theorem createDurableApprovalWait (hwaits : F.waits .approval) (a : ApprovalCall)
    (requestId : Uuid) (requestPayload : Json) :
    F.Keeps (OpenAgency.createDurableApprovalWait a requestId requestPayload) := by
  have hnew : ∀ build : Uuid → Time → ExecutionWait, (∀ id now, (build id now).kind = .approval) →
      (newExecutionWait build).Ensures F.ok F.allowed fun wait => wait.kind = .approval := by
    intro build hkind
    refine uuid4.bind_ensures fun id => utcNow.bind_ensures fun now => ?_
    rcases hvalid : (build id now).validateLifecycle with e | wait
    · trivial
    · show wait.kind = .approval
      rw [ExecutionWait.validateLifecycle] at hvalid
      split at hvalid
      · cases hvalid
      · cases hvalid
        rw [← hkind id now, ExecutionWait.fillResolvedAt]
        split <;> rfl
  refine .bind (query trivial) fun execution => Program.Ensures.within (Q := fun _ => True) ?_
  refine (hnew _ fun _ _ => rfl).bind fun wait hkind => Program.Within.ensures ?_
  refine .bind ?_ fun saved => pure saved.id
  refine .bind (query (show F.waits wait.kind from hkind ▸ hwaits)) fun inserted => ?_
  rcases inserted with e | -
  · refine .bind (query trivial) fun existing => ?_
    rcases existing with - | existing
    · trivial
    · exact ofExcept _
  · exact ofExcept _

theorem openApproval (hwaits : F.waits .approval) (a : ApprovalCall) (digest : String) :
    F.Keeps (OpenAgency.openApproval a digest) := by
  refine .bind (.bind uuid4 fun id => .bind utcNow fun now => .bind (query trivial) fun _ =>
    pure id) fun requestId => ?_
  refine .bind (process trivial) fun _ => ?_
  refine .bind (createDurableApprovalWait hwaits a requestId _) fun waitId => ?_
  refine .bind (getExecution (pure ()) fun e hid he =>
    updateExecution hid he ⟨rfl, rfl, rfl⟩) fun _ => ?_
  refine .bind (.bind (ask _) fun answer => ?_) fun decision => ?_
  · rcases answer with e | decision
    · exact pure none
    · exact pure decision
  · rcases decision with - | decision
    · exact raise _ _
    · refine .bind (resolveApproval _ _ _ _) fun _ => .bind ?_ fun _ => pure decision
      exact getExecution (pure ()) fun e hid he => updateExecution hid he ⟨rfl, rfl, rfl⟩

theorem requestApproval (hwaits : F.waits .approval) (digestOf : Json → String)
    (a : ApprovalCall) : F.Keeps (OpenAgency.requestApproval digestOf a) := by
  refine .bind (consumeResolvedDecision _ _ _) fun decision => ?_
  rcases decision with - | decision
  · refine rescue (openApproval hwaits a _) fun exc => ?_
    exact .bind (process trivial) fun _ => within_ofExcept (.error exc)
  · exact pure decision

theorem recordTokenUsageSnapshot (fl : FloatRounding) (y : Uuid) (c : UsageCall) :
    F.Keeps (OpenAgency.recordTokenUsageSnapshot fl y c) := by
  refine getExecution (pure _) fun e hid he => ?_
  dsimp only
  split
  · exact pure _
  · exact .bind (updateExecution hid he ⟨rfl, rfl, rfl⟩) fun _ => pure _

end Keeps

theorem keeps_service (hwaits : F.waits .approval) (cfg : EngineConfig) (c : ServiceCall) :
    F.Keeps (c.program cfg) := by
  cases c with
  | requestApproval a => exact .requestApproval hwaits _ a
  | recordTokenUsage y c => exact .bind (.recordTokenUsageSnapshot _ y c) fun _ => .pure _

/-! ### The engine's coroutines -/

variable (F)

/-- Answers of services are arbitrary. -/
def okRun : (o : EngineOp) → o.Ret → Prop
  | .runtime o, r => F.ok o r
  | .service _ _, _ => True

def allowedRun : EngineOp → Prop
  | .runtime o => F.allowed o
  | .service _ _ => True

/-- A coroutine of the engine that keeps the property, whatever its services answer. -/
def KeepsRun {α : Type} (p : EngineRun α) : Prop := p.Within F.okRun F.allowedRun

variable {F}

namespace KeepsRun

variable {α β : Type}

theorem bind {p : EngineRun α} {f : α → EngineRun β} (hp : F.KeepsRun p)
    (hf : ∀ a, F.KeepsRun (f a)) : F.KeepsRun (p >>= f) := Program.Within.bind hp hf

theorem lift {p : Coroutine α} (h : F.Keeps p) : F.KeepsRun (liftM p : EngineRun α) := within_lift h

theorem pure (a : α) : F.KeepsRun (Pure.pure a : EngineRun α) := trivial

theorem throw (e : RuntimeException) : F.KeepsRun (Program.throw e : EngineRun α) := trivial

theorem ofExcept (r : Except RuntimeException α) :
    F.KeepsRun (Program.ofExcept r : EngineRun α) := within_ofExcept r

theorem callService (c : ServiceCall) : F.KeepsRun (OpenAgency.callService c) := by
  refine ⟨trivial, fun outcome _ => ?_⟩
  rcases outcome with - | ⟨result, left⟩
  · trivial
  · exact ofExcept result

/-- A run with its services replaced by what they do. -/
theorem flatten (hwaits : F.waits .approval) {p : EngineRun α} (h : F.KeepsRun p)
    (cfg : EngineConfig) : F.Keeps (p.flatten cfg) := by
  refine Program.Within.interp h fun o ho => ?_
  cases o with
  | runtime o => exact ⟨ho, fun r hr => hr⟩
  | service c limit =>
    exact (Program.Within.limit (keeps_service hwaits cfg c) limit).ensures

/-- A coroutine that is cut off performs no other operations. -/
theorem within {p : EngineRun α} (h : F.KeepsRun p) (n : ℕ) : F.KeepsRun (p.within n) := by
  induction p generalizing n with
  | done a =>
    rw [EngineRun.within]
    trivial
  | raise e =>
    rw [EngineRun.within]
    trivial
  | call o k ih =>
    cases o with
    | runtime o =>
      rcases n with - | n
      · rw [EngineRun.within]
        trivial
      · rw [EngineRun.within]
        exact ⟨h.1, fun r hr => ih r (h.2 r hr) n⟩
    | service c limit =>
      rw [EngineRun.within]
      refine ⟨trivial, fun outcome _ => ?_⟩
      rcases outcome with - | ⟨result, left⟩
      · trivial
      · exact ih _ (h.2 _ trivial) _

/-! ### The agent loop -/

section Task

variable {ctx : TaskContext}

theorem emit (eventType : ExecutionEventType) (id : Option Uuid) :
    F.KeepsRun (liftM (ctx.emit eventType id) : EngineRun ExecutionEvent) := lift (.emit _ _ _)

theorem emitCurrent (eventType : ExecutionEventType) (id : Option String) :
    F.KeepsRun (liftM (ctx.emitCurrent eventType id) : EngineRun ExecutionEvent) :=
  lift (.emit _ _ _)

theorem rejectedToolCall (tool : ToolDefinition) (callId : String) (decision : ApprovalDecision) :
    F.Keeps (OpenAgency.rejectedToolCall ctx tool callId decision) := by
  refine .bind (.emit _ _ _) fun _ => ?_
  rcases tool.approvalOnRejection with - | -
  · exact .bind (.emit _ _ _) fun _ => .pure _
  · exact .bind (.emit _ _ _) fun _ => .raise _ _

theorem runTool (tool : ToolDefinition) (callId : String) (arguments : Json) :
    F.Keeps (OpenAgency.runTool ctx tool callId arguments) := by
  refine .bind (.emit _ _ _) fun _ => ?_
  refine .rescue ?_ fun exc => ?_
  · refine .bind (.ask _) fun answer => .bind (.ofExcept answer) fun result => ?_
    refine .bind (.emit _ _ _) fun _ => ?_
    split
    · exact .pure result
    · exact .bind (.query trivial) fun _ => .bind (.emit _ _ _) fun _ => .pure result
  · exact .bind (.emit _ _ _) fun _ => within_ofExcept (.error _)

theorem toolApproval (tool : ToolDefinition) (arguments redacted : Json) :
    F.KeepsRun (OpenAgency.toolApproval ctx tool arguments redacted) :=
  .bind (lift (.state _ _)) fun _ => .bind (emitCurrent _ _) fun _ => callService _

theorem executeTool (callId : String) (call : ModelToolCall) :
    F.KeepsRun (OpenAgency.executeTool ctx callId call) := by
  refine .bind (ofExcept _) fun tool => .bind (ofExcept _) fun ⟨arguments, redacted⟩ => ?_
  dsimp only
  split
  · refine .bind (toolApproval _ _ _) fun decision => ?_
    split
    · exact lift (rejectedToolCall _ _ _)
    · exact .bind (emitCurrent _ _) fun _ => lift (runTool _ _ _)
  · exact lift (runTool _ _ _)

theorem persistApprovalContinuation (href : F.ref = some ctx.ref) (c : ApprovalContinuation) :
    F.Keeps (OpenAgency.persistApprovalContinuation ctx c) := by
  refine .bind (.state _ _) fun _ => .bind (.modifyObject (fun _ => ⟨rfl, rfl, rfl⟩) _) fun _ => ?_
  exact .saveObject href

/-- The object takes over the metadata of the row, which has the property too. -/
theorem mergeLifecycleFields (hx : ctx.executionId = F.executionId) :
    F.Keeps (OpenAgency.mergeLifecycleFields ctx) := by
  refine .getExecution (.pure ()) fun current _ hcurrent => ?_
  exact .process fun _ e hid _ => ⟨hid, hcurrent hx⟩

theorem executeToolCall (href : F.ref = some ctx.ref) (hx : ctx.executionId = F.executionId)
    (iteration : ℕ) (toolCalls : List ModelToolCall) (messages : List ModelMessage) (index : ℕ)
    (call : ModelToolCall) :
    F.KeepsRun (OpenAgency.executeToolCall ctx iteration toolCalls messages index call) := by
  unfold OpenAgency.executeToolCall
  dsimp only
  split
  · refine .bind (lift (persistApprovalContinuation href _)) fun _ => ?_
    refine .bind (executeTool _ _) fun result => .bind (lift (.modifyState _ _)) fun _ => ?_
    refine .bind (lift (mergeLifecycleFields hx)) fun _ => ?_
    exact .bind (lift (persistApprovalContinuation href _)) fun _ => pure _
  · exact .bind (executeTool _ _) fun result => .bind (lift (.modifyState _ _)) fun _ => pure _

theorem recordContextHealth (modelRequestId : Uuid) :
    F.Keeps (OpenAgency.recordContextHealth ctx modelRequestId) := by
  refine .bind (.emit _ _ _) fun _ => .getExecution (.pure ()) fun e hid he => ?_
  exact .updateExecution hid he ⟨rfl, rfl, rfl⟩

theorem enforceTokenBudgetAction (y : Uuid) (policy : Option TokenBudgetPolicy)
    (statuses : List TokenBudgetStatus) :
    F.Keeps (OpenAgency.enforceTokenBudgetAction y policy statuses) := by
  unfold OpenAgency.enforceTokenBudgetAction
  split
  · dsimp only
    split
    · exact .bind (.modifyState _ _) fun _ => .raise _ _
    · exact .raise _ _
    · exact .pure ()
    · exact .pure ()
  · exact .pure ()

/-- What the execution of a task consists of keeps the property. -/
theorem rules (href : F.ref = some ctx.ref) (hx : ctx.executionId = F.executionId) :
    TaskRules ctx (fun _ p => F.Keeps p) (fun _ p => F.KeepsRun p) where
  coroutine := ⟨.pure, fun e => .ofExcept (.error e), .bind⟩
  engine := ⟨pure, throw, bind⟩
  lift := lift
  attempt := Program.Within.attempt
  within := within
  emit _ _ := .emit _ _ _
  currentState := .state _ _
  object := .process trivial
  uuid4 := .uuid4
  recordContextHealth := recordContextHealth
  enforceTokenBudgetAction := enforceTokenBudgetAction _
  nodeError _ _ := .modifyState _ _
  generateText _ _ := .ask _
  timeoutAfter _ := .ask _
  service := callService
  toolCall := executeToolCall href hx

end Task

/-! ### The loop over the nodes -/

section Run

variable {run : RunContext}

theorem emitRun (eventType : ExecutionEventType) :
    F.Keeps (run.emit eventType) := .bind (.emit _ _ _) fun _ => .pure ()

theorem raiseIfCancelled : F.Keeps (OpenAgency.raiseIfCancelled run) := by
  refine .bind (.state _ _) fun st => ?_
  rcases st.cancelled with - | -
  · exact .pure ()
  · exact .raise _ _

theorem workflowRemaining : F.Keeps (OpenAgency.workflowRemaining run) := by
  unfold OpenAgency.workflowRemaining
  split
  · exact .pure none
  · refine .bind (.process trivial) fun e => .bind .utcNow fun now => ?_
    dsimp only
    split
    · exact .raise _ _
    · exact .pure _

theorem heartbeat (y : Uuid) (worker : String) : F.Keeps (OpenAgency.heartbeat y worker) := by
  refine .getExecution (.pure none) fun e hid he => ?_
  dsimp only
  split
  · exact .pure _
  · exact .bind .utcNow fun now => .bind (.updateExecution hid he ⟨rfl, rfl, rfl⟩) fun _ => .pure _

theorem requestWorkflowApproval : F.KeepsRun (OpenAgency.requestWorkflowApproval run) := by
  refine .bind (lift (.emit _ _ _)) fun event => .bind (callService _) fun decision => ?_
  dsimp only
  split
  · exact .bind (lift (emitRun _)) fun _ => lift (.raise _ _)
  · exact lift (emitRun _)

theorem completeNode (href : F.ref = some run.ref) (node : WorkflowNodeDefinition)
    (task : TaskDefinition) (output : Json) :
    F.Keeps (OpenAgency.completeNode run node task output) := by
  refine .bind (.state _ _) fun st => ?_
  dsimp only
  split
  all_goals
    refine .bind (.modifyState _ _) fun _ => .bind (.state _ _) fun st => ?_
    exact .bind (.modifyObject (fun _ => ⟨rfl, rfl, rfl⟩) _) fun _ => .saveObject href

theorem executeNode (href : F.ref = some run.ref) (hx : run.state.executionId = F.executionId)
    (loop : NodeLoop) (node : WorkflowNodeDefinition) (task : TaskDefinition)
    (agent : AgentDefinition) : F.KeepsRun (OpenAgency.executeNode run loop node task agent) := by
  refine .bind (lift (.modifyState _ _)) fun _ => .bind (ofExcept _) fun _ => ?_
  refine .bind (lift workflowRemaining) fun workflowTimeout => ?_
  -- the part after the handoff has been announced
  have htask : ∀ (ctx : TaskContext) (handoff : Bool), F.ref = some ctx.ref →
      ctx.executionId = F.executionId → F.KeepsRun (do
        let _ ← ctx.emit .taskStarted
        let output ← OpenAgency.taskOutput ctx node (taskOverrides run.workflow node task)
          workflowTimeout
        OpenAgency.raiseIfCancelled run
        OpenAgency.completeNode run node task output
        if handoff then
          let _ ← ctx.emit .handoffCompleted : EngineRun Unit) := by
    intro ctx handoff href' hx'
    refine .bind (emit _ _) fun _ => .bind ((rules href' hx').taskOutput _ _ _) fun output => ?_
    refine .bind (lift raiseIfCancelled) fun _ => .bind (lift (completeNode href _ _ _)) fun _ => ?_
    cases handoff with
    | true => exact .bind (emit _ _) fun _ => pure _
    | false => exact pure _
  dsimp only
  split
  · exact .bind (emit _ _) fun _ => htask _ true href hx
  · exact htask _ false href hx

theorem visitNode (href : F.ref = some run.ref) (hx : run.state.executionId = F.executionId)
    (retryTaskId : Option String) (loop : NodeLoop) (node : WorkflowNodeDefinition) :
    F.KeepsRun (OpenAgency.visitNode run retryTaskId loop node) := by
  refine .bind (lift raiseIfCancelled) fun _ => .bind (lift (.process trivial)) fun e => ?_
  rcases orElseString e.workerId none with - | worker
  on_goal 2 => refine .bind (lift (heartbeat _ _)) fun _ => ?_
  -- the part after the heartbeat
  all_goals
    dsimp only
    split
    · exact pure loop
    · refine .bind (lift (.state _ _)) fun st => ?_
      split
      · exact .bind (lift (emitRun _)) fun _ => pure loop
      · refine .bind (ofExcept _) fun task => ?_
        split
        · exact pure loop
        · refine .bind (ofExcept _) fun agent => ?_
          split
          · exact .bind (executeNode href hx _ _ _ _) fun _ => pure _
          · exact pure _

end Run

end KeepsRun

end CycleFrame

/-! ### The run up to the end of its loop -/

/-- `runWorkflow` without what follows the loop. -/
def runNodes (run : RunContext) : EngineRun Unit := do
  let e ← (run.object : Coroutine Execution)
  let retry := e.metadata.taskRetry
  let retryTaskId := orElseString (retry.bind (·.taskId)) none
  run.modifyState (planRun run.cfg run.workflow (retry.bind (·.priorNodeOutputs)))
  if run.workflow.approvalMode = some .beforeRun then requestWorkflowApproval run
  let loop ← (Planner.orderNodes run.workflow).foldlM (visitNode run retryTaskId)
    { retryStarted := retryTaskId.isNone }
  match retryTaskId with
  | some id =>
    if !loop.retryStarted then
      raise .workflowNotFound s!"Retry task '{id}' was not found in workflow '{run.workflow.id}'"
  | none => pure ()

theorem runWorkflow_eq (run : RunContext) :
    runWorkflow run = runNodes run >>= fun _ => (concludeRun run : Coroutine Unit) := by
  unfold runWorkflow runNodes
  simp only [Program.bind_assoc]
  congr 1
  funext e
  congr 1
  funext _
  generalize orElseString (e.metadata.taskRetry.bind (·.taskId)) none = retryTaskId
  split
  on_goal 1 =>
    rw [Program.bind_assoc]
    congr 1
    funext _
  all_goals
    rw [Program.bind_assoc]
    congr 1
    funext loop
    rcases retryTaskId with - | id
    · rfl
    · dsimp only
      split <;> rfl

namespace CycleFrame

variable {F : CycleFrame}

/-- **The node loop keeps the cycle record.** -/
theorem keepsRun_runNodes {run : RunContext} (href : F.ref = some run.ref)
    (hx : run.state.executionId = F.executionId) : F.KeepsRun (runNodes run) := by
  refine .bind (.lift (.process trivial)) fun e => .bind (.lift (.modifyState _ _)) fun _ => ?_
  dsimp only
  split
  on_goal 1 => refine .bind .requestWorkflowApproval fun _ => ?_
  -- the loop, and the check after it
  all_goals
    refine .bind (within_foldlM (fun loop node _ => ?_) _) fun loop => ?_
    · exact KeepsRun.visitNode href hx _ _ _
    · rcases orElseString (e.metadata.taskRetry.bind (·.taskId)) none with - | id
      · exact .pure ()
      · dsimp only
        split
        · exact .lift (.raise _ _)
        · exact .pure ()

end CycleFrame

end OpenAgency
