/-
Engine.lean

The native execution engine: `start_execution` with its node loop, retries,
timeouts and approvals, and the three lifecycle commands.

`start_execution` reads the execution once and works on that object to the end:
every checkpoint, status change and cycle boundary saves the whole object.  What
it raises inside its `try` ends in one of three handlers, each of which saves the
object again.  Graph context retrieval and the completion handler, which never
write an execution, are left out.
-/
import OpenAgency.PersistentCycle
import OpenAgency.Planner

namespace OpenAgency

open Interaction Program

/-! ### Starting a run -/

/-- A payload with completed nodes, which a run can continue from. -/
def resumablePayload (payload : Option OutputPayload) : Option OutputPayload :=
  payload.filter fun p => !p.nodeOutputs.isEmpty

/-- The state as a payload's checkpoint left it. -/
def restoreCheckpoint (payload : OutputPayload) (st : NativeExecutionState) :
    NativeExecutionState :=
  match payload.checkpoint with
  | none => { st with nodeOutputs := payload.nodeOutputs }
  | some c => { st with
      nodeOutputs := payload.nodeOutputs
      currentNodeId := c.currentNodeId
      currentTaskId := c.currentTaskId
      nodeOutcomes := c.nodeOutcomes
      nodeErrors := c.nodeErrors
      taskToolResults := c.taskToolResults
      plannedNodeIds := c.plannedNodeIds
      terminalNodeIds := c.terminalNodeIds }

/-- `_hydrate_resume_checkpoint`: from the execution's own payload, or from the
execution it resumes or replaces. -/
def hydrateResumeCheckpoint (run : RunContext) : Coroutine Unit := do
  let e ← run.object
  let st ← run.currentState
  if !st.nodeOutputs.isEmpty || e.metadata.taskRetry.isSome then return ()
  match resumablePayload e.outputPayload with
  | some payload => run.modifyState (restoreCheckpoint payload)
  | none =>
    match e.metadata.resumeFromExecutionId <|> e.replacementOfExecutionId with
    | none => return ()
    | some sourceId =>
      let source ← getExecution sourceId
      match resumablePayload (source.bind (·.outputPayload)) with
      | none => return ()
      | some payload => run.modifyState (restoreCheckpoint payload)

/-- The part of `start_execution` before its `try`. -/
def beginRun (cfg : EngineConfig) (e : Execution) (workflow : WorkflowDefinition) :
    Coroutine RunContext := do
  let st ← process (.state e.id workflow.id)
  process (.modifyState e.id fun st => { st with paused := false, cancelled := false })
  hydrateStatePosition st
  let ref ← process (.newObject e)
  let run : RunContext := {
    cfg := cfg
    state := st
    ref := ref
    workflow := workflow
    policy := e.metadata.persistentCyclePolicy }
  let cycleStarted ← markPersistentCycleStarted run
  run.modifyObject fun e => { e with status := .running }
  if e.startedAt.isNone then
    let now ← utcNow
    run.modifyObject fun e => { e with startedAt := some now }
  if (orElseString e.workerId none).isSome then
    let now ← utcNow
    run.modifyObject fun e => { e with lastHeartbeatAt := some now }
  saveObject ref
  hydrateResumeCheckpoint run
  run.emit .executionStarted
  if cycleStarted then run.emit .executionCycleStarted
  return run

/-! ### Approvals of workflows and tasks -/

/-- `_maybe_request_workflow_approval`. -/
def requestWorkflowApproval (run : RunContext) : EngineRun Unit := do
  let event ← OpenAgency.emit run.state .approvalRequested
  let described : List (String × Json) := [
    ("approval_type", .str "workflow"), ("workflow_id", .str run.workflow.id)]
  let payload : Json := .obj (described ++ [
    ("workflow_name", .str run.workflow.name),
    ("reason", .str "Workflow approval mode requires approval before execution.")])
  let decision ← callService (.requestApproval {
    manager := run.cfg.approvalManager
    executionId := run.state.executionId
    toolId := s!"workflow:{run.workflow.id}"
    payload := payload
    persistedPayload := payload
    eventId := some event.id
    approvalMetadata := .obj
      (described ++ [("approval_event_id", .str (toString event.id))]) })
  if !decision.granted then
    run.emit .approvalRejected
    let rejected := s!"Workflow '{run.workflow.id}' approval was rejected."
    raise .executionPaused ((orElseString decision.reason none).getD rejected)
  run.emit .approvalGranted

/-- `_maybe_request_task_approval` where an approval is required. -/
def requestTaskApproval (ctx : TaskContext) (reason : Option String) : EngineRun Unit := do
  let event ← ctx.emit .approvalRequested
  let payload : Json := .obj [
    ("approval_type", .str "task"),
    ("workflow_id", .str ctx.workflow.id),
    ("task_id", .str ctx.task.id),
    ("task_name", .str ctx.task.name),
    ("reason", reason.elim .null .str)]
  let decision ← callService (.requestApproval {
    manager := ctx.cfg.approvalManager
    executionId := ctx.executionId
    toolId := s!"task:{ctx.task.id}"
    payload := payload
    persistedPayload := payload
    eventId := some event.id
    approvalMetadata := .obj [
      ("approval_type", .str "task"),
      ("approval_event_id", .str (toString event.id)),
      ("workflow_id", .str ctx.workflow.id),
      ("agent_id", .str ctx.agent.id),
      ("task_id", .str ctx.task.id)] })
  if !decision.granted then
    let _ ← ctx.emit .approvalRejected
    let rejected := s!"Task '{ctx.task.id}' approval was rejected."
    raise .approvalRequired ((orElseString decision.reason none).getD rejected)
  let _ ← ctx.emit .approvalGranted
  return ()

/-! ### One task -/

/-- The timeout of an attempt, and whether it is the workflow's. -/
def effectiveTimeout : Option Time → Option Time → Option Time × Bool
  | some task, some workflow => (some (min task workflow), workflow ≤ task)
  | some task, none => (some task, false)
  | none, workflow => (workflow, workflow.isSome)

/-- One attempt at a task. -/
def attemptTask (ctx : TaskContext) (timeout : Option Time) : EngineRun Json := do
  let _ ← ctx.emit .agentStepStarted
  let output ← match timeout with
    | none => executeTask ctx
    | some t => do
      match ← (ask (.timeoutAfter t) : Coroutine (Option ℕ)) with
      | none => executeTask ctx
      | some n => (executeTask ctx).within n
  let _ ← ctx.emit .agentStepCompleted
  return output

/-- What a failed attempt raises in the end: a timeout without a text gets one. -/
def attemptError (workflowTimedOut : Bool) (exc : RuntimeException) : RuntimeException :=
  if exc.cls = .timeoutError && exc.message = "" then
    ⟨.timeoutError,
      if workflowTimedOut then "Workflow max runtime exceeded." else "Task execution timed out."⟩
  else exc

/-- `_execute_task_with_runtime_overrides` from attempt `attempt` on.  `remaining`
bounds the attempts that can follow it: the retries, and one more that a failure
approval buys. -/
def executeTaskWithRuntimeOverrides (ctx : TaskContext) (o : TaskOverrides)
    (workflowTimeout : Option Time) : ℕ → ℕ → Bool → EngineRun Json
  | remaining, attempt, approvalUsed => do
    let timeout := effectiveTimeout (o.timeoutSeconds.map seconds) workflowTimeout
    match ← (attemptTask ctx timeout.1).attempt with
    | .ok output => return output
    | .error exc =>
      if exc.cls.isExecutionPaused || exc.cls = .executionCancelled then throw exc
      let workflowTimedOut := exc.cls = .timeoutError && timeout.2
      let hasRetry := decide (attempt < o.maxRetries + 1) && !workflowTimedOut
      let asks := !hasRetry && !workflowTimedOut && o.approvalPolicy = .onFailure &&
        !approvalUsed
      if asks then
        requestTaskApproval ctx (some s!"Task failed with {exc.cls.name}: {exc.message}")
      let _ ← ctx.emit .agentStepFailed
      match remaining with
      | 0 => throw (attemptError workflowTimedOut exc)
      | remaining + 1 =>
        if hasRetry || asks then
          executeTaskWithRuntimeOverrides ctx o workflowTimeout remaining (attempt + 1)
            (approvalUsed || asks)
        else throw (attemptError workflowTimedOut exc)

/-! ### The node loop -/

/-- `_workflow_remaining_seconds`, in microseconds. -/
def workflowRemaining (run : RunContext) : Coroutine (Option Time) := do
  match run.workflow.maxRuntimeSeconds.filter (0 < ·) with
  | none => return none
  | some n =>
    let e ← run.object
    let now ← utcNow
    let deadline := e.startedAt.getD e.createdAt + seconds n
    if deadline ≤ now then raise .timeoutError s!"Workflow max runtime of {n} seconds exceeded."
    return some (deadline - now)

/-- `_raise_if_cancelled`. -/
def raiseIfCancelled (run : RunContext) : Coroutine Unit := do
  let st ← run.currentState
  if st.cancelled then raise .executionCancelled "Execution was cancelled"

/-- What the loop carries from one node to the next. -/
structure NodeLoop where
  retryStarted : Bool
  previousNodeId : Option String := none

/-- `_handoff_edge_between` the previous node and this one exists. -/
def isHandoff (workflow : WorkflowDefinition) (loop : NodeLoop) (nodeId : String) : Bool :=
  workflow.edges.any fun edge =>
    some edge.sourceNodeId = loop.previousNodeId && edge.targetNodeId = nodeId &&
      edge.edgeType = .handoff

/-- The output of a task that failed with an exception. -/
def failedOutput (exc : RuntimeException) : Json :=
  .obj [
    ("status", .str "failed"),
    ("error", .str exc.message),
    ("error_type", .str exc.cls.name),
    ("approval_rejected", .bool (exc.cls = .approvalRequired))]

/-- The output that replaces one whose required tools have not run. -/
def missingToolOutput (message : String) : Json :=
  .obj [
    ("status", .str "failed"),
    ("error", .str message),
    ("error_type", .str "RequiredToolResultError")]

/-- The `try` around a task: an exception becomes an output where a failure edge
leaves the node. -/
def taskOutput (ctx : TaskContext) (node : WorkflowNodeDefinition) (o : TaskOverrides)
    (workflowTimeout : Option Time) : EngineRun Json := do
  let body : EngineRun Json := do
    if o.approvalPolicy = .required then requestTaskApproval ctx none
    executeTaskWithRuntimeOverrides ctx o workflowTimeout (o.maxRetries + 1) 1 false
  body.rescue fun exc => do
    if exc.cls.isExecutionPaused || exc.cls = .executionCancelled then throw exc
    if !ctx.workflow.edges.any fun e => e.sourceNodeId = node.id && e.edgeType = .failure then
      throw exc
    ctx.modifyState fun st => { st with nodeErrors := st.nodeErrors.set node.id exc.message }
    return failedOutput exc

/-- The state with a node's output, outcome and error. -/
def recordNodeOutput (cfg : EngineConfig) (nodeId : String) (output : Json)
    (st : NativeExecutionState) : NativeExecutionState :=
  { st with
    nodeOutputs := st.nodeOutputs.set nodeId output
    nodeOutcomes := st.nodeOutcomes.set nodeId (nodeOutcome cfg output)
    nodeErrors :=
      if nodeOutcome cfg output = .failure && (st.nodeErrors.get? nodeId).isNone then
        st.nodeErrors.set nodeId (nodeFailureMessage cfg output)
      else st.nodeErrors }

/-- Record a node's output and save the checkpoint. -/
def completeNode (run : RunContext) (node : WorkflowNodeDefinition) (task : TaskDefinition)
    (output : Json) : Coroutine Unit := do
  let st ← run.currentState
  let missing :=
    if nodeOutcome run.cfg output = .success then
      requiredToolResultError run.cfg task ((st.taskToolResults.get? task.id).getD [])
    else none
  match missing with
  | none => run.modifyState (recordNodeOutput run.cfg node.id output)
  | some message =>
    run.modifyState fun st => recordNodeOutput run.cfg node.id (missingToolOutput message)
      { st with nodeErrors := st.nodeErrors.set node.id message }
  let st ← run.currentState
  run.modifyObject fun e => { e with outputPayload := some (executionCheckpointPayload st none) }
  saveObject run.ref

/-- Execute the task of a node. -/
def executeNode (run : RunContext) (loop : NodeLoop) (node : WorkflowNodeDefinition)
    (task : TaskDefinition) (agent : AgentDefinition) : EngineRun Unit := do
  run.modifyState fun st => { st with
    currentNodeId := some node.id
    currentAgentId := some agent.id
    currentTaskId := some task.id }
  ofExcept (resolveProfile run.cfg agent task)
  let workflowTimeout ← workflowRemaining run
  let ctx : TaskContext := {
    cfg := run.cfg
    state := run.state
    ref := run.ref
    workflow := run.workflow
    task := task
    agent := agent }
  let handoff := isHandoff run.workflow loop node.id
  if handoff then
    let _ ← ctx.emit .handoffRequested
  let _ ← ctx.emit .taskStarted
  let output ← taskOutput ctx node (taskOverrides run.workflow node task) workflowTimeout
  raiseIfCancelled run
  completeNode run node task output
  if handoff then
    let _ ← ctx.emit .handoffCompleted

/-- One turn of the loop over the ordered nodes. -/
def visitNode (run : RunContext) (retryTaskId : Option String) (loop : NodeLoop)
    (node : WorkflowNodeDefinition) : EngineRun NodeLoop := do
  raiseIfCancelled run
  let e ← (run.object : Coroutine Execution)
  match orElseString e.workerId none with
  | none => pure ()
  | some worker =>
    let _ ← (heartbeat e.id worker : Coroutine (Option Execution))
  if node.nodeType ≠ .task && node.nodeType ≠ .approval then return loop
  let st ← (run.currentState : Coroutine NativeExecutionState)
  if !nodeIsReachable run.cfg run.workflow st node then
    run.emit .routingDecisionRecorded
    return loop
  let task ← ofExcept (resolveTask run.workflow node.taskId)
  if !loop.retryStarted && some task.id ≠ retryTaskId then return loop
  let agent ← ofExcept (resolveAgent run.workflow (orElseString node.agentId task.agentId))
  if (st.nodeOutputs.get? node.id).isNone then executeNode run loop node task agent
  return { retryStarted := true, previousNodeId := some node.id }

/-- The state when the loop starts: its plan, and outcomes for the outputs it has. -/
def planRun (cfg : EngineConfig) (workflow : WorkflowDefinition) (prior : Option (Dict Json))
    (st : NativeExecutionState) : NativeExecutionState :=
  let ordered := Planner.orderNodes workflow
  let nodeOutputs := prior.getD st.nodeOutputs
  { st with
    plannedNodeIds := ordered.map (·.id)
    terminalNodeIds := Planner.terminalExecutableNodeIds workflow ordered
    nodeOutputs := nodeOutputs
    nodeOutcomes := nodeOutputs.foldl (fun outcomes (id, output) =>
      if (outcomes.get? id).isSome then outcomes else outcomes.set id (nodeOutcome cfg output))
      st.nodeOutcomes }

/-! ### Ending a run -/

/-- The object takes its final status and is saved. -/
def completeRun (run : RunContext) : Coroutine Unit := do
  let now ← utcNow
  run.modifyObject fun e => { e with status := .completed, completedAt := some now }
  saveObject run.ref
  run.emit .executionCompleted

/-- The run fails with `error`, its checkpoint as it is in the object. -/
def failRun (run : RunContext) (error : String) : Coroutine Unit := do
  let now ← utcNow
  run.modifyObject fun e => { e with
    status := .failed
    error := some error
    completedAt := some now }
  saveObject run.ref
  run.emit .executionFailed

/-- What follows the node loop. -/
def concludeRun (run : RunContext) : Coroutine Unit := do
  let st ← run.currentState
  let cycleOutput : CycleOutput := {
    nodeOutputs := st.nodeOutputs
    finalOutput := finalOutput st.nodeOutputs }
  run.modifyObject fun e => { e with outputPayload := some { toCycleOutput := cycleOutput } }
  if ← handlePersistentCycleSuccess run cycleOutput then return ()
  let st ← run.currentState
  match st.nodeErrors with
  | [] => completeRun run
  | (_, error) :: _ =>
    if run.policy.enabled then handlePersistentCycleFailure run error
    else failRun run error

/-- The part of `start_execution` inside its `try`. -/
def runWorkflow (run : RunContext) : EngineRun Unit := do
  let e ← (run.object : Coroutine Execution)
  let retry := e.metadata.taskRetry
  let retryTaskId := orElseString (retry.bind (·.taskId)) none
  run.modifyState (planRun run.cfg run.workflow (retry.bind (·.priorNodeOutputs)))
  if run.workflow.approvalMode = some .beforeRun then requestWorkflowApproval run
  let loop ← (Planner.orderNodes run.workflow).foldlM (visitNode run retryTaskId)
    { retryStarted := retryTaskId.isNone }
  match retryTaskId with
  | some id =>
    if !loop.retryStarted then
      raise .workflowNotFound s!"Retry task '{id}' was not found in workflow '{run.workflow.id}'"
  | none => pure ()
  concludeRun run

/-- `except ExecutionPausedError`: a durable wait that the row holds is kept. -/
def handlePaused (run : RunContext) : Coroutine Unit := do
  let x := run.state.executionId
  let st ← run.currentState
  match ← getExecution x with
  | none =>
    run.modifyObject fun e => { e with
      status := .paused
      outputPayload := some (executionCheckpointPayload st e.outputPayload) }
  | some current =>
    let payload := some (executionCheckpointPayload st current.outputPayload)
    if current.status.isDurableWait then
      run.modifyObject fun e => { e with
        status := current.status
        metadata := current.metadata
        inputPayload := current.inputPayload
        outputPayload := payload }
    else run.modifyObject fun e => { e with status := .paused, outputPayload := payload }
  saveObject run.ref
  let e ← run.object
  if e.status = .waitingForApproval && e.metadata.activeWait.isSome then
    run.emit .executionWaiting
  run.emit .executionPaused

/-- `except ExecutionCancelledError`. -/
def handleCancelled (run : RunContext) : Coroutine Unit := do
  let st ← run.currentState
  let now ← utcNow
  run.modifyObject fun e => { e with
    status := .cancelled
    outputPayload := some (executionCheckpointPayload st none)
    completedAt := some now }
  saveObject run.ref
  run.emit .executionCancelled

/-- The handlers of `start_execution`. -/
def handleException (run : RunContext) (exc : RuntimeException) : Coroutine Unit := do
  if exc.cls.isExecutionPaused then handlePaused run
  else if exc.cls = .executionCancelled then handleCancelled run
  else if run.policy.enabled then handlePersistentCycleFailure run exc.message
  else
    let st ← run.currentState
    run.modifyObject fun e => { e with outputPayload := some (executionCheckpointPayload st none) }
    failRun run exc.message

/-- `start_execution`. -/
def startExecution (cfg : EngineConfig) (executionId : Uuid) : EngineRun Execution := do
  match ← (getExecution executionId : Coroutine (Option Execution)) with
  | none => raise .executionNotFound s!"Execution '{executionId}' was not found"
  | some e =>
    ofExcept (rejectTerminalExecutionReplay e)
    match cfg.workflow e.workflowId with
    | none => raise .workflowNotFound s!"Workflow '{e.workflowId}' was not found"
    | some workflow =>
      let run ← (beginRun cfg e workflow : Coroutine RunContext)
      (runWorkflow run).rescue fun exc => (handleException run exc : Coroutine Unit)
      run.object

/-! ### Lifecycle commands -/

/-- `_require_execution_and_state`. -/
def requireExecutionAndState (executionId : Uuid) :
    Coroutine (Execution × NativeExecutionState) := do
  match ← getExecution executionId with
  | none => raise .executionNotFound s!"Execution '{executionId}' was not found"
  | some e =>
    let st ← process (.state executionId e.workflowId)
    hydrateStatePosition st
    return (e, st)

/-- `pause_execution`. -/
def pauseExecution (executionId : Uuid) : Coroutine Execution := do
  let (e, st) ← requireExecutionAndState executionId
  process (.modifyState executionId fun st => { st with paused := true })
  let paused := { e with status := if e.status.isDurableWait then e.status else .paused }
  updateExecution paused
  let _ ← emit st .executionPaused
  return paused

/-- `resume_execution`. -/
def resumeExecution (executionId : Uuid) : Coroutine Execution := do
  let (e, st) ← requireExecutionAndState executionId
  ofExcept (rejectTerminalExecutionReplay e)
  process (.modifyState executionId fun st => { st with paused := false })
  let queued := { e with status := .queued }
  updateExecution queued
  let _ ← emit st .executionResumed
  return queued

/-- `cancel_execution`. -/
def cancelExecution (executionId : Uuid) : Coroutine Execution := do
  let (e, st) ← requireExecutionAndState executionId
  let cancelState := process (.modifyState executionId fun st => { st with cancelled := true })
  match e.status with
  | .cancelled =>
    cancelState
    return e
  | .completed | .failed => return e
  | .running =>
    cancelState
    let now ← utcNow
    let cancelling := { e with
      status := .cancelling
      metadata.cancellation := some { requestedAt := now, mode := .cooperative } }
    updateExecution cancelling
    return cancelling
  | _ =>
    cancelState
    let requestedAt ← utcNow
    let now ← utcNow
    let cancelled := { e with
      status := .cancelled
      completedAt := some now
      metadata.cancellation := some { requestedAt := requestedAt, mode := .immediate } }
    updateExecution cancelled
    let _ ← emit st .executionCancelled
    return cancelled

/-! ### What the commands need -/

section Wp

variable {env : Environment} {w : World} {x : Uuid} {e : Execution}

/-- `_require_execution_and_state` changes no record. -/
theorem wp_requireExecutionAndState (h : w.db.executions.get x = some e)
    {Q : Execution × NativeExecutionState → World → Prop} {E : RuntimeException → World → Prop}
    (hQ : ∀ st w', st.executionId = x → SameRecords w w' → Q (e, st) w') :
    (requireExecutionAndState x).wp (handler env) Q E w := by
  rw [requireExecutionAndState, wp_getExecution, h]
  show wp _ _ _ (process (.state x e.workflowId) >>= _) w
  rw [wp_state, wp_bind]
  apply wp_hydrateStatePosition
  intro w' hw'
  apply wp_of_done
  exact hQ _ w' (ProcOp.executionId_setdefault _ _ _) ⟨hw'.1, hw'.2, hw'.3⟩

end Wp

end OpenAgency
