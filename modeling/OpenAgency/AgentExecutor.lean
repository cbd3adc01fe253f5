/-
AgentExecutor.lean

The tool executor and the agent loop.  An agent asks its model, records the usage
of the answer, executes the tool calls the answer contains and asks again, until
an answer has none.  Before a gated call the transcript is stored on the engine's
`Execution` object and the object is saved, so that a later attempt continues at
that call; after it the object takes over what the approval changed in the row.

The engine's objects are referred to by number (`ref`): what the loop does to its
object outlives an exception.  Graph context, context compaction and model
fallbacks are not configured and left out, as are tool invocation records, which
nothing reads.
-/
import OpenAgency.Services

namespace OpenAgency

open Interaction

/-- What the agent loop is executing. -/
structure TaskContext where
  cfg : EngineConfig
  /-- The engine's state of the execution; only its identifiers are used. -/
  state : NativeExecutionState
  /-- The engine's `Execution` object. -/
  ref : ℕ
  workflow : WorkflowDefinition
  task : TaskDefinition
  agent : AgentDefinition

namespace TaskContext

def executionId (ctx : TaskContext) : Uuid := ctx.state.executionId

/-- The engine's state as it is now. -/
def currentState (ctx : TaskContext) : Coroutine NativeExecutionState :=
  process (.state ctx.state.executionId ctx.state.workflowId)

def modifyState (ctx : TaskContext) (f : NativeExecutionState → NativeExecutionState) :
    Coroutine Unit := process (.modifyState ctx.executionId f)

/-- An event on behalf of the task's agent. -/
def emit (ctx : TaskContext) (eventType : ExecutionEventType)
    (modelRequestId : Option Uuid := none) : Coroutine ExecutionEvent :=
  OpenAgency.emit ctx.state eventType
    { agentId := some ctx.agent.id, taskId := some ctx.task.id, modelRequestId := modelRequestId }

/-- An event on behalf of whoever the state says is current. -/
def emitCurrent (ctx : TaskContext) (eventType : ExecutionEventType)
    (toolCallId : Option String := none) : Coroutine ExecutionEvent :=
  OpenAgency.emit ctx.state eventType { toolCallId := toolCallId }

end TaskContext

/-- Save the engine's object. -/
def saveObject (ref : ℕ) : Coroutine Unit := do
  let e ← process (.object ref)
  updateExecution e

/-! ### Tool calls -/

/-- `available_tools`. -/
def availableTools (cfg : EngineConfig) (workflow : WorkflowDefinition) : List ToolDefinition :=
  composeTools cfg.builtinTools (cfg.catalogTools workflow.id) workflow

/-- `resolve_tool`: the first tool that answers to the call's id or name. -/
def resolveTool (cfg : EngineConfig) (workflow : WorkflowDefinition) (toolId : String)
    (toolName : Option String) : Except RuntimeException ToolDefinition :=
  match findTool toolId toolName [] (availableTools cfg workflow) with
  | some tool => .ok tool
  | none =>
    let asked := (orElseString (some toolId) toolName).getD "None"
    .error ⟨.toolExecution, s!"Tool '{asked}' not found"⟩

/-- What a rejected approval does to the call: it is skipped, or it fails. -/
def rejectedToolCall (ctx : TaskContext) (tool : ToolDefinition) (callId : String)
    (decision : ApprovalDecision) : Coroutine Json := do
  let _ ← ctx.emitCurrent .approvalRejected
  match tool.approvalOnRejection with
  | .skip =>
    let _ ← ctx.emitCurrent .toolCallCompleted (some callId)
    let reason := (orElseString decision.reason (some "Approval rejected")).getD ""
    return .obj [("skipped", .bool true), ("reason", .str reason)]
  | .fail =>
    let reason := match orElseString decision.reason none with
      | some text => s!": {text}"
      | none => s!" for tool '{tool.id}'"
    let _ ← ctx.emitCurrent .toolCallFailed (some callId)
    raise .approvalRequired s!"Approval rejected{reason}"

/-- The tool itself runs, and what it returns is recorded. -/
def runTool (ctx : TaskContext) (tool : ToolDefinition) (callId : String) (arguments : Json) :
    Coroutine Json := do
  let _ ← ctx.emitCurrent .toolCallStarted (some callId)
  let body : Coroutine Json := do
    let result ← Program.ofExcept (← ask (.executeTool tool.id arguments))
    let _ ← ctx.emitCurrent .toolCallCompleted (some callId)
    match orElseString ((result.get? "artifact_uri").bind Json.asStr?) none with
    | none => return result
    | some _ =>
      query (.saveArtifact { executionId := ctx.executionId, name := tool.name })
      let _ ← ctx.emitCurrent .artifactCreated
      return result
  body.rescue fun exc => do
    let _ ← ctx.emitCurrent .toolCallFailed (some callId)
    Program.throw { exc with cls := .toolExecution }

/-- The approval a gated call needs. -/
def toolApproval (ctx : TaskContext) (tool : ToolDefinition) (arguments redacted : Json) :
    EngineRun ApprovalDecision := do
  let st ← (ctx.currentState : Coroutine NativeExecutionState)
  let event ← ctx.emitCurrent .approvalRequested
  callService (.requestApproval {
    manager := ctx.cfg.approvalManager
    executionId := ctx.executionId
    toolId := tool.id
    payload := arguments
    persistedPayload := redacted
    eventId := some event.id
    approvalMetadata := .obj (ctx.cfg.approvalMetadata ctx.workflow tool st arguments ++
      [("approval_event_id", .str (toString event.id))]) })

/-- `ToolExecutor.execute`. -/
def executeTool (ctx : TaskContext) (callId : String) (call : ModelToolCall) : EngineRun Json := do
  let tool ← Program.ofExcept (resolveTool ctx.cfg ctx.workflow callId (some call.name))
  let (arguments, redacted) ←
    Program.ofExcept (ctx.cfg.admitToolCall ctx.workflow tool call.arguments)
  if tool.approvalRequired then
    let decision ← toolApproval ctx tool arguments redacted
    if !decision.granted then return ← rejectedToolCall ctx tool callId decision
    let _ ← ctx.emitCurrent .approvalGranted
  runTool ctx tool callId arguments

/-! ### The transcript kept across an approval -/

/-- `_approval_continuation`. -/
def approvalContinuation (e : Execution) (task : TaskDefinition) : Option ApprovalContinuation :=
  ((e.outputPayload.bind (·.checkpoint)).bind (·.approvalContinuation)).filter
    fun c => c.taskId = task.id

/-- The engine's position, as every checkpoint stores it. -/
def positionCheckpoint (st : NativeExecutionState) : Checkpoint where
  currentNodeId := st.currentNodeId
  currentTaskId := st.currentTaskId
  completedNodeIds := st.nodeOutputs.map Prod.fst
  nodeOutcomes := st.nodeOutcomes
  nodeErrors := st.nodeErrors
  taskToolResults := st.taskToolResults
  plannedNodeIds := st.plannedNodeIds
  terminalNodeIds := st.terminalNodeIds

/-- `_persist_approval_continuation`: the object is saved as it is, with the
transcript in its checkpoint. -/
def persistApprovalContinuation (ctx : TaskContext) (continuation : ApprovalContinuation) :
    Coroutine Unit := do
  let st ← ctx.currentState
  process (.modifyObject ctx.ref fun e =>
    { e with outputPayload := some { (e.outputPayload.getD { finalOutputSet := false }) with
        nodeOutputs := st.nodeOutputs
        checkpoint := some { positionCheckpoint st with
          approvalContinuation := some continuation } } })
  saveObject ctx.ref

/-- After a gated call the object takes over the fields an approval changes. -/
def mergeLifecycleFields (ctx : TaskContext) : Coroutine Unit := do
  match ← getExecution ctx.executionId with
  | none => return ()
  | some current =>
    process (.modifyObject ctx.ref fun e => { e with
      metadata := current.metadata
      inputPayload := current.inputPayload
      status := current.status
      workerId := current.workerId
      lastHeartbeatAt := current.lastHeartbeatAt })

/-! ### The agent loop -/

/-- One call of `_execute_tool_calls`, at position `index` of the calls. -/
def executeToolCall (ctx : TaskContext) (iteration : ℕ) (toolCalls : List ModelToolCall)
    (messages : List ModelMessage) (index : ℕ) (call : ModelToolCall) :
    EngineRun (List ModelMessage) := do
  let resolved := (resolveTool ctx.cfg ctx.workflow call.id (some call.name)).toOption
  let gated := resolved.any (·.approvalRequired)
  let continuation (messages : List ModelMessage) (index : ℕ) (persisted : Bool) :
      ApprovalContinuation := {
    taskId := ctx.task.id
    agentId := ctx.agent.id
    iteration := iteration
    pendingToolIndex := index
    pendingContextPersisted := persisted
    messages := messages
    toolCalls := toolCalls }
  if gated then
    -- resume starts at this call instead of replaying the ones before it
    persistApprovalContinuation ctx (continuation messages index true)
  let result ← executeTool ctx call.id call
  ctx.modifyState fun st => { st with
    taskToolResults := st.taskToolResults.set ctx.task.id
      ((st.taskToolResults.get? ctx.task.id).getD [] ++
        [{ toolId := (resolved.map (·.id)).getD call.name, result := result }]) }
  let messages := messages ++
    [{ role := "tool", content := result, name := some call.name, toolCallId := some call.id }]
  if gated then
    mergeLifecycleFields ctx
    persistApprovalContinuation ctx (continuation messages (index + 1) false)
  return messages

/-- `_execute_tool_calls` from position `index`, for the calls that remain. -/
def executeToolCalls (ctx : TaskContext) (iteration : ℕ) (toolCalls : List ModelToolCall) :
    List ModelMessage → ℕ → List ModelToolCall → EngineRun (List ModelMessage)
  | messages, _, [] => return messages
  | messages, index, call :: rest => do
    let messages ← executeToolCall ctx iteration toolCalls messages index call
    executeToolCalls ctx iteration toolCalls messages (index + 1) rest

/-- `_assert_not_interrupted`. -/
def assertNotInterrupted (ctx : TaskContext) : Coroutine Unit := do
  let st ← ctx.currentState
  if st.cancelled then raise .executionCancelled "Execution was cancelled"
  if st.paused then raise .executionPaused "Execution is paused"

/-- `_record_context_health`: the snapshot goes into a copy it has just read. -/
def recordContextHealth (ctx : TaskContext) (modelRequestId : Uuid) : Coroutine Unit := do
  let _ ← ctx.emit .contextHealthRecorded (some modelRequestId)
  match ← getExecution ctx.executionId with
  | none => return ()
  | some e => updateExecution e

/-- Ask the model, record what the answer used and enforce the token budget. -/
def modelTurn (ctx : TaskContext) (policy : Option TokenBudgetPolicy) (modelRequestId : Uuid)
    (messages : List ModelMessage) (withTools : Bool) : EngineRun ModelResponse := do
  let _ ← ctx.emit .llmRequestCreated (some modelRequestId)
  let answer ← (ask (.generateText ctx.agent.id messages withTools) : Coroutine _)
  let response ← Program.ofExcept answer
  let _ ← ctx.emit .llmResponseCreated (some modelRequestId)
  let tokenEvent ← ctx.emit .tokenUsageRecorded (some modelRequestId)
  let statuses ← callService (.recordTokenUsage ctx.executionId {
    usage := response.usage
    policy := policy
    agentId := some ctx.agent.id
    taskId := some ctx.task.id
    modelRequestId := some modelRequestId
    eventId := some tokenEvent.id })
  (statuses.forM fun s => do
    let _ ← ctx.emit (if s.status = .exceeded then .tokenBudgetExceeded else .tokenBudgetWarning)
      (some modelRequestId)
    return () : Coroutine Unit)
  enforceTokenBudgetAction ctx.executionId policy statuses
  return response

/-- What the loop carries from one iteration to the next. -/
structure LoopState where
  messages : List ModelMessage
  structuredOutputRepair : Bool := false
  finalizationGrace : Bool := false
  finalizationPromptAdded : Bool := false

/-- What an iteration does with the tool calls of an answer. -/
def toolTurn (ctx : TaskContext) (iteration : ℕ) (s : LoopState) (response : ModelResponse) :
    EngineRun LoopState := do
  if s.finalizationGrace then
    raise .maxIterationsReached s!"Max iterations reached for task '{ctx.task.id}'"
  let calls ← (response.toolCalls.mapM fun (id, name, arguments) => do
    match orElseString id none with
    | some id => return { id := id, name := name, arguments := arguments }
    | none =>
      let fresh ← uuid4
      return { id := s!"tool-call-{fresh}", name := name, arguments := arguments } :
    Coroutine (List ModelToolCall))
  let messages := s.messages ++ [{
    role := "assistant"
    content := response.content.getD .null
    name := some ctx.agent.name
    toolCalls := calls }]
  if response.content.isSome then
    let _ ← ctx.emit .agentMessageCreated
  let messages ← executeToolCalls ctx iteration calls messages 0 calls
  return { s with
    messages := messages
    finalizationGrace :=
      s.finalizationGrace || (ctx.agent.maxIterations ≤ iteration && !s.structuredOutputRepair) }

/-- What an iteration does with an answer without tool calls: the task's output, or
one more turn to repair it. -/
def outputTurn (ctx : TaskContext) (s : LoopState) (response : ModelResponse) :
    EngineRun (Json ⊕ LoopState) := do
  let messages := match response.content with
    | some content =>
      s.messages ++ [{ role := "assistant", content := content, name := some ctx.agent.name }]
    | none => s.messages
  if response.content.isSome then
    let _ ← ctx.emit .agentMessageCreated
  match ctx.cfg.structuredOutput ctx.task response.content with
  | .ok output => return .inl output
  | .error exc =>
    if s.structuredOutputRepair then Program.throw exc
    return .inr { s with
      messages := messages ++
        [{ role := "user", content := .str (ctx.cfg.repairMessage ctx.task exc) }]
      structuredOutputRepair := true }

/-- The iterations of `execute_task` that remain. -/
def agentLoop (ctx : TaskContext) (policy : Option TokenBudgetPolicy) :
    ℕ → ℕ → LoopState → EngineRun Json
  | 0, _, _ =>
    raise .maxIterationsReached s!"Max iterations reached for task '{ctx.task.id}'"
  | remaining + 1, iteration, s => do
    if ctx.agent.maxIterations < iteration && !s.structuredOutputRepair &&
        !s.finalizationGrace then
      raise .maxIterationsReached s!"Max iterations reached for task '{ctx.task.id}'"
    assertNotInterrupted ctx
    let modelRequestId ← (uuid4 : Coroutine Uuid)
    recordContextHealth ctx modelRequestId
    let s :=
      if s.finalizationGrace && !s.finalizationPromptAdded then
        { s with
          messages := s.messages ++ [{
            role := "user"
            content := .str ("The tool budget is exhausted. Write the final structured " ++
              "output now; do not call any tools.") }]
          finalizationPromptAdded := true }
      else s
    let response ← modelTurn ctx policy modelRequestId s.messages
      !(s.structuredOutputRepair || s.finalizationGrace)
    if response.toolCalls ≠ [] then
      let s ← toolTurn ctx iteration s response
      agentLoop ctx policy remaining (iteration + 1) s
    else
      match ← outputTurn ctx s response with
      | .inl output => return output
      | .inr s => agentLoop ctx policy remaining (iteration + 1) s

/-- `execute_task`: a stored transcript of this task is continued at its pending
call, otherwise the agent starts afresh. -/
def executeTask (ctx : TaskContext) : EngineRun Json := do
  let e ← (process (.object ctx.ref) : Coroutine Execution)
  let st ← (ctx.currentState : Coroutine NativeExecutionState)
  let policy := ctx.cfg.tokenBudgetPolicy ctx.workflow ctx.agent ctx.task e
  let limit := ctx.agent.maxIterations + 2
  match approvalContinuation e ctx.task with
  | none =>
    let messages := ctx.cfg.buildMessages ctx.workflow ctx.task ctx.agent e st
    agentLoop ctx policy (limit - 1) 1 { messages := messages }
  | some c =>
    let iteration := max 1 c.iteration
    let messages ← executeToolCalls ctx iteration c.toolCalls c.messages c.pendingToolIndex
      (c.toolCalls.drop c.pendingToolIndex)
    agentLoop ctx policy (limit - (iteration + 1)) (iteration + 1) { messages := messages }

end OpenAgency
