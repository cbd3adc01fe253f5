/-
SubAgentCallbacks.lean

`SubAgentCallbackService`: how a sub-agent reports progress, results and questions.  A
callback appends an event to the log of its execution, creates a durable wait where it asks
for something, rebuilds the checkpoint of its step in the metadata of the execution and
writes the execution back; then it notifies the dispatcher and a webhook.

What sub-agents have reported stands under `runtime_callbacks` of the metadata, as raw JSON
that other code and older versions have written too.  Identifiers of executions and events
are written into it as text.  A callback comes validated; the hash of a payload is a parameter.
-/
import OpenAgency.Events
import OpenAgency.Lib.Sum
import OpenAgency.Triggers

namespace OpenAgency

open Interaction Program Json

/-! ### Callbacks -/

/-- The two methods of the dispatcher that a callback may call. -/
inductive DispatcherAction where
  | pause
  | resume
  deriving DecidableEq

/-- The callback methods; a structured status is a progress callback. -/
inductive CallbackKind where
  | progress
  | completed
  | failed
  | needsInput
  | needsApproval
  deriving DecidableEq

namespace CallbackKind

def eventType : CallbackKind → ExecutionEventType
  | progress => .subagentProgressUpdated
  | completed => .subagentStepCompleted
  | failed => .subagentStepFailed
  | needsInput => .subagentNeedsInput
  | needsApproval => .subagentNeedsApproval

/-- The value of the event type. -/
def eventTypeValue : CallbackKind → String
  | progress => "subagent.progress.updated"
  | completed => "subagent.step.completed"
  | failed => "subagent.step.failed"
  | needsInput => "subagent.needs_input"
  | needsApproval => "subagent.needs_approval"

def checkpointStatus : CallbackKind → String
  | progress => "running"
  | completed => "completed"
  | failed => "failed"
  | needsInput => "needs_input"
  | needsApproval => "needs_approval"

def executionStatus : CallbackKind → Option ExecutionStatus
  | needsInput => some .waitingForInput
  | needsApproval => some .waitingForApproval
  | _ => none

def dispatcherAction : CallbackKind → Option DispatcherAction
  | progress => none
  | completed | failed => some .resume
  | needsInput | needsApproval => some .pause

/-- `_should_dispatch`: a failed step is resumed for a retry only, and any other action is
taken whatever it depends on. -/
def shouldDispatch (kind : CallbackKind) (checkpointStatus : String) : Bool :=
  match kind with
  | failed => checkpointStatus = "retry_queued"
  | _ => true

end CallbackKind

/-- `SubAgentCallbackPayload`; `statusUpdate` is the dump of the structured status. -/
structure SubAgentCallbackPayload where
  runId : Uuid
  stepId : String
  agentId : String
  workflowId : Option String := none
  source : Option String := none
  payload : Dict Json := []
  statusUpdate : Option (Dict Json) := none
  idempotencyKey : Option String := none

structure CallbackReceipt where
  ok : Bool := true
  eventId : String
  runId : String
  stepId : String
  status : String := "recorded"
  createdAt : Time
  deriving DecidableEq

structure OutboundWebhook where
  target : String
  eventType : String
  payload : Json
  idempotencyKey : String
  runId : Uuid
  workflowId : String

structure CallbackConfig where
  /-- The workflow repository, if there is one. -/
  workflow : Option (String → Option WorkflowDefinition) := none
  dispatcher : DispatcherAction → Uuid → Coroutine Unit := fun _ _ => return ()
  webhookClient : Bool := false
  payloadSha256 : Dict Json → String := fun _ => ""
  /-- The instant that validation reads out of a value, if it accepts it. -/
  parseDatetime : Json → Option Time := fun _ => none

/-- `STRUCTURED_STATUS_FIELDS` apart from the status itself. -/
def statusDetailFields : List String := ["current_task", "completed_step", "blocker",
  "clarification_needed", "confidence", "token_usage", "context_health", "tool_result_summary",
  "next_action", "progress_percent"]

/-- The entries of a dict under the given keys. -/
def Dict.restrict (d : Dict Json) (keys : List String) : Dict Json :=
  keys.filterMap fun k => (d.get? k).map (k, ·)

namespace CallbackReceipt

def dump (r : CallbackReceipt) : Json := .obj [
  ("ok", .bool r.ok),
  ("event_id", .str r.eventId),
  ("run_id", .str r.runId),
  ("step_id", .str r.stepId),
  ("status", .str r.status),
  ("created_at", .str (isoformat r.createdAt))]

/-- A required string of a stored receipt. -/
def stringAt (d : Dict Json) (k : String) : Except RuntimeException String :=
  match d.get? k with
  | some (.str s) => .ok s
  | _ => .error ⟨.validationError, s!"{k}: Input should be a valid string"⟩

/-- `model_validate` of a stored receipt, at `now`. -/
def validate (cfg : CallbackConfig) (now : Time) (d : Dict Json) :
    Except RuntimeException CallbackReceipt := do
  let ok ← match d.get? "ok" with
    | none => .ok true
    | some (.bool b) => .ok b
    | some _ => .error ⟨.validationError, "ok: Input should be a valid boolean"⟩
  let eventId ← stringAt d "event_id"
  let runId ← stringAt d "run_id"
  let stepId ← stringAt d "step_id"
  let status ← match d.get? "status" with
    | none => .ok "recorded"
    | some _ => stringAt d "status"
  let createdAt ← match d.get? "created_at" with
    | none => .ok now
    | some value => match cfg.parseDatetime value with
      | some t => .ok t
      | none => .error ⟨.validationError, "created_at: Input should be a valid datetime"⟩
  if d.any fun p => p.1 ∉ ["ok", "event_id", "run_id", "step_id", "status", "created_at"] then
    .error ⟨.validationError, "Extra inputs are not permitted"⟩
  return ⟨ok, eventId, runId, stepId, status, createdAt⟩

end CallbackReceipt

/-! ### What has been reported -/

/-- `value[k]`, where both are dicts. -/
def Json.dictAt (value : Json) (k : String) : Option (Dict Json) := (value.get? k).bind asDict?

/-- `dict(value or {})`. -/
def Json.toDict (value : Json) : Except RuntimeException (Dict Json) :=
  match value with
  | .obj fields => .ok fields
  | _ =>
    if value.truthy then .error ⟨.typeError, "cannot convert dictionary update sequence"⟩
    else .ok []

/-- The receipt stored under an idempotency key. -/
def storedReceipt (reports : Json) (idempotencyKey : Option String) : Option (Dict Json) := do
  let key ← idempotencyKey.filter (· ≠ "")
  let idempotency ← reports.dictAt "idempotency"
  (idempotency.get? key).bind asDict?

/-- The checkpoint of a step. -/
def checkpointOf (reports : Json) (stepId : String) : Option (Dict Json) := do
  let checkpoints ← reports.dictAt "checkpoints"
  (checkpoints.get? stepId).bind asDict?

/-- `_previous_checkpoint`. -/
def previousCheckpoint (reports : Json) (stepId : String) : Option (Dict Json) :=
  (checkpointOf reports stepId).map fun previous =>
    (previous.restrict ["agent_id", "step_id", "status", "event_id", "event_type", "updated_at",
      "subagent_status", "current_task", "blocker", "next_action", "progress_percent"]).filter
        (!·.2.isNull)

/-! ### The retry policy -/

/-- `_retry_policy_for`. -/
def retryPolicyFor (reports : Json) (callback : SubAgentCallbackPayload) : Dict Json :=
  match callback.payload.get? "retry_policy" with
  | some (.obj policy) => policy
  | _ =>
    let stepPolicy := (reports.dictAt "retry_policies").bind fun policies =>
      (policies.get? callback.stepId).bind asDict?
    (stepPolicy <|> reports.dictAt "retry_policy").getD []

/-- `int(policy.get("max_retries") or 0)`. -/
def maxRetries (policy : Dict Json) : Except RuntimeException ℤ :=
  ((policy.getJson "max_retries").orElse (.num 0)).toInt

/-- The failed attempts that the checkpoint of a step counts. -/
def retryAttempts (reports : Json) (stepId : String) : Except RuntimeException ℤ :=
  let previousRetry : Dict Json := ((checkpointOf reports stepId).bind fun previous =>
    (previous.get? "retry").bind asDict?).getD []
  ((previousRetry.getJson "attempts").orElse (.num 0)).toInt

/-- The `retry` entry of a checkpoint. -/
def retryState (callback : SubAgentCallbackPayload) (attempts limit : ℤ) : Dict Json := [
  ("attempts", .num attempts),
  ("max_retries", .num limit),
  ("retry_available", .bool (attempts ≤ limit)),
  ("reason", (callback.payload.getJson "error").orElse (callback.payload.getJson "reason"))]

/-- `_status_after_retry_policy`. -/
def statusAfterRetryPolicy (reports : Json) (callback : SubAgentCallbackPayload)
    (requestedStatus : String) : Except RuntimeException (String × Option (Dict Json)) :=
  if requestedStatus ≠ "failed" then .ok (requestedStatus, none)
  else do
    let limit ← maxRetries (retryPolicyFor reports callback)
    if limit ≤ 0 then .ok (requestedStatus, none)
    else
      let attempts := (← retryAttempts reports callback.stepId) + 1
      let status := if attempts ≤ limit then "retry_queued" else requestedStatus
      .ok (status, some (retryState callback attempts limit))

/-! ### Checkpoints -/

/-- `_event_payload`. -/
def eventPayload (callback : SubAgentCallbackPayload) : Dict Json :=
  match callback.statusUpdate with
  | none => callback.payload
  | some normalized => (callback.payload.set "status_update" (.obj normalized)).union normalized

/-- `_checkpoint_status_update`. -/
def checkpointStatusUpdate (statusUpdate : Option (Dict Json)) : Dict Json :=
  match statusUpdate with
  | none => []
  | some normalized =>
    ("status_update", .obj normalized) ::
      ((normalized.get? "status").map ("subagent_status", ·)).toList ++
      normalized.restrict statusDetailFields

/-- What the recovery context of a checkpoint adds to that of its event. -/
structure RecordedEvent where
  eventId : Uuid
  payloadSha256 : String
  updatedAt : String

/-- `_supervisor_recovery_context`, where `workflowId` is that of the execution, if it is given. -/
def supervisorRecoveryContext (callback : SubAgentCallbackPayload) (workflowId : Option String)
    (kind : CallbackKind) (source status : String) (previous retry : Option (Dict Json))
    (event : Option RecordedEvent) : Dict Json :=
  let statusUpdate := checkpointStatusUpdate callback.statusUpdate
  let context : Dict Json := [
    ("run_id", .str (toString callback.runId)),
    ("workflow_id", ofOption (orElseString callback.workflowId workflowId)),
    ("agent_id", .str callback.agentId),
    ("step_id", .str callback.stepId),
    ("status", .str status),
    ("event_type", .str kind.eventTypeValue),
    ("source", .str source),
    ("payload_keys", strs ((callback.payload.map (·.1)).insertionSort (· ≤ ·))),
    ("previous_checkpoint", previous.elim .null .obj)]
  let recorded : Dict Json := match event with
    | none => []
    | some event => [
        ("event_id", .str (toString event.eventId)),
        ("payload_sha256", .str event.payloadSha256),
        ("updated_at", .str event.updatedAt)]
  let reported : Dict Json := match statusUpdate with
    | [] => []
    | update => ("status_update", (update.get? "status_update").getD (.obj [])) ::
        update.restrict ("subagent_status" :: statusDetailFields)
  let retried : Dict Json := retry.elim [] fun state => [("retry", .obj state)]
  (context ++ recorded ++ reported ++ retried).filter (!·.2.isNull)

/-- The checkpoint that a callback leaves for its step. -/
def checkpoint (callback : SubAgentCallbackPayload) (kind : CallbackKind) (source status : String)
    (event : RecordedEvent) (previous retry : Option (Dict Json)) (ready : List String) :
    Dict Json :=
  let base : Dict Json := [
    ("agent_id", .str callback.agentId),
    ("step_id", .str callback.stepId),
    ("status", .str status),
    ("event_id", .str (toString event.eventId)),
    ("event_type", .str kind.eventTypeValue),
    ("source", .str source),
    ("payload_sha256", .str event.payloadSha256),
    ("updated_at", .str event.updatedAt)]
  let reported := base.union (checkpointStatusUpdate callback.statusUpdate)
  let retried := retry.elim reported fun state => reported.set "retry" (.obj state)
  let recovered := retried.set "supervisor_recovery"
    (.obj (supervisorRecoveryContext callback none kind source status previous retry (some event)))
  if ready.isEmpty then recovered else recovered.set "ready_dependent_step_ids" (strs ready)

/-- The reports with a new checkpoint, written at `now`. -/
def reportsWith (reports : Json) (callback : SubAgentCallbackPayload) (kind : CallbackKind)
    (event : RecordedEvent) (entry : Dict Json) (receipt : CallbackReceipt) (now : Time) :
    Except RuntimeException (Dict Json) := do
  let reports ← reports.toDict
  let checkpoints ← (reports.getJson "checkpoints").toDict
  let reports := reports.set "checkpoints" (.obj (checkpoints.set callback.stepId (.obj entry)))
  let reports := reports.set "last_event_id" (.str (toString event.eventId))
  let reports := reports.set "last_event_type" (.str kind.eventTypeValue)
  let reports := reports.set "updated_at" (.str (isoformat now))
  match callback.idempotencyKey.filter (· ≠ "") with
  | none => return reports
  | some key =>
    let idempotency ← (reports.getJson "idempotency").toDict
    return reports.set "idempotency" (.obj (idempotency.set key receipt.dump))

/-! ### Dependent steps -/

/-- Every dependency but the completed one has a completed checkpoint; what is no dict has no
`get`. -/
def dependenciesCompleted (checkpoints : Dict Json) (completedStepId : String) :
    List String → Except RuntimeException Bool
  | [] => .ok true
  | dependencyId :: rest =>
    if dependencyId = completedStepId then
      dependenciesCompleted checkpoints completedStepId rest
    else
      match checkpoints.get? dependencyId with
      | none => .ok false
      | some (.obj entry) =>
        if (Dict.getJson entry "status").eq (.str "completed") then
          dependenciesCompleted checkpoints completedStepId rest
        else .ok false
      | some _ => .error ⟨.attributeError, "object has no attribute 'get'"⟩

/-- The tasks of a workflow that a completed step makes ready. -/
def readyTasks (checkpoints : Dict Json) (completedStepId : String) :
    List TaskDefinition → Except RuntimeException (List String)
  | [] => .ok []
  | task :: rest => do
    if completedStepId ∉ task.dependsOnTaskIds then readyTasks checkpoints completedStepId rest
    else
      let completed ← dependenciesCompleted checkpoints completedStepId task.dependsOnTaskIds
      let ready ← readyTasks checkpoints completedStepId rest
      return if completed then task.id :: ready else ready

/-- `_ready_dependent_step_ids`. -/
def readyDependentStepIds (cfg : CallbackConfig) (execution : Execution) (completedStepId : String)
    (checkpointStatus : String) : Except RuntimeException (List String) :=
  if checkpointStatus ≠ "completed" then .ok []
  else
    match cfg.workflow.bind fun repository => repository execution.workflowId with
    | none => .ok []
    | some workflow =>
      let checkpoints := (execution.metadata.runtimeCallbacks.dictAt "checkpoints").getD []
      readyTasks checkpoints completedStepId workflow.taskDefinitions

/-! ### Recording -/

/-- The kind of wait that a checkpoint asks for. -/
def waitKindOf (checkpointStatus : String) : Option ExecutionWaitKind :=
  if checkpointStatus = "needs_input" then some .input
  else if checkpointStatus = "needs_approval" then some .approval
  else none

/-- `_create_durable_wait`. -/
def createDurableWait (execution : Execution) (callback : SubAgentCallbackPayload)
    (eventId : Uuid) (checkpointStatus : String) (eventPayload : Dict Json) (source : String) :
    Coroutine (Option ExecutionWait) :=
  match waitKindOf checkpointStatus with
  | none => return none
  | some kind => do
    let suffix := (orElseString callback.idempotencyKey none).getD (toString eventId)
    let id ← uuid4
    let createdAt ← utcNow
    let updatedAt ← utcNow
    let wait ← ofExcept (ExecutionWait.validateLifecycle {
      id := id
      executionId := execution.id
      kind := kind
      idempotencyKey := takeChars 255 s!"subagent:{callback.stepId}:{checkpointStatus}:{suffix}"
      correlationKey := some s!"subagent:{callback.agentId}:{callback.stepId}"
      checkpoint := execution.outputPayload.getD {}
      requestPayload := .obj eventPayload
      createdAt := createdAt
      updatedAt := updatedAt
      metadata.source := some source
      metadata.callbackEventId := some eventId
      metadata.agentId := some callback.agentId
      metadata.stepId := some callback.stepId })
    let created ← createExecutionWait wait
    return some created

/-- `_emit_execution_waiting`. -/
def emitExecutionWaiting (execution : Execution) (parentEventId : Uuid) :
    Option ExecutionWait → Coroutine Unit
  | none => return ()
  | some _ => do
    let events ← query (.listEvents execution.id)
    let sequence := (events.getLast?.map (·.sequence)).getD 0
    let _ ← appendEvent {
      executionId := execution.id
      workflowId := execution.workflowId
      sequence := sequence + 1
      lastEventId := some parentEventId } .executionWaiting {}
    return ()

/-- `metadata.active_wait` for a wait that was created. -/
def ActiveWait.ofCreated (wait : ExecutionWait) : ActiveWait where
  waitId := wait.id
  kind := wait.kind
  createdAt := some wait.createdAt

/-- The metadata after a callback, whose reports are `reports`. -/
def metadataWith (metadata : ExecutionMetadata) (reports : Dict Json) (checkpointStatus : String)
    (entry : Dict Json) (wait : Option ExecutionWait) : ExecutionMetadata :=
  { metadata with
    runtimeCallbacks := .obj reports
    pendingSubagentInput :=
      if checkpointStatus = "needs_input" then .obj entry else metadata.pendingSubagentInput
    pendingSubagentApproval :=
      if checkpointStatus = "needs_approval" then .obj entry else metadata.pendingSubagentApproval
    activeWait := wait.map ActiveWait.ofCreated <|> metadata.activeWait }

/-- What `_record` has written when it comes to the notifications. -/
structure Recorded where
  execution : Execution
  receipt : CallbackReceipt
  checkpointStatus : String
  payloadSha256 : String

/-- `_record` of a callback that has no receipt, up to the notifications. -/
def writeCheckpoint (cfg : CallbackConfig) (kind : CallbackKind)
    (callback : SubAgentCallbackPayload) (execution : Execution) : Coroutine Recorded := do
  let reports := execution.metadata.runtimeCallbacks
  let source := (orElseString callback.source none).getD s!"subagent:{callback.agentId}"
  let previous := previousCheckpoint reports callback.stepId
  let (status, retry) ← ofExcept
    (statusAfterRetryPolicy reports callback kind.checkpointStatus)
  let payload := (eventPayload callback).set "supervisor_recovery" (.obj
    (supervisorRecoveryContext callback (some execution.workflowId) kind source status previous
      retry none))
  let eventId ← uuid4
  let timestamp ← utcNow
  let saved ← query (.saveEvent {
    id := eventId
    executionId := callback.runId
    workflowId := (orElseString callback.workflowId none).getD execution.workflowId
    eventType := kind.eventType
    sequence := 0
    timestamp := timestamp
    agentId := some callback.agentId
    taskId := some callback.stepId
    payloadSha256 := some (cfg.payloadSha256 payload) })
  let _ ← ofExcept saved
  let wait ← createDurableWait execution callback eventId status payload source
  let ready ← ofExcept (readyDependentStepIds cfg execution callback.stepId status)
  let event : RecordedEvent := ⟨eventId, cfg.payloadSha256 payload, isoformat timestamp⟩
  let entry := checkpoint callback kind source status event previous retry ready
  let receipt : CallbackReceipt := {
    eventId := toString eventId
    runId := toString callback.runId
    stepId := callback.stepId
    createdAt := timestamp }
  let now ← utcNow
  let updated ← ofExcept (reportsWith reports callback kind event entry receipt now)
  let execution := { execution with
    status := kind.executionStatus.getD execution.status
    metadata := metadataWith execution.metadata updated status entry wait }
  updateExecution execution
  emitExecutionWaiting execution eventId wait
  return ⟨execution, receipt, status, event.payloadSha256⟩

/-! ### Notifications -/

inductive CallbackOp where
  /-- The dispatcher's method is called. -/
  | dispatch (action : DispatcherAction) (runId : Uuid)
  /-- The webhook client sends; what it raises is dropped. -/
  | send (webhook : OutboundWebhook)

abbrev CallbackOp.Ret : CallbackOp → Type := fun _ => Unit

abbrev NotificationSig : Signature := ⟨CallbackOp, CallbackOp.Ret⟩

abbrev CallbackSig : Signature := RuntimeSig.sum NotificationSig

/-- A coroutine of the callback service. -/
abbrev Calling (α : Type) := Program CallbackSig RuntimeException α

/-- The runtime and what has been sent to the world outside, oldest first. -/
abbrev CallbackState := World × List CallbackOp

def notificationHandler : Handler NotificationSig (List CallbackOp) :=
  fun o sent => ((), sent ++ [o])

abbrev callbackHandler (env : Environment) : Handler CallbackSig CallbackState :=
  (handler env).sum notificationHandler

def notify (o : CallbackOp) : Calling Unit :=
  performRight (S := RuntimeSig) (T := NotificationSig) o

/-- `_notify_dispatcher`. -/
def notifyDispatcher (cfg : CallbackConfig) (kind : CallbackKind) (runId : Uuid)
    (checkpointStatus : String) : Calling Unit :=
  match kind.dispatcherAction with
  | none => return ()
  | some action =>
    if kind.shouldDispatch checkpointStatus then do
      notify (.dispatch action runId)
      inl (cfg.dispatcher action runId)
    else return ()

/-- A target of a webhook, without white space around it, if there is one. -/
def webhookTarget : Option Json → Option String
  | some (.str target) => some (strip target) |>.filter (· ≠ "")
  | _ => none

/-- The target that the reports name for an event or a status: a string that is not blank, or
the target of a dict as it is. -/
def outboundTarget (outbound : Dict Json) : List String → Option String
  | [] => none
  | key :: keys =>
    match webhookTarget (outbound.get? key) with
    | some target => some target
    | none =>
      match ((outbound.get? key).bind asDict?).bind fun d => Dict.get? d "target" with
      | some (.str target) => some (strip target)
      | _ => outboundTarget outbound keys

/-- `_webhook_target_for`. -/
def webhookTargetFor (reports : Json) (callback : SubAgentCallbackPayload)
    (eventType checkpointStatus : String) : Option String :=
  let config := (callback.payload.get? "outbound_webhook").bind asDict?
  webhookTarget (callback.payload.get? "outbound_webhook_target") <|>
    (config.bind fun d => webhookTarget (Dict.get? d "target")) <|>
    (reports.dictAt "outbound_webhooks").bind fun outbound =>
      outboundTarget outbound [eventType, checkpointStatus, "default"]

/-- `_notify_outbound_webhook`. -/
def notifyOutboundWebhook (cfg : CallbackConfig) (kind : CallbackKind)
    (callback : SubAgentCallbackPayload) (recorded : Recorded) : Calling Unit :=
  let reports := recorded.execution.metadata.runtimeCallbacks
  let target := webhookTargetFor reports callback kind.eventTypeValue recorded.checkpointStatus
  let workflowId := (orElseString callback.workflowId none).getD recorded.execution.workflowId
  match target.filter fun target => cfg.webhookClient && target ≠ "" with
  | none => return ()
  | some target => notify (.send {
      target := target
      eventType := kind.eventTypeValue
      payload := .obj [
        ("run_id", .str (toString callback.runId)),
        ("workflow_id", .str workflowId),
        ("agent_id", .str callback.agentId),
        ("step_id", .str callback.stepId),
        ("status", .str recorded.checkpointStatus),
        ("payload", .obj (eventPayload callback)),
        ("payload_sha256", .str recorded.payloadSha256)]
      idempotencyKey := s!"{callback.runId}:{callback.stepId}:{kind.eventTypeValue}"
      runId := callback.runId
      workflowId := workflowId })

/-- `_record` of a callback that has no receipt. -/
def recordFresh (cfg : CallbackConfig) (kind : CallbackKind) (callback : SubAgentCallbackPayload)
    (execution : Execution) : Calling CallbackReceipt := do
  let recorded ← inl (writeCheckpoint cfg kind callback execution)
  notifyDispatcher cfg kind callback.runId recorded.checkpointStatus
  notifyOutboundWebhook cfg kind callback recorded
  return recorded.receipt

/-- `_existing_idempotent_receipt`: the stored receipt, validated. -/
def existingReceipt (cfg : CallbackConfig) (stored : Dict Json) : Calling CallbackReceipt := do
  let now ← inl utcNow
  ofExcept (CallbackReceipt.validate cfg now stored)

/-- `_record`. -/
def record (cfg : CallbackConfig) (kind : CallbackKind) (callback : SubAgentCallbackPayload) :
    Calling CallbackReceipt := do
  match ← inl (getExecution callback.runId) with
  | none => throw ⟨.executionNotFound, s!"Execution '{callback.runId}' was not found"⟩
  | some execution =>
    match storedReceipt execution.metadata.runtimeCallbacks callback.idempotencyKey with
    | some stored => existingReceipt cfg stored
    | none => recordFresh cfg kind callback execution

end OpenAgency
