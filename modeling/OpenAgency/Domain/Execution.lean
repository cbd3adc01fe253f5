/-
Domain/Execution.lean

Executions, the approval requests and events that belong to them, and the part
of an execution's metadata the runtime reads: which wait suspends it, which
approval request a tool call is waiting for, what its usage counters are and
where a persistent monitor stands.

`metadata` is one record here; its keys are the fields, a missing key is `none`.
Runtime-activity summaries and `updated_at` are left out: saving an event rewrites
them, and what is read of them is a parameter where it is read.
-/
import OpenAgency.Domain.ExecutionWait
import OpenAgency.Domain.RuntimeGovernance

namespace OpenAgency

inductive ExecutionStatus where
  | created
  | queued
  | running
  | waitingForInput
  | waitingForApproval
  | waitingForEvent
  | sleeping
  | paused
  | cancelling
  | completed
  | failed
  | cancelled
  deriving DecidableEq

namespace ExecutionStatus

def value : ExecutionStatus → String
  | created => "created"
  | queued => "queued"
  | running => "running"
  | waitingForInput => "waiting_for_input"
  | waitingForApproval => "waiting_for_approval"
  | waitingForEvent => "waiting_for_event"
  | sleeping => "sleeping"
  | paused => "paused"
  | cancelling => "cancelling"
  | completed => "completed"
  | failed => "failed"
  | cancelled => "cancelled"

/-- Membership in `TERMINAL_EXECUTION_STATUSES`. -/
def isTerminal : ExecutionStatus → Bool
  | completed | failed | cancelled => true
  | _ => false

/-- Membership in `ACTIVE_EXECUTION_STATUSES`, which `ACTIVE_REPLACEMENT_STATUSES` and
`STALE_REPAIR_STATUSES` repeat. -/
def isActive : ExecutionStatus → Bool
  | queued | running | waitingForInput | waitingForApproval | waitingForEvent | sleeping
  | paused | cancelling => true
  | created | completed | failed | cancelled => false

/-- Membership in the engine's `DURABLE_WAIT_EXECUTION_STATUSES`. -/
def isDurableWait : ExecutionStatus → Bool
  | waitingForInput | waitingForApproval | waitingForEvent | sleeping => true
  | _ => false

/-- Membership in `WAIT_CREATION_SOURCE_STATUSES`. -/
def isWaitCreationSource : ExecutionStatus → Bool
  | paused | waitingForInput | waitingForApproval | waitingForEvent | sleeping => true
  | _ => false

end ExecutionStatus

/-- `WAIT_EXECUTION_STATUS`. -/
def waitExecutionStatus : ExecutionWaitKind → ExecutionStatus
  | .input => .waitingForInput
  | .approval => .waitingForApproval
  | .event => .waitingForEvent
  | .sleep => .sleeping

/-! ### Metadata -/

/-- `metadata.active_wait`. -/
structure ActiveWait where
  waitId : Uuid
  kind : ExecutionWaitKind
  createdAt : Option Time := none
  wakeAt : Option Time := none
  deadlineAt : Option Time := none
  deriving DecidableEq

/-- `metadata.last_resolved_wait`. -/
structure LastResolvedWait where
  waitId : Uuid
  kind : ExecutionWaitKind
  status : ExecutionWaitStatus
  resolutionKey : Option String
  resolvedAt : Option Time
  deriving DecidableEq

/-- `metadata.pending_approval`. -/
structure PendingApproval where
  requestId : Option Uuid
  waitId : Option Uuid
  toolId : String
  invocationDigest : String
  payload : Json
  approvalMetadata : Json

inductive CancellationMode where
  | cooperative
  | immediate
  deriving DecidableEq

/-- `metadata.cancellation`. -/
structure Cancellation where
  requestedAt : Time
  mode : CancellationMode
  deriving DecidableEq

/-- `metadata.partial_result_preservation`. -/
structure PartialResultPreservation where
  recordedAt : Time
  reason : String
  outputPayloadPresent : Bool
  nodeOutputIds : List String
  artifactCount : ℕ
  deriving DecidableEq

inductive CyclePhase where
  | running
  | sleeping
  | guarded
  | completed
  deriving DecidableEq

inductive CycleStatus where
  | completed
  | failed
  deriving DecidableEq

structure CycleHistoryItem where
  cycleNumber : ℕ
  status : CycleStatus
  completedAt : Time
  detail : String
  deriving DecidableEq

/-- `metadata.persistent_cycle`. -/
structure PersistentCycle where
  cycleNumber : Option ℕ := none
  nextCycleNumber : Option ℕ := none
  phase : Option CyclePhase := none
  cycleStartedAt : Option Time := none
  nextWakeAt : Option Time := none
  consecutiveFailures : ℕ := 0
  noProgressCycles : ℕ := 0
  lastProgressSignature : Option String := none
  lastCycleCompletedAt : Option Time := none
  lastCycleStatus : Option CycleStatus := none
  lastError : Option String := none
  history : List CycleHistoryItem := []
  guardReason : Option String := none
  terminalReason : Option String := none
  deriving DecidableEq

/-- The policy of a persistent monitor, copied onto an execution at creation. -/
structure PersistentCyclePolicy where
  enabled : Bool := false
  intervalSeconds : ℚ := 60
  jitterRatio : ℚ := 0
  failureBackoffMultiplier : ℚ := 2
  maxIntervalSeconds : ℚ := 3600
  maxConsecutiveFailures : ℕ := 5
  maxCycles : Option ℕ := none
  maxNoProgressCycles : Option ℕ := none
  deadlineAt : Option Time := none
  historyLimit : ℕ := 20
  deriving DecidableEq

/-- `metadata.task_retry`. -/
structure TaskRetry where
  taskId : Option String := none
  priorNodeOutputs : Option (Dict Json) := none

/-- The status of a container, as Docker or the control plane names it. -/
inductive ContainerStatus where
  | created
  | running
  | restarting
  | paused
  | exited
  | dead
  | removed
  | missing
  | other (name : String)
  deriving DecidableEq

namespace ContainerStatus

/-- Membership in `LIVE_CONTAINER_STATUSES`. -/
def isLive : ContainerStatus → Bool
  | created | running | restarting | paused => true
  | _ => false

/-- Membership in `EXITED_CONTAINER_STATUSES`. -/
def isExited : ContainerStatus → Bool
  | exited | dead => true
  | _ => false

def value : ContainerStatus → String
  | created => "created"
  | running => "running"
  | restarting => "restarting"
  | paused => "paused"
  | exited => "exited"
  | dead => "dead"
  | removed => "removed"
  | missing => "missing"
  | other name => name

end ContainerStatus

/-- What repairing an execution did with its container. -/
structure ContainerRepair where
  containerId : String
  previousContainerStatus : Option ContainerStatus
  action : String := "none"
  inspectedStatus : Option ContainerStatus := none
  newContainerStatus : Option ContainerStatus := none
  exitCode : Option ℤ := none
  error : Option String := none

/-- `metadata.stale_repair`. -/
structure StaleRepair where
  repairedAt : Time
  previousStatus : ExecutionStatus
  repairAction : String
  staleAfterSeconds : ℕ
  ageSeconds : ℕ
  containerRepair : Option ContainerRepair := none
  expiredApprovalRequestIds : List Uuid := []

structure ExecutionMetadata where
  trigger : Json := .obj []
  requestedAdapter : Option String := none
  agentIds : List String := []
  activeWait : Option ActiveWait := none
  lastResolvedWait : Option LastResolvedWait := none
  pendingApproval : Option PendingApproval := none
  runtimeGovernance : RuntimeGovernance := {}
  cancellation : Option Cancellation := none
  partialResultPreservation : Option PartialResultPreservation := none
  executionHost : Option String := none
  persistentCycle : PersistentCycle := {}
  persistentCyclePolicy : PersistentCyclePolicy := {}
  taskRetry : Option TaskRetry := none
  resumeFromExecutionId : Option Uuid := none
  /-- `execution_lifecycle.terminate_container_on_completion`. -/
  terminateContainerOnCompletion : Bool := true
  sourcePartialResultPreservation : Option PartialResultPreservation := none
  staleRepair : Option StaleRepair := none
  /-- Raw JSON from here on; a missing key is `null`. -/
  goalId : Json := .null
  goalStartupReconciliation : Json := .null
  /-- What sub-agents have reported. -/
  runtimeCallbacks : Json := .null
  pendingSubagentInput : Json := .null
  pendingSubagentApproval : Json := .null

/-- `input_payload.wait_resolutions[wait_id]`. -/
structure WaitResolution where
  waitId : Uuid
  kind : ExecutionWaitKind
  status : ExecutionWaitStatus
  payload : Json
  resolvedAt : Option Time

/-- `execution.input_payload`: what the caller passed and what waits resolved to. -/
structure InputPayload where
  arguments : Json := .obj []
  waitResolutions : List WaitResolution := []

structure Execution where
  id : Uuid
  workflowId : String
  goalId : Option String := none
  runtimeAdapterId : String := "native"
  runtimeRevisionId : Option String := none
  status : ExecutionStatus := .created
  triggerType : String := "manual"
  triggerPayload : Json := .obj []
  inputPayload : InputPayload := {}
  outputPayload : Option OutputPayload := none
  error : Option String := none
  createdAt : Time := 0
  startedAt : Option Time := none
  completedAt : Option Time := none
  createdBy : Option String := none
  workerId : Option String := none
  lastHeartbeatAt : Option Time := none
  containerId : Option String := none
  containerName : Option String := none
  containerImage : Option String := none
  containerStatus : Option ContainerStatus := none
  containerStartedAt : Option Time := none
  containerEndedAt : Option Time := none
  containerExitCode : Option ℤ := none
  replacementOfExecutionId : Option Uuid := none
  restartReason : Option String := none
  metadata : ExecutionMetadata := {}

/-- `_reject_terminal_execution_replay`, the same check in the control plane and
in the engine. -/
def rejectTerminalExecutionReplay (e : Execution) : Except RuntimeException Unit :=
  if e.status.isTerminal then
    .error ⟨.valueError, s!"Execution '{e.id}' is terminal and must be retried " ++
      "through a replacement execution."⟩
  else .ok ()

/-! ### Approval requests -/

/-- The statuses an approval request is written with. -/
inductive ApprovalStatus where
  | pending
  | approved
  | rejected
  | expired
  | cancelled
  deriving DecidableEq

namespace ApprovalStatus

def value : ApprovalStatus → String
  | pending => "pending"
  | approved => "approved"
  | rejected => "rejected"
  | expired => "expired"
  | cancelled => "cancelled"

end ApprovalStatus

structure ApprovalRequest where
  id : Uuid
  executionId : Uuid
  eventId : Option Uuid
  toolId : String
  status : ApprovalStatus
  requestPayload : Json
  responsePayload : Option Json := none
  requestedAt : Time
  respondedAt : Option Time := none
  respondedBy : Option String := none

/-- The decision delivered to a paused tool call. -/
structure ApprovalDecision where
  granted : Bool
  reason : Option String := none
  metadata : Option Json := none

/-! ### Events -/

inductive ExecutionEventType where
  | executionCreated
  | executionStarted
  | executionWaiting
  | executionWoken
  | executionPaused
  | executionResumed
  | executionCancelled
  | executionCompleted
  | executionFailed
  | executionRepaired
  | executionCycleStarted
  | executionCycleCompleted
  | executionCycleFailed
  | executionCycleGuardTriggered
  | routingDecisionRecorded
  | handoffRequested
  | handoffCompleted
  | taskStarted
  | agentStepStarted
  | agentStepCompleted
  | agentStepFailed
  | agentMessageCreated
  | llmRequestCreated
  | llmResponseCreated
  | tokenUsageRecorded
  | tokenBudgetWarning
  | tokenBudgetExceeded
  | contextHealthRecorded
  | toolCallStarted
  | toolCallCompleted
  | toolCallFailed
  | approvalRequested
  | approvalGranted
  | approvalRejected
  | artifactCreated
  | containerStopped
  | containerFailed
  | containerReplaced
  | subagentProgressUpdated
  | subagentStepCompleted
  | subagentStepFailed
  | subagentNeedsInput
  | subagentNeedsApproval
  | monitorFindingCreated
  deriving DecidableEq

/-- One entry of an execution's event log. -/
structure ExecutionEvent where
  id : Uuid
  executionId : Uuid
  workflowId : String
  eventType : ExecutionEventType
  sequence : ℕ
  timestamp : Time
  agentId : Option String := none
  taskId : Option String := none
  toolCallId : Option String := none
  modelRequestId : Option Uuid := none
  parentEventId : Option Uuid := none
  payloadSha256 : Option String := none
  deriving DecidableEq

end OpenAgency
