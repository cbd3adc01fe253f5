/-
StaleRepair.lean

`repair_stale_executions`: which active executions count as stale, and what the control
plane makes of one that does.

An execution is stale when its heartbeat is too old and it does not wait on purpose;
a wait for an approval counts as stale all the same, since its worker holds the
continuation.  What is stale is completed when its checkpoint says that the last tasks
have run, and otherwise cancelled, failed or queued again, by its status.
The timeouts of the supervisor are left out: the repair passes none.
-/
import OpenAgency.Containers
import OpenAgency.ControlPlane

namespace OpenAgency

open Interaction

structure StaleRepairConfig where
  engine : EngineConfig
  staleAfterSeconds : ℕ
  /-- The last activity of a row or, where there is none, its last change, as of a time. -/
  activityReferenceAt : Time → Execution → Time

/-! ### Classification -/

/-- The status of a callback's checkpoint that stands for a wait. -/
def checkpointWaitState : String → Option String
  | "needs_input" => some "waiting_for_input"
  | "needs_approval" => some "waiting_for_approval"
  | _ => none

/-- `INTENTIONAL_WAIT_STATUSES`. -/
def ExecutionStatus.isIntentionalWait : ExecutionStatus → Bool
  | waitingForInput | waitingForApproval | waitingForEvent | sleeping | paused => true
  | _ => false

/-- The statuses in `runtime_callbacks.checkpoints`. -/
def ExecutionMetadata.callbackCheckpointStatuses (m : ExecutionMetadata) : List String :=
  match m.runtimeCallbacks.get? "checkpoints" with
  | some (.obj checkpoints) => checkpoints.filterMap fun p => p.2.string? "status"
  | _ => []

/-- `intentional_execution_wait_state`. -/
def intentionalExecutionWaitState (e : Execution) : Option String :=
  if e.status.isIntentionalWait then some e.status.value
  else if e.metadata.pendingSubagentInput.string? "status" = some "needs_input" then
    some "waiting_for_input"
  else if e.metadata.pendingSubagentApproval.string? "status" = some "needs_approval" then
    some "waiting_for_approval"
  else e.metadata.callbackCheckpointStatuses.findSome? checkpointWaitState

namespace StaleRepairConfig

variable (cfg : StaleRepairConfig)

/-- `age_seconds`: the whole seconds since the heartbeat or, where there is none, since the
last activity. -/
def ageSeconds (e : Execution) (now : Time) : ℕ :=
  (now - e.lastHeartbeatAt.getD (cfg.activityReferenceAt now e)) / seconds 1

/-- `classify_execution_staleness`: whether the execution is stale. -/
def isStaleAt (e : Execution) (now : Time) : Bool :=
  e.status.isActive &&
    ((intentionalExecutionWaitState e).isNone || e.status = .waitingForApproval) &&
    cfg.staleAfterSeconds < cfg.ageSeconds e now

end StaleRepairConfig

/-- The reason of a classification as stale. -/
def staleReason (status : ExecutionStatus) (ageSeconds : ℕ) : String :=
  s!"Execution has status '{status.value}' with no recent worker heartbeat for " ++
    s!"{ageSeconds} seconds."

/-- The terminal tasks of a checkpoint, or else of the workflow, have completed. -/
def terminalNodesCompleted (workflow : Option WorkflowDefinition) (terminal completed : List String) :
    Bool :=
  if terminal ≠ [] then terminal.all (· ∈ completed)
  else
    match workflow with
    | none => false
    | some workflow =>
      let ids := Planner.terminalExecutableNodeIds workflow workflow.nodes
      ids ≠ [] && ids.all (· ∈ completed)

/-- The checkpoint names completed nodes, the terminal ones among them. -/
def Checkpoint.isCompleted (c : Checkpoint) (workflow : Option WorkflowDefinition) : Bool :=
  let completed := c.completedNodeIds.filter (· ≠ "")
  completed ≠ [] && terminalNodesCompleted workflow (c.terminalNodeIds.filter (· ≠ "")) completed

/-- `_has_completed_workflow_checkpoint`. -/
def hasCompletedWorkflowCheckpoint (cfg : EngineConfig) (e : Execution) : Bool :=
  e.outputPayload.any fun payload =>
    payload.finalOutputSet && payload.checkpoint.any (·.isCompleted (cfg.workflow e.workflowId))

/-! ### What is made of a stale execution -/

inductive RepairAction where
  | failedAbandonedApproval
  | markedCompleted
  | markedCancelled
  | requeued
  deriving DecidableEq

namespace RepairAction

def value : RepairAction → String
  | failedAbandonedApproval => "failed_abandoned_approval"
  | markedCompleted => "marked_completed"
  | markedCancelled => "marked_cancelled"
  | requeued => "requeued"

/-- The status of the repaired execution. -/
def status : RepairAction → ExecutionStatus
  | failedAbandonedApproval => .failed
  | markedCompleted => .completed
  | markedCancelled => .cancelled
  | requeued => .queued

def event : RepairAction → ExecutionEventType
  | failedAbandonedApproval => .executionFailed
  | markedCompleted => .executionCompleted
  | markedCancelled => .executionCancelled
  | requeued => .executionRepaired

/-- The error of the repaired execution. -/
def error (a : RepairAction) (e : Execution) : Option String :=
  match a with
  | failedAbandonedApproval =>
    some ("Approval wait was abandoned because the execution worker stopped heartbeating. " ++
      "Resume from a safe checkpoint or start a replacement execution.")
  | markedCompleted => none
  | markedCancelled =>
    orElseString e.error (some "Stale cancelling execution was marked cancelled")
  | requeued => e.error

/-- The branches of `repair_stale_executions`. -/
def of (previousStatus : ExecutionStatus) (completedCheckpoint : Bool) : RepairAction :=
  if previousStatus = .waitingForApproval then failedAbandonedApproval
  else if completedCheckpoint && previousStatus ≠ .cancelling then markedCompleted
  else if previousStatus = .cancelling then markedCancelled
  else requeued

/-- The reason that goes with a snapshot and a container. -/
def reason (a : RepairAction) : String := s!"stale_execution_{a.value}"

end RepairAction

/-- `completed_at`, for every action but a requeueing. -/
def repairedCompletedAt (a : RepairAction) (e : Execution) : Coroutine (Option Time) :=
  if a = .requeued then return e.completedAt
  else do
    let completedAt ← orUtcNow e.completedAt
    return some completedAt

/-- The snapshot of an execution that does not complete. -/
def repairPreservation (a : RepairAction) (e : Execution) :
    Coroutine (Option PartialResultPreservation) :=
  if a = .markedCompleted then return none else partialResultPreservationSnapshot e a.reason

/-! ### Its container -/

/-- The execution and the state of its events, with what was done to its container. -/
structure RepairProgress where
  execution : Execution
  state : NativeExecutionState
  containerRepair : Option ContainerRepair := none

/-- The `except` around the cleanup of a container. -/
def ContainerRepair.failed (repair : ContainerRepair) (exc : RuntimeException) : ContainerRepair :=
  { repair with action := "cleanup_failed", error := some exc.message }

/-- The container is removed: what is written, and the event of it. -/
def recordCleanup (e : Execution) (st : NativeExecutionState) (repair : ContainerRepair)
    (c : RuntimeContainerState) : Coroutine RepairProgress := do
  let endedAt ← orUtcNow (c.finishedAt <|> e.containerEndedAt)
  match ← (emitHeld st .containerStopped).attempt with
  | .error exc => return ⟨e.withRemoved c endedAt, st, some (repair.failed exc)⟩
  | .ok st =>
    return ⟨e.withRemoved c endedAt, st, some { repair with
      newContainerStatus := some .removed
      exitCode := c.exitCode }⟩

/-- The cleanup of a container that has been inspected. -/
def cleanupInspected (e : Execution) (st : NativeExecutionState) (repair : ContainerRepair)
    (inspected : RuntimeContainerState) : HostRun RepairProgress := do
  match ← (stopInspected repair.containerId inspected).attempt with
  | .error exc => return ⟨e, st, some (repair.failed exc)⟩
  | .ok c =>
    recordCleanup e st { repair with
      action := if inspected.status.isLive then "stopped_and_removed" else "removed" } c

/-- The `try` of `_cleanup_stale_execution_container`. -/
def cleanupLinked (e : Execution) (st : NativeExecutionState) (repair : ContainerRepair) :
    HostRun RepairProgress := do
  match ← (inspectContainer repair.containerId).attempt with
  | .error exc => return ⟨e, st, some (repair.failed exc)⟩
  | .ok inspected =>
    cleanupInspected e st { repair with inspectedStatus := some inspected.status } inspected

/-- `_cleanup_stale_execution_container`. -/
def cleanupStaleExecutionContainer (e : Execution) (st : NativeExecutionState) :
    HostRun RepairProgress :=
  match e.container with
  | none => return ⟨e, st, none⟩
  | some i =>
    cleanupLinked e st { containerId := i, previousContainerStatus := e.containerStatus }

/-- The cleanup, which a cancelled execution goes without. -/
def repairContainer (a : RepairAction) (e : Execution) (st : NativeExecutionState) :
    HostRun RepairProgress :=
  if a = .markedCancelled then return ⟨e, st, none⟩ else cleanupStaleExecutionContainer e st

/-! ### Its approvals -/

/-- The response of an approval request that is given up. -/
def expiredResponse (reason : String) : ApprovalResponse where
  status := .expired
  responsePayload := .obj [
    ("granted", .bool false),
    ("reason", .str reason),
    ("metadata", .obj [
      ("mode", .str "runtime_reconciler"), ("cause", .str "worker_unresponsive")])]
  respondedBy := some "runtime_reconciler"

/-- Expire one request: its identifier, if it was still pending. -/
def expireApprovalRequest (x : Uuid) (reason : String) (request : ApprovalRequest) :
    Coroutine (List Uuid) := do
  match ← resolvePendingApprovalRequest x request.toolId (expiredResponse reason) with
  | none => return []
  | some expired => return [expired.id]

/-- `_expire_pending_execution_approvals`. -/
def expirePendingExecutionApprovals (x : Uuid) (reason : String) : Coroutine (List Uuid) := do
  let requests ← query (.listApprovalRequests x)
  Program.collect (expireApprovalRequest x reason)
    (requests.filter fun r => r.status = .pending && r.toolId ≠ "")

/-- The approvals of an execution whose wait for one is given up. -/
def repairApprovals (a : RepairAction) (e : Execution) : Coroutine (List Uuid) :=
  if a = .failedAbandonedApproval then
    expirePendingExecutionApprovals e.id
      ((orElseString e.error (some "Approval worker stopped heartbeating.")).getD "")
  else return []

/-! ### The repair -/

/-- An entry of the list the repair returns. -/
structure RepairedExecution where
  executionId : Uuid
  previousStatus : ExecutionStatus
  newStatus : ExecutionStatus
  repairAction : RepairAction
  reason : String

/-- The execution with the status, error and end its repair gives it. -/
def Execution.repairedBy (e : Execution) (a : RepairAction) (completedAt : Option Time) :
    Execution :=
  { e with status := a.status, error := a.error e, completedAt := completedAt }

/-- The execution as its repair leaves it: no worker has it, and its metadata say what was
done. -/
def Execution.released (e : Execution) (a : RepairAction)
    (preservation : Option PartialResultPreservation) (repair : StaleRepair) : Execution :=
  { e with
    workerId := none
    lastHeartbeatAt := none
    metadata := { e.metadata with
      pendingApproval :=
        if a = .failedAbandonedApproval then none else e.metadata.pendingApproval
      partialResultPreservation := preservation <|> e.metadata.partialResultPreservation
      staleRepair := some repair } }

/-- The end of a repair: what is written last, and the event of it. -/
def recordRepair (p : RepairProgress) (a : RepairAction)
    (preservation : Option PartialResultPreservation) (repair : Time → StaleRepair) :
    Coroutine Unit := do
  let repairedAt ← utcNow
  -- `updated_at` is read off the clock as well
  let _ ← utcNow
  updateExecution (p.execution.released a preservation (repair repairedAt))
  let _ ← emitHeld p.state a.event

/-- `repair_stale_executions` on a stale execution. -/
def repairExecution (cfg : StaleRepairConfig) (e : Execution) (ageSeconds : ℕ) :
    HostRun RepairedExecution := do
  let a := RepairAction.of e.status (hasCompletedWorkflowCheckpoint cfg.engine e)
  let completedAt ← (repairedCompletedAt a e : Coroutine (Option Time))
  let preservation ← (repairPreservation a (e.repairedBy a completedAt) :
    Coroutine (Option PartialResultPreservation))
  let st ← (eventStateFor e.id e.workflowId : Coroutine NativeExecutionState)
  let progress ← repairContainer a (e.repairedBy a completedAt) st
  let expired ← (repairApprovals a progress.execution : Coroutine (List Uuid))
  recordRepair progress a preservation fun repairedAt => {
    repairedAt := repairedAt
    previousStatus := e.status
    repairAction := a.value
    staleAfterSeconds := cfg.staleAfterSeconds
    ageSeconds := ageSeconds
    containerRepair := progress.containerRepair
    expiredApprovalRequestIds := expired }
  return {
    executionId := e.id
    previousStatus := e.status
    newStatus := a.status
    repairAction := a
    reason := staleReason e.status ageSeconds }

/-- The executions a call is about. -/
structure RepairScope where
  workflowId : Option String := none
  executionId : Option Uuid := none

def RepairScope.selects (scope : RepairScope) (e : Execution) : Bool :=
  scope.executionId.all (· = e.id) && scope.workflowId.all (· = e.workflowId)

/-- An execution is repaired if the clock says that it is stale. -/
def repairIfStale (cfg : StaleRepairConfig) (e : Execution) (now : Time) :
    HostRun (List RepairedExecution) :=
  if cfg.isStaleAt e now then do
    let repaired ← repairExecution cfg e (cfg.ageSeconds e now)
    return [repaired]
  else return []

/-- One turn of the loop. -/
def repairListed (cfg : StaleRepairConfig) (scope : RepairScope) (e : Execution) :
    HostRun (List RepairedExecution) :=
  if scope.selects e then do
    let now ← (utcNow : Coroutine Time)
    repairIfStale cfg e now
  else return []

/-- `repair_stale_executions`. -/
def repairStaleExecutions (cfg : StaleRepairConfig) (scope : RepairScope) :
    HostRun (List RepairedExecution) := do
  let active ← (query (.listExecutions ExecutionStatus.isActive) : Coroutine (List Execution))
  Program.collect (repairListed cfg scope) active

end OpenAgency
