/-
Reconcile.lean

`RuntimeReconciler`: what the state of a worker's container makes of its execution.

`reconcile_once` takes the executions and the containers as they were listed at its
start through the whole pass, `reconcile_execution` looks at one execution.  An
execution whose container has exited is finished by the exit code, unless the worker
left it suspended.  Containers of no execution, and exited containers past their
time to live, are removed.  The cleanup of images is left out, and so are the payloads
of events and the operations recorder.
-/
import OpenAgency.Containers

namespace OpenAgency

open Interaction

/-! ### Reports -/

structure ReconciliationAction where
  action : String
  executionId : Option Uuid
  containerId : String
  detail : String
  deriving DecidableEq

structure ReconciliationReport where
  scannedExecutions : ℕ
  scannedContainers : ℕ
  actions : List ReconciliationAction

namespace ReconciliationAction

def missingContainer (e : Execution) (containerId : String) : ReconciliationAction where
  action := "execution_missing_container"
  executionId := some e.id
  containerId := containerId
  detail := "Active execution lost its managed container"

def containerExited (e : Execution) (c : RuntimeContainerState) : ReconciliationAction where
  action := "execution_container_exited"
  executionId := some e.id
  containerId := c.containerId
  detail := s!"Container status={c.status.value} exit_code=" ++ c.exitCode.elim "None" toString

def containerRemoved (e : Execution) (c : RuntimeContainerState) : ReconciliationAction where
  action := "execution_container_removed"
  executionId := some e.id
  containerId := c.containerId
  detail := "Execution container removed after terminal worker exit"

def containerReaped (e : Execution) (c : RuntimeContainerState) : ReconciliationAction where
  action := "terminal_execution_container_reaped"
  executionId := some e.id
  containerId := c.containerId
  detail := s!"Container status={c.status.value}"

def containerRetained (e : Execution) (c : RuntimeContainerState) : ReconciliationAction where
  action := "terminal_execution_container_retained"
  executionId := some e.id
  containerId := c.containerId
  detail := "Execution lifecycle retained terminal container"

def containerSynced (e : Execution) (c : RuntimeContainerState) : ReconciliationAction where
  action := "execution_container_synced"
  executionId := some e.id
  containerId := c.containerId
  detail := s!"Container status={c.status.value}"

def orphanReaped (c : RuntimeContainerState) : ReconciliationAction where
  action := "orphan_container_reaped"
  executionId := c.executionId
  containerId := c.containerId
  detail := "Managed container had no matching execution row"

def expiredReaped (ttlSeconds : ℕ) (c : RuntimeContainerState) : ReconciliationAction where
  action := "expired_container_reaped"
  executionId := c.executionId
  containerId := c.containerId
  detail := s!"Container older than TTL ({ttlSeconds}s)"

end ReconciliationAction

/-! ### Exits -/

def workerExitSuccess : ℤ := 0

def workerExitWorkflowFailed : ℤ := 10

def workerExitBootstrapFailed : ℤ := 20

def workerExitInfraFailed : ℤ := 30

def workerExitCancelled : ℤ := 40

def workerExitSuspended : ℤ := 50

/-- The error of an execution whose worker failed. -/
def workerFailure (c : RuntimeContainerState) : String :=
  if c.exitCode = some workerExitWorkflowFailed then
    "Managed container reported workflow failure"
  else if c.exitCode = some workerExitBootstrapFailed then
    "Managed container worker bootstrap failed"
  else if c.exitCode = some workerExitInfraFailed then
    "Managed container worker infrastructure failed"
  else s!"Managed container exited unexpectedly with status '{c.status.value}'"

/-- What the exit of a worker makes of its execution, and the events of it. -/
structure WorkerOutcome where
  status : ExecutionStatus
  error : Option String := none
  containerEvent : ExecutionEventType := .containerStopped
  event : ExecutionEventType

def workerOutcome (c : RuntimeContainerState) : WorkerOutcome :=
  if c.exitCode = some workerExitSuccess then
    { status := .completed, event := .executionCompleted }
  else if c.exitCode = some workerExitCancelled then
    { status := .cancelled, event := .executionCancelled }
  else
    { status := .failed
      error := some (workerFailure c)
      containerEvent := .containerFailed
      event := .executionFailed }

/-- The container's columns once it has exited. -/
def Execution.withExit (e : Execution) (c : RuntimeContainerState) : Execution :=
  { e with
    containerStatus := some c.status
    containerEndedAt := c.finishedAt <|> e.completedAt
    containerExitCode := c.exitCode }

/-- An execution that its worker has finished. -/
def Execution.finishedBy (e : Execution) (outcome : WorkerOutcome) (completionTime : Time) :
    Execution :=
  { e with
    status := outcome.status
    error := outcome.error
    completedAt := e.completedAt <|> some completionTime }

/-- A worker that suspended itself leaves the status alone. -/
def recordSuspended (e : Execution) (st : NativeExecutionState) : Coroutine Execution := do
  updateExecution e
  let _ ← emitHeld st .containerStopped
  return e

def recordFinished (e : Execution) (outcome : WorkerOutcome) (st : NativeExecutionState) :
    Coroutine Execution := do
  updateExecution e
  let st ← emitHeld st outcome.containerEvent
  let _ ← emitHeld st outcome.event
  return e

/-- `_mark_execution_failed_for_exited_container`: the execution as it was written. -/
def markExecutionFailedForExitedContainer (e : Execution) (c : RuntimeContainerState) :
    Coroutine Execution := do
  let st ← eventStateFor e.id e.workflowId
  let exited := e.withExit c
  let completionTime ← orUtcNow exited.containerEndedAt
  if c.exitCode = some workerExitSuspended then recordSuspended exited st
  else recordFinished (exited.finishedBy (workerOutcome c) completionTime) (workerOutcome c) st

/-- An execution whose container is gone. -/
def Execution.withoutContainer (e : Execution) (now : Time) : Execution :=
  { e with
    status := .failed
    error := some "Managed container is missing"
    completedAt := some now
    containerStatus := some .missing
    containerEndedAt := some now }

/-- `_mark_execution_failed_for_missing_container`. -/
def markExecutionFailedForMissingContainer (e : Execution) : Coroutine Unit := do
  let st ← eventStateFor e.id e.workflowId
  let now ← utcNow
  updateExecution (e.withoutContainer now)
  let st ← emitHeld st .containerFailed
  let _ ← emitHeld st .executionFailed

/-! ### Containers that have ended -/

/-- An execution that is linked to no container. -/
def Execution.unlinked (e : Execution) : Execution :=
  { e with containerId := none, containerName := none }

/-- An execution that is still active forgets its container. -/
def Execution.unlinkIfActive (e : Execution) : Execution :=
  if e.status.isActive then e.unlinked else e

def recordRemoved (e : Execution) (c : RuntimeContainerState) : Coroutine Unit := do
  let endedAt ← orUtcNow (c.finishedAt <|> e.containerEndedAt)
  updateExecution (e.withRemoved c endedAt).unlinkIfActive

/-- The `try` of `_maybe_remove_finished_execution_container`: whether it succeeded. -/
def removeFinished (e : Execution) (c : RuntimeContainerState) : HostRun Bool := do
  match ← (removeContainer c.containerId c.status.isExited).attempt with
  | .error _ => return false
  | .ok () =>
    recordRemoved e c
    return true

/-- `_maybe_remove_finished_execution_container`. -/
def maybeRemoveFinishedExecutionContainer (e : Execution) (c : RuntimeContainerState) :
    HostRun Bool :=
  if c.status.isExited && e.metadata.terminateContainerOnCompletion then removeFinished e c
  else return false

/-- `_reap_terminal_execution_container`. -/
def reapTerminalExecutionContainer (e : Execution) (c : RuntimeContainerState) :
    HostRun Unit := do
  let st ← (eventStateFor e.id e.workflowId : Coroutine NativeExecutionState)
  let current ← stopInspected c.containerId c
  let endedAt ← (orUtcNow (current.finishedAt <|> e.containerEndedAt) : Coroutine Time)
  updateExecution (e.withRemoved current endedAt)
  let _ ← (emitHeld st .containerStopped : Coroutine NativeExecutionState)

/-- The container's columns as the daemon reports them; what it does not know is kept. -/
def Execution.synced (e : Execution) (c : RuntimeContainerState) : Execution :=
  { e with
    containerStatus := some c.status
    containerStartedAt := c.startedAt <|> e.containerStartedAt
    containerEndedAt := c.finishedAt <|> e.containerEndedAt
    containerExitCode := c.exitCode <|> e.containerExitCode }

/-- One of the columns would change. -/
def Execution.outOfSync (e : Execution) (c : RuntimeContainerState) : Bool :=
  e.containerStatus ≠ some c.status || (e.synced c).containerStartedAt ≠ e.containerStartedAt ||
    (e.synced c).containerEndedAt ≠ e.containerEndedAt ||
    (e.synced c).containerExitCode ≠ e.containerExitCode

/-- `_sync_execution_container_state`. -/
def syncExecutionContainerState (e : Execution) (c : RuntimeContainerState) : Coroutine Unit :=
  if e.outOfSync c then updateExecution (e.synced c) else return ()

/-! ### One execution -/

/-- An active execution without its container. -/
def reconcileMissing (e : Execution) (containerId : String) :
    HostRun (List ReconciliationAction) := do
  markExecutionFailedForMissingContainer e
  return [.missingContainer e containerId]

/-- An active execution whose container has exited. -/
def reconcileExited (e : Execution) (c : RuntimeContainerState) :
    HostRun (List ReconciliationAction) := do
  let exited ← (markExecutionFailedForExitedContainer e c : Coroutine Execution)
  let removed ← maybeRemoveFinishedExecutionContainer exited c
  return .containerExited e c :: if removed then [.containerRemoved e c] else []

/-- A terminal execution whose container is there. -/
def reconcileTerminal (e : Execution) (c : RuntimeContainerState) :
    HostRun (List ReconciliationAction) :=
  if e.metadata.terminateContainerOnCompletion then do
    reapTerminalExecutionContainer e c
    return [.containerReaped e c]
  else do
    syncExecutionContainerState e c
    return [.containerRetained e c]

/-- The container's columns are updated, and `actions` reported. -/
def reconcileSynced (e : Execution) (c : RuntimeContainerState)
    (actions : List ReconciliationAction) : HostRun (List ReconciliationAction) := do
  syncExecutionContainerState e c
  return actions

/-- `reconcile_once` on an execution linked to the container `c`. -/
def reconcileLinked (e : Execution) (c : RuntimeContainerState) :
    HostRun (List ReconciliationAction) :=
  if e.status.isActive && c.status.isExited then reconcileExited e c
  else if e.status.isTerminal && (c.status.isLive || c.status.isExited) then
    reconcileTerminal e c
  else reconcileSynced e c []

/-- One turn of the loop over the executions. -/
def reconcileListed (containers : List RuntimeContainerState) (e : Execution) :
    HostRun (List ReconciliationAction) :=
  match e.container with
  | none => return []
  | some i =>
    match findContainer containers i with
    | some c => reconcileLinked e c
    | none => if e.status.isActive then reconcileMissing e i else return []

/-! ### A pass -/

/-- `_reap_orphan_container`, for a container whose execution is none of those listed. -/
def reapOrphan (executions : List Execution) (c : RuntimeContainerState) :
    HostRun (List ReconciliationAction) :=
  if c.executionId.all fun x => executions.any (·.id = x) then return []
  else do
    let _ ← stopInspected c.containerId c
    return [.orphanReaped c]

/-- The container has exited and is past its time to live. -/
def RuntimeContainerState.expired (c : RuntimeContainerState) (ttlSeconds : ℕ) (now : Time) :
    Bool :=
  c.status.isExited && c.finishedAt.any fun t => t + seconds ttlSeconds ≤ now

/-- Remove an expired container, if the daemon does. -/
def reapExpired (ttlSeconds : ℕ) (c : RuntimeContainerState) :
    HostRun (List ReconciliationAction) := do
  match ← (removeContainer c.containerId true).attempt with
  | .error _ => return []
  | .ok () => return [.expiredReaped ttlSeconds c]

/-- `_cleanup_expired_containers`. -/
def cleanupExpiredContainers (ttlSeconds : ℕ) (containers : List RuntimeContainerState) :
    HostRun (List ReconciliationAction) := do
  let now ← (utcNow : Coroutine Time)
  Program.collect (reapExpired ttlSeconds) (containers.filter (·.expired ttlSeconds now))

/-- `reconcile_once`. -/
def reconcileOnce (ttlSeconds : ℕ) : HostRun ReconciliationReport := do
  let executions ← (query (.listExecutions fun _ => true) : Coroutine (List Execution))
  let containers ← listManagedContainers
  let reconciled ← Program.collect (reconcileListed containers) executions
  let orphans ← Program.collect (reapOrphan executions) containers
  let expired ← cleanupExpiredContainers ttlSeconds containers
  return {
    scannedExecutions := executions.length
    scannedContainers := containers.length
    actions := reconciled ++ orphans ++ expired }

/-! ### A single execution -/

/-- The container `reconcile_execution` goes by: the one it is told about, or the linked
one, if the daemon answers. -/
def observedContainer (e : Execution) :
    Option RuntimeContainerState → HostRun (Option RuntimeContainerState)
  | some c => return some c
  | none =>
    match e.container with
    | none => return none
    | some i => do
      match ← (inspectContainer i).attempt with
      | .error _ => return none
      | .ok c => return some c

/-- `reconcile_execution` on an execution linked to the container `i`. -/
def reconcileObserved (e : Execution) (i : String) :
    Option RuntimeContainerState → HostRun (List ReconciliationAction)
  | none => if e.status.isActive then reconcileMissing e i else return []
  | some c =>
    if e.status.isActive && c.status.isExited then reconcileExited e c
    else reconcileSynced e c [.containerSynced e c]

/-- The actions of `reconcile_execution` on `e`. -/
def reconcileSingle (e : Execution) (observed : Option RuntimeContainerState) :
    HostRun (List ReconciliationAction) :=
  match e.container with
  | none => return []
  | some i => reconcileObserved e i observed

/-- `reconcile_execution`. -/
def reconcileExecution (executionId : Uuid) (known : Option RuntimeContainerState) :
    HostRun ReconciliationReport := do
  match ← (getExecution executionId : Coroutine (Option Execution)) with
  | none => return { scannedExecutions := 0, scannedContainers := 0, actions := [] }
  | some e =>
    let observed ← observedContainer e known
    let actions ← reconcileSingle e observed
    return {
      scannedExecutions := 1
      scannedContainers := if observed.isSome then 1 else 0
      actions := actions }

end OpenAgency
