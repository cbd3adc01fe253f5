/-
Replacement.lean

Replacing the active executions of a workflow whose definition has changed: the
registry's `create_execution`, the control plane's `_replace_outdated_execution`, and
`replace_active_executions_for_workflow_revision`, which runs both for every
candidate it selected when it was called.

The registry has the native adapter and the CrewAI adapter, which supports no
cancellation.  The dictionary of states CrewAI keeps of its own is left out: the
state of a new execution is fresh.
-/
import OpenAgency.Containers
import OpenAgency.ControlPlane

namespace OpenAgency

open Relational Interaction

/-! ### The registry -/

structure RegistryConfig where
  engine : EngineConfig
  crewaiInstalled : Bool := false
  /-- What the trigger and the workflow's metadata resolve to: the execution host, the
  execution lifecycle and the runtime policy. -/
  creationMetadata : WorkflowDefinition → Json → ExecutionMetadata := fun _ _ => {}

/-- `_normalized_runtime_adapter_id`. -/
def normalizedRuntimeAdapterId (adapterId : Option String) : Option String :=
  (adapterId.map strip).filter (· ≠ "")

/-- `_resolve_adapter_for_workflow`: the name of the adapter. -/
def RegistryConfig.resolveAdapterForWorkflow (cfg : RegistryConfig)
    (workflow : WorkflowDefinition) (adapterId : Option String) :
    Except RuntimeException String :=
  let name := (normalizedRuntimeAdapterId adapterId).getD "native"
  if name = "native" then .ok name
  else if name = "crewai" then
    if cfg.crewaiInstalled && !workflow.taskDefinitions.isEmpty &&
        !workflow.agentDefinitions.isEmpty then .ok name
    else .error ⟨.workflowNotFound,
      s!"Workflow '{workflow.id}' is not supported by adapter '{name}'"⟩
  else .error ⟨.keyError, s!"Runtime adapter '{name}' is not registered"⟩

/-- `prepare_execution` of an adapter. -/
def prepareExecution (adapter : String) (e : Execution) : Coroutine Unit := do
  if adapter = "native" then
    let st ← process (.state e.id e.workflowId)
    updateExecution e
    let _ ← emit st .executionCreated
  else
    updateExecution e
    let _ ← emitHeld { executionId := e.id, workflowId := e.workflowId } .executionCreated

/-- `RuntimeAdapterRegistry.create_execution`. -/
def createExecution (cfg : RegistryConfig) (workflowId : String) (inputPayload : InputPayload)
    (trigger : Json) (runtimeAdapterId goalId : Option String) : Coroutine Execution := do
  match cfg.engine.workflow workflowId with
  | none => raise .workflowNotFound s!"Workflow '{workflowId}' was not found"
  | some workflow =>
    let requested := normalizedRuntimeAdapterId runtimeAdapterId
    let adapter ← Program.ofExcept (cfg.resolveAdapterForWorkflow workflow requested)
    let id ← uuid4
    let now ← utcNow
    let e : Execution := {
      id := id
      workflowId := workflowId
      goalId := goalId
      runtimeAdapterId := adapter
      status := .created
      triggerType := (trigger.string? "type").getD "manual"
      triggerPayload := trigger
      inputPayload := inputPayload
      createdAt := now
      createdBy := orElseString (trigger.string? "created_by") (trigger.string? "run_by")
      metadata := { cfg.creationMetadata workflow trigger with
        trigger := trigger
        requestedAdapter := requested
        agentIds := workflow.agentDefinitions.map (·.id) } }
    prepareExecution adapter e
    return e

/-- `RuntimeAdapterRegistry.cancel_execution`. -/
def registryCancelExecution (executionId : Uuid) : Coroutine Execution := do
  match ← getExecution executionId with
  | none => raise .executionNotFound s!"Execution '{executionId}' was not found"
  | some e =>
    if e.runtimeAdapterId = "native" then cancelExecution executionId
    else if e.runtimeAdapterId = "crewai" then
      raise .crewaiUnsupportedOperation "Runtime adapter 'crewai' does not support cancel_execution"
    else raise .keyError s!"Runtime adapter '{e.runtimeAdapterId}' is not registered"

/-! ### Replacing one execution -/

/-- The reason that marks an execution superseded by a revision, and its replacement. -/
def workflowRevisionSuperseded : String := "workflow_revision_superseded"

/-- An execution with a snapshot of its partial results, if there is one. -/
def Execution.preserve (e : Execution) : Option PartialResultPreservation → Execution
  | none => e
  | some snapshot => { e with metadata.partialResultPreservation := some snapshot }

/-- The `try` around the registry's cancellation: an execution that cannot be cancelled
is written cancelled. -/
def cancelOutdated (e : Execution) (st : NativeExecutionState)
    (preservation : Option PartialResultPreservation) :
    Coroutine (Execution × NativeExecutionState) := do
  match ← (registryCancelExecution e.id).attempt with
  | .error _ =>
    let completedAt ← orUtcNow e.completedAt
    let cancelled := { e.preserve preservation with
      status := .cancelled
      completedAt := some completedAt }
    updateExecution cancelled
    let st ← emitHeld st .executionCancelled
    return (cancelled, st)
  | .ok cancelled =>
    match preservation with
    | none => return (cancelled, st)
    | some _ =>
      let preserved := cancelled.preserve preservation
      updateExecution preserved
      return (preserved, st)

/-- `completed_at` once a cancellation is finished that the worker can no longer finish. -/
def finalCompletedAt (e : Execution) : Coroutine (Option Time) :=
  if e.status = .cancelling then do
    let now ← orUtcNow e.completedAt
    return some now
  else return e.completedAt

/-- The event of such a cancellation. -/
def emitFinalCancellation (e : Execution) (st : NativeExecutionState) :
    Coroutine NativeExecutionState :=
  if e.status = .cancelling then emitHeld st .executionCancelled else return st

/-- What is written once the container of a replaced execution is removed. -/
def finishReplaced (e : Execution) (container : RuntimeContainerState)
    (st : NativeExecutionState) : Coroutine Unit := do
  let completedAt ← finalCompletedAt e
  let endedAt ← orUtcNow (container.finishedAt <|> e.containerEndedAt)
  updateExecution { e with
    status := if e.status = .cancelling then .cancelled else e.status
    completedAt := completedAt
    containerStatus := some .removed
    containerEndedAt := some endedAt
    containerExitCode := container.exitCode }
  let st ← emitFinalCancellation e st
  let _ ← emitHeld st .containerReplaced

/-- The end of `_replace_outdated_execution`, with or without a container. -/
def recordReplaced (e : Execution) (st : NativeExecutionState) : HostRun Unit := do
  match e.container with
  | none => updateExecution e
  | some containerId =>
    let container ← stopAndRemove containerId
    finishReplaced e container st

/-- `preservation or await self._partial_result_preservation_snapshot(…)`. -/
def orSnapshot (e : Execution) (reason : String) :
    Option PartialResultPreservation → Coroutine (Option PartialResultPreservation)
  | some snapshot => return some snapshot
  | none => partialResultPreservationSnapshot e reason

/-- An execution with its reason to be restarted. -/
def Execution.marked (e : Execution) (reason : String) : Execution :=
  { e with restartReason := some reason }

/-- `_replace_outdated_execution`. -/
def replaceOutdatedExecution (e : Execution) (reason : String)
    (preservation : Option PartialResultPreservation) : HostRun Unit := do
  let st ← (eventStateFor e.id e.workflowId : Coroutine NativeExecutionState)
  let preservation ← (orSnapshot e reason preservation :
    Coroutine (Option PartialResultPreservation))
  let (cancelled, st) ← (cancelOutdated ((e.marked reason).preserve preservation) st
    preservation : Coroutine (Execution × NativeExecutionState))
  recordReplaced (cancelled.marked reason) st

/-! ### Replacing all of them -/

/-- The arguments of `replace_active_executions_for_workflow_revision`. -/
structure RevisionChange where
  workflowId : String
  previousRevision : Option ℤ
  replacementRevision : ℤ
  source : String := "workflow_revision_change"

namespace RevisionChange

/-- The trigger of the execution that replaces `e`. -/
def trigger (change : RevisionChange) (e : Execution) : Json :=
  .obj [
    ("type", .str workflowRevisionSuperseded),
    ("source", .str change.source),
    ("created_by", .str "workflow-update"),
    ("replaces_execution_id", .str (toString e.id)),
    ("previous_workflow_revision",
      match change.previousRevision with
      | none => .null
      | some revision => .num revision),
    ("replacement_workflow_revision", .num change.replacementRevision)]

/-- The call takes `e` up. -/
def selects (change : RevisionChange) (e : Execution) : Bool :=
  e.workflowId = change.workflowId && e.status.isActive &&
    e.restartReason ≠ some workflowRevisionSuperseded

end RevisionChange

/-- A new execution, linked to the execution `e` it replaces. -/
def Execution.replacing (replacement e : Execution)
    (preservation : Option PartialResultPreservation) : Execution :=
  { replacement with
    replacementOfExecutionId := some e.id
    restartReason := some workflowRevisionSuperseded
    metadata.sourcePartialResultPreservation :=
      preservation <|> replacement.metadata.sourcePartialResultPreservation }

/-- The replacement of `e` is linked to it and queued. -/
def startReplacement (e : Execution) (preservation : Option PartialResultPreservation)
    (replacement : Execution) : Coroutine Unit := do
  updateExecution (replacement.replacing e preservation)
  let _ ← queueStart replacement.id

/-- One turn of the loop: the new execution that replaces `e`. -/
def replaceCandidate (cfg : RegistryConfig) (change : RevisionChange) (e : Execution) :
    HostRun Uuid := do
  let replacement ← (createExecution cfg e.workflowId e.inputPayload (change.trigger e)
    (some e.runtimeAdapterId) e.goalId : Coroutine Execution)
  let preservation ← (partialResultPreservationSnapshot e workflowRevisionSuperseded :
    Coroutine (Option PartialResultPreservation))
  startReplacement e preservation replacement
  replaceOutdatedExecution e workflowRevisionSuperseded preservation
  return replacement.id

def replaceCandidates (cfg : RegistryConfig) (change : RevisionChange) :
    List Execution → HostRun (List Uuid)
  | [] => return []
  | e :: rest => do
    let replacement ← replaceCandidate cfg change e
    let replaced ← replaceCandidates cfg change rest
    return replacement :: replaced

/-- `replace_active_executions_for_workflow_revision`. -/
def replaceActiveExecutions (cfg : RegistryConfig) (change : RevisionChange) :
    HostRun (List Uuid) := do
  let active ← (query (.listExecutions ExecutionStatus.isActive) : Coroutine (List Execution))
  replaceCandidates cfg change (active.filter change.selects)

end OpenAgency
