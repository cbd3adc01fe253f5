/-
ControlPlane.lean

The execution control plane: queueing an execution, and the operator's pause, resume and
cancel, each of which goes on to the engine's command of the same name through the adapter
registry.

The native adapter is the only one the registry has.  Closing browser sessions is left out.
-/
import OpenAgency.Engine

namespace OpenAgency

open Interaction Program

/-- `_resolve_adapter_for_execution`. -/
def resolveAdapterForExecution (executionId : Uuid) : Coroutine Unit := do
  match ← getExecution executionId with
  | none => raise .executionNotFound s!"Execution '{executionId}' was not found"
  | some e =>
    if e.runtimeAdapterId ≠ "native" then
      raise .keyError s!"Runtime adapter '{e.runtimeAdapterId}' is not registered"

variable {E : RuntimeException → World → Prop}

/-- The registry finds an adapter for native executions only. -/
theorem wp_resolveAdapterForExecution {env : Environment} {w : World} {x : Uuid} {e : Execution}
    (h : w.db.executions.get x = some e) {Q : Unit → World → Prop}
    (hQ : e.runtimeAdapterId = "native" → Q () w)
    (hE : e.runtimeAdapterId ≠ "native" → ∀ exc, E exc w) :
    (resolveAdapterForExecution x).wp (handler env) Q E w := by
  rw [resolveAdapterForExecution, wp_getExecution, h]
  show Program.wp _ _ _ (if e.runtimeAdapterId ≠ "native" then _ else _) w
  rw [wp_ite]
  split
  next hn => exact wp_of_raise (hE hn _)
  next hn => exact wp_of_done (hQ (not_not.mp hn))

/-- `_reject_unresolved_wait`. -/
def rejectUnresolvedWait (executionId : Uuid) : Coroutine Unit := do
  match ← listPendingWaits executionId with
  | [] => return ()
  | wait :: _ =>
    raise .valueError (s!"Execution '{executionId}' has unresolved {wait.kind.value} wait " ++
      s!"'{wait.id}'. Resolve the wait before starting or resuming the execution.")

/-- `queue_start`. -/
def queueStart (executionId : Uuid) : Coroutine Execution := do
  match ← getExecution executionId with
  | none => raise .executionNotFound s!"Execution '{executionId}' was not found"
  | some e =>
    Program.ofExcept (rejectTerminalExecutionReplay e)
    rejectUnresolvedWait executionId
    let queued := { e with status := .queued }
    updateExecution queued
    process (.createTask executionId)
    return queued

/-! ### Closing waits -/

/-- The resolution a wait is closed with. -/
def closingResolution (reason : String) (wait : ExecutionWait) : ExecutionWait.Resolution where
  status := .cancelled
  resolutionKey := takeChars 255 s!"{reason}:{wait.id}"
  resolutionPayload := .obj [("reason", .str reason)]
  resolvedBy := some "execution_control_plane"

/-- Close the given waits; those that were still pending are returned. -/
def closeWaits (reason : String) : List ExecutionWait → Coroutine (List ExecutionWait)
  | [] => return []
  | wait :: rest => do
    let (resolved, claimed) ← resolveExecutionWait wait.id (closingResolution reason wait)
    let closed ← closeWaits reason rest
    return (if claimed then resolved.toList else []) ++ closed

/-- `metadata.last_resolved_wait` for a wait. -/
def LastResolvedWait.ofWait (wait : ExecutionWait) : LastResolvedWait where
  waitId := wait.id
  kind := wait.kind
  status := wait.status
  resolutionKey := wait.resolutionKey
  resolvedAt := wait.resolvedAt

/-- The execution after the waits in `closed`, the last of which is `last`, have
been closed. -/
def Execution.withClosedWaits (e : Execution) (closed : List ExecutionWait)
    (last : ExecutionWait) (setPaused : Bool) : Execution :=
  { e with
    metadata.activeWait := e.metadata.activeWait.filter fun a => closed.all (·.id ≠ a.waitId)
    metadata.lastResolvedWait := some (.ofWait last)
    status := if setPaused then .paused else e.status }

/-- `_close_pending_waits`. -/
def closePendingWaits (e : Execution) (reason : String) (kind : Option ExecutionWaitKind)
    (setPaused : Bool) : Coroutine Unit := do
  let pending ← listPendingWaits e.id
  let closed ← closeWaits reason (pending.filter fun w => kind.all (· = w.kind))
  match closed.getLast? with
  | none => return ()
  | some last => updateExecution (e.withClosedWaits closed last setPaused)

/-! ### Lifecycle commands -/

/-- `pause`. -/
def pause (executionId : Uuid) : Coroutine Execution := do
  match ← getExecution executionId with
  | none => raise .executionNotFound s!"Execution '{executionId}' was not found"
  | some e =>
    if e.status = .sleeping then closePendingWaits e "operator_pause" (some .sleep) true
    resolveAdapterForExecution executionId
    pauseExecution executionId

/-- `resume`. -/
def resume (executionId : Uuid) : Coroutine Execution := do
  match ← getExecution executionId with
  | none => raise .executionNotFound s!"Execution '{executionId}' was not found"
  | some e =>
    Program.ofExcept (rejectTerminalExecutionReplay e)
    rejectUnresolvedWait executionId
    resolveAdapterForExecution executionId
    let resumed ← resumeExecution executionId
    if resumed.status = .running || resumed.status = .queued then
      let _ ← queueStart executionId
    return resumed

/-- `_partial_result_preservation_snapshot`. -/
def partialResultPreservationSnapshot (e : Execution) (reason : String) :
    Coroutine (Option PartialResultPreservation) := do
  let artifacts ← query (.listArtifacts e.id)
  if e.outputPayload.isNone && artifacts.isEmpty then return none
  let now ← utcNow
  return some {
    recordedAt := now
    reason := reason
    outputPayloadPresent := e.outputPayload.isSome
    nodeOutputIds := ((e.outputPayload.getD {}).nodeOutputs.map Prod.fst).insertionSort (· ≤ ·)
    artifactCount := artifacts.length }

/-- The snapshot is only read. -/
theorem wp_partialResultPreservationSnapshot {env : Environment} {w : World} {e : Execution}
    {reason : String} {Q : Option PartialResultPreservation → World → Prop}
    (hQ : ∀ p w', w'.db = w.db → Q p w') :
    (partialResultPreservationSnapshot e reason).wp (handler env) Q E w := by
  rw [partialResultPreservationSnapshot, wp_query, wp_ite]
  split
  · exact wp_of_done (hQ _ _ rfl)
  · rw [wp_utcNow]
    exact wp_of_done (hQ _ _ rfl)

/-- `cancel`. -/
def cancel (executionId : Uuid) : Coroutine Execution := do
  match ← getExecution executionId with
  | none => raise .executionNotFound s!"Execution '{executionId}' was not found"
  | some e =>
    if e.status.isTerminal || e.status = .cancelling then return e
    closePendingWaits e "operator_cancel" none false
    let current ← getExecution executionId
    let e := current.getD e
    let preservation ← partialResultPreservationSnapshot e "cancel_requested"
    updateExecution { e with
      status := .cancelling
      metadata.partialResultPreservation := preservation <|> e.metadata.partialResultPreservation }
    resolveAdapterForExecution executionId
    let cancelled ← cancelExecution executionId
    match preservation with
    | none => return cancelled
    | some snapshot =>
      let cancelled :=
        { cancelled with metadata.partialResultPreservation := some snapshot }
      updateExecution cancelled
      return cancelled

end OpenAgency
