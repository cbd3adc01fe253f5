/-
ExecutionWaits.lean

`ExecutionWaitService`: suspending an execution on a durable wait, and waking it.
A wait and the execution it suspends are two records.  `create_wait` stores the
wait and then points the execution at it; `resolve_wait` claims the wait in the
store and then moves the execution on, so that of several wakes one continues it.
-/
import OpenAgency.ControlPlane

namespace OpenAgency

open Interaction

/-! ### Creating a wait -/

/-- What `create_wait` is given. -/
structure CreateWaitRequest where
  executionId : Uuid
  kind : ExecutionWaitKind
  idempotencyKey : String
  checkpoint : Option OutputPayload := none
  requestPayload : Json := .obj []
  policy : Json := .obj []
  correlationKey : Option String := none
  wakeAt : Option Time := none
  deadlineAt : Option Time := none
  metadata : WaitMetadata := {}

namespace CreateWaitRequest

/-- `normalized_key`. -/
def key (r : CreateWaitRequest) : String := strip r.idempotencyKey

/-- The wait to store for execution `e`. -/
def wait (r : CreateWaitRequest) (e : Execution) (id : Uuid) (now : Time) : ExecutionWait where
  id := id
  executionId := r.executionId
  kind := r.kind
  idempotencyKey := r.key
  correlationKey := (r.correlationKey.map strip).filter (· ≠ "")
  checkpoint := r.checkpoint.getD (e.outputPayload.getD {})
  requestPayload := r.requestPayload
  policy := r.policy
  wakeAt := r.wakeAt
  deadlineAt := r.deadlineAt
  createdAt := now
  updatedAt := now
  metadata := r.metadata

end CreateWaitRequest

/-- The execution suspended on a wait that was asked for with the given kind. -/
def Execution.suspendOn (e : Execution) (kind : ExecutionWaitKind) (wait : ExecutionWait) :
    Execution :=
  { e with
    status := waitExecutionStatus kind
    metadata.activeWait := some {
      waitId := wait.id
      kind := wait.kind
      createdAt := some wait.createdAt
      wakeAt := wait.wakeAt
      deadlineAt := wait.deadlineAt } }

/-- The store refused the wait: another call may have created it first. -/
def createWaitConflict (r : CreateWaitRequest) (exc : RuntimeException) :
    Coroutine (ExecutionWait × Bool) := do
  if exc.cls ≠ .integrityError && !exc.cls.isValueError then Program.throw exc
  let conflict : Coroutine (ExecutionWait × Bool) := raise .executionWaitConflict
    s!"Execution '{r.executionId}' acquired another pending wait concurrently."
  match ← listPendingWaits r.executionId with
  | [] => conflict
  | existing :: _ => if existing.idempotencyKey = r.key then return (existing, false) else conflict

/-- Store the wait, and suspend the execution on what the store answers. -/
def storeWait (r : CreateWaitRequest) (e : Execution) (wait : ExecutionWait) :
    Coroutine (ExecutionWait × Bool) := do
  match ← (createExecutionWait wait).attempt with
  | .error exc => createWaitConflict r exc
  | .ok saved =>
    updateExecution (e.suspendOn r.kind saved)
    emitFromLog e.id e.workflowId .executionWaiting
    return (saved, true)

/-- The part of `create_wait` for an execution without a pending wait. -/
def createFreshWait (r : CreateWaitRequest) (e : Execution) (now : Time) :
    Coroutine (ExecutionWait × Bool) := do
  let id ← uuid4
  let wait ← Program.ofExcept (r.wait e id now).validateLifecycle
  storeWait r e wait

/-- The part of `create_wait` after its checks. -/
def createAcceptedWait (r : CreateWaitRequest) (e : Execution) (now : Time) :
    Coroutine (ExecutionWait × Bool) := do
  match ← listPendingWaits r.executionId with
  | [] => createFreshWait r e now
  | existing :: _ =>
    if existing.idempotencyKey = r.key then return (existing, false)
    raise .executionWaitConflict
      s!"Execution '{r.executionId}' already has pending wait '{existing.id}'."

/-- `create_wait`: the wait, and whether this call created it. -/
def createWait (r : CreateWaitRequest) : Coroutine (ExecutionWait × Bool) := do
  match ← getExecution r.executionId with
  | none => raise .executionNotFound s!"Execution '{r.executionId}' was not found"
  | some e =>
    if !e.status.isWaitCreationSource then
      raise .executionWaitConflict
        "Execution must be paused at a persisted checkpoint before a durable wait can be created."
    if r.key = "" then raise .valueError "idempotency_key must not be empty"
    let now ← utcNow
    if r.wakeAt.any fun wake => r.deadlineAt.any (· < wake) then
      raise .valueError "deadline_at cannot be earlier than wake_at"
    createAcceptedWait r e now

/-! ### Resolving a wait -/

/-- What `resolve_wait` is given. -/
structure ResolveWaitRequest where
  executionId : Uuid
  waitId : Uuid
  resolutionKey : String
  resolutionPayload : Json := .obj []
  status : ExecutionWaitStatus := .resolved
  resolvedBy : Option String := none
  resume : Bool := true

namespace ResolveWaitRequest

/-- `normalized_key`. -/
def key (r : ResolveWaitRequest) : String := strip r.resolutionKey

/-- The columns the store's update writes. -/
def resolution (r : ResolveWaitRequest) : ExecutionWait.Resolution where
  status := r.status
  resolutionKey := r.key
  resolutionPayload := r.resolutionPayload
  resolvedBy := r.resolvedBy

/-- `should_resume`. -/
def shouldResume (r : ResolveWaitRequest) : Bool := r.resume && r.status = .resolved

end ResolveWaitRequest

/-- What `resolve_wait` returns. -/
structure WakeOutcome where
  wait : ExecutionWait
  claimed : Bool
  resumed : Bool
  execution : Option Execution

/-- `get_wait`. -/
def getWait (executionId waitId : Uuid) : Coroutine ExecutionWait := do
  match ← getExecutionWait waitId with
  | none => raise .executionWaitNotFound s!"Execution wait '{waitId}' was not found"
  | some wait =>
    if wait.executionId ≠ executionId then
      raise .executionWaitNotFound s!"Execution wait '{waitId}' was not found"
    return wait

/-- The execution is suspended on the wait. -/
def Execution.isSuspendedOn (e : Execution) (wait : ExecutionWait) : Bool :=
  e.status = waitExecutionStatus wait.kind && e.metadata.activeWait.any (·.waitId = wait.id)

/-- The check a wake makes while the wait is pending. -/
def checkSuspended (r : ResolveWaitRequest) (wait : ExecutionWait) : Coroutine Execution := do
  match ← getExecution r.executionId with
  | none => raise .executionNotFound s!"Execution '{r.executionId}' was not found"
  | some e =>
    if !e.isSuspendedOn wait then
      raise .executionWaitConflict
        s!"Execution '{r.executionId}' is no longer suspended on wait '{wait.id}'."
    if r.shouldResume && e.runtimeAdapterId ≠ "native" then
      raise .executionWaitConflict
        "Automatic durable wait resume currently requires the native runtime."
    return e

/-- The execution the check has read, where the wait is pending. -/
def suspendedExecution (r : ResolveWaitRequest) (wait : ExecutionWait) :
    Coroutine (Option Execution) := do
  if wait.status = .pending then
    let e ← checkSuspended r wait
    return some e
  else return none

/-- Store a resolution in `input_payload.wait_resolutions`. -/
def InputPayload.setResolution (p : InputPayload) (r : WaitResolution) : InputPayload :=
  { p with
    waitResolutions :=
      if p.waitResolutions.any (·.waitId = r.waitId) then
        p.waitResolutions.map fun old => if old.waitId = r.waitId then r else old
      else p.waitResolutions ++ [r] }

/-- The execution that a resolved wait has woken. -/
def Execution.wakeFrom (e : Execution) (resolved : ExecutionWait) : Execution :=
  { e with
    status := .paused
    metadata.activeWait := e.metadata.activeWait.filter (·.waitId ≠ resolved.id)
    metadata.lastResolvedWait := some (.ofWait resolved)
    inputPayload := e.inputPayload.setResolution {
      waitId := resolved.id
      kind := resolved.kind
      status := resolved.status
      payload := resolved.resolutionPayload.getD (.obj [])
      resolvedAt := resolved.resolvedAt } }

/-- Wake the execution of a claimed wait. -/
def wakeExecution (e : Execution) (resolved : ExecutionWait) : Coroutine Unit := do
  updateExecution (e.wakeFrom resolved)
  emitFromLog e.id e.workflowId .executionWoken

/-- The execution a claimed wait belongs to, read again where the first check has
not read it. -/
def executionToWake (r : ResolveWaitRequest) : Option Execution → Coroutine Execution
  | some e => return e
  | none => do
    match ← getExecution r.executionId with
    | none => raise .executionNotFound s!"Execution '{r.executionId}' was not found"
    | some e => return e

/-- What `resolve_wait` does with the store's answer: the wait, and the execution if
this call has woken it. -/
def afterClaim (r : ResolveWaitRequest) (checked : Option Execution) :
    Option ExecutionWait × Bool → Coroutine (ExecutionWait × Option Execution)
  | (none, _) => do
    let current ← getWait r.executionId r.waitId
    let resolvedBy := current.resolutionKey.getD "None"
    raise .executionWaitConflict
      s!"Execution wait '{r.waitId}' was already resolved by key '{resolvedBy}'."
  | (some resolved, false) => return (resolved, none)
  | (some resolved, true) => do
    let e ← executionToWake r checked
    wakeExecution e resolved
    return (resolved, some e)

/-- The part of `resolve_wait` before it resumes the execution. -/
def claimWait (r : ResolveWaitRequest) : Coroutine (ExecutionWait × Option Execution) := do
  if !r.status.isTerminal then
    raise .valueError "Execution waits may only resolve to resolved, expired, or cancelled."
  if r.key = "" then raise .valueError "resolution_key must not be empty"
  let wait ← getWait r.executionId r.waitId
  let checked ← suspendedExecution r wait
  let answer ← resolveExecutionWait wait.id r.resolution
  afterClaim r checked answer

/-- Continue the execution, where this call has woken it and asks for that. -/
def resumeWoken (r : ResolveWaitRequest) :
    ExecutionWait × Option Execution → Coroutine WakeOutcome
  | (wait, none) => return ⟨wait, false, false, none⟩
  | (wait, some e) => do
    if r.shouldResume then
      let resumed ← resume e.id
      return ⟨wait, true, true, some resumed⟩
    else return ⟨wait, true, false, none⟩

/-- `resolve_wait`. -/
def resolveWait (r : ResolveWaitRequest) : Coroutine WakeOutcome := claimWait r >>= resumeWoken r

/-! ### Waking many -/

/-- One entry of a wake's report. -/
structure WakeItem where
  waitId : Uuid
  executionId : Uuid
  outcome : Except RuntimeException WakeOutcome

/-- Resolve waits one after another; what one of them raises is only reported. -/
def wakeEach (request : ExecutionWait → ResolveWaitRequest) :
    List ExecutionWait → Coroutine (List WakeItem)
  | [] => return []
  | wait :: rest => do
    let outcome ← (resolveWait (request wait)).attempt
    let items ← wakeEach request rest
    return ⟨wait.id, wait.executionId, outcome⟩ :: items

/-- The resolution of a wait whose deadline has passed. -/
def deadlineRequest (wait : ExecutionWait) : ResolveWaitRequest where
  executionId := wait.executionId
  waitId := wait.id
  resolutionKey :=
    let deadline := wait.deadlineAt.elim "expired" isoformat
    s!"deadline:{wait.id}:{deadline}"
  resolutionPayload := .obj [
    ("deadline_at", wait.deadlineAt.elim .null (.str ∘ isoformat)),
    ("reason", .str "Execution wait deadline expired.")]
  status := .expired
  resolvedBy := some "runtime_reconciler"
  resume := false

/-- The resolution of a sleep that is over. -/
def timerRequest (wait : ExecutionWait) : ResolveWaitRequest where
  executionId := wait.executionId
  waitId := wait.id
  resolutionKey :=
    let wake := wait.wakeAt.elim "due" isoformat
    s!"timer:{wait.id}:{wake}"
  resolutionPayload := .obj [("wake_at", wait.wakeAt.elim .null (.str ∘ isoformat))]
  resolvedBy := some "runtime_reconciler"

/-- `wake_due_waits`. -/
def wakeDueWaits (now : Option Time) (limit : ℤ) : Coroutine (List WakeItem) := do
  let current ← match now with
    | some t => pure t
    | none => utcNow
  let expired ← selectExecutionWaits (.expired current limit)
  let expiredItems ← wakeEach deadlineRequest expired
  let due ← selectExecutionWaits (.due current limit)
  let dueItems ← wakeEach timerRequest due
  return expiredItems ++ dueItems

/-- What `wake_event` is given. -/
structure WakeEventRequest where
  correlationKey : String
  eventId : String
  eventPayload : Json := .obj []
  resolvedBy : Option String := none
  limit : ℤ := 100

/-- The resolution of a wait for an event. -/
def WakeEventRequest.request (r : WakeEventRequest) (wait : ExecutionWait) :
    ResolveWaitRequest where
  executionId := wait.executionId
  waitId := wait.id
  resolutionKey :=
    let event := strip r.eventId
    s!"event:{event}:{wait.id}"
  resolutionPayload := .obj [
    ("event_id", .str (strip r.eventId)),
    ("correlation_key", .str (strip r.correlationKey)),
    ("payload", r.eventPayload)]
  resolvedBy := orElseString r.resolvedBy (some "event_trigger")

/-- `wake_event`. -/
def wakeEvent (r : WakeEventRequest) : Coroutine (List WakeItem) := do
  if strip r.correlationKey = "" then raise .valueError "correlation_key must not be empty"
  if strip r.eventId = "" then raise .valueError "event_id must not be empty"
  let candidates ← selectExecutionWaits (.pendingByCorrelation (strip r.correlationKey) r.limit)
  wakeEach r.request (candidates.filter (·.kind = .event))

end OpenAgency
