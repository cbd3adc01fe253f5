/-
Store.lean

The methods of `SQLExecutionStore` the runtime calls, as coroutines over the
statements they issue.  `get_execution` and `update_execution` are single
statements; the others issue several, and other coroutines may run in between.
-/
import OpenAgency.Runtime

namespace OpenAgency

open Interaction Program RuntimeOp

/-- `SQLExecutionStore.get_execution`: a copy of the row. -/
def getExecution (id : Uuid) : Coroutine (Option Execution) := query (.getExecution id)

/-- `SQLExecutionStore.update_execution`: the copy overwrites the row. -/
def updateExecution (e : Execution) : Coroutine Unit := query (.updateExecution e)

variable {β : Type}

@[simp] theorem getExecution_bind (id : Uuid) (f : Option Execution → Coroutine β) :
    (getExecution id >>= f) = Program.call (S := RuntimeSig) (.db (.getExecution id)) f := rfl

@[simp] theorem updateExecution_bind (e : Execution) (f : Unit → Coroutine β) :
    (updateExecution e >>= f) = Program.call (S := RuntimeSig) (.db (.updateExecution e)) f := rfl

variable {E : RuntimeException → World → Prop} {env : Environment}

variable {w : World}

theorem wp_getExecution {Q : β → World → Prop} (id : Uuid) (f : Option Execution → Coroutine β) :
    (getExecution id >>= f).wp (handler env) Q E w ↔
      (f (w.db.executions.get id)).wp (handler env) Q E w := wp_call _ _ _

theorem wp_updateExecution {Q : β → World → Prop} (e : Execution) (f : Unit → Coroutine β) :
    (updateExecution e >>= f).wp (handler env) Q E w ↔
      (f ()).wp (handler env) Q E { w with db.executions := w.db.executions.save e } := wp_call _ _ _

theorem wp_updateExecution_last {Q : Unit → World → Prop} (e : Execution) :
    (updateExecution e).wp (handler env) Q E w ↔
      Q () { w with db.executions := w.db.executions.save e } := by
  rw [← bind_done (updateExecution e), wp_updateExecution, wp_done]

variable {E : RuntimeException → ℕ → World → Prop} {Q : β → ℕ → World → Prop}

theorem wpc_getExecution {n : ℕ} {C : ℕ → World → Prop} (id : Uuid)
    (f : Option Execution → Coroutine β) :
    (getExecution id >>= f).wpc (handler env) isWrite C Q E n w ↔
      (f (w.db.executions.get id)).wpc (handler env) isWrite C Q E n w :=
  wpc_query_read (o := .getExecution id) rfl f

theorem wpc_updateExecution {n : ℕ} {C : ℕ → World → Prop} (e : Execution)
    (f : Unit → Coroutine β) :
    (updateExecution e >>= f).wpc (handler env) isWrite C Q E n w ↔
      C n w ∧ (f ()).wpc (handler env) isWrite C Q E (n + 1)
        { w with db.executions := w.db.executions.save e } :=
  wpc_query_write (o := .updateExecution e) rfl f

/-! ### Waits -/

/-- `SQLExecutionStore.create_execution_wait`: an insertion that breaks a unique
constraint answers the wait stored under the same idempotency key, whatever its
status, and raises only when there is none. -/
def createExecutionWait (w : ExecutionWait) : Coroutine ExecutionWait := do
  match ← query (.insertExecutionWait w) with
  | .ok () => Program.ofExcept (ExecutionWaitORM.ofWait w).toWait
  | .error e =>
    match ← query (.getExecutionWaitByKey w.executionId w.idempotencyKey) with
    | none => Program.throw e
    | some existing => Program.ofExcept existing.toWait

/-- `SQLExecutionStore.get_execution_wait`. -/
def getExecutionWait (id : Uuid) : Coroutine (Option ExecutionWait) := do
  match ← query (.getExecutionWait id) with
  | none => return none
  | some row =>
    let w ← Program.ofExcept row.toWait
    return some w

/-- `SQLExecutionStore.list_execution_waits` and its siblings for due, expired
and correlated waits. -/
def selectExecutionWaits (q : WaitQuery) : Coroutine (List ExecutionWait) := do
  let rows ← query (.listExecutionWaits q)
  Program.ofExcept (rows.mapM ExecutionWaitORM.toWait)

/-- `list_execution_waits(execution_id, status=PENDING)`. -/
def listPendingWaits (executionId : Uuid) : Coroutine (List ExecutionWait) :=
  selectExecutionWaits (.ofExecution executionId (some .pending))

/-- What `resolve_execution_wait` returns for the row it reads back depends on the
row count of its update and on the key the row was resolved under. -/
def readBackRow (r : ExecutionWait.Resolution) (rowcount : ℕ) :
    Option ExecutionWaitORM → Coroutine (Option ExecutionWait × Bool)
  | none => return (none, false)
  | some row => do
    let resolved ← Program.ofExcept row.toWait
    if rowcount = 1 then return (some resolved, true)
    else if resolved.resolutionKey = some r.resolutionKey then return (some resolved, false)
    else return (none, false)

/-- The part of `resolve_execution_wait` after its update. -/
def readBackResolution (id : Uuid) (r : ExecutionWait.Resolution) :
    Except RuntimeException ℕ → Coroutine (Option ExecutionWait × Bool)
  | .error e => Program.throw e
  | .ok rowcount => query (.getExecutionWait id) >>= readBackRow r rowcount

/-- `SQLExecutionStore.resolve_execution_wait`: one conditional update, then a
read-back of the row. -/
def resolveExecutionWait (id : Uuid) (r : ExecutionWait.Resolution) :
    Coroutine (Option ExecutionWait × Bool) := do
  let now ← utcNow
  let updated ← query (.updatePendingExecutionWait id r now)
  readBackResolution id r updated

/-! ### Locks -/

/-- `(now - last_heartbeat_at).total_seconds() > stale_after_seconds`, or no
heartbeat at all. -/
def isStale (e : Execution) (staleAfterSeconds : ℕ) (now : Time) : Bool :=
  match e.lastHeartbeatAt with
  | none => true
  | some t => t + seconds staleAfterSeconds < now

/-- `worker_id in {None, worker}`. -/
def ownedByOrFree (e : Execution) (worker : String) : Bool :=
  e.workerId = none || e.workerId = some worker

/-- `SQLExecutionStore.acquire_lock`. -/
def acquireLock (executionId : Uuid) (worker : String) (staleAfterSeconds : ℕ) :
    Coroutine Bool := do
  match ← getExecution executionId with
  | none => return false
  | some current =>
    let now ← utcNow
    if !ownedByOrFree current worker && !isStale current staleAfterSeconds now then return false
    updateExecution { current with workerId := some worker, lastHeartbeatAt := some now }
    return true

/-- `SQLExecutionStore.release_lock`. -/
def releaseLock (executionId : Uuid) (worker : String) : Coroutine Bool := do
  match ← getExecution executionId with
  | none => return false
  | some current =>
    if current.workerId ≠ some worker then return false
    updateExecution { current with workerId := none }
    return true

/-- `SQLExecutionStore.heartbeat`. -/
def heartbeat (executionId : Uuid) (worker : String) : Coroutine (Option Execution) := do
  match ← getExecution executionId with
  | none => return none
  | some current =>
    if !ownedByOrFree current worker then return some current
    let now ← utcNow
    let beating := { current with workerId := some worker, lastHeartbeatAt := some now }
    updateExecution beating
    return some beating

/-! ### Approval requests -/

/-- `SQLExecutionStore.create_approval_request`. -/
def createApprovalRequest (executionId : Uuid) (eventId : Option Uuid) (toolId : String)
    (status : ApprovalStatus) (payload : Json) : Coroutine Uuid := do
  let requestId ← uuid4
  let now ← utcNow
  query (.mergeApprovalRequest {
    id := requestId
    executionId := executionId
    eventId := eventId
    toolId := toolId
    status := status
    requestPayload := payload
    requestedAt := now })
  return requestId

/-- `SQLExecutionStore.get_approval_request`. -/
def getApprovalRequest (id : Uuid) : Coroutine (Option ApprovalRequest) :=
  query (.getApprovalRequest id)

/-- `SQLExecutionStore.resolve_pending_approval_request`: it selects the newest
request of the tool, updates it if it is pending, and reads it back. -/
def resolvePendingApprovalRequest (executionId : Uuid) (toolId : String) (r : ApprovalResponse) :
    Coroutine (Option ApprovalRequest) := do
  let now ← utcNow
  match ← query (.latestApprovalRequest executionId toolId) with
  | none => return none
  | some requestId =>
    let rowcount ← query (.updatePendingApprovalRequest requestId r now)
    match ← query (.getApprovalRequest requestId) with
    | none => return none
    | some entity =>
      if rowcount = 1 || entity.status = r.status then return some entity
      else return none

end OpenAgency
