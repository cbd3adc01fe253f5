/-
Approvals.lean

`ApprovalManager` over the SQL store.  A gated call first looks for a decision
that has been stored since it was suspended and consumes it by removing
`pending_approval` from the row.  Otherwise it stores a request, a wait and
`pending_approval`, asks the delegate, and either returns the delegate's decision
or suspends the execution.

The store has every method the manager looks for, so the in-process future is
never awaited and is left out; `_request_ids` is kept, under the manager's number.
-/
import OpenAgency.Events

namespace OpenAgency

open Interaction

/-- What one call of `request_approval` is given; `persistedPayload` is the
redacted payload where there is one. -/
structure ApprovalCall where
  manager : ℕ
  executionId : Uuid
  toolId : String
  payload : Json
  persistedPayload : Json
  eventId : Option Uuid
  approvalMetadata : Json

def ApprovalCall.key (a : ApprovalCall) : ApprovalKey where
  manager := a.manager
  executionId := a.executionId
  toolId := a.toolId

/-! ### Decisions stored in a request -/

/-- `_persisted_decision`. -/
def persistedDecision (request : Option ApprovalRequest) : Option ApprovalDecision :=
  match request with
  | none => none
  | some request =>
    match request.status with
    | .pending => none
    | status =>
      let response := (request.responsePayload.bind Json.asObj?).getD (.obj [])
      let granted := match response.get? "granted" with
        | some (.bool false) => false
        | _ => true
      some {
        granted := status = .approved && granted
        reason := some (((response.get? "reason").bind Json.asStr?).getD
          s!"Approval request became {status.value}.")
        metadata := some (((response.get? "metadata").bind Json.asObj?).getD (.obj [])) }

/-- The stored pending approval is for this tool and this invocation. -/
def PendingApproval.isFor (pending : PendingApproval) (toolId digest : String) : Bool :=
  pending.toolId = toolId && pending.invocationDigest = digest

/-- `_consume_resolved_decision`: the decision of the request the execution was
suspended on, which the row forgets. -/
def consumeResolvedDecision (executionId : Uuid) (toolId digest : String) :
    Coroutine (Option ApprovalDecision) := do
  match ← getExecution executionId with
  | none => return none
  | some e =>
    match e.metadata.pendingApproval with
    | none => return none
    | some pending =>
      if !pending.isFor toolId digest then return none
      match pending.requestId with
      | none => return none
      | some requestId =>
        let request ← getApprovalRequest requestId
        match persistedDecision request with
        | none => return none
        | some decision =>
          updateExecution { e with metadata.pendingApproval := none }
          return some decision

/-! ### Recording a decision -/

/-- The payload a decision is stored as. -/
def decisionPayload (decision : ApprovalDecision) : Json :=
  .obj [
    ("reason", decision.reason.elim .null .str),
    ("granted", .bool decision.granted),
    ("metadata", decision.metadata.getD (.obj []))]

/-- The conditional update a decision is stored with. -/
def decisionResponse (decision : ApprovalDecision) (respondedBy : String) : ApprovalResponse where
  status := if decision.granted then .approved else .rejected
  responsePayload := decisionPayload decision
  respondedBy := some respondedBy

/-- `_resolve_durable_approval_wait`. -/
def resolveDurableApprovalWait (executionId requestId : Uuid) (response : ApprovalResponse) :
    Coroutine Unit := do
  let waits ← listPendingWaits executionId
  match waits.find? fun w => w.kind = .approval && w.metadata.approvalRequestId = some requestId with
  | none => return ()
  | some wait =>
    let _ ← resolveExecutionWait wait.id {
      status := .resolved
      resolutionKey := s!"approval:{requestId}:{response.status.value}"
      resolutionPayload := response.responsePayload
      resolvedBy := response.respondedBy }
    return ()

/-- `_resolve`: whether the decision was stored. -/
def resolveApproval (executionId : Uuid) (toolId : String) (decision : ApprovalDecision)
    (respondedBy : String) : Coroutine Bool := do
  let response := decisionResponse decision respondedBy
  match ← resolvePendingApprovalRequest executionId toolId response with
  | none => return false
  | some request =>
    resolveDurableApprovalWait executionId request.id response
    return true

/-! ### Requesting a decision -/

/-- Build and validate a wait record. -/
def newExecutionWait (build : Uuid → Time → ExecutionWait) : Coroutine ExecutionWait := do
  let id ← uuid4
  let now ← utcNow
  Program.ofExcept (build id now).validateLifecycle

/-- `_create_durable_approval_wait`. -/
def createDurableApprovalWait (a : ApprovalCall) (requestId : Uuid) (requestPayload : Json) :
    Coroutine Uuid := do
  let execution ← getExecution a.executionId
  let wait ← newExecutionWait fun id now => {
    id := id
    executionId := a.executionId
    kind := .approval
    idempotencyKey := takeChars 255 s!"approval:{requestId}"
    correlationKey := some s!"approval:{a.toolId}"
    checkpoint := (execution.bind (·.outputPayload)).getD {}
    requestPayload := requestPayload
    createdAt := now
    updatedAt := now
    metadata := {
      approvalRequestId := some requestId
      toolId := some a.toolId
      source := some "approval_manager" } }
  let saved ← createExecutionWait wait
  return saved.id

/-- The metadata of an execution that waits for an approval. -/
def suspendForApproval (a : ApprovalCall) (digest : String) (requestId waitId : Uuid)
    (e : Execution) : Execution :=
  { e with
    status := .waitingForApproval
    metadata.pendingApproval := some {
      requestId := some requestId
      waitId := some waitId
      toolId := a.toolId
      invocationDigest := digest
      payload := a.persistedPayload
      approvalMetadata := a.approvalMetadata }
    metadata.activeWait := some { waitId := waitId, kind := .approval } }

/-- `_request_delegated_decision`. -/
def requestDelegatedDecision (a : ApprovalCall) : Coroutine (Option ApprovalDecision) := do
  match ← ask (.delegateDecision a.executionId a.toolId a.persistedPayload a.approvalMetadata) with
  | .ok decision => return decision
  | .error _ => return none

/-- `_finish_inline_decision`. -/
def finishInlineDecision (executionId : Uuid) : Coroutine Unit := do
  match ← getExecution executionId with
  | none => return ()
  | some e =>
    updateExecution { e with
      status := if e.status = .waitingForApproval then .running else e.status
      metadata.pendingApproval := none
      metadata.activeWait := none }

/-- Suspend the execution, if it is still there. -/
def saveSuspension (a : ApprovalCall) (digest : String) (requestId waitId : Uuid) :
    Coroutine Unit := do
  match ← getExecution a.executionId with
  | none => return ()
  | some e => updateExecution (suspendForApproval a digest requestId waitId e)

/-- The part of `request_approval` inside its `try`. -/
def openApproval (a : ApprovalCall) (digest : String) : Coroutine ApprovalDecision := do
  let requestPayload : Json := .obj [
    ("arguments", a.persistedPayload),
    ("approval_metadata", a.approvalMetadata),
    ("invocation_digest", .str digest)]
  let requestId ← createApprovalRequest a.executionId a.eventId a.toolId .pending requestPayload
  process (.setRequestId a.key requestId)
  let waitId ← createDurableApprovalWait a requestId requestPayload
  saveSuspension a digest requestId waitId
  match ← requestDelegatedDecision a with
  | some decision =>
    -- whether the decision was stored is not looked at
    let _ ← resolveApproval a.executionId a.toolId decision "main_agent"
    finishInlineDecision a.executionId
    return decision
  | none =>
    raise .executionApprovalSuspended
      s!"Execution '{a.executionId}' is waiting for approval of tool '{a.toolId}'."

/-- `request_approval`. -/
def requestApproval (digestOf : Json → String) (a : ApprovalCall) : Coroutine ApprovalDecision := do
  let digest := digestOf a.payload
  match ← consumeResolvedDecision a.executionId a.toolId digest with
  | some decision => return decision
  | none =>
    (openApproval a digest).rescue fun exc => do
      process (.popRequestId a.key)
      Program.throw exc

end OpenAgency
