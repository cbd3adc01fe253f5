/-
Domain/ExecutionWait.lean

Durable suspension records.  A wait remembers why an execution is suspended,
the checkpoint it continues from, and, once somebody has woken it, how it was
resolved.  `validateLifecycle` is the check every record passes when it is
built and again whenever it is read back from a store.
-/
import OpenAgency.Domain.Basic

namespace OpenAgency

/-! ### Checkpoints -/

structure ModelToolCall where
  id : String
  name : String
  arguments : Json

structure ModelMessage where
  role : String
  content : Json
  name : Option String := none
  toolCallId : Option String := none
  toolCalls : List ModelToolCall := []

/-- The transcript an agent resumes from after an approval. -/
structure ApprovalContinuation where
  taskId : String
  agentId : String
  iteration : ℕ
  pendingToolIndex : ℕ
  pendingContextPersisted : Bool
  messages : List ModelMessage
  toolCalls : List ModelToolCall

inductive NodeOutcome where
  | success
  | failure
  deriving DecidableEq

/-- A recorded tool result, the evidence that a required tool ran. -/
structure ToolResult where
  toolId : String
  result : Json

/-- `output_payload.checkpoint`. -/
structure Checkpoint where
  currentNodeId : Option String := none
  currentTaskId : Option String := none
  completedNodeIds : List String := []
  nodeOutcomes : Dict NodeOutcome := []
  nodeErrors : Dict String := []
  taskToolResults : Dict (List ToolResult) := []
  plannedNodeIds : List String := []
  terminalNodeIds : List String := []
  approvalContinuation : Option ApprovalContinuation := none

/-- What one pass over the workflow has produced. -/
structure CycleOutput where
  nodeOutputs : Dict Json := []
  finalOutput : Option Json := none
  checkpoint : Option Checkpoint := none
  /-- There is a key `final_output`. -/
  finalOutputSet : Bool := true

/-- `execution.output_payload`. -/
structure OutputPayload extends CycleOutput where
  lastCycleOutput : Option CycleOutput := none

/-! ### Waits -/

inductive ExecutionWaitKind where
  | input
  | approval
  | event
  | sleep
  deriving DecidableEq

namespace ExecutionWaitKind

def value : ExecutionWaitKind → String
  | input => "input"
  | approval => "approval"
  | event => "event"
  | sleep => "sleep"

end ExecutionWaitKind

inductive ExecutionWaitStatus where
  | pending
  | resolved
  | expired
  | cancelled
  deriving DecidableEq

namespace ExecutionWaitStatus

def value : ExecutionWaitStatus → String
  | pending => "pending"
  | resolved => "resolved"
  | expired => "expired"
  | cancelled => "cancelled"

/-- Membership in `TERMINAL_EXECUTION_WAIT_STATUSES`. -/
def isTerminal : ExecutionWaitStatus → Bool
  | pending => false
  | resolved | expired | cancelled => true

theorem isTerminal_iff {s : ExecutionWaitStatus} : s.isTerminal ↔ s ≠ pending := by
  cases s <;> simp [isTerminal]

end ExecutionWaitStatus

/-- `ExecutionWait.metadata`. -/
structure WaitMetadata where
  approvalRequestId : Option Uuid := none
  toolId : Option String := none
  source : Option String := none
  reason : Option String := none
  callbackEventId : Option Uuid := none
  agentId : Option String := none
  stepId : Option String := none
  deriving DecidableEq

structure ExecutionWait where
  id : Uuid
  executionId : Uuid
  kind : ExecutionWaitKind
  status : ExecutionWaitStatus := .pending
  idempotencyKey : String
  correlationKey : Option String := none
  checkpoint : OutputPayload := {}
  requestPayload : Json := .obj []
  policy : Json := .obj []
  resolutionPayload : Option Json := none
  resolutionKey : Option String := none
  wakeAt : Option Time := none
  deadlineAt : Option Time := none
  resolvedAt : Option Time := none
  resolvedBy : Option String := none
  createdAt : Time
  updatedAt : Time
  metadata : WaitMetadata := {}

namespace ExecutionWait

/-- `Field(max_length=255)`. -/
def fits255 (value : Option String) : Bool :=
  match value with
  | some s => s.length ≤ 255
  | none => true

/-- The field constraints and the rules of `ExecutionWait.validate_lifecycle`, in
the order they are checked: whether the rule is broken, and what is raised. -/
def lifecycleRules (w : ExecutionWait) : List (Bool × String) := [
  (w.idempotencyKey.length = 0 || 255 < w.idempotencyKey.length,
    "idempotency_key should have between 1 and 255 characters"),
  (!fits255 w.correlationKey, "correlation_key should have at most 255 characters"),
  (!fits255 w.resolutionKey, "resolution_key should have at most 255 characters"),
  (!fits255 w.resolvedBy, "resolved_by should have at most 255 characters"),
  (strip w.idempotencyKey = "", "Execution wait idempotency_key must not be empty."),
  (w.kind = .sleep && w.wakeAt = none, "Sleep waits require wake_at."),
  (w.kind ≠ .sleep && w.wakeAt ≠ none, "Only sleep waits may define wake_at."),
  (w.kind = .event && strip (w.correlationKey.getD "") = "",
    "Event waits require correlation_key."),
  (match w.wakeAt, w.deadlineAt with
    | some wake, some deadline => deadline < wake
    | _, _ => false,
    "Execution wait deadline_at cannot be earlier than wake_at."),
  (w.status = .pending && w.resolvedAt ≠ none, "Pending execution waits cannot have resolved_at.")]

/-- Every lifecycle rule holds. -/
def Valid (w : ExecutionWait) : Prop := ∀ rule ∈ w.lifecycleRules, rule.1 = false

instance (w : ExecutionWait) : Decidable w.Valid :=
  inferInstanceAs (Decidable (∀ rule ∈ w.lifecycleRules, rule.1 = false))

/-- A terminal wait without `resolved_at` takes it from `updated_at`. -/
def fillResolvedAt (w : ExecutionWait) : ExecutionWait :=
  if w.status.isTerminal && w.resolvedAt = none then { w with resolvedAt := some w.updatedAt }
  else w

/-- Building the record: the first broken rule raises. -/
def validateLifecycle (w : ExecutionWait) : Except RuntimeException ExecutionWait :=
  match w.lifecycleRules.find? Prod.fst with
  | some (_, message) => .error ⟨.validationError, message⟩
  | none => .ok w.fillResolvedAt

variable {w : ExecutionWait}

theorem validateLifecycle_ok (h : w.Valid) : w.validateLifecycle = .ok w.fillResolvedAt := by
  have hnone : w.lifecycleRules.find? Prod.fst = none :=
    List.find?_eq_none.mpr fun rule hr => by simp [h rule hr]
  rw [validateLifecycle, hnone]

theorem valid_of_validateLifecycle {w w' : ExecutionWait} (h : w.validateLifecycle = .ok w') :
    w.Valid ∧ w' = w.fillResolvedAt := by
  rcases hf : w.lifecycleRules.find? Prod.fst with - | rule
  · rw [validateLifecycle, hf] at h
    refine ⟨fun rule hr => ?_, (Except.ok.inj h).symm⟩
    simpa using List.find?_eq_none.mp hf rule hr
  · rw [validateLifecycle, hf] at h
    cases h

theorem fillResolvedAt_of_pending (h : w.status = .pending) : w.fillResolvedAt = w := by
  simp [fillResolvedAt, h, ExecutionWaitStatus.isTerminal]

theorem fillResolvedAt_of_resolvedAt {t : Time} (h : w.resolvedAt = some t) :
    w.fillResolvedAt = w := by
  simp [fillResolvedAt, h]

/-- The columns a resolution writes. -/
structure Resolution where
  status : ExecutionWaitStatus
  resolutionKey : String
  resolutionPayload : Json
  resolvedBy : Option String

/-- The wait with a resolution written at `now`. -/
def resolve (w : ExecutionWait) (r : Resolution) (now : Time) : ExecutionWait :=
  { w with
    status := r.status
    resolutionKey := some r.resolutionKey
    resolutionPayload := some r.resolutionPayload
    resolvedAt := some now
    resolvedBy := r.resolvedBy
    updatedAt := now }

/-- A valid wait stays valid when it is resolved to a terminal status under a
key and a name that fit their columns. -/
theorem Valid.resolve (h : w.Valid) {r : Resolution} {now : Time} (hs : r.status.isTerminal)
    (hkey : r.resolutionKey.length ≤ 255) (hby : fits255 r.resolvedBy) :
    (w.resolve r now).Valid := by
  have hs' : r.status ≠ .pending := ExecutionWaitStatus.isTerminal_iff.mp hs
  simp only [Valid, lifecycleRules, List.forall_mem_cons, ExecutionWait.resolve] at h ⊢
  obtain ⟨h1, h2, -, -, h5, h6, h7, h8, h9, -, h11⟩ := h
  exact ⟨h1, h2, by simpa [fits255] using hkey, by simpa using hby, h5, h6, h7, h8, h9,
    by simp [hs'], h11⟩

end ExecutionWait

end OpenAgency
