/-
UsageLedger.lean

Token usage with everything the recorder keeps of it: costs, currencies and counters of
model fallbacks beside the tokens, and event ids as the texts they are.  An event whose
id is remembered is not counted again; the last hundred ids are remembered, and an empty
id never is.

Costs are rational numbers here, added without error and rounded to eight decimals as in
the source.
-/
import Mathlib.Algebra.Group.Prod
import Mathlib.Data.Rat.Floor
import OpenAgency.Governance
import OpenAgency.Lib.Inputs

namespace OpenAgency

open Interaction List Dict

/-! ### What is recorded -/

/-- A `TokenUsage` with its cost and the `model_fallback` of its provider's usage, if that
was used. -/
structure MeteredUsage extends TokenUsage where
  estimatedCost : ℚ := 0
  currency : Option String := none
  fallback : Option (Dict Json) := none

/-- A usage bucket with its cost and its fallbacks. -/
structure CostBucket extends UsageBucket where
  estimatedCost : ℚ := 0
  currency : Option String := none
  fallbackCount : ℕ := 0

/-- `runtime_governance.token_usage`. -/
structure UsageLedger where
  total : CostBucket := {}
  byAgent : Dict CostBucket := []
  byTask : Dict CostBucket := []
  byModel : Dict CostBucket := []
  fallbackCount : ℕ := 0
  modelFallbacks : List (Dict Json) := []
  processedEventIds : List String := []
  lastModelRequestId : Option String := none
  lastEventId : Option String := none
  updatedAt : Option Time := none

/-- What a call of the recorder is given, and the time of the call. -/
structure UsageReport where
  usage : MeteredUsage
  agentId : Option String := none
  taskId : Option String := none
  workflowId : Option String := none
  modelRequestId : Option String := none
  now : Time := 0

namespace UsageLedger

/-- The nearest integer, and of two the even one. -/
def roundHalfEven (q : ℚ) : ℤ :=
  if q - ⌊q⌋ < 1 / 2 then ⌊q⌋
  else if 1 / 2 < q - ⌊q⌋ then ⌊q⌋ + 1
  else if ⌊q⌋ % 2 = 0 then ⌊q⌋ else ⌊q⌋ + 1

/-- `round(cost, 8)`. -/
def roundCost (cost : ℚ) : ℚ := roundHalfEven (cost * 10 ^ 8) / 10 ^ 8

/-- `xs[-n:]`. -/
def lastOf {α : Type} (n : ℕ) (xs : List α) : List α := xs.drop (xs.length - n)

/-- `_add_usage`, and the count of a fallback. -/
def charge (bucket : CostBucket) (usage : MeteredUsage) : CostBucket where
  toUsageBucket := addUsage bucket.toUsageBucket usage.toTokenUsage
  estimatedCost := roundCost (bucket.estimatedCost + usage.estimatedCost)
  currency := truthy usage.currency <|> bucket.currency
  fallbackCount := bucket.fallbackCount + if usage.fallback.isSome then 1 else 0

/-- Charge the bucket of a key, if there is one. -/
def chargeTo (container : Dict CostBucket) (key : Option String) (usage : MeteredUsage) :
    Dict CostBucket :=
  match truthy key with
  | none => container
  | some k => container.set k (charge ((container.get? k).getD {}) usage)

/-- A record of a fallback. -/
def fallbackRecord (fallback : Dict Json) (r : UsageReport) (eventId : Option String) :
    Dict Json :=
  fallback.union [
    ("agent_id", .ofOption r.agentId),
    ("task_id", .ofOption r.taskId),
    ("workflow_id", .ofOption r.workflowId),
    ("model_request_id", .ofOption r.modelRequestId),
    ("event_id", .ofOption eventId),
    ("updated_at", .str (isoformat r.now))]

/-- The event has been counted and is still remembered. -/
def isProcessed (l : UsageLedger) (eventId : Option String) : Bool :=
  (truthy eventId).any (· ∈ l.processedEventIds)

/-- The ledger with one more report. -/
def recorded (l : UsageLedger) (r : UsageReport) (eventId : Option String) : UsageLedger where
  total := charge l.total r.usage
  byAgent := chargeTo l.byAgent r.agentId r.usage
  byTask := chargeTo l.byTask r.taskId r.usage
  byModel := chargeTo l.byModel (some (modelKey r.usage.toTokenUsage)) r.usage
  fallbackCount := l.fallbackCount + if r.usage.fallback.isSome then 1 else 0
  modelFallbacks :=
    match r.usage.fallback with
    | none => l.modelFallbacks
    | some fallback => lastOf 25 (l.modelFallbacks ++ [fallbackRecord fallback r eventId])
  processedEventIds :=
    match truthy eventId with
    | none => l.processedEventIds
    | some id => lastOf 100 (l.processedEventIds ++ [id])
  lastModelRequestId := r.modelRequestId
  lastEventId := eventId
  updatedAt := some r.now

/-- The part of `record_token_usage_snapshot` that changes `token_usage`; `none` if it
returns before it stores anything. -/
def record (l : UsageLedger) (r : UsageReport) (eventId : Option String) : Option UsageLedger :=
  if l.isProcessed eventId then none else some (l.recorded r eventId)

variable {l : UsageLedger}

/-- The four amounts that are summed up. -/
abbrev Amounts := ℕ × ℕ × ℕ × ℚ

/-- The amounts of a report. -/
def amountsOf (usage : MeteredUsage) : Amounts :=
  (usage.promptTokens, usage.completionTokens, usage.totalTokens, usage.estimatedCost)

/-- The amounts of a bucket. -/
def amounts (bucket : CostBucket) : Amounts :=
  (bucket.promptTokens, bucket.completionTokens, bucket.totalTokens, bucket.estimatedCost)

/-- A cost with eight decimals. -/
def HasEightDecimals (cost : ℚ) : Prop := ∃ n : ℤ, cost = n / 10 ^ 8

theorem HasEightDecimals.add {a b : ℚ} (ha : HasEightDecimals a) (hb : HasEightDecimals b) :
    HasEightDecimals (a + b) := by
  obtain ⟨m, rfl⟩ := ha
  obtain ⟨n, rfl⟩ := hb
  refine ⟨m + n, ?_⟩
  push_cast
  ring

theorem HasEightDecimals.sub {a b : ℚ} (ha : HasEightDecimals a) (hb : HasEightDecimals b) :
    HasEightDecimals (a - b) := by
  obtain ⟨m, rfl⟩ := ha
  obtain ⟨n, rfl⟩ := hb
  refine ⟨m - n, ?_⟩
  push_cast
  ring

/-- The amounts of all buckets together. -/
def sumAmounts (container : Dict CostBucket) : Amounts :=
  (container.map fun p => amounts p.2).sum

/-- A call with an event id. -/
structure UsageEvent where
  eventId : String
  report : UsageReport

/-- The ledger after one more call. -/
def recordEvent (l : UsageLedger) (e : UsageEvent) : UsageLedger :=
  (l.record e.report (some e.eventId)).getD l

/-- The ledger of a fresh execution after some calls. -/
def after (events : List UsageEvent) : UsageLedger := events.foldl recordEvent {}

/-- The first call of every event id. -/
def distinctEvents (events : List UsageEvent) : List UsageEvent :=
  events.foldl (fun seen e => if e.eventId ∈ seen.map (·.eventId) then seen else seen ++ [e]) []

/-- The usage of the distinct event ids. -/
def usageOf (events : List UsageEvent) : Amounts :=
  ((distinctEvents events).map fun e => amountsOf e.report.usage).sum

/-- The total and the buckets of the models together hold the usage of the distinct event
ids. -/
def Balanced (events : List UsageEvent) : Prop :=
  amounts (after events).total = usageOf events ∧ sumAmounts (after events).byModel = usageOf events

/-- The ids the recorder remembers: the last hundred different ones that are not empty. -/
def remembered (events : List UsageEvent) : List String :=
  lastOf 100 (((distinctEvents events).map (·.eventId)).filter (· ≠ ""))

/-- What holds of the ledger as long as every event is counted once. -/
structure Kept (events : List UsageEvent) : Prop where
  ids : (after events).processedEventIds = remembered events
  balanced : Balanced events
  total : HasEightDecimals (after events).total.estimatedCost
  models : ∀ k, HasEightDecimals (((after events).byModel.get? k).getD {}).estimatedCost

variable {events : List UsageEvent}

section Step

variable {events : List UsageEvent} {e : UsageEvent}

end Step

end UsageLedger

end OpenAgency
