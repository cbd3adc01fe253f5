/-
Domain/RuntimeGovernance.lean

Token usage and token budgets.  A usage record whose total is below its parts, a zero
budget or a hard ratio below the warning ratio cannot be built.

Costs, currencies and model-fallback counters ride along in the source without
influencing anything modelled here and are left out.
-/
import OpenAgency.Domain.Basic

namespace OpenAgency

theorem unused_le : 0 + 0 ≤ 0 := Nat.le_refl 0

/-- Tokens used by one model call. -/
structure TokenUsage where
  provider : Option String := none
  model : Option String := none
  promptTokens : ℕ := 0
  completionTokens : ℕ := 0
  totalTokens : ℕ := 0
  parts_le : promptTokens + completionTokens ≤ totalTokens := by first | exact unused_le | decide

/-- What happens when a hard budget is exceeded. -/
inductive TokenBudgetAction where
  | warnOnly
  | compactContext
  | pauseExecution
  | failExecution
  deriving DecidableEq

/-- Budgets per scope and the ratios at which they warn and are exceeded. -/
structure TokenBudgetPolicy where
  runTotalTokens : Option ℕ := none
  workflowTotalTokens : Option ℕ := none
  agentTotalTokens : Option ℕ := none
  warnRatio : ℚ := 4 / 5
  hardRatio : ℚ := 1
  action : TokenBudgetAction := .warnOnly
  budgets_pos : ∀ b, runTotalTokens = some b ∨ workflowTotalTokens = some b ∨
    agentTotalTokens = some b → 0 < b
  warn_le_hard : warnRatio ≤ hardRatio

/-- What a budget applies to. -/
inductive BudgetScope where
  | run
  | workflow
  | agent
  deriving DecidableEq

namespace BudgetScope

def value : BudgetScope → String
  | run => "run"
  | workflow => "workflow"
  | agent => "agent"

end BudgetScope

/-- How far a scope's usage is into its budget. -/
inductive BudgetLevel where
  | normal
  | warning
  | exceeded
  deriving DecidableEq

namespace BudgetLevel

def value : BudgetLevel → String
  | normal => "normal"
  | warning => "warning"
  | exceeded => "exceeded"

end BudgetLevel

structure TokenBudgetStatus where
  scope : BudgetScope
  usedTokens : ℕ
  budgetTokens : ℕ
  status : BudgetLevel
  action : TokenBudgetAction
  deriving DecidableEq

/-! ### The usage snapshot kept on an execution -/

/-- Running totals of one bucket. -/
structure UsageBucket where
  promptTokens : ℕ := 0
  completionTokens : ℕ := 0
  totalTokens : ℕ := 0
  deriving DecidableEq

/-- `runtime_governance.token_usage`. -/
structure TokenUsageSnapshot where
  total : UsageBucket := {}
  byAgent : Dict UsageBucket := []
  byTask : Dict UsageBucket := []
  byModel : Dict UsageBucket := []
  processedEventIds : List Uuid := []
  lastModelRequestId : Option Uuid := none
  lastEventId : Option Uuid := none
  deriving DecidableEq

/-- `metadata.runtime_governance`: the usage snapshot and the keys of the budget
statuses already reported. -/
structure RuntimeGovernance where
  tokenUsage : TokenUsageSnapshot := {}
  budgetWarningsEmitted : List String := []
  deriving DecidableEq

end OpenAgency
