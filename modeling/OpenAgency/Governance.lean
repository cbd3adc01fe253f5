/-
Governance.lean

The usage recorder and token budgets.  `record_token_usage_snapshot` adds one
model call's usage to the counters kept on the execution, computes the status of
every budget of the policy, and returns the statuses it has not returned before:
a status is remembered under its scope, its budget and its level, for the whole
execution.  `_enforce_token_budget_action` acts on an exceeded status among those
returned.

The last part says, of any sequence of calls, exactly when each of them returns
an exceeded status for every budget it leaves at or above the hard ratio.
-/
import Mathlib.Tactic.NormNum
import OpenAgency.Store

namespace OpenAgency

open Interaction Relational TokenUsageSnapshot

/-- Rounding to the nearest float. -/
structure FloatRounding where
  round : ℚ → ℚ
  monotone : Monotone round

/-- A string that counts as true. -/
def truthy (s : Option String) : Option String := s.filter (· ≠ "")

/-! ### Budgets -/

/-- `_status_for`: the quotient is a float division. -/
def statusFor (fl : FloatRounding) (scope : BudgetScope) (usedTokens budgetTokens : ℕ)
    (policy : TokenBudgetPolicy) : TokenBudgetStatus :=
  let ratio := if 0 < budgetTokens then fl.round (usedTokens / budgetTokens) else 0
  { scope := scope
    usedTokens := usedTokens
    budgetTokens := budgetTokens
    status :=
      if policy.hardRatio ≤ ratio then .exceeded
      else if policy.warnRatio ≤ ratio then .warning
      else .normal
    action := policy.action }

/-- The policy's budget for a scope. -/
def TokenBudgetPolicy.budget (policy : TokenBudgetPolicy) : BudgetScope → Option ℕ
  | .run => policy.runTotalTokens
  | .workflow => policy.workflowTotalTokens
  | .agent => policy.agentTotalTokens

/-- `budget_warning_statuses`, given the tokens used in each scope. -/
def budgetWarningStatuses (fl : FloatRounding) (policy : Option TokenBudgetPolicy)
    (used : BudgetScope → ℕ) : List TokenBudgetStatus :=
  match policy with
  | none => []
  | some policy =>
    ([BudgetScope.run, .workflow, .agent].filterMap fun scope =>
      (policy.budget scope).map fun b => statusFor fl scope (used scope) b policy).filter
        fun s => s.status = .warning || s.status = .exceeded

variable {policy : TokenBudgetPolicy}

variable {fl : FloatRounding}

/-- A scope at or above the hard ratio of its budget is exceeded, whatever the
rounding: it is monotone and the ratio is a float. -/
theorem statusFor_exceeded (hfloat : fl.round policy.hardRatio = policy.hardRatio)
    {scope : BudgetScope} {used b : ℕ} (hb : policy.budget scope = some b)
    (hle : policy.hardRatio * b ≤ used) :
    (statusFor fl scope used b policy).status = .exceeded := by
  have hpos : 0 < b := by
    apply policy.budgets_pos b
    cases scope with
    | run => exact .inl hb
    | workflow => exact .inr (.inl hb)
    | agent => exact .inr (.inr hb)
  have hratio : policy.hardRatio ≤ fl.round (used / b) := by
    rw [← hfloat]
    apply fl.monotone
    rw [le_div_iff₀ (by exact_mod_cast hpos)]
    exact hle
  simp [statusFor, hpos, hratio]

theorem mem_budgetWarningStatuses {used : BudgetScope → ℕ} {s : TokenBudgetStatus} :
    s ∈ budgetWarningStatuses fl (some policy) used ↔
      ∃ scope b, policy.budget scope = some b ∧ s = statusFor fl scope (used scope) b policy ∧
        s.status ≠ .normal := by
  have hlevel : ∀ level : BudgetLevel,
      (level = .warning ∨ level = .exceeded) ↔ level ≠ .normal := by
    intro level
    cases level <;> simp
  have hscope : ∀ scope : BudgetScope, scope ∈ [BudgetScope.run, .workflow, .agent] := by
    intro scope
    cases scope <;> simp
  simp only [budgetWarningStatuses, List.mem_filter, List.mem_filterMap, Option.map_eq_some_iff,
    Bool.or_eq_true, decide_eq_true_eq, hlevel]
  constructor
  · rintro ⟨⟨scope, -, b, hb, rfl⟩, hs⟩
    exact ⟨scope, b, hb, rfl, hs⟩
  · rintro ⟨scope, b, hb, rfl, hs⟩
    exact ⟨⟨scope, hscope scope, b, hb, rfl⟩, hs⟩

/-! ### Reporting each status once -/

/-- `_budget_event_key`. -/
def budgetEventKey (s : TokenBudgetStatus) : String :=
  s!"{s.scope.value}:{s.budgetTokens}:{s.status.value}"

/-- The key under which a scope is reported as exceeding a budget. -/
def exceededKey (scope : BudgetScope) (budgetTokens : ℕ) : String :=
  s!"{scope.value}:{budgetTokens}:{BudgetLevel.exceeded.value}"

theorem budgetEventKey_exceeded {s : TokenBudgetStatus} (h : s.status = .exceeded) :
    budgetEventKey s = exceededKey s.scope s.budgetTokens := by
  rw [budgetEventKey, h]
  rfl

/-- The keys emitted so far and the statuses not emitted before. -/
def emitNew : List String → List TokenBudgetStatus → List String × List TokenBudgetStatus
  | emitted, [] => (emitted, [])
  | emitted, s :: rest =>
    if budgetEventKey s ∈ emitted then emitNew emitted rest
    else
      let later := emitNew (emitted ++ [budgetEventKey s]) rest
      (later.1, s :: later.2)

/-- Where the key determines the status, a status is returned exactly when its
key is new. -/
theorem mem_emitNew {emitted : List String} {statuses : List TokenBudgetStatus}
    (hkeys : ∀ a ∈ statuses, ∀ b ∈ statuses, budgetEventKey a = budgetEventKey b → a = b)
    {s : TokenBudgetStatus} :
    s ∈ (emitNew emitted statuses).2 ↔ s ∈ statuses ∧ budgetEventKey s ∉ emitted := by
  induction statuses generalizing emitted with
  | nil => simp [emitNew]
  | cons a rest ih =>
    have hrest := fun b hb c hc => hkeys b (List.mem_cons_of_mem a hb) c (List.mem_cons_of_mem a hc)
    have hsame : s ∈ rest → budgetEventKey s = budgetEventKey a → s = a := by
      intro hs
      exact hkeys s (List.mem_cons_of_mem a hs) a List.mem_cons_self
    by_cases ha : budgetEventKey a ∈ emitted
    · rw [emitNew, if_pos ha, ih hrest, List.mem_cons]
      constructor
      · rintro ⟨hs, hk⟩
        exact ⟨.inr hs, hk⟩
      · rintro ⟨rfl | hs, hk⟩
        · exact absurd ha hk
        · exact ⟨hs, hk⟩
    · rw [emitNew, if_neg ha]
      simp only [List.mem_cons, ih hrest, List.mem_append, List.not_mem_nil, or_false, not_or]
      constructor
      · rintro (rfl | ⟨hs, hk, -⟩)
        · exact ⟨.inl rfl, ha⟩
        · exact ⟨.inr hs, hk⟩
      · rintro ⟨rfl | hs, hk⟩
        · exact .inl rfl
        · by_cases he : budgetEventKey s = budgetEventKey a
          · exact .inl (hsame hs he)
          · exact .inr ⟨hs, hk, he⟩

/-- A key starts with its scope. -/
theorem head?_budgetEventKey (s : TokenBudgetStatus) :
    (budgetEventKey s).toList.head? = s.scope.value.toList.head? := by
  have hne : (toString s.scope.value).toList ≠ [] := by cases s.scope <;> decide
  simp only [budgetEventKey, String.toList_append, List.append_assoc]
  exact List.head?_append_of_ne_nil _ hne

/-- The keys of two scopes differ. -/
theorem scope_eq_of_budgetEventKey {s s' : TokenBudgetStatus}
    (h : budgetEventKey s = budgetEventKey s') : s.scope = s'.scope := by
  have hhead : s.scope.value.toList.head? = s'.scope.value.toList.head? := by
    rw [← head?_budgetEventKey, ← head?_budgetEventKey, h]
  cases hs : s.scope <;> cases hs' : s'.scope <;>
    first | rfl | simp [hs, hs', BudgetScope.value] at hhead

/-- One call computes at most one status per scope, so the key determines it. -/
theorem eq_of_budgetEventKey {used : BudgetScope → ℕ} {a b : TokenBudgetStatus}
    (ha : a ∈ budgetWarningStatuses fl (some policy) used)
    (hb : b ∈ budgetWarningStatuses fl (some policy) used)
    (h : budgetEventKey a = budgetEventKey b) :
    a = b := by
  obtain ⟨scope, n, hn, rfl, -⟩ := mem_budgetWarningStatuses.mp ha
  obtain ⟨scope', n', hn', rfl, -⟩ := mem_budgetWarningStatuses.mp hb
  obtain rfl : scope = scope' := scope_eq_of_budgetEventKey h
  obtain rfl : n = n' := Option.some.inj (hn.symm.trans hn')
  rfl

/-! ### The recorder -/

/-- `_usage_bucket`, without storing it back. -/
def usageBucket (container : Dict UsageBucket) (key : String) : UsageBucket :=
  (container.get? key).getD {}

/-- `_add_usage`. -/
def addUsage (bucket : UsageBucket) (usage : TokenUsage) : UsageBucket where
  promptTokens := bucket.promptTokens + usage.promptTokens
  completionTokens := bucket.completionTokens + usage.completionTokens
  totalTokens := bucket.totalTokens + usage.totalTokens

/-- Add the usage to the bucket of a key, if there is one. -/
def addUsageTo (container : Dict UsageBucket) (key : Option String) (usage : TokenUsage) :
    Dict UsageBucket :=
  match truthy key with
  | none => container
  | some k => container.set k (addUsage (usageBucket container k) usage)

/-- `":".join(part for part in (provider, model) if part) or "unknown"`. -/
def modelKey (usage : TokenUsage) : String :=
  let key := ":".intercalate ([usage.provider, usage.model].filterMap truthy)
  if key = "" then "unknown" else key

/-- What one call of the recorder is given. -/
structure UsageCall where
  usage : TokenUsage
  policy : Option TokenBudgetPolicy
  agentId : Option String
  taskId : Option String
  modelRequestId : Option Uuid
  eventId : Option Uuid

/-- The tokens a call adds to what is counted for a scope. -/
def UsageCall.adds (c : UsageCall) : BudgetScope → ℕ
  | .run | .workflow => c.usage.totalTokens
  | .agent => if truthy c.agentId = none then 0 else c.usage.totalTokens

/-- The call's event has been counted and is still remembered. -/
def TokenUsageSnapshot.isProcessed (t : TokenUsageSnapshot) (eventId : Option Uuid) : Bool :=
  match eventId with
  | none => false
  | some e => e ∈ t.processedEventIds

/-- The counters after one call's usage. -/
def TokenUsageSnapshot.add (t : TokenUsageSnapshot) (c : UsageCall) : TokenUsageSnapshot where
  total := addUsage t.total c.usage
  byAgent := addUsageTo t.byAgent c.agentId c.usage
  byTask := addUsageTo t.byTask c.taskId c.usage
  byModel := addUsageTo t.byModel (some (modelKey c.usage)) c.usage
  processedEventIds :=
    match c.eventId with
    | none => t.processedEventIds
    | some e =>
      let ids := t.processedEventIds ++ [e]
      ids.drop (ids.length - 100)
  lastModelRequestId := c.modelRequestId
  lastEventId := c.eventId

/-- The tokens a snapshot counts for a scope, on behalf of an agent. -/
def TokenUsageSnapshot.used (t : TokenUsageSnapshot) (agentId : Option String) :
    BudgetScope → ℕ
  | .run | .workflow => t.total.totalTokens
  | .agent => (usageBucket t.byAgent (agentId.getD "")).totalTokens

/-- The governance record after one call, and the statuses the call returns. -/
def RuntimeGovernance.record (fl : FloatRounding) (g : RuntimeGovernance) (c : UsageCall) :
    RuntimeGovernance × List TokenBudgetStatus :=
  let tokenUsage := g.tokenUsage.add c
  let reported := emitNew g.budgetWarningsEmitted
    (budgetWarningStatuses fl c.policy (tokenUsage.used c.agentId))
  ({ tokenUsage := tokenUsage, budgetWarningsEmitted := reported.1 }, reported.2)

/-- `record_token_usage_snapshot`: it updates a copy it has just read. -/
def recordTokenUsageSnapshot (fl : FloatRounding) (executionId : Uuid) (c : UsageCall) :
    Coroutine (Option Execution × List TokenBudgetStatus) := do
  match ← getExecution executionId with
  | none => return (none, [])
  | some e =>
    let g := e.metadata.runtimeGovernance
    if g.tokenUsage.isProcessed c.eventId then return (some e, [])
    let updated := { e with metadata.runtimeGovernance := (g.record fl c).1 }
    updateExecution updated
    return (some updated, (g.record fl c).2)

/-- `_enforce_token_budget_action`, with no context compactor configured. -/
def enforceTokenBudgetAction (executionId : Uuid) (policy : Option TokenBudgetPolicy)
    (statuses : List TokenBudgetStatus) : Coroutine Unit :=
  match statuses.find? (·.status = .exceeded), policy with
  | some s, some policy =>
    let message := s!"Token budget {s.scope.value} exceeded: " ++
      s!"{s.usedTokens}/{s.budgetTokens} tokens."
    match policy.action with
    | .pauseExecution => do
      process (.modifyState executionId fun st => { st with paused := true })
      raise .executionPaused message
    | .failExecution => raise .runtimeError message
    | .warnOnly | .compactContext => return ()
  | _, _ => return ()

namespace Governance

/-! ### One call -/

section Record

variable {fl : FloatRounding} {env : Environment} {x : Uuid} {c : UsageCall} {w : World}
  {e : Execution}

theorem used_add (t : TokenUsageSnapshot) (c : UsageCall) (scope : BudgetScope) :
    (t.add c).used c.agentId scope = t.used c.agentId scope + c.adds scope := by
  cases scope with
  | run => rfl
  | workflow => rfl
  | agent =>
    rcases hid : truthy c.agentId with - | k
    · simp [used, add, addUsageTo, UsageCall.adds, hid]
    · obtain ⟨hk, -⟩ := Option.filter_eq_some_iff.mp hid
      simp only [used, add, addUsageTo, UsageCall.adds, hid]
      simp [hk, usageBucket, addUsage]

theorem run_record_missing (he : w.db.executions.get x = none) :
    (recordTokenUsageSnapshot fl x c).run (handler env) w = (.ok (none, []), w) := by
  simp [recordTokenUsageSnapshot, DbOp.exec, he]

theorem run_record_processed (he : w.db.executions.get x = some e)
    (hp : e.metadata.runtimeGovernance.tokenUsage.isProcessed c.eventId = true) :
    (recordTokenUsageSnapshot fl x c).run (handler env) w = (.ok (some e, []), w) := by
  simp [recordTokenUsageSnapshot, DbOp.exec, he, hp]

/-- The copy the recorder writes back. -/
def recorded (fl : FloatRounding) (e : Execution) (c : UsageCall) : Execution :=
  { e with metadata.runtimeGovernance := (e.metadata.runtimeGovernance.record fl c).1 }

theorem run_record_new (he : w.db.executions.get x = some e)
    (hp : e.metadata.runtimeGovernance.tokenUsage.isProcessed c.eventId = false) :
    (recordTokenUsageSnapshot fl x c).run (handler env) w =
      (.ok (some (recorded fl e c), (e.metadata.runtimeGovernance.record fl c).2),
        { w with db := { w.db with executions := w.db.executions.save (recorded fl e c) } }) := by
  simp [recordTokenUsageSnapshot, DbOp.exec, he, hp, recorded]

end Record

/-! ### Enforcement -/

/-- A call under a policy that pauses or fails the execution. -/
structure HardBudgetCall (fl : FloatRounding) where
  call : UsageCall
  policy : TokenBudgetPolicy
  policy_eq : call.policy = some policy
  hard : policy.action = .pauseExecution ∨ policy.action = .failExecution
  float : fl.round policy.hardRatio = policy.hardRatio

/-- The scopes budgets are claimed to be enforced for. -/
def enforcedScopes : List BudgetScope := [.run, .agent]

section Enforcement

variable (fl : FloatRounding) (env : Environment) (x : Uuid)

/-- Whenever the call leaves a scope at or above the hard ratio of its budget, it
returns an exceeded status for the scope, and enforcing what it returned raises. -/
def Enforced (w : World) (c : HardBudgetCall fl) : Prop :=
  let r := (recordTokenUsageSnapshot fl x c.call).run (handler env) w
  ∀ e, r.2.db.executions.get x = some e → ∀ scope ∈ enforcedScopes, ∀ b,
    c.policy.budget scope = some b →
    c.policy.hardRatio * b ≤ e.metadata.runtimeGovernance.tokenUsage.used c.call.agentId scope →
    ∃ answer, r.1 = .ok answer ∧ (∃ s ∈ answer.2, s.scope = scope ∧ s.status = .exceeded) ∧
      ∀ w', ∃ ex, ((enforceTokenBudgetAction x (some c.policy) answer.2).run (handler env) w').1 =
        .error ex

/-- Whenever the tokens counted for a scope, with those of this call, are at or
above the hard ratio of its budget, the call's event is not remembered as
counted, and the scope has not been reported as exceeding this budget before. -/
def Reportable (w : World) (c : HardBudgetCall fl) : Prop :=
  ∀ e, w.db.executions.get x = some e → ∀ scope ∈ enforcedScopes, ∀ b,
    let g := e.metadata.runtimeGovernance
    let processed := g.tokenUsage.isProcessed c.call.eventId
    c.policy.budget scope = some b →
    c.policy.hardRatio * b ≤ (g.tokenUsage.used c.call.agentId scope +
      if processed then 0 else c.call.adds scope : ℕ) →
    processed = false ∧ exceededKey scope b ∉ g.budgetWarningsEmitted

/-- Calls of the recorder one after another, each in the state the one before it
left. -/
def EveryCall (P : World → HardBudgetCall fl → Prop) : List (HardBudgetCall fl) → World → Prop
  | [], _ => True
  | c :: calls, w =>
    P w c ∧ EveryCall P calls ((recordTokenUsageSnapshot fl x c.call).run (handler env) w).2

variable {fl env x}

/-- An exceeded status makes enforcement raise. -/
theorem enforce_raises {c : HardBudgetCall fl} {statuses : List TokenBudgetStatus}
    (h : ∃ s ∈ statuses, s.status = .exceeded) (w : World) :
    ∃ ex, ((enforceTokenBudgetAction x (some c.policy) statuses).run (handler env) w).1 =
      .error ex := by
  obtain ⟨s, hs, hexceeded⟩ := h
  obtain ⟨s', hfind⟩ : ∃ s', statuses.find? (·.status = .exceeded) = some s' := by
    apply Option.isSome_iff_exists.mp
    exact List.find?_isSome.mpr ⟨s, hs, by simpa using hexceeded⟩
  rcases c.hard with hact | hact
  · exact ⟨_, by simp only [enforceTokenBudgetAction, hfind, hact]; rfl⟩
  · exact ⟨_, by simp only [enforceTokenBudgetAction, hfind, hact]; rfl⟩

/-- One call that counts its event: it returns an exceeded status for a scope
exactly when the scope's key is new. -/
theorem exceeded_mem_record_iff {c : HardBudgetCall fl} {g : RuntimeGovernance}
    {scope : BudgetScope} {b : ℕ} (hb : c.policy.budget scope = some b)
    (hle : c.policy.hardRatio * b ≤ (g.tokenUsage.add c.call).used c.call.agentId scope) :
    (∃ s ∈ (g.record fl c.call).2, s.scope = scope ∧ s.status = .exceeded) ↔
      exceededKey scope b ∉ g.budgetWarningsEmitted := by
  have hmem := @mem_emitNew g.budgetWarningsEmitted
    (budgetWarningStatuses fl (some c.policy) ((g.tokenUsage.add c.call).used c.call.agentId))
    fun _ ha _ hb => eq_of_budgetEventKey ha hb
  simp only [RuntimeGovernance.record, c.policy_eq, hmem, mem_budgetWarningStatuses]
  constructor
  · rintro ⟨s, ⟨⟨scope', b', hb', rfl, -⟩, hkey⟩, rfl, hexceeded⟩
    obtain rfl : b' = b := Option.some.inj (hb'.symm.trans hb)
    rwa [budgetEventKey_exceeded hexceeded] at hkey
  · intro hkey
    have hexceeded := statusFor_exceeded c.float hb hle
    refine ⟨_, ⟨⟨scope, b, hb, rfl, ?_⟩, ?_⟩, rfl, hexceeded⟩
    · rw [hexceeded]
      exact BudgetLevel.noConfusion
    · rw [budgetEventKey_exceeded hexceeded]
      exact hkey

/-- One call enforces the budgets exactly when they are reportable. -/
theorem enforced_iff_reportable (w : World) (c : HardBudgetCall fl) :
    Enforced fl env x w c ↔ Reportable fl x w c := by
  rcases he : w.db.executions.get x with - | e
  · rw [Enforced, run_record_missing he]
    simp [Reportable, he]
  · rcases hp : e.metadata.runtimeGovernance.tokenUsage.isProcessed c.call.eventId with - | -
    · -- the event is counted: what the call returns depends on the keys emitted
      have hid : e.id = x := Table.key_of_get he
      have hget : (w.db.executions.save (recorded fl e c.call)).get x =
          some (recorded fl e c.call) := hid ▸ Table.get_save_self _ (recorded fl e c.call)
      rw [Enforced, run_record_new he hp]
      constructor
      · intro h e' he' scope hscope b g processed hb hle
        obtain rfl : e = e' := Option.some.inj (he.symm.trans he')
        have hover : c.policy.hardRatio * b ≤ (g.tokenUsage.add c.call).used c.call.agentId scope := by
          rw [used_add]
          simpa [processed, g, hp] using hle
        obtain ⟨answer, hans, hs, -⟩ := h _ hget scope hscope b hb hover
        cases hans
        exact ⟨hp, (exceeded_mem_record_iff hb hover).mp hs⟩
      · intro h e' he' scope hscope b hb hle
        obtain rfl := Option.some.inj (hget.symm.trans he')
        have hover := hle
        rw [recorded, RuntimeGovernance.record, used_add] at hle
        obtain ⟨-, hkey⟩ := h e he scope hscope b hb (by simpa [hp] using hle)
        have hs := (exceeded_mem_record_iff hb hover).mpr hkey
        exact ⟨_, rfl, hs, enforce_raises (hs.imp fun _ h => ⟨h.1, h.2.2⟩)⟩
    · -- the event has been counted before: nothing is returned
      rw [Enforced, run_record_processed he hp]
      constructor
      · intro h e' he' scope hscope b g processed hb hle
        obtain rfl : e = e' := Option.some.inj (he.symm.trans he')
        obtain ⟨answer, hans, ⟨s, hs, -⟩, -⟩ :=
          h e he scope hscope b hb (by simpa [processed, g, hp] using hle)
        cases hans
        exact absurd hs List.not_mem_nil
      · intro h e' he' scope hscope b hb hle
        obtain rfl : e = e' := Option.some.inj (he.symm.trans he')
        obtain ⟨hnew, -⟩ := h e he scope hscope b hb (by simpa [hp] using hle)
        exact absurd (hnew.symm.trans hp) Bool.false_ne_true

end Enforcement

end Governance

open Governance

/-! ### Sequences of calls -/

/-- **Hard budgets.**  Every call of a sequence enforces the budgets it leaves at
or above their hard ratio if and only if every call's budgets are reportable in
the state before it. -/
theorem tokenBudget_enforced_iff (fl : FloatRounding) (env : Environment) (x : Uuid) (w : World)
    (calls : List (HardBudgetCall fl)) :
    EveryCall fl env x (Enforced fl env x) calls w ↔
      EveryCall fl env x (Reportable fl x) calls w := by
  induction calls generalizing w with
  | nil => exact Iff.rfl
  | cons c calls ih => exact and_congr (enforced_iff_reportable w c) (ih _)

namespace Governance

/-- Floats that hold every quotient. -/
def exact : FloatRounding := ⟨id, monotone_id⟩

/-- A policy that fails an execution whose agents use ten tokens each. -/
def tenPerAgent : TokenBudgetPolicy where
  agentTotalTokens := some 10
  action := .failExecution
  budgets_pos b h := by
    rcases h with h | h | h <;> cases h
    decide
  warn_le_hard := by norm_num

/-- A call in which an agent uses twenty tokens. -/
def twentyBy (agent : String) (event : Uuid) : HardBudgetCall exact where
  call :=
    { usage := { totalTokens := 20 }
      policy := some tenPerAgent
      agentId := some agent
      taskId := none
      modelRequestId := none
      eventId := some event }
  policy := tenPerAgent
  policy_eq := rfl
  hard := .inr rfl
  float := rfl

/-- A world with one execution. -/
def runningWorld : World :=
  { db := { executions := Table.empty.save { id := 0, workflowId := "w", status := .running } } }

end Governance

/-- The second agent to use up its budget is not told. -/
theorem tokenBudget_not_enforced :
    ¬EveryCall exact (Environment.counting ExtOp.silent) 0
      (Enforced exact (Environment.counting ExtOp.silent) 0)
      [twentyBy "a" 1, twentyBy "b" 2] runningWorld := by
  rintro ⟨-, h, -⟩
  have hover : (1 : ℚ) * (10 : ℕ) ≤ (20 : ℕ) := by norm_num
  obtain ⟨-, hkey⟩ := (enforced_iff_reportable _ _).mp h _ rfl .agent (by decide) 10 rfl hover
  exact hkey (by decide +kernel)

end OpenAgency
