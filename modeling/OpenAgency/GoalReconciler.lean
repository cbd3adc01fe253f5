/-
GoalReconciler.lean

`GoalStartupReconciler`, which repairs the links between goals and executions after a
restart.

One run reads the lists of goals and executions and then goes over them twice.  The first
pass looks at the executions that active goals list, the second one at the goal that each
execution names; whatever it saves of an execution is made from the copy in its list,
which is never read again.

The counters of the runtime operations are left out: no operation reads them.
-/
import OpenAgency.Goals

namespace OpenAgency

open Relational Interaction Program

/-- `{**value, key: item}`. -/
def Json.setKey : Json → String → Json → Json
  | obj fields, key, item => obj (Dict.set fields key item)
  | _, key, item => obj [(key, item)]

structure GoalStartupReconciliationReport where
  activeGoalsScanned : ℕ
  executionsScanned : ℕ
  repairedGoalExecutionLinks : ℕ
  repairedExecutionGoalLinks : ℕ
  orphanedGoalExecutionReferences : ℕ
  orphanedExecutionGoalReferences : ℕ
  findings : List (Dict Json)

namespace GoalStartupReconciler

/-- A name that is not blank, without the space around it. -/
def named (value : Json) : Option String :=
  value.asStr?.bind fun s => if strip s = "" then none else some (strip s)

/-- `_execution_goal_hint`. -/
def executionGoalHint (e : Execution) : Option String :=
  ([.ofOption e.goalId, e.metadata.goalId, (e.triggerPayload.get? "goal_id").getD .null,
    (e.inputPayload.arguments.get? "goal_id").getD .null] : List Json).findSome? named

/-! ### Saving -/

/-- The execution with the goal written wherever an execution names one. -/
def linkTo (e : Execution) (goalId : String) (reconciliation : Dict Json) : Execution :=
  { e with
    goalId := some goalId
    triggerPayload := e.triggerPayload.setKey "goal_id" (.str goalId)
    inputPayload := { e.inputPayload with
      arguments := e.inputPayload.arguments.setKey "goal_id" (.str goalId) }
    metadata := { e.metadata with
      goalId := .str goalId
      goalStartupReconciliation := .obj reconciliation } }

/-- The execution with nothing but a note in its metadata. -/
def flagAs (e : Execution) (reconciliation : Dict Json) : Execution :=
  { e with metadata := { e.metadata with goalStartupReconciliation := .obj reconciliation } }

section Saves

variable (cfg : GoalConfig)

/-- `_save_execution_goal_link`; the second reading of the clock is for a field the
execution does not keep. -/
def saveExecutionGoalLink (e : Execution) (goalId reason : String) : Coroutine Unit := do
  let reconciliation ← ofExcept (cfg.toDict e.metadata.goalStartupReconciliation)
  let repairedAt ← utcNow
  let _ ← utcNow
  query (.updateExecution (linkTo e goalId
    (Dict.union reconciliation
      [("last_repaired_at", .str (isoformat repairedAt)), ("reason", .str reason)])))

/-- `_flag_orphaned_execution_goal_reference`. -/
def flagOrphanedExecutionGoalReference (e : Execution) (goalId : String) : Coroutine Unit := do
  let reconciliation ← ofExcept (cfg.toDict e.metadata.goalStartupReconciliation)
  let flaggedAt ← utcNow
  let _ ← utcNow
  query (.updateExecution (flagAs e
    (Dict.union reconciliation
      [("last_flagged_at", .str (isoformat flaggedAt)),
        ("status", .str "orphaned_execution_goal_reference"), ("goal_id", .str goalId)])))

/-- `_record_reconciliation_event`. -/
def recordReconciliationEvent (e : Execution) : Coroutine Unit := do
  let id ← uuid4
  let now ← utcNow
  let saved ← query (.saveEvent {
    id := id
    executionId := e.id
    workflowId := e.workflowId
    eventType := .monitorFindingCreated
    sequence := 0
    timestamp := now })
  let _ ← ofExcept saved
  return ()

/-- `_record_goal_reconciliation`. -/
def recordGoalReconciliation (goal : GoalDefinition) (now : Time) (missing repaired : List Uuid) :
    GoalRun GoalDefinition := do
  let reconciliation ← ofExcept
    (cfg.toDict (goal.metadata.getJson "goal_startup_reconciliation"))
  let saved ← onGoals (.saveGoal { goal with
    metadata := goal.metadata.set "goal_startup_reconciliation" (.obj (Dict.union reconciliation
      [("last_reconciled_at", .str (isoformat now)),
        ("missing_execution_ids", .strs (missing.map toString)),
        ("repaired_execution_ids", .strs (repaired.map toString))]))
    updatedAt := now })
  ofExcept saved

end Saves

/-! ### The two passes -/

/-- What a run has found so far, and the goals as it has last saved them. -/
structure Findings where
  goalsById : Catalog (fun g : GoalDefinition => g.id)
  repairedGoalExecutionLinks : ℕ := 0
  repairedExecutionGoalLinks : ℕ := 0
  orphanedGoalExecutionReferences : ℕ := 0
  orphanedExecutionGoalReferences : ℕ := 0
  findings : List (Dict Json) := []

def finding (category goalId : String) (executionId : Uuid) (reason : String) : Dict Json :=
  [("category", .str category), ("goal_id", .str goalId),
    ("execution_id", .str (toString executionId)), ("reason", .str reason)]

section Passes

variable (cfg : GoalConfig)

/-- The executions a goal lists: those that are missing, and those whose link was
repaired. -/
def checkReferences (executions : List Execution) (goalId : String) :
    List Uuid → Coroutine (List Uuid × List Uuid)
  | [] => return ([], [])
  | executionId :: rest =>
    match executions.find? (·.id = executionId) with
    | none => do
      let (missing, repaired) ← checkReferences executions goalId rest
      return (executionId :: missing, repaired)
    | some e =>
      if e.goalId ≠ some goalId then do
        saveExecutionGoalLink cfg e goalId "goal_execution_reference"
        recordReconciliationEvent e
        let (missing, repaired) ← checkReferences executions goalId rest
        return (missing, e.id :: repaired)
      else checkReferences executions goalId rest

/-- The first pass, for one active goal. -/
def reconcileGoal (executions : List Execution) (now : Time) (found : Findings)
    (goal : GoalDefinition) : GoalRun Findings := do
  let (missing, repaired) ← inRuntime (checkReferences cfg executions goal.id goal.executionIds)
  if missing.isEmpty && repaired.isEmpty then return found
  else
    let saved ← recordGoalReconciliation cfg goal now missing repaired
    return { found with
      goalsById := found.goalsById.put saved
      repairedExecutionGoalLinks := found.repairedExecutionGoalLinks + repaired.length
      orphanedGoalExecutionReferences := found.orphanedGoalExecutionReferences + missing.length
      findings := found.findings ++ missing.map fun executionId =>
        finding "orphaned_goal_execution_reference" saved.id executionId
          "Active goal references an execution that no longer exists." }

/-- An execution is added to the goal that it names, unless the goal lists it. -/
def addReference (e : Execution) (goal : GoalDefinition) (now : Time) (found : Findings) :
    GoalRun Findings :=
  if e.id ∈ goal.executionIds then return found
  else do
    let saved ← onGoals (.saveGoal { goal with
      executionIds := goal.executionIds ++ [e.id], updatedAt := now })
    let saved ← ofExcept saved
    return { found with
      goalsById := found.goalsById.put saved
      repairedGoalExecutionLinks := found.repairedGoalExecutionLinks + 1 }

/-- The second pass, for one execution. -/
def reconcileExecution (now : Time) (found : Findings) (e : Execution) : GoalRun Findings :=
  match executionGoalHint e with
  | none => return found
  | some goalId =>
    match found.goalsById.get goalId with
    | none => do
      inRuntime (flagOrphanedExecutionGoalReference cfg e goalId)
      inRuntime (recordReconciliationEvent e)
      return { found with
        orphanedExecutionGoalReferences := found.orphanedExecutionGoalReferences + 1
        findings := found.findings ++ [finding "orphaned_execution_goal_reference" goalId e.id
          "Execution references a goal that no longer exists."] }
    | some goal => do
      let found ← addReference e goal now found
      if e.goalId ≠ some goal.id then do
        inRuntime (saveExecutionGoalLink cfg e goal.id "execution_goal_hint")
        inRuntime (recordReconciliationEvent e)
        return { found with
          repairedExecutionGoalLinks := found.repairedExecutionGoalLinks + 1 }
      else return found

/-- `reconcile_once`. -/
def reconcileOnce : GoalRun GoalStartupReconciliationReport := do
  let now ← inRuntime utcNow
  let goals ← onGoals .listGoals
  let executions ← inRuntime (query (.listExecutions fun _ => true))
  let activeGoals := goals.filter (·.status.isActive)
  let found ← activeGoals.foldlM (reconcileGoal cfg executions now)
    { goalsById := goals.foldl Catalog.put .empty }
  let found ← executions.foldlM (reconcileExecution cfg now) found
  return {
    activeGoalsScanned := activeGoals.length
    executionsScanned := executions.length
    repairedGoalExecutionLinks := found.repairedGoalExecutionLinks
    repairedExecutionGoalLinks := found.repairedExecutionGoalLinks
    orphanedGoalExecutionReferences := found.orphanedGoalExecutionReferences
    orphanedExecutionGoalReferences := found.orphanedExecutionGoalReferences
    findings := found.findings }

end Passes

end GoalStartupReconciler

end OpenAgency
