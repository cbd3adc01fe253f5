/-
Goals.lean

`GoalService` and the two goal repositories.

Every change of a goal is the merge of a patch into the stored record, which is read for
the patch and once more for the merge.  Only `complete_goal` asks the evaluator, and only
some operations refuse a goal that is terminal.

The graph projection events of the service are left out: whatever goes wrong with one is
logged, and no operation reads them.
-/
import OpenAgency.GoalEvaluator
import OpenAgency.Lib.Catalog
import OpenAgency.Lib.Sum
import OpenAgency.Runtime
import OpenAgency.Triggers

namespace OpenAgency

open Relational Interaction Program

/-! ### The repositories -/

/-- The repository behind a goal service. -/
inductive GoalRepository where
  | sql
  | inMemory
  deriving DecidableEq

structure GoalStore where
  goals : Catalog (fun g : GoalDefinition => g.id) := .empty
  /-- How many summaries the memory service has been asked to store. -/
  summaries : ℕ := 0

inductive GoalOp where
  | getGoal (id : String)
  | listGoals
  | createGoal (goal : GoalDefinition)
  | saveGoal (goal : GoalDefinition)
  /-- Build the summary of a goal and store it as a memory. -/
  | storeSummary (goal : GoalDefinition) (actor : Option String) (reason : String)
      (supersedes : Json)

namespace GoalOp

abbrev Ret : GoalOp → Type
  | getGoal _ => Option GoalDefinition
  | listGoals => List GoalDefinition
  | createGoal _ | saveGoal _ => Except RuntimeException GoalDefinition
  | storeSummary _ _ _ _ => Except RuntimeException String

end GoalOp

namespace GoalStore

variable (repository : GoalRepository) (s : GoalStore)

/-- Only the SQL repository hides goals. -/
def isHidden (goal : GoalDefinition) : Bool :=
  repository = .sql && goal.status = .abandoned

/-- `get`. -/
def get (id : String) : Option GoalDefinition :=
  (s.goals.get id).filter fun goal => !isHidden repository goal

/-- `list`. -/
def list : List GoalDefinition :=
  match repository with
  | .inMemory => s.goals.items
  | .sql =>
    (s.goals.items.filter fun goal => !isHidden repository goal).insertionSort
      fun a b => b.createdAt ≤ a.createdAt

/-- The foreign key of a row breaks. -/
def orphans (goal : GoalDefinition) : Bool :=
  repository = .sql &&
    goal.parentGoalId.any fun parent => parent ≠ goal.id && (s.goals.get parent).isNone

/-- The row as it is written: the table keeps when a row was created. -/
def row (goal : GoalDefinition) : GoalDefinition :=
  match repository, s.goals.get goal.id with
  | .sql, some old => { goal with createdAt := old.createdAt }
  | _, _ => goal

def put (goal : GoalDefinition) : GoalStore := { s with goals := s.goals.put goal }

/-- `save`. -/
def save (goal : GoalDefinition) : Except RuntimeException GoalDefinition × GoalStore :=
  if s.orphans repository goal then
    (.error ⟨.integrityError, "FOREIGN KEY constraint failed"⟩, s)
  else (.ok (s.row repository goal), s.put (s.row repository goal))

/-- `create`: the table refuses a second row, the dict overwrites the first one. -/
def create (goal : GoalDefinition) : Except RuntimeException GoalDefinition × GoalStore :=
  if repository = .sql && (s.goals.get goal.id).isSome then
    (.error ⟨.integrityError, "UNIQUE constraint failed: goals.id"⟩, s)
  else if s.orphans repository goal then
    (.error ⟨.integrityError, "FOREIGN KEY constraint failed"⟩, s)
  else (.ok goal, s.put goal)

end GoalStore

/-- What an operation does; the memory service answers what `memory` says. -/
def GoalOp.exec (repository : GoalRepository) (memory : ℕ → Except RuntimeException String) :
    (o : GoalOp) → GoalStore → o.Ret × GoalStore
  | getGoal id, s => (s.get repository id, s)
  | listGoals, s => (s.list repository, s)
  | createGoal goal, s => s.create repository goal
  | saveGoal goal, s => s.save repository goal
  | storeSummary _ _ _ _, s => (memory s.summaries, { s with summaries := s.summaries + 1 })

abbrev GoalRepositorySig : Signature := ⟨GoalOp, GoalOp.Ret⟩

/-- The runtime and the goal repository. -/
abbrev GoalSig : Signature := RuntimeSig.sum GoalRepositorySig

abbrev GoalState := World × GoalStore

/-- A coroutine of the goal service. -/
abbrev GoalRun (α : Type) := Program GoalSig RuntimeException α

abbrev goalHandler (env : Environment) (repository : GoalRepository)
    (memory : ℕ → Except RuntimeException String) : Handler GoalSig GoalState :=
  (handler env).sum fun o s => o.exec repository memory s

/-- One operation on the repository. -/
def onGoals (o : GoalOp) : GoalRun o.Ret :=
  performRight (S := RuntimeSig) (T := GoalRepositorySig) o

/-- A coroutine of the runtime. -/
def inRuntime {α : Type} (p : Coroutine α) : GoalRun α := inl p

/-- `raise cls(message)`. -/
def raiseGoal {α : Type} (cls : ExceptionClass) (message : String) : GoalRun α :=
  throw ⟨cls, message⟩

/-! ### Dicts and lists of arbitrary values -/

namespace GoalConfig

/-- `dict(value or {})`. -/
def toDict (cfg : GoalConfig) (value : Json) : Except RuntimeException (Dict Json) :=
  if value.truthy then
    match value with
    | .obj fields => .ok fields
    | value => cfg.dictOf value
  else .ok []

theorem toDict_obj (cfg : GoalConfig) (d : Dict Json) : cfg.toDict (.obj d) = .ok d := by
  unfold toDict
  cases d with
  | nil => rfl
  | cons field fields => rfl

end GoalConfig

/-- `[item for item in value if isinstance(item, dict)]`. -/
def Json.dictItems : Json → Except RuntimeException (List (Dict Json))
  | arr items => .ok (items.filterMap asDict?)
  | str _ | obj _ => .ok []
  | null | bool _ | num _ => .error ⟨.typeError, "object is not iterable"⟩

/-- The dicts in `d.get(key, [])`. -/
def Dict.dictItems (d : Dict Json) (key : String) : Except RuntimeException (List (Dict Json)) :=
  ((d.get? key).getD (.arr [])).dictItems

/-- `items[-n:]`. -/
def takeLast {α : Type} (n : ℕ) (items : List α) : List α := items.drop (items.length - n)

/-- The value itself when it is a list, else `default`. -/
def Json.listOr (default : Json) : Json → Json
  | arr items => arr items
  | _ => default

/-- The value itself when it is a dict, else `{}`. -/
def Json.dictOrEmpty : Json → Json
  | obj fields => obj fields
  | _ => obj []

/-! ### Plans -/

/-- `GOAL_PLAN_STEP_ACTIONS`. -/
def goalPlanStepActions : List String :=
  ["start_workflow", "inspect_execution", "retrieve_memory", "ask_for_input", "request_approval",
    "evaluate_evidence"]

def dicts (items : List (Dict Json)) : Json := .arr (items.map .obj)

section Plans

variable (cfg : GoalConfig)

/-- `_default_plan_for_goal`. -/
def defaultPlanForGoal (goal : GoalFields) : Dict Json :=
  let criteria := dicts goal.successCriteria
  let workflowId := goal.constraints.getJson "workflow_id"
  let start : List Json := if workflowId.truthy then [.obj [
      ("action", .str "start_workflow"),
      ("workflow_id", workflowId),
      ("input_payload", (goal.constraints.getJson "workflow_input").dictOrEmpty),
      ("expected_evidence", criteria)]] else []
  [("summary", .str s!"Initial plan for {goal.objective}"),
    ("steps", .arr (start ++
      [.obj [("action", .str "evaluate_evidence"), ("expected_evidence", criteria)]])),
    ("expected_evidence", criteria)]

/-- `_normalize_plan_step`. -/
def normalizePlanStep (step : Json) (index : ℕ) : Except RuntimeException Json :=
  match step.asDict? with
  | none => .error ⟨.valueError, "Goal plan steps must be objects"⟩
  | some (step : Dict Json) =>
    let action := strip (cfg.text step ["action"])
    if action ∉ goalPlanStepActions then
      .error ⟨.valueError, s!"Unsupported goal plan step action '{action}'"⟩
    else
      let normalized := (((step.setdefault "id" (some (.str s!"step-{index + 1}"))).setdefault
        "status" (some (.str "pending"))).set "action" (.str action))
      if action ≠ "start_workflow" then .ok (.obj normalized)
      else if !(normalized.getJson "workflow_id").truthy then
        .error ⟨.valueError, "start_workflow plan steps require workflow_id"⟩
      else
        .ok (.obj (((normalized.set "input_payload"
          (normalized.getJson "input_payload").dictOrEmpty).set "assigned_agents"
          ((normalized.getJson "assigned_agents").listOr (.arr []))).set "expected_evidence"
          ((normalized.getJson "expected_evidence").listOr (.arr []))))

/-- The steps of a plan, counted from `index`. -/
def normalizePlanSteps : ℕ → List Json → Except RuntimeException (List Json)
  | _, [] => .ok []
  | index, step :: rest => do
    let normalized ← normalizePlanStep cfg step index
    let steps ← normalizePlanSteps (index + 1) rest
    return normalized :: steps

/-- `_normalize_plan`. -/
def normalizePlan (goal : GoalFields) (plan : Option (Dict Json)) (reason : String)
    (actor : Option String) (previousVersion : ℤ) (now : Time) :
    Except RuntimeException (Dict Json) := do
  let sourcePlan : Dict Json := match plan with
    | some (field :: fields) => field :: fields
    | _ => defaultPlanForGoal goal
  match sourcePlan.getJson "steps" with
  | .arr (step :: rest) => do
    let steps ← normalizePlanSteps cfg 0 (step :: rest)
    return [("version", .num ((previousVersion + 1 : ℤ) : ℚ)), ("goal_id", .str goal.id),
      ("objective", .str goal.objective), ("status", .str "active"),
      ("summary", .str (cfg.pyStr ((sourcePlan.getJson "summary").orElse
        (.str s!"Plan for goal: {goal.objective}")))),
      ("steps", .arr steps), ("created_at", .str (isoformat now)),
      ("created_by", .ofOption actor), ("reason", .str reason),
      ("expected_evidence",
        (sourcePlan.getJson "expected_evidence").listOr (dicts goal.successCriteria))]
  | _ => .error ⟨.valueError, "Goal plan requires at least one step"⟩

/-- `_metadata_with_plan`. -/
def metadataWithPlan (metadata plan : Dict Json) (reason : String) (actor : Option String)
    (now : Time) : Except RuntimeException (Dict Json) := do
  let planning ← cfg.toDict (metadata.getJson "goal_planning")
  let history ← planning.dictItems "plan_history"
  let history := history ++ ((planning.getJson "active_plan").asDict?).toList
  let planning := ((((planning.set "active_plan" (.obj plan)).set "plan_history"
    (dicts (takeLast 20 history))).set "last_replan_reason" (.str reason)).set "last_planned_by"
    (.ofOption actor)).set "updated_at" (.str (isoformat now))
  return (metadata.set "active_plan" (.obj plan)).set "goal_planning" (.obj planning)

/-- `_explicit_completion_condition`. -/
def explicitCompletionCondition (goal : GoalFields) : Bool :=
  (goal.constraints.getJson "completion_condition").truthy ||
    (goal.constraints.getJson "human_defined_completion_condition").truthy

/-- The version of the active plan; `0` without one. -/
def previousPlanVersion (metadata : Dict Json) : Except RuntimeException ℤ :=
  match (metadata.getJson "goal_planning").asDict? with
  | some (planning : Dict Json) =>
    match (planning.getJson "active_plan").asDict? with
    | some (active : Dict Json) => ((active.getJson "version").orElse (.num 0)).toInt
    | none => .ok 0
  | none => .ok 0

end Plans

/-! ### Supervisor decisions and operator actions -/

/-- The record of a decision, given the ones recorded before. -/
def decisionRecord (cfg : GoalConfig) (goalId : String) (decision : Dict Json)
    (actor : Option String) (decisions : List (Dict Json)) (now : Time) : Dict Json :=
  [("id", .str (cfg.pyStr ((decision.getJson "id").orElse
      (.str s!"decision-{decisions.length + 1}")))),
    ("goal_id", .str goalId), ("source", .str "main_agent_supervisor"),
    ("recorded_at", .str (isoformat now)), ("actor", .ofOption actor), ("decision", .obj decision),
    ("risk", (decision.getJson "risk").orElse (.str "low")),
    ("policy", (decision.getJson "policy").dictOrEmpty),
    ("requires_approval", .bool (decision.getJson "requires_approval").isTrue),
    ("approval_request_id", decision.getJson "approval_request_id"),
    ("finding_id", (decision.getJson "finding_id").orElse (decision.getJson "finding_event_id")),
    ("action", (decision.getJson "action").orElse (decision.getJson "recommended_action")),
    ("rationale", (decision.getJson "rationale").orElse (decision.getJson "reason"))]

/-- The metadata with a decision recorded; the last fifty decisions are kept. -/
def metadataWithDecision (cfg : GoalConfig) (goalId : String) (metadata decision : Dict Json)
    (actor : Option String) (now : Time) : Except RuntimeException (Dict Json) := do
  let monitoring ← cfg.toDict (metadata.getJson "main_agent_monitoring")
  let decisions ← monitoring.dictItems "supervisor_decisions"
  let record := decisionRecord cfg goalId decision actor decisions now
  let monitoring := (monitoring.set "supervisor_decisions"
    (dicts (takeLast 50 (decisions ++ [record])))).set "last_supervisor_decision" (.obj record)
  return metadata.set "main_agent_monitoring" (.obj monitoring)

/-- The metadata with an operator action recorded. -/
def metadataWithOperatorAction (cfg : GoalConfig) (goalId : String)
    (metadata payload : Dict Json) (action : String) (actor : Option String) (now : Time) :
    Except RuntimeException (Dict Json) := do
  let monitoring ← cfg.toDict (metadata.getJson "main_agent_monitoring")
  let actions ← monitoring.dictItems "operator_actions"
  let record : Dict Json := [("id", .str s!"operator-action-{actions.length + 1}"),
    ("goal_id", .str goalId), ("action", .str action), ("actor", .ofOption actor),
    ("reason", payload.getJson "reason"), ("recorded_at", .str (isoformat now)),
    ("status", .str "completed"),
    ("fields", .strs (((payload.map Prod.fst).filter (· ≠ "action")).insertionSort (· ≤ ·)))]
  let monitoring := (monitoring.set "operator_actions"
    (dicts (takeLast 50 (actions ++ [record])))).set "last_operator_action" (.obj record)
  return metadata.set "main_agent_monitoring" (.obj monitoring)

/-- `_memory_ids_for_goal`. -/
def memoryIdsForGoal (cfg : GoalConfig) (goal : GoalFields) : List String :=
  let attached := ["memory_ids", "attached_memory_ids", "context_memory_ids"].flatMap fun key =>
    match goal.metadata.getJson key with
    | .arr items => (items.filter Json.truthy).map cfg.pyStr
    | _ => []
  let cited := goal.evidence.flatMap fun (item : Dict Json) =>
    (["memory_id", "memoryId"] ++
      if cfg.text item ["type", "kind"] = "memory" then ["id"] else []).filterMap fun key =>
        (item.getJson key).asStr?.filter (· ≠ "")
  sortedSet (attached ++ cited)

/-- The metadata that name a stored summary. -/
def metadataWithSummary (cfg : GoalConfig) (goal : GoalFields) (goalMemory : Dict Json)
    (memoryId reason : String) (now : Time) : Dict Json :=
  let previous := goalMemory.getJson "latest_summary_memory_id"
  let memoryIds := memoryIdsForGoal cfg goal
  let memoryIds := match previous with
    | .str id => memoryIds.erase id
    | _ => memoryIds
  let goalMemory := (((goalMemory.set "latest_summary_memory_id" (.str memoryId)).set
    "previous_summary_memory_id" previous).set "updated_at" (.str (isoformat now))).set "reason"
    (.str reason)
  (goal.metadata.set "memory_ids" (.strs (sortedSet (memoryIds ++ [memoryId])))).set "goal_memory"
    (.obj goalMemory)

/-! ### The service -/

/-- What the caller passes to `create_goal`. -/
structure GoalPayload extends GoalPatch where
  id : Option String := none
  createdAt : Option Time := none
  updatedAt : Option Time := none

namespace GoalService

/-- `create_goal`. -/
def createGoal (payload : GoalPayload) : GoalRun GoalDefinition := do
  let drawn ← inRuntime uuid4
  let createdAt ← inRuntime utcNow
  let updatedAt ← inRuntime utcNow
  let fields ← ofExcept (payload.toGoalPatch.merge
    { id := payload.id.getD (toString drawn), objective := ""
      createdAt := payload.createdAt.getD createdAt, updatedAt := updatedAt }
    (payload.updatedAt.getD updatedAt))
  let settledAt ← inRuntime utcNow
  let goal ← ofExcept (GoalDefinition.validate fields settledAt)
  let created ← onGoals (.createGoal goal)
  ofExcept created

/-- `get_goal`. -/
def getGoal (goalId : String) : GoalRun GoalDefinition := do
  match ← onGoals (.getGoal goalId) with
  | none => raiseGoal .goalNotFound s!"Goal '{goalId}' was not found"
  | some goal => return goal

/-- `_ensure_not_terminal`. -/
def ensureNotTerminal (goal : GoalDefinition) : GoalRun Unit :=
  if goal.status.isTerminal then
    raiseGoal .goalTransition
      s!"Goal '{goal.id}' is already terminal with status '{goal.status.value}'"
  else return ()

/-- `update_goal`. -/
def updateGoal (goalId : String) (patch : GoalPatch) : GoalRun GoalDefinition := do
  let current ← getGoal goalId
  let now ← inRuntime utcNow
  let merged ← ofExcept (patch.merge current.toGoalFields now)
  let settledAt ← inRuntime utcNow
  let goal ← ofExcept (GoalDefinition.validate merged settledAt)
  let saved ← onGoals (.saveGoal goal)
  ofExcept saved

variable (cfg : GoalConfig)

/-- `attach_evidence`. -/
def attachEvidence (goalId : String) (evidence : List (Dict Json)) : GoalRun GoalDefinition :=
  if evidence.isEmpty then
    raiseGoal .valueError "At least one evidence record is required"
  else do
    let goal ← getGoal goalId
    updateGoal goalId { evidence := some (some (goal.evidence ++ evidence)) }

/-- `evaluate_goal`. -/
def evaluateGoal (goalId : String) (evidence : List (Dict Json)) (persist : Bool) :
    GoalRun GoalEvaluation := do
  let goal ← getGoal goalId
  let checkedAt ← inRuntime utcNow
  let evaluation ← ofExcept
    (GoalEvaluator.evaluate cfg goal.toGoalFields (goal.evidence ++ evidence) checkedAt)
  if persist then
    let _ ← updateGoal goalId { evaluation := some (some (evaluation.dump cfg)) }
    return evaluation
  else return evaluation

/-- The plan of a goal and the metadata that hold it. -/
def planned (goal : GoalFields) (plan : Option (Dict Json)) (reason : String)
    (actor : Option String) (previousVersion : ℤ) (plannedAt now : Time) :
    Except RuntimeException (Dict Json) := do
  let normalized ← normalizePlan cfg goal plan reason actor previousVersion plannedAt
  metadataWithPlan cfg goal.metadata normalized reason actor now

/-- `plan_goal`. -/
def planGoal (goalId : String) (plan : Option (Dict Json)) (reason : String)
    (actor : Option String) : GoalRun GoalDefinition := do
  let goal ← getGoal goalId
  ensureNotTerminal goal
  if goal.successCriteria.isEmpty && !explicitCompletionCondition goal.toGoalFields then
    raiseGoal .valueError
      "Active goals require at least one success criterion or explicit completion condition"
  else do
    let plannedAt ← inRuntime utcNow
    let now ← inRuntime utcNow
    let metadata ← ofExcept
      (planned cfg goal.toGoalFields plan reason actor 0 plannedAt now)
    updateGoal goalId {
      status := some (some (if goal.status = .created then .planning else goal.status))
      metadata := some (some metadata) }

/-- `replan_goal`. -/
def replanGoal (goalId : String) (plan : Option (Dict Json)) (reason : String)
    (actor : Option String) : GoalRun GoalDefinition :=
  if strip reason = "" then raiseGoal .valueError "Replan reason is required"
  else do
    let goal ← getGoal goalId
    ensureNotTerminal goal
    let previousVersion ← ofExcept (previousPlanVersion goal.metadata)
    let plannedAt ← inRuntime utcNow
    let now ← inRuntime utcNow
    let metadata ← ofExcept
      (planned cfg goal.toGoalFields plan reason actor previousVersion plannedAt now)
    updateGoal goalId { status := some (some .active), metadata := some (some metadata) }

/-- `record_supervisor_decision`. -/
def recordSupervisorDecision (goalId : String) (decision : Json) (actor : Option String) :
    GoalRun GoalDefinition :=
  match decision with
  | .obj (field :: fields) => do
    let goal ← getGoal goalId
    let now ← inRuntime utcNow
    let metadata ← ofExcept
      (metadataWithDecision cfg goal.id goal.metadata (field :: fields) actor now)
    updateGoal goalId { metadata := some (some metadata) }
  | _ => raiseGoal .valueError "Supervisor decision payload is required"

/-- `store_goal_summary_memory`. -/
def storeGoalSummaryMemory (goalId : String) (actor : Option String) (reason : String) :
    GoalRun GoalDefinition := do
  let goal ← getGoal goalId
  let goalMemory ← ofExcept (cfg.toDict (goal.metadata.getJson "goal_memory"))
  let stored ← onGoals
    (.storeSummary goal actor reason (Dict.getJson goalMemory "latest_summary_memory_id"))
  let memoryId ← ofExcept stored
  let now ← inRuntime utcNow
  updateGoal goalId {
    metadata := some (some
      (metadataWithSummary cfg goal.toGoalFields goalMemory memoryId reason now)) }

/-- `pause_goal`. -/
def pauseGoal (goalId : String) : GoalRun GoalDefinition := do
  let goal ← getGoal goalId
  ensureNotTerminal goal
  updateGoal goalId { status := some (some .paused) }

/-- `resume_goal`. -/
def resumeGoal (goalId : String) : GoalRun GoalDefinition := do
  let goal ← getGoal goalId
  if goal.status ≠ .paused then
    raiseGoal .goalTransition "Only paused goals can be resumed"
  else updateGoal goalId { status := some (some .active) }

/-- `cancel_goal`. -/
def cancelGoal (goalId : String) (reason : Json) : GoalRun GoalDefinition := do
  let goal ← getGoal goalId
  ensureNotTerminal goal
  let now ← inRuntime utcNow
  updateGoal goalId {
    status := some (some .cancelled)
    completedAt := some (some now)
    metadata := some (some
      (if reason.truthy then goal.metadata.set "cancellation_reason" reason
        else goal.metadata)) }

/-- The evaluation a completion is decided by: the evaluator's, and the review of a
high-risk goal. -/
def completionEvaluation (goal : GoalFields) (evidence : List (Dict Json))
    (evaluation : Option (Dict Json)) (checkedAt : Time) :
    Except RuntimeException GoalEvaluation := do
  let result ← GoalEvaluator.evaluate cfg goal evidence checkedAt
  let result := { result with reviewerEvaluation := evaluation }
  let requirement := completionReviewRequirement cfg goal
  if requirement.required then
    if hasIndependentCompletionAuthority cfg goal evidence evaluation then
      return { result with completionReview := some (requirement, true) }
    else
      return { result with
        status := .completionReviewRequired
        sufficient := false
        confidence := "low"
        completionReview := some (requirement, false)
        missingEvidence := result.missingEvidence ++
          [{ criterionId := "independent_completion_review"
             criterion := [("kind", .str "independent_review"),
               ("description", .str requirement.description)]
             reason := requirement.reason }] }
  else return result

/-- `complete_goal`. -/
def completeGoal (goalId : String) (evidence : List (Dict Json))
    (evaluation : Option (Dict Json)) : GoalRun GoalDefinition := do
  let goal ← getGoal goalId
  ensureNotTerminal goal
  let checkedAt ← inRuntime utcNow
  let result ← ofExcept (completionEvaluation cfg goal.toGoalFields
    (goal.evidence ++ evidence) evaluation checkedAt)
  if result.sufficient then do
    let now ← inRuntime utcNow
    updateGoal goalId {
      status := some (some .completed)
      completedAt := some (some now)
      evidence := some (some (goal.evidence ++ evidence))
      evaluation := some (some (result.dump cfg)) }
  else do
    let _ ← updateGoal goalId {
      evidence := some (some (goal.evidence ++ evidence))
      evaluation := some (some (result.dump cfg)) }
    if result.status = .completionReviewRequired then
      raiseGoal .goalTransition
        "High-risk goal completion requires independent review or final approval"
    else raiseGoal .goalTransition "Goal completion requires sufficient evidence"

/-- `link_execution`. -/
def linkExecution (goalId : String) (executionId : Uuid) : GoalRun GoalDefinition := do
  let goal ← getGoal goalId
  updateGoal goalId {
    executionIds := some (some
      (if executionId ∈ goal.executionIds then goal.executionIds
        else goal.executionIds ++ [executionId])) }

/-! ### Operator actions -/

/-- `_adjust_goal_autonomy`. -/
def adjustGoalAutonomy (goalId : String) (payload : Dict Json) : GoalRun GoalDefinition :=
  let autonomy := cfg.lowerText payload ["autonomy"]
  if autonomy ∉ ["off", "advisory", "guarded", "high_autonomy"] then
    raiseGoal .valueError "autonomy must be one of off, advisory, guarded, or high_autonomy"
  else do
    let goal ← getGoal goalId
    ensureNotTerminal goal
    updateGoal goalId {
      constraints := some (some (goal.constraints.set "autonomy" (.str autonomy))) }

/-- `_update_goal_success_criteria`. -/
def updateGoalSuccessCriteria (goalId : String) (payload : Dict Json) : GoalRun GoalDefinition :=
  match payload.getJson "success_criteria" with
  | .arr (item :: items) =>
    if (item :: items).any (·.asDict?.isNone) then
      raiseGoal .valueError "success_criteria entries must be objects"
    else do
      let goal ← getGoal goalId
      ensureNotTerminal goal
      updateGoal goalId {
        successCriteria := some (some ((item :: items).filterMap Json.asDict?)) }
  | _ => raiseGoal .valueError "success_criteria must contain at least one criterion"

/-- `_reassign_goal`. -/
def reassignGoal (goalId : String) (payload : Dict Json) : GoalRun GoalDefinition :=
  let ownerActor := strip (cfg.text payload ["owner_actor"])
  if ownerActor = "" then
    raiseGoal .valueError "owner_actor is required when reassigning a goal"
  else do
    let goal ← getGoal goalId
    ensureNotTerminal goal
    updateGoal goalId { ownerActor := some (some ownerActor) }

/-- `_record_operator_action`. -/
def recordOperatorAction (goal : GoalDefinition) (action : String) (payload : Dict Json)
    (actor : Option String) : GoalRun GoalDefinition := do
  let now ← inRuntime utcNow
  let metadata ← ofExcept
    (metadataWithOperatorAction cfg goal.id goal.metadata payload action actor now)
  updateGoal goal.id { metadata := some (some metadata) }

/-- The change an operator asks for. -/
def operatorChange (goalId action : String) (payload : Dict Json) : GoalRun GoalDefinition :=
  if action = "" then raiseGoal .valueError "Operator action is required"
  else if action = "pause" then pauseGoal goalId
  else if action = "resume" then resumeGoal goalId
  else if action = "cancel" then cancelGoal goalId (payload.getJson "reason")
  else if action = "adjust_autonomy" then adjustGoalAutonomy cfg goalId payload
  else if action = "update_success_criteria" then updateGoalSuccessCriteria goalId payload
  else if action = "reassign" then reassignGoal cfg goalId payload
  else
    raiseGoal .valueError ("Unsupported operator action. Expected pause, resume, cancel, " ++
      "adjust_autonomy, update_success_criteria, or reassign.")

/-- `apply_operator_action`. -/
def applyOperatorAction (goalId : String) (payload : Dict Json) (actor : Option String) :
    GoalRun GoalDefinition := do
  let action := cfg.lowerText payload ["action"]
  let updated ← operatorChange cfg goalId action payload
  if updated.status.isTerminal && action = "cancel" then
    recordOperatorAction cfg updated action payload actor
  else do
    let current ← getGoal goalId
    recordOperatorAction cfg current action payload actor

end GoalService

/-! ### Calls -/

/-- An operation of the service, with its arguments. -/
inductive GoalCall where
  | createGoal (payload : GoalPayload)
  | updateGoal (goalId : String) (patch : GoalPatch)
  | attachEvidence (goalId : String) (evidence : List (Dict Json))
  | evaluateGoal (goalId : String) (evidence : List (Dict Json)) (persist : Bool)
  | planGoal (goalId : String) (plan : Option (Dict Json)) (reason : String)
      (actor : Option String)
  | replanGoal (goalId : String) (plan : Option (Dict Json)) (reason : String)
      (actor : Option String)
  | recordSupervisorDecision (goalId : String) (decision : Json) (actor : Option String)
  | storeGoalSummaryMemory (goalId : String) (actor : Option String) (reason : String)
  | pauseGoal (goalId : String)
  | resumeGoal (goalId : String)
  | cancelGoal (goalId : String) (reason : Option String)
  | completeGoal (goalId : String) (evidence : List (Dict Json))
      (evaluation : Option (Dict Json))
  | linkExecution (goalId : String) (executionId : Uuid)
  | applyOperatorAction (goalId : String) (payload : Dict Json) (actor : Option String)

open GoalService in
/-- The coroutine of a call; the result is that it returned. -/
def GoalCall.code (cfg : GoalConfig) : GoalCall → GoalRun Unit
  | createGoal payload => do let _ ← GoalService.createGoal payload
  | updateGoal id patch => do let _ ← GoalService.updateGoal id patch
  | attachEvidence id evidence => do let _ ← GoalService.attachEvidence id evidence
  | evaluateGoal id evidence persist => do
    let _ ← GoalService.evaluateGoal cfg id evidence persist
  | planGoal id plan reason actor => do let _ ← GoalService.planGoal cfg id plan reason actor
  | replanGoal id plan reason actor => do let _ ← GoalService.replanGoal cfg id plan reason actor
  | recordSupervisorDecision id decision actor => do
    let _ ← GoalService.recordSupervisorDecision cfg id decision actor
  | storeGoalSummaryMemory id actor reason => do
    let _ ← GoalService.storeGoalSummaryMemory cfg id actor reason
  | pauseGoal id => do let _ ← GoalService.pauseGoal id
  | resumeGoal id => do let _ ← GoalService.resumeGoal id
  | cancelGoal id reason => do let _ ← GoalService.cancelGoal id (.ofOption reason)
  | completeGoal id evidence evaluation => do
    let _ ← GoalService.completeGoal cfg id evidence evaluation
  | linkExecution id executionId => do let _ ← GoalService.linkExecution id executionId
  | applyOperatorAction id payload actor => do
    let _ ← GoalService.applyOperatorAction cfg id payload actor

end OpenAgency
