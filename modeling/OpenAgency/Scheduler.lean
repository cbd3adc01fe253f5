/-
Scheduler.lean

`WorkflowScheduler`: creating and changing schedules, firing one now, firing those an
event matches, and the pass that fires those that are due.

Every operation may fail, so the `try` blocks of the source are `attempt`s here, and
what stands outside of them is not protected.  Counters and recorded actions of the
runtime's operations are left out, as is the repository without fire claims.
-/
import OpenAgency.Schedules
import OpenAgency.Triggers

namespace OpenAgency

open Interaction Program Json

structure SchedulerConfig where
  registry : RegistryConfig
  repository : ScheduleRepository := .sql
  schedulerId : String
  claimLeaseSeconds : ℕ := 300
  /-- `execution_starter` is the control plane's `queue_start`, or there is none. -/
  executionStarter : Bool := true
  goalRepo : Bool := true
  goalSupervisorWaker : Bool := false
  zoneInfo : String → ZoneLookup := fun _ => .notFound
  /-- `str(value)` of a value that is not a string. -/
  repr : Json → String := fun _ => ""
  /-- The instant that validation reads out of a value, if it accepts it. -/
  parseDatetime : Json → Option Time := fun _ => none

namespace SchedulerConfig

/-- `str(value)`. -/
def pyStr (cfg : SchedulerConfig) : Json → String
  | .str s => s
  | value => cfg.repr value

end SchedulerConfig

/-- `raise cls(message)`. -/
def raiseScheduling {α : Type} (cls : ExceptionClass) (message : String) : Scheduling α :=
  throw ⟨cls, message⟩

/-- `compute_next_fire`, where it may raise. -/
def nextFire (cfg : SchedulerConfig) (d : ScheduleFields) (now : Time) :
    Scheduling TriggerComputation := ofExcept (computeNextFire cfg.zoneInfo d now)

/-- `model_validate`, where it may raise. -/
def validateSchedule (f : ScheduleFields) : Scheduling ScheduleDefinition :=
  ofExcept (ScheduleDefinition.validate f)

/-! ### Schedules -/

/-- The repository's `update`. -/
def updateSchedule (scheduleId : String) (patch : SchedulePatch) :
    Scheduling (Option ScheduleDefinition) := do
  match ← onSchedules (.getSchedule scheduleId) with
  | none => return none
  | some current =>
    let merged ← validateSchedule (patch.merge current.toScheduleFields)
    onSchedules (.saveSchedule merged)
    return some merged

/-- `create_schedule`. -/
def createSchedule (cfg : SchedulerConfig) (d : ScheduleDefinition) :
    Scheduling ScheduleDefinition := do
  let now ← onRuntime utcNow
  let computation ← nextFire cfg d.toScheduleFields now
  let created ← validateSchedule
    { d.toScheduleFields with nextFireAt := computation.nextFireAt }
  let stored ← onSchedules (.createSchedule cfg.repository created)
  ofExcept stored
  return created

/-- The patch `patch_schedule` applies: a patch that does not set the next fire disables it
or recomputes it. -/
def reschedule (cfg : SchedulerConfig) (current : ScheduleDefinition) (patch : SchedulePatch) :
    Scheduling SchedulePatch :=
  match patch.nextFireAt with
  | some _ => return patch
  | none => do
    let candidate ← validateSchedule (patch.merge current.toScheduleFields)
    if !candidate.enabled then return { patch with nextFireAt := some none }
    else if patch.reschedules then
      let now ← onRuntime utcNow
      let computation ← nextFire cfg candidate.toScheduleFields now
      return { patch with nextFireAt := some computation.nextFireAt }
    else return patch

/-- `patch_schedule`. -/
def patchSchedule (cfg : SchedulerConfig) (scheduleId : String) (patch : SchedulePatch) :
    Scheduling (Option ScheduleDefinition) := do
  match ← onSchedules (.getSchedule scheduleId) with
  | none => return none
  | some current =>
    let patch ← reschedule cfg current patch
    updateSchedule scheduleId patch

/-- `enable_schedule`. -/
def enableSchedule (cfg : SchedulerConfig) (scheduleId : String) :
    Scheduling (Option ScheduleDefinition) := do
  match ← onSchedules (.getSchedule scheduleId) with
  | none => return none
  | some current =>
    let now ← onRuntime utcNow
    let computation ← nextFire cfg { current.toScheduleFields with enabled := true } now
    updateSchedule scheduleId { enabled := some true, nextFireAt := some computation.nextFireAt }

/-- `disable_schedule`. -/
def disableSchedule (scheduleId : String) : Scheduling (Option ScheduleDefinition) :=
  updateSchedule scheduleId { enabled := some false, nextFireAt := some none }

/-! ### Fire claims -/

/-- `acquire_schedule_fire_claim`. -/
def acquireFireClaim (cfg : SchedulerConfig) (scheduleId : String) (fireAt : Time) :
    Scheduling Bool := do
  let now ← onRuntime utcNow
  let leaseExpiresAt := now + seconds cfg.claimLeaseSeconds
  let id ← onRuntime uuid4
  let claim : ScheduleFireClaim := {
    id := id
    scheduleId := scheduleId
    scheduledFireAt := fireAt
    claimedBy := cfg.schedulerId
    leaseExpiresAt := leaseExpiresAt }
  match cfg.repository with
  | .inMemory => onSchedules (.acquireFireClaim claim now)
  | .sql =>
    if ← onSchedules (.insertFireClaim claim) then return true
    else
      onSchedules (.takeOverFireClaim scheduleId fireAt cfg.schedulerId now leaseExpiresAt)

/-- `mark_schedule_fire_claim_fired` with the execution, `mark_schedule_fire_claim_failed`
without one. -/
def markFireClaim (cfg : SchedulerConfig) (scheduleId : String) (fireAt : Time)
    (executionId : Option Uuid) : Scheduling Unit := do
  let now ← onRuntime utcNow
  onSchedules (.markFireClaim cfg.repository scheduleId fireAt cfg.schedulerId executionId now)

/-- Marking a claim, where the fire has one. -/
def markFire (cfg : SchedulerConfig) (scheduleId : String) (executionId : Option Uuid) :
    Option Time → Scheduling Unit
  | none => return ()
  | some fireAt => markFireClaim cfg scheduleId fireAt executionId

/-! ### Goals -/

/-- A value of the type `str | None`. -/
def Json.optionalString : Json → Except RuntimeException (Option String)
  | null => .ok none
  | str s => .ok (some s)
  | _ => .error ⟨.validationError, "Input should be a valid string"⟩

/-- The goal that the configuration `config` of a schedule describes. -/
def goalOfConfig (cfg : SchedulerConfig) (schedule : ScheduleDefinition) (config : Dict Json)
    (fireAt : Option Time) (now : Time) (id : String) (createdAt updatedAt : Time) :
    Except RuntimeException GoalDefinition := do
  let objective := strip (cfg.pyStr ((config.getJson "objective").orElse (.str schedule.name)))
  let successCriteria := match config.getJson "success_criteria" with
    | .arr (c :: cs) => c :: cs
    | _ => [.obj [("kind", .str "scheduled_workflow_execution"), ("description", .str
        s!"Scheduled workflow '{schedule.workflowId}' produces completion evidence.")]]
  let metadata : Dict Json := [("created_by_schedule", .obj [
    ("schedule_id", .str schedule.id),
    ("workflow_id", .str schedule.workflowId),
    ("scheduled_fire_at", ofOption (fireAt.map isoformat)),
    ("triggered_at", .str (isoformat now))])]
  let metadata := match config.getJson "metadata" with
    | .obj more => more.foldl (fun d (k, v) => Dict.set d k v) metadata
    | _ => metadata
  let ownerActor ← (config.getJson "owner_actor").optionalString
  let parentGoalId ← (config.getJson "parent_goal_id").optionalString
  if successCriteria.any (·.asObj?.isNone) then
    .error ⟨.validationError, "Input should be a valid dictionary"⟩
  let deadlineAt ← match config.getJson "deadline_at" with
    | .null => .ok none
    | value => match cfg.parseDatetime value with
      | some t => .ok (some t)
      | none => .error ⟨.validationError, "Input should be a valid datetime"⟩
  GoalDefinition.validate {
    id := id
    objective := objective
    status := .active
    priority := cfg.pyStr ((config.getJson "priority").orElse (.str "normal"))
    ownerActor := ownerActor
    parentGoalId := parentGoalId
    successCriteria := successCriteria.filterMap asDict?
    constraints := ((config.getJson "constraints").asDict?).getD []
    deadlineAt := deadlineAt
    createdAt := createdAt
    updatedAt := updatedAt
    metadata := metadata } updatedAt

/-- What a schedule's metadata ask of its goals. -/
inductive GoalRequest where
  | none
  | create (config : Dict Json)
  | continue (goalId : String)

/-- The mode and the goal a schedule is configured with. -/
def goalRequest (cfg : SchedulerConfig) (schedule : ScheduleDefinition) : GoalRequest :=
  match schedule.metadata.getJson "goal" with
  | .obj config =>
    let mode := (strip (cfg.pyStr ((Dict.getJson config "mode").orElse (.str "")))).toLower
    if mode = "continue" then
      .continue (strip (cfg.pyStr (((Dict.getJson config "goal_id").orElse
        (schedule.metadata.getJson "last_goal_id")).orElse (.str ""))))
    else if mode = "create" then .create config
    else .none
  | _ => .none

/-- `_resolve_schedule_goal`. -/
def resolveScheduleGoal (cfg : SchedulerConfig) (schedule : ScheduleDefinition)
    (fireAt : Option Time) (now : Time) : Scheduling (Option GoalDefinition) :=
  match goalRequest cfg schedule with
  | .none => return none
  | request =>
    if !cfg.goalRepo then
      raiseScheduling .runtimeError "Schedule goal metadata requires a configured goal repository"
    else
      match request with
      | .none => return none
      | .continue goalId =>
        if goalId = "" then
          raiseScheduling .valueError
            s!"Schedule '{schedule.id}' is configured to continue a goal but no goal_id is set"
        else do
          match ← onSchedules (.getGoal goalId) with
          | none =>
            raiseScheduling .valueError
              s!"Goal '{goalId}' configured for schedule '{schedule.id}' was not found"
          | some goal => return some goal
      | .create config => do
        let id ← onRuntime uuid4
        let createdAt ← onRuntime utcNow
        let updatedAt ← onRuntime utcNow
        let goal ← ofExcept
          (goalOfConfig cfg schedule config fireAt now (toString id) createdAt updatedAt)
        return some goal

/-- `_link_execution_to_goal`. -/
def linkExecutionToGoal (goal : GoalDefinition) (executionId : Uuid) : Scheduling Unit :=
  if executionId ∈ goal.executionIds then return ()
  else do
    let now ← onRuntime utcNow
    onSchedules (.saveGoal { goal with
      executionIds := goal.executionIds ++ [executionId]
      updatedAt := now })

/-- `_maybe_wake_goal_supervisor`. -/
def maybeWakeGoalSupervisor (cfg : SchedulerConfig) (schedule : ScheduleDefinition)
    (goalId : Option String) : Scheduling Unit :=
  match goalId.filter (· ≠ "") with
  | none => return ()
  | some goalId =>
    if !cfg.goalSupervisorWaker then return ()
    else
      let supervisor := schedule.metadata.getJson "goal_supervisor"
      let wakes := fun key => ((supervisor.get? key).getD .null).isTrue
      if !wakes "wake_on_event" && !wakes "wake_on_fire" then return ()
      else do
        let woken ← onSchedules (.wakeGoalSupervisor goalId)
        ofExcept woken

/-! ### Firing -/

/-- What is passed on to the execution of a fire: who fired it, for which instant, and by
which event. -/
structure Fire where
  source : String := "manual"
  scheduledFireAt : Option Time := none
  eventPayload : Option Json := none

/-- The trigger of a fire. -/
def Fire.trigger (fire : Fire) (schedule : ScheduleDefinition) (goalId : Option String) : Json :=
  let physicalAction := match schedule.metadata.getJson "physical_action" with
    | .obj action => [("physical_action", obj [
        ("device_id", Dict.getJson action "device_id"),
        ("command_type", Dict.getJson action "command_type"),
        ("status_tracking", .bool true)])]
    | _ => []
  .obj ([("type", .str "schedule"), ("created_by", .str "scheduler"),
      ("source", .str fire.source), ("schedule_id", .str schedule.id),
      ("schedule_trigger_type", .str schedule.triggerType.value)] ++ physicalAction ++
    (fire.scheduledFireAt.map fun t => ("scheduled_fire_at", str (isoformat t))).toList ++
    (fire.eventPayload.map fun payload => ("event", payload)).toList ++
    (goalId.map fun id => ("goal_id", str id)).toList)

/-- The execution was created by the schedule.  No execution has a `schedule_id` outside of its
trigger. -/
def isOfSchedule (scheduleId : String) (e : Execution) : Bool :=
  e.metadata.trigger.string? "schedule_id" = some scheduleId

/-- `_assert_concurrency`. -/
def assertConcurrency (schedule : ScheduleDefinition) : Scheduling Unit := do
  let active ← onRuntime (query (.listExecutions ExecutionStatus.isActive))
  if schedule.maxConcurrentExecutions ≤ ((active.filter (isOfSchedule schedule.id)).length : ℤ) then
    raiseScheduling .scheduleConcurrency
      (s!"Schedule '{schedule.id}' has reached " ++
        s!"max_concurrent_executions={schedule.maxConcurrentExecutions}")

/-- The `try` block of `trigger_now`. -/
def createFireExecution (cfg : SchedulerConfig) (schedule : ScheduleDefinition) (fire : Fire)
    (goal : Option GoalDefinition) : Scheduling Execution := do
  let goalId := (goal.map (·.id)).filter (· ≠ "")
  let input := match goalId with
    | none => schedule.inputTemplate
    | some id => schedule.inputTemplate.setdefault "goal_id" (some (.str id))
  assertConcurrency schedule
  let execution ← onRuntime (createExecution cfg.registry schedule.workflowId
    { arguments := .obj input } (fire.trigger schedule goalId) schedule.runtimeAdapterOverride
    (goal.map (·.id)))
  match goal with
  | none => pure ()
  | some goal => linkExecutionToGoal goal execution.id
  if cfg.executionStarter then
    let _ ← onRuntime (queueStart execution.id)
  return execution

/-- The `except` clauses of `trigger_now`: the claim is given back, and a schedule without
its workflow is disabled. -/
def releaseFire (cfg : SchedulerConfig) (schedule : ScheduleDefinition) (fire : Fire)
    (e : RuntimeException) : Scheduling Execution := do
  markFire cfg schedule.id none fire.scheduledFireAt
  if e.cls = .workflowNotFound then
    let _ ← disableSchedule schedule.id
  throw e

/-- `_schedule_metadata_after_fire`. -/
def metadataAfterFire (schedule : ScheduleDefinition) (executionId : Uuid)
    (goalId : Option String) : Dict Json :=
  let metadata := schedule.metadata.set "last_execution_id" (.str (toString executionId))
  match goalId.filter (· ≠ "") with
  | none => metadata
  | some id => metadata.set "last_goal_id" (.str id)

structure ScheduledJobResult where
  schedule : ScheduleDefinition
  executionId : Uuid
  triggeredAt : Time
  source : String
  goalId : Option String

/-- The end of `trigger_now`: the claim is marked fired, then the schedule moves on to its
next fire. -/
def completeFire (cfg : SchedulerConfig) (schedule : ScheduleDefinition) (fire : Fire)
    (now : Time) (executionId : Uuid) (goalId : Option String) :
    Scheduling ScheduledJobResult := do
  markFire cfg schedule.id (some executionId) fire.scheduledFireAt
  let metadata := metadataAfterFire schedule executionId goalId
  let fired ← validateSchedule { schedule.toScheduleFields with
    lastFireAt := some now
    metadata := metadata }
  let next ← nextFire cfg fired.toScheduleFields now
  let _ ← updateSchedule schedule.id {
    lastFireAt := some (some ↑now)
    metadata := some metadata
    nextFireAt := some next.nextFireAt }
  maybeWakeGoalSupervisor cfg schedule goalId
  let stored ← onSchedules (.getSchedule schedule.id)
  return {
    schedule := stored.getD schedule
    executionId := executionId
    triggeredAt := now
    source := fire.source
    goalId := goalId }

/-- `trigger_now`. -/
def triggerNow (cfg : SchedulerConfig) (scheduleId : String) (fire : Fire) :
    Scheduling ScheduledJobResult := do
  match ← onSchedules (.getSchedule scheduleId) with
  | none => raiseScheduling .valueError s!"Schedule '{scheduleId}' not found"
  | some schedule =>
    let now ← onRuntime utcNow
    let goal ← resolveScheduleGoal cfg schedule fire.scheduledFireAt now
    let execution ← (createFireExecution cfg schedule fire goal).rescue
      (releaseFire cfg schedule fire)
    completeFire cfg schedule fire now execution.id (goal.map (·.id))

/-! ### Events -/

/-- `_value_at_path`. -/
def valueAtPath (payload : Json) (path : String) : Json :=
  (path.splitOn ".").foldl (fun current part => (current.get? part).getD .null) payload

/-- `_normalized_event_types`. -/
def normalizedEventTypes (cfg : SchedulerConfig) : Json → List String
  | .str s => [strip s].filter (· ≠ "")
  | .arr items => (items.map fun item => strip (cfg.pyStr item)).filter (· ≠ "")
  | _ => []

/-- `_schedule_matches_event`. -/
def scheduleMatchesEvent (cfg : SchedulerConfig) (schedule : ScheduleDefinition)
    (eventType : String) (payload : Json) : Bool :=
  let config := schedule.triggerConfig
  let configured := match config.getJson "event_types" with
    | .null => config.getJson "event_type"
    | types => types
  let allowed := normalizedEventTypes cfg configured
  (allowed.isEmpty || allowed.contains eventType) &&
    match config.getJson "payload_matches" with
    | .obj expected => expected.all fun (key, value) => eq (valueAtPath payload key) value
    | _ => true

/-- One turn of a loop that fires schedules: an exception of the fire ends that fire only. -/
def fireIsolated (cfg : SchedulerConfig) (scheduleId : String) (fire : Fire) :
    Scheduling (List ScheduledJobResult) := do
  match ← (triggerNow cfg scheduleId fire).attempt with
  | .ok result => return [result]
  | .error _ => return []

/-- `dispatch_event`. -/
def dispatchEvent (cfg : SchedulerConfig) (eventType : String) (payload : Json)
    (source : String := "event") : Scheduling (List ScheduledJobResult) := do
  let eventType := strip eventType
  if eventType = "" then raiseScheduling .valueError "event_type is required"
  let now ← onRuntime utcNow
  let event : Json := .obj [("event_type", .str eventType), ("payload", payload),
    ("received_at", .str (isoformat now))]
  let schedules ← onSchedules (.listSchedules cfg.repository)
  collect (fun schedule : ScheduleDefinition =>
    if schedule.enabled && schedule.triggerType = .eventMatch &&
        scheduleMatchesEvent cfg schedule eventType payload then
      fireIsolated cfg schedule.id { source := source, eventPayload := some event }
    else return []) schedules

/-! ### The pass over due schedules -/

/-- One turn of `run_due_schedules`. -/
def runDueSchedule (cfg : SchedulerConfig) (now : Time) (schedule : ScheduleDefinition) :
    Scheduling (List ScheduledJobResult) := do
  -- outside of the `try`: what is raised here ends the pass
  let computation ← nextFire cfg schedule.toScheduleFields now
  if !computation.ready then return []
  let fireAt := (schedule.nextFireAt.map (·.ensureUtc)).getD now
  if !(← acquireFireClaim cfg schedule.id fireAt) then return []
  fireIsolated cfg schedule.id { source := "scheduler", scheduledFireAt := some fireAt }

/-- `run_due_schedules`. -/
def runDueSchedules (cfg : SchedulerConfig) : Scheduling (List ScheduledJobResult) := do
  let now ← onRuntime utcNow
  let schedules ← onSchedules (.listSchedules cfg.repository)
  collect (runDueSchedule cfg now) schedules

end OpenAgency
