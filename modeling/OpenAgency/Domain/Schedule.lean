/-
Domain/Schedule.lean

Schedules, the patches an operator may apply to them and the claims a scheduler takes
before it fires one.

A `ScheduleDefinition` carries the proof that its configuration passed validation, so
every stored schedule of the cron or interval type has a trigger configuration under
the key its type needs.  What stands under that key may be any JSON value.
-/
import OpenAgency.Domain.Basic

namespace OpenAgency

inductive ScheduleType where
  | manual
  | cron
  | interval
  | webhook
  | fileCreated
  | emailReceived
  | databasePoll
  | eventMatch
  deriving DecidableEq

def ScheduleType.value : ScheduleType → String
  | manual => "manual"
  | cron => "cron"
  | interval => "interval"
  | webhook => "webhook"
  | fileCreated => "file_created"
  | emailReceived => "email_received"
  | databasePoll => "database_poll"
  | eventMatch => "event_match"

/-! ### Schedules -/

/-- A `datetime` as a schedule holds it: an instant, or one without a zone that
`ensure_utc` reads as this instant.  Both repositories give back what they were given. -/
structure Datetime where
  ensureUtc : Time
  naive : Bool := false
  deriving DecidableEq

instance : Coe Time Datetime := ⟨fun t => { ensureUtc := t }⟩

structure ScheduleFields where
  id : String
  name : String
  workflowId : String
  enabled : Bool := true
  triggerType : ScheduleType := .manual
  triggerConfig : Dict Json := []
  inputTemplate : Dict Json := []
  runtimeAdapterOverride : Option String := none
  maxConcurrentExecutions : ℤ := 1
  timezone : String := "UTC"
  nextFireAt : Option Datetime := none
  lastFireAt : Option Datetime := none
  metadata : Dict Json := []

namespace ScheduleFields

/-- What `validate_schedule_configuration` objects to. -/
def problem (f : ScheduleFields) : Option String :=
  if f.triggerType = .cron ∧ (f.triggerConfig.getJson "cron").isNull then
    some "Cron schedules require trigger_config.cron"
  else if f.triggerType = .interval ∧ (f.triggerConfig.getJson "interval_seconds").isNull then
    some "Interval schedules require trigger_config.interval_seconds"
  else if f.maxConcurrentExecutions < 1 then some "max_concurrent_executions must be at least 1"
  else none

/-- What is validated does not depend on when a schedule fired or fires, on its metadata or
on whether it is enabled. -/
theorem problem_congr {f g : ScheduleFields} (htype : f.triggerType = g.triggerType)
    (hconfig : f.triggerConfig = g.triggerConfig)
    (hmax : f.maxConcurrentExecutions = g.maxConcurrentExecutions) : f.problem = g.problem := by
  simp only [problem, htype, hconfig, hmax]

end ScheduleFields

/-- A schedule whose configuration passed validation. -/
structure ScheduleDefinition extends ScheduleFields where
  valid : toScheduleFields.problem = none

namespace ScheduleDefinition

/-- `model_validate`. -/
def validate (f : ScheduleFields) : Except RuntimeException ScheduleDefinition :=
  if h : f.problem = none then .ok ⟨f, h⟩
  else .error ⟨.validationError, f.problem.getD ""⟩

@[simp] theorem validate_self (d : ScheduleDefinition) : validate d.toScheduleFields = .ok d := by
  rw [validate, dif_pos d.valid]

theorem toScheduleFields_of_validate {f : ScheduleFields} {d : ScheduleDefinition}
    (h : validate f = .ok d) : d.toScheduleFields = f := by
  unfold validate at h
  split at h
  · cases h
    rfl
  · cases h

end ScheduleDefinition

/-! ### Patches -/

/-- The keys of a patch; `next_fire_at` and its like may be set to `None`.  An outdated
`schedule_type`, `cron`, `interval_seconds`, `input_payload`, `runtime_adapter_id` or `next_run_at`
key is normalised when the merged values are validated: `cron` and `interval_seconds` only fill
in a missing configuration, the others are dropped. -/
structure SchedulePatch where
  name : Option String := none
  workflowId : Option String := none
  enabled : Option Bool := none
  triggerType : Option ScheduleType := none
  scheduleType : Option ScheduleType := none
  triggerConfig : Option (Dict Json) := none
  cron : Option Json := none
  intervalSeconds : Option Json := none
  inputTemplate : Option (Dict Json) := none
  runtimeAdapterOverride : Option (Option String) := none
  maxConcurrentExecutions : Option ℤ := none
  timezone : Option String := none
  nextFireAt : Option (Option Datetime) := none
  lastFireAt : Option (Option Datetime) := none
  metadata : Option (Dict Json) := none
  inputPayload : Option (Dict Json) := none
  runtimeAdapterId : Option (Option String) := none
  nextRunAt : Option (Option Datetime) := none

namespace SchedulePatch

/-- `{**current.model_dump(), **patch}`, normalised. -/
def merge (f : ScheduleFields) (p : SchedulePatch) : ScheduleFields where
  id := f.id
  name := p.name.getD f.name
  workflowId := p.workflowId.getD f.workflowId
  enabled := p.enabled.getD f.enabled
  triggerType := p.triggerType.getD f.triggerType
  triggerConfig := ((p.triggerConfig.getD f.triggerConfig).setdefault "cron" p.cron).setdefault
    "interval_seconds" p.intervalSeconds
  inputTemplate := p.inputTemplate.getD f.inputTemplate
  runtimeAdapterOverride := p.runtimeAdapterOverride.getD f.runtimeAdapterOverride
  maxConcurrentExecutions := p.maxConcurrentExecutions.getD f.maxConcurrentExecutions
  timezone := p.timezone.getD f.timezone
  nextFireAt := p.nextFireAt.getD f.nextFireAt
  lastFireAt := p.lastFireAt.getD f.lastFireAt
  metadata := p.metadata.getD f.metadata

/-- A key of the patch reschedules. -/
def reschedules (p : SchedulePatch) : Bool :=
  p.enabled.isSome || p.triggerType.isSome || p.scheduleType.isSome || p.triggerConfig.isSome ||
    p.cron.isSome || p.intervalSeconds.isSome || p.timezone.isSome

end SchedulePatch

/-! ### Fire claims -/

inductive FireClaimStatus where
  | claimed
  | fired
  | failed
  deriving DecidableEq

/-- A row of `schedule_fire_claims`; its key is the schedule and the instant it fires for. -/
structure ScheduleFireClaim where
  id : Uuid
  scheduleId : String
  scheduledFireAt : Time
  claimedBy : String
  leaseExpiresAt : Time
  status : FireClaimStatus := .claimed
  executionId : Option Uuid := none
  deriving DecidableEq

/-- The unique columns. -/
def ScheduleFireClaim.key (c : ScheduleFireClaim) : String × Time := (c.scheduleId, c.scheduledFireAt)

end OpenAgency
