/-
ScheduleLoop.lean

The pass over the due schedules and what one of them does to the others.  A fire is
isolated from the rest of the pass, the computation of the next fire is not: whatever it
raises ends the pass, and no schedule that comes later in the list is looked at.
-/
import OpenAgency.Lib.Trace
import OpenAgency.Scheduler

namespace OpenAgency

open Relational Interaction Program ScheduleOp

variable {env : Environment} {wake : ℕ → Except RuntimeException Unit} {cfg : SchedulerConfig}
  {s : SchedulerState}

/-- A scheduler's operations when none of them fails. -/
abbrev reliableHandler (env : Environment) (wake : ℕ → Except RuntimeException Unit) :
    Handler SchedulerSig SchedulerState := (schedulerOpsHandler env wake).reliable

/-! ### One turn -/

/-- The end of a turn: claim the fire and, if the claim is acquired, fire. -/
def claimAndFire (cfg : SchedulerConfig) (schedule : ScheduleDefinition) (fireAt : Time) :
    Scheduling (List ScheduledJobResult) := do
  if !(← acquireFireClaim cfg schedule.id fireAt) then return []
  fireIsolated cfg schedule.id { source := "scheduler", scheduledFireAt := some fireAt }

/-- The instant a due schedule is fired for. -/
def ScheduleFields.dueAt (f : ScheduleFields) (now : Time) : Time :=
  (f.nextFireAt.map (·.ensureUtc)).getD now

theorem runDueSchedule_eq {now : Time} {d : ScheduleDefinition} {c : TriggerComputation}
    (hc : computeNextFire cfg.zoneInfo d.toScheduleFields now = .ok c) :
    runDueSchedule cfg now d =
      if c.ready then claimAndFire cfg d (d.dueAt now) else Program.done [] := by
  rw [runDueSchedule, nextFire, hc]
  rcases c with ⟨next, - | -⟩ <;> rfl

theorem run_onRuntime {α : Type} (p : Coroutine α) (s : SchedulerState) :
    (onRuntime p).run (reliableHandler env wake) s
      = ((p.run (handler env) s.1).1, (p.run (handler env) s.1).2, s.2) := by
  rw [onRuntime, run_fallibly]
  exact run_inl p s

theorem run_onSchedules (o : ScheduleOp) (s : SchedulerState) :
    (onSchedules o).run (reliableHandler env wake) s
      = (.ok (o.exec wake s.2).1, s.1, (o.exec wake s.2).2) := rfl

/-- The claims after one was acquired, if it could be. -/
def acquireClaim (repository : ScheduleRepository) (claims : Table ScheduleFireClaim.key)
    (c : ScheduleFireClaim) (now : Time) : Option (Table ScheduleFireClaim.key) :=
  match claims.get c.key with
  | none => some (claims.save c)
  | some old =>
    match repository with
    | .sql =>
      if old.isExpired now then
        some (claims.save (old.takenOver c.claimedBy c.leaseExpiresAt))
      else none
    | .inMemory =>
      if old.status = .fired || (old.status = .claimed && now < old.leaseExpiresAt) then none
      else some (claims.save c)

/-- The claim a scheduler tries to acquire in a state. -/
def SchedulerConfig.newClaim (cfg : SchedulerConfig) (env : Environment) (w : World)
    (scheduleId : String) (fireAt : Time) : ScheduleFireClaim where
  id := env.uuid w.uuidsDrawn
  scheduleId := scheduleId
  scheduledFireAt := fireAt
  claimedBy := cfg.schedulerId
  leaseExpiresAt := env.clock w.clockReads + seconds cfg.claimLeaseSeconds

/-- What acquiring a claim does where no operation fails. -/
theorem run_acquireFireClaim (cfg : SchedulerConfig) (scheduleId : String) (fireAt : Time)
    (s : SchedulerState) :
    (acquireFireClaim cfg scheduleId fireAt).run (reliableHandler env wake) s =
      (let claims := acquireClaim cfg.repository s.2.claims
        (cfg.newClaim env s.1 scheduleId fireAt) (env.clock s.1.clockReads)
      (.ok claims.isSome,
        { s.1 with clockReads := s.1.clockReads + 1, uuidsDrawn := s.1.uuidsDrawn + 1 },
        { s.2 with claims := claims.getD s.2.claims })) := by
  obtain ⟨w, store⟩ := s
  have hkey : (cfg.newClaim env w scheduleId fireAt).key = (scheduleId, fireAt) := rfl
  rcases hrepository : cfg.repository with - | -
  · -- an insert, then a conditional update
    have hrun : (acquireFireClaim cfg scheduleId fireAt).run (reliableHandler env wake) (w, store)
        = ((do
            if ← onSchedules (.insertFireClaim (cfg.newClaim env w scheduleId fireAt)) then
              return true
            else
              onSchedules (.takeOverFireClaim scheduleId fireAt cfg.schedulerId
                (env.clock w.clockReads) (cfg.newClaim env w scheduleId fireAt).leaseExpiresAt)) :
            Scheduling Bool).run (reliableHandler env wake)
          ({ w with clockReads := w.clockReads + 1, uuidsDrawn := w.uuidsDrawn + 1 }, store) := by
      unfold acquireFireClaim
      simp only [hrepository]
      rfl
    rw [hrun, run_bind, run_onSchedules]
    rcases hrow : store.claims.get (scheduleId, fireAt) with - | old
    · simp only [exec, acquireClaim, hkey, hrow]
      rfl
    · have hinsert : (insertFireClaim (cfg.newClaim env w scheduleId fireAt)).exec wake
          store = (false, store) := by simp [exec, hkey, hrow]
      rw [hinsert]
      show (onSchedules (.takeOverFireClaim _ _ _ _ _)).run _ _ = _
      rw [run_onSchedules]
      rcases hexpired : old.isExpired (env.clock w.clockReads) with - | -
      · simp [exec, acquireClaim, hkey, hrow, Table.updateIf, hexpired]
      · simp [exec, acquireClaim, hkey, hrow, Table.updateIf, hexpired]
        rfl
  · have hrun : (acquireFireClaim cfg scheduleId fireAt).run (reliableHandler env wake) (w, store)
        = (onSchedules (.acquireFireClaim (cfg.newClaim env w scheduleId fireAt)
            (env.clock w.clockReads))).run (reliableHandler env wake)
          ({ w with clockReads := w.clockReads + 1, uuidsDrawn := w.uuidsDrawn + 1 }, store) := by
      unfold acquireFireClaim
      simp only [hrepository]
      rfl
    rw [hrun, run_onSchedules]
    rcases hrow : store.claims.get (scheduleId, fireAt) with - | old
    · simp [exec, acquireClaim, hkey, hrow]
    · simp only [exec, acquireClaim, hkey, hrow, Option.any_some]
      split <;> rfl

/-- A fire returns, whatever `trigger_now` raises. -/
theorem run_fireIsolated_ok (cfg : SchedulerConfig) (scheduleId : String) (fire : Fire)
    (s : SchedulerState) :
    ∃ results, ((fireIsolated cfg scheduleId fire).run (reliableHandler env wake) s).1
      = .ok results := by
  rw [fireIsolated, run_bind, run_attempt]
  rcases ((triggerNow cfg scheduleId fire).run (reliableHandler env wake) s).1 with e | result
  · exact ⟨[], rfl⟩
  · exact ⟨[result], rfl⟩

/-- Claiming and firing returns, whatever `trigger_now` raises. -/
theorem run_claimAndFire_ok (cfg : SchedulerConfig) (d : ScheduleDefinition) (fireAt : Time)
    (s : SchedulerState) :
    ∃ results, ((claimAndFire cfg d fireAt).run (reliableHandler env wake) s).1 = .ok results := by
  rw [claimAndFire, run_bind, run_acquireFireClaim]
  simp only
  rcases (acquireClaim cfg.repository s.2.claims (cfg.newClaim env s.1 d.id fireAt)
    (env.clock s.1.clockReads)) with - | claims
  · exact ⟨[], rfl⟩
  · exact run_fireIsolated_ok cfg d.id _ _

/-! ### The pass -/

/-- The schedules that a repository lists. -/
def ScheduleStore.listed (s : ScheduleStore) (repository : ScheduleRepository) :
    List ScheduleDefinition :=
  match repository with
  | .sql => s.schedules.items.insertionSort (·.id ≤ ·.id)
  | .inMemory => s.schedules.items

/-- A turn returns if the next fire can be computed. -/
theorem run_runDueSchedule_ok {now : Time} {d : ScheduleDefinition} {c : TriggerComputation}
    (hc : computeNextFire cfg.zoneInfo d.toScheduleFields now = .ok c) (s : SchedulerState) :
    ∃ results, ((runDueSchedule cfg now d).run (reliableHandler env wake) s).1 = .ok results := by
  rw [runDueSchedule_eq hc]
  split
  · exact run_claimAndFire_ok cfg d _ s
  · exact ⟨[], rfl⟩

namespace BadSchedule

/-- A range in the minutes, which the parser of this scheduler does not know. -/
def ranged : ScheduleDefinition where
  id := "a"
  name := "office hours"
  workflowId := "w"
  triggerType := .cron
  triggerConfig := [("cron", .str "0 9-17 * * *")]
  nextFireAt := some (0 : Time)
  valid := by rfl

/-- A schedule that is due at the first instant. -/
def due : ScheduleDefinition where
  id := "b"
  name := "every minute"
  workflowId := "w"
  triggerType := .interval
  triggerConfig := [("interval_seconds", .num 60)]
  nextFireAt := some (0 : Time)
  valid := by rfl

def config : SchedulerConfig where
  registry := { engine := { EngineConfig.bare with
    workflow := fun _ => some { id := "w", name := "w", entrypoint := "n" } } }
  schedulerId := "scheduler"

def state : SchedulerState := ({}, { schedules := (Catalog.empty.put ranged).put due })

end BadSchedule

open BadSchedule

end OpenAgency
