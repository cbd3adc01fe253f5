/-
Schedules.lean

The repositories of schedules and goals.  Both schedule repositories keep the claims a
scheduler takes on a fire.  In the SQL repository a claim is an `INSERT` that the unique
pair of schedule and instant may refuse, then one conditional `UPDATE`; marking a claim
is another.  The in-memory repository does each in one piece, and marks a claim whatever
its status is.

Every operation of a scheduler, on these repositories as on the runtime, may fail.
-/
import OpenAgency.Domain.Goal
import OpenAgency.Domain.Schedule
import OpenAgency.Lib.Catalog
import OpenAgency.Lib.Faults
import OpenAgency.Replacement

namespace OpenAgency

open Relational Interaction

/-- The repository behind a scheduler. -/
inductive ScheduleRepository where
  | sql
  | inMemory
  deriving DecidableEq

structure ScheduleStore where
  schedules : Catalog (fun d : ScheduleDefinition => d.id) := .empty
  claims : Table ScheduleFireClaim.key := .empty
  goals : Table (fun g : GoalDefinition => g.id) := .empty
  /-- How often the goal supervisor has been woken. -/
  wakes : ℕ := 0

namespace ScheduleFireClaim

/-- The condition of the conditional update that takes a claim over. -/
def isExpired (c : ScheduleFireClaim) (now : Time) : Bool :=
  c.status ≠ .fired && c.leaseExpiresAt ≤ now

/-- The claim after another scheduler has taken it over. -/
def takenOver (c : ScheduleFireClaim) (claimedBy : String) (leaseExpiresAt : Time) :
    ScheduleFireClaim :=
  { c with
    claimedBy := claimedBy
    leaseExpiresAt := leaseExpiresAt
    status := .claimed
    executionId := none }

/-- The condition under which `claimedBy` may mark the claim. -/
def isMarkableBy (c : ScheduleFireClaim) (repository : ScheduleRepository) (claimedBy : String) :
    Bool :=
  c.claimedBy = claimedBy && (repository = .inMemory || c.status = .claimed)

/-- The claim marked fired by an execution, or failed. -/
def marked (c : ScheduleFireClaim) (executionId : Option Uuid) (now : Time) : ScheduleFireClaim :=
  { c with
    status := if executionId.isSome then .fired else .failed
    executionId := executionId <|> c.executionId
    leaseExpiresAt := now }

@[simp] theorem key_takenOver (c : ScheduleFireClaim) (claimedBy : String) (lease : Time) :
    (c.takenOver claimedBy lease).key = c.key := rfl

@[simp] theorem key_marked (c : ScheduleFireClaim) (executionId : Option Uuid) (now : Time) :
    (c.marked executionId now).key = c.key := rfl

end ScheduleFireClaim

/-! ### Operations -/

inductive ScheduleOp where
  | listSchedules (repository : ScheduleRepository)
  | getSchedule (id : String)
  | createSchedule (repository : ScheduleRepository) (d : ScheduleDefinition)
  | saveSchedule (d : ScheduleDefinition)
  | insertFireClaim (c : ScheduleFireClaim)
  | takeOverFireClaim (scheduleId : String) (fireAt : Time) (claimedBy : String)
      (now leaseExpiresAt : Time)
  | acquireFireClaim (c : ScheduleFireClaim) (now : Time)
  | markFireClaim (repository : ScheduleRepository) (scheduleId : String) (fireAt : Time)
      (claimedBy : String) (executionId : Option Uuid) (now : Time)
  | getGoal (id : String)
  | saveGoal (goal : GoalDefinition)
  | wakeGoalSupervisor (goalId : String)

namespace ScheduleOp

abbrev Ret : ScheduleOp → Type
  | listSchedules _ => List ScheduleDefinition
  | getSchedule _ => Option ScheduleDefinition
  | createSchedule _ _ => Except RuntimeException Unit
  | saveSchedule _ => Unit
  | insertFireClaim _ => Bool
  | takeOverFireClaim _ _ _ _ _ => Bool
  | acquireFireClaim _ _ => Bool
  | markFireClaim _ _ _ _ _ _ => Unit
  | getGoal _ => Option GoalDefinition
  | saveGoal _ => Unit
  | wakeGoalSupervisor _ => Except RuntimeException Unit

/-- The operations that write a repository. -/
def isWrite : ScheduleOp → Bool
  | createSchedule _ _ | saveSchedule _ | insertFireClaim _ | takeOverFireClaim _ _ _ _ _
  | acquireFireClaim _ _ | markFireClaim _ _ _ _ _ _ | saveGoal _ => true
  | _ => false

/-- What an operation does; waking the goal supervisor does what `wake` says. -/
def exec (wake : ℕ → Except RuntimeException Unit) :
    (o : ScheduleOp) → ScheduleStore → o.Ret × ScheduleStore
  | listSchedules .sql, s => (s.schedules.items.insertionSort (·.id ≤ ·.id), s)
  | listSchedules .inMemory, s => (s.schedules.items, s)
  | getSchedule id, s => (s.schedules.get id, s)
  | createSchedule repository d, s =>
    if repository = .sql ∧ (s.schedules.get d.id).isSome then
      (.error ⟨.integrityError, "UNIQUE constraint failed: schedules.id"⟩, s)
    else (.ok (), { s with schedules := s.schedules.put d })
  | saveSchedule d, s => ((), { s with schedules := s.schedules.put d })
  | insertFireClaim c, s =>
    if (s.claims.get c.key).isSome then (false, s)
    else (true, { s with claims := s.claims.save c })
  | takeOverFireClaim scheduleId fireAt claimedBy now leaseExpiresAt, s =>
    let u := s.claims.updateIf (scheduleId, fireAt) (·.isExpired now)
      (·.takenOver claimedBy leaseExpiresAt)
    (u.1 = 1, { s with claims := u.2 })
  | acquireFireClaim c now, s =>
    let held := (s.claims.get c.key).any fun old =>
      old.status = .fired || (old.status = .claimed && now < old.leaseExpiresAt)
    if held then (false, s) else (true, { s with claims := s.claims.save c })
  | markFireClaim repository scheduleId fireAt claimedBy executionId now, s =>
    let u := s.claims.updateIf (scheduleId, fireAt) (·.isMarkableBy repository claimedBy)
      (·.marked executionId now)
    ((), { s with claims := u.2 })
  | getGoal id, s => (s.goals.get id, s)
  | saveGoal goal, s => ((), { s with goals := s.goals.save goal })
  | wakeGoalSupervisor _, s => (wake s.wakes, { s with wakes := s.wakes + 1 })

end ScheduleOp

abbrev ScheduleSig : Signature := ⟨ScheduleOp, ScheduleOp.Ret⟩

/-- What performing an operation answers and does. -/
def scheduleHandler (wake : ℕ → Except RuntimeException Unit) : Handler ScheduleSig ScheduleStore :=
  fun o s => o.exec wake s

/-! ### The scheduler's coroutines -/

/-- The operations of a scheduler when none fails. -/
abbrev SchedulerOps : Signature := RuntimeSig.sum ScheduleSig

abbrev SchedulerSig : Signature := SchedulerOps.fallible RuntimeException

/-- A coroutine of a scheduler. -/
abbrev Scheduling (α : Type) := Program SchedulerSig RuntimeException α

/-- The runtime and the schedule repositories. -/
abbrev SchedulerState := World × ScheduleStore

/-- What happens when no operation fails. -/
abbrev schedulerOpsHandler (env : Environment) (wake : ℕ → Except RuntimeException Unit) :
    Handler SchedulerOps SchedulerState := (handler env).sum (scheduleHandler wake)

/-- A coroutine of the runtime. -/
def onRuntime {α : Type} (p : Coroutine α) : Scheduling α :=
  (Program.inl p : Program SchedulerOps RuntimeException α).fallibly

/-- One operation on the repositories. -/
def onSchedules (o : ScheduleOp) : Scheduling o.Ret :=
  (Program.performRight (S := RuntimeSig) (T := ScheduleSig) o).fallibly

end OpenAgency
