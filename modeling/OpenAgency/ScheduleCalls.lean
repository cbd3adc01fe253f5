/-
ScheduleCalls.lean

The calls on a scheduler and the states that sequences of them reach.  Creating and
changing schedules follows the protocol of a fire as firing them does.  In every state
reached, also by calls that were stopped at one of their writes, no execution has an
identifier that is still to be drawn, and the lease of a failed claim is over.
-/
import OpenAgency.FireOwnership
import OpenAgency.ScheduleLoop

namespace OpenAgency

open Relational Interaction
open Program (follows_bind follows_done)

/-! ### Calls -/

/-- The calls that fire schedules. -/
inductive TriggerCall where
  | manual (cfg : SchedulerConfig) (scheduleId source : String) (eventPayload : Option Json)
  | due (cfg : SchedulerConfig)
  | event (cfg : SchedulerConfig) (eventType : String) (payload : Json) (source : String)

namespace TriggerCall

def config : TriggerCall → SchedulerConfig
  | manual cfg _ _ _ | due cfg | event cfg _ _ _ => cfg

def code : TriggerCall → Scheduling (List ScheduledJobResult)
  | manual cfg scheduleId source eventPayload => do
    let result ← triggerNow cfg scheduleId { source := source, eventPayload := eventPayload }
    return [result]
  | due cfg => runDueSchedules cfg
  | event cfg eventType payload source => dispatchEvent cfg eventType payload source

end TriggerCall

inductive ScheduleCall where
  | create (cfg : SchedulerConfig) (d : ScheduleDefinition)
  | patch (cfg : SchedulerConfig) (scheduleId : String) (patch : SchedulePatch)
  | enable (cfg : SchedulerConfig) (scheduleId : String)
  | disable (cfg : SchedulerConfig) (scheduleId : String)
  | fire (call : TriggerCall)

namespace ScheduleCall

def config : ScheduleCall → SchedulerConfig
  | create cfg _ | patch cfg _ _ | enable cfg _ | disable cfg _ => cfg
  | fire call => call.config

/-- What a call does; its result is left out. -/
def code : ScheduleCall → Scheduling Unit
  | create cfg d => do
    let _ ← createSchedule cfg d
    return ()
  | patch cfg scheduleId p => do
    let _ ← patchSchedule cfg scheduleId p
    return ()
  | enable cfg scheduleId => do
    let _ ← enableSchedule cfg scheduleId
    return ()
  | disable _ scheduleId => do
    let _ ← disableSchedule scheduleId
    return ()
  | fire call => do
    let _ ← call.code
    return ()

end ScheduleCall

section Follows

variable {keeps : ScheduleDefinition → Prop} {cfg : SchedulerConfig} {φ : FirePhase}

/-- Calls that fire schedules follow the protocol. -/
theorem fires_triggerCall (hkeeps : FiringKeeps keeps) (call : TriggerCall) :
    Fires (fun _ => True) keeps call.config (fun _ _ => True) (fun _ _ => True) call.code {} := by
  cases call with
  | manual cfg scheduleId source eventPayload =>
    have hholds : FirePhase.Holds {} scheduleId none := rfl
    have hunwritten : FirePhase.Unwritten {} := fun hl => nomatch hl
    apply follows_bind
    refine (fires_triggerNow hkeeps trivial hholds hunwritten).mono ?_ fun _ _ _ => trivial
    exact fun _ _ _ => follows_done trivial
  | due cfg => exact fires_runDueSchedules hkeeps fun _ => trivial
  | event cfg eventType payload source =>
    have hlease : FirePhase.lease {} = none := rfl
    exact fires_dispatchEvent hkeeps (fun _ => trivial) hlease

/-- Nothing that depends on the phase or on the schedule is done. -/
abbrev FiresFreely (cfg : SchedulerConfig) {α : Type} (p : Scheduling α) (φ : FirePhase) : Prop :=
  Fires (fun _ => True) (fun _ => True) cfg (fun _ _ => True) (fun _ _ => True) p φ

theorem firesFreely_updateSchedule (scheduleId : String) (patch : SchedulePatch) :
    FiresFreely cfg (updateSchedule scheduleId patch) φ :=
  (fires_updateSchedule trivial fun _ _ _ _ => trivial).mono (fun _ _ _ => trivial)
    fun _ _ _ => trivial

theorem firesFreely_createSchedule (d : ScheduleDefinition) :
    FiresFreely cfg (createSchedule cfg d) φ := by
  apply follows_bind
  apply fires_perform (o := .utcNow) trivial
  · intro now _
    apply follows_bind
    apply fires_ofExcept
    · intro computation _
      apply follows_bind
      apply fires_ofExcept
      · intro created _
        apply follows_bind
        apply fires_onSchedules (o := .createSchedule _ _) ⟨trivial, trivial⟩
        · intro stored _
          apply follows_bind
          exact fires_ofExcept stored (fun _ _ => follows_done trivial) fun _ => trivial
        · exact fun _ => trivial
      · exact fun _ => trivial
    · exact fun _ => trivial
  · exact fun _ => trivial

theorem firesFreely_reschedule (current : ScheduleDefinition) (patch : SchedulePatch) :
    FiresFreely cfg (reschedule cfg current patch) φ := by
  unfold reschedule
  split
  · exact follows_done trivial
  · apply follows_bind
    apply fires_ofExcept
    · intro candidate _
      split
      · exact follows_done trivial
      · split
        · apply follows_bind
          apply fires_perform (o := .utcNow) trivial
          · intro now _
            apply follows_bind
            exact fires_ofExcept _ (fun _ _ => follows_done trivial) fun _ => trivial
          · exact fun _ => trivial
        · exact follows_done trivial
    · exact fun _ => trivial

theorem firesFreely_patchSchedule (scheduleId : String) (patch : SchedulePatch) :
    FiresFreely cfg (patchSchedule cfg scheduleId patch) φ := by
  apply follows_bind
  apply fires_onSchedules (o := .getSchedule scheduleId) trivial
  · intro r _
    rcases r with - | current
    · exact follows_done trivial
    · apply follows_bind
      refine (firesFreely_reschedule current patch).mono ?_ fun _ _ _ => trivial
      exact fun patch _ _ => firesFreely_updateSchedule scheduleId patch
  · exact fun _ => trivial

theorem firesFreely_enableSchedule (scheduleId : String) :
    FiresFreely cfg (enableSchedule cfg scheduleId) φ := by
  apply follows_bind
  apply fires_onSchedules (o := .getSchedule scheduleId) trivial
  · intro r _
    rcases r with - | current
    · exact follows_done trivial
    · apply follows_bind
      apply fires_perform (o := .utcNow) trivial
      · intro now _
        apply follows_bind
        apply fires_ofExcept
        · exact fun _ _ => firesFreely_updateSchedule scheduleId _
        · exact fun _ => trivial
      · exact fun _ => trivial
  · exact fun _ => trivial

/-- Every call follows the protocol. -/
theorem firesFreely_scheduleCall (call : ScheduleCall) : FiresFreely call.config call.code {} := by
  have hunit : ∀ {α : Type} {p : Scheduling α} {cfg : SchedulerConfig}, FiresFreely cfg p {} →
      FiresFreely cfg (p >>= fun _ => pure ()) {} := by
    intro α p cfg hp
    apply follows_bind
    exact hp.mono (fun _ _ _ => follows_done trivial) fun _ _ _ => trivial
  cases call with
  | create cfg d => exact hunit (firesFreely_createSchedule d)
  | patch cfg scheduleId p => exact hunit (firesFreely_patchSchedule scheduleId p)
  | enable cfg scheduleId => exact hunit (firesFreely_enableSchedule scheduleId)
  | disable cfg scheduleId => exact hunit (firesFreely_updateSchedule scheduleId _)
  | fire call => exact hunit (fires_triggerCall (fun _ _ _ _ _ => trivial) call)

end Follows

/-! ### States reached -/

/-- The operations that write. -/
def SchedulerOps.isWrite : SchedulerOps.Op → Bool
  | .inl (.db o) => o.isWrite
  | .inl _ => false
  | .inr o => o.isWrite

/-- The states that calls reach from one without claims; a call may be stopped at any of its
writes. -/
inductive Reached (env : Environment) (wake : ℕ → Except RuntimeException Unit) :
    SchedulerState → Prop where
  | start {s : SchedulerState} (hvacant : UndrawnVacant env s.1) (hclaims : s.2.claims = .empty) :
      Reached env wake s
  | returned {s : SchedulerState} (h : Reached env wake s) (call : ScheduleCall) :
      Reached env wake (call.code.run (reliableHandler env wake) s).2
  | stopped {s : SchedulerState} (h : Reached env wake s) (call : ScheduleCall) (n : ℕ) :
      Reached env wake (call.code.stopAfter (reliableHandler env wake) SchedulerOps.isWrite n s)

/-- What holds of every state reached. -/
structure ScheduleRecords (env : Environment) (s : SchedulerState) : Prop where
  vacant : UndrawnVacant env s.1
  failed : ∀ key row, s.2.claims.get key = some row → row.status = .failed →
    ∃ n < s.1.clockReads, row.leaseExpiresAt ≤ env.clock n

/-- What the records have to do with a process. -/
structure ScheduleProcess (env : Environment) (s : SchedulerState) (φ : FirePhase) : Prop where
  records : ScheduleRecords env s
  owner : FireOwner env (fun _ => True) s.1 φ
  reading : ∀ t, φ.reading = some t → ∃ n < s.1.clockReads, env.clock n = t

theorem ScheduleProcess.start {env : Environment} {s : SchedulerState} (h : ScheduleRecords env s) :
    ScheduleProcess env s {} := ⟨h, .start env _ s.1, fun _ hr => nomatch hr⟩

/-! ### Steps -/

section Steps

variable {env : Environment} {wake : ℕ → Except RuntimeException Unit} {cfg : SchedulerConfig}
  {touches : String → Prop} {φ : FirePhase} {s : SchedulerState}

/-- Where nothing fails, an operation answers and has its effect. -/
theorem Outcome.reliable {ρ σ : Type} (r₀ : ρ) (s s₁ : σ) : Outcome r₀ s s₁ (.ok r₀) s₁ :=
  .inl ⟨rfl, rfl⟩

/-- A failed claim is one that was failed, or that was marked just now. -/
theorem failed_exec {o : ScheduleOp} (hallowed : φ.allowsSchedules touches (fun _ => True) cfg o)
    {key : String × Time} {row : ScheduleFireClaim}
    (hget : (o.exec wake s.2).2.claims.get key = some row) (hfailed : row.status = .failed) :
    s.2.claims.get key = some row ∨ φ.reading = some row.leaseExpiresAt := by
  have hupdate : ∀ {p : ScheduleFireClaim → Bool} {f : ScheduleFireClaim → ScheduleFireClaim}
      {k : String × Time}, (∀ old, (f old).status = .failed → φ.reading = some (f old).leaseExpiresAt) →
      (s.2.claims.updateIf k p f).2.get key = some row →
      s.2.claims.get key = some row ∨ φ.reading = some row.leaseExpiresAt := by
    intro p f k hf hget
    rcases Table.updateIf_cases s.2.claims k p f with ⟨old, -, -, hu⟩ | ⟨-, hu⟩
    · rw [hu, Table.get_save] at hget
      split at hget
      · obtain rfl := Option.some.inj hget
        exact .inr (hf old hfailed)
      · exact .inl hget
    · rw [hu] at hget
      exact .inl hget
  have hsave : ∀ {c : ScheduleFireClaim}, c.status = .claimed →
      (s.2.claims.save c).get key = some row → s.2.claims.get key = some row := by
    intro c hc hget
    rw [Table.get_save] at hget
    split at hget
    · obtain rfl := Option.some.inj hget
      cases hc.symm.trans hfailed
    · exact hget
  cases o with
  | insertFireClaim c =>
    simp only [ScheduleOp.exec] at hget
    split at hget
    · exact .inl hget
    · exact .inl (hsave hallowed.2.2 hget)
  | takeOverFireClaim scheduleId fireAt claimedBy now leaseExpiresAt =>
    exact hupdate (fun old hold => by cases hold) hget
  | acquireFireClaim c now =>
    simp only [ScheduleOp.exec] at hget
    split at hget
    · exact .inl hget
    · exact .inl (hsave hallowed.2.2.2.1 hget)
  | markFireClaim repository scheduleId fireAt claimedBy executionId now =>
    exact hupdate (fun old _ => hallowed.2.2.2.1) hget
  | createSchedule repository d =>
    simp only [ScheduleOp.exec] at hget
    split at hget <;> exact .inl hget
  | listSchedules repository => cases repository <;> exact .inl hget
  | _ => exact .inl hget

/-- What a process has read of the clock after an operation. -/
theorem reading_afterRuntime {o : RuntimeOp} {w : World} {t : Time}
    (ht : (φ.afterRuntime o (.ok (handler env o w).1)).reading = some t) :
    φ.reading = some t ∨ ∃ n < (handler env o w).2.clockReads, env.clock n = t := by
  rcases o with q | q | q | - | -
  · cases q with
    | getExecution x =>
      rcases hrow : (handler env (.db (.getExecution x)) w).1 with - | e
      · rw [hrow] at ht
        exact .inl ht
      · rw [hrow] at ht
        exact .inl ht
    | _ => exact .inl ht
  · exact .inl ht
  · exact .inl ht
  · exact .inr ⟨w.clockReads, Nat.lt_succ_self _, Option.some.inj ht⟩
  · exact .inl ht

theorem reading_afterSchedules (φ : FirePhase) (o : ScheduleOp) (r : Except RuntimeException o.Ret) :
    (φ.afterSchedules o r).reading = φ.reading := by
  cases o with
  | getSchedule id => rcases r with e | - | d <;> rfl
  | insertFireClaim c => rcases r with e | - | - <;> rfl
  | takeOverFireClaim _ _ _ _ _ => rcases r with e | - | - <;> rfl
  | acquireFireClaim _ _ => rcases r with e | - | - <;> rfl
  | _ => rcases r with e | a <;> rfl

theorem clockReads_handler (env : Environment) (o : RuntimeOp) (w : World) :
    w.clockReads ≤ (handler env o w).2.clockReads := by
  cases o with
  | utcNow => exact Nat.le_succ _
  | _ => exact le_rfl

/-- An allowed operation that does not fail keeps the records. -/
theorem ScheduleProcess.step {o : SchedulerOps.Op} (h : ScheduleProcess env s φ)
    (hallowed : (fireProtocol touches fun _ => True).allowed cfg φ o) :
    φ.expects (fun _ => True) o (reliableHandler env wake o s).1 ∧
      ScheduleProcess env (reliableHandler env wake o s).2
        (φ.next ⟨o, (reliableHandler env wake o s).1⟩) := by
  obtain ⟨⟨hvacant, hfailed⟩, howner, hreading⟩ := h
  rcases o with o | o
  · have hruntime : φ.allowsRuntime touches o := hallowed
    obtain ⟨hexpects, hstep⟩ := ownerStep_runtime hvacant howner hruntime (.reliable _ _ _)
    have hle := clockReads_handler env o s.1
    refine ⟨hexpects, ⟨hstep.vacant, fun key row hget hrow => ?_⟩, hstep.owner, fun t ht => ?_⟩
    · obtain ⟨n, hn, hlease⟩ := hfailed key row hget hrow
      exact ⟨n, lt_of_lt_of_le hn hle, hlease⟩
    · rcases reading_afterRuntime ht with hr | hr
      · obtain ⟨n, hn, hclock⟩ := hreading t hr
        exact ⟨n, lt_of_lt_of_le hn hle, hclock⟩
      · exact hr
  · have hschedules : φ.allowsSchedules touches (fun _ => True) cfg o := hallowed
    obtain ⟨hexpects, hstep⟩ := ownerStep_schedules hvacant
      (fun _ _ _ => trivial) howner (.reliable (o.exec wake s.2).1 s.2 _)
    refine ⟨hexpects, ⟨hvacant, fun key row hget hrow => ?_⟩, hstep.owner, fun t ht => ?_⟩
    · rcases failed_exec hschedules hget hrow with hold | hmarked
      · exact hfailed key row hold hrow
      · obtain ⟨n, hn, hclock⟩ := hreading _ hmarked
        exact ⟨n, hn, hclock.ge⟩
    · exact hreading t ((reading_afterSchedules φ o _).symm.trans ht)

/-- A coroutine that follows the protocol keeps the records. -/
theorem ScheduleProcess.run {α : Type} {Q : α → FirePhase → Prop}
    {E : RuntimeException → FirePhase → Prop} {p : Scheduling α} (h : ScheduleProcess env s φ)
    (hp : Fires touches (fun _ => True) cfg Q E p φ) :
    ScheduleRecords env (p.run (reliableHandler env wake) s).2 := by
  obtain ⟨hok, herror⟩ := hp.run (J := ScheduleProcess env) (fun _ _ _ h => h.step) h
  rcases hrun : p.run (reliableHandler env wake) s with ⟨e | a, s'⟩
  · obtain ⟨φ', -, hprocess⟩ := herror e s' hrun
    exact hprocess.records
  · obtain ⟨φ', -, hprocess⟩ := hok a s' hrun
    exact hprocess.records

/-- **The records hold in every state reached.** -/
theorem Reached.records (h : Reached env wake s) : ScheduleRecords env s := by
  induction h with
  | start hvacant hclaims =>
    refine ⟨hvacant, fun key row hget => ?_⟩
    rw [hclaims] at hget
    cases hget
  | returned _ call ih => exact ScheduleProcess.run (.start ih) (firesFreely_scheduleCall call)
  | stopped _ call n ih =>
    obtain ⟨φ', hprocess⟩ := (firesFreely_scheduleCall call).stopAfter
      (J := ScheduleProcess env) (fun _ _ _ h => h.step) n (.start ih)
    exact hprocess.records

end Steps

end OpenAgency
