/-
ScheduleProgress.lean

What a pass over the due schedules does for one of them.  The turns of other schedules
leave its row, its claims and its executions alone.  Its own turn creates an execution
or records a failed claim, unless the pass is over before, the fire has been claimed and
marked fired already, or the goal of the schedule cannot be resolved, which `trigger_now`
does outside of the block that gives the claim back.
-/
import OpenAgency.ScheduleCalls

namespace OpenAgency

open Relational Interaction Table SchedulerOps ScheduleFireClaim ScheduleOp
open Program (run_bind_ok within_ofExcept wp_and wp_mono wp_of_done wp_of_run_ok wp_post wp_then)

variable {env : Environment} {wake : ℕ → Except RuntimeException Unit} {cfg : SchedulerConfig}
  {s s' s₀ : SchedulerState} {φ : FirePhase}

/-! ### The turns of other schedules -/

/-- What has to do with the schedule `id` is as it was in `s₀`. -/
structure LeavesSchedule (id : String) (s₀ s : SchedulerState) : Prop where
  schedule : s.2.schedules.get id = s₀.2.schedules.get id
  claims : ∀ t, s.2.claims.get (id, t) = s₀.2.claims.get (id, t)
  executions : ∀ e, isOfSchedule id e → s₀.1.db.executions.get e.id = some e →
    s.1.db.executions.get e.id = some e
  goals : ∀ g, (s₀.2.goals.get g).isSome → (s.2.goals.get g).isSome
  clockReads : s₀.1.clockReads ≤ s.1.clockReads
  uuidsDrawn : s₀.1.uuidsDrawn ≤ s.1.uuidsDrawn

namespace LeavesSchedule

variable {id : String}

theorem refl (id : String) (s : SchedulerState) : LeavesSchedule id s s :=
  ⟨rfl, fun _ => rfl, fun _ _ h => h, fun _ h => h, le_rfl, le_rfl⟩

theorem trans (h : LeavesSchedule id s₀ s) (h' : LeavesSchedule id s s') :
    LeavesSchedule id s₀ s' where
  schedule := h'.schedule.trans h.schedule
  claims t := (h'.claims t).trans (h.claims t)
  executions e hof he := h'.executions e hof (h.executions e hof he)
  goals g hg := h'.goals g (h.goals g hg)
  clockReads := h.clockReads.trans h'.clockReads
  uuidsDrawn := h.uuidsDrawn.trans h'.uuidsDrawn

end LeavesSchedule

variable {id : String}

theorem leavesSchedule_runtime {o : RuntimeOp} (h : ScheduleProcess env s φ)
    (hallowed : φ.allowsRuntime (· ≠ id) o) :
    LeavesSchedule id s ((handler env o s.1).2, s.2) := by
  by_cases hwrites : ∃ e, o = .db (.updateExecution e)
  · obtain ⟨e, rfl⟩ := hwrites
    obtain ⟨d', hne, hwrite⟩ := hallowed
    refine ⟨rfl, fun _ => rfl, fun e₁ hof he₁ => ?_, fun _ h => h, le_rfl, le_rfl⟩
    have hid : e₁.id ≠ e.id := by
      intro hid
      rcases hwrite.2 with ⟨hdrawn, -⟩ | hlinked
      · -- the row of a new execution was empty
        have hnone := h.owner.vacant d' e.id hdrawn
        rw [← hid, he₁] at hnone
        cases hnone
      · rw [hid] at he₁
        have htriggers := h.owner.triggers d' e.id e₁ (.inr hlinked) he₁
        exact hne (isOfSchedule_unique htriggers.ofSchedule hof)
    exact (get_save_ne hid).trans he₁
  · have ht : Ticks s.1 (handler env o s.1).2 := ticks_handler fun e he => hwrites ⟨e, he⟩
    refine ⟨rfl, fun _ => rfl, fun e₁ _ he₁ => ?_, fun _ h => h, ht.clockReads, ht.uuidsDrawn⟩
    show (handler env o s.1).2.db.executions.get e₁.id = some e₁
    rw [ht.executions]
    exact he₁

variable {o : ScheduleOp}

theorem leavesSchedule_schedules (s : SchedulerState)
    (hallowed : φ.allowsSchedules (· ≠ id) (fun _ => True) cfg o) :
    LeavesSchedule id s (s.1, (o.exec wake s.2).2) := by
  -- a row of another schedule, a claim of another schedule, a goal
  have hput : ∀ {d : ScheduleDefinition}, d.id ≠ id →
      LeavesSchedule id s (s.1, { s.2 with schedules := s.2.schedules.put d }) := fun hne =>
    ⟨Catalog.get_put_ne hne.symm, fun _ => rfl, fun _ _ h => h, fun _ h => h, le_rfl, le_rfl⟩
  have hclaims : ∀ {claims : Table key}, (∀ t, claims.get (id, t) = s.2.claims.get (id, t)) →
      LeavesSchedule id s (s.1, { s.2 with claims := claims }) := fun h =>
    ⟨rfl, h, fun _ _ h => h, fun _ h => h, le_rfl, le_rfl⟩
  have hsave : ∀ {c : ScheduleFireClaim}, c.scheduleId ≠ id →
      LeavesSchedule id s (s.1, { s.2 with claims := s.2.claims.save c }) := fun hne =>
    hclaims fun t => get_save_ne fun hkey => hne (congrArg Prod.fst hkey).symm
  have hupdate : ∀ {scheduleId : String} {fireAt : Time} {p : ScheduleFireClaim → Bool}
      {f : ScheduleFireClaim → ScheduleFireClaim}, scheduleId ≠ id → (∀ c, (f c).key = c.key) →
      LeavesSchedule id s
        (s.1, { s.2 with claims := (s.2.claims.updateIf (scheduleId, fireAt) p f).2 }) := by
    intro scheduleId fireAt p f hne hkey
    apply hclaims
    intro t
    rcases updateIf_cases s.2.claims (scheduleId, fireAt) p f with
      ⟨old, hold, -, hu⟩ | ⟨-, hu⟩
    · rw [hu]
      apply get_save_ne
      rw [hkey, key_of_get hold]
      exact fun h => hne (congrArg Prod.fst h).symm
    · rw [hu]
  cases o with
  | createSchedule repository d =>
    simp only [exec]
    split
    · exact .refl id s
    · exact hput hallowed.1
  | saveSchedule d => exact hput hallowed.1
  | insertFireClaim c =>
    simp only [exec]
    split
    · exact .refl id s
    · exact hsave hallowed.1
  | takeOverFireClaim scheduleId fireAt claimedBy now leaseExpiresAt =>
    exact hupdate hallowed.1 fun c => c.key_takenOver _ _
  | acquireFireClaim c now =>
    simp only [exec]
    split
    · exact .refl id s
    · exact hsave hallowed.2.1
  | markFireClaim repository scheduleId fireAt claimedBy executionId now =>
    exact hupdate hallowed.2.1 fun c => c.key_marked _ _
  | saveGoal goal =>
    refine ⟨rfl, fun _ => rfl, fun _ _ h => h, fun g hg => ?_, le_rfl, le_rfl⟩
    show ((s.2.goals.save goal).get g).isSome
    rw [get_save]
    split
    · rfl
    · exact hg
  | listSchedules repository => cases repository <;> exact .refl id s
  | _ => exact ⟨rfl, fun _ => rfl, fun _ _ h => h, fun _ h => h, le_rfl, le_rfl⟩

variable {α : Type}

variable {p : Scheduling α}

/-- A coroutine that is for other schedules leaves this one alone. -/
theorem Fires.leavesSchedule {Q : α → FirePhase → Prop} {E : RuntimeException → FirePhase → Prop}
    (hp : Fires (· ≠ id) (fun _ => True) cfg Q E p {}) (h : ScheduleRecords env s) :
    ScheduleRecords env (p.run (reliableHandler env wake) s).2 ∧
      LeavesSchedule id s (p.run (reliableHandler env wake) s).2 := by
  have hstep : ∀ o s₁ φ₁, ScheduleProcess env s₁ φ₁ ∧ LeavesSchedule id s s₁ →
      (fireProtocol (· ≠ id) fun _ => True).allowed cfg φ₁ o →
      FirePhase.expects (fun _ => True) φ₁ o (reliableHandler env wake o s₁).1 ∧
        (ScheduleProcess env (reliableHandler env wake o s₁).2
          (φ₁.next ⟨o, (reliableHandler env wake o s₁).1⟩) ∧
        LeavesSchedule id s (reliableHandler env wake o s₁).2) := by
    rintro o s₁ φ₁ ⟨hprocess, hleaves⟩ hallowed
    have hstep : φ₁.expects (fun _ => True) o (reliableHandler env wake o s₁).1 ∧
        ScheduleProcess env (reliableHandler env wake o s₁).2
          (φ₁.next ⟨o, (reliableHandler env wake o s₁).1⟩) := hprocess.step hallowed
    refine ⟨hstep.1, hstep.2, hleaves.trans ?_⟩
    rcases o with o | o
    · exact leavesSchedule_runtime hprocess hallowed
    · exact leavesSchedule_schedules s₁ hallowed
  obtain ⟨hok, herror⟩ := Program.Follows.run hstep hp ⟨.start h, .refl id s⟩
  rcases hrun : p.run (reliableHandler env wake) s with ⟨e | a, s'⟩
  · obtain ⟨φ', -, hprocess, hleaves⟩ := herror e s' hrun
    exact ⟨hprocess.records, hleaves⟩
  · obtain ⟨φ', -, hprocess, hleaves⟩ := hok a s' hrun
    exact ⟨hprocess.records, hleaves⟩

variable {others : List ScheduleDefinition}

/-- The turns of other schedules. -/
theorem leavesSchedule_collect {now : Time} (hothers : ∀ d ∈ others, d.id ≠ id)
    (h : ScheduleRecords env s) :
    ScheduleRecords env
        ((Program.collect (runDueSchedule cfg now) others).run (reliableHandler env wake) s).2 ∧
      LeavesSchedule id s
        ((Program.collect (runDueSchedule cfg now) others).run (reliableHandler env wake) s).2 := by
  have hfires : Fires (· ≠ id) (fun _ => True) cfg (fun _ _ => True) (fun _ _ => True)
      (Program.collect (runDueSchedule cfg now) others) {} := by
    apply Program.follows_collect (I := fun _ => True)
    · intro d hd φ _
      exact fires_runDueSchedule (fun _ _ _ _ _ => trivial) (hothers d hd)
    · trivial
  exact hfires.leavesSchedule h

/-! ### Creating the execution -/

/-- What a process that fires `d` has created: its identifiers are drawn from the `n`-th on. -/
structure Creating (env : Environment) (d : ScheduleDefinition) (n : ℕ) (s : SchedulerState)
    (φ : FirePhase) : Prop where
  process : ScheduleProcess env s φ
  drawn : n ≤ s.1.uuidsDrawn
  owned : ∀ id, φ.stage.owned = some id → ∃ m, n ≤ m ∧ env.uuid m = id
  created : φ.wrote = true → ∃ e, isOfSchedule d.id e ∧ s.1.db.executions.get e.id = some e ∧
    ∃ m, n ≤ m ∧ env.uuid m = e.id

/-- An operation on the repositories owns nothing new. -/
theorem afterSchedules_owned {r : Except RuntimeException o.Ret} :
    (∀ id, (φ.afterSchedules o r).stage.owned = some id → φ.stage.owned = some id) ∧
      ((φ.afterSchedules o r).wrote = true → φ.wrote = true) := by
  have hidle : ∀ φ' : FirePhase, φ'.stage.owned = none → (φ'.wrote = true → φ.wrote = true) →
      (∀ id, φ'.stage.owned = some id → φ.stage.owned = some id) ∧
        (φ'.wrote = true → φ.wrote = true) :=
    fun φ' hnone hwrote => ⟨fun id hid => (nomatch hnone.symm.trans hid), hwrote⟩
  cases o with
  | getSchedule scheduleId =>
    rcases r with e | - | d
    · exact ⟨fun _ h => h, fun h => h⟩
    · exact ⟨fun _ h => h, fun h => h⟩
    · exact hidle _ rfl fun h => h
  | insertFireClaim c =>
    rcases r with e | - | -
    · exact ⟨fun _ h => h, fun h => h⟩
    · exact ⟨fun _ h => h, fun h => h⟩
    · exact hidle _ rfl fun h => nomatch h
  | takeOverFireClaim scheduleId fireAt claimedBy now leaseExpiresAt =>
    rcases r with e | - | -
    · exact ⟨fun _ h => h, fun h => h⟩
    · exact ⟨fun _ h => h, fun h => h⟩
    · exact hidle _ rfl fun h => nomatch h
  | acquireFireClaim c now =>
    rcases r with e | - | -
    · exact ⟨fun _ h => h, fun h => h⟩
    · exact ⟨fun _ h => h, fun h => h⟩
    · exact hidle _ rfl fun h => nomatch h
  | markFireClaim repository scheduleId fireAt claimedBy executionId now =>
    rcases r with e | -
    · exact hidle _ rfl fun h => h
    · exact hidle _ rfl fun h => h
  | _ =>
    rcases r with e | a
    · exact ⟨fun _ h => h, fun h => h⟩
    · exact ⟨fun _ h => h, fun h => h⟩

/-- An operation of the runtime that writes no execution owns at most what was drawn. -/
theorem afterRuntime_owned {o : RuntimeOp} {w : World} (ho : ∀ e, o ≠ .db (.updateExecution e)) :
    (∀ id, (φ.afterRuntime o (.ok (handler env o w).1)).stage.owned = some id →
      φ.stage.owned = some id ∨ id = env.uuid w.uuidsDrawn) ∧
      (φ.afterRuntime o (.ok (handler env o w).1)).wrote = φ.wrote := by
  rcases o with q | q | q | - | -
  · cases q with
    | updateExecution e => exact absurd rfl (ho e)
    | getExecution x =>
      rcases hrow : (handler env (.db (.getExecution x)) w).1 with - | e
      · exact ⟨fun _ h => .inl h, rfl⟩
      · refine ⟨fun id hid => .inl ?_, rfl⟩
        have hafter : (φ.stage.afterRead x).owned = some id := hid
        rcases φ.stage.afterRead_cases x with hsame | ⟨d, hwritten, hlinked⟩
        · rw [hsame] at hafter
          exact hafter
        · rw [hlinked] at hafter
          rw [hwritten]
          exact hafter
    | listExecutions statusIn =>
      refine ⟨fun id hid => .inl ?_, rfl⟩
      have hafter : (φ.stage.afterListing
          (handler env (.db (.listExecutions statusIn)) w).1).owned = some id := hid
      rcases φ.stage.afterListing_cases (handler env (.db (.listExecutions statusIn)) w).1 with
        hsame | ⟨d, -, hchecked, -⟩
      · rw [hsame] at hafter
        exact hafter
      · exact nomatch (congrArg FireStage.owned hchecked).symm.trans hafter
    | _ => exact ⟨fun _ h => .inl h, rfl⟩
  · exact ⟨fun _ h => .inl h, rfl⟩
  · exact ⟨fun _ h => .inl h, rfl⟩
  · exact ⟨fun _ h => .inl h, rfl⟩
  · refine ⟨fun id hid => ?_, rfl⟩
    have hafter : (φ.stage.afterDraw (env.uuid w.uuidsDrawn)).owned = some id := hid
    rcases φ.stage.afterDraw_cases (env.uuid w.uuidsDrawn) with hsame | ⟨d, -, hdraw⟩
    · rw [hsame] at hafter
      exact .inl hafter
    · rw [hdraw] at hafter
      exact .inr (Option.some.inj hafter).symm

variable {d : ScheduleDefinition}

theorem Creating.step {n : ℕ} {o : SchedulerOps.Op} (h : Creating env d n s φ)
    (hallowed : (fireProtocol (· = d.id) fun _ => True).allowed cfg φ o) :
    φ.expects (fun _ => True) o (reliableHandler env wake o s).1 ∧
      Creating env d n (reliableHandler env wake o s).2
        (φ.next ⟨o, (reliableHandler env wake o s).1⟩) := by
  obtain ⟨hexpects, hprocess⟩ : φ.expects (fun _ => True) o (reliableHandler env wake o s).1 ∧
      ScheduleProcess env (reliableHandler env wake o s).2
        (φ.next ⟨o, (reliableHandler env wake o s).1⟩) := h.process.step hallowed
  refine ⟨hexpects, ?_⟩
  rcases o with o | o
  · by_cases hwrites : ∃ e, o = .db (.updateExecution e)
    · obtain ⟨e, rfl⟩ := hwrites
      obtain ⟨d', hd', hwrite⟩ := hallowed
      obtain ⟨m, hm, hu⟩ := h.owned e.id hwrite.owned
      refine ⟨hprocess, h.drawn, fun id hid => h.owned id ?_, fun _ => ⟨e, ?_, ?_, m, hm, hu⟩⟩
      · have hafter : φ.stage.afterWrite.owned = some id := hid
        rcases hwrite.afterWrite_cases with ⟨hstage, -, hwritten⟩ | ⟨-, hloaded⟩
        · rw [hwritten] at hafter
          rw [hstage]
          exact hafter
        · exact nomatch (congrArg FireStage.owned hloaded).symm.trans hafter
      · rw [← show d'.id = d.id from hd']
        exact hwrite.1.ofSchedule
      · exact get_save_self _ e
    · have hwrites : ∀ e, o ≠ .db (.updateExecution e) := fun e he => hwrites ⟨e, he⟩
      have ht : Ticks s.1 (handler env o s.1).2 := ticks_handler hwrites
      obtain ⟨howned, hwrote⟩ :
          (∀ id, (φ.afterRuntime o (.ok (handler env o s.1).1)).stage.owned = some id →
            φ.stage.owned = some id ∨ id = env.uuid s.1.uuidsDrawn) ∧
            (φ.afterRuntime o (.ok (handler env o s.1).1)).wrote = φ.wrote :=
        afterRuntime_owned hwrites
      refine ⟨hprocess, h.drawn.trans ht.uuidsDrawn, fun id hid => ?_, fun hw => ?_⟩
      · rcases howned id hid with hid | rfl
        · exact h.owned id hid
        · exact ⟨s.1.uuidsDrawn, h.drawn, rfl⟩
      · obtain ⟨e, hof, hget, hm⟩ := h.created (hwrote.symm.trans hw)
        refine ⟨e, hof, ?_, hm⟩
        show (handler env o s.1).2.db.executions.get e.id = some e
        rw [ht.executions]
        exact hget
  · obtain ⟨howned, hwrote⟩ := afterSchedules_owned (φ := φ) (o := o) (r := .ok (o.exec wake s.2).1)
    exact ⟨hprocess, h.drawn, fun id hid => h.owned id (howned id hid),
      fun hw => h.created (hwrote hw)⟩

/-- The operations that write no claim. -/
def SchedulerOps.sparesClaims : SchedulerOps.Op → Prop
  | .inr (.insertFireClaim _) | .inr (.takeOverFireClaim _ _ _ _ _) | .inr (.acquireFireClaim _ _)
  | .inr (.markFireClaim _ _ _ _ _ _) => False
  | _ => True

/-- The operations that write no execution. -/
def SchedulerOps.sparesExecutions : SchedulerOps.Op → Prop
  | .inl (.db (.updateExecution _)) => False
  | _ => True

/-- All operations of a coroutine are of a kind. -/
abbrev Spares {α : Type} (kind : SchedulerOps.Op → Prop) (p : Scheduling α) : Prop :=
  Program.Within (S := SchedulerSig) (fun _ _ => True) kind p

theorem Spares.claims (hp : Spares sparesClaims p) (s : SchedulerState) :
    (p.run (reliableHandler env wake) s).2.2.claims = s.2.claims := by
  rw [← Program.wp_state (I := fun s' : SchedulerState => s'.2.claims = s.2.claims)]
  refine hp.invariant (fun o s₁ hs₁ ho => ⟨trivial, ?_⟩) rfl
  rcases o with o | o
  · exact hs₁
  · cases o with
    | insertFireClaim c => cases ho
    | takeOverFireClaim scheduleId fireAt claimedBy now lease => cases ho
    | acquireFireClaim c now => cases ho
    | markFireClaim repository scheduleId fireAt claimedBy executionId now => cases ho
    | listSchedules repository => cases repository <;> exact hs₁
    | createSchedule repository d =>
      show (exec wake (.createSchedule repository d) s₁.2).2.claims = _
      simp only [exec]
      split <;> exact hs₁
    | _ => exact hs₁

theorem Spares.executions (hp : Spares sparesExecutions p) (s : SchedulerState) :
    (p.run (reliableHandler env wake) s).2.1.db.executions = s.1.db.executions := by
  rw [← Program.wp_state (I := fun s' : SchedulerState => s'.1.db.executions = s.1.db.executions)]
  refine hp.invariant (fun o s₁ hs₁ ho => ⟨trivial, ?_⟩) rfl
  rcases o with o | o
  · have hne : ∀ e, o ≠ .db (.updateExecution e) := by
      rintro e rfl
      exact ho
    exact (ticks_handler hne).executions.trans hs₁
  · exact hs₁

variable {kind : SchedulerOps.Op → Prop}

/-- The goal of a schedule can be resolved. -/
def GoalResolves (cfg : SchedulerConfig) (store : ScheduleStore) (d : ScheduleDefinition) : Prop :=
  match goalRequest cfg d with
  | .none => True
  | .continue goalId => cfg.goalRepo ∧ goalId ≠ "" ∧ (store.goals.get goalId).isSome
  | .create config => cfg.goalRepo ∧ ∀ fireAt now id createdAt updatedAt,
      (goalOfConfig cfg d config fireAt now id createdAt updatedAt).isOk

theorem GoalResolves.mono {store store' : ScheduleStore} (h : GoalResolves cfg store d)
    (hgoals : ∀ g, (store.goals.get g).isSome → (store'.goals.get g).isSome) :
    GoalResolves cfg store' d := by
  unfold GoalResolves at h ⊢
  rcases hgoal : goalRequest cfg d with - | config | goalId
  · trivial
  · rw [hgoal] at h
    exact h
  · rw [hgoal] at h
    exact ⟨h.1, h.2.1, hgoals goalId h.2.2⟩

variable {d : ScheduleDefinition} {fire : Fire} {fireAt now : Time} {n : ℕ}

/-- An enabled schedule of the clock that is due, and no claim on it has a lease that is
not over. -/
structure Due (env : Environment) (cfg : SchedulerConfig) (s : SchedulerState)
    (d : ScheduleDefinition) : Prop where
  stored : s.2.schedules.get d.id = some d
  enabled : d.enabled
  timed : d.triggerType = .cron ∨ d.triggerType = .interval
  ready : ∃ c, computeNextFire cfg.zoneInfo d.toScheduleFields (env.clock s.1.clockReads) = .ok c ∧
    c.ready
  unleased : ∀ t row, s.2.claims.get (d.id, t) = some row → row.status = .claimed →
    row.leaseExpiresAt ≤ env.clock s.1.clockReads

/-- The turns before: they return, and leave the schedule alone. -/
theorem wp_before (hothers : ∀ d₁ ∈ others, d₁.id ≠ d.id)
    (hcomputable : ∀ d₁ ∈ others, ∃ c, computeNextFire cfg.zoneInfo d₁.toScheduleFields now = .ok c)
    (hrecords : ScheduleRecords env s) :
    (Program.collect (runDueSchedule cfg now) others).wp (reliableHandler env wake)
      (fun _ s' => ScheduleRecords env s' ∧ LeavesSchedule d.id s s') (fun _ _ => False) s := by
  obtain ⟨results, hok⟩ : ∃ results, ((Program.collect (runDueSchedule cfg now) others).run
      (reliableHandler env wake) s).1 = .ok results := by
    apply Program.run_collect_ok
    intro d₁ hd₁ s₁
    obtain ⟨c, hc⟩ := hcomputable d₁ hd₁
    exact run_runDueSchedule_ok hc s₁
  rw [wp_of_run_ok (Prod.ext hok rfl)]
  exact leavesSchedule_collect hothers hrecords

namespace EveryMinute

theorem due : Due .silent (config "first") state schedule where
  stored := by rfl
  enabled := by rfl
  timed := .inr rfl
  ready := ⟨_, by rfl, by rfl⟩
  unleased t row hrow := nomatch hrow

end EveryMinute

open EveryMinute

end OpenAgency
