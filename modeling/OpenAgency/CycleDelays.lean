/-
CycleDelays.lean

How long a persistent cycle sleeps.

The handlers cap the base delay and test it against the deadline; the wait is then built
from another delay, which the jitter has made longer or shorter, and from a later reading
of the clock.  `handleCycleEnd` is either handler.  What it stores is known exactly
(`everyOp_handleCycleEnd`): one wait, if its guards let a next cycle be scheduled.  So the
wait keeps to the cap and to the deadline just if what the jitter adds, and the time that has
passed, fit into what the tests left (`DelayFits`).
-/
import Mathlib.Tactic.Linarith
import OpenAgency.MonitorCycle

namespace OpenAgency

open Relational Interaction ExecutionWait
open Program (wp_bind wp_of_done)

/-! ### Policies -/

/-- A policy as `_normalized_persistent_cycle_policy` builds it. -/
structure PersistentCyclePolicy.Normalized (policy : PersistentCyclePolicy) : Prop where
  one_le_interval : 1 ≤ policy.intervalSeconds
  interval_le_max : policy.intervalSeconds ≤ policy.maxIntervalSeconds
  one_le_backoff : 1 ≤ policy.failureBackoffMultiplier
  jitter_nonneg : 0 ≤ policy.jitterRatio
  jitter_le_one : policy.jitterRatio ≤ 1
  history_pos : 1 ≤ policy.historyLimit
  history_le : policy.historyLimit ≤ 100
  failures_pos : 0 < policy.maxConsecutiveFailures
  cycles_pos : ∀ n, policy.maxCycles = some n → 0 < n
  noProgress_pos : ∀ n, policy.maxNoProgressCycles = some n → 0 < n

namespace PersistentCyclePolicy

variable {policy : PersistentCyclePolicy} {unit base : ℚ}

/-- What the jitter adds to a delay, or takes from it. -/
def jitterShift (policy : PersistentCyclePolicy) (unit base : ℚ) : ℚ :=
  base * ((unit * 2 - 1) * policy.jitterRatio)

/-- A delay with its jitter is a millisecond at least. -/
theorem Normalized.delayWithJitter_eq (h : policy.Normalized) (hbase : 1 ≤ base) :
    policy.delayWithJitter unit base = max (1 / 1000) (base + policy.jitterShift unit base) := by
  unfold delayWithJitter jitterShift
  split
  next hnone =>
    have hzero : policy.jitterRatio = 0 := le_antisymm hnone h.jitter_nonneg
    rw [hzero, mul_zero, mul_zero, add_zero, max_eq_right (by linarith)]
  · rw [mul_add, mul_one]

/-- The base delays are a second or more. -/
theorem Normalized.one_le_delay (h : policy.Normalized) (failures : ℕ) :
    1 ≤ policy.backoff failures := by
  have hpow : 1 ≤ policy.failureBackoffMultiplier ^ (failures - 1) := one_le_pow₀ h.one_le_backoff
  have hmax : 1 ≤ policy.maxIntervalSeconds := h.one_le_interval.trans h.interval_le_max
  exact le_min hmax (one_le_mul_of_one_le_of_one_le h.one_le_interval hpow)

/-- The cap holds of the delay with its jitter just if the jitter's share fits under it. -/
theorem Normalized.delayWithJitter_le_iff (h : policy.Normalized) (hbase : 1 ≤ base) :
    policy.delayWithJitter unit base ≤ policy.maxIntervalSeconds ↔
      policy.jitterShift unit base ≤ policy.maxIntervalSeconds - base := by
  have hmax : 1 ≤ policy.maxIntervalSeconds := h.one_le_interval.trans h.interval_le_max
  rw [h.delayWithJitter_eq hbase, max_le_iff, le_sub_iff_add_le']
  exact and_iff_right (by linarith)

end PersistentCyclePolicy

/-! ### The end of a cycle -/

/-- How a cycle has ended. -/
inductive CycleEnd where
  | completed (output : CycleOutput)
  | failed (error : String)

/-- The handler of the end of a cycle. -/
def handleCycleEnd (run : RunContext) : CycleEnd → Coroutine Unit
  | .completed output => handlePersistentCycleSuccess run output >>= fun _ => pure ()
  | .failed error => handlePersistentCycleFailure run error

/-- The key of the wait for a cycle. -/
def cycleWaitKey (next : ℕ) : String := s!"persistent-cycle:{next}"

namespace CycleEnd

variable (run : RunContext) (c : PersistentCycle)

/-- The delay before jitter. -/
def delay : CycleEnd → ℚ
  | completed _ => run.policy.intervalSeconds
  | failed _ => run.policy.backoff (c.consecutiveFailures + 1)

/-- No guard stops the next cycle, at the time the cycle has ended. -/
def Continues (now : Time) : CycleEnd → Prop
  | completed output =>
    let c := c.complete run.policy (run.cfg.progressSignature output) now
    run.policy.enabled ∧ c.terminalReasonFor run.policy now = none ∧
      ∀ n, run.policy.maxNoProgressCycles = some n → c.noProgressCycles < n
  | failed _ =>
    c.consecutiveFailures + 1 < run.policy.maxConsecutiveFailures ∧
      ∀ t, run.policy.deadlineAt = some t →
        now + timedelta (run.policy.backoff (c.consecutiveFailures + 1)) < t

/-- A next cycle is scheduled: no guard stops it, its execution is stored and the key of its
wait is not too long. -/
def Schedules (w : World) (now : Time) (ending : CycleEnd) : Prop :=
  w.db.executions.get run.state.executionId ≠ none ∧ (cycleWaitKey (c.number + 1)).length ≤ 255 ∧
    ending.Continues run c now

end CycleEnd

/-! ### What is stored -/

/-- The operation that stores a wait. -/
def RuntimeOp.storesWait : RuntimeOp → Bool
  | .db (.insertExecutionWait _) => true
  | _ => false

/-- The wait that an operation stores, if it stores one, is to wake at a time in `R`. -/
def StoredWake (R : Option Time → Prop) (o : RuntimeOp) (_ : World) : Prop :=
  ∀ wait, o = .db (.insertExecutionWait wait) → R wait.wakeAt

/-- A coroutine that stores no wait. -/
def StoresNoWait {α : Type} (p : Coroutine α) : Prop :=
  p.Within (fun _ _ => True) fun o : RuntimeOp => o.storesWait = false

theorem storedWake_of_none {R : Option Time → Prop} {o : RuntimeOp} (ho : o.storesWait = false)
    (w : World) : StoredWake R o w := by
  rintro wait rfl
  cases ho

namespace StoresNoWait

variable {α β : Type}

theorem bind {p : Coroutine α} {f : α → Coroutine β} (hp : StoresNoWait p)
    (hf : ∀ a, StoresNoWait (f a)) : StoresNoWait (p >>= f) := Program.Within.bind hp hf

theorem pure (a : α) : StoresNoWait (Pure.pure a : Coroutine α) := trivial

theorem ofExcept (r : Except RuntimeException α) :
    StoresNoWait (Program.ofExcept r : Coroutine α) := Program.within_ofExcept r

theorem query {o : DbOp} (h : RuntimeOp.storesWait (.db o) = false) :
    StoresNoWait (OpenAgency.query o) := ⟨h, fun _ _ => trivial⟩

theorem process (o : ProcOp) : StoresNoWait (OpenAgency.process o) := ⟨rfl, fun _ _ => trivial⟩

theorem uuid4 : StoresNoWait OpenAgency.uuid4 := ⟨rfl, fun _ _ => trivial⟩

theorem utcNow : StoresNoWait OpenAgency.utcNow := ⟨rfl, fun _ _ => trivial⟩

theorem saveObject (ref : ℕ) : StoresNoWait (OpenAgency.saveObject ref) :=
  .bind (process _) fun e => query (o := .updateExecution e) rfl

theorem emit (run : RunContext) (eventType : ExecutionEventType) (labels : EventLabels) :
    StoresNoWait (run.emit eventType labels) := by
  refine .bind (.bind (process _) fun _ => .bind (process _) fun current => .bind ?_ fun saved =>
    .bind (process _) fun _ => pure saved) fun _ => pure ()
  exact .bind uuid4 fun id => .bind utcNow fun now =>
    .bind (query (o := .saveEvent _) rfl) fun saved => ofExcept saved

theorem listPendingWaits (x : Uuid) : StoresNoWait (OpenAgency.listPendingWaits x) :=
  .bind (query (o := .listExecutionWaits _) rfl) fun _ => ofExcept _

theorem pausePersistentCycleForGuard (run : RunContext) (output : CycleOutput) (reason : String) :
    StoresNoWait (OpenAgency.pausePersistentCycleForGuard run output reason) :=
  .bind (process _) fun _ => .bind (.bind (process _) fun _ => process _) fun _ =>
    .bind (process _) fun _ => .bind (saveObject _) fun _ =>
      .bind (emit run _ _) fun _ => emit run _ _

end StoresNoWait

section Stored

variable {env : Environment} {R : Option Time → Prop} {C : Prop} {w : World} {ref : ℕ}
  {e : Execution} {α : Type}

/-- Nothing is stored. -/
theorem everyOp_of_storesNoWait {p : Coroutine α} (hp : StoresNoWait p) (w : World) :
    p.EveryOp (handler env) (StoredWake R) w :=
  Program.everyOp_of_within _ (fun _ ho => storedWake_of_none ho) hp w

theorem everyOp_utcNow {f : Time → Coroutine α}
    (hf : (f (env.clock w.clockReads)).EveryOp (handler env) (StoredWake R)
      { w with clockReads := w.clockReads + 1 } ↔ C) :
    (utcNow >>= f).EveryOp (handler env) (StoredWake R) w ↔ C :=
  (and_iff_right (storedWake_of_none rfl w)).trans hf

theorem everyOp_object (h : ObjectIs w ref e) {f : Execution → Coroutine α}
    (hf : (f e).EveryOp (handler env) (StoredWake R) w ↔ C) :
    (process (.object ref) >>= f).EveryOp (handler env) (StoredWake R) w ↔ C := by
  refine (and_iff_right (storedWake_of_none rfl w)).trans ?_
  have hget : w.proc.objects[ref]? = some e := h
  simpa [ProcOp.exec, hget] using hf

theorem everyOp_state {x : Uuid} {workflowId : String} {f : NativeExecutionState → Coroutine α}
    (h : ObjectIs w ref e)
    (hf : ∀ st w', w'.db = w.db → w'.clockReads = w.clockReads → ObjectIs w' ref e →
      ((f st).EveryOp (handler env) (StoredWake R) w' ↔ C)) :
    (process (.state x workflowId) >>= f).EveryOp (handler env) (StoredWake R) w ↔ C :=
  (and_iff_right (storedWake_of_none rfl w)).trans (hf _ _ rfl rfl h)

theorem everyOp_modifyObject (h : ObjectIs w ref e) {g : Execution → Execution}
    {f : Unit → Coroutine α}
    (hf : ∀ w', w'.db = w.db → w'.clockReads = w.clockReads → ObjectIs w' ref (g e) →
      ((f ()).EveryOp (handler env) (StoredWake R) w' ↔ C)) :
    (process (.modifyObject ref g) >>= f).EveryOp (handler env) (StoredWake R) w ↔ C := by
  refine (and_iff_right (storedWake_of_none rfl w)).trans (hf _ rfl rfl ?_)
  have hget : w.proc.objects[ref]? = some e := h
  simp [ObjectIs, ProcOp.exec, hget]

theorem everyOp_saveObject (h : ObjectIs w ref e) {f : Unit → Coroutine α}
    (hf : ∀ w', w'.clockReads = w.clockReads → ObjectIs w' ref e →
      ((f ()).EveryOp (handler env) (StoredWake R) w' ↔ C)) :
    (saveObject ref >>= f).EveryOp (handler env) (StoredWake R) w ↔ C := by
  have hget : w.proc.objects[ref]? = some e := h
  refine (and_iff_right (storedWake_of_none rfl w)).trans
    ((and_iff_right (storedWake_of_none rfl _)).trans (hf _ rfl hget))

variable {eventType : ExecutionEventType}

/-- Emitting does not fail for an execution that is stored, and it reads the clock once. -/
theorem run_emit {run : RunContext} {labels : EventLabels}
    (hrow : w.db.executions.get run.state.executionId ≠ none) :
    ∃ w', (run.emit eventType labels).run (handler env) w = (.ok (), w') ∧
      w'.db.executions = w.db.executions ∧ w'.proc.objects = w.proc.objects ∧
      w'.clockReads = w.clockReads + 1 := by
  have hsame : (run.emit eventType labels).wp (handler env) (fun _ w' => SameButEvents w w')
      (fun _ _ => False) w := by
    rw [RunContext.emit, wp_bind]
    exact wp_emit_of_row hrow fun _ w' h => wp_of_done h
  have hclock : (run.emit eventType labels).wp (handler env)
      (fun _ w' => w'.clockReads = w.clockReads + 1) (fun _ _ => True) w := by
    rw [RunContext.emit, wp_bind, OpenAgency.emit, wp_process, wp_state, wp_bind,
      appendEvent, wp_uuid4, wp_utcNow, wp_query]
    rcases DbOp.exec _ _ with ⟨exc | saved, db⟩
    · exact Program.wp_of_raise trivial
    · refine wp_of_done ?_
      rw [wp_process]
      exact wp_of_done (wp_of_done rfl)
  obtain ⟨hok, herror⟩ := (Program.wp_iff_run _ _).mp (Program.wp_and hsame hclock)
  rcases hrun : (run.emit eventType labels).run (handler env) w with ⟨exc | _, w'⟩
  · exact (herror exc w' hrun).1.elim
  · obtain ⟨hrecords, hreads⟩ := hok _ w' hrun
    exact ⟨w', rfl, hrecords.executions, hrecords.objects, hreads⟩

/-- Emitting fails for an execution that is not stored. -/
theorem run_emit_of_none {run : RunContext} {labels : EventLabels}
    (hrow : w.db.executions.get run.state.executionId = none) (a : Unit) (w' : World) :
    (run.emit eventType labels).run (handler env) w ≠ (.ok a, w') := by
  have hwp : (run.emit eventType labels).wp (handler env) (fun _ _ => False) (fun _ _ => True) w := by
    rw [RunContext.emit, wp_bind, OpenAgency.emit, wp_process, wp_state, wp_bind,
      appendEvent, wp_uuid4, wp_utcNow, wp_query]
    simp only [DbOp.exec, ProcOp.executionId_setdefault, hrow]
    exact Program.wp_of_raise trivial
  exact ((Program.wp_iff_run _ _).mp hwp).1 a w'

/-! ### The wait -/

theorem strip_cycleWaitKey (next : ℕ) : strip (cycleWaitKey next) ≠ "" := by
  have hp : 'p' ∈ (cycleWaitKey next).toList := by
    simp only [cycleWaitKey, String.toList_append, List.mem_append]
    exact .inl (by decide)
  exact strip_ne_empty hp (by decide)

/-- `create_execution_wait` stores the wait it is given, or tries to. -/
theorem everyOp_createCycleWait {wait : ExecutionWait} {f : ExecutionWait → Coroutine α}
    (hf : ∀ a, StoresNoWait (f a)) :
    (createCycleWait wait >>= f).EveryOp (handler env) (StoredWake R) w ↔ R wait.wakeAt := by
  have hinsert : StoredWake R (.db (.insertExecutionWait wait)) w ↔ R wait.wakeAt := by
    constructor
    · exact fun h => h wait rfl
    · intro h stored hstored
      cases hstored
      exact h
  have hcreate : (createExecutionWait wait).EveryOp (handler env) (StoredWake R) w ↔
      R wait.wakeAt := by
    rw [createExecutionWait, query_bind]
    refine (and_iff_left (everyOp_of_storesNoWait ?_ _)).trans hinsert
    rcases (handler env (.db (.insertExecutionWait wait)) w).1 with exc | -
    · dsimp only
      refine .bind (.query (o := .getExecutionWaitByKey _ _) rfl) fun existing => ?_
      rcases existing with - | existing
      · exact .ofExcept (.error exc)
      · exact .ofExcept _
    · exact .ofExcept _
  rw [Program.everyOp_bind_iff, createCycleWait, Program.rescue, Program.everyOp_bind_iff,
    Program.everyOp_attempt, hcreate, and_assoc]
  refine and_iff_left ⟨fun outcome w' _ => everyOp_of_storesNoWait ?_ w',
    fun a w' _ => everyOp_of_storesNoWait (hf a) w'⟩
  rcases outcome with exc | stored
  · dsimp only
    split
    · exact .ofExcept (.error exc)
    · refine .bind (.listPendingWaits _) fun waits => ?_
      rcases waits with - | ⟨pending, -⟩
      · exact .ofExcept (.error exc)
      · dsimp only
        split
        · exact .pure pending
        · exact .ofExcept (.error exc)
  · exact .pure stored

/-- A record is built only if it is valid. -/
theorem everyOp_newExecutionWait {build : Uuid → Time → ExecutionWait}
    {f : ExecutionWait → Coroutine α} (hpending : ∀ id now, (build id now).status = .pending)
    (hf : ∀ id now w', (f (build id now)).EveryOp (handler env) (StoredWake R) w' ↔ C)
    {valid : Prop} (hvalid : ∀ id now, (build id now).Valid ↔ valid) :
    (newExecutionWait build >>= f).EveryOp (handler env) (StoredWake R) w ↔ (valid → C) := by
  simp only [newExecutionWait, uuid4_bind, utcNow_bind, Program.call_bind]
  refine (and_iff_right (storedWake_of_none rfl _)).trans
    ((and_iff_right (storedWake_of_none rfl _)).trans ?_)
  beta_reduce
  rcases hbuilt : (build (handler env .uuid4 w).1
    (handler env .utcNow (handler env .uuid4 w).2).1).validateLifecycle with exc | wait
  · refine iff_of_true trivial fun h => ?_
    rw [validateLifecycle_ok ((hvalid _ _).mpr h)] at hbuilt
    cases hbuilt
  · obtain ⟨h, rfl⟩ := valid_of_validateLifecycle hbuilt
    rw [fillResolvedAt_of_pending (hpending _ _)]
    exact (hf _ _ _).trans ⟨fun hC _ => hC, fun hC => hC ((hvalid _ _).mp h)⟩

/-- The wait is stored with the time it is to wake at, if its key is not too long. -/
theorem everyOp_sleepUntilCycle {run : RunContext} {next : ℕ} (h : ObjectIs w run.ref e)
    (wakeAt : Time) (reason : String) :
    (sleepUntilCycle run next wakeAt reason).EveryOp (handler env) (StoredWake R) w ↔
      ((cycleWaitKey next).length ≤ 255 → R (some wakeAt)) := by
  have hstrip := strip_cycleWaitKey next
  have hpos : (cycleWaitKey next).length ≠ 0 := by
    intro hzero
    exact hstrip (by rw [String.length_eq_zero_iff.mp hzero]; decide)
  unfold sleepUntilCycle
  refine everyOp_object h (everyOp_newExecutionWait (fun _ _ => rfl) ?_ fun id now => ?_)
  · intro id now w'
    refine everyOp_createCycleWait fun wait => ?_
    exact .bind (.process _) fun _ => .bind (.saveObject _) fun _ => .emit run _ _
  · constructor
    · intro hvalid
      have hrule := hvalid _ List.mem_cons_self
      simp only [Bool.or_eq_false_iff, decide_eq_false_iff_not, not_lt] at hrule
      exact hrule.2
    · intro hkey rule hrule
      simp only [lifecycleRules, List.mem_cons, List.not_mem_nil, or_false] at hrule
      have hlong : ¬ 255 < (cycleWaitKey next).length := not_lt.mpr hkey
      rcases hrule with rfl | rfl | rfl | rfl | rfl | rfl | rfl | rfl | rfl | rfl
      all_goals simp_all [fits255, cycleWaitKey]

theorem everyOp_resetCycleCheckpoint {run : RunContext} {output : CycleOutput}
    (h : ObjectIs w run.ref e) {f : Unit → Coroutine α}
    (hf : ∀ w', ObjectIs w' run.ref { e with
      outputPayload := some { checkpoint := some {}, lastCycleOutput := some output } } →
      ((f ()).EveryOp (handler env) (StoredWake R) w' ↔ C)) :
    (resetCycleCheckpoint run output >>= f).EveryOp (handler env) (StoredWake R) w ↔ C := by
  rw [resetCycleCheckpoint, Program.bind_assoc]
  refine everyOp_modifyObject h fun w' _ _ h' => ?_
  exact (and_iff_right (storedWake_of_none rfl _)).trans (hf _ h')

/-- `_schedule_persistent_cycle` stores a wait for the base delay with its jitter, counted from
the time it reads first. -/
theorem everyOp_schedulePersistentCycle {run : RunContext} (h : ObjectIs w run.ref e)
    (output : CycleOutput) (delay : ℚ) (reason : String) :
    (schedulePersistentCycle run output delay reason).EveryOp (handler env) (StoredWake R) w ↔
      ((cycleWaitKey (e.metadata.persistentCycle.number + 1)).length ≤ 255 →
        R (some (env.clock w.clockReads + timedelta (run.policy.delayWithJitter
          (run.cfg.jitterUnit e.id (e.metadata.persistentCycle.number + 1)) delay)))) := by
  unfold schedulePersistentCycle
  refine everyOp_object h (everyOp_utcNow ?_)
  refine everyOp_modifyObject (w := { w with clockReads := w.clockReads + 1 }) h fun w₁ _ _ h₁ => ?_
  refine everyOp_resetCycleCheckpoint h₁ fun w₂ h₂ => ?_
  refine everyOp_modifyObject h₂ fun w₃ _ _ h₃ => everyOp_saveObject h₃ fun w₄ _ h₄ => ?_
  exact everyOp_sleepUntilCycle h₄ _ reason

/-! ### The handlers -/

theorem everyOp_bind_of_rest {β : Type} {p : Coroutine α} {f : α → Coroutine β}
    (hf : ∀ a, StoresNoWait (f a)) : (p >>= f).EveryOp (handler env) (StoredWake R) w ↔
      p.EveryOp (handler env) (StoredWake R) w := by
  rw [Program.everyOp_bind_iff]
  exact and_iff_left fun a w' _ => everyOp_of_storesNoWait (hf a) w'

/-- Only what follows an event matters, if the event can be stored. -/
theorem everyOp_emit {run : RunContext} (h : ObjectIs w run.ref e) {f : Unit → Coroutine α}
    (hf : ∀ w', w'.clockReads = w.clockReads + 1 → ObjectIs w' run.ref e →
      ((f ()).EveryOp (handler env) (StoredWake R) w' ↔ C)) :
    (run.emit eventType >>= f).EveryOp (handler env) (StoredWake R) w ↔
      (w.db.executions.get run.state.executionId ≠ none → C) := by
  have hemit : StoresNoWait (run.emit eventType) := .emit run eventType {}
  rw [Program.everyOp_bind_of_within _ (fun _ ho => storedWake_of_none ho) hemit]
  by_cases hrow : w.db.executions.get run.state.executionId = none
  · refine iff_of_true (fun a w' hrun => ?_) fun hne => absurd hrow hne
    exact absurd hrun (run_emit_of_none hrow a w')
  · obtain ⟨w', hrun, -, hobjects, hreads⟩ : ∃ w',
        (run.emit eventType).run (handler env) w = (.ok (), w') ∧ _ := run_emit hrow
    have h' : ObjectIs w' run.ref e := by
      rw [ObjectIs, hobjects]
      exact h
    rw [hrun]
    constructor
    · exact fun hall _ => (hf w' hreads h').mp (hall () w' rfl)
    · intro hC a w'' heq
      cases heq
      exact (hf w' hreads h').mpr (hC hrow)

end Stored

namespace CycleEnd

variable (run : RunContext) (e : Execution)

/-- The fraction the next cycle draws. -/
def unit : ℚ := run.cfg.jitterUnit e.id (e.metadata.persistentCycle.number + 1)

/-- The delay with its jitter. -/
def effectiveDelay (ending : CycleEnd) : ℚ :=
  run.policy.delayWithJitter (unit run e) (ending.delay run e.metadata.persistentCycle)

/-- When the next cycle is to start, if it is scheduled at a time. -/
def wakeAt (scheduled : Time) (ending : CycleEnd) : Time :=
  scheduled + timedelta (ending.effectiveDelay run e)

end CycleEnd

theorem not_any_le_iff {o : Option ℕ} {n : ℕ} :
    ¬ (o.any fun m => decide (m ≤ n)) = true ↔ ∀ m, o = some m → n < m := by
  rcases o with - | m <;> simp

section Handlers

variable {env : Environment} {R : Option Time → Prop} {w : World} {run : RunContext}
  {e : Execution}

/-- The end of a cycle that has completed. -/
theorem everyOp_handlePersistentCycleSuccess (h : ObjectIs w run.ref e) (output : CycleOutput) :
    (handlePersistentCycleSuccess run output).EveryOp (handler env) (StoredWake R) w ↔
      ((CycleEnd.completed output).Schedules run e.metadata.persistentCycle w
          (env.clock w.clockReads) →
        R (some ((CycleEnd.completed output).wakeAt run e (env.clock (w.clockReads + 2))))) := by
  unfold handlePersistentCycleSuccess
  by_cases henabled : run.policy.enabled = true
  · simp only [henabled, Bool.not_true, Bool.false_eq_true, if_false]
    refine everyOp_utcNow ?_
    refine everyOp_modifyObject (w := { w with clockReads := w.clockReads + 1 }) h
      fun w₁ hdb₁ hreads₁ h₁ => everyOp_modifyObject h₁ fun w₂ hdb₂ hreads₂ h₂ =>
        everyOp_object h₂ ?_
    refine (everyOp_emit (C := (CycleEnd.completed output).Continues run e.metadata.persistentCycle
        (env.clock w.clockReads) →
      (cycleWaitKey (e.metadata.persistentCycle.number + 1)).length ≤ 255 →
      R (some ((CycleEnd.completed output).wakeAt run e (env.clock (w.clockReads + 2))))) h₂
        fun w₃ hreads₃ h₃ => ?_).trans ?_
    · have hnumber := e.metadata.persistentCycle.number_complete run.policy
        (run.cfg.progressSignature output) (env.clock w.clockReads)
      have hclock : w₃.clockReads = w.clockReads + 2 := by rw [hreads₃, hreads₂, hreads₁]
      dsimp only
      rcases hterminal : (e.metadata.persistentCycle.complete run.policy
          (run.cfg.progressSignature output) (env.clock w.clockReads)).terminalReasonFor
            run.policy (env.clock w.clockReads) with - | reason
      · dsimp only
        split
        next hstuck =>
          refine iff_of_true ?_ fun hcontinues => ?_
          · exact everyOp_of_storesNoWait (.bind (.pausePersistentCycleForGuard _ _ _)
              fun _ => .pure true) w₃
          · exact absurd hstuck (not_any_le_iff.mpr hcontinues.2.2)
        next hmoves =>
          have hcontinues : (CycleEnd.completed output).Continues run e.metadata.persistentCycle
              (env.clock w.clockReads) := ⟨henabled, hterminal, not_any_le_iff.mp hmoves⟩
          rw [everyOp_bind_of_rest fun _ => .pure true, everyOp_schedulePersistentCycle h₃,
            hclock, forall_prop_of_true hcontinues]
          dsimp only
          rw [hnumber]
          rfl
      · refine iff_of_true ?_ fun hcontinues => ?_
        · exact everyOp_of_storesNoWait (.bind (.process _) fun _ => .pure false) w₃
        · rw [hcontinues.2.1] at hterminal
          cases hterminal
    · rw [hdb₂, hdb₁]
      simp only [CycleEnd.Schedules]
      tauto
  · simp only [henabled, Bool.not_false, if_true]
    refine iff_of_true trivial fun hschedules => ?_
    exact absurd hschedules.2.2.1 henabled

/-- The end of a cycle that has failed. -/
theorem everyOp_handlePersistentCycleFailure (h : ObjectIs w run.ref e) (error : String) :
    (handlePersistentCycleFailure run error).EveryOp (handler env) (StoredWake R) w ↔
      ((CycleEnd.failed error).Schedules run e.metadata.persistentCycle w (env.clock w.clockReads) →
        R (some ((CycleEnd.failed error).wakeAt run e (env.clock (w.clockReads + 2))))) := by
  unfold handlePersistentCycleFailure
  refine everyOp_utcNow ?_
  refine everyOp_state (w := { w with clockReads := w.clockReads + 1 }) h
    fun st w₀ hdb₀ hreads₀ h₀ => ?_
  dsimp only
  refine everyOp_modifyObject h₀ fun w₁ hdb₁ hreads₁ h₁ => ?_
  refine everyOp_modifyObject h₁ fun w₂ hdb₂ hreads₂ h₂ => everyOp_object h₂ ?_
  refine (everyOp_emit (C := (CycleEnd.failed error).Continues run e.metadata.persistentCycle
      (env.clock w.clockReads) →
    (cycleWaitKey (e.metadata.persistentCycle.number + 1)).length ≤ 255 →
    R (some ((CycleEnd.failed error).wakeAt run e (env.clock (w.clockReads + 2))))) h₂
      fun w₃ hreads₃ h₃ => ?_).trans ?_
  · have hnumber := e.metadata.persistentCycle.number_fail run.policy error (env.clock w.clockReads)
    have hclock : w₃.clockReads = w.clockReads + 2 := by rw [hreads₃, hreads₂, hreads₁, hreads₀]
    dsimp only
    split
    next hmany =>
      refine iff_of_true (everyOp_of_storesNoWait (.pausePersistentCycleForGuard _ _ _) w₃) ?_
      exact fun hcontinues => absurd hcontinues.1 (not_lt.mpr hmany)
    next hfew =>
      split
      next hlate =>
        refine iff_of_true (everyOp_of_storesNoWait (.pausePersistentCycleForGuard _ _ _) w₃) ?_
        exact fun hcontinues => absurd hlate (not_any_le_iff.mpr hcontinues.2)
      next htime =>
        have hcontinues : (CycleEnd.failed error).Continues run e.metadata.persistentCycle
            (env.clock w.clockReads) := ⟨not_le.mp hfew, not_any_le_iff.mp htime⟩
        rw [everyOp_schedulePersistentCycle h₃, hclock, forall_prop_of_true hcontinues]
        dsimp only
        rw [hnumber]
        rfl
  · rw [hdb₂, hdb₁, hdb₀]
    simp only [CycleEnd.Schedules]
    tauto

/-- **What the end of a cycle stores.**  One wait is stored, if a next cycle is scheduled; it is
to wake the jittered delay after the clock is read again. -/
theorem everyOp_handleCycleEnd (h : ObjectIs w run.ref e) (ending : CycleEnd) :
    (handleCycleEnd run ending).EveryOp (handler env) (StoredWake R) w ↔
      (ending.Schedules run e.metadata.persistentCycle w (env.clock w.clockReads) →
        R (some (ending.wakeAt run e (env.clock (w.clockReads + 2))))) := by
  cases ending with
  | completed output =>
    rw [handleCycleEnd, everyOp_bind_of_rest fun _ => .pure ()]
    exact everyOp_handlePersistentCycleSuccess h output
  | failed error => exact everyOp_handlePersistentCycleFailure h error

end Handlers

/-! ### The bounds -/

/-- The wait sleeps the delay with its jitter, which is not above the cap, and it is over
before the deadline. -/
structure KeepsBounds (run : RunContext) (e : Execution) (ending : CycleEnd) (scheduled : Time)
    (wake : Option Time) : Prop where
  counted : wake = some (scheduled + timedelta (ending.effectiveDelay run e))
  cap : ending.effectiveDelay run e ≤ run.policy.maxIntervalSeconds
  deadline : ∀ t, run.policy.deadlineAt = some t → ∀ wakeAt, wake = some wakeAt → wakeAt < t

/-- What the jitter adds fits between the base delay and the cap; and with the time that has
passed since the deadline was tested, it fits between the end of the base delay and the
deadline. -/
structure DelayFits (policy : PersistentCyclePolicy) (unit base : ℚ) (ended scheduled : Time) :
    Prop where
  cap : policy.jitterShift unit base ≤ policy.maxIntervalSeconds - base
  deadline : ∀ t, policy.deadlineAt = some t →
    ((scheduled : ℤ) - ended) +
        (timedelta (max (1 / 1000) (base + policy.jitterShift unit base)) - timedelta base)
      < t - (ended + timedelta base)

/-- A time is before the deadline just if what is added to an earlier one fits. -/
theorem add_lt_iff_shift (scheduled delay ended base deadline : ℕ) :
    scheduled + delay < deadline ↔
      ((scheduled : ℤ) - ended) + (delay - base) < deadline - (ended + base) := by
  omega

/-- **When a cycle sleeps within its bounds.**  Whatever ended the cycle, what its handler
stores keeps to the cap and to the deadline just if, should it schedule a next cycle, the
jitter fits. -/
theorem cycleDelay_bounded_iff {env : Environment} {w : World} {run : RunContext} {e : Execution}
    (hpolicy : run.policy.Normalized) (h : ObjectIs w run.ref e) (ending : CycleEnd) :
    (handleCycleEnd run ending).EveryOp (handler env)
        (StoredWake (KeepsBounds run e ending (env.clock (w.clockReads + 2)))) w ↔
      (ending.Schedules run e.metadata.persistentCycle w (env.clock w.clockReads) →
        DelayFits run.policy (CycleEnd.unit run e) (ending.delay run e.metadata.persistentCycle)
          (env.clock w.clockReads) (env.clock (w.clockReads + 2))) := by
  have hbase : 1 ≤ ending.delay run e.metadata.persistentCycle := by
    cases ending with
    | completed output => exact hpolicy.one_le_interval
    | failed error => exact hpolicy.one_le_delay _
  have hdelay : ending.effectiveDelay run e = max (1 / 1000)
      (ending.delay run e.metadata.persistentCycle + run.policy.jitterShift (CycleEnd.unit run e)
        (ending.delay run e.metadata.persistentCycle)) := hpolicy.delayWithJitter_eq hbase
  rw [everyOp_handleCycleEnd h]
  refine imp_congr_right fun _ => ⟨fun hkept => ⟨?_, fun t ht => ?_⟩, fun hfits => ⟨rfl, ?_, ?_⟩⟩
  · exact (hpolicy.delayWithJitter_le_iff hbase).mp hkept.cap
  · have hlt := hkept.deadline t ht _ rfl
    rw [CycleEnd.wakeAt, hdelay] at hlt
    exact (add_lt_iff_shift _ _ _ _ _).mp hlt
  · exact (hpolicy.delayWithJitter_le_iff hbase).mpr hfits.cap
  · intro t ht wakeAt hwake
    obtain rfl := Option.some.inj hwake
    rw [CycleEnd.wakeAt, hdelay]
    exact (add_lt_iff_shift _ _ _ _ _).mpr (hfits.deadline t ht)

/-! ### A wait beyond the cap -/

namespace JitteredCycle

def running : Execution := { id := 3, workflowId := "w", status := .running }

def world : World := {
  db := { executions := Table.empty.save running }
  proc := { objects := [running] } }

/-- The fraction of the second cycle, from the first eight bytes of its digest. -/
def config : EngineConfig := { EngineConfig.bare with
  jitterUnit := fun x n => if x = 3 ∧ n = 2 then 15542458414244461093 / (2 ^ 64 - 1) else 0 }

/-- A minute between cycles, and no more. -/
def everyMinute (jitterRatio : ℚ) : PersistentCyclePolicy := {
  enabled := true
  jitterRatio := jitterRatio
  maxIntervalSeconds := 60 }

def run (policy : PersistentCyclePolicy) : RunContext where
  cfg := config
  state := { executionId := 3, workflowId := "w" }
  ref := 0
  workflow := { id := "w", name := "w", entrypoint := "n" }
  policy := policy

/-- The first cycle fails. -/
def timedOut : CycleEnd := .failed "timeout"

theorem normalized {ratio : ℚ} (hratio : 0 ≤ ratio) (hone : ratio ≤ 1) :
    (everyMinute ratio).Normalized where
  one_le_interval := by norm_num [everyMinute]
  interval_le_max := by norm_num [everyMinute]
  one_le_backoff := by norm_num [everyMinute]
  jitter_nonneg := hratio
  jitter_le_one := hone
  history_pos := by norm_num [everyMinute]
  history_le := by norm_num [everyMinute]
  failures_pos := by norm_num [everyMinute]
  cycles_pos := by simp [everyMinute]
  noProgress_pos := by simp [everyMinute]

theorem objectIs (policy : PersistentCyclePolicy) : ObjectIs world (run policy).ref running := rfl

theorem schedules (ratio : ℚ) (now : Time) :
    timedOut.Schedules (run (everyMinute ratio)) running.metadata.persistentCycle world now := by
  refine ⟨?_, by decide, ?_, ?_⟩
  · show (Table.empty.save running).get running.id ≠ none
    rw [Table.get_save, if_pos rfl]
    exact Option.some_ne_none _
  · show running.metadata.persistentCycle.consecutiveFailures + 1 < 5
    decide
  · intro t ht
    cases ht

end JitteredCycle

open JitteredCycle in
/-- Without jitter the second cycle starts after a minute. -/
theorem cycleDelay_bounded_minute :
    (handleCycleEnd (run (everyMinute 0)) timedOut).EveryOp (handler .silent)
      (StoredWake (KeepsBounds (run (everyMinute 0)) running timedOut 2)) world := by
  refine (cycleDelay_bounded_iff (normalized le_rfl zero_le_one) (objectIs _) timedOut).mpr
    fun _ => ⟨?_, fun t ht => ?_⟩
  · have hshift (unit base : ℚ) : (everyMinute 0).jitterShift unit base = 0 := by
      rw [PersistentCyclePolicy.jitterShift, everyMinute, mul_zero, mul_zero]
    rw [show (run (everyMinute 0)).policy = everyMinute 0 from rfl, hshift]
    norm_num [timedOut, CycleEnd.delay, PersistentCyclePolicy.backoff, run, everyMinute, running]
  · cases ht

open JitteredCycle in
/-- With jitter it starts after more than a minute and a half, although the policy allows one
minute only. -/
theorem cycleDelay_beyond_cap :
    ¬ ∀ (env : Environment) (w : World) (run : RunContext) (e : Execution) (ending : CycleEnd),
      run.policy.Normalized → ObjectIs w run.ref e →
        (handleCycleEnd run ending).EveryOp (handler env)
          (StoredWake (KeepsBounds run e ending (env.clock (w.clockReads + 2)))) w := by
  intro hall
  have hkept := (everyOp_handleCycleEnd (objectIs (everyMinute 1)) timedOut).mp
    (hall .silent world (run (everyMinute 1)) running timedOut
      (normalized zero_le_one le_rfl) (objectIs _)) (schedules 1 _)
  have hcap := hkept.cap
  revert hcap
  have hunit : CycleEnd.unit (run (everyMinute 1)) running =
      15542458414244461093 / (2 ^ 64 - 1) := rfl
  have hbase : timedOut.delay (run (everyMinute 1)) running.metadata.persistentCycle = 60 := by
    norm_num [timedOut, CycleEnd.delay, PersistentCyclePolicy.backoff, run, everyMinute, running]
  rw [CycleEnd.effectiveDelay, hunit, hbase]
  norm_num [PersistentCyclePolicy.delayWithJitter, run, everyMinute]

end OpenAgency
