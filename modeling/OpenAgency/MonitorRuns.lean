/-
MonitorRuns.lean

Runs of a persistent monitor: cycle after cycle, with operators resuming it and anything
else that leaves its cycle record alone in between.  A cycle fails when its node loop
raises or leaves node errors.  Two limits of the policy are looked at.  `max_cycles` is
compared when a cycle completes and nowhere else, so it bounds the numbers of the cycles
exactly as far as the last one does not fail.  `max_consecutive_failures` is compared
when a cycle is counted as failed, so it bounds the failures in a row as far as no cycle
completes with failed nodes, which counts as a success.
-/
import OpenAgency.ControlPlane
import OpenAgency.MonitorCycle

namespace OpenAgency

open Interaction Relational EngineRun Table PersistentCycle
open Program (done_bind wp_mono wp_of_raise wp_rescue wp_seq)

/-! ### Cycles and how they end -/

/-- How the node loop of a cycle ended. -/
inductive CycleOutcome where
  /-- No node has failed. -/
  | clean
  /-- The loop has ended, and node errors are recorded. -/
  | failedNodes
  | exception
  /-- An execution was paused, suspended or cancelled; the cycle has not ended. -/
  | interrupted
  deriving DecidableEq

namespace CycleOutcome

/-- At least one node of the cycle has failed. -/
def isFailure : CycleOutcome → Bool
  | failedNodes | exception => true
  | clean | interrupted => false

/-- The outcome of a loop that has stopped with these node errors recorded. -/
def ofLoop (nodeErrors : Dict String) : Except RuntimeException Unit → CycleOutcome
  | .ok () => if nodeErrors = [] then clean else failedNodes
  | .error exc =>
    if exc.cls.isExecutionPaused || exc.cls = .executionCancelled then interrupted else exception

/-- How many cycles have failed in a row. -/
def streak (failed : ℕ) : CycleOutcome → ℕ
  | clean => 0
  | failedNodes | exception => failed + 1
  | interrupted => failed

end CycleOutcome

section Definitions

variable (cfg : EngineConfig) (env : Environment) (x : Uuid)

/-- The execution and workflow that `start_execution` would run. -/
def startable (w : World) : Option (Execution × WorkflowDefinition) :=
  match w.db.executions.get x with
  | none => none
  | some e => if e.status.isTerminal then none else (cfg.workflow e.workflowId).map fun wf => (e, wf)

/-- The number of the cycle that `start_execution` begins. -/
def begins (w : World) : Option ℕ :=
  (startable cfg x w).bind fun (e, _) =>
    if e.metadata.persistentCyclePolicy.enabled then some e.metadata.persistentCycle.startNumber
    else none

/-- The node loop of the cycle that `start_execution` begins, run to its end. -/
def cycleOutcome (w : World) : Option CycleOutcome :=
  (startable cfg x w).bind fun (e, workflow) =>
    match (beginRun cfg e workflow).run (handler env) w with
    | (.error _, _) => none
    | (.ok run, w₁) =>
      let loop := ((runNodes run).flatten cfg).run (handler env) w₁
      some (.ofLoop (loop.2.proc.nodeErrors x) loop.1)

/-- The world after `start_execution`. -/
def started (w : World) : World := (((startExecution cfg x).flatten cfg).run (handler env) w).2

/-- The world after the operator's `resume`. -/
def resumed (w : World) : World := ((resume x).run (handler env) w).2

/-- The row keeps its identity, its cycle record and its policy. -/
def Undisturbed (w w' : World) : Prop :=
  ∀ e, w.db.executions.get x = some e → ∃ e', w'.db.executions.get x = some e' ∧ SameCycle e e'

/-- A run of the monitor from `w` in which every cycle begins in a world in `C`; the
number counts the cycles that have failed in a row. -/
inductive MonitorRun (C : World → Prop) (w : World) : World → ℕ → Prop
  | refl : MonitorRun C w w 0
  | start {w' : World} {failed : ℕ} (h : MonitorRun C w w' failed) (hC : C w') :
      MonitorRun C w (started cfg env x w')
        ((cycleOutcome cfg env x w').elim failed (CycleOutcome.streak failed))
  | resume {w' : World} {failed : ℕ} (h : MonitorRun C w w' failed) :
      MonitorRun C w (resumed env x w') failed
  | other {w' w'' : World} {failed : ℕ} (h : MonitorRun C w w' failed)
      (hundisturbed : Undisturbed x w' w'') : MonitorRun C w w'' failed

end Definitions

variable {cfg : EngineConfig} {env : Environment} {x : Uuid} {w : World}

/-! ### Operators -/

namespace CycleFrame

variable {F : CycleFrame}

theorem Keeps.rejectUnresolvedWait (y : Uuid) : F.Keeps (OpenAgency.rejectUnresolvedWait y) := by
  refine .bind (listPendingWaits y) fun waits => ?_
  rcases waits with - | ⟨wait, -⟩
  · exact .pure ()
  · exact .raise _ _

theorem Keeps.resolveAdapterForExecution (y : Uuid) :
    F.Keeps (OpenAgency.resolveAdapterForExecution y) := by
  refine getExecution (.raise _ _) fun e _ _ => ?_
  dsimp only
  split
  · exact .raise _ _
  · exact .pure ()

theorem Keeps.hydrateStatePosition (st : NativeExecutionState) :
    F.Keeps (OpenAgency.hydrateStatePosition st) := by
  refine .bind (.state _ _) fun current => ?_
  split
  · exact .pure ()
  · refine .bind (.query trivial) fun events => ?_
    split
    · exact .pure ()
    · exact .modifyState _ _

theorem Keeps.queueStart (y : Uuid) : F.Keeps (OpenAgency.queueStart y) := by
  refine getExecution (.raise _ _) fun e hid he => .bind (.ofExcept _) fun _ => ?_
  refine .bind (.rejectUnresolvedWait y) fun _ => ?_
  refine .bind (updateExecution hid he ⟨rfl, rfl, rfl⟩) fun _ => ?_
  exact .bind (.process trivial) fun _ => .pure _

theorem Keeps.resumeExecution (y : Uuid) : F.Keeps (OpenAgency.resumeExecution y) := by
  -- the row is read once, by `_require_execution_and_state`
  unfold OpenAgency.resumeExecution requireExecutionAndState
  rw [Program.bind_assoc]
  refine getExecution (.raise _ _) fun e hid he => ?_
  dsimp only
  rw [Program.bind_assoc]
  refine .bind (.state _ _) fun st => ?_
  rw [Program.bind_assoc]
  refine .bind (.hydrateStatePosition st) fun _ => ?_
  rw [Program.pure_eq_done, done_bind]
  refine .bind (.ofExcept _) fun _ => .bind (.modifyState _ _) fun _ => ?_
  refine .bind (updateExecution hid he ⟨rfl, rfl, rfl⟩) fun _ => ?_
  exact .bind (.emit _ _ _) fun _ => .pure _

theorem Keeps.resume (y : Uuid) : F.Keeps (OpenAgency.resume y) := by
  refine getExecution (.raise _ _) fun e hid he => .bind (.ofExcept _) fun _ => ?_
  refine .bind (.rejectUnresolvedWait y) fun _ => ?_
  refine .bind (.resolveAdapterForExecution y) fun _ => ?_
  refine .bind (.resumeExecution y) fun resumed => ?_
  dsimp only
  split
  · exact .bind (.queueStart y) fun _ => .pure _
  · exact .pure _

end CycleFrame

/-- A coroutine outside the engine that keeps every frame leaves the monitor alone. -/
theorem undisturbed_of_keeps {α : Type} {p : Coroutine α}
    (h : ∀ F : CycleFrame, F.Keeps p) : Undisturbed x w (p.run (handler env) w).2 := by
  intro e he
  let F : CycleFrame := {
    executionId := x
    ref := none
    holds := fun c q => c = e.metadata.persistentCycle ∧ q = e.metadata.persistentCyclePolicy
    waits := fun _ => True }
  have hinv : F.Invariant w w := by
    refine ⟨⟨e, he, rfl, rfl⟩, ?_, fun i row hi hp _ => ⟨row, hi, hp, rfl, rfl⟩⟩
    rintro _ ⟨⟩
  obtain ⟨e', he', hcycle, hpolicy⟩ := (Program.wp_state.mp ((h F).wp hinv)).row
  exact ⟨e', he', (key_of_get he').trans (key_of_get he).symm, hcycle, hpolicy⟩

theorem undisturbed_resumed : Undisturbed x w (resumed env x w) :=
  undisturbed_of_keeps fun _ => .resume x

/-! ### One start -/

/-- What `start_execution` comes down to: nothing, or a run that begins, its loop, and
what follows the loop. -/
theorem started_of {I : World → Prop} (hI : startable cfg x w = none → I w)
    (h : ∀ e workflow, startable cfg x w = some (e, workflow) →
      (beginRun cfg e workflow).wp (handler env)
        (fun run w₁ => (((runNodes run).flatten cfg >>= fun _ => concludeRun run).rescue
          (handleException run)).wp (handler env) (fun _ => I) (fun _ => I) w₁)
        (fun _ => I) w) : I (started cfg env x w) := by
  refine Program.wp_state.mp ?_
  rw [startExecution, flatten_bind, flatten_lift, wp_getExecution]
  rcases hrow : w.db.executions.get x with - | e
  · exact wp_of_raise (hI (by simp [startable, hrow]))
  show Program.wp _ _ _ (flatten cfg (Program.ofExcept _ >>= _)) w
  by_cases hterminal : e.status.isTerminal = true
  · rw [rejectTerminalExecutionReplay, if_pos hterminal]
    exact wp_of_raise (hI (by simp [startable, hrow, hterminal]))
  rw [rejectTerminalExecutionReplay, if_neg hterminal]
  rcases hworkflow : cfg.workflow e.workflowId with - | workflow
  · simp only [Program.ofExcept_ok, done_bind]
    exact wp_of_raise (hI (by simp [startable, hrow, hworkflow]))
  have hstartable : startable cfg x w = some (e, workflow) := by
    simp [startable, hrow, hterminal, hworkflow]
  simp only [Program.ofExcept_ok, done_bind]
  rw [flatten_bind, flatten_lift]
  refine wp_seq (h e workflow hstartable) fun run w₁ hrun => ?_
  rw [flatten_bind, flatten_rescue, Program.wp_bind, runWorkflow_eq,
    flatten_bind]
  simp only [flatten_lift]
  refine wp_mono hrun (fun _ w₂ hw₂ => ?_) fun _ _ h' => h'
  -- the object is read and returned
  exact (wp_process_last (.object run.ref)).mpr hw₂

theorem startable_eq_some {e : Execution} {workflow : WorkflowDefinition} :
    startable cfg x w = some (e, workflow) ↔ w.db.executions.get x = some e ∧
      e.status.isTerminal = false ∧ cfg.workflow e.workflowId = some workflow := by
  unfold startable
  rcases w.db.executions.get x with - | row
  · simp
  · rcases hterminal : row.status.isTerminal with - | -
    · rcases hworkflow : cfg.workflow row.workflowId with - | wf
      · simp only [hterminal, hworkflow]
        constructor
        · intro h
          cases h
        · rintro ⟨⟨⟩, -, h⟩
          rw [hworkflow] at h
          cases h
      · simp only [hterminal, hworkflow]
        constructor
        · rintro ⟨⟩
          exact ⟨rfl, hterminal, hworkflow⟩
        · rintro ⟨⟨⟩, -, h⟩
          rw [hworkflow] at h
          cases h
          rfl
    · simp only [hterminal]
      constructor
      · intro h
        cases h
      · rintro ⟨⟨⟩, h, -⟩
        rw [hterminal] at h
        cases h

/-- What follows the loop. -/
def afterLoop (run : RunContext) : Except RuntimeException Unit → Coroutine Unit
  | .ok () => (concludeRun run).rescue (handleException run)
  | .error exc => handleException run exc

section Started

variable {e : Execution}

/-- **One start, by the outcome of its cycle.**  A property that the start of a cycle
establishes holds when the loop ends; what follows the loop decides the rest. -/
theorem started_by_outcome (holds : PersistentCycle → PersistentCyclePolicy → Prop)
    (waits : ExecutionWaitKind → Prop) (hrow : w.db.executions.get x = some e)
    (henabled : e.metadata.persistentCyclePolicy.enabled = true) (hwaits : waits .approval)
    (hholds : ∀ now, holds (e.metadata.persistentCycle.start now) e.metadata.persistentCyclePolicy)
    {I : World → Prop} (hunchanged : cycleOutcome cfg env x w = none → I w)
    (hbegin : cycleOutcome cfg env x w = none → ∀ w₁ ref,
      (⟨x, some ref, holds, waits⟩ : CycleFrame).Invariant w w₁ → I w₁)
    (hafter : ∀ run r w₂, cycleOutcome cfg env x w = some (.ofLoop (w₂.proc.nodeErrors x) r) →
      run.state.executionId = x → run.policy = e.metadata.persistentCyclePolicy →
      (⟨x, some run.ref, holds, waits⟩ : CycleFrame).Invariant w w₂ →
      (afterLoop run r).wp (handler env) (fun _ => I) (fun _ => I) w₂) :
    I (started cfg env x w) := by
  refine started_of (fun hnone => hunchanged (by simp [cycleOutcome, hnone]))
    fun e' workflow hstartable => ?_
  obtain ⟨hrow', -, -⟩ := startable_eq_some.mp hstartable
  obtain rfl : e' = e := Option.some.inj (hrow'.symm.trans hrow)
  have hbegun : (beginRun cfg e' workflow).wp (handler env)
      (fun run w₁ => run.state.executionId = x ∧ run.policy = e'.metadata.persistentCyclePolicy ∧
        (⟨x, some run.ref, holds, waits⟩ : CycleFrame).Invariant w w₁)
      (fun _ w₁ => ∃ ref, (⟨x, some ref, holds, waits⟩ : CycleFrame).Invariant w w₁) w := by
    refine CycleFrame.wp_beginRun (key_of_get hrow) (fun now => ?_)
      (fun run w₁ _ _ hx hpolicy hinv => ⟨hx, hpolicy, hinv⟩) fun _ w₁ ref hinv => ⟨ref, hinv⟩
    rw [if_pos henabled]
    exact hholds now
  rw [Program.wp_iff_run] at hbegun ⊢
  refine ⟨fun run w₁ hrun => ?_, fun exc w₁ hrun => ?_⟩
  · obtain ⟨hx, hpolicy, hinv⟩ := hbegun.1 run w₁ hrun
    rcases hloop : ((runNodes run).flatten cfg).run (handler env) w₁ with ⟨r, w₂⟩
    have hkeeps := (CycleFrame.keepsRun_runNodes (F := ⟨x, some run.ref, holds, waits⟩) rfl hx).flatten
      hwaits cfg
    have hinv₂ : (⟨x, some run.ref, holds, waits⟩ : CycleFrame).Invariant w
        (((runNodes run).flatten cfg).run (handler env) w₁).2 :=
      Program.wp_state.mp (hkeeps.wp hinv)
    rw [hloop] at hinv₂
    have houtcome : cycleOutcome cfg env x w = some (.ofLoop (w₂.proc.nodeErrors x) r) := by
      simp [cycleOutcome, hstartable, hrun, hloop]
    have hafter' := hafter run r w₂ houtcome hx hpolicy hinv₂
    cases r with
    | error exc =>
      rw [wp_rescue, Program.wp_bind, Program.wp_of_run_error hloop]
      exact hafter'
    | ok _ =>
      rw [wp_rescue, Program.wp_bind, Program.wp_of_run_ok hloop]
      rw [afterLoop, wp_rescue] at hafter'
      exact hafter'
  · obtain ⟨ref, hinv⟩ := hbegun.2 exc w₁ hrun
    exact hbegin (by simp [cycleOutcome, hstartable, hrun]) w₁ ref hinv

end Started

/-! ### The number of cycles -/

namespace CycleFrame

/-- The frame of a cycle whose number is `n` and that names no next one but `n + 1`. -/
def numbered (x : Uuid) (ref n : ℕ) (policy : PersistentCyclePolicy) : CycleFrame where
  executionId := x
  ref := some ref
  holds c q := c.number = n ∧ (c.nextCycleNumber = none ∨ c.nextCycleNumber = some (n + 1)) ∧
    q = policy
  waits _ := True

/-- However a cycle ends, the next one is the same or its successor. -/
theorem closed_numbered (x : Uuid) (ref n : ℕ) (policy policy' : PersistentCyclePolicy) :
    (numbered x ref n policy).Closed policy' := by
  refine ⟨?_, ?_, ?_, ?_, ?_⟩
  · intro c q signature now h
    exact ⟨(number_complete _ _ _ _).trans h.1, h.2⟩
  · intro c q error now h
    exact ⟨(number_fail _ _ _ _).trans h.1, h.2⟩
  · intro c q reason h
    exact h
  · intro c q reason h
    refine ⟨h.1, .inr ?_, h.2.2⟩
    rw [← h.1]
  · intro read q' c q wakeAt hread h
    refine ⟨h.1, .inr ?_, h.2.2⟩
    rw [← hread.1]

end CycleFrame

section Bound

variable {e : Execution} {N : ℕ}

/-- The cycle that begins here is not one numbered `N` that fails. -/
def NoFailureAt (cfg : EngineConfig) (env : Environment) (x : Uuid) (N : ℕ) (w : World) : Prop :=
  begins cfg x w = some N → ∀ o, cycleOutcome cfg env x w = some o → o.isFailure = false

/-- A cycle that has an outcome has begun. -/
theorem begins_of_outcome {o : CycleOutcome} (hrow : w.db.executions.get x = some e)
    (henabled : e.metadata.persistentCyclePolicy.enabled = true)
    (h : cycleOutcome cfg env x w = some o) :
    begins cfg x w = some e.metadata.persistentCycle.startNumber := by
  unfold cycleOutcome at h
  rcases hstartable : startable cfg x w with - | ⟨e', workflow⟩
  · rw [hstartable] at h
    cases h
  · obtain ⟨hrow', -, -⟩ := startable_eq_some.mp hstartable
    obtain rfl : e' = e := Option.some.inj (hrow'.symm.trans hrow)
    simp [begins, hstartable, henabled]

/-- The next cycle is numbered `N` at most, under this policy. -/
abbrev StaysBelow (x : Uuid) (N : ℕ) (policy : PersistentCyclePolicy) (w : World) : Prop :=
  CycleFrame.RowHolds x (fun c q => c.startNumber ≤ N ∧ q = policy) w

/-- **One start keeps the bound**, unless its cycle is the last one and fails. -/
theorem started_bounded (hrow : w.db.executions.get x = some e)
    (henabled : e.metadata.persistentCyclePolicy.enabled = true)
    (hmax : e.metadata.persistentCyclePolicy.maxCycles = some N)
    (hle : e.metadata.persistentCycle.startNumber ≤ N) (hC : NoFailureAt cfg env x N w) :
    StaysBelow x N e.metadata.persistentCyclePolicy (started cfg env x w) := by
  have hunchanged : StaysBelow x N e.metadata.persistentCyclePolicy w := ⟨e, hrow, hle, rfl⟩
  rcases Nat.lt_or_eq_of_le hle with hlt | heq
  · -- the next number is at most one more
    let n := e.metadata.persistentCycle.startNumber
    let F := fun ref => CycleFrame.numbered x ref n e.metadata.persistentCyclePolicy
    have hrowHolds : ∀ ref w', (F ref).Invariant w w' →
        StaysBelow x N e.metadata.persistentCyclePolicy w' := by
      intro ref w' h
      obtain ⟨e', he', hnumber, hnext, hpolicy⟩ := h.row
      refine ⟨e', he', ?_, hpolicy⟩
      rcases hnext with hnext | hnext
      · rw [startNumber_of_next_none hnext, hnumber]
        exact hle
      · rw [startNumber_of_next hnext]
        exact hlt
    refine started_by_outcome (F 0).holds (F 0).waits hrow henabled trivial (fun now => ?_)
      (fun _ => hunchanged) (fun _ w₁ ref h => hrowHolds ref w₁ h) fun run r w₂ _ hx hpolicy h => ?_
    · exact ⟨number_start _ now, .inl rfl, rfl⟩
    · have hclosed := CycleFrame.closed_numbered x run.ref n
        e.metadata.persistentCyclePolicy run.policy
      have hkeeps : (F run.ref).Keeps (afterLoop run r) := by
        rcases r with exc | -
        · exact .handleException hclosed (fun _ => trivial) rfl hx exc
        · exact .rescue (.concludeRun hclosed (fun _ => trivial) rfl)
            (.handleException hclosed (fun _ => trivial) rfl hx)
      exact wp_mono (hkeeps.wp h) (fun _ w' => hrowHolds run.ref w')
        fun _ w' => hrowHolds run.ref w'
  · -- the last cycle names no next one
    let F := fun ref => CycleFrame.lastCycle x ref N e.metadata.persistentCyclePolicy
    have hrowHolds : ∀ ref w', (F ref).Invariant w w' →
        StaysBelow x N e.metadata.persistentCyclePolicy w' := by
      intro ref w' h
      obtain ⟨e', he', hnumber, hnext, hpolicy⟩ := h.row
      refine ⟨e', he', ?_, hpolicy⟩
      rw [startNumber_of_next_none hnext, hnumber]
    refine started_by_outcome (F 0).holds (F 0).waits hrow henabled trivial (fun now => ?_)
      (fun _ => hunchanged) (fun _ w₁ ref h => hrowHolds ref w₁ h)
      fun run r w₂ houtcome hx hpolicy h => ?_
    · exact ⟨(number_start _ now).trans heq, rfl, rfl⟩
    · have hsuccess := hC (heq ▸ begins_of_outcome hrow henabled houtcome) _ houtcome
      rcases r with exc | ⟨⟩
      · have hinterrupted : (exc.cls.isExecutionPaused || exc.cls = .executionCancelled) = true := by
          by_contra hne
          rw [CycleOutcome.ofLoop, if_neg hne] at hsuccess
          cases hsuccess
        exact wp_mono ((CycleFrame.Keeps.handleInterruption rfl hx hinterrupted).wp h)
          (fun _ w' => hrowHolds run.ref w') fun _ w' => hrowHolds run.ref w'
      · have hclean : w₂.proc.nodeErrors x = [] := by
          by_contra hne
          rw [CycleOutcome.ofLoop, if_neg hne] at hsuccess
          cases hsuccess
        rw [afterLoop, wp_rescue]
        subst hx
        have hlast : (concludeRun run).wp (handler env)
            (fun _ => (CycleFrame.lastCycle run.state.executionId run.ref N run.policy).Invariant w)
            (fun _ _ => False) w₂ := by
          apply CycleFrame.wp_concludeRun_last
          · rw [hpolicy]
            exact henabled
          · simp [hpolicy, hmax]
          · rw [hpolicy]
            exact h
          · exact hclean
        rw [hpolicy] at hlast
        exact wp_mono hlast (fun _ w' => hrowHolds run.ref w') fun _ w' h => h.elim

variable {w' : World} {failed : ℕ}

variable {policy : PersistentCyclePolicy}

theorem bounded_of_undisturbed (h : StaysBelow x N policy w) (hs : Undisturbed x w w') :
    StaysBelow x N policy w' := by
  obtain ⟨e, hrow, hle, hpolicy⟩ := h
  obtain ⟨e', hrow', hsame⟩ := hs e hrow
  refine ⟨e', hrow', ?_, hsame.policy.trans hpolicy⟩
  rw [hsame.cycle]
  exact hle

/-- Every world of the run is bounded. -/
theorem MonitorRun.bounded (hmax : policy.maxCycles = some N) (henabled : policy.enabled = true)
    (h : StaysBelow x N policy w)
    (hrun : MonitorRun cfg env x (NoFailureAt cfg env x N) w w' failed) :
    StaysBelow x N policy w' := by
  induction hrun with
  | refl => exact h
  | start _ hC ih =>
    obtain ⟨e, hrow, hle, rfl⟩ := ih
    exact started_bounded hrow henabled hmax hle hC
  | resume _ ih => exact bounded_of_undisturbed ih undisturbed_resumed
  | other _ hs ih => exact bounded_of_undisturbed ih hs

theorem startNumber_of_begins {n : ℕ} (hrow : w.db.executions.get x = some e)
    (h : begins cfg x w = some n) : e.metadata.persistentCycle.startNumber = n := by
  unfold begins at h
  rcases hstartable : startable cfg x w with - | ⟨e', workflow⟩
  · rw [hstartable] at h
    cases h
  · obtain ⟨hrow', -, -⟩ := startable_eq_some.mp hstartable
    obtain rfl : e' = e := Option.some.inj (hrow'.symm.trans hrow)
    rw [hstartable, Option.bind_some] at h
    dsimp only at h
    by_cases henabled : e'.metadata.persistentCyclePolicy.enabled = true
    · rw [if_pos henabled] at h
      exact Option.some.inj h
    · rw [if_neg henabled] at h
      cases h

/-- **No cycle is numbered above `max_cycles`**, in a run in which the cycle of that
number does not fail. -/
theorem begins_le_maxCycles {policy : PersistentCyclePolicy} (hpos : 0 < N)
    (hmax : policy.maxCycles = some N) (henabled : policy.enabled = true)
    (hrow : w.db.executions.get x = some e) (hpolicy : e.metadata.persistentCyclePolicy = policy)
    (hfresh : e.metadata.persistentCycle = {})
    (hrun : MonitorRun cfg env x (NoFailureAt cfg env x N) w w' failed) {n : ℕ}
    (hn : begins cfg x w' = some n) : n ≤ N := by
  have hfirst : StaysBelow x N policy w := by
    refine ⟨e, hrow, ?_, hpolicy⟩
    rw [hfresh]
    exact hpos
  obtain ⟨e', hrow', hle, -⟩ := hrun.bounded hmax henabled hfirst
  rw [← startNumber_of_begins hrow' hn]
  exact hle

end Bound

/-! ### Failures in a row -/

section Guard

variable {e : Execution} {policy : PersistentCyclePolicy}

/-- The execution sleeps in `w'` on no wait that was not pending in `w`. -/
def SchedulesNothing (x : Uuid) (w w' : World) : Prop :=
  ∀ i row, w'.db.waits.get i = some row → row.wait.executionId = x → row.wait.kind = .sleep →
    row.wait.status = .pending → ∃ row₀, w.db.waits.get i = some row₀ ∧
      row₀.wait.executionId = x ∧ row₀.wait.kind = .sleep ∧ row₀.wait.status = .pending

/-- What the guard promises of the cycle that begins in `w` after so many failed ones. -/
structure FailureGuard (cfg : EngineConfig) (env : Environment) (x : Uuid)
    (policy : PersistentCyclePolicy) (w : World) (failed : ℕ) : Prop where
  /-- A failed cycle that makes the failures in a row enough is the guard's. -/
  guards : ∀ o, cycleOutcome cfg env x w = some o → o.isFailure = true →
    policy.maxConsecutiveFailures ≤ o.streak failed →
    CycleFrame.GuardTriggered x (started cfg env x w) ∧ SchedulesNothing x w (started cfg env x w)
  /-- Only a cycle without failed nodes resets the count. -/
  resets : ∀ e e', w.db.executions.get x = some e →
    (started cfg env x w).db.executions.get x = some e' →
    e'.metadata.persistentCycle.consecutiveFailures = 0 →
    e.metadata.persistentCycle.consecutiveFailures = 0 ∨ cycleOutcome cfg env x w = some .clean

/-- The frame of a cycle that starts after `k` consecutive failures. -/
def counting (x : Uuid) (ref k : ℕ) (policy : PersistentCyclePolicy) : CycleFrame where
  executionId := x
  ref := some ref
  holds c q := c.consecutiveFailures = k ∧ q = policy
  waits kind := kind ≠ .sleep

theorem schedulesNothing_of_counting {w₁ w₂ : World} {ref k : ℕ}
    (h : (counting x ref k policy).Invariant w w₁) (hwaits : w₂.db.waits = w₁.db.waits) :
    SchedulesNothing x w w₂ := by
  intro i row hi hx hsleep hp
  rw [hwaits] at hi
  obtain ⟨row₀, hi₀, hp₀, hkind, hexecution⟩ := h.waits i row hi hp (fun hne => hne hsleep)
  exact ⟨row₀, hi₀, hexecution.trans hx, hkind.trans hsleep, hp₀⟩

/-- A cycle that has not ended keeps the count. -/
theorem started_of_not_ended (hrow : w.db.executions.get x = some e)
    (henabled : e.metadata.persistentCyclePolicy.enabled = true)
    (h : cycleOutcome cfg env x w = none ∨ cycleOutcome cfg env x w = some .interrupted) :
    CycleFrame.RowHolds x
      (fun c q => c.consecutiveFailures = e.metadata.persistentCycle.consecutiveFailures ∧
        q = e.metadata.persistentCyclePolicy) (started cfg env x w) := by
  let F := fun ref => counting x ref e.metadata.persistentCycle.consecutiveFailures
    e.metadata.persistentCyclePolicy
  refine started_by_outcome (F 0).holds (F 0).waits hrow henabled nofun
    (fun now => ⟨rfl, rfl⟩) (fun _ => ⟨e, hrow, rfl, rfl⟩) (fun _ w₁ ref h => h.row)
    fun run r w₂ houtcome hx hpolicy hinv => ?_
  rcases h with h | h
  · rw [h] at houtcome
    cases houtcome
  · rw [h, Option.some.injEq] at houtcome
    rcases r with exc | ⟨⟩
    · have hinterrupted : (exc.cls.isExecutionPaused || exc.cls = .executionCancelled) = true := by
        by_contra hne
        rw [CycleOutcome.ofLoop, if_neg hne] at houtcome
        cases houtcome
      exact wp_mono ((CycleFrame.Keeps.handleInterruption rfl hx hinterrupted).wp hinv)
        (fun _ w' h' => h'.row) fun _ w' h' => h'.row
    · rw [CycleOutcome.ofLoop] at houtcome
      split at houtcome <;> cases houtcome

/-- A cycle that raises is counted, and guarded once the count is high enough. -/
theorem started_of_exception (hrow : w.db.executions.get x = some e)
    (henabled : e.metadata.persistentCyclePolicy.enabled = true)
    (h : cycleOutcome cfg env x w = some .exception) :
    CycleFrame.RowHolds x
      (fun c q => e.metadata.persistentCycle.consecutiveFailures < c.consecutiveFailures ∧
        q = e.metadata.persistentCyclePolicy) (started cfg env x w) ∧
    (e.metadata.persistentCyclePolicy.maxConsecutiveFailures ≤
        e.metadata.persistentCycle.consecutiveFailures + 1 →
      CycleFrame.GuardTriggered x (started cfg env x w) ∧
        SchedulesNothing x w (started cfg env x w)) := by
  have hnone : cycleOutcome cfg env x w ≠ none := by
    rw [h]
    exact Option.some_ne_none _
  let F := fun ref => counting x ref e.metadata.persistentCycle.consecutiveFailures
    e.metadata.persistentCyclePolicy
  let I := fun w' => CycleFrame.RowHolds x
      (fun c q => e.metadata.persistentCycle.consecutiveFailures < c.consecutiveFailures ∧
        q = e.metadata.persistentCyclePolicy) w' ∧
    (e.metadata.persistentCyclePolicy.maxConsecutiveFailures ≤
        e.metadata.persistentCycle.consecutiveFailures + 1 →
      CycleFrame.GuardTriggered x w' ∧ SchedulesNothing x w w')
  show I (started cfg env x w)
  refine started_by_outcome (F 0).holds (F 0).waits hrow henabled nofun
    (fun now => ⟨rfl, rfl⟩) (fun h' => absurd h' hnone) (fun h' => absurd h' hnone)
    fun run r w₂ houtcome hx hpolicy hinv => ?_
  rw [h, Option.some.injEq] at houtcome
  rcases r with exc | ⟨⟩
  · have hraised : ¬ (exc.cls.isExecutionPaused || exc.cls = .executionCancelled) = true := by
      intro hinterrupted
      rw [CycleOutcome.ofLoop, if_pos hinterrupted] at houtcome
      cases houtcome
    have hpaused : ¬ exc.cls.isExecutionPaused = true := by
      intro hp
      simp [hp] at hraised
    have hcancelled : ¬ exc.cls = .executionCancelled := by
      intro hc
      simp [hc] at hraised
    rw [afterLoop, handleException, if_neg hpaused, if_neg hcancelled, hpolicy, if_pos henabled]
    have hinv' : (counting x run.ref e.metadata.persistentCycle.consecutiveFailures
        run.policy).Invariant w w₂ := by
      rw [hpolicy]
      exact hinv
    refine CycleFrame.wp_handlePersistentCycleFailure hinv' hx ?_ ?_
    · intro hlimit w' hwaits hguard hholds
      rw [hpolicy] at hholds
      exact ⟨hholds, fun _ => ⟨hguard, schedulesNothing_of_counting hinv hwaits⟩⟩
    · intro hlimit w' hholds
      rw [hpolicy] at hholds hlimit
      have hI : I w' := ⟨hholds, fun hle => absurd hle hlimit⟩
      exact ⟨hI, fun _ => hI⟩
  · rw [CycleOutcome.ofLoop] at houtcome
    split at houtcome <;> cases houtcome

/-- Whatever a cycle leads to, the policy stays. -/
theorem started_keeps_policy (hrow : w.db.executions.get x = some e)
    (henabled : e.metadata.persistentCyclePolicy.enabled = true) :
    CycleFrame.RowHolds x (fun _ q => q = e.metadata.persistentCyclePolicy)
      (started cfg env x w) := by
  let F : ℕ → CycleFrame := fun ref =>
    ⟨x, some ref, fun _ q => q = e.metadata.persistentCyclePolicy, fun _ => True⟩
  have hclosed : ∀ ref policy, (F ref).Closed policy := fun ref policy =>
    ⟨fun _ _ _ _ h => h, fun _ _ _ _ h => h, fun _ _ _ h => h, fun _ _ _ h => h,
      fun _ _ _ _ _ _ h => h⟩
  refine started_by_outcome (F 0).holds (F 0).waits hrow henabled trivial (fun now => rfl)
    (fun _ => ⟨e, hrow, rfl⟩) (fun _ w₁ ref h => h.row) fun run r w₂ houtcome hx hpolicy hinv => ?_
  have hkeeps : (F run.ref).Keeps (afterLoop run r) := by
    rcases r with exc | -
    · exact .handleException (hclosed _ _) (fun _ => trivial) rfl hx exc
    · exact .rescue (.concludeRun (hclosed _ _) (fun _ => trivial) rfl)
        (.handleException (hclosed _ _) (fun _ => trivial) rfl hx)
  exact wp_mono (hkeeps.wp hinv) (fun _ w' h' => h'.row) fun _ w' h' => h'.row

variable {failed : ℕ}

/-- The count of the row is never below the failures in a row, if no cycle completes
with failed nodes. -/
theorem started_counts (hrow : w.db.executions.get x = some e)
    (henabled : e.metadata.persistentCyclePolicy.enabled = true)
    (hle : failed ≤ e.metadata.persistentCycle.consecutiveFailures)
    (hC : cycleOutcome cfg env x w ≠ some .failedNodes) :
    CycleFrame.RowHolds x
      (fun c q => (cycleOutcome cfg env x w).elim failed (CycleOutcome.streak failed) ≤
          c.consecutiveFailures ∧ q = e.metadata.persistentCyclePolicy) (started cfg env x w) := by
  rcases houtcome : cycleOutcome cfg env x w with - | o
  · obtain ⟨e', hrow', hcount, hpolicy⟩ := started_of_not_ended hrow henabled (.inl houtcome)
    refine ⟨e', hrow', ?_, hpolicy⟩
    rw [hcount]
    exact hle
  cases o with
  | clean =>
    obtain ⟨e', hrow', hpolicy⟩ := started_keeps_policy hrow henabled
    exact ⟨e', hrow', Nat.zero_le _, hpolicy⟩
  | failedNodes => exact absurd houtcome hC
  | exception =>
    obtain ⟨e', hrow', hcount, hpolicy⟩ := (started_of_exception hrow henabled houtcome).1
    refine ⟨e', hrow', ?_, hpolicy⟩
    show failed + 1 ≤ _
    omega
  | interrupted =>
    obtain ⟨e', hrow', hcount, hpolicy⟩ := started_of_not_ended hrow henabled (.inr houtcome)
    refine ⟨e', hrow', ?_, hpolicy⟩
    rw [hcount]
    exact hle

theorem counts_of_undisturbed {w' : World}
    (h : CycleFrame.RowHolds x (fun c q => failed ≤ c.consecutiveFailures ∧ q = policy) w)
    (hs : Undisturbed x w w') :
    CycleFrame.RowHolds x (fun c q => failed ≤ c.consecutiveFailures ∧ q = policy) w' := by
  obtain ⟨e, hrow, hle, hpolicy⟩ := h
  obtain ⟨e', hrow', hsame⟩ := hs e hrow
  refine ⟨e', hrow', ?_, hsame.policy.trans hpolicy⟩
  rw [hsame.cycle]
  exact hle

theorem MonitorRun.counts {w' : World} (henabled : policy.enabled = true)
    (hrow : w.db.executions.get x = some e) (hpolicy : e.metadata.persistentCyclePolicy = policy)
    (hrun : MonitorRun cfg env x (fun v => cycleOutcome cfg env x v ≠ some .failedNodes) w w'
      failed) :
    CycleFrame.RowHolds x (fun c q => failed ≤ c.consecutiveFailures ∧ q = policy) w' := by
  induction hrun with
  | refl => exact ⟨e, hrow, Nat.zero_le _, hpolicy⟩
  | start _ hC ih =>
    obtain ⟨e', hrow', hle, rfl⟩ := ih
    exact started_counts hrow' henabled hle hC
  | resume _ ih => exact counts_of_undisturbed ih undisturbed_resumed
  | other _ hs ih => exact counts_of_undisturbed ih hs

/-- **Enough failed cycles in a row trigger the guard**, in a run in which no cycle
completes with failed nodes. -/
theorem failureGuard {w' : World} {failed : ℕ} (henabled : policy.enabled = true)
    (hrow : w.db.executions.get x = some e) (hpolicy : e.metadata.persistentCyclePolicy = policy)
    (hrun : MonitorRun cfg env x (fun v => cycleOutcome cfg env x v ≠ some .failedNodes) w w'
      failed)
    (hC : cycleOutcome cfg env x w' ≠ some .failedNodes) :
    FailureGuard cfg env x policy w' failed := by
  obtain ⟨e', hrow', hle, rfl⟩ := hrun.counts henabled hrow hpolicy
  constructor
  · intro o houtcome hfailure hstreak
    cases o with
    | clean => cases hfailure
    | interrupted => cases hfailure
    | failedNodes => exact absurd houtcome hC
    | exception =>
      refine (started_of_exception hrow' henabled houtcome).2 ?_
      have hstreak' : e'.metadata.persistentCyclePolicy.maxConsecutiveFailures ≤ failed + 1 :=
        hstreak
      omega
  · intro e₁ e₂ hrow₁ hrow₂ hzero
    obtain rfl : e₁ = e' := Option.some.inj (hrow₁.symm.trans hrow')
    rcases houtcome : cycleOutcome cfg env x w' with - | o
    · obtain ⟨e₃, hrow₃, hcount, -⟩ := started_of_not_ended hrow' henabled (.inl houtcome)
      obtain rfl : e₂ = e₃ := Option.some.inj (hrow₂.symm.trans hrow₃)
      exact .inl (hcount.symm.trans hzero)
    cases o with
    | clean => exact .inr rfl
    | failedNodes => exact absurd houtcome hC
    | exception =>
      obtain ⟨e₃, hrow₃, hcount, -⟩ := (started_of_exception hrow' henabled houtcome).1
      obtain rfl : e₂ = e₃ := Option.some.inj (hrow₂.symm.trans hrow₃)
      omega
    | interrupted =>
      obtain ⟨e₃, hrow₃, hcount, -⟩ := started_of_not_ended hrow' henabled (.inr houtcome)
      obtain rfl : e₂ = e₃ := Option.some.inj (hrow₂.symm.trans hrow₃)
      exact .inl (hcount.symm.trans hzero)

end Guard

/-! ### A monitor whose node fails -/

namespace FailingMonitor

/-- One task, which asks one agent. -/
def workflow : WorkflowDefinition where
  id := "w"
  name := "w"
  entrypoint := "n"
  nodes := [{ id := "n", nodeType := .task, taskId := some "t" }]
  taskDefinitions := [{ id := "t", name := "t", agentId := some "a", modelProfileId := some "p" }]
  agentDefinitions := [{ id := "a", name := "a" }]

def engine : EngineConfig := { EngineConfig.bare with workflow := fun _ => some workflow }

/-- A model that cannot be reached. -/
def unreachable : Environment := .counting fun
  | _, .generateText _ _ _ => .error ⟨.runtimeError, "model is not available"⟩
  | n, o => ExtOp.silent n o

/-- A model whose answer says that the task has failed. -/
def reporting : Environment := .counting fun
  | _, .generateText _ _ _ =>
    .ok { content := some (.obj [("status", .str "failed")]), usage := {} }
  | n, o => ExtOp.silent n o

def policy (maxCycles : ℕ) : PersistentCyclePolicy where
  enabled := true
  maxCycles := some maxCycles
  maxConsecutiveFailures := 1

def monitor (maxCycles : ℕ) : Execution where
  id := 0
  workflowId := "w"
  metadata := { persistentCyclePolicy := policy maxCycles }

def world (maxCycles : ℕ) : World where
  db := { executions := empty.save (monitor maxCycles) }

end FailingMonitor

open FailingMonitor

/-- Of two cycles the first one succeeds, and the second one begins. -/
theorem begins_le_maxCycles_two : begins engine 0 (started engine .silent 0 (world 2)) = some 2 ∧ 2 ≤ 2 := by
  have hbegins : begins engine 0 (started engine .silent 0 (world 2)) = some 2 := by decide +kernel
  have hmax : (policy 2).maxCycles = some 2 := rfl
  refine ⟨hbegins, begins_le_maxCycles (by decide) hmax rfl
    (get_save_self _ (monitor 2)) rfl rfl (.start .refl ?_) hbegins⟩
  intro h
  have hfirst : begins engine 0 (world 2) = some 1 := by decide +kernel
  rw [hfirst] at h
  cases h

/-- The only cycle fails, and a second one begins. -/
theorem begins_after_maxCycles :
    ¬ (∀ (cfg : EngineConfig) (env : Environment) (x N : ℕ) (w : World) (e : Execution),
        0 < N → e.metadata.persistentCyclePolicy.maxCycles = some N →
        e.metadata.persistentCyclePolicy.enabled = true → w.db.executions.get x = some e →
        e.metadata.persistentCycle = {} → ∀ w' failed,
        MonitorRun cfg env x (fun _ => True) w w' failed →
        ∀ n, begins cfg x w' = some n → n ≤ N) := by
  intro h
  have hsecond : begins engine 0 (started engine unreachable 0 (world 1)) = some 2 := by decide +kernel
  have hle := h engine unreachable 0 1 (world 1) (monitor 1) (by decide) rfl rfl
    (get_save_self _ (monitor 1)) rfl _ _ (.start .refl trivial) 2 hsecond
  omega

/-- The first cycle raises, which is enough for the guard. -/
theorem failureGuard_one : FailureGuard engine unreachable 0 (policy 3) (world 3) 0 := by
  refine failureGuard rfl (get_save_self _ (monitor 3)) rfl .refl ?_
  decide +kernel

/-- The only node fails, the cycle completes, and the next one is scheduled. -/
theorem failedNodes_not_guarded :
    ¬ (∀ (cfg : EngineConfig) (env : Environment) (x : Uuid) (w : World) (e : Execution),
        e.metadata.persistentCyclePolicy.enabled = true → w.db.executions.get x = some e →
        ∀ w' failed, MonitorRun cfg env x (fun _ => True) w w' failed →
        FailureGuard cfg env x e.metadata.persistentCyclePolicy w' failed) := by
  intro h
  have hguard := h engine reporting 0 (world 3) (monitor 3) rfl (get_save_self _ (monitor 3)) _ _
    .refl
  have houtcome : cycleOutcome engine reporting 0 (world 3) = some .failedNodes := by decide +kernel
  obtain ⟨⟨e, hrow, hpaused, -⟩, -⟩ := hguard.guards _ houtcome rfl (by decide)
  have hsleeping : ((started engine reporting 0 (world 3)).db.executions.get 0).map (·.status) =
      some .sleeping := by decide +kernel
  rw [hrow, Option.map_some, hpaused] at hsleeping
  cases hsleeping

end OpenAgency
