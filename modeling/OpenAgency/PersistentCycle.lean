/-
PersistentCycle.lean

The persistent monitor.  A workflow with a cycle policy does not complete: after
each pass the engine records the cycle on its `Execution` object and either stops
for a guard or schedules the next cycle, by saving the object as paused, storing
a sleep wait under the number of the next cycle, and saving the object again as
sleeping on that wait.

Everything here works on the object numbered `ref` of the engine; the delays that
only the metadata displays are left out.
-/
import OpenAgency.AgentExecutor

namespace OpenAgency

open Interaction

/-- `next(reversed(node_outputs.values()), None)`. -/
def finalOutput (nodeOutputs : Dict Json) : Option Json := nodeOutputs.getLast?.map Prod.snd

/-- `_execution_checkpoint_payload`: a transcript that an earlier payload holds is
kept. -/
def executionCheckpointPayload (st : NativeExecutionState) (prior : Option OutputPayload) :
    OutputPayload where
  nodeOutputs := st.nodeOutputs
  finalOutput := finalOutput st.nodeOutputs
  checkpoint := some { positionCheckpoint st with
    approvalContinuation := (prior.bind (·.checkpoint)).bind (·.approvalContinuation) }

/-- A count that `_positive_int` accepts. -/
def positiveInt (n : Option ℕ) : Option ℕ := n.filter (0 < ·)

namespace PersistentCycle

/-- `_positive_int(cycle.get("cycle_number")) or 1`. -/
def number (c : PersistentCycle) : ℕ := (positiveInt c.cycleNumber).getD 1

/-- `_append_cycle_history`, which keeps the last `history_limit` items. -/
def appendHistory (c : PersistentCycle) (policy : PersistentCyclePolicy)
    (item : CycleHistoryItem) : PersistentCycle :=
  { c with history := (c.history ++ [item]).drop (c.history.length + 1 - policy.historyLimit) }

/-- A cycle starts: it takes the number the previous one left for it. -/
def start (c : PersistentCycle) (now : Time) : PersistentCycle :=
  { c with
    cycleNumber := some ((positiveInt c.nextCycleNumber <|> positiveInt c.cycleNumber).getD 1)
    phase := some .running
    cycleStartedAt := some now
    nextCycleNumber := none
    nextWakeAt := none }

/-- A cycle has completed with an output of the given signature. -/
def complete (c : PersistentCycle) (policy : PersistentCyclePolicy) (signature : String)
    (now : Time) : PersistentCycle :=
  { c with
    cycleNumber := some c.number
    consecutiveFailures := 0
    noProgressCycles :=
      if c.lastProgressSignature = some signature then c.noProgressCycles + 1 else 0
    lastProgressSignature := some signature
    lastCycleCompletedAt := some now
    lastCycleStatus := some .completed
    lastError := none }.appendHistory policy ⟨c.number, .completed, now, signature⟩

/-- A cycle has failed. -/
def fail (c : PersistentCycle) (policy : PersistentCyclePolicy) (error : String) (now : Time) :
    PersistentCycle :=
  { c with
    cycleNumber := some c.number
    consecutiveFailures := c.consecutiveFailures + 1
    lastCycleCompletedAt := some now
    lastCycleStatus := some .failed
    lastError := some error }.appendHistory policy ⟨c.number, .failed, now, error⟩

/-- `terminal_reason`: the completed cycle was the last one. -/
def terminalReasonFor (c : PersistentCycle) (policy : PersistentCyclePolicy) (now : Time) :
    Option String :=
  if policy.maxCycles.any (· ≤ c.number) then some "max_cycles_reached"
  else if policy.deadlineAt.any (· ≤ now + timedelta policy.intervalSeconds) then
    some "deadline_reached"
  else none

end PersistentCycle

namespace PersistentCyclePolicy

/-- The pause after `failures` consecutive failures. -/
def backoff (policy : PersistentCyclePolicy) (failures : ℕ) : ℚ :=
  min policy.maxIntervalSeconds
    (policy.intervalSeconds * policy.failureBackoffMultiplier ^ (failures - 1))

/-- `_cycle_delay_with_jitter`. -/
def delayWithJitter (policy : PersistentCyclePolicy) (unit delay : ℚ) : ℚ :=
  if policy.jitterRatio ≤ 0 then delay
  else max (1 / 1000) (delay * (1 + (unit * 2 - 1) * policy.jitterRatio))

end PersistentCyclePolicy

/-! ### The engine's object -/

/-- One run of the engine: what it executes and the object it works on. -/
structure RunContext where
  cfg : EngineConfig
  /-- The engine's state of the execution; only its identifiers are used. -/
  state : NativeExecutionState
  ref : ℕ
  workflow : WorkflowDefinition
  policy : PersistentCyclePolicy

namespace RunContext

variable (run : RunContext)

def object : Coroutine Execution := process (.object run.ref)

def modifyObject (f : Execution → Execution) : Coroutine Unit :=
  process (.modifyObject run.ref f)

/-- Change `metadata.persistent_cycle`. -/
def modifyCycle (f : PersistentCycle → PersistentCycle) : Coroutine Unit :=
  run.modifyObject fun e => { e with metadata.persistentCycle := f e.metadata.persistentCycle }

def currentState : Coroutine NativeExecutionState :=
  process (.state run.state.executionId run.state.workflowId)

def modifyState (f : NativeExecutionState → NativeExecutionState) : Coroutine Unit :=
  process (.modifyState run.state.executionId f)

def emit (eventType : ExecutionEventType) (labels : EventLabels := {}) : Coroutine Unit := do
  let _ ← OpenAgency.emit run.state eventType labels
  return ()

end RunContext

/-! ### Cycles -/

/-- `_mark_persistent_cycle_started`: whether a cycle has started. -/
def markPersistentCycleStarted (run : RunContext) : Coroutine Bool := do
  if !run.policy.enabled then return false
  let now ← utcNow
  run.modifyCycle (·.start now)
  return true

/-- `_reset_cycle_checkpoint`: the next cycle starts from an empty checkpoint. -/
def resetCycleCheckpoint (run : RunContext) (cycleOutput : CycleOutput) : Coroutine Unit := do
  run.modifyObject fun e =>
    { e with outputPayload := some { checkpoint := some {}, lastCycleOutput := some cycleOutput } }
  run.modifyState fun st => { st with
    nodeOutputs := []
    nodeOutcomes := []
    nodeErrors := []
    taskToolResults := []
    currentNodeId := none
    currentTaskId := none
    plannedNodeIds := []
    terminalNodeIds := [] }

/-- `create_execution_wait` of a cycle, which continues with the pending wait of the
same cycle where the store refuses with a `ValueError`. -/
def createCycleWait (wait : ExecutionWait) : Coroutine ExecutionWait :=
  (createExecutionWait wait).rescue fun exc => do
    if !exc.cls.isValueError then Program.throw exc
    match ← listPendingWaits wait.executionId with
    | [] => Program.throw exc
    | pending :: _ =>
      if pending.idempotencyKey = wait.idempotencyKey then return pending
      else Program.throw exc

/-- Wait for the next cycle on the object as it is. -/
def sleepUntilCycle (run : RunContext) (next : ℕ) (wakeAt : Time) (reason : String) :
    Coroutine Unit := do
  let e ← run.object
  let wait ← newExecutionWait fun id now => {
    id := id
    executionId := e.id
    kind := .sleep
    idempotencyKey := s!"persistent-cycle:{next}"
    checkpoint := e.outputPayload.getD {}
    wakeAt := some wakeAt
    createdAt := now
    updatedAt := now
    metadata := { source := some "persistent_cycle", reason := some reason } }
  let wait ← createCycleWait wait
  run.modifyObject fun e => { e with
    status := .sleeping
    metadata.activeWait := some {
      waitId := wait.id
      kind := wait.kind
      createdAt := some wait.createdAt
      wakeAt := some wakeAt } }
  saveObject run.ref
  run.emit .executionWaiting

/-- `_schedule_persistent_cycle`. -/
def schedulePersistentCycle (run : RunContext) (cycleOutput : CycleOutput) (delay : ℚ)
    (reason : String) : Coroutine Unit := do
  let e ← run.object
  let next := e.metadata.persistentCycle.number + 1
  let now ← utcNow
  let wakeAt := now + timedelta (run.policy.delayWithJitter (run.cfg.jitterUnit e.id next) delay)
  run.modifyCycle fun c => { c with
    phase := some .sleeping
    nextCycleNumber := some next
    nextWakeAt := some wakeAt }
  resetCycleCheckpoint run cycleOutput
  -- the checkpoint is persisted before the wait
  run.modifyObject fun e => { e with status := .paused, completedAt := none }
  saveObject run.ref
  sleepUntilCycle run next wakeAt reason

/-- `_pause_persistent_cycle_for_guard`. -/
def pausePersistentCycleForGuard (run : RunContext) (cycleOutput : CycleOutput)
    (reason : String) : Coroutine Unit := do
  run.modifyCycle fun c => { c with
    phase := some .guarded
    guardReason := some reason
    nextCycleNumber := some (c.number + 1) }
  resetCycleCheckpoint run cycleOutput
  run.modifyObject fun e => { e with status := .paused, completedAt := none }
  saveObject run.ref
  run.emit .executionCycleGuardTriggered
  run.emit .executionPaused

/-- `_handle_persistent_cycle_success`: whether the run ends here, with another
cycle to come. -/
def handlePersistentCycleSuccess (run : RunContext) (cycleOutput : CycleOutput) :
    Coroutine Bool := do
  if !run.policy.enabled then return false
  let now ← utcNow
  run.modifyCycle (·.complete run.policy (run.cfg.progressSignature cycleOutput) now)
  run.modifyObject fun e => { e with error := none }
  let e ← run.object
  let cycle := e.metadata.persistentCycle
  run.emit .executionCycleCompleted
  match cycle.terminalReasonFor run.policy now with
  | some reason =>
    run.modifyCycle fun c =>
      { c with phase := some .completed, terminalReason := some reason }
    return false
  | none =>
    if run.policy.maxNoProgressCycles.any (· ≤ cycle.noProgressCycles) then
      pausePersistentCycleForGuard run cycleOutput "no_progress_limit_reached"
    else
      schedulePersistentCycle run cycleOutput run.policy.intervalSeconds "cycle_completed"
    return true

/-- `_handle_persistent_cycle_failure`. -/
def handlePersistentCycleFailure (run : RunContext) (error : String) : Coroutine Unit := do
  let now ← utcNow
  let st ← run.currentState
  let failedOutput := (executionCheckpointPayload st none).toCycleOutput
  run.modifyObject fun e => { e with error := some error }
  run.modifyCycle (·.fail run.policy error now)
  let e ← run.object
  let failures := e.metadata.persistentCycle.consecutiveFailures
  run.emit .executionCycleFailed
  let delay := run.policy.backoff failures
  if run.policy.maxConsecutiveFailures ≤ failures then
    pausePersistentCycleForGuard run failedOutput "max_consecutive_failures_reached"
  else if run.policy.deadlineAt.any (· ≤ now + timedelta delay) then
    pausePersistentCycleForGuard run failedOutput "deadline_reached_after_failure"
  else schedulePersistentCycle run failedOutput delay "cycle_failed"

/-! ### The engine's object while a cycle is scheduled -/

/-- The engine's object `ref` is `e`. -/
def ObjectIs (w : World) (ref : ℕ) (e : Execution) : Prop := w.proc.objects[ref]? = some e

section Wp

variable {env : Environment} {w : World} {ref : ℕ} {e : Execution}

theorem wp_newObject {α : Type} {Q : α → World → Prop} {E : RuntimeException → World → Prop}
    {f : ℕ → Coroutine α}
    (h : ∀ ref w', w'.db = w.db → ObjectIs w' ref e → (f ref).wp (handler env) Q E w') :
    (process (.newObject e) >>= f).wp (handler env) Q E w := by
  rw [wp_process]
  exact h _ _ rfl (by simp [ObjectIs, ProcOp.exec])

theorem wp_object {α : Type} {Q : α → World → Prop} {E : RuntimeException → World → Prop}
    (h : ObjectIs w ref e) (f : Execution → Coroutine α) :
    (process (.object ref) >>= f).wp (handler env) Q E w ↔ (f e).wp (handler env) Q E w := by
  rw [wp_process]
  simp only [ProcOp.exec, List.getD_eq_getElem?_getD, show w.proc.objects[ref]? = some e from h,
    Option.getD_some]

theorem wp_modifyObject {α : Type} {Q : α → World → Prop} {E : RuntimeException → World → Prop}
    (h : ObjectIs w ref e) (g : Execution → Execution) {f : Unit → Coroutine α}
    (hf : ∀ w', w'.db = w.db → ObjectIs w' ref (g e) → (f ()).wp (handler env) Q E w') :
    (process (.modifyObject ref g) >>= f).wp (handler env) Q E w := by
  rw [wp_process]
  refine hf _ rfl ?_
  have he : w.proc.objects[ref]? = some e := h
  simp [ObjectIs, ProcOp.exec, he]

theorem wp_saveObject {Q : Unit → World → Prop} {E : RuntimeException → World → Prop}
    (h : ObjectIs w ref e)
    (hQ : ObjectIs { w with db.executions := w.db.executions.save e } ref e →
      Q () { w with db.executions := w.db.executions.save e }) :
    (saveObject ref).wp (handler env) Q E w := by
  rw [saveObject, wp_object h, wp_updateExecution_last]
  exact hQ h

theorem wp_resetCycleCheckpoint {run : RunContext} {cycleOutput : CycleOutput}
    {Q : Unit → World → Prop} {E : RuntimeException → World → Prop} (h : ObjectIs w run.ref e)
    (hQ : ∀ w', w'.db = w.db → ObjectIs w' run.ref { e with
      outputPayload := some { checkpoint := some {}, lastCycleOutput := some cycleOutput } } →
      Q () w') :
    (resetCycleCheckpoint run cycleOutput).wp (handler env) Q E w := by
  rw [resetCycleCheckpoint, RunContext.modifyObject]
  refine wp_modifyObject h _ fun w' hdb hobj => ?_
  exact (wp_process_last (.modifyState _ _)).mpr (hQ _ hdb hobj)

end Wp

end OpenAgency
