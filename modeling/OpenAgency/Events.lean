/-
Events.lean

The execution event emitter.  An event takes its place in the log from the store,
and the engine's state follows the position the store answers.  Spans, traces and
what the event bus and the stream publisher do with an event are left out.
-/
import OpenAgency.Store

namespace OpenAgency

open Interaction Program ProcOp

/-- The identifiers a caller puts on an event. -/
structure EventLabels where
  agentId : Option String := none
  taskId : Option String := none
  toolCallId : Option String := none
  modelRequestId : Option Uuid := none

/-- `value or fallback` on a string. -/
def orElseString (value fallback : Option String) : Option String :=
  match value with
  | some "" | none => fallback
  | some s => some s

/-- Build an event after the given state and append it to the log. -/
def appendEvent (st : NativeExecutionState) (eventType : ExecutionEventType)
    (labels : EventLabels) : Coroutine ExecutionEvent := do
  let id ← uuid4
  let now ← utcNow
  let saved ← query (.saveEvent {
    id := id
    executionId := st.executionId
    workflowId := st.workflowId
    eventType := eventType
    sequence := st.sequence
    timestamp := now
    agentId := orElseString labels.agentId st.currentAgentId
    taskId := orElseString labels.taskId st.currentTaskId
    toolCallId := labels.toolCallId
    modelRequestId := labels.modelRequestId
    parentEventId := st.lastEventId })
  Program.ofExcept saved

/-- `ExecutionEventEmitter.emit` on the engine's state of an execution. -/
def emit (st : NativeExecutionState) (eventType : ExecutionEventType)
    (labels : EventLabels := {}) : Coroutine ExecutionEvent := do
  process (.modifyState st.executionId fun s => { s with sequence := s.sequence + 1 })
  let current ← process (.state st.executionId st.workflowId)
  let saved ← appendEvent current eventType labels
  process (.modifyState st.executionId fun s =>
    { s with sequence := saved.sequence, lastEventId := some saved.id })
  return saved

/-- The emission of a service that holds no engine state: it continues from the
last event of the log. -/
def emitFromLog (executionId : Uuid) (workflowId : String) (eventType : ExecutionEventType) :
    Coroutine Unit := do
  let events ← query (.listEvents executionId)
  let st : NativeExecutionState := { executionId := executionId, workflowId := workflowId }
  let st := match events.getLast? with
    | none => st
    | some last => { st with sequence := last.sequence, lastEventId := some last.id }
  let _ ← appendEvent { st with sequence := st.sequence + 1 } eventType {}
  return ()

/-- `_hydrate_state_position`. -/
def hydrateStatePosition (st : NativeExecutionState) : Coroutine Unit := do
  let current ← process (.state st.executionId st.workflowId)
  if current.sequence ≠ 0 || current.lastEventId.isSome then return ()
  let events ← query (.listEvents st.executionId)
  match events.getLast? with
  | none => return ()
  | some last =>
    process (.modifyState st.executionId fun s =>
      { s with sequence := last.sequence, lastEventId := some last.id })

/-! ### What an emission changes -/

/-- The executions, waits and approval requests of two worlds are the same. -/
structure SameRecords (w w' : World) : Prop where
  executions : w'.db.executions = w.db.executions
  waits : w'.db.waits = w.db.waits
  approvalRequests : w'.db.approvalRequests = w.db.approvalRequests

namespace SameRecords

theorem refl (w : World) : SameRecords w w := ⟨rfl, rfl, rfl⟩

theorem trans {w₁ w₂ w₃ : World} (h : SameRecords w₁ w₂) (h' : SameRecords w₂ w₃) :
    SameRecords w₁ w₃ :=
  ⟨h'.executions.trans h.executions, h'.waits.trans h.waits,
    h'.approvalRequests.trans h.approvalRequests⟩

end SameRecords

section Wp

variable {env : Environment} {w : World} {st : NativeExecutionState}
  {eventType : ExecutionEventType} {labels : EventLabels}

variable {C : ℕ → World → Prop}

variable {E : RuntimeException → ℕ → World → Prop} {Q : ExecutionEvent → ℕ → World → Prop}

/-- Appending an event is one write, which changes no record and fails only where the
execution is missing. -/
theorem wpc_appendEvent {n : ℕ} (hC : ∀ w', w'.db = w.db → C n w')
    (hQ : ∀ event w', SameRecords w w' → Q event (n + 1) w')
    (hE : w.db.executions.get st.executionId = none → ∀ e w', SameRecords w w' → E e (n + 1) w') :
    (appendEvent st eventType labels).wpc (handler env) RuntimeOp.isWrite C Q E n w := by
  rw [appendEvent, wpc_uuid4, wpc_utcNow, wpc_query_write rfl]
  refine ⟨hC _ rfl, ?_⟩
  simp only [DbOp.exec]
  rcases h : w.db.executions.get st.executionId with - | e
  · exact wpc_of_raise (hE h _ _ ⟨rfl, rfl, rfl⟩)
  · exact wpc_of_done (hQ _ _ ⟨rfl, rfl, rfl⟩)

theorem wpc_emit {n : ℕ} (hC : ∀ w', w'.db = w.db → C n w')
    (hQ : ∀ event w', SameRecords w w' → Q event (n + 1) w')
    (hE : w.db.executions.get st.executionId = none → ∀ e w', SameRecords w w' → E e (n + 1) w') :
    (emit st eventType labels).wpc (handler env) RuntimeOp.isWrite C Q E n w := by
  rw [emit, wpc_process, wpc_process, wpc_bind]
  apply wpc_appendEvent
  · exact hC
  · intro event w' h
    rw [wpc_process]
    exact wpc_of_done (hQ _ _ ⟨h.executions, h.waits, h.approvalRequests⟩)
  · intro hnone e w' h
    refine hE ?_ e w' ⟨h.executions, h.waits, h.approvalRequests⟩
    rw [← hnone]
    exact congrArg _ (executionId_setdefault ..).symm

theorem wpc_emitFromLog {x : Uuid} {workflowId : String} {n : ℕ} {Q : Unit → ℕ → World → Prop}
    (hC : ∀ w', w'.db = w.db → C n w') (hQ : ∀ w', SameRecords w w' → Q () (n + 1) w')
    (hE : w.db.executions.get x = none → ∀ e w', SameRecords w w' → E e (n + 1) w') :
    (emitFromLog x workflowId eventType).wpc (handler env) RuntimeOp.isWrite C Q E n w := by
  rw [emitFromLog, wpc_query_read rfl]
  simp only [DbOp.exec]
  rw [wpc_bind]
  apply wpc_appendEvent
  · exact hC
  · exact fun _ w' h => wpc_of_done (hQ w' h)
  · rcases (w.db.eventsOf x).getLast? with - | last
    · exact hE
    · exact hE

variable {E : RuntimeException → World → Prop}

theorem wp_appendEvent {Q : ExecutionEvent → World → Prop}
    (hQ : ∀ event w', SameRecords w w' → Q event w')
    (hE : w.db.executions.get st.executionId = none → ∀ e w', SameRecords w w' → E e w') :
    (appendEvent st eventType labels).wp (handler env) Q E w :=
  wp_of_wpc_true (wpc_appendEvent (fun _ _ => trivial) hQ hE)

theorem wp_emit {Q : ExecutionEvent → World → Prop} (hQ : ∀ event w', SameRecords w w' → Q event w')
    (hE : w.db.executions.get st.executionId = none → ∀ e w', SameRecords w w' → E e w') :
    (emit st eventType labels).wp (handler env) Q E w :=
  wp_of_wpc_true (wpc_emit (fun _ _ => trivial) hQ hE)

theorem wp_emitFromLog {x : Uuid} {workflowId : String} {Q : Unit → World → Prop}
    (hQ : ∀ w', SameRecords w w' → Q () w')
    (hE : w.db.executions.get x = none → ∀ e w', SameRecords w w' → E e w') :
    (emitFromLog x workflowId eventType).wp (handler env) Q E w :=
  wp_of_wpc_true (wpc_emitFromLog (fun _ _ => trivial) hQ hE)

theorem wp_hydrateStatePosition {Q : Unit → World → Prop} (hQ : ∀ w', SameRecords w w' → Q () w') :
    (hydrateStatePosition st).wp (handler env) Q E w := by
  rw [hydrateStatePosition, wp_state, wp_ite]
  split
  · exact wp_of_done (hQ _ ⟨rfl, rfl, rfl⟩)
  · rw [wp_query]
    simp only [DbOp.exec]
    rcases (w.db.eventsOf st.executionId).getLast? with - | last
    · exact wp_of_done (hQ _ ⟨rfl, rfl, rfl⟩)
    · exact (wp_call _ _ _).mpr (wp_of_done (hQ _ ⟨rfl, rfl, rfl⟩))

end Wp

/-! ### What an emission leaves alone in its process -/

namespace ProcessState

/-- The node errors of the engine's state of an execution, if it has one. -/
def nodeErrors (p : ProcessState) (x : Uuid) : Dict String :=
  ((p.states x).map (·.nodeErrors)).getD []

theorem nodeErrors_setdefault (x : Uuid) (workflowId : String) (p : ProcessState) :
    (setdefault x workflowId p).nodeErrors = p.nodeErrors x := by
  unfold setdefault nodeErrors
  rcases p.states x with - | st <;> rfl

theorem nodeErrors_state (x y : Uuid) (workflowId : String) (p : ProcessState) :
    ((state x workflowId).exec p).2.nodeErrors y = p.nodeErrors y := by
  by_cases hy : y = x
  · subst hy
    rw [← nodeErrors_setdefault y workflowId p]
    simp [nodeErrors, exec, setState]
  · simp [nodeErrors, exec, setState, hy]

theorem nodeErrors_modifyState {f : NativeExecutionState → NativeExecutionState}
    (hf : ∀ st, (f st).nodeErrors = st.nodeErrors) (x y : Uuid) (p : ProcessState) :
    ((modifyState x f).exec p).2.nodeErrors y = p.nodeErrors y := by
  by_cases hy : y = x
  · subst hy
    rcases hst : p.states y with - | st <;> simp [nodeErrors, exec, setState, hst, hf]
  · simp [nodeErrors, exec, setState, hy]

end ProcessState

/-- Beyond the records, the engine's objects and the recorded node errors are the same. -/
structure SameButEvents (w w' : World) : Prop extends SameRecords w w' where
  objects : w'.proc.objects = w.proc.objects
  nodeErrors : ∀ x, w'.proc.nodeErrors x = w.proc.nodeErrors x

section Row

variable {env : Environment} {w : World} {st : NativeExecutionState}
  {eventType : ExecutionEventType} {labels : EventLabels}
  {Q : ExecutionEvent → World → Prop} {E : RuntimeException → World → Prop}

theorem wp_appendEvent_of_row (hrow : w.db.executions.get st.executionId ≠ none)
    (hQ : ∀ event w', SameRecords w w' → w'.proc = w.proc → Q event w') :
    (appendEvent st eventType labels).wp (handler env) Q E w := by
  rw [appendEvent, wp_uuid4, wp_utcNow, wp_query]
  simp only [DbOp.exec]
  rcases h : w.db.executions.get st.executionId with - | e
  · exact absurd h hrow
  · exact wp_of_done (hQ _ _ ⟨rfl, rfl, rfl⟩ rfl)

/-- An emission for an execution that has a row does not fail. -/
theorem wp_emit_of_row (hrow : w.db.executions.get st.executionId ≠ none)
    (hQ : ∀ event w', SameButEvents w w' → Q event w') :
    (emit st eventType labels).wp (handler env) Q E w := by
  rw [emit, wp_process, wp_state, wp_bind]
  refine wp_appendEvent_of_row ?_ fun event w' hrecords hproc => ?_
  · rw [executionId_setdefault]
    exact hrow
  · rw [wp_process]
    refine wp_of_done (hQ event _ ⟨⟨hrecords.1, hrecords.2, hrecords.3⟩, ?_, fun x => ?_⟩)
    · show w'.proc.objects = w.proc.objects
      rw [hproc]
      rfl
    · -- each of the three accesses keeps the node errors
      refine (ProcessState.nodeErrors_modifyState ?_ _ x w'.proc).trans ?_
      · exact fun _ => rfl
      rw [hproc]
      refine (ProcessState.nodeErrors_state _ x _ _).trans ?_
      apply ProcessState.nodeErrors_modifyState
      exact fun _ => rfl

end Row

end OpenAgency
