/-
TaskRules.lean

What holds of the execution of a task because it holds of its parts.

A property that goes from the parts of a coroutine to the whole (`Compositional`) holds of
the agent loop, of the attempts at a task and of the `try` around them, if it holds of the
few things these do themselves: events, turns of the model, calls of tools, approvals.
`C` is the property of the coroutines without services, `K` that of the engine's.
-/
import OpenAgency.Engine

namespace OpenAgency

open Interaction

/-- A property that sequencing keeps. -/
structure Compositional {S : Signature} (C : (α : Type) → Program S RuntimeException α → Prop) :
    Prop where
  pure : ∀ {α : Type} (a : α), C α (pure a)
  throw : ∀ {α : Type} (e : RuntimeException), C α (Program.throw e)
  bind : ∀ {α β : Type} {p : Program S RuntimeException α}
    {f : α → Program S RuntimeException β}, C α p → (∀ a, C β (f a)) → C β (p >>= f)

namespace Compositional

variable {S : Signature} {C : (α : Type) → Program S RuntimeException α → Prop} {α β : Type}

theorem ofExcept (h : Compositional C) (r : Except RuntimeException α) :
    C α (Program.ofExcept r) := by
  rcases r with e | a
  · exact h.throw e
  · exact h.pure a

theorem forM (h : Compositional C) {f : α → Program S RuntimeException PUnit}
    (hf : ∀ a, C _ (f a)) (as : List α) : C _ (as.forM f) := by
  induction as with
  | nil => exact h.pure ()
  | cons a as ih => exact h.bind (hf a) fun _ => ih

theorem mapM (h : Compositional C) {f : α → Program S RuntimeException β} (hf : ∀ a, C _ (f a))
    (as : List α) : C _ (as.mapM f) := by
  have hloop : ∀ (as : List α) (bs : List β), C _ (List.mapM.loop f as bs) := by
    intro as
    induction as with
    | nil => exact fun bs => h.pure bs.reverse
    | cons a as ih => exact fun bs => h.bind (hf a) fun b => ih (b :: bs)
  exact hloop as []

end Compositional

/-- The property holds of what the execution of a task consists of. -/
structure TaskRules (ctx : TaskContext) (C : (α : Type) → Coroutine α → Prop)
    (K : (α : Type) → EngineRun α → Prop) : Prop where
  coroutine : Compositional C
  engine : Compositional K
  lift : ∀ {α : Type} {p : Coroutine α}, C α p → K α (liftM p)
  attempt : ∀ {α : Type} {p : EngineRun α}, K α p → K _ p.attempt
  within : ∀ {α : Type} {p : EngineRun α}, K α p → ∀ n, K α (p.within n)
  emit : ∀ eventType modelRequestId, C _ (ctx.emit eventType modelRequestId)
  currentState : C _ ctx.currentState
  object : C _ (process (.object ctx.ref))
  uuid4 : C _ uuid4
  recordContextHealth : ∀ id, C _ (recordContextHealth ctx id)
  enforceTokenBudgetAction : ∀ policy statuses,
    C _ (enforceTokenBudgetAction ctx.executionId policy statuses)
  nodeError : ∀ nodeId message, C _ (ctx.modifyState fun st =>
    { st with nodeErrors := st.nodeErrors.set nodeId message })
  generateText : ∀ messages withTools, C _ (ask (.generateText ctx.agent.id messages withTools))
  timeoutAfter : ∀ t, C _ (ask (.timeoutAfter t))
  service : ∀ c, K _ (callService c)
  toolCall : ∀ iteration toolCalls messages index call,
    K _ (executeToolCall ctx iteration toolCalls messages index call)

namespace TaskRules

variable {ctx : TaskContext} {C : (α : Type) → Coroutine α → Prop}
  {K : (α : Type) → EngineRun α → Prop}

/-! ### The agent loop -/

theorem assertNotInterrupted (h : TaskRules ctx C K) : C _ (assertNotInterrupted ctx) := by
  refine h.coroutine.bind h.currentState fun st => ?_
  rcases st.cancelled with - | -
  · rcases st.paused with - | -
    · exact h.coroutine.pure ()
    · exact h.coroutine.throw _
  · exact h.coroutine.throw _

theorem executeToolCalls (h : TaskRules ctx C K) (iteration : ℕ) (toolCalls : List ModelToolCall)
    (messages : List ModelMessage) (index : ℕ) (rest : List ModelToolCall) :
    K _ (executeToolCalls ctx iteration toolCalls messages index rest) := by
  induction rest generalizing messages index with
  | nil => exact h.engine.pure messages
  | cons call rest ih =>
    exact h.engine.bind (h.toolCall _ _ _ _ _) fun messages => ih messages (index + 1)

theorem modelTurn (h : TaskRules ctx C K) (policy : Option TokenBudgetPolicy)
    (modelRequestId : Uuid) (messages : List ModelMessage) (withTools : Bool) :
    K _ (modelTurn ctx policy modelRequestId messages withTools) := by
  refine h.engine.bind (h.lift (h.emit _ _)) fun _ => ?_
  refine h.engine.bind (h.lift (h.generateText _ _)) fun answer => ?_
  refine h.engine.bind (h.engine.ofExcept answer) fun response => ?_
  refine h.engine.bind (h.lift (h.emit _ _)) fun _ => ?_
  refine h.engine.bind (h.lift (h.emit _ _)) fun tokenEvent => ?_
  refine h.engine.bind (h.service _) fun statuses => ?_
  refine h.engine.bind (h.lift (h.coroutine.forM (fun s => ?_) statuses)) fun _ => ?_
  · exact h.coroutine.bind (h.emit _ _) fun _ => h.coroutine.pure _
  · refine h.engine.bind (h.lift (h.enforceTokenBudgetAction _ _)) fun _ => ?_
    exact h.engine.pure response

theorem toolTurn (h : TaskRules ctx C K) (iteration : ℕ) (s : LoopState)
    (response : ModelResponse) : K _ (toolTurn ctx iteration s response) := by
  unfold OpenAgency.toolTurn
  dsimp only
  by_cases hgrace : s.finalizationGrace = true
  · rw [if_pos hgrace]
    exact h.engine.throw _
  rw [if_neg hgrace]
  refine h.engine.bind (h.lift (h.coroutine.mapM (fun answered => ?_) _)) fun toolCalls => ?_
  · -- fresh ids for the calls that come without one
    split
    · exact h.coroutine.pure _
    · exact h.coroutine.bind h.uuid4 fun fresh => h.coroutine.pure _
  · have hcalls : ∀ messages, K _ (OpenAgency.executeToolCalls ctx iteration toolCalls messages 0
        toolCalls >>= fun messages => pure { s with
          messages := messages
          finalizationGrace := s.finalizationGrace ||
            (ctx.agent.maxIterations ≤ iteration && !s.structuredOutputRepair) }) :=
      fun messages => h.engine.bind (h.executeToolCalls _ _ _ _ _) fun _ => h.engine.pure _
    split
    · exact h.engine.bind (h.lift (h.emit _ _)) fun _ => hcalls _
    · exact hcalls _

theorem outputTurn (h : TaskRules ctx C K) (s : LoopState) (response : ModelResponse) :
    K _ (outputTurn ctx s response) := by
  unfold OpenAgency.outputTurn
  dsimp only
  split
  · refine h.engine.bind (h.lift (h.emit _ _)) fun _ => ?_
    split
    · exact h.engine.pure _
    · split
      · exact h.engine.throw _
      · exact h.engine.pure _
  · split
    · exact h.engine.pure _
    · split
      · exact h.engine.throw _
      · exact h.engine.pure _

theorem agentLoop (h : TaskRules ctx C K) (policy : Option TokenBudgetPolicy)
    (remaining iteration : ℕ) (s : LoopState) :
    K _ (agentLoop ctx policy remaining iteration s) := by
  induction remaining generalizing iteration s with
  | zero => exact h.engine.throw _
  | succ remaining ih =>
    unfold OpenAgency.agentLoop
    dsimp only
    by_cases hstop : (decide (ctx.agent.maxIterations < iteration) && !s.structuredOutputRepair &&
        !s.finalizationGrace) = true
    · rw [if_pos hstop]
      exact h.engine.throw _
    rw [if_neg hstop]
    refine h.engine.bind (h.lift h.assertNotInterrupted) fun _ => ?_
    refine h.engine.bind (h.lift h.uuid4) fun modelRequestId => ?_
    refine h.engine.bind (h.lift (h.recordContextHealth _)) fun _ => ?_
    refine h.engine.bind (h.modelTurn _ _ _ _) fun response => ?_
    split
    · exact h.engine.bind (h.toolTurn _ _ _) fun s => ih (iteration + 1) s
    · refine h.engine.bind (h.outputTurn _ _) fun outcome => ?_
      rcases outcome with output | s
      · exact h.engine.pure output
      · exact ih (iteration + 1) s

theorem executeTask (h : TaskRules ctx C K) : K _ (executeTask ctx) := by
  refine h.engine.bind (h.lift h.object) fun e => h.engine.bind (h.lift h.currentState) fun st => ?_
  dsimp only
  split
  · exact h.agentLoop _ _ _ _
  · exact h.engine.bind (h.executeToolCalls _ _ _ _ _) fun _ => h.agentLoop _ _ _ _

/-! ### Attempts at a task -/

theorem requestTaskApproval (h : TaskRules ctx C K) (reason : Option String) :
    K _ (requestTaskApproval ctx reason) := by
  refine h.engine.bind (h.lift (h.emit _ _)) fun event => ?_
  refine h.engine.bind (h.service _) fun decision => ?_
  dsimp only
  split
  · exact h.engine.bind (h.lift (h.emit _ _)) fun _ => h.engine.throw _
  · exact h.engine.bind (h.lift (h.emit _ _)) fun _ => h.engine.pure ()

theorem attemptTask (h : TaskRules ctx C K) (timeout : Option Time) :
    K _ (attemptTask ctx timeout) := by
  have hend : ∀ p : EngineRun Json, K _ p → K _ (do
      let output ← p
      let _ ← ctx.emit .agentStepCompleted
      return output) :=
    fun p hp => h.engine.bind hp fun output => h.engine.bind (h.lift (h.emit _ _)) fun _ =>
      h.engine.pure output
  refine h.engine.bind (h.lift (h.emit _ _)) fun _ => ?_
  rcases timeout with - | t
  · exact hend _ h.executeTask
  · refine h.engine.bind (h.lift (h.timeoutAfter t)) fun fires => ?_
    rcases fires with - | n
    · exact hend _ h.executeTask
    · exact hend _ (h.within h.executeTask n)

theorem executeTaskWithRuntimeOverrides (h : TaskRules ctx C K) (o : TaskOverrides)
    (workflowTimeout : Option Time) (remaining attempt : ℕ) (approvalUsed : Bool) :
    K _ (executeTaskWithRuntimeOverrides ctx o workflowTimeout remaining attempt approvalUsed) := by
  induction remaining generalizing attempt approvalUsed with
  | zero =>
    unfold OpenAgency.executeTaskWithRuntimeOverrides
    refine h.engine.bind (h.attempt (h.attemptTask _)) fun result => ?_
    rcases result with exc | output
    · have hlast : ∀ e : RuntimeException, K Json (do
          let _ ← ctx.emit .agentStepFailed
          Program.throw e) :=
        fun e => h.engine.bind (h.lift (h.emit _ _)) fun _ => h.engine.throw e
      dsimp only
      split
      · exact h.engine.throw exc
      · split
        · exact h.engine.bind (h.requestTaskApproval _) fun _ => hlast _
        · exact hlast _
    · exact h.engine.pure output
  | succ remaining ih =>
    unfold OpenAgency.executeTaskWithRuntimeOverrides
    refine h.engine.bind (h.attempt (h.attemptTask _)) fun result => ?_
    rcases result with exc | output
    · -- the next attempt, or the error of this one
      have hnext : ∀ (c : Bool) (used : Bool) (e : RuntimeException), K _
          (if c then OpenAgency.executeTaskWithRuntimeOverrides ctx o workflowTimeout remaining
            (attempt + 1) used else Program.throw e) := by
        intro c used e
        cases c with
        | true => exact ih (attempt + 1) used
        | false => exact h.engine.throw e
      dsimp only
      split
      · exact h.engine.throw exc
      · split
        · exact h.engine.bind (h.requestTaskApproval _) fun _ =>
            h.engine.bind (h.lift (h.emit _ _)) fun _ => hnext _ _ _
        · exact h.engine.bind (h.lift (h.emit _ _)) fun _ => hnext _ _ _
    · exact h.engine.pure output

/-- **The `try` around a task.** -/
theorem taskOutput (h : TaskRules ctx C K) (node : WorkflowNodeDefinition) (o : TaskOverrides)
    (workflowTimeout : Option Time) : K _ (taskOutput ctx node o workflowTimeout) := by
  unfold OpenAgency.taskOutput
  refine h.engine.bind (h.attempt ?_) fun result => ?_
  · dsimp only
    split
    · refine h.engine.bind (h.requestTaskApproval _) fun _ => ?_
      exact h.executeTaskWithRuntimeOverrides _ _ _ _ _
    · exact h.executeTaskWithRuntimeOverrides _ _ _ _ _
  · rcases result with exc | output
    · dsimp only
      split
      · exact h.engine.throw exc
      · split
        · exact h.engine.throw exc
        · exact h.engine.bind (h.lift (h.nodeError _ _)) fun _ => h.engine.pure _
    · exact h.engine.pure output

end TaskRules

end OpenAgency
