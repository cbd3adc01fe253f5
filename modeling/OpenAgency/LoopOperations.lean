/-
LoopOperations.lean

The operations of the agent loop.  Most of its parts are plain: they read and write rows,
events and the engine's state, but not what nodes and tools have left in the state, and
neither ask the world outside anything nor touch the engine's object.  The others are the
turns of the model, and the execution of tool calls, which also records the results and
keeps the transcript on the object.
-/
import OpenAgency.AgentExecutor

namespace OpenAgency

open Interaction Program

/-! ### Plain parts -/

/-- The change leaves alone what nodes and tools have left in the state. -/
structure KeepsProgress (f : NativeExecutionState → NativeExecutionState) : Prop where
  nodeOutputs : ∀ st, (f st).nodeOutputs = st.nodeOutputs
  nodeOutcomes : ∀ st, (f st).nodeOutcomes = st.nodeOutcomes
  taskToolResults : ∀ st, (f st).taskToolResults = st.taskToolResults

/-- An operation that asks the world outside nothing and leaves the engine's object and
its progress alone. -/
def RuntimeOp.IsPlain : RuntimeOp → Prop
  | .ext _ | .proc (.modifyObject _ _) => False
  | .proc (.modifyState _ f) => KeepsProgress f
  | _ => True

/-- A coroutine that only performs plain operations. -/
def Plain {α : Type} (p : Coroutine α) : Prop := p.Within (fun _ _ => True) RuntimeOp.IsPlain

namespace Plain

variable {α β : Type}

theorem bind {p : Coroutine α} {f : α → Coroutine β} (hp : Plain p) (hf : ∀ a, Plain (f a)) :
    Plain (p >>= f) := Program.Within.bind hp hf

theorem query (o : DbOp) : Plain (OpenAgency.query o) := ⟨trivial, fun _ _ => trivial⟩

theorem state (x : Uuid) (workflowId : String) : Plain (OpenAgency.process (.state x workflowId)) :=
  ⟨trivial, fun _ _ => trivial⟩

theorem modifyState (x : Uuid) {f : NativeExecutionState → NativeExecutionState}
    (h : KeepsProgress f) : Plain (OpenAgency.process (.modifyState x f)) :=
  ⟨h, fun _ _ => trivial⟩

theorem object (ref : ℕ) : Plain (OpenAgency.process (.object ref)) := ⟨trivial, fun _ _ => trivial⟩

theorem uuid4 : Plain OpenAgency.uuid4 := ⟨trivial, fun _ _ => trivial⟩

theorem utcNow : Plain OpenAgency.utcNow := ⟨trivial, fun _ _ => trivial⟩

theorem pure (a : α) : Plain (Pure.pure a : Coroutine α) := trivial

theorem raise (cls : ExceptionClass) (message : String) :
    Plain (OpenAgency.raise cls message : Coroutine α) := trivial

theorem emit (st : NativeExecutionState) (eventType : ExecutionEventType) (labels : EventLabels) :
    Plain (OpenAgency.emit st eventType labels) := by
  refine .bind (modifyState _ ⟨fun _ => rfl, fun _ => rfl, fun _ => rfl⟩) fun _ =>
    .bind (state _ _) fun current => .bind ?_ fun saved =>
      .bind (modifyState _ ⟨fun _ => rfl, fun _ => rfl, fun _ => rfl⟩) fun _ => pure saved
  exact .bind uuid4 fun id => .bind utcNow fun now =>
    .bind (query _) fun saved => within_ofExcept saved

theorem saveObject (ref : ℕ) : Plain (OpenAgency.saveObject ref) :=
  .bind (object ref) fun e => query (.updateExecution e)

theorem assertNotInterrupted (ctx : TaskContext) : Plain (OpenAgency.assertNotInterrupted ctx) := by
  refine .bind (state _ _) fun st => ?_
  rcases st.cancelled with - | -
  · rcases st.paused with - | -
    · exact pure ()
    · exact raise _ _
  · exact raise _ _

theorem recordContextHealth (ctx : TaskContext) (modelRequestId : Uuid) :
    Plain (OpenAgency.recordContextHealth ctx modelRequestId) := by
  refine .bind (emit _ _ _) fun _ => .bind (query _) fun row => ?_
  rcases row with - | e
  · exact pure ()
  · exact query _

theorem enforceTokenBudgetAction (x : Uuid) (policy : Option TokenBudgetPolicy)
    (statuses : List TokenBudgetStatus) :
    Plain (OpenAgency.enforceTokenBudgetAction x policy statuses) := by
  unfold OpenAgency.enforceTokenBudgetAction
  split
  · dsimp only
    split
    · refine .bind (modifyState _ ⟨fun _ => rfl, fun _ => rfl, fun _ => rfl⟩) fun _ => ?_
      exact raise _ _
    · exact raise _ _
    · exact pure ()
    · exact pure ()
  · exact pure ()

theorem rejectedToolCall (ctx : TaskContext) (tool : ToolDefinition) (callId : String)
    (decision : ApprovalDecision) :
    Plain (OpenAgency.rejectedToolCall ctx tool callId decision) := by
  refine .bind (emit _ _ _) fun _ => ?_
  rcases tool.approvalOnRejection with - | -
  · exact .bind (emit _ _ _) fun _ => pure _
  · exact .bind (emit _ _ _) fun _ => raise _ _

theorem forM {f : α → Coroutine PUnit} (hf : ∀ a, Plain (f a)) (as : List α) :
    Plain (as.forM f) := by
  induction as with
  | nil => exact pure ()
  | cons a as ih => exact .bind (hf a) fun _ => ih

variable {ok : (o : EngineOp) → o.Ret → Prop} {allowed : EngineOp → Prop}

/-- In the engine a plain coroutine performs what is allowed as far as plain operations are. -/
theorem lift {p : Coroutine α} (h : Plain p) (hplain : ∀ o, o.IsPlain → allowed (.runtime o)) :
    (liftM p : EngineRun α).Within ok allowed :=
  within_lift (h.mono (fun _ _ _ => trivial) hplain)

end Plain

/-! ### The execution of tool calls -/

/-- What a call that has returned adds to the state. -/
def recordToolResult (ctx : TaskContext) (call : ModelToolCall) (result : Json)
    (st : NativeExecutionState) : NativeExecutionState :=
  { st with
    taskToolResults := st.taskToolResults.set ctx.task.id
      ((st.taskToolResults.get? ctx.task.id).getD [] ++
        [{ toolId := ((resolveTool ctx.cfg ctx.workflow call.id
            (some call.name)).toOption.map (·.id)).getD call.name
           result := result }]) }

/-- What has to be allowed for a call to be executed: a tool only if the call resolves to it
and it admits the call's arguments. -/
structure MayExecute (ctx : TaskContext) (allowed : EngineOp → Prop) (call : ModelToolCall) :
    Prop where
  plain : ∀ o : RuntimeOp, o.IsPlain → allowed (.runtime o)
  object : ∀ ref f, allowed (.runtime (.proc (.modifyObject ref f)))
  record : ∀ result, allowed (.runtime (.proc (.modifyState ctx.executionId
    (recordToolResult ctx call result))))
  service : ∀ c limit, allowed (.service c limit)
  tool : ∀ tool admitted arguments,
    resolveTool ctx.cfg ctx.workflow call.id (some call.name) = .ok tool →
    ctx.cfg.admitToolCall ctx.workflow tool call.arguments = .ok admitted →
    allowed (.runtime (.ext (.executeTool tool.id arguments)))

section Calls

variable {ctx : TaskContext} {ok : (o : EngineOp) → o.Ret → Prop} {allowed : EngineOp → Prop}
  {call : ModelToolCall}

theorem within_callService {c : ServiceCall} (h : ∀ limit, allowed (.service c limit)) :
    (callService c).Within ok allowed := by
  refine ⟨h none, fun outcome _ => ?_⟩
  rcases outcome with - | ⟨result, left⟩
  · trivial
  · exact within_ofExcept result

theorem within_persistApprovalContinuation (h : MayExecute ctx allowed call)
    (c : ApprovalContinuation) :
    (liftM (persistApprovalContinuation ctx c) : EngineRun Unit).Within ok allowed := by
  refine within_lift ?_
  refine .bind ((Plain.state _ _).mono (fun _ _ _ => trivial) h.plain) fun _ => ?_
  refine ⟨h.object _ _, fun _ _ => ?_⟩
  exact (Plain.saveObject ctx.ref).mono (fun _ _ _ => trivial) h.plain

theorem within_mergeLifecycleFields (h : MayExecute ctx allowed call) :
    (liftM (mergeLifecycleFields ctx) : EngineRun Unit).Within ok allowed := by
  refine within_lift ?_
  refine .bind ((Plain.query _).mono (fun _ _ _ => trivial) h.plain) fun row => ?_
  rcases row with - | current
  · trivial
  · exact ⟨h.object _ _, fun _ _ => trivial⟩

theorem within_runTool {tool : ToolDefinition} (hplain : ∀ o : RuntimeOp, o.IsPlain →
      allowed (.runtime o))
    (htool : ∀ arguments, allowed (.runtime (.ext (.executeTool tool.id arguments))))
    (callId : String) (arguments : Json) :
    (liftM (runTool ctx tool callId arguments) : EngineRun Json).Within ok allowed := by
  have hemit : ∀ {α : Type} {p : Coroutine α}, Plain p →
      p.Within (fun o => ok (.runtime o)) fun o => allowed (.runtime o) :=
    fun hp => hp.mono (fun _ _ _ => trivial) hplain
  refine within_lift ?_
  refine .bind (hemit (.emit _ _ _)) fun _ => ?_
  refine Program.Within.rescue ?_ fun exc => ?_
  · refine ⟨htool arguments, fun answer _ => ?_⟩
    show Program.Within _ _ (ofExcept answer >>= _)
    refine .bind (within_ofExcept answer) fun result => ?_
    refine .bind (hemit (.emit _ _ _)) fun _ => ?_
    split
    · trivial
    · exact .bind (hemit (.query _)) fun _ => .bind (hemit (.emit _ _ _)) fun _ => trivial
  · exact .bind (hemit (.emit _ _ _)) fun _ => trivial

theorem within_toolApproval (h : MayExecute ctx allowed call) (tool : ToolDefinition)
    (arguments redacted : Json) : (toolApproval ctx tool arguments redacted).Within ok allowed :=
  .bind ((Plain.state _ _).lift h.plain) fun _ => .bind ((Plain.emit _ _ _).lift h.plain)
    fun _ => within_callService (h.service _)

theorem within_executeTool (h : MayExecute ctx allowed call) :
    (executeTool ctx call.id call).Within ok allowed := by
  unfold executeTool
  rcases hresolve : resolveTool ctx.cfg ctx.workflow call.id (some call.name) with e | tool
  · trivial
  rcases haccepts : ctx.cfg.admitToolCall ctx.workflow tool call.arguments with
    e | ⟨arguments, redacted⟩
  · simp only [ofExcept_ok, done_bind, haccepts, ofExcept_error]
    trivial
  have htool := fun a => h.tool tool _ a hresolve haccepts
  simp only [ofExcept_ok, done_bind, haccepts]
  split
  · refine .bind (within_toolApproval h tool arguments redacted) fun decision => ?_
    split
    · exact (Plain.rejectedToolCall _ _ _ _).lift h.plain
    · exact .bind ((Plain.emit _ _ _).lift h.plain) fun _ => within_runTool h.plain htool _ _
  · exact within_runTool h.plain htool _ _

theorem within_executeToolCall (h : MayExecute ctx allowed call) (iteration : ℕ)
    (toolCalls : List ModelToolCall) (messages : List ModelMessage) (index : ℕ) :
    (executeToolCall ctx iteration toolCalls messages index call).Within ok allowed := by
  unfold executeToolCall
  dsimp only
  split
  · refine .bind (within_persistApprovalContinuation h _) fun _ => ?_
    refine .bind (within_executeTool h) fun result => ?_
    refine .bind (within_lift ⟨h.record result, fun _ _ => trivial⟩) fun _ => ?_
    refine .bind (within_mergeLifecycleFields h) fun _ => ?_
    exact .bind (within_persistApprovalContinuation h _) fun _ => trivial
  · refine .bind (within_executeTool h) fun result => ?_
    exact .bind (within_lift ⟨h.record result, fun _ _ => trivial⟩) fun _ => trivial

/-- **Executing tool calls** one after the other. -/
theorem within_executeToolCalls (iteration : ℕ) (toolCalls : List ModelToolCall)
    {rest : List ModelToolCall} (h : ∀ call ∈ rest, MayExecute ctx allowed call)
    (messages : List ModelMessage) (index : ℕ) :
    (executeToolCalls ctx iteration toolCalls messages index rest).Within ok allowed := by
  induction rest generalizing messages index with
  | nil => trivial
  | cons call rest ih =>
    refine .bind (within_executeToolCall (h call List.mem_cons_self) iteration toolCalls
      messages index) fun messages => ?_
    exact ih (fun c hc => h c (List.mem_cons_of_mem call hc)) messages (index + 1)

end Calls

/-! ### Services -/

/-- The operation neither reads nor changes the engine's states. -/
def RuntimeOp.IsStateless : RuntimeOp → Prop
  | .proc (.state _ _) | .proc (.modifyState _ _) => False
  | _ => True

/-- A coroutine that does without the engine's states. -/
def Stateless {α : Type} (p : Coroutine α) : Prop :=
  p.Within (fun _ _ => True) RuntimeOp.IsStateless

namespace Stateless

variable {α β : Type}

theorem bind {p : Coroutine α} {f : α → Coroutine β} (hp : Stateless p)
    (hf : ∀ a, Stateless (f a)) : Stateless (p >>= f) := Program.Within.bind hp hf

theorem op {o : RuntimeOp} (h : o.IsStateless) :
    Stateless (perform (S := RuntimeSig) o : Coroutine o.Ret) := ⟨h, fun _ _ => trivial⟩

theorem pure (a : α) : Stateless (Pure.pure a : Coroutine α) := trivial

theorem query (o : DbOp) : Stateless (OpenAgency.query o) := ⟨trivial, fun _ _ => trivial⟩

theorem ofExcept (r : Except RuntimeException α) :
    Stateless (ofExcept r : Coroutine α) := within_ofExcept r

theorem getExecution {x : Uuid} {f : Option Execution → Coroutine β} (hnone : Stateless (f none))
    (hsome : ∀ e, Stateless (f (some e))) : Stateless (OpenAgency.getExecution x >>= f) :=
  bind (query _) fun row => row.rec hnone hsome

theorem consumeResolvedDecision (x : Uuid) (toolId digest : String) :
    Stateless (OpenAgency.consumeResolvedDecision x toolId digest) := by
  refine getExecution (pure none) fun e => ?_
  dsimp only
  split
  · exact pure none
  · split
    · exact pure none
    · split
      · exact pure none
      · refine bind (query _) fun request => ?_
        split
        · exact pure none
        · exact bind (query _) fun _ => pure _

theorem resolveExecutionWait (id : Uuid) (r : ExecutionWait.Resolution) :
    Stateless (OpenAgency.resolveExecutionWait id r) := by
  refine bind (op trivial) fun now => bind (query _) fun updated => ?_
  rcases updated with e | rowcount
  · exact ofExcept (.error e)
  · refine bind (query _) fun row => ?_
    rcases row with - | row
    · exact pure _
    · refine bind (ofExcept _) fun resolved => ?_
      split
      · exact pure _
      · split <;> exact pure _

theorem resolveApproval (x : Uuid) (toolId : String) (decision : ApprovalDecision)
    (respondedBy : String) :
    Stateless (OpenAgency.resolveApproval x toolId decision respondedBy) := by
  refine bind (bind (op trivial) fun now => bind (query _) fun latest => ?_) fun request => ?_
  · rcases latest with - | requestId
    · exact pure none
    · refine bind (query _) fun rowcount => bind (query _) fun entity => ?_
      rcases entity with - | entity
      · exact pure none
      · dsimp only
        split <;> exact pure _
  · rcases request with - | request
    · exact pure false
    · refine bind (bind (bind (query _) fun _ => ofExcept _) fun waits => ?_) fun _ => pure true
      split
      · exact pure ()
      · exact bind (resolveExecutionWait _ _) fun _ => pure ()

theorem newExecutionWait (build : Uuid → Time → ExecutionWait) :
    Stateless (OpenAgency.newExecutionWait build) :=
  bind (op trivial) fun _ => bind (op trivial) fun _ => ofExcept _

theorem createExecutionWait (wait : ExecutionWait) :
    Stateless (OpenAgency.createExecutionWait wait) := by
  refine bind (query _) fun inserted => ?_
  rcases inserted with e | -
  · refine bind (query _) fun existing => ?_
    rcases existing with - | existing
    · exact ofExcept (.error _)
    · exact ofExcept _
  · exact ofExcept _

theorem createDurableApprovalWait (a : ApprovalCall) (requestId : Uuid) (requestPayload : Json) :
    Stateless (OpenAgency.createDurableApprovalWait a requestId requestPayload) :=
  bind (query _) fun _ => bind (newExecutionWait _) fun wait =>
    bind (createExecutionWait wait) fun saved => pure saved.id

theorem openApproval (a : ApprovalCall) (digest : String) :
    Stateless (OpenAgency.openApproval a digest) := by
  refine bind (bind (op trivial) fun id => bind (op trivial) fun now => bind (query _) fun _ =>
    pure id) fun requestId => bind (op trivial) fun _ => ?_
  refine bind (createDurableApprovalWait a requestId _) fun waitId => ?_
  refine bind (getExecution (pure ()) fun e => query _) fun _ => ?_
  refine bind (bind (op trivial) fun answer => ?_) fun decision => ?_
  · rcases answer with e | decision
    · exact pure none
    · exact pure decision
  · rcases decision with - | decision
    · exact ofExcept (.error _)
    · refine bind (resolveApproval _ _ _ _) fun _ => bind ?_ fun _ => pure decision
      exact getExecution (pure ()) fun e => query _

/-- Services do without the engine's states. -/
theorem service (cfg : EngineConfig) (c : ServiceCall) : Stateless (c.program cfg) := by
  cases c with
  | requestApproval a =>
    refine bind (consumeResolvedDecision _ _ _) fun decision => ?_
    rcases decision with - | decision
    · refine Program.Within.rescue (openApproval a _) fun exc => ?_
      exact bind (op trivial) fun _ => ofExcept (.error exc)
    · exact pure decision
  | recordTokenUsage x c =>
    refine bind (getExecution (pure _) fun e => ?_) fun _ => pure _
    dsimp only
    split
    · exact pure _
    · exact bind (query _) fun _ => pure _

end Stateless

/-- An operation of the engine that is neither a read nor a change of its states leaves
them as they are. -/
theorem states_handler {env : Environment} {o : RuntimeOp} (h : o.IsStateless) (w : World) :
    (handler env o w).2.proc.states = w.proc.states := by
  cases o with
  | proc o =>
    cases o with
    | state x workflowId => cases h
    | modifyState x f => cases h
    | createTask x =>
      show (if x ∈ w.proc.tasks then w.proc else _).states = w.proc.states
      split <;> rfl
    | _ => rfl
  | _ => rfl

theorem states_service {cfg : EngineConfig} {env : Environment} (c : ServiceCall)
    (limit : Option ℕ) (s : Session) :
    (engineHandler cfg env (.service c limit) s).2.world.proc.states = s.world.proc.states := by
  have hkeeps := Program.Within.invariant (H := handler env)
    (I := fun w : World => w.proc.states = s.world.proc.states)
    (fun o w hw ho => ⟨trivial, (states_handler ho w).trans hw⟩)
    ((Stateless.service cfg c).limit limit) rfl
  rw [Program.wp_state] at hkeeps
  exact hkeeps

end OpenAgency
