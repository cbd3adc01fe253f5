/-
ToolAllowList.lean

Which tools the agent loop executes.  `_tool_payload` resolves the task's tool ids,
or the agent's, and shows these tools to the model; what the model then calls is
resolved again, by id and by name, among all tools of the workflow, all built-in
tools and the registered catalog tools.  So the list binds the model only as far as
the model keeps to it: the loop executes allowed tools exactly if every call it gets
names an allowed tool, or a tool that refuses the call's arguments.

`calls` are the calls the loop may get, in an answer of the model or in a transcript
stored at an approval.
-/
import OpenAgency.Lib.Pool
import OpenAgency.LoopOperations

namespace OpenAgency

open Interaction Program

/-! ### Calls and allowed tools -/

/-- `_tool_payload`: the tools the ids of the task, or else of the agent, resolve to. -/
def allowedTools (ctx : TaskContext) : List ToolDefinition :=
  let allowedToolIds := if ctx.task.toolIds ≠ [] then ctx.task.toolIds else ctx.agent.toolIds
  allowedToolIds.filterMap fun toolId => (resolveTool ctx.cfg ctx.workflow toolId none).toOption

/-- A call as the loop sees it, after what the model answered: a call without an id has
been given one. -/
def IsCall (answered : Option String × String × Json) (call : ModelToolCall) : Prop :=
  call.name = answered.2.1 ∧ call.arguments = answered.2.2 ∧
    match orElseString answered.1 none with
    | some id => call.id = id
    | none => ∃ fresh : Uuid, call.id = s!"tool-call-{fresh}"

/-- The answers of a world in which the loop gets no other calls than `calls`. -/
def GetsCalls (ctx : TaskContext) (calls : ModelToolCall → Prop) :
    (o : EngineOp) → o.Ret → Prop
  | .runtime (.ext (.generateText _ _ _)), .ok response =>
    ∀ answered ∈ response.toolCalls, ∀ call, IsCall answered call → calls call
  | .runtime (.proc (.object _)), e =>
    ∀ c, approvalContinuation e ctx.task = some c → ∀ call ∈ c.toolCalls, calls call
  | _, _ => True

/-- A tool the loop executes is allowed. -/
def ExecutesAllowed (ctx : TaskContext) (o : EngineOp) : Prop :=
  ∀ toolId arguments, o = .runtime (.ext (.executeTool toolId arguments)) →
    toolId ∈ (allowedTools ctx).map (·.id)

/-- The call resolves to an allowed tool, or to none, or to a tool that refuses its
arguments. -/
def NamesAllowed (ctx : TaskContext) (call : ModelToolCall) : Prop :=
  ∀ tool admitted, resolveTool ctx.cfg ctx.workflow call.id (some call.name) = .ok tool →
    ctx.cfg.admitToolCall ctx.workflow tool call.arguments = .ok admitted →
    tool.id ∈ (allowedTools ctx).map (·.id)

/-! ### Coroutines that execute no tool -/

/-- A coroutine that executes no tool. -/
def Quiet {α : Type} (p : Coroutine α) : Prop :=
  p.Within (fun _ _ => True) fun o =>
    ∀ toolId arguments, o ≠ RuntimeOp.ext (.executeTool toolId arguments)

/-- A plain coroutine executes no tool. -/
theorem Plain.quiet {α : Type} {p : Coroutine α} (h : Plain p) : Quiet p :=
  h.mono (fun _ _ _ => trivial) fun _ ho _ _ heq => by
    rw [heq] at ho
    exact ho

namespace Quiet

variable {α : Type}

/-- A coroutine that executes no tool executes allowed tools only. -/
theorem allowed {ctx : TaskContext} {ok : (o : RuntimeOp) → o.Ret → Prop} {p : Coroutine α}
    (h : Quiet p) : p.Within ok fun o => ExecutesAllowed ctx (.runtime o) := by
  induction p with
  | done a => trivial
  | raise e => trivial
  | call o k ih =>
    refine ⟨fun toolId arguments ho => ?_, fun r _ => ih r (h.2 r trivial)⟩
    exact absurd (EngineOp.runtime.inj ho) (h.1 toolId arguments)

theorem lift {ctx : TaskContext} {calls : ModelToolCall → Prop} {p : Coroutine α} (h : Quiet p) :
    (liftM p : EngineRun α).Within (GetsCalls ctx calls) (ExecutesAllowed ctx) :=
  within_lift h.allowed

end Quiet

/-! ### Calls that name allowed tools -/

section Allowed

variable {ctx : TaskContext} {calls : ModelToolCall → Prop}

/-- A call that names an allowed tool may be executed. -/
theorem NamesAllowed.mayExecute {call : ModelToolCall} (h : NamesAllowed ctx call) :
    MayExecute ctx (ExecutesAllowed ctx) call where
  plain o ho toolId arguments heq := by
    rw [EngineOp.runtime.inj heq] at ho
    cases ho
  object ref f toolId arguments heq := by simp at heq
  record result toolId arguments heq := by simp at heq
  service c limit toolId arguments heq := by simp at heq
  tool tool admitted _ hresolve haccepts toolId arguments' heq := by
    have hallowed := h tool admitted hresolve haccepts
    simp only [EngineOp.runtime.injEq, RuntimeOp.ext.injEq, ExtOp.executeTool.injEq] at heq
    exact heq.1 ▸ hallowed

theorem within_service (c : ServiceCall) :
    (callService c).Within (GetsCalls ctx calls) (ExecutesAllowed ctx) :=
  within_callService fun _ _ _ heq => by simp at heq

/-- What the model answers are calls of `calls`. -/
theorem ensures_generateText (messages : List ModelMessage) (withTools : Bool) :
    (liftM (ask (.generateText ctx.agent.id messages withTools)) :
      EngineRun (Except RuntimeException ModelResponse)).Ensures (GetsCalls ctx calls)
        (ExecutesAllowed ctx) fun answer => ∀ response, answer = .ok response →
          ∀ answered ∈ response.toolCalls, ∀ call, IsCall answered call → calls call := by
  refine ⟨fun _ _ h => by simp at h, fun answer hanswer response hr => ?_⟩
  subst hr
  exact hanswer

theorem ensures_modelTurn (policy : Option TokenBudgetPolicy) (modelRequestId : Uuid)
    (messages : List ModelMessage) (withTools : Bool) :
    (modelTurn ctx policy modelRequestId messages withTools).Ensures (GetsCalls ctx calls)
      (ExecutesAllowed ctx) fun response =>
        ∀ answered ∈ response.toolCalls, ∀ call, IsCall answered call → calls call := by
  unfold modelTurn
  refine (Plain.emit _ _ _).quiet.lift.bind_ensures fun _ => ?_
  refine (ensures_generateText messages withTools).bind fun answer hanswer => ?_
  rcases answer with e | response
  · trivial
  · rw [ofExcept_ok, done_bind]
    refine (Plain.emit _ _ _).quiet.lift.bind_ensures fun _ => ?_
    refine (Plain.emit _ _ _).quiet.lift.bind_ensures fun _ => ?_
    refine (within_service _).bind_ensures fun statuses => ?_
    refine (Plain.forM (fun s => ?_) statuses).quiet.lift.bind_ensures fun _ => ?_
    · exact .bind (Plain.emit _ _ _) fun _ => Plain.pure _
    · refine (Plain.enforceTokenBudgetAction _ _ _).quiet.lift.bind_ensures fun _ => ?_
      exact hanswer response rfl

/-- A turn with tool calls. -/
theorem within_toolTurn (hcalls : ∀ call, calls call → NamesAllowed ctx call) (iteration : ℕ)
    (s : LoopState) (response : ModelResponse)
    (h : ∀ answered ∈ response.toolCalls, ∀ call, IsCall answered call → calls call) :
    (toolTurn ctx iteration s response).Within (GetsCalls ctx calls) (ExecutesAllowed ctx) := by
  unfold toolTurn
  dsimp only
  by_cases hgrace : s.finalizationGrace = true
  · rw [if_pos hgrace]
    trivial
  rw [if_neg hgrace]
  refine Program.Ensures.within (Q := fun _ => True) ?_
  refine Program.Ensures.bind (P := fun toolCalls => ∀ call ∈ toolCalls, calls call)
    (ensures_lift (ensures_mapM fun answered hmem => ?_)) fun toolCalls htoolCalls => ?_
  · -- the loop fills in the ids of the calls it gets
    obtain ⟨id, name, arguments⟩ := answered
    rcases hid : orElseString id none with - | known
    · refine ⟨fun _ _ ho => by simp at ho, fun fresh _ => ?_⟩
      refine h _ hmem _ ⟨rfl, rfl, ?_⟩
      rw [hid]
      exact ⟨fresh, rfl⟩
    · refine h _ hmem _ ⟨rfl, rfl, ?_⟩
      rw [hid]
  · have hmay : ∀ call ∈ toolCalls, MayExecute ctx (ExecutesAllowed ctx) call :=
      fun call hmem => (hcalls call (htoolCalls call hmem)).mayExecute
    split
    · refine (Plain.emit _ _ _).quiet.lift.bind_ensures fun _ => ?_
      exact (within_executeToolCalls iteration toolCalls hmay _ 0).bind_ensures fun _ => trivial
    · exact (within_executeToolCalls iteration toolCalls hmay _ 0).bind_ensures fun _ => trivial

/-- A turn without tool calls. -/
theorem within_outputTurn (s : LoopState) (response : ModelResponse) :
    (outputTurn ctx s response).Within (GetsCalls ctx calls) (ExecutesAllowed ctx) := by
  unfold outputTurn
  dsimp only
  split
  · refine .bind (Plain.emit _ _ _).quiet.lift fun _ => ?_
    split
    · trivial
    · split <;> trivial
  · split
    · trivial
    · split <;> trivial

theorem within_agentLoop (hcalls : ∀ call, calls call → NamesAllowed ctx call)
    (policy : Option TokenBudgetPolicy) (remaining iteration : ℕ) (s : LoopState) :
    (agentLoop ctx policy remaining iteration s).Within (GetsCalls ctx calls)
      (ExecutesAllowed ctx) := by
  induction remaining generalizing iteration s with
  | zero => trivial
  | succ remaining ih =>
    unfold agentLoop
    dsimp only
    by_cases hstop : (decide (ctx.agent.maxIterations < iteration) && !s.structuredOutputRepair &&
        !s.finalizationGrace) = true
    · rw [if_pos hstop]
      trivial
    rw [if_neg hstop]
    refine .bind (Plain.assertNotInterrupted ctx).quiet.lift fun _ => ?_
    refine .bind Plain.uuid4.quiet.lift fun modelRequestId => ?_
    refine .bind (Plain.recordContextHealth _ _).quiet.lift fun _ => ?_
    refine Program.Ensures.within (Q := fun _ => True) ?_
    refine (ensures_modelTurn _ _ _ _).bind fun response hresponse => ?_
    split
    · refine (within_toolTurn hcalls iteration _ response hresponse).bind_ensures fun s => ?_
      exact (ih (iteration + 1) s).ensures
    · refine (within_outputTurn _ response).bind_ensures fun outcome => ?_
      rcases outcome with output | s
      · trivial
      · exact (ih (iteration + 1) s).ensures

theorem within_executeTask (hcalls : ∀ call, calls call → NamesAllowed ctx call) :
    (executeTask ctx).Within (GetsCalls ctx calls) (ExecutesAllowed ctx) := by
  have hobject : (liftM (process (.object ctx.ref)) : EngineRun Execution).Ensures
      (GetsCalls ctx calls) (ExecutesAllowed ctx) fun e =>
        ∀ c, approvalContinuation e ctx.task = some c → ∀ call ∈ c.toolCalls, calls call :=
    ⟨fun _ _ h => by simp at h, fun e he => he⟩
  unfold executeTask
  refine Program.Ensures.within (Q := fun _ => True) (hobject.bind fun e he => ?_)
  refine (Plain.state _ _).quiet.lift.bind_ensures fun st => ?_
  split
  · exact (within_agentLoop hcalls _ _ _ _).ensures
  next c hc =>
    refine (within_executeToolCalls _ _ (fun call hmem => ?_) _ _).bind_ensures fun messages =>
      (within_agentLoop hcalls _ _ _ _).ensures
    exact (hcalls call (he c hc call (List.mem_of_mem_drop hmem))).mayExecute

end Allowed

/-! ### A call that names a tool outside the list -/

section Outside

variable {ctx : TaskContext} {calls : ModelToolCall → Prop}

theorem mayReturn_emit (st : NativeExecutionState) (eventType : ExecutionEventType)
    (labels : EventLabels) :
    (emit st eventType labels).MayReturn (fun o => GetsCalls ctx calls (.runtime o))
      fun _ => True := by
  let event : ExecutionEvent :=
    { id := 0, executionId := 0, workflowId := "", eventType := eventType, sequence := 0
      timestamp := 0 }
  refine ⟨(), trivial, st, trivial, 0, trivial, 0, trivial, ?_⟩
  exact ⟨.ok event, trivial, (), trivial, trivial⟩

theorem mayReturn_currentState :
    ctx.currentState.MayReturn (fun o => GetsCalls ctx calls (.runtime o)) fun _ => True :=
  ⟨ctx.state, trivial, trivial⟩

/-- The approval is granted. -/
theorem mayReturn_toolApproval (tool : ToolDefinition) (arguments redacted : Json) :
    (toolApproval ctx tool arguments redacted).MayReturn (GetsCalls ctx calls)
      fun decision => decision.granted = true := by
  refine (mayReturn_lift mayReturn_currentState).bind fun st _ => ?_
  refine (mayReturn_lift (mayReturn_emit _ _ _)).bind fun event _ => ?_
  exact ⟨some (.ok { granted := true }, none), trivial, rfl⟩

/-- An object without a transcript is saved. -/
theorem mayReturn_persistApprovalContinuation (c : ApprovalContinuation) :
    (persistApprovalContinuation ctx c).MayReturn (fun o => GetsCalls ctx calls (.runtime o))
      fun _ => True := by
  refine mayReturn_currentState.bind fun st _ => ?_
  refine ⟨(), trivial, ?_⟩
  refine ⟨({ id := 0, workflowId := "" } : Execution), ?_, (), trivial, trivial⟩
  intro c hc
  cases hc

/-- Execution of one tool. -/
abbrev Executes (toolId : String) (o : EngineOp) : Prop :=
  ∃ arguments, o = .runtime (.ext (.executeTool toolId arguments))

theorem reaches_runTool (tool : ToolDefinition) (callId : String) (arguments : Json) :
    (liftM (runTool ctx tool callId arguments) : EngineRun Json).Reaches (GetsCalls ctx calls)
      (Executes tool.id) := by
  refine reaches_lift ((mayReturn_emit _ _ _).reaches_bind fun _ _ => ?_)
  exact Program.Reaches.rescue (.inl ⟨arguments, rfl⟩)

variable {call : ModelToolCall} {tool : ToolDefinition} {admitted : Json × Json}

theorem reaches_executeTool
    (hresolve : resolveTool ctx.cfg ctx.workflow call.id (some call.name) = .ok tool)
    (haccepts : ctx.cfg.admitToolCall ctx.workflow tool call.arguments = .ok admitted) :
    (executeTool ctx call.id call).Reaches (GetsCalls ctx calls) (Executes tool.id) := by
  unfold executeTool
  simp only [hresolve, ofExcept_ok, done_bind, haccepts]
  split
  · refine (mayReturn_toolApproval tool _ _).reaches_bind fun decision hgranted => ?_
    rw [if_neg (by simp [hgranted])]
    exact (mayReturn_lift (mayReturn_emit _ _ _)).reaches_bind fun _ _ => reaches_runTool _ _ _
  · exact reaches_runTool _ _ _

theorem reaches_executeToolCall
    (hresolve : resolveTool ctx.cfg ctx.workflow call.id (some call.name) = .ok tool)
    (haccepts : ctx.cfg.admitToolCall ctx.workflow tool call.arguments = .ok admitted)
    (iteration : ℕ) (toolCalls : List ModelToolCall) (messages : List ModelMessage) (index : ℕ) :
    (executeToolCall ctx iteration toolCalls messages index call).Reaches (GetsCalls ctx calls)
      (Executes tool.id) := by
  unfold executeToolCall
  dsimp only
  split
  · refine (mayReturn_lift (mayReturn_persistApprovalContinuation _)).reaches_bind fun _ _ => ?_
    exact (reaches_executeTool hresolve haccepts).bind_left
  · exact (reaches_executeTool hresolve haccepts).bind_left

/-- An execution whose stored transcript stops before a call. -/
def storedAt (ctx : TaskContext) (call : ModelToolCall) : Execution where
  id := 0
  workflowId := ""
  outputPayload := some {
    checkpoint := some {
      approvalContinuation := some {
        taskId := ctx.task.id
        agentId := ctx.agent.id
        iteration := 1
        pendingToolIndex := 0
        pendingContextPersisted := true
        messages := []
        toolCalls := [call] } } }

theorem approvalContinuation_storedAt (ctx : TaskContext) (call : ModelToolCall) :
    (approvalContinuation (storedAt ctx call) ctx.task).map (·.toolCalls) = some [call] := by
  simp [approvalContinuation, storedAt]

theorem reaches_executeTask (hcall : calls call)
    (hresolve : resolveTool ctx.cfg ctx.workflow call.id (some call.name) = .ok tool)
    (haccepts : ctx.cfg.admitToolCall ctx.workflow tool call.arguments = .ok admitted) :
    (executeTask ctx).Reaches (GetsCalls ctx calls) (Executes tool.id) := by
  have hobject : (liftM (process (.object ctx.ref)) : EngineRun Execution).MayReturn
      (GetsCalls ctx calls) fun e => e = storedAt ctx call := by
    refine ⟨storedAt ctx call, fun c hc call' hmem => ?_, rfl⟩
    have htoolCalls := approvalContinuation_storedAt ctx call
    rw [hc, Option.map_some, Option.some.injEq] at htoolCalls
    rw [htoolCalls] at hmem
    exact List.mem_singleton.mp hmem ▸ hcall
  unfold executeTask
  refine hobject.reaches_bind fun e he => ?_
  subst he
  refine (mayReturn_lift mayReturn_currentState).reaches_bind fun st _ => ?_
  rcases hc : approvalContinuation (storedAt ctx call) ctx.task with - | c
  · simp [approvalContinuation, storedAt] at hc
  · have htoolCalls := approvalContinuation_storedAt ctx call
    have hindex : c.pendingToolIndex = 0 := by
      simp only [approvalContinuation, storedAt] at hc
      simp at hc
      rw [← hc.1]
    rw [hc, Option.map_some, Option.some.injEq] at htoolCalls
    simp only [htoolCalls, hindex, List.drop_zero]
    exact (Program.Reaches.bind_left (reaches_executeToolCall hresolve haccepts _ _ _ _)).bind_left

end Outside

/-! ### The allow-list -/

/-- **Allowed tools are executed exactly as far as the calls keep to them.**  Whatever
else the world answers, a loop that gets its calls from `calls` only executes tools
resolved from the task's tool ids, or the agent's, if and only if each of these calls
resolves to such a tool, to none, or to one that refuses the call's arguments. -/
theorem executesAllowed_iff (ctx : TaskContext) (calls : ModelToolCall → Prop) :
    (executeTask ctx).Within (GetsCalls ctx calls) (ExecutesAllowed ctx) ↔
      ∀ call, calls call → NamesAllowed ctx call := by
  constructor
  · intro h call hcall tool admitted hresolve haccepts
    by_contra hallowed
    have hreaches := reaches_executeTask hcall hresolve haccepts
    refine not_within_of_reaches (fun o ho => ?_) hreaches h
    rintro hexecutes
    obtain ⟨arguments, rfl⟩ := ho
    exact hallowed (hexecutes tool.id arguments rfl)
  · exact within_executeTask

/-! ### A call by another tool's name -/

namespace ToolAllowList

/-- A task that may read notes, in a workflow that can also send mail. -/
def reading : TaskContext where
  cfg := .bare
  state := { executionId := 0, workflowId := "w" }
  ref := 0
  workflow := {
    id := "w"
    name := "w"
    entrypoint := "n"
    toolDefinitions := [{ id := "notes.read", name := "notes_read" },
      { id := "mail.send", name := "mail_send" }] }
  task := { id := "t", name := "t", toolIds := ["notes.read"] }
  agent := { id := "a", name := "a" }

/-- A model that calls `mail_send`. -/
def mailing : Environment := .counting fun
  | _, .generateText _ _ _ =>
    .ok { content := none, toolCalls := [(some "c", "mail_send", .null)], usage := {} }
  | n, o => ExtOp.silent n o

def started : Execution := { id := 0, workflowId := "w" }

/-- The task is about to be executed. -/
def ready : Session where
  world := {
    db := { executions := Relational.Table.empty.save started }
    proc := { objects := [started] } }

/-- The tools executed, oldest first. -/
def executed (trace : List (Unit × Event EngineSig)) : List String :=
  trace.filterMap fun
    | (_, ⟨.runtime (.ext (.executeTool toolId _)), _⟩) => some toolId
    | _ => none

end ToolAllowList

open ToolAllowList in
/-- The task may only read notes, and the loop sends mail. -/
theorem mail_sent : ∃ q, Pool.Runs (fun _ : Unit => executeTask reading)
      (engineHandler .bare mailing) (fun _ _ => True) { shared := ready } q ∧
    executed q.trace = ["mail.send"] ∧ (allowedTools reading).map (·.id) = ["notes.read"] := by
  rcases h : Pool.nexts (fun _ : Unit => executeTask reading) (engineHandler .bare mailing)
    { shared := ready } (.start () :: List.replicate 40 (.step 0)) with - | q
  · cases h
  · refine ⟨q, Pool.runs_of_nexts h, ?_, by decide⟩
    cases h
    rfl

end OpenAgency
