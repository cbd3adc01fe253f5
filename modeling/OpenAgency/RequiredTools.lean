/-
RequiredTools.lean

Proof of the tool calls a task requires.  A node whose task names required tools only
succeeds if a result of each is recorded, with an allowed status where statuses are
listed.  The results are recorded by task, and what is recorded is what a call returned
to the agent loop: the result of the tool, or the note that its rejected call was skipped.

    recorded for the task before the node   +   returned by tools   +   skipped calls
                         └──────────────  what the check reads  ──────────────┘

So a success is proof of the calls as far as nothing but calls of the node itself feeds
the list: no result of another node of the same task, none restored with the checkpoint,
no skipped call.
-/
import OpenAgency.BuiltinTools
import OpenAgency.NodeVisits

namespace OpenAgency

open Interaction Program List TaskDefinition

/-! ### Calls of tools -/

/-- What calls of tools have come to. -/
structure ToolCalls where
  /-- What tools have returned. -/
  returned : List ToolResult := []
  /-- The tools whose calls were rejected and skipped. -/
  skipped : List String := []
  deriving Inhabited

/-- A rejected call of the tool may be skipped. -/
def isSkippable (ctx : TaskContext) (toolId : String) : Bool :=
  (availableTools ctx.cfg ctx.workflow).any fun tool =>
    tool.id = toolId && tool.approvalOnRejection = .skip

def ToolCalls.next (ctx : TaskContext) (φ : ToolCalls) : Event EngineSig → ToolCalls
  | ⟨.runtime (.ext (.executeTool toolId _)), .ok result⟩ =>
    { φ with returned := φ.returned ++ [{ toolId := toolId, result := result }] }
  | ⟨.service (.requestApproval a) _, some (.ok decision, _)⟩ =>
    if !decision.granted && isSkippable ctx a.toolId then
      { φ with skipped := φ.skipped ++ [a.toolId] }
    else φ
  | _ => φ

/-- The calls in a trace. -/
def toolCalls (ctx : TaskContext) (trace : List (Event EngineSig)) : ToolCalls :=
  trace.foldl (ToolCalls.next ctx) {}

/-- A result stems from `start`, from a tool, or from a skipped call. -/
def ToolCalls.Backs (φ : ToolCalls) (start : List ToolResult) (r : ToolResult) : Prop :=
  r ∈ start ∨ r ∈ φ.returned ∨ r.toolId ∈ φ.skipped

section Calls

variable {ctx : TaskContext} {φ : ToolCalls} {start : List ToolResult} {r : ToolResult}

theorem ToolCalls.returned_subset (φ : ToolCalls) (e : Event EngineSig) :
    φ.returned ⊆ (φ.next ctx e).returned := by
  unfold ToolCalls.next
  split
  · exact subset_append_left _ _
  · split <;> exact List.Subset.refl _
  · exact List.Subset.refl _

theorem ToolCalls.skipped_subset (φ : ToolCalls) (e : Event EngineSig) :
    φ.skipped ⊆ (φ.next ctx e).skipped := by
  unfold ToolCalls.next
  split
  · exact List.Subset.refl _
  · split
    · exact subset_append_left _ _
    · exact List.Subset.refl _
  · exact List.Subset.refl _

theorem ToolCalls.Backs.next (h : φ.Backs start r) (e : Event EngineSig) :
    (φ.next ctx e).Backs start r := by
  rcases h with hstart | hreturned | hskipped
  · exact .inl hstart
  · exact .inr (.inl (φ.returned_subset e hreturned))
  · exact .inr (.inr (φ.skipped_subset e hskipped))

end Calls

/-! ### The check -/

/-- The status of the result is one the task allows, where it lists any. -/
def TaskDefinition.allowsStatus (cfg : EngineConfig) (task : TaskDefinition) (r : ToolResult) :
    Bool :=
  match task.requiredToolSuccessStatuses.get? r.toolId with
  | none | some [] => true
  | some allowed =>
    match r.result with
    | .obj fields => decide (normalizedText cfg ((Json.obj fields).get? "status") ∈
        allowed.map fun item => cfg.lower (strip (cfg.pyStr item)))
    | _ => false

/-- Among the results with `P` is one of each required tool, with an allowed status. -/
def TaskDefinition.SatisfiedBy (cfg : EngineConfig) (task : TaskDefinition)
    (P : ToolResult → Prop) : Prop :=
  ∀ id ∈ task.requiredToolIds, ∃ r, r.toolId = id ∧ P r ∧ task.allowsStatus cfg r = true

theorem TaskDefinition.SatisfiedBy.mono {cfg : EngineConfig} {task : TaskDefinition}
    {P Q : ToolResult → Prop} (h : task.SatisfiedBy cfg P)
    (hPQ : ∀ r, r.toolId ∈ task.requiredToolIds → P r → Q r) : task.SatisfiedBy cfg Q := by
  intro id hid
  obtain ⟨r, rfl, hP, hstatus⟩ := h id hid
  exact ⟨r, rfl, hPQ r hid hP, hstatus⟩

/-- The check finds no error exactly if the recorded results satisfy the task. -/
theorem requiredToolResultError_eq_none {cfg : EngineConfig} {task : TaskDefinition}
    {results : List ToolResult} :
    requiredToolResultError cfg task results = none ↔ task.SatisfiedBy cfg (· ∈ results) := by
  unfold requiredToolResultError
  dsimp only
  by_cases hmissing : task.requiredToolIds.filter (fun id => !results.any (·.toolId = id)) = []
  · rw [if_neg (not_not.mpr hmissing), Option.map_eq_none_iff, List.find?_eq_none]
    rw [filter_eq_nil_iff] at hmissing
    refine forall_congr' fun id => imp_congr_right fun hid => ?_
    obtain ⟨r₀, hr₀, rfl⟩ : ∃ r ∈ results, r.toolId = id := by simpa using hmissing id hid
    -- with no status listed any result will do
    have hany : ∀ statuses, task.requiredToolSuccessStatuses.get? r₀.toolId = statuses →
        statuses = none ∨ statuses = some [] → task.allowsStatus cfg r₀ = true := by
      rintro statuses hget (rfl | rfl)
      · rw [allowsStatus, hget]
      · rw [allowsStatus, hget]
    rcases hget : task.requiredToolSuccessStatuses.get? r₀.toolId with - | (- | ⟨status, allowed⟩)
    · exact iff_of_true Bool.false_ne_true ⟨r₀, rfl, hr₀, hany _ hget (.inl rfl)⟩
    · exact iff_of_true Bool.false_ne_true ⟨r₀, rfl, hr₀, hany _ hget (.inr rfl)⟩
    · rw [Bool.not_eq_true, Bool.not_eq_false', any_eq_true]
      refine exists_congr fun r => ?_
      constructor
      · rintro ⟨hr, hcheck⟩
        obtain ⟨hid', hstatus⟩ := Bool.and_eq_true_iff.mp hcheck
        have hid' : r.toolId = r₀.toolId := of_decide_eq_true hid'
        refine ⟨hid', hr, ?_⟩
        rw [allowsStatus, hid', hget]
        exact hstatus
      · rintro ⟨hid', hr, hstatus⟩
        rw [allowsStatus, hid', hget] at hstatus
        exact ⟨hr, Bool.and_eq_true_iff.mpr ⟨decide_eq_true hid', hstatus⟩⟩
  · rw [if_pos hmissing]
    refine iff_of_false nofun fun h => hmissing ?_
    rw [filter_eq_nil_iff]
    intro id hid
    obtain ⟨r, hr, hmem, -⟩ := h id hid
    simpa using ⟨r, hmem, hr⟩

/-! ### What is recorded -/

/-- The results recorded for a task. -/
def evidence (taskId : String) (st : NativeExecutionState) : List ToolResult :=
  (st.taskToolResults.get? taskId).getD []

/-- What the state says is accounted for by what it was when the node started, and by the
calls since. -/
structure Accounts (ctx : TaskContext) (nodeId : String) (start : NativeExecutionState)
    (φ : ToolCalls) (st : NativeExecutionState) : Prop where
  others : ∀ taskId, taskId ≠ ctx.task.id → evidence taskId st = evidence taskId start
  backed : ∀ r ∈ evidence ctx.task.id st, φ.Backs (evidence ctx.task.id start) r
  outcome : (st.nodeOutputs.get? nodeId).isSome → st.nodeOutcomes.get? nodeId = some .success →
    ctx.task.SatisfiedBy ctx.cfg (φ.Backs (evidence ctx.task.id start))

section Node

variable {ctx : TaskContext} {nodeId : String} {start : NativeExecutionState}

theorem tracks_accounts : Tracks (ToolCalls.next ctx) (Accounts ctx nodeId start) where
  same φ st st' hsame h := by
    have hevidence : ∀ taskId, evidence taskId st' = evidence taskId st := fun taskId => by
      rw [evidence, evidence, hsame.taskToolResults]
    refine ⟨fun taskId hne => ?_, ?_, ?_⟩
    · rw [hevidence, h.others taskId hne]
    · rw [hevidence]
      exact h.backed
    · rw [hsame.nodeOutputs, hsame.nodeOutcomes]
      exact h.outcome
  mono φ e st h :=
    ⟨h.others, fun r hr => (h.backed r hr).next e, fun houtput houtcome =>
      (h.outcome houtput houtcome).mono fun r _ hr => hr.next e⟩
  service φ c limit limit' result left left' := by
    cases c with
    | requestApproval a => rcases result with e | decision <;> rfl
    | recordTokenUsage x c => rfl

/-- The protocol of the node. -/
abbrev toolProtocol (ctx : TaskContext) (nodeId : String) (start : NativeExecutionState) :
    Protocol EngineSig Unit ToolCalls :=
  stateProtocol ctx.executionId (ToolCalls.next ctx) (Accounts ctx nodeId start)

variable {φ : ToolCalls}

/-- Plain coroutines keep what further calls do not undo. -/
theorem follows_plain_keeping {α : Type} {p : Coroutine α} (hp : Plain p) {I : ToolCalls → Prop}
    (hI : ∀ φ e, I φ → I (ToolCalls.next ctx φ e)) (hφ : I φ) :
    p.Follows (runtimeProtocol (toolProtocol ctx nodeId start)) () (fun _ => I) (fun _ => I) φ := by
  refine follows_of_always (fun φ e => hI φ ⟨.runtime e.op, e.ret⟩)
    (hp.mono (fun _ _ _ => trivial) fun o ho φ => ?_) hφ
  show (toolProtocol ctx nodeId start).allowed () φ (.runtime o)
  exact tracks_accounts.allowed_of_isPlain ho φ

/-- What a tool that has run returns has been returned. -/
theorem follows_runTool (tool : ToolDefinition) (callId : String) (arguments : Json) :
    (liftM (runTool ctx tool callId arguments) : EngineRun Json).Follows
      (toolProtocol ctx nodeId start) ()
      (fun result φ => { toolId := tool.id, result := result } ∈ φ.returned) (fun _ _ => True)
      φ := by
  have hemit : ∀ (eventType : ExecutionEventType) (toolCallId : Option String) (φ : ToolCalls),
      (ctx.emitCurrent eventType toolCallId).Follows
        (runtimeProtocol (toolProtocol ctx nodeId start)) () (fun _ _ => True) (fun _ _ => True)
        φ :=
    fun _ _ _ => follows_plain_keeping (Plain.emit _ _ _) (fun _ _ _ => trivial) trivial
  have hfailed : ∀ (e : RuntimeException) (φ : ToolCalls), (do
      let _ ← ctx.emitCurrent .toolCallFailed (some callId)
      Program.throw { e with cls := .toolExecution } : Coroutine Json).Follows
        (runtimeProtocol (toolProtocol ctx nodeId start)) ()
        (fun result φ => { toolId := tool.id, result := result } ∈ φ.returned) (fun _ _ => True)
        φ := by
    intro e φ
    apply follows_bind
    exact (hemit _ _ φ).mono (fun _ _ _ => follows_raise trivial) fun _ _ _ => trivial
  apply follows_lift
  unfold runTool
  apply follows_bind
  refine (hemit _ _ φ).mono (fun _ φ _ => ?_) fun _ _ _ => trivial
  apply follows_rescue
  refine follows_call (fun _ ho => by cases ho) fun answer _ => ?_
  rcases answer with e | result
  · exact follows_raise (hfailed e _)
  · rw [bind_eq_bind, done_bind, Program.ofExcept_ok, done_bind]
    -- the result is there, and what follows does not undo it
    have hthere : { toolId := tool.id, result := result } ∈
        (ToolCalls.next ctx φ ⟨.runtime (.ext (.executeTool tool.id arguments)),
          .ok result⟩).returned := mem_append_right _ mem_cons_self
    refine ((follows_plain_keeping ?_ (fun φ e h => φ.returned_subset e h) hthere).and_returns
      (R := (· = result)) ?_).mono (fun _ φ h => ?_) fun e φ _ => hfailed e φ
    · refine .bind (Plain.emit _ _ _) fun _ => ?_
      split
      · exact Plain.pure _
      · exact .bind (Plain.query _) fun _ => .bind (Plain.emit _ _ _) fun _ => Plain.pure _
    · refine .bind fun _ => ?_
      split
      · rfl
      · exact .bind fun _ => .bind fun _ => rfl
    · rw [h.1]
      exact h.2

/-- A rejected call of a tool that skips such calls is among the skipped ones. -/
theorem follows_toolApproval (tool : ToolDefinition) (arguments redacted : Json) :
    (toolApproval ctx tool arguments redacted).Follows (toolProtocol ctx nodeId start) ()
      (fun decision φ => decision.granted = false → isSkippable ctx tool.id = true →
        tool.id ∈ φ.skipped) (fun _ _ => True) φ := by
  apply follows_bind
  refine (tracks_accounts.obeys_plain (Plain.state _ _) φ).mono (fun _ φ _ => ?_) fun _ _ _ => trivial
  apply follows_bind
  refine (tracks_accounts.obeys_plain (Plain.emit _ _ _) φ).mono (fun event φ _ => ?_)
    fun _ _ _ => trivial
  refine follows_call (allowed_service _ _ _) fun outcome _ => ?_
  rcases outcome with - | ⟨e | decision, left⟩
  · exact follows_raise trivial
  · exact follows_raise trivial
  · refine follows_done fun hgranted hskippable => ?_
    simp [stateProtocol, ToolCalls.next, hgranted, hskippable]

variable {call : ModelToolCall}

theorem isSkippable_of_resolveTool {tool : ToolDefinition}
    (h : resolveTool ctx.cfg ctx.workflow call.id (some call.name) = .ok tool)
    (hskip : tool.approvalOnRejection = .skip) : isSkippable ctx tool.id = true := by
  have hmem : tool ∈ availableTools ctx.cfg ctx.workflow := by
    unfold resolveTool at h
    split at h
    next found hfound =>
      cases h
      exact findTool_mem hfound
    · cases h
  exact List.any_eq_true.mpr ⟨tool, hmem, by simp [hskip]⟩

/-- What a call returns to the loop is the result of its tool, or the call was skipped. -/
theorem follows_executeTool :
    (executeTool ctx call.id call).Follows (toolProtocol ctx nodeId start) ()
      (fun result φ => ∃ tool, resolveTool ctx.cfg ctx.workflow call.id (some call.name) = .ok tool ∧
        ({ toolId := tool.id, result := result } ∈ φ.returned ∨ tool.id ∈ φ.skipped))
      (fun _ _ => True) φ := by
  unfold executeTool
  rcases hresolve : resolveTool ctx.cfg ctx.workflow call.id (some call.name) with e | tool
  · exact follows_raise trivial
  have hrun : ∀ arguments φ, (liftM (runTool ctx tool call.id arguments) : EngineRun Json).Follows
      (toolProtocol ctx nodeId start) ()
      (fun result φ => ∃ tool', (.ok tool : Except RuntimeException ToolDefinition) = .ok tool' ∧
        ({ toolId := tool'.id, result := result } ∈ φ.returned ∨ tool'.id ∈ φ.skipped))
      (fun _ _ => True) φ :=
    fun arguments φ => (follows_runTool tool call.id arguments).mono
      (fun _ _ h => ⟨tool, rfl, .inl h⟩) fun _ _ _ => trivial
  rcases haccepts : ctx.cfg.admitToolCall ctx.workflow tool call.arguments with
    e | ⟨arguments, redacted⟩
  · simp only [Program.ofExcept_ok, done_bind, haccepts, Program.ofExcept_error]
    exact follows_raise trivial
  simp only [Program.ofExcept_ok, done_bind, haccepts]
  split
  · apply follows_bind
    refine (follows_toolApproval tool arguments redacted).mono (fun decision φ hdecision => ?_)
      fun _ _ _ => trivial
    split
    next hrejected =>
      -- only a call that may be skipped returns
      have hgranted : decision.granted = false := by simpa using hrejected
      apply follows_lift
      rcases honRejection : tool.approvalOnRejection with - | -
      · have hskipped := hdecision hgranted (isSkippable_of_resolveTool hresolve honRejection)
        exact (follows_plain_keeping (Plain.rejectedToolCall ctx tool call.id decision)
          (fun φ e h => φ.skipped_subset e h) hskipped).mono (fun _ _ h => ⟨tool, rfl, .inr h⟩)
          fun _ _ _ => trivial
      · refine ((follows_plain_keeping (Plain.rejectedToolCall ctx tool call.id decision)
          (I := fun _ => True) (fun _ _ h => h) trivial).and_returns (R := fun _ => False) ?_).mono
          (fun _ _ h => h.1.elim) fun _ _ _ => trivial
        unfold rejectedToolCall
        refine .bind fun _ => ?_
        rw [honRejection]
        exact .bind fun _ => trivial
    · apply follows_bind
      refine (tracks_accounts.obeys_plain (Plain.emit _ _ _) φ).mono (fun _ φ _ => ?_)
        fun _ _ _ => trivial
      exact hrun arguments φ
  · exact hrun arguments φ

/-- The record of a result that is backed. -/
theorem Accounts.recordToolResult {tool : ToolDefinition} {result : Json}
    {st : NativeExecutionState}
    (hresolve : resolveTool ctx.cfg ctx.workflow call.id (some call.name) = .ok tool)
    (hbacked : φ.Backs (evidence ctx.task.id start) { toolId := tool.id, result := result })
    (h : Accounts ctx nodeId start φ st) :
    Accounts ctx nodeId start φ (recordToolResult ctx call result st) := by
  have hown : evidence ctx.task.id (OpenAgency.recordToolResult ctx call result st) =
      evidence ctx.task.id st ++ [{ toolId := tool.id, result := result }] := by
    simp [evidence, OpenAgency.recordToolResult, hresolve, Except.toOption]
  refine ⟨fun taskId hne => ?_, fun r hr => ?_, h.outcome⟩
  · rw [← h.others taskId hne]
    simp [evidence, OpenAgency.recordToolResult, Dict.get?_set_ne hne]
  · rw [hown] at hr
    rcases List.mem_append.mp hr with hr | hr
    · exact h.backed r hr
    · rw [List.mem_singleton.mp hr]
      exact hbacked

/-- **A call** records what has been returned for it. -/
theorem obeys_executeToolCall (iteration : ℕ) (toolCalls : List ModelToolCall)
    (messages : List ModelMessage) (index : ℕ) (call : ModelToolCall) :
    (executeToolCall ctx iteration toolCalls messages index call).Obeys
      (toolProtocol ctx nodeId start) () := by
  have hplain : ∀ {α : Type} {p : Coroutine α}, Plain p →
      AlwaysAllowed (toolProtocol ctx nodeId start) p := tracks_accounts.within_plain
  have hobject : ∀ f, AlwaysAllowed (toolProtocol ctx nodeId start)
      (process (.modifyObject ctx.ref f)) :=
    fun f => ⟨allowed_modifyObject ctx.ref f, fun _ _ => trivial⟩
  have hpersist : ∀ c, (liftM (persistApprovalContinuation ctx c) : EngineRun Unit).Obeys
      (toolProtocol ctx nodeId start) () := by
    refine fun c => .of_within (within_lift (.bind (hplain (.state _ _)) fun st => ?_))
    exact .bind (hobject _) fun _ => hplain (.saveObject _)
  have hmerge : (liftM (mergeLifecycleFields ctx) : EngineRun Unit).Obeys
      (toolProtocol ctx nodeId start) () := by
    refine .of_within (within_lift (.bind (hplain (.query _)) fun row => ?_))
    rcases row with - | current
    · trivial
    · exact hobject _
  have hrecord : ∀ {β : Type} {f : Json → EngineRun β},
      (∀ result, (f result).Obeys (toolProtocol ctx nodeId start) ()) →
      (executeTool ctx call.id call >>= fun result =>
        liftM (ctx.modifyState (recordToolResult ctx call result)) >>= fun _ => f result).Obeys
        (toolProtocol ctx nodeId start) () := by
    intro β f hf φ
    apply follows_bind
    refine follows_executeTool.mono (fun result φ h => ?_) fun _ _ _ => trivial
    obtain ⟨tool, hresolve, hbacked⟩ := h
    refine follows_call (fun g hg st hst => ?_) fun _ _ => hf result _
    cases hg
    refine hst.recordToolResult hresolve ?_
    exact .inr hbacked
  have hreturn : ∀ messages : List ModelMessage, (pure messages : EngineRun _).Obeys
      (toolProtocol ctx nodeId start) () := fun _ _ => follows_done trivial
  unfold executeToolCall
  dsimp only
  split
  · refine .bind (hpersist _) fun _ => hrecord fun result => ?_
    exact .bind hmerge fun _ => .bind (hpersist _) fun _ => hreturn _
  · exact hrecord fun result => hreturn _

end Node

/-! ### The execution of a node -/

theorem nodeOutcome_missingToolOutput (cfg : EngineConfig) (message : String) :
    nodeOutcome cfg (missingToolOutput message) = .failure := by
  have hfield : (missingToolOutput message).get? "status" = some (.str "failed") := by
    simp [missingToolOutput, Json.get?]
  have hfailed : normalizedText cfg (some (.str "failed")) = "failed" :=
    (cfg.lower_ascii (strip "failed") (by decide +kernel)).trans (by decide +kernel)
  have hmapping : outputMapping cfg (missingToolOutput message) = missingToolOutput message := rfl
  unfold nodeOutcome
  dsimp only
  rw [if_pos]
  rw [hmapping, hfield, hfailed, Bool.or_eq_true]
  exact .inl (by decide)

section Execute

variable {run : RunContext} {loop : NodeLoop} {node : WorkflowNodeDefinition}
  {task : TaskDefinition} {agent : AgentDefinition} {start : NativeExecutionState}

/-- A success is recorded if the task is satisfied. -/
theorem Accounts.recordNodeOutput {φ : ToolCalls} {st : NativeExecutionState} {output : Json}
    (hsuccess : nodeOutcome run.cfg output = .success →
      task.SatisfiedBy run.cfg (φ.Backs (evidence task.id start)))
    (h : Accounts (run.taskContext task agent) node.id start φ st) :
    Accounts (run.taskContext task agent) node.id start φ
      (recordNodeOutput run.cfg node.id output st) := by
  refine ⟨h.others, h.backed, fun _ houtcome => hsuccess ?_⟩
  have hset : (st.nodeOutcomes.set node.id (nodeOutcome run.cfg output)).get? node.id =
      some .success := houtcome
  rw [Dict.get?_set_self] at hset
  exact Option.some.inj hset

theorem follows_completeNode (output : Json) (φ : ToolCalls) :
    (liftM (completeNode run node task output) : EngineRun Unit).Follows
      (toolProtocol (run.taskContext task agent) node.id start) () (fun _ _ => True)
      (fun _ _ => True) φ := by
  have hobject : ∀ f, AlwaysAllowed (toolProtocol (run.taskContext task agent) node.id start)
      (run.modifyObject f) :=
    fun f => ⟨allowed_modifyObject run.ref f, fun _ _ => trivial⟩
  have hsave : ∀ φ, (do
      let st ← run.currentState
      run.modifyObject fun e => { e with outputPayload := some (executionCheckpointPayload st none) }
      saveObject run.ref : Coroutine Unit).Follows
        (runtimeProtocol (toolProtocol (run.taskContext task agent) node.id start)) ()
        (fun _ _ => True) (fun _ _ => True) φ := by
    refine Program.Obeys.of_within (.bind (tracks_accounts.within_plain (.state _ _)) fun st => ?_)
    exact .bind (hobject _) fun _ => tracks_accounts.within_plain (.saveObject _)
  apply follows_lift
  unfold completeNode
  refine follows_call (fun _ ho => by cases ho) fun st hst => ?_
  -- what the check reads is backed
  have hbacked := (hst rfl).backed
  rw [bind_eq_bind, done_bind]
  dsimp only
  generalize hmissing : (if nodeOutcome run.cfg output = .success then
    requiredToolResultError run.cfg task ((st.taskToolResults.get? task.id).getD []) else none) = missing
  rcases missing with - | message
  · refine follows_call (fun f hf st' h => ?_) fun _ _ => hsave _
    cases hf
    refine h.recordNodeOutput fun hsuccess => ?_
    rw [if_pos hsuccess] at hmissing
    exact (requiredToolResultError_eq_none.mp hmissing).mono fun r _ hr => hbacked r hr
  · refine follows_call (fun f hf st' h => ?_) fun _ _ => hsave _
    cases hf
    have herrors := tracks_accounts.same φ st'
      { st' with nodeErrors := st'.nodeErrors.set node.id message } ⟨rfl, rfl, rfl⟩ h
    refine herrors.recordNodeOutput fun hsuccess => ?_
    rw [nodeOutcome_missingToolOutput] at hsuccess
    cases hsuccess

/-- **The execution of a node** accounts for what it leaves in the state. -/
theorem obeys_executeNode (loop : NodeLoop) :
    (executeNode run loop node task agent).Obeys
      (toolProtocol (run.taskContext task agent) node.id start) () :=
  tracks_accounts.executeNode obeys_executeToolCall follows_completeNode loop

end Execute

/-! ### The nodes of a run -/

/-- The calls in the execution of a node. -/
def NodeExecution.calls (ex : NodeExecution) : ToolCalls := toolCalls ex.ctx ex.trace

variable {ex : NodeExecution}

theorem accounts_after (h : (ex.stateIn ex.before).nodeOutputs.get? ex.node.id = none) :
    Accounts ex.ctx ex.node.id (ex.stateIn ex.before) ex.calls (ex.stateIn ex.after) := by
  have hbegin : Accounts ex.ctx ex.node.id (ex.stateIn ex.before) {} (ex.stateIn ex.before) := by
    refine ⟨fun _ _ => rfl, fun r hr => .inl hr, fun houtput _ => ?_⟩
    rw [h] at houtput
    cases houtput
  exact tracks_accounts.run (obeys_executeNode ex.loop _) hbegin

/-- A result that was recorded in `st`, or comes from one of the executions. -/
def RecordedBy (st : NativeExecutionState) (executions : List NodeExecution) (taskId : String)
    (r : ToolResult) : Prop :=
  r ∈ evidence taskId st ∨ ∃ ex ∈ executions, ex.task.id = taskId ∧
    (r ∈ ex.calls.returned ∨ r.toolId ∈ ex.calls.skipped)

theorem RecordedBy.append {st : NativeExecutionState} {executions : List NodeExecution}
    {taskId : String} {r : ToolResult} (h : RecordedBy st executions taskId r)
    (more : List NodeExecution) : RecordedBy st (executions ++ more) taskId r := by
  rcases h with hst | ⟨ex, hex, hrest⟩
  · exact .inl hst
  · exact .inr ⟨ex, mem_append_left _ hex, hrest⟩

section Run

variable {cfg : EngineConfig} {env : Environment} {run : RunContext} {retryTaskId : Option String}
  {loop : NodeLoop} {nodes : List WorkflowNodeDefinition} {s : Session}
  {st₀ : NativeExecutionState}

/-- What an execution adds comes from its calls. -/
theorem recordedBy_after {before : List NodeExecution}
    (houtput : (ex.stateIn ex.before).nodeOutputs.get? ex.node.id = none)
    (hbefore : ∀ taskId, ∀ r ∈ evidence taskId (ex.stateIn ex.before), RecordedBy st₀ before taskId
      r) (taskId : String) (r : ToolResult) (hr : r ∈ evidence taskId (ex.stateIn ex.after)) :
    RecordedBy st₀ (before ++ [ex]) taskId r := by
  have haccounts := accounts_after houtput
  by_cases htask : taskId = ex.task.id
  · subst htask
    rcases haccounts.backed r hr with hstart | hcalls
    · exact (hbefore _ r hstart).append [ex]
    · exact .inr ⟨ex, mem_append_right _ mem_cons_self, rfl, hcalls⟩
  · rw [haccounts.others taskId htask] at hr
    exact (hbefore _ r hr).append [ex]

/-- **The loop.**  What is recorded when a node is executed was recorded when the loop
started, or comes from the nodes executed before it. -/
theorem recordedBy_loop {prior rest : List NodeExecution} {done : List NodeExecution}
    (hs : ∀ taskId, ∀ r ∈ evidence taskId (s.stateOf run.state.executionId), RecordedBy st₀ done
      taskId r) (h : loopExecutions cfg env run retryTaskId loop nodes s = prior ++ ex :: rest) :
    (∀ taskId, ∀ r ∈ evidence taskId (ex.stateIn ex.before),
        RecordedBy st₀ (done ++ prior) taskId r) ∧
      (ex.stateIn ex.before).nodeOutputs.get? ex.node.id = none ∧ ex.run = run := by
  induction nodes generalizing loop s done prior with
  | nil =>
    rw [loopExecutions] at h
    exact absurd h.symm (append_ne_nil_of_right_ne_nil _ (cons_ne_nil _ _))
  | cons node nodes ih =>
    have hkeep : ∀ {s' : Session}, SameProgress (s.stateOf run.state.executionId)
        (s'.stateOf run.state.executionId) →
        ∀ taskId, ∀ r ∈ evidence taskId (s'.stateOf run.state.executionId),
          RecordedBy st₀ done taskId r := by
      intro s' hsame taskId r hr
      refine hs taskId r ?_
      rw [evidence, ← hsame.taskToolResults]
      exact hr
    rcases loopExecutions_cons cfg env run retryTaskId loop node nodes s with hnone | ⟨loop', s', hsame, heq⟩ |
      ⟨ex₀, hrun, rfl, hsame, hfinds, later, heq, hlater⟩
    · rw [hnone] at h
      exact absurd h.symm (append_ne_nil_of_right_ne_nil _ (cons_ne_nil _ _))
    · rw [heq] at h
      exact ih (hkeep hsame) h
    · subst hrun
      rw [heq] at h
      have houtput : (ex₀.stateIn ex₀.before).nodeOutputs.get? ex₀.node.id = none := by
        rw [NodeExecution.stateIn, hsame.nodeOutputs]
        exact hfinds.2.2
      cases prior with
      | nil =>
        obtain ⟨rfl, -⟩ := List.cons.inj h
        rw [append_nil]
        exact ⟨hkeep hsame, houtput, rfl⟩
      | cons ex₁ prior =>
        obtain ⟨rfl, htail⟩ := List.cons.inj h
        rcases hlater with rfl | ⟨loop', rfl⟩
        · exact absurd htail.symm (append_ne_nil_of_right_ne_nil _ (cons_ne_nil _ _))
        · have hnext := ih (fun taskId r hr => recordedBy_after houtput (hkeep hsame) taskId r hr)
            htail
          rw [append_assoc] at hnext
          exact hnext

end Run

/-! ### Attempts -/

/-- The node has been executed, with the outcome success. -/
def NodeExecution.RecordsSuccess (ex : NodeExecution) : Prop :=
  ((ex.stateIn ex.after).nodeOutputs.get? ex.node.id).isSome ∧
    (ex.stateIn ex.after).nodeOutcomes.get? ex.node.id = some .success

section Attempts

variable (cfg : EngineConfig) (executionId : Uuid)

/-- A tool has returned the result in an execution of the node, in one of the attempts. -/
def CalledAt (attempts : List Attempt) (nodeId : String) (r : ToolResult) : Prop :=
  ∃ a ∈ attempts, ∃ ex ∈ a.executions cfg executionId, ex.node.id = nodeId ∧ r ∈ ex.calls.returned

/-- What the node's task has recorded, for the tools it requires, is the node's own.

* `restored`: what the attempt continues with stems from earlier attempts at the node;
* `unshared`: no other node has called the tools for the same task before;
* `unskipped`: no call of the tools is skipped. -/
structure OwnEvidence (history : List Attempt) (a : Attempt) (prior : List NodeExecution)
    (ex : NodeExecution) : Prop where
  restored : ∀ r ∈ evidence ex.task.id (ex.stateIn (a.planned cfg executionId).2),
    r.toolId ∈ ex.task.requiredToolIds → CalledAt cfg executionId history ex.node.id r
  unshared : ∀ ex' ∈ prior, ex'.task.id = ex.task.id → ∀ toolId ∈ ex.task.requiredToolIds,
    toolId ∉ ex'.calls.returned.map (·.toolId) ∧ toolId ∉ ex'.calls.skipped
  unskipped : ∀ toolId ∈ ex.task.requiredToolIds, toolId ∉ ex.calls.skipped

variable {cfg} {executionId}

/-- **A success proves the required calls, where the evidence is the node's own.**  In
every attempt at an execution, after any others: if the outcome of a node is success, then
each tool its task requires has returned a result in the execution of the node, now or in
an earlier attempt, with an allowed status where statuses are listed. -/
theorem requiredTools_called {history : List Attempt} {a : Attempt}
    {prior later : List NodeExecution} {ex : NodeExecution}
    (hrun : a.executions cfg executionId = prior ++ ex :: later)
    (hown : OwnEvidence cfg executionId history a prior ex) (hsuccess : ex.RecordsSuccess) :
    ex.task.SatisfiedBy ex.run.cfg fun r =>
      r ∈ ex.calls.returned ∨ CalledAt cfg executionId history ex.node.id r := by
  have hplanned : ∃ run retryTaskId s₀, a.planned cfg executionId = (.ok (run, retryTaskId), s₀) := by
    rcases hplan : a.planned cfg executionId with ⟨e | ⟨run, retryTaskId⟩, s₀⟩
    · rw [Attempt.executions, hplan] at hrun
      exact absurd hrun.symm (append_ne_nil_of_right_ne_nil _ (cons_ne_nil _ _))
    · exact ⟨run, retryTaskId, s₀, rfl⟩
  obtain ⟨run, retryTaskId, s₀, hplan⟩ := hplanned
  rw [Attempt.executions, hplan] at hrun
  have hbegin : ∀ taskId, ∀ r ∈ evidence taskId (s₀.stateOf run.state.executionId),
      RecordedBy (s₀.stateOf run.state.executionId) [] taskId r := fun _ _ hr => .inl hr
  obtain ⟨hrecorded, houtput, rfl⟩ := recordedBy_loop hbegin hrun
  have hshown := (accounts_after houtput).outcome hsuccess.1 hsuccess.2
  refine hshown.mono fun r hr hbacks => ?_
  rcases hbacks with hbefore | hreturned | hskipped
  · -- recorded before the node: restored, or of a node of the same task
    rcases hrecorded _ r hbefore with hstart | ⟨ex', hex', htask, hcalls⟩
    · refine .inr (hown.restored r ?_ hr)
      rw [hplan]
      exact hstart
    · obtain ⟨hreturned, hskipped⟩ := hown.unshared ex' hex' htask r.toolId hr
      rcases hcalls with hcall | hskip
      · exact absurd (mem_map_of_mem hcall) hreturned
      · exact absurd hskip hskipped
  · exact .inl hreturned
  · exact absurd hskipped (hown.unskipped r.toolId hr)

end Attempts

/-! ### A skipped call -/

namespace RequiredTools

/-- A task that has to send mail, with a tool whose rejected calls are skipped. -/
def mailing : WorkflowDefinition where
  id := "w"
  name := "w"
  entrypoint := "n"
  nodes := [{ id := "n", nodeType := .task, taskId := some "t" }]
  taskDefinitions := [{
    id := "t"
    name := "t"
    agentId := some "a"
    toolIds := ["mail.send"]
    requiredToolIds := ["mail.send"] }]
  agentDefinitions := [{ id := "a", name := "a", modelProfileId := some "m" }]
  toolDefinitions := [{
    id := "mail.send"
    name := "mail_send"
    approvalRequired := true
    approvalOnRejection := .skip }]

def config : EngineConfig := { EngineConfig.bare with
  workflow := fun _ => some mailing }

/-- The model calls the tool, then it reports; the delegate decides. -/
def world (granted : Bool) : Environment := .counting fun
  | 0, .generateText _ _ _ =>
    .ok { content := none, toolCalls := [(some "c", "mail_send", .null)], usage := {} }
  | _, .generateText _ _ _ => .ok { content := some (.str "sent"), usage := {} }
  | _, .delegateDecision _ _ _ _ => .ok (some { granted := granted })
  | n, o => ExtOp.silent n o

def created : Execution := { id := 0, workflowId := "w" }

/-- The first attempt at the execution. -/
def attempt (granted : Bool) : Attempt where
  env := world granted
  session := { world := { db := { executions := Relational.Table.empty.save created } } }

end RequiredTools

open RequiredTools in
/-- The call is rejected and skipped, and the node succeeds. -/
theorem skipped_mail_succeeds : ∃ ex, (attempt false).executions config 0 = [ex] ∧
    ex.RecordsSuccess ∧ ¬ex.task.SatisfiedBy ex.run.cfg fun r =>
      r ∈ ex.calls.returned ∨ CalledAt config 0 [] ex.node.id r := by
  have hone : ((attempt false).executions config 0).length = 1 := by decide +kernel
  have hfacts : ∀ ex ∈ (attempt false).executions config 0,
      (ex.task.requiredToolIds = ["mail.send"] ∧ ex.calls.returned.length = 0) ∧
        ((ex.stateIn ex.after).nodeOutputs.get? ex.node.id).isSome ∧
          (ex.stateIn ex.after).nodeOutcomes.get? ex.node.id = some .success := by
    decide +kernel
  obtain ⟨ex, hex⟩ := List.length_eq_one_iff.mp hone
  obtain ⟨⟨hrequired, hnone⟩, hsuccess⟩ := hfacts ex (hex ▸ mem_cons_self)
  refine ⟨ex, hex, hsuccess, fun hsatisfied => ?_⟩
  obtain ⟨r, -, hr | ⟨a, ha, -⟩, -⟩ := hsatisfied "mail.send" (hrequired ▸ mem_cons_self)
  · rw [List.length_eq_zero_iff.mp hnone] at hr
    cases hr
  · cases ha

open RequiredTools in
/-- The call is granted, and the tool has returned. -/
theorem sent_mail_succeeds : ∃ ex, (attempt true).executions config 0 = [ex] ∧
    ex.task.SatisfiedBy ex.run.cfg fun r =>
      r ∈ ex.calls.returned ∨ CalledAt config 0 [] ex.node.id r := by
  have hone : ((attempt true).executions config 0).length = 1 := by decide +kernel
  have hfacts : ∀ ex ∈ (attempt true).executions config 0,
      ((evidence ex.task.id (ex.stateIn ((attempt true).planned config 0).2)).length = 0 ∧
        ex.calls.skipped = []) ∧
          ((ex.stateIn ex.after).nodeOutputs.get? ex.node.id).isSome ∧
            (ex.stateIn ex.after).nodeOutcomes.get? ex.node.id = some .success := by
    decide +kernel
  obtain ⟨ex, hex⟩ := List.length_eq_one_iff.mp hone
  obtain ⟨⟨hevidence, hskipped⟩, hsuccess⟩ := hfacts ex (hex ▸ mem_cons_self)
  have hown : OwnEvidence config 0 [] (attempt true) [] ex := by
    refine ⟨fun r hr _ => ?_, fun _ hnil => absurd hnil not_mem_nil, fun toolId _ => ?_⟩
    · rw [List.length_eq_zero_iff.mp hevidence] at hr
      cases hr
    · rw [hskipped]
      exact not_mem_nil
  exact ⟨ex, hex, requiredTools_called (hex.trans (nil_append [ex]).symm) hown hsuccess⟩

end OpenAgency
