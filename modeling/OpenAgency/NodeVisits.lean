/-
NodeVisits.lean

A run of the engine, node by node.  `start_execution` opens the run, makes its plan and
visits the planned nodes in order; a visit either passes over the node or executes it.

`executions` lists the executions of nodes in a run, each with the session it starts in.
They are what the run performs: between the plan and the conclusion of a run, its trace is
made of their traces, in this order, and of what visits do before they execute their node
(`Attempt.performs_startExecution`).

What nodes and tools leave in the engine's state changes only where the engine says so.
`stateProtocol` follows a relation between what a coroutine has done and that state.
-/
import OpenAgency.Lib.Monitor
import OpenAgency.LoopOperations
import OpenAgency.TaskRules

namespace OpenAgency

open Interaction Program EngineRun

/-! ### The parts of a run -/

/-- `start_execution` up to its `try`. -/
def openRun (cfg : EngineConfig) (executionId : Uuid) : EngineRun RunContext := do
  match ← (getExecution executionId : Coroutine (Option Execution)) with
  | none => raise .executionNotFound s!"Execution '{executionId}' was not found"
  | some e =>
    Program.ofExcept (rejectTerminalExecutionReplay e)
    match cfg.workflow e.workflowId with
    | none => raise .workflowNotFound s!"Workflow '{e.workflowId}' was not found"
    | some workflow => (beginRun cfg e workflow : Coroutine RunContext)

/-- The `try` of `start_execution` up to its loop: the task to be retried is returned. -/
def planNodes (run : RunContext) : EngineRun (Option String) := do
  let e ← (run.object : Coroutine Execution)
  let retry := e.metadata.taskRetry
  let retryTaskId := orElseString (retry.bind (·.taskId)) none
  run.modifyState (planRun run.cfg run.workflow (retry.bind (·.priorNodeOutputs)))
  if run.workflow.approvalMode = some .beforeRun then requestWorkflowApproval run
  return retryTaskId

/-- What a visit finds about its node. -/
inductive Visit where
  | passed
  /-- The node has an output already. -/
  | completed
  | execute (task : TaskDefinition) (agent : AgentDefinition)

/-- A visit up to the execution of the node. -/
def enterNode (run : RunContext) (retryTaskId : Option String) (loop : NodeLoop)
    (node : WorkflowNodeDefinition) : EngineRun Visit := do
  raiseIfCancelled run
  let e ← (run.object : Coroutine Execution)
  match orElseString e.workerId none with
  | none => pure ()
  | some worker =>
    let _ ← (heartbeat e.id worker : Coroutine (Option Execution))
  if node.nodeType ≠ .task && node.nodeType ≠ .approval then return .passed
  let st ← (run.currentState : Coroutine NativeExecutionState)
  if !nodeIsReachable run.cfg run.workflow st node then
    run.emit .routingDecisionRecorded
    return .passed
  let task ← Program.ofExcept (resolveTask run.workflow node.taskId)
  if !loop.retryStarted && some task.id ≠ retryTaskId then return .passed
  let agent ← Program.ofExcept (resolveAgent run.workflow (orElseString node.agentId task.agentId))
  return if (st.nodeOutputs.get? node.id).isNone then .execute task agent else .completed

/-- The rest of the visit. -/
def leaveNode (run : RunContext) (loop : NodeLoop) (node : WorkflowNodeDefinition) :
    Visit → EngineRun NodeLoop
  | .passed => return loop
  | .completed => return { retryStarted := true, previousNodeId := some node.id }
  | .execute task agent => do
    executeNode run loop node task agent
    return { retryStarted := true, previousNodeId := some node.id }

/-- A visit is what it finds, and what it does then. -/
theorem visitNode_eq (run : RunContext) (retryTaskId : Option String) (loop : NodeLoop)
    (node : WorkflowNodeDefinition) :
    visitNode run retryTaskId loop node =
      enterNode run retryTaskId loop node >>= leaveNode run loop node := by
  unfold visitNode enterNode
  rw [Program.bind_assoc]
  congr 1
  funext _
  rw [Program.bind_assoc]
  congr 1
  funext e
  rcases orElseString e.workerId none with - | worker
  on_goal 1 => dsimp only
  on_goal 2 =>
    rw [Program.bind_assoc]
    dsimp only
    congr 1
    funext _
  -- what follows the heartbeat
  all_goals
    split
    · rfl
    · rw [Program.bind_assoc]
      congr 1
      funext st
      split
      · rw [Program.bind_assoc]
        rfl
      · rw [Program.bind_assoc]
        congr 1
        funext task
        split
        · rfl
        · rw [Program.bind_assoc]
          congr 1
          funext agent
          split <;> rfl

theorem startExecution_eq (cfg : EngineConfig) (executionId : Uuid) :
    startExecution cfg executionId = openRun cfg executionId >>= fun run => (do
      (runWorkflow run).rescue fun exc => (handleException run exc : Coroutine Unit)
      run.object : EngineRun Execution) := by
  unfold startExecution openRun
  rw [Program.bind_assoc]
  congr 1
  funext found
  rcases found with - | e
  · rfl
  · dsimp only
    rw [Program.bind_assoc]
    congr 1
    funext _
    rcases cfg.workflow e.workflowId with - | workflow
    · rfl
    · rfl

theorem runWorkflow_plan (run : RunContext) :
    runWorkflow run = planNodes run >>= fun retryTaskId => (do
      let loop ← (Planner.orderNodes run.workflow).foldlM (visitNode run retryTaskId)
        { retryStarted := retryTaskId.isNone }
      match retryTaskId with
      | some id =>
        if !loop.retryStarted then
          raise .workflowNotFound
            s!"Retry task '{id}' was not found in workflow '{run.workflow.id}'"
      | none => pure ()
      concludeRun run : EngineRun Unit) := by
  unfold runWorkflow planNodes
  rw [Program.bind_assoc]
  congr 1
  funext e
  dsimp only
  rw [Program.bind_assoc]
  congr 1
  funext _
  split
  · rw [Program.bind_assoc]
    rfl
  · rfl

/-- The context in which a node's task is executed. -/
def RunContext.taskContext (run : RunContext) (task : TaskDefinition) (agent : AgentDefinition) :
    TaskContext where
  cfg := run.cfg
  state := run.state
  ref := run.ref
  workflow := run.workflow
  task := task
  agent := agent

/-! ### The executions of nodes -/

/-- An execution of a node: what is executed, in which world, and the session it starts
in. -/
structure NodeExecution where
  cfg : EngineConfig
  env : Environment
  run : RunContext
  loop : NodeLoop
  node : WorkflowNodeDefinition
  task : TaskDefinition
  agent : AgentDefinition
  before : Session

namespace NodeExecution

variable (ex : NodeExecution)

def program : EngineRun Unit := executeNode ex.run ex.loop ex.node ex.task ex.agent

def handler : Handler EngineSig Session := engineHandler ex.cfg ex.env

def ctx : TaskContext := ex.run.taskContext ex.task ex.agent

/-- What the execution does. -/
def trace : List (Event EngineSig) := ex.program.trace ex.handler ex.before

/-- The session it ends in. -/
def after : Session := (ex.program.run ex.handler ex.before).2

end NodeExecution

section Executions

variable (cfg : EngineConfig) (env : Environment)

/-- The executions in the visits of the given nodes. -/
def loopExecutions (run : RunContext) (retryTaskId : Option String) :
    NodeLoop → List WorkflowNodeDefinition → Session → List NodeExecution
  | _, [], _ => []
  | loop, node :: rest, s =>
    let executed := match (enterNode run retryTaskId loop node).run (engineHandler cfg env) s with
      | (.ok (.execute task agent), s') => [{
          cfg := cfg
          env := env
          run := run
          loop := loop
          node := node
          task := task
          agent := agent
          before := s' }]
      | _ => []
    match (visitNode run retryTaskId loop node).run (engineHandler cfg env) s with
    | (.ok loop', s') => executed ++ loopExecutions run retryTaskId loop' rest s'
    | _ => executed

variable (run : RunContext) (retryTaskId : Option String)

/-- A stretch of a run, from one session to another, that is made of executions of nodes and of
what visits do before they execute their node. -/
inductive Visited : Session → List NodeExecution → List (Event EngineSig) → Session → Prop
  | nil (s : Session) : Visited s [] [] s
  | enter {s s' : Session} {exs : List NodeExecution} {events : List (Event EngineSig)}
      (loop : NodeLoop) (node : WorkflowNodeDefinition)
      (h : Visited ((enterNode run retryTaskId loop node).run (engineHandler cfg env) s).2 exs
        events s') :
      Visited s exs
        ((enterNode run retryTaskId loop node).trace (engineHandler cfg env) s ++ events) s'
  | execute {s' : Session} {exs : List NodeExecution} {events : List (Event EngineSig)}
      (ex : NodeExecution) (h : Visited ex.after exs events s') :
      Visited ex.before (ex :: exs) (ex.trace ++ events) s'

variable {run} {retryTaskId}

/-- **The loop** performs the executions of its visits, and no others. -/
theorem visited_loop (loop : NodeLoop) (nodes : List WorkflowNodeDefinition) (s : Session) :
    Visited cfg env run retryTaskId s (loopExecutions cfg env run retryTaskId loop nodes s)
      ((nodes.foldlM (visitNode run retryTaskId) loop).trace (engineHandler cfg env) s)
      ((nodes.foldlM (visitNode run retryTaskId) loop).run (engineHandler cfg env) s).2 := by
  induction nodes generalizing loop s with
  | nil => exact .nil s
  | cons node rest ih =>
    rw [List.foldlM_cons, loopExecutions, trace_bind, run_bind, visitNode_eq, trace_bind, run_bind]
    have henter : ∀ {exs events s'}, Visited cfg env run retryTaskId
        ((enterNode run retryTaskId loop node).run (engineHandler cfg env) s).2 exs events s' → _ :=
      fun h => Visited.enter loop node h
    rcases hvisit : (enterNode run retryTaskId loop node).run (engineHandler cfg env) s with
      ⟨e | visit, s₁⟩
    all_goals
      rw [hvisit] at henter
      dsimp only
      rw [List.append_assoc]
    · exact henter (.nil s₁)
    cases visit with
    | passed => exact henter (ih loop s₁)
    | completed => exact henter (ih _ s₁)
    | execute task agent =>
      have hexecute : ∀ {exs events s'}, Visited cfg env run retryTaskId
          ((executeNode run loop node task agent).run (engineHandler cfg env) s₁).2 exs events s' → _ :=
        fun h => henter (.execute ⟨cfg, env, run, loop, node, task, agent, s₁⟩ h)
      unfold leaveNode
      dsimp only
      rw [trace_bind, run_bind, List.append_assoc]
      rcases hrun : (executeNode run loop node task agent).run (engineHandler cfg env) s₁ with
        ⟨e | u, s₂⟩
      · rw [hrun] at hexecute
        exact hexecute (.nil s₂)
      · rw [hrun] at hexecute
        exact hexecute (ih _ s₂)

end Executions

/-! ### Attempts -/

/-- An attempt at an execution: a call of `start_execution`, in some session. -/
structure Attempt where
  env : Environment
  session : Session

namespace Attempt

variable (cfg : EngineConfig) (executionId : Uuid) (a : Attempt)

/-- The run with its plan, and the session its loop starts in. -/
def planned : Except RuntimeException (RunContext × Option String) × Session :=
  (openRun cfg executionId >>= fun run => planNodes run >>= fun retryTaskId =>
    pure (run, retryTaskId)).run (engineHandler cfg a.env) a.session

/-- The executions of nodes in an attempt. -/
def executions : List NodeExecution :=
  match a.planned cfg executionId with
  | (.ok (run, retryTaskId), s) =>
    loopExecutions cfg a.env run retryTaskId { retryStarted := retryTaskId.isNone }
      (Planner.orderNodes run.workflow) s
  | _ => []

/-- A run after its loop. -/
def concluding (run : RunContext) (retryTaskId : Option String) :
    Except RuntimeException NodeLoop → EngineRun Execution
  | .ok loop => do
    (do
      match retryTaskId with
      | some id =>
        if !loop.retryStarted then
          raise .workflowNotFound
            s!"Retry task '{id}' was not found in workflow '{run.workflow.id}'"
      | none => pure ()
      concludeRun run : EngineRun Unit).rescue
        fun exc => (handleException run exc : Coroutine Unit)
    run.object
  | .error exc => do
    (handleException run exc : Coroutine Unit)
    run.object

/-- `start_execution` performs its plan, the executions of the attempt with nothing but visits
up to an execution between them, and the conclusion of the run. -/
def Performs (run : RunContext) (retryTaskId : Option String) (s : Session) : Prop :=
  ∃ events result last,
    Visited cfg a.env run retryTaskId s (a.executions cfg executionId) events last ∧
    (startExecution cfg executionId).trace (engineHandler cfg a.env) a.session =
      (openRun cfg executionId >>= planNodes).trace (engineHandler cfg a.env) a.session ++
        (events ++ (concluding run retryTaskId result).trace (engineHandler cfg a.env) last)

variable {cfg} {executionId} {a}

theorem performs_startExecution {run : RunContext} {retryTaskId : Option String} {s : Session}
    (h : a.planned cfg executionId = (.ok (run, retryTaskId), s)) :
    a.Performs cfg executionId run retryTaskId s := by
  have hexecutions : a.executions cfg executionId = loopExecutions cfg a.env run retryTaskId
      { retryStarted := retryTaskId.isNone } (Planner.orderNodes run.workflow) s := by
    rw [executions, h]
  rw [planned] at h
  rcases hopen : (openRun cfg executionId).run (engineHandler cfg a.env) a.session with
    ⟨e | run', s₀⟩
  · rw [run_bind_error _ hopen] at h
    cases h
  rw [run_bind_ok _ hopen] at h
  rcases hplan : (planNodes run').run (engineHandler cfg a.env) s₀ with ⟨e | retryTaskId', s₁⟩
  · rw [run_bind_error _ hplan] at h
    cases h
  rw [run_bind_ok _ hplan] at h
  cases h
  refine ⟨_, ((Planner.orderNodes run.workflow).foldlM (visitNode run retryTaskId)
    { retryStarted := retryTaskId.isNone }).run (engineHandler cfg a.env) s |>.1, _,
    hexecutions ▸ visited_loop cfg a.env _ _ s, ?_⟩
  rw [startExecution_eq, trace_bind, trace_bind, hopen, List.append_assoc]
  congr 1
  dsimp only
  rw [runWorkflow_plan, trace_rescue_bind, hplan]
  congr 1
  dsimp only
  rw [trace_rescue_bind]
  congr 1
  rcases ((Planner.orderNodes run.workflow).foldlM (visitNode run retryTaskId)
    { retryStarted := retryTaskId.isNone }).run (engineHandler cfg a.env) s with ⟨e | loop, s'⟩
  · rfl
  · rfl

end Attempt

/-! ### Progress -/

/-- The states agree in what nodes and tools have left in them. -/
structure SameProgress (st st' : NativeExecutionState) : Prop where
  nodeOutputs : st'.nodeOutputs = st.nodeOutputs
  nodeOutcomes : st'.nodeOutcomes = st.nodeOutcomes
  taskToolResults : st'.taskToolResults = st.taskToolResults

/-- The engine's state of an execution; it starts empty. -/
def Session.stateOf (s : Session) (x : Uuid) : NativeExecutionState :=
  (s.world.proc.states x).getD { executionId := x, workflowId := "" }

def NodeExecution.stateIn (ex : NodeExecution) (s : Session) : NativeExecutionState :=
  s.stateOf ex.run.state.executionId

section Progress

variable {cfg : EngineConfig} {env : Environment} {x : Uuid} {s : Session}

/-- The engine reads the state as it is. -/
theorem sameProgress_setdefault (s : Session) (x : Uuid) (workflowId : String) :
    SameProgress (s.stateOf x) (ProcOp.setdefault x workflowId s.world.proc) := by
  unfold Session.stateOf ProcOp.setdefault
  rcases s.world.proc.states x with - | st
  · exact ⟨rfl, rfl, rfl⟩
  · exact ⟨rfl, rfl, rfl⟩

/-- **One operation.**  What speaks of progress only, and is kept by a change of the state
that is performed, is kept. -/
theorem progress_step {R : NativeExecutionState → Prop}
    (hsame : ∀ st st', SameProgress st st' → R st → R st') {o : EngineOp}
    (hmodify : ∀ f, o = .runtime (.proc (.modifyState x f)) → ∀ st, R st → R (f st))
    (h : R (s.stateOf x)) : R ((engineHandler cfg env o s).2.stateOf x) := by
  have hkept : ∀ s' : Session, s'.world.proc.states = s.world.proc.states → R (s'.stateOf x) := by
    intro s' hstates
    rw [Session.stateOf, hstates]
    exact h
  have hstateless : ∀ o : RuntimeOp, o.IsStateless →
      R ((engineHandler cfg env (.runtime o) s).2.stateOf x) :=
    fun o ho => hkept _ (states_handler ho s.world)
  cases o with
  | service c limit => exact hkept _ (states_service c limit s)
  | runtime o =>
    cases o with
    | proc o =>
      cases o with
      | state y workflowId =>
        show R ((Function.update s.world.proc.states y _ x).getD _)
        by_cases hy : x = y
        · subst hy
          rw [Function.update_self]
          exact hsame _ _ (sameProgress_setdefault s x workflowId) h
        · rw [Function.update_of_ne hy]
          exact h
      | modifyState y f =>
        show R ((Function.update s.world.proc.states y _ x).getD _)
        by_cases hy : x = y
        · subst hy
          rw [Function.update_self]
          unfold Session.stateOf at h
          rcases hst : s.world.proc.states x with - | st
          · rw [hst] at h
            exact h
          · rw [hst] at h
            exact hsame (f st) _ ⟨rfl, rfl, rfl⟩ (hmodify f rfl st h)
        · rw [Function.update_of_ne hy]
          exact h
      | _ => exact hstateless _ trivial
    | _ => exact hstateless _ trivial

variable {Φ : Type} [Inhabited Φ] {next : Φ → Event EngineSig → Φ}
  {R : Φ → NativeExecutionState → Prop}

variable (x next R) in
/-- The operations that keep `R`, a relation between what has been done and the state. -/
def stateProtocol : Protocol EngineSig Unit Φ where
  start := default
  next := next
  allowed _ φ o := ∀ f, o = .runtime (.proc (.modifyState x f)) → ∀ st, R φ st → R φ (f st)
  answers φ
    | .runtime (.proc (.state y _)), st => y = x → R φ st
    | _, _ => True

/-- No operation of the coroutine is ever forbidden. -/
abbrev AlwaysAllowed (P : Protocol EngineSig Unit Φ) {α : Type} (p : Coroutine α) : Prop :=
  p.Within (fun _ _ => True) fun o => ∀ φ, P.allowed () φ (.runtime o)

/-- What `R` needs for the protocol: it speaks of progress, and once it holds it holds
whatever is done further. -/
structure Tracks (next : Φ → Event EngineSig → Φ) (R : Φ → NativeExecutionState → Prop) :
    Prop where
  same : ∀ φ st st', SameProgress st st' → R φ st → R φ st'
  mono : ∀ φ e st, R φ st → R (next φ e) st
  /-- It does not matter where a service call is cut off. -/
  service : ∀ φ c limit limit' result left left',
    next φ ⟨.service c limit, some (result, left)⟩ = next φ ⟨.service c limit', some (result, left')⟩

variable {α : Type} {p : EngineRun α} {Q : α → Φ → Prop}
  {E : RuntimeException → Φ → Prop} {φ : Φ}

theorem Tracks.step (hR : Tracks next R) (o : EngineOp) (s : Session) (φ : Φ)
    (h : R φ (s.stateOf x)) (ho : (stateProtocol x next R).allowed () φ o) :
    (stateProtocol x next R).answers φ o (engineHandler cfg env o s).1 ∧
      R (next φ ⟨o, (engineHandler cfg env o s).1⟩) ((engineHandler cfg env o s).2.stateOf x) := by
  constructor
  · cases o with
    | service c limit => trivial
    | runtime o =>
      cases o with
      | proc o =>
        cases o with
        | state y workflowId =>
          rintro rfl
          exact hR.same φ _ _ (sameProgress_setdefault s y workflowId) h
        | _ => trivial
      | _ => trivial
  · apply hR.mono
    exact progress_step (hR.same φ) ho h

/-- **A coroutine that follows the protocol** leaves a state that is related to what it has
done. -/
theorem Tracks.run (hR : Tracks next R)
    (h : p.Follows (stateProtocol x next R) () Q E φ) (hs : R φ (s.stateOf x)) :
    R ((p.trace (engineHandler cfg env) s).foldl next φ)
      ((p.run (engineHandler cfg env) s).2.stateOf x) :=
  Program.Follows.run_phase (J := fun (s : Session) φ => R φ (s.stateOf x)) hR.step h hs

/-- The protocol for coroutines without services. -/
def runtimeProtocol (P : Protocol EngineSig Unit Φ) : Protocol RuntimeSig Unit Φ where
  start := P.start
  next φ e := P.next φ ⟨.runtime e.op, e.ret⟩
  allowed l φ o := P.allowed l φ (.runtime o)
  answers φ o r := P.answers φ (.runtime o) r

omit [Inhabited Φ] in
theorem follows_lift {P : Protocol EngineSig Unit Φ} {p : Coroutine α}
    (h : p.Follows (runtimeProtocol P) () Q E φ) :
    (liftM p : EngineRun α).Follows P () Q E φ := by
  show (lift p).Follows P () Q E φ
  induction p generalizing φ with
  | done a => exact follows_done (follows_done_iff.mp h)
  | raise e => exact follows_raise (follows_raise_iff.mp h)
  | call o k ih =>
    obtain ⟨ho, hk⟩ := follows_call_iff.mp h
    exact follows_call ho fun r hr => ih r (hk r hr)

/-! ### Plain parts of a visit -/

namespace Plain

theorem emitRun (run : RunContext) (eventType : ExecutionEventType) (labels : EventLabels) :
    Plain (run.emit eventType labels) := .bind (.emit _ _ _) fun _ => .pure ()

theorem raiseIfCancelled (run : RunContext) : Plain (OpenAgency.raiseIfCancelled run) := by
  refine .bind (.state _ _) fun st => ?_
  rcases st.cancelled with - | -
  · exact .pure ()
  · exact .raise _ _

theorem workflowRemaining (run : RunContext) : Plain (OpenAgency.workflowRemaining run) := by
  unfold OpenAgency.workflowRemaining
  split
  · exact .pure none
  · refine .bind (.object _) fun e => .bind .utcNow fun now => ?_
    dsimp only
    split
    · exact .raise _ _
    · exact .pure _

theorem heartbeat (id : Uuid) (worker : String) : Plain (OpenAgency.heartbeat id worker) := by
  refine .bind (.query _) fun row => ?_
  rcases row with - | e
  · exact .pure none
  · dsimp only
    split
    · exact .pure _
    · exact .bind .utcNow fun now => .bind (.query _) fun _ => .pure _

end Plain

/-! ### Coroutines that follow the protocol from everywhere -/

theorem allowed_service (c : ServiceCall) (limit : Option ℕ) (φ : Φ) :
    (stateProtocol x next R).allowed () φ (.service c limit) := fun _ ho => by cases ho

theorem allowed_ask (o : ExtOp) (φ : Φ) :
    (stateProtocol x next R).allowed () φ (.runtime (.ext o)) := fun _ ho => by cases ho

theorem allowed_modifyObject (ref : ℕ) (f : Execution → Execution) (φ : Φ) :
    (stateProtocol x next R).allowed () φ (.runtime (.proc (.modifyObject ref f))) :=
  fun _ ho => by cases ho

theorem Tracks.allowed_of_isPlain (hR : Tracks next R) {o : RuntimeOp} (h : o.IsPlain) (φ : Φ) :
    (stateProtocol x next R).allowed () φ (.runtime o) := by
  intro f ho st hst
  obtain rfl := EngineOp.runtime.inj ho
  obtain ⟨houtputs, houtcomes, hresults⟩ : KeepsProgress f := h
  exact hR.same φ st _ ⟨houtputs st, houtcomes st, hresults st⟩ hst

theorem Tracks.within_plain (hR : Tracks next R) {p : Coroutine α} (h : Plain p) :
    AlwaysAllowed (stateProtocol x next R) p :=
  h.mono (fun _ _ _ => trivial) fun _ ho φ => hR.allowed_of_isPlain ho φ

theorem Tracks.obeys_plain (hR : Tracks next R) {p : Coroutine α} (h : Plain p) :
    (liftM p : EngineRun α).Obeys (stateProtocol x next R) () :=
  .of_within (within_lift (hR.within_plain h))

theorem obeys_callService (c : ServiceCall) : (callService c).Obeys (stateProtocol x next R) () :=
  .of_within (within_callService fun limit φ => allowed_service c limit φ)

/-- The state that is read is related to what has been done. -/
theorem follows_readState {workflowId : String} {f : NativeExecutionState → EngineRun α}
    (h : ∀ st, R φ st → (f st).Follows (stateProtocol x next R) () Q E
      (next φ ⟨.runtime (.proc (.state x workflowId)), st⟩)) :
    ((liftM (process (.state x workflowId)) : EngineRun NativeExecutionState) >>= f).Follows
      (stateProtocol x next R) () Q E φ :=
  follows_call (fun _ ho => by cases ho) fun st hst => h st (hst rfl)

/-- A coroutine that is cut off. -/
theorem Tracks.follows_within (hR : Tracks next R)
    (h : p.Follows (stateProtocol x next R) () (fun _ _ => True) (fun _ _ => True) φ) (n : ℕ) :
    (p.within n).Follows (stateProtocol x next R) () (fun _ _ => True) (fun _ _ => True)
      φ := by
  induction p generalizing n φ with
  | done a =>
    rw [within]
    exact follows_done trivial
  | raise e =>
    rw [within]
    exact follows_raise trivial
  | call o k ih =>
    obtain ⟨ho, hk⟩ := follows_call_iff.mp h
    cases o with
    | runtime o =>
      rcases n with - | n
      · rw [within]
        exact follows_raise trivial
      · rw [within]
        exact follows_call ho fun r hr => ih r (hk r hr) n
    | service c limit =>
      rw [within]
      refine follows_call (allowed_service c (some n) φ) fun outcome _ => ?_
      rcases outcome with - | ⟨result, left⟩
      · exact follows_raise trivial
      · have hphase := hR.service φ c (some n) limit result left none
        refine ih _ ?_ _
        show (k (some (result, none))).Follows _ _ _ _ (next φ _)
        rw [hphase]
        exact hk _ trivial

/-- The execution of a task, if its tool calls follow the protocol. -/
theorem Tracks.rules (hR : Tracks next R) {ctx : TaskContext}
    (htool : ∀ iteration toolCalls messages index call,
      (executeToolCall ctx iteration toolCalls messages index call).Obeys
        (stateProtocol x next R) ()) :
    TaskRules ctx (fun _ => AlwaysAllowed (stateProtocol x next R))
      (fun _ p => p.Obeys (stateProtocol x next R) ()) := by
  have hplain : ∀ {α : Type} {p : Coroutine α}, Plain p →
      AlwaysAllowed (stateProtocol x next R) p := hR.within_plain
  have hask : ∀ o : ExtOp, AlwaysAllowed (stateProtocol x next R) (ask o : Coroutine o.Ret) :=
    fun o => ⟨allowed_ask o, fun _ _ => trivial⟩
  exact {
    coroutine := ⟨fun _ => trivial, fun _ => trivial, Program.Within.bind⟩
    engine := ⟨fun _ _ => follows_done trivial, fun _ _ => follows_raise trivial,
      .bind⟩
    lift := fun h => .of_within (within_lift h)
    attempt := .attempt
    within := fun h n φ => hR.follows_within (h φ) n
    emit := fun _ _ => hplain (.emit _ _ _)
    currentState := hplain (.state _ _)
    object := hplain (.object _)
    uuid4 := hplain .uuid4
    recordContextHealth := fun _ => hplain (.recordContextHealth _ _)
    enforceTokenBudgetAction := fun _ _ => hplain (.enforceTokenBudgetAction _ _ _)
    nodeError := fun _ _ => hplain (.modifyState _ ⟨fun _ => rfl, fun _ => rfl, fun _ => rfl⟩)
    generateText := fun _ _ => hask _
    timeoutAfter := fun _ => hask _
    service := obeys_callService
    toolCall := htool }

/-- The execution of a node, if its tool calls and its record follow the protocol. -/
theorem Tracks.executeNode (hR : Tracks next R) {run : RunContext} {node : WorkflowNodeDefinition}
    {task : TaskDefinition} {agent : AgentDefinition}
    (htool : ∀ iteration toolCalls messages index call,
      (executeToolCall (run.taskContext task agent) iteration toolCalls messages index call).Obeys
        (stateProtocol x next R) ())
    (hcomplete : ∀ output, (liftM (completeNode run node task output) : EngineRun Unit).Obeys
      (stateProtocol x next R) ()) (loop : NodeLoop) :
    (executeNode run loop node task agent).Obeys (stateProtocol x next R) () := by
  have hplain : ∀ {α : Type} {p : Coroutine α}, Plain p → (liftM p : EngineRun α).Obeys
      (stateProtocol x next R) () := fun hp => hR.obeys_plain hp
  have hreturn : (pure () : EngineRun Unit).Obeys (stateProtocol x next R) () :=
    fun _ => follows_done trivial
  -- the part after the handoff has been announced
  have htask : ∀ (handoff : Bool) (workflowTimeout : Option Time), (do
      let _ ← (run.taskContext task agent).emit .taskStarted
      let output ← taskOutput (run.taskContext task agent) node (taskOverrides run.workflow node task)
        workflowTimeout
      raiseIfCancelled run
      completeNode run node task output
      if handoff then
        let _ ← (run.taskContext task agent).emit .handoffCompleted : EngineRun Unit).Obeys
          (stateProtocol x next R) () := by
    intro handoff workflowTimeout
    refine .bind (hplain (.emit _ _ _)) fun _ => ?_
    refine .bind ((hR.rules htool).taskOutput _ _ _) fun output => ?_
    refine .bind (hplain (.raiseIfCancelled run)) fun _ => ?_
    refine .bind (hcomplete output) fun _ => ?_
    cases handoff with
    | true => exact .bind (hplain (.emit _ _ _)) fun _ => hreturn
    | false => exact hreturn
  unfold OpenAgency.executeNode
  refine .bind (hplain (.modifyState _ ⟨fun _ => rfl, fun _ => rfl, fun _ => rfl⟩)) fun _ => ?_
  refine .bind (fun φ => ?_) fun _ => .bind (hplain (.workflowRemaining run)) fun timeout => ?_
  · rcases resolveProfile run.cfg agent task with e | -
    · exact follows_raise trivial
    · exact follows_done trivial
  · dsimp only
    split
    · exact .bind (hplain (.emit _ _ _)) fun _ => htask true timeout
    · exact htask false timeout

/-! ### What a visit finds -/

theorem nodeIsReachable_congr {cfg : EngineConfig} {workflow : WorkflowDefinition}
    {st st' : NativeExecutionState} (h : SameProgress st st') (node : WorkflowNodeDefinition) :
    nodeIsReachable cfg workflow st' node = nodeIsReachable cfg workflow st node := by
  unfold nodeIsReachable
  rw [h.nodeOutcomes, h.nodeOutputs]

/-- The visit found this about its node, in a state with the given progress. -/
def Visit.Finds (run : RunContext) (retryTaskId : Option String) (loop : NodeLoop)
    (node : WorkflowNodeDefinition) (st : NativeExecutionState) : Visit → Prop
  | .passed =>
    (node.nodeType ≠ .task ∧ node.nodeType ≠ .approval) ∨
      nodeIsReachable run.cfg run.workflow st node = false ∨
      ∃ task, resolveTask run.workflow node.taskId = .ok task ∧ loop.retryStarted = false ∧
        some task.id ≠ retryTaskId
  | .completed =>
    nodeIsReachable run.cfg run.workflow st node = true ∧ (st.nodeOutputs.get? node.id).isSome
  | .execute task _ =>
    nodeIsReachable run.cfg run.workflow st node = true ∧
      resolveTask run.workflow node.taskId = .ok task ∧ st.nodeOutputs.get? node.id = none

section Enter

variable {run : RunContext} {retryTaskId : Option String} {loop : NodeLoop}
  {node : WorkflowNodeDefinition} {st : NativeExecutionState}

theorem tracks_sameProgress (st : NativeExecutionState) :
    Tracks (fun (_ : Unit) _ => ()) fun _ => SameProgress st where
  same _ _ _ hsame h :=
    ⟨hsame.nodeOutputs.trans h.nodeOutputs, hsame.nodeOutcomes.trans h.nodeOutcomes,
      hsame.taskToolResults.trans h.taskToolResults⟩
  mono _ _ _ h := h
  service _ _ _ _ _ _ _ := rfl

/-- The protocol of what leaves the progress alone. -/
abbrev idleProtocol (x : Uuid) (st : NativeExecutionState) : Protocol EngineSig Unit Unit :=
  stateProtocol x (fun _ _ => ()) fun _ => SameProgress st

theorem follows_enterNode :
    (enterNode run retryTaskId loop node).Follows (idleProtocol run.state.executionId st) ()
      (fun visit _ => visit.Finds run retryTaskId loop node st) (fun _ _ => True) () := by
  have hplain : ∀ {α β : Type} {p : Coroutine α} {f : α → EngineRun β}
      {Q : β → Unit → Prop}, Plain p →
      (∀ a, (f a).Follows (idleProtocol run.state.executionId st) () Q (fun _ _ => True) ()) →
      ((liftM p : EngineRun α) >>= f).Follows (idleProtocol run.state.executionId st) () Q
        (fun _ _ => True) () := by
    intro α β p f Q hp hf
    apply follows_bind
    exact ((tracks_sameProgress st).obeys_plain hp ()).mono (fun a _ _ => hf a) fun _ _ h => h
  refine hplain (.raiseIfCancelled run) fun _ => hplain (.object _) fun e => ?_
  rcases orElseString e.workerId none with - | worker
  on_goal 2 => refine hplain (.heartbeat _ _) fun _ => ?_
  -- the part after the heartbeat
  all_goals
    dsimp only
    split
    next hkind => exact follows_done (.inl (by simpa using hkind))
    · refine follows_readState fun st' hsame => ?_
      rw [nodeIsReachable_congr hsame node]
      split
      next hunreachable =>
        refine hplain (.emitRun run _ _) fun _ => follows_done (.inr (.inl ?_))
        simpa using hunreachable
      next hreachable =>
        have hreachable : nodeIsReachable run.cfg run.workflow st node = true := by
          simpa using hreachable
        rcases htask : resolveTask run.workflow node.taskId with e | task
        · exact follows_raise trivial
        rw [Program.ofExcept_ok, done_bind]
        split
        next hretry =>
          obtain ⟨hstarted, hother⟩ : loop.retryStarted = false ∧ some task.id ≠ retryTaskId := by
            simpa using hretry
          exact follows_done (.inr (.inr ⟨task, htask, hstarted, hother⟩))
        · rcases resolveAgent run.workflow (orElseString node.agentId task.agentId) with e | agent
          · exact follows_raise trivial
          · rw [Program.ofExcept_ok, done_bind, hsame.nodeOutputs]
            rcases houtput : st.nodeOutputs.get? node.id with - | output
            · exact follows_done ⟨hreachable, htask, houtput⟩
            · refine follows_done ⟨hreachable, ?_⟩
              rw [houtput]
              rfl

variable {s' : Session}

theorem run_enterNode {visit : Visit}
    (h : (enterNode run retryTaskId loop node).run (engineHandler cfg env) s = (.ok visit, s')) :
    visit.Finds run retryTaskId loop node (s.stateOf run.state.executionId) ∧
      SameProgress (s.stateOf run.state.executionId) (s'.stateOf run.state.executionId) := by
  have hfollows : (enterNode run retryTaskId loop node).Follows
      (idleProtocol run.state.executionId (s.stateOf run.state.executionId)) ()
      (fun visit _ => visit.Finds run retryTaskId loop node (s.stateOf run.state.executionId))
      (fun _ _ => True) () := follows_enterNode
  obtain ⟨_, hfinds, hsame⟩ := (Program.Follows.run
    (J := fun (s' : Session) _ => SameProgress (s.stateOf run.state.executionId)
      (s'.stateOf run.state.executionId))
    (tracks_sameProgress _).step hfollows ⟨rfl, rfl, rfl⟩).1 visit s' h
  exact ⟨hfinds, hsame⟩

/-- A visit that returns. -/
theorem run_visitNode {loop' : NodeLoop}
    (h : (visitNode run retryTaskId loop node).run (engineHandler cfg env) s = (.ok loop', s')) :
    ∃ visit s₁, (enterNode run retryTaskId loop node).run (engineHandler cfg env) s =
        (.ok visit, s₁) ∧
      (leaveNode run loop node visit).run (engineHandler cfg env) s₁ = (.ok loop', s') := by
  rw [visitNode_eq, run_bind] at h
  rcases henter : (enterNode run retryTaskId loop node).run (engineHandler cfg env) s with
    ⟨e | visit, s₁⟩
  · rw [henter] at h
    cases h
  · rw [henter] at h
    exact ⟨visit, s₁, rfl, h⟩

/-- A visit that executes its node ends where the execution ends. -/
theorem run_leaveNode_execute {task : TaskDefinition} {agent : AgentDefinition} {loop' : NodeLoop}
    (h : (leaveNode run loop node (.execute task agent)).run (engineHandler cfg env) s = (.ok loop',
      s')) :
    (executeNode run loop node task agent).run (engineHandler cfg env) s = (.ok (), s') := by
  unfold leaveNode at h
  rw [run_bind] at h
  rcases hexecute : (executeNode run loop node task agent).run (engineHandler cfg env) s with
    ⟨e | _, s₁⟩
  · rw [hexecute] at h
    cases h
  · rw [hexecute] at h
    cases h
    rfl

/-- The executions from a node on: there are none if the visit fails before it executes the
node; they are those of the nodes after it if the node is not executed; or the node's is
the first. -/
theorem loopExecutions_cons (cfg : EngineConfig) (env : Environment) (run : RunContext)
    (retryTaskId : Option String) (loop : NodeLoop) (node : WorkflowNodeDefinition)
    (nodes : List WorkflowNodeDefinition) (s : Session) :
    loopExecutions cfg env run retryTaskId loop (node :: nodes) s = [] ∨
      (∃ loop' s', SameProgress (s.stateOf run.state.executionId) (s'.stateOf run.state.executionId) ∧
        loopExecutions cfg env run retryTaskId loop (node :: nodes) s =
          loopExecutions cfg env run retryTaskId loop' nodes s') ∨
      ∃ ex : NodeExecution, ex.run = run ∧ ex.node = node ∧
        SameProgress (s.stateOf run.state.executionId) (ex.before.stateOf run.state.executionId) ∧
        (Visit.execute ex.task ex.agent).Finds run retryTaskId loop node
          (s.stateOf run.state.executionId) ∧
        ∃ later, loopExecutions cfg env run retryTaskId loop (node :: nodes) s = ex :: later ∧
          (later = [] ∨ ∃ loop', later =
            loopExecutions cfg env run retryTaskId loop' nodes ex.after) := by
  rw [loopExecutions]
  rcases henter : (enterNode run retryTaskId loop node).run (engineHandler cfg env) s with
    ⟨e | visit, s₁⟩
  · refine .inl ?_
    rw [visitNode_eq, run_bind_error _ henter]
  · obtain ⟨hfinds, hsame⟩ := run_enterNode henter
    cases visit with
    | passed =>
      refine .inr (.inl ⟨loop, s₁, hsame, ?_⟩)
      rw [visitNode_eq, run_bind_ok _ henter]
      rfl
    | completed =>
      refine .inr (.inl ⟨{ retryStarted := true, previousNodeId := some node.id }, s₁, hsame, ?_⟩)
      rw [visitNode_eq, run_bind_ok _ henter]
      rfl
    | execute task agent =>
      refine .inr (.inr ⟨⟨cfg, env, run, loop, node, task, agent, s₁⟩, rfl, rfl, hsame, hfinds, ?_⟩)
      dsimp only
      rcases hvisit : (visitNode run retryTaskId loop node).run (engineHandler cfg env) s with
        ⟨e | loop', s'⟩
      · exact ⟨[], rfl, .inl rfl⟩
      · refine ⟨_, rfl, .inr ⟨loop', ?_⟩⟩
        obtain ⟨visit, s₂, henter', hleave⟩ := run_visitNode hvisit
        rw [henter] at henter'
        cases henter'
        have hafter := run_leaveNode_execute hleave
        unfold NodeExecution.after NodeExecution.program NodeExecution.handler
        rw [hafter]
        rfl

end Enter

end Progress

end OpenAgency
