/-
NodeRouting.lean

Which nodes a run leaves out.  A visit skips its node if edges lead there and none of
them is enabled by the outcome recorded for its source.  Only task and approval nodes
ever get an outcome, so an edge that starts at a node of another type enables nothing:

    draft  ──success──▶  gate  ──default──▶  publish

Here `publish` is skipped if `gate` is a trigger.  `Routed` walks through such nodes, as
the search for terminal nodes does.  It agrees with a visit exactly as far as a node that
others lead to is led to by an enabled edge as well (`routed_iff`).
-/
import OpenAgency.NodeVisits
import OpenAgency.PlannerOrder

namespace OpenAgency

open Interaction Precedence Program List Planner

/-! ### Routes -/

/-- The node is one that gets executed. -/
def WorkflowNodeDefinition.IsExecutable (node : WorkflowNodeDefinition) : Prop :=
  node.nodeType = .task ∨ node.nodeType = .approval

/-- A node of another type has this id. -/
def IsTransparent (workflow : WorkflowDefinition) (id : String) : Prop :=
  ∃ node ∈ workflow.nodes, node.id = id ∧ ¬node.IsExecutable

/-- The source of the edge has an outcome, which matches the edge. -/
def edgeIsEnabled (cfg : EngineConfig) (st : NativeExecutionState)
    (edge : WorkflowEdgeDefinition) : Bool :=
  match st.nodeOutcomes.get? edge.sourceNodeId with
  | none => false
  | some outcome =>
    edgeConditionMatches cfg edge ((st.nodeOutputs.get? edge.sourceNodeId).getD .null) outcome

section Routes

variable (cfg : EngineConfig) (workflow : WorkflowDefinition) (st : NativeExecutionState)

/-- An enabled edge leads to the node. -/
def EnabledAt (id : String) : Prop :=
  ∃ e ∈ workflow.edges, e.targetNodeId = id ∧ edgeIsEnabled cfg st e = true

/-- The node is reached from a root.  Edges from executed nodes have to match their
outcomes; nodes of other types pass on whatever reaches them. -/
inductive Routed : String → Prop
  | root {node : WorkflowNodeDefinition} (hnode : node ∈ workflow.nodes)
      (hroot : ∀ e ∈ workflow.edges, e.targetNodeId ≠ node.id) : Routed node.id
  | edge {e : WorkflowEdgeDefinition} (he : e ∈ workflow.edges) (hsource : Routed e.sourceNodeId)
      (hpass : edgeIsEnabled cfg st e = true ∨ IsTransparent workflow e.sourceNodeId) :
      Routed e.targetNodeId

/-- A node of another type, itself reached, leads to the node. -/
def RoutedThrough (id : String) : Prop :=
  ∃ e ∈ workflow.edges, e.targetNodeId = id ∧ IsTransparent workflow e.sourceNodeId ∧
    Routed cfg workflow st e.sourceNodeId

end Routes

/-- The states agree on the node. -/
structure AgreeAt (id : String) (st st' : NativeExecutionState) : Prop where
  output : st'.nodeOutputs.get? id = st.nodeOutputs.get? id
  outcome : st'.nodeOutcomes.get? id = st.nodeOutcomes.get? id

section Agree

variable {cfg : EngineConfig} {workflow : WorkflowDefinition} {st st' st'' : NativeExecutionState}
  {id : String}

theorem AgreeAt.refl (id : String) (st : NativeExecutionState) : AgreeAt id st st := ⟨rfl, rfl⟩

theorem AgreeAt.symm (h : AgreeAt id st st') : AgreeAt id st' st := ⟨h.output.symm, h.outcome.symm⟩

theorem AgreeAt.trans (h : AgreeAt id st st') (h' : AgreeAt id st' st'') : AgreeAt id st st'' :=
  ⟨h'.output.trans h.output, h'.outcome.trans h.outcome⟩

theorem SameProgress.agreeAt (h : SameProgress st st') (id : String) : AgreeAt id st st' := by
  constructor
  · rw [h.nodeOutputs]
  · rw [h.nodeOutcomes]

theorem edgeIsEnabled_congr {e : WorkflowEdgeDefinition} (h : AgreeAt e.sourceNodeId st st') :
    edgeIsEnabled cfg st' e = edgeIsEnabled cfg st e := by
  unfold edgeIsEnabled
  rw [h.outcome, h.output]

/-- Whether a node is reached depends on what is recorded for the nodes before it. -/
theorem Routed.congr (h : Routed cfg workflow st id)
    (hagree : ∀ u, Relation.TransGen (EdgeBetween workflow) u id → AgreeAt u st st') :
    Routed cfg workflow st' id := by
  induction h with
  | root hnode hroot => exact .root hnode hroot
  | edge he hsource hpass ih =>
    have hedge : EdgeBetween workflow _ _ := ⟨_, he, rfl, rfl⟩
    refine .edge he (ih fun u hu => hagree u (hu.tail hedge)) ?_
    rw [edgeIsEnabled_congr (hagree _ (.single hedge))]
    exact hpass

variable {node : WorkflowNodeDefinition}

/-- A visit does not skip its node if no edge leads there, or an enabled one. -/
theorem nodeIsReachable_iff :
    nodeIsReachable cfg workflow st node = true ↔
      (∀ e ∈ workflow.edges, e.targetNodeId ≠ node.id) ∨ EnabledAt cfg workflow st node.id := by
  unfold nodeIsReachable
  dsimp only
  rw [Bool.or_eq_true, List.isEmpty_iff, List.filter_eq_nil_iff, List.any_eq_true]
  refine or_congr (forall₂_congr fun e _ => ?_) ?_
  · rw [decide_eq_true_eq]
  · constructor
    · rintro ⟨e, he, henabled⟩
      obtain ⟨hmem, htarget⟩ := List.mem_filter.mp he
      exact ⟨e, hmem, of_decide_eq_true htarget, henabled⟩
    · rintro ⟨e, hmem, htarget, henabled⟩
      exact ⟨e, List.mem_filter.mpr ⟨hmem, decide_eq_true htarget⟩, henabled⟩

/-- What reaches a node reaches it through another node, or makes the visit execute it. -/
theorem Routed.reachable_or_through (h : Routed cfg workflow st node.id) :
    nodeIsReachable cfg workflow st node = true ∨ RoutedThrough cfg workflow st node.id := by
  rw [nodeIsReachable_iff]
  generalize hid : node.id = id at h
  cases h with
  | root hnode hroot => exact .inl (.inl hroot)
  | edge he hsource hpass =>
    rcases hpass with henabled | htransparent
    · exact .inl (.inr ⟨_, he, rfl, henabled⟩)
    · exact .inr ⟨_, he, rfl, htransparent, hsource⟩

theorem RoutedThrough.routed (h : RoutedThrough cfg workflow st id) :
    Routed cfg workflow st id := by
  obtain ⟨e, he, rfl, htransparent, hsource⟩ := h
  exact .edge he hsource (.inr htransparent)

/-- A node that another leads to is skipped if no edge is enabled. -/
theorem RoutedThrough.enabled (h : RoutedThrough cfg workflow st node.id)
    (hreachable : nodeIsReachable cfg workflow st node = true) :
    EnabledAt cfg workflow st node.id := by
  obtain ⟨e, he, htarget, -⟩ := h
  exact (nodeIsReachable_iff.mp hreachable).resolve_left fun hnone => hnone e he htarget

end Agree

/-! ### A visit keeps to its node -/

section Visit

variable {run : RunContext} {node : WorkflowNodeDefinition} {task : TaskDefinition}
  {agent : AgentDefinition} {id : String} {st : NativeExecutionState}

/-- The states agree on all other nodes. -/
def AgreeElsewhere (id : String) (st st' : NativeExecutionState) : Prop :=
  ∀ other, other ≠ id → AgreeAt other st st'

theorem tracks_agreeElsewhere (id : String) (st : NativeExecutionState) :
    Tracks (fun (_ : Unit) _ => ()) fun _ => AgreeElsewhere id st where
  same _ _ _ hsame h other hother := (h other hother).trans (hsame.agreeAt other)
  mono _ _ _ h := h
  service _ _ _ _ _ _ _ := rfl

/-- The protocol of what leaves the records of other nodes alone. -/
abbrev elsewhereProtocol (x : Uuid) (id : String) (st : NativeExecutionState) :
    Protocol EngineSig Unit Unit :=
  stateProtocol x (fun _ _ => ()) fun _ => AgreeElsewhere id st

theorem mayExecute_elsewhere (ctx : TaskContext) (x : Uuid) (call : ModelToolCall) :
    MayExecute ctx (fun o => ∀ φ, (elsewhereProtocol x id st).allowed () φ o) call where
  plain _ ho φ := (tracks_agreeElsewhere id st).allowed_of_isPlain ho φ
  object := allowed_modifyObject
  service := allowed_service
  tool _ _ _ _ _ := allowed_ask _
  record result φ f ho st' h := by
    obtain rfl : recordToolResult ctx call result = f := by
      cases ho
      rfl
    intro other hother
    exact (h other hother).trans ⟨rfl, rfl⟩

theorem AgreeElsewhere.recordNodeOutput {st' : NativeExecutionState} {output : Json}
    (cfg : EngineConfig) (h : AgreeElsewhere id st st') :
    AgreeElsewhere id st (recordNodeOutput cfg id output st') := by
  intro other hother
  refine (h other hother).trans ⟨?_, ?_⟩
  · show (st'.nodeOutputs.set id output).get? other = _
    rw [Dict.get?_set_ne hother]
  · show (st'.nodeOutcomes.set id (nodeOutcome cfg output)).get? other = _
    rw [Dict.get?_set_ne hother]

theorem obeys_completeNode (x : Uuid) (output : Json) :
    (liftM (completeNode run node task output) : EngineRun Unit).Obeys
      (elsewhereProtocol x node.id st) () := by
  have hplain : ∀ {α : Type} {p : Coroutine α}, Plain p →
      AlwaysAllowed (elsewhereProtocol x node.id st) p :=
    (tracks_agreeElsewhere node.id st).within_plain
  have hsave : AlwaysAllowed (elsewhereProtocol x node.id st) (do
      let st ← run.currentState
      run.modifyObject fun e => { e with outputPayload := some (executionCheckpointPayload st none) }
      saveObject run.ref : Coroutine Unit) := by
    refine .bind (hplain (.state _ _)) fun _ => ?_
    exact ⟨allowed_modifyObject _ _, fun _ _ => hplain (.saveObject _)⟩
  refine .of_within (within_lift (.bind (hplain (.state _ _)) fun st' => ?_))
  dsimp only
  generalize (if nodeOutcome run.cfg output = .success then
    requiredToolResultError run.cfg task ((st'.taskToolResults.get? task.id).getD []) else none) = missing
  rcases missing with - | message
  · refine ⟨fun _ f ho st'' h => ?_, fun _ _ => hsave⟩
    cases ho
    exact h.recordNodeOutput run.cfg
  · refine ⟨fun _ f ho st'' h => ?_, fun _ _ => hsave⟩
    cases ho
    have herrors : AgreeElsewhere node.id st
        { st'' with nodeErrors := st''.nodeErrors.set node.id message } :=
      fun other hother => (h other hother).trans ⟨rfl, rfl⟩
    exact herrors.recordNodeOutput run.cfg

variable {cfg : EngineConfig} {env : Environment} {retryTaskId : Option String}
  {loop loop' : NodeLoop} {s s' : Session}

/-- **A visit** leaves what is recorded for the other nodes as it is. -/
theorem agree_visitNode
    (h : (visitNode run retryTaskId loop node).run (engineHandler cfg env) s = (.ok loop', s')) :
    AgreeElsewhere node.id (s.stateOf run.state.executionId) (s'.stateOf run.state.executionId) := by
  obtain ⟨visit, s₁, henter, hleave⟩ := run_visitNode h
  obtain ⟨-, hsame⟩ := run_enterNode henter
  have hentered : AgreeElsewhere node.id (s.stateOf run.state.executionId)
      (s₁.stateOf run.state.executionId) := fun other _ => hsame.agreeAt other
  cases visit with
  | passed =>
    cases hleave
    exact hentered
  | completed =>
    cases hleave
    exact hentered
  | execute task agent =>
    have hexecute := run_leaveNode_execute hleave
    have hobeys := (tracks_agreeElsewhere node.id (s.stateOf run.state.executionId)).executeNode
      (fun iteration toolCalls messages index call =>
        .of_within (within_executeToolCall (mayExecute_elsewhere (run.taskContext task agent)
          run.state.executionId call) iteration toolCalls messages index))
      (obeys_completeNode run.state.executionId) loop
    have hrun : AgreeElsewhere node.id (s.stateOf run.state.executionId)
        (((executeNode run loop node task agent).run (engineHandler cfg env) s₁).2.stateOf
          run.state.executionId) := (tracks_agreeElsewhere node.id _).run (hobeys ()) hentered
    rw [hexecute] at hrun
    exact hrun

/-- Once a retry has come to its task it goes on. -/
theorem retryStarted_visitNode (hstarted : loop.retryStarted = true)
    (h : (visitNode run retryTaskId loop node).run (engineHandler cfg env) s = (.ok loop', s')) :
    loop'.retryStarted = true := by
  obtain ⟨visit, s₁, -, hleave⟩ := run_visitNode h
  cases visit with
  | passed =>
    cases hleave
    exact hstarted
  | completed =>
    cases hleave
    rfl
  | execute task agent =>
    have hexecute := run_leaveNode_execute hleave
    unfold leaveNode at hleave
    rw [run_bind_ok _ hexecute] at hleave
    cases hleave
    rfl

end Visit

/-! ### A finished run -/

/-- A visit of the loop: what it is done with, its node, and the session it starts in. -/
structure NodeVisit where
  loop : NodeLoop
  node : WorkflowNodeDefinition
  before : Session

section Loop

variable (cfg : EngineConfig) (env : Environment) (run : RunContext) (retryTaskId : Option String)

/-- The visits of the given nodes, up to the first that fails. -/
def loopVisits : NodeLoop → List WorkflowNodeDefinition → Session → List NodeVisit
  | _, [], _ => []
  | loop, node :: rest, s =>
    { loop := loop, node := node, before := s } ::
      match (visitNode run retryTaskId loop node).run (engineHandler cfg env) s with
      | (.ok loop', s') => loopVisits loop' rest s'
      | _ => []

variable {cfg} {env} {run} {retryTaskId} {loop loop' : NodeLoop}
  {nodes : List WorkflowNodeDefinition} {s finish : Session}

/-- A loop that returns goes on behind its first visit. -/
theorem run_loop_cons {node : WorkflowNodeDefinition}
    (h : ((node :: nodes).foldlM (visitNode run retryTaskId) loop).run (engineHandler cfg env) s =
      (.ok loop', finish)) :
    ∃ next s', (visitNode run retryTaskId loop node).run (engineHandler cfg env) s = (.ok next, s') ∧
      (nodes.foldlM (visitNode run retryTaskId) next).run (engineHandler cfg env) s' =
        (.ok loop', finish) := by
  rw [foldlM_cons] at h
  rcases hvisit : (visitNode run retryTaskId loop node).run (engineHandler cfg env) s with
    ⟨e | next, s'⟩
  · rw [run_bind_error _ hvisit] at h
    cases h
  · rw [run_bind_ok _ hvisit] at h
    exact ⟨next, s', rfl, h⟩

/-- A loop that returns has visited all nodes. -/
theorem map_loopVisits
    (h : (nodes.foldlM (visitNode run retryTaskId) loop).run (engineHandler cfg env) s =
      (.ok loop', finish)) :
    (loopVisits cfg env run retryTaskId loop nodes s).map (·.node) = nodes := by
  induction nodes generalizing loop s with
  | nil => rfl
  | cons node rest ih =>
    obtain ⟨next, s', hvisit, hrest⟩ := run_loop_cons h
    rw [loopVisits, hvisit, map_cons]
    exact congrArg (node :: ·) (ih hrest)

/-- The loop leaves nodes that it does not visit as they are. -/
theorem agree_loop
    (h : (nodes.foldlM (visitNode run retryTaskId) loop).run (engineHandler cfg env) s =
      (.ok loop', finish)) {id : String} (hid : id ∉ nodes.map (·.id)) :
    AgreeAt id (s.stateOf run.state.executionId) (finish.stateOf run.state.executionId) := by
  induction nodes generalizing loop s with
  | nil =>
    obtain ⟨-, rfl⟩ := Prod.mk.inj h
    exact AgreeAt.refl id _
  | cons node rest ih =>
    obtain ⟨next, s', hvisit, hrest⟩ := run_loop_cons h
    rw [map_cons, mem_cons, not_or] at hid
    exact (agree_visitNode hvisit id hid.1).trans (ih hrest hid.2)

/-- **A visit in a loop that returns**: the nodes before it have left other nodes alone, and
the loop goes on from the visit. -/
theorem loop_at_visit {before after : List NodeVisit} {v : NodeVisit}
    (h : (nodes.foldlM (visitNode run retryTaskId) loop).run (engineHandler cfg env) s =
      (.ok loop', finish))
    (hvisits : loopVisits cfg env run retryTaskId loop nodes s = before ++ v :: after) :
    (∀ id, id ∉ before.map (·.node.id) →
        AgreeAt id (s.stateOf run.state.executionId) (v.before.stateOf run.state.executionId)) ∧
      ((v.node :: after.map (·.node)).foldlM (visitNode run retryTaskId) v.loop).run
        (engineHandler cfg env) v.before = (.ok loop', finish) ∧
      (loop.retryStarted = true → v.loop.retryStarted = true) ∧
      ∀ ex ∈ loopExecutions cfg env run retryTaskId v.loop (v.node :: after.map (·.node)) v.before,
        ex ∈ loopExecutions cfg env run retryTaskId loop nodes s := by
  induction nodes generalizing loop s before with
  | nil => exact absurd hvisits.symm (append_ne_nil_of_right_ne_nil _ (cons_ne_nil _ _))
  | cons node rest ih =>
    have hall := map_loopVisits h
    obtain ⟨next, s', hvisit, hrest⟩ := run_loop_cons h
    rw [hvisits] at hall
    rw [loopVisits, hvisit] at hvisits
    cases before with
    | nil =>
      obtain ⟨rfl, -⟩ := List.cons.inj hvisits
      obtain ⟨-, hafter⟩ := List.cons.inj hall
      rw [hafter]
      exact ⟨fun id _ => AgreeAt.refl id _, h, fun hstarted => hstarted, fun _ hex => hex⟩
    | cons first before =>
      obtain ⟨rfl, htail⟩ := List.cons.inj hvisits
      obtain ⟨hagree, hfinish, hstarted, hexecutions⟩ := ih hrest htail
      refine ⟨fun id hid => ?_, hfinish, fun h => hstarted (retryStarted_visitNode h hvisit),
        fun ex hex => ?_⟩
      · rw [map_cons, mem_cons, not_or] at hid
        exact (agree_visitNode hvisit id hid.1).trans (hagree id hid.2)
      · rw [loopExecutions, hvisit]
        exact mem_append_right _ (hexecutions ex hex)

end Loop

/-- A run whose loop has come to the end of the plan. -/
structure FinishedRun where
  run : RunContext
  retryTaskId : Option String
  /-- The sessions the loop has started and ended in. -/
  start : Session
  finish : Session

namespace Attempt

variable (cfg : EngineConfig) (executionId : Uuid) (a : Attempt)

/-- The run of an attempt, if nothing pauses, cancels or fails it on the way. -/
def finished : Option FinishedRun :=
  match a.planned cfg executionId with
  | (.ok (run, retryTaskId), start) =>
    match ((orderNodes run.workflow).foldlM (visitNode run retryTaskId)
        { retryStarted := retryTaskId.isNone }).run (engineHandler cfg a.env) start with
    | (.ok _, finish) => some {
        run := run
        retryTaskId := retryTaskId
        start := start
        finish := finish }
    | _ => none
  | _ => none

variable {cfg} {executionId} {a}

theorem finished_eq_some {r : FinishedRun} (h : a.finished cfg executionId = some r) :
    a.planned cfg executionId = (.ok (r.run, r.retryTaskId), r.start) ∧
      ∃ loop, ((orderNodes r.run.workflow).foldlM (visitNode r.run r.retryTaskId)
        { retryStarted := r.retryTaskId.isNone }).run (engineHandler cfg a.env) r.start =
          (.ok loop, r.finish) := by
  unfold finished at h
  split at h
  next run retryTaskId start hplanned =>
    split at h
    next loop finish hloop =>
      cases h
      exact ⟨hplanned, loop, hloop⟩
    · cases h
  · cases h

/-- Nodes are executed in the order they are visited in, and none that has an output. -/
theorem loopExecutions_sublist (cfg : EngineConfig) (env : Environment) (run : RunContext)
    (retryTaskId : Option String) (loop : NodeLoop) (nodes : List WorkflowNodeDefinition)
    (s : Session) :
    (loopExecutions cfg env run retryTaskId loop nodes s).map (·.node) <+ nodes ∧
      ∀ ex ∈ loopExecutions cfg env run retryTaskId loop nodes s,
        (ex.before.stateOf run.state.executionId).nodeOutputs.get? ex.node.id = none := by
  induction nodes generalizing loop s with
  | nil =>
    rw [loopExecutions]
    exact ⟨.slnil, forall_mem_nil _⟩
  | cons node nodes ih =>
    rcases loopExecutions_cons cfg env run retryTaskId loop node nodes s with
      hnone | ⟨loop', s', -, heq⟩ | ⟨ex, -, rfl, hsame, ⟨-, -, hfree⟩, later, heq, hlater⟩
    · rw [hnone]
      exact ⟨nil_sublist _, forall_mem_nil _⟩
    · rw [heq]
      exact ⟨(ih loop' s').1.cons _, (ih loop' s').2⟩
    · obtain ⟨hsub, hlater⟩ : later.map (·.node) <+ nodes ∧ ∀ ex ∈ later,
          (ex.before.stateOf run.state.executionId).nodeOutputs.get? ex.node.id = none := by
        rcases hlater with rfl | ⟨loop', rfl⟩
        · exact ⟨nil_sublist _, forall_mem_nil _⟩
        · exact ih loop' ex.after
      rw [heq]
      exact ⟨hsub.cons_cons _, forall_mem_cons.mpr ⟨hsame.nodeOutputs ▸ hfree, hlater⟩⟩

/-- **Nodes are executed once.**  Where the plan respects the edges, no node is executed twice
or after one that it leads to, and none that has an output; and `start_execution` performs
these executions and no other. -/
theorem executes_once {run : RunContext} {retryTaskId : Option String} {s : Session}
    (hplanned : a.planned cfg executionId = (.ok (run, retryTaskId), s))
    (hids : (run.workflow.nodes.map (·.id)).Nodup)
    (horder : RespectsEdges run.workflow (orderNodes run.workflow)) :
    ((a.executions cfg executionId).map (·.node.id)).Pairwise
        (fun u v => u ≠ v ∧ ¬EdgeBetween run.workflow v u) ∧
      (∀ ex ∈ a.executions cfg executionId,
        (ex.before.stateOf run.state.executionId).nodeOutputs.get? ex.node.id = none) ∧
      a.Performs cfg executionId run retryTaskId s := by
  have hnodup : ((orderNodes run.workflow).map (·.id)).Nodup := (horder.1.map _).nodup_iff.mpr hids
  have hforward : ((orderNodes run.workflow).map (·.id)).Pairwise
      fun u v => u ≠ v ∧ ¬EdgeBetween run.workflow v u := by
    rw [pairwise_iff_forall_sublist]
    intro u v huv
    have hne := pairwise_iff_forall_sublist.mp hnodup huv
    refine ⟨hne, ?_⟩
    rintro ⟨e, he, rfl, rfl⟩
    -- both orders of the pair are part of a list without repetition
    have hsame := (hnodup.perm_iff_eq_of_sublist huv (horder.2 e he)).mp (.swap ..)
    exact hne (cons.inj hsame).1
  have hexecutions : a.executions cfg executionId = loopExecutions cfg a.env run retryTaskId
      { retryStarted := retryTaskId.isNone } (orderNodes run.workflow) s := by
    rw [executions, hplanned]
  obtain ⟨hsub, hfree⟩ := hexecutions ▸ loopExecutions_sublist cfg a.env run retryTaskId
    { retryStarted := retryTaskId.isNone } (orderNodes run.workflow) s
  refine ⟨hforward.sublist ?_, hfree, performs_startExecution hplanned⟩
  have hmap := hsub.map (·.id)
  rwa [map_map] at hmap

end Attempt

theorem mem_loopExecutions_of_execute {cfg : EngineConfig} {env : Environment} {run : RunContext}
    {retryTaskId : Option String} {loop : NodeLoop} {node : WorkflowNodeDefinition}
    {task : TaskDefinition} {agent : AgentDefinition} {s s' : Session}
    (h : (enterNode run retryTaskId loop node).run (engineHandler cfg env) s =
      (.ok (.execute task agent), s')) (rest : List WorkflowNodeDefinition) :
    ∃ ex ∈ loopExecutions cfg env run retryTaskId loop (node :: rest) s, ex.node = node := by
  rw [loopExecutions, h]
  dsimp only
  refine ⟨⟨cfg, env, run, loop, node, task, agent, s'⟩, ?_, rfl⟩
  split
  · exact mem_append_left _ mem_cons_self
  · exact mem_cons_self

namespace FinishedRun

/-- What is recorded in a session. -/
def stateIn (r : FinishedRun) (s : Session) : NativeExecutionState :=
  s.stateOf r.run.state.executionId

/-- The visits of the run, one for each node. -/
def visits (r : FinishedRun) (cfg : EngineConfig) (env : Environment) : List NodeVisit :=
  loopVisits cfg env r.run r.retryTaskId { retryStarted := r.retryTaskId.isNone }
    (orderNodes r.run.workflow) r.start

/-- The node has been executed in the attempt, or it had an output when the loop started. -/
def Executed (r : FinishedRun) (cfg : EngineConfig) (executionId : Uuid) (a : Attempt)
    (node : WorkflowNodeDefinition) : Prop :=
  (∃ ex ∈ a.executions cfg executionId, ex.node = node) ∨
    ((r.stateIn r.start).nodeOutputs.get? node.id).isSome

/-- The visit does not skip its node, and the node is executed, unless the run is the retry
of a task. -/
structure Serves (r : FinishedRun) (cfg : EngineConfig) (executionId : Uuid) (a : Attempt)
    (v : NodeVisit) : Prop where
  reachable : nodeIsReachable r.run.cfg r.run.workflow (r.stateIn v.before) v.node = true
  executed : r.retryTaskId = none → r.Executed cfg executionId a v.node

variable {cfg : EngineConfig} {executionId : Uuid} {a : Attempt} {r : FinishedRun}

/-- A node that a visit does not skip is executed. -/
theorem executed_of_reachable {before after : List NodeVisit} {v : NodeVisit}
    (hfinished : a.finished cfg executionId = some r)
    (hvisits : r.visits cfg a.env = before ++ v :: after)
    (hfresh : v.node.id ∉ before.map (·.node.id)) (hkind : v.node.IsExecutable)
    (hretry : r.retryTaskId = none)
    (hreachable : nodeIsReachable r.run.cfg r.run.workflow (r.stateIn v.before) v.node = true) :
    r.Executed cfg executionId a v.node := by
  obtain ⟨hplanned, loop, hloop⟩ := Attempt.finished_eq_some hfinished
  obtain ⟨hagree, hrest, hstarted, hexecutions⟩ := loop_at_visit hloop hvisits
  obtain ⟨next, s', hvisit, -⟩ := run_loop_cons hrest
  obtain ⟨visit, s₁, henter, -⟩ := run_visitNode hvisit
  obtain ⟨hfinds, -⟩ := run_enterNode henter
  cases visit with
  | passed =>
    -- it is a task or approval node, it is reachable, and no retry is pending
    rcases hfinds with ⟨htask, happroval⟩ | hunreachable | ⟨-, -, hpending, -⟩
    · exact (hkind.elim htask happroval).elim
    · exact absurd (hunreachable.symm.trans hreachable) Bool.false_ne_true
    · have hbegin : v.loop.retryStarted = true := hstarted (by rw [hretry]; rfl)
      rw [hbegin] at hpending
      cases hpending
  | completed =>
    right
    have houtput : ((r.stateIn v.before).nodeOutputs.get? v.node.id).isSome := hfinds.2
    rw [stateIn, (hagree v.node.id hfresh).output] at houtput
    exact houtput
  | execute task agent =>
    left
    obtain ⟨ex, hex, hnode⟩ := mem_loopExecutions_of_execute henter (after.map (·.node))
    refine ⟨ex, ?_, hnode⟩
    rw [Attempt.executions, hplanned]
    exact hexecutions ex hex

/-- **Nodes are left out for want of a direct route.**  In a run that visits all nodes in a
topological order, with any outcomes: the visit of a task or approval node serves every
route to it if and only if, where a node of another type leads to it on such a route, an
edge to it is enabled as well when it is visited. -/
theorem routed_iff (hfinished : a.finished cfg executionId = some r)
    (hids : (r.run.workflow.nodes.map (·.id)).Nodup)
    (horder : RespectsEdges r.run.workflow (orderNodes r.run.workflow))
    {node : WorkflowNodeDefinition} (hnode : node ∈ r.run.workflow.nodes)
    (hkind : node.IsExecutable) :
    ∃ v ∈ r.visits cfg a.env, v.node = node ∧
      ((Routed r.run.cfg r.run.workflow (r.stateIn r.finish) node.id →
          r.Serves cfg executionId a v) ↔
        (RoutedThrough r.run.cfg r.run.workflow (r.stateIn v.before) node.id →
          EnabledAt r.run.cfg r.run.workflow (r.stateIn v.before) node.id)) := by
  obtain ⟨hperm, hedges⟩ := horder
  obtain ⟨-, loop, hloop⟩ := Attempt.finished_eq_some hfinished
  have hall : (r.visits cfg a.env).map (·.node) = orderNodes r.run.workflow := map_loopVisits hloop
  obtain ⟨v, hv, rfl⟩ : ∃ v ∈ r.visits cfg a.env, v.node = node := by
    have hplanned : node ∈ (r.visits cfg a.env).map (·.node) := by
      rw [hall]
      exact hperm.mem_iff.mpr hnode
    exact List.mem_map.mp hplanned
  refine ⟨v, hv, rfl, ?_⟩
  obtain ⟨before, after, hvisits⟩ := append_of_mem hv
  have hsplit : (orderNodes r.run.workflow).map (·.id) =
      before.map (·.node.id) ++ v.node.id :: after.map (·.node.id) := by
    rw [← hall, hvisits, map_map, map_append, map_cons]
    rfl
  have hnodup : (before.map (·.node.id) ++ v.node.id :: after.map (·.node.id)).Nodup := by
    rw [← hsplit]
    exact (hperm.map _).nodup_iff.mpr hids
  have hfresh : v.node.id ∉ before.map (·.node.id) := fun hmem =>
    (List.nodup_append.mp hnodup).2.2 _ hmem _ mem_cons_self rfl
  obtain ⟨-, hrest, -⟩ := loop_at_visit hloop hvisits
  -- what the route depends on is recorded before the visit, and stays
  have hagree : ∀ u, Relation.TransGen (EdgeBetween r.run.workflow) u v.node.id →
      AgreeAt u (r.stateIn v.before) (r.stateIn r.finish) := by
    intro u hpath
    have hfront : u ∈ before.map (·.node.id) := by
      refine mem_front_of_path hnodup ?_ hpath
      rintro _ _ ⟨e, he, rfl, rfl⟩
      rw [← hsplit]
      exact hedges e he
    apply agree_loop hrest
    intro hmem
    refine (List.nodup_append.mp hnodup).2.2 u hfront u ?_ rfl
    rw [map_cons, map_map] at hmem
    exact hmem
  constructor
  · intro hserves hthrough
    exact hthrough.enabled (hserves (hthrough.routed.congr hagree)).reachable
  · intro hdirect hrouted
    have hreachable : nodeIsReachable r.run.cfg r.run.workflow (r.stateIn v.before) v.node = true := by
      have hbefore := hrouted.congr fun u hu => (hagree u hu).symm
      rcases hbefore.reachable_or_through with hreachable | hthrough
      · exact hreachable
      · exact nodeIsReachable_iff.mpr (.inr (hdirect hthrough))
    exact ⟨hreachable, fun hretry =>
      executed_of_reachable hfinished hvisits hfresh hkind hretry hreachable⟩

end FinishedRun

/-! ### A trigger on the way -/

namespace NodeRouting

def gate : WorkflowNodeDefinition := { id := "gate", nodeType := .other "trigger" }

def draft : WorkflowNodeDefinition := { id := "draft", taskId := some "t" }

def publish : WorkflowNodeDefinition := { id := "publish", taskId := some "t" }

def notify : WorkflowNodeDefinition := { id := "notify", taskId := some "t" }

/-- Both `publish` and `notify` follow the trigger, but only one of them the draft. -/
def publishing : WorkflowDefinition where
  id := "w"
  name := "w"
  entrypoint := "gate"
  nodes := [gate, draft, publish, notify]
  edges := [
    { sourceNodeId := "gate", targetNodeId := "publish" },
    { sourceNodeId := "gate", targetNodeId := "notify" },
    { sourceNodeId := "draft", targetNodeId := "publish", edgeType := .success }]
  taskDefinitions := [{ id := "t", name := "t", agentId := some "a" }]
  agentDefinitions := [{ id := "a", name := "a", modelProfileId := some "m" }]

def config : EngineConfig := { EngineConfig.bare with
  workflow := fun _ => some publishing }

/-- The model answers every task. -/
def world : Environment := .counting fun
  | _, .generateText _ _ _ => .ok { content := some (.str "done"), usage := {} }
  | n, o => ExtOp.silent n o

def created : Execution := { id := 0, workflowId := "w" }

def attempt : Attempt where
  env := world
  session := { world := { db := { executions := Relational.Table.empty.save created } } }

end NodeRouting

open NodeRouting in
/-- Only the trigger leads to `notify`, which is left out. -/
theorem notify_is_left_out : ∃ r, attempt.finished config 0 = some r ∧
    (r.run.workflow.nodes.map (·.id)).Nodup ∧
    RespectsEdges r.run.workflow (orderNodes r.run.workflow) ∧
    Routed r.run.cfg r.run.workflow (r.stateIn r.finish) notify.id ∧
    ¬r.Executed config 0 attempt notify := by
  have hfinished : (attempt.finished config 0).isSome := by decide +kernel
  have hfacts : ∀ r ∈ attempt.finished config 0,
      ((r.run.workflow.nodes = publishing.nodes ∧ r.run.workflow.edges = publishing.edges) ∧
        RespectsEdges r.run.workflow (orderNodes r.run.workflow)) ∧
          ((r.stateIn r.start).nodeOutputs.get? notify.id).isSome = false := by
    decide +kernel
  have hexecutions : ∀ ex ∈ attempt.executions config 0, ex.node ≠ notify := by decide +kernel
  obtain ⟨r, hr⟩ := Option.isSome_iff_exists.mp hfinished
  obtain ⟨⟨⟨hnodes, hedges⟩, horder⟩, hnone⟩ := hfacts r hr
  have hgate : gate ∈ r.run.workflow.nodes := hnodes ▸ mem_cons_self
  have hedge : { sourceNodeId := "gate", targetNodeId := "notify" } ∈ r.run.workflow.edges := by
    rw [hedges]
    decide
  have hroot : Routed r.run.cfg r.run.workflow (r.stateIn r.finish) gate.id := by
    refine .root hgate ?_
    rw [hedges]
    decide
  refine ⟨r, hr, ?_, horder, ?_, ?_⟩
  · rw [hnodes]
    decide
  · refine .edge hedge hroot (.inr ⟨gate, hgate, rfl, ?_⟩)
    rintro (h | h) <;> cases h
  · rintro (⟨ex, hex, hnode⟩ | houtput)
    · exact hexecutions ex hex hnode
    · rw [hnone] at houtput
      cases houtput

open NodeRouting in
/-- The trigger leads to `publish` too, but the draft's success does as well. -/
theorem publish_is_served : ∃ r, attempt.finished config 0 = some r ∧
    ∃ v ∈ r.visits config attempt.env, v.node = publish ∧
      (Routed r.run.cfg r.run.workflow (r.stateIn r.finish) publish.id →
        r.Serves config 0 attempt v) := by
  have hfinished : (attempt.finished config 0).isSome := by decide +kernel
  have hfacts : ∀ r ∈ attempt.finished config 0,
      ((r.run.workflow.nodes.map (·.id)).Nodup ∧ publish ∈ r.run.workflow.nodes) ∧
        RespectsEdges r.run.workflow (orderNodes r.run.workflow) ∧
          ∀ v ∈ r.visits config attempt.env, v.node = publish →
            ∃ e ∈ r.run.workflow.edges, e.targetNodeId = publish.id ∧
              edgeIsEnabled r.run.cfg (r.stateIn v.before) e = true := by
    decide +kernel
  obtain ⟨r, hr⟩ := Option.isSome_iff_exists.mp hfinished
  obtain ⟨⟨hids, hnode⟩, horder, henabled⟩ := hfacts r hr
  obtain ⟨v, hv, hpublish, hserves⟩ := FinishedRun.routed_iff hr hids horder hnode (.inl rfl)
  exact ⟨r, hr, v, hv, hpublish, hserves.mpr fun _ => henabled v hv hpublish⟩

open NodeRouting in
theorem executes_once_publishing : ∃ run retryTaskId s,
    attempt.planned config 0 = (.ok (run, retryTaskId), s) ∧
      ((attempt.executions config 0).map (·.node.id)).Pairwise fun u v =>
        u ≠ v ∧ ¬EdgeBetween run.workflow v u := by
  have hplanned : ∃ run retryTaskId, (attempt.planned config 0).1 = .ok (run, retryTaskId) ∧
      (run.workflow.nodes.map (·.id)).Nodup ∧
      RespectsEdges run.workflow (orderNodes run.workflow) :=
    ⟨_, _, rfl, by decide +kernel, by decide +kernel⟩
  obtain ⟨run, retryTaskId, hrun, hids, horder⟩ := hplanned
  exact ⟨run, retryTaskId, _, Prod.ext hrun rfl,
    (Attempt.executes_once (Prod.ext hrun rfl) hids horder).1⟩

end OpenAgency
