/-
Planner.lean

The order in which the engine visits the nodes of a workflow, and its decisions
about single nodes: whether an output counts as success, which edges it enables,
whether the tools a task requires have run.  All of it is pure.

The planner's queue and the search for terminal nodes are bounded by the number
of nodes and edges, which is more than either can take.
-/
import OpenAgency.Services

namespace OpenAgency

/-! ### Order -/

namespace Planner

/-- `node_by_id`: of two nodes with one id the later one counts. -/
def nodeById (workflow : WorkflowDefinition) (id : String) : Option WorkflowNodeDefinition :=
  workflow.nodes.reverse.find? (·.id = id)

def outgoing (workflow : WorkflowDefinition) (id : String) : List String :=
  (workflow.edges.filter (·.sourceNodeId = id)).map (·.targetNodeId)

def indegrees (workflow : WorkflowDefinition) : Dict ℤ :=
  workflow.edges.foldl (fun d e => d.set e.targetNodeId ((d.get? e.targetNodeId).getD 0 + 1))
    (workflow.nodes.foldl (fun d n => d.set n.id 0) [])

/-- Count down the indegree of a target; it is queued once nothing is left. -/
def release (s : Dict ℤ × List String) (target : String) : Dict ℤ × List String :=
  let n := (s.1.get? target).getD 0 - 1
  (s.1.set target n, if n ≤ 0 then s.2 ++ [target] else s.2)

/-- The queue of `order_nodes`; the first argument bounds the number of turns. -/
def visit (workflow : WorkflowDefinition) :
    ℕ → List String → Dict ℤ → List WorkflowNodeDefinition → List WorkflowNodeDefinition
  | 0, _, _, ordered => ordered
  | _, [], _, ordered => ordered
  | turns + 1, id :: queue, indegree, ordered =>
    if ordered.any (·.id = id) then visit workflow turns queue indegree ordered
    else
      match nodeById workflow id with
      | none => visit workflow turns queue indegree ordered
      | some node =>
        let s := (outgoing workflow id).foldl release (indegree, queue)
        visit workflow turns s.2 s.1 (ordered ++ [node])

/-- The entrypoint and the nodes nothing leads to. -/
def initialQueue (workflow : WorkflowDefinition) : List String :=
  (if (nodeById workflow workflow.entrypoint).isSome then [workflow.entrypoint] else []) ++
    ((workflow.nodes.filter fun n =>
      ((indegrees workflow).get? n.id).getD 0 = 0 && n.id ≠ workflow.entrypoint).map (·.id))

/-- `LinearWorkflowPlanner.order_nodes`. -/
def orderNodes (workflow : WorkflowDefinition) : List WorkflowNodeDefinition :=
  let turns := workflow.nodes.length + workflow.edges.length + 1
  let ordered := visit workflow turns (initialQueue workflow) (indegrees workflow) []
  ordered ++ workflow.nodes.filter fun n => !ordered.any (·.id = n.id)

/-- The search of `_terminal_executable_node_ids` from the targets in `pending`. -/
def reachesTask (workflow : WorkflowDefinition) (taskNodeIds : List String) :
    ℕ → List String → List String → Bool
  | 0, _, _ => false
  | _, [], _ => false
  | turns + 1, target :: pending, seen =>
    if target ∈ seen then reachesTask workflow taskNodeIds turns pending seen
    else if target ∈ taskNodeIds then true
    else reachesTask workflow taskNodeIds turns (outgoing workflow target ++ pending)
      (target :: seen)

/-- `_terminal_executable_node_ids`: the task nodes from which no task node is
reached through other nodes. -/
def terminalExecutableNodeIds (workflow : WorkflowDefinition)
    (ordered : List WorkflowNodeDefinition) : List String :=
  let taskNodeIds := (ordered.filter (·.nodeType = .task)).map (·.id)
  taskNodeIds.filter fun id =>
    !reachesTask workflow taskNodeIds (2 * workflow.edges.length + 1) (outgoing workflow id) []

end Planner

/-! ### Outcomes -/

/-- `str(value or "").strip().lower()`. -/
def normalizedText (cfg : EngineConfig) (value : Option Json) : String :=
  cfg.lower (strip (cfg.pyStr ((value.getD .null).orElse (.str ""))))

/-- `_output_mapping`. -/
def outputMapping (cfg : EngineConfig) (output : Json) : Json :=
  match output with
  | .obj fields => .obj fields
  | .str s =>
    if (strip s).startsWith "\x7b" then ((cfg.loads (strip s)).bind Json.asObj?).getD (.obj [])
    else .obj []
  | _ => .obj []

def failureOutcomeStatuses : List String :=
  ["blocked", "cancelled", "canceled", "error", "failed", "failure", "incomplete", "stopped"]

/-- `value is False` for one of the given keys. -/
def anyFalse (payload : Json) (keys : List String) : Bool :=
  keys.any fun k => match payload.get? k with
    | some (.bool false) => true
    | _ => false

/-- `_node_outcome`. -/
def nodeOutcome (cfg : EngineConfig) (output : Json) : NodeOutcome :=
  let payload := outputMapping cfg output
  if normalizedText cfg (payload.get? "status") ∈ failureOutcomeStatuses ||
      anyFalse payload ["completed_normally", "ok", "success"] then .failure
  else .success

/-- `_node_failure_message`. -/
def nodeFailureMessage (cfg : EngineConfig) (output : Json) : String :=
  let payload := outputMapping cfg output
  let texts := ["error", "reason", "outcome", "notice", "next_action"].filterMap fun k =>
    (((payload.get? k).bind Json.asStr?).map strip).filter (· ≠ "")
  match texts with
  | text :: _ => text
  | [] =>
    let status := strip (cfg.pyStr (((payload.get? "status").getD .null).orElse (.str "failed")))
    s!"Task returned non-success status '{status}'."

/-- `_required_tool_result_error`, over the results recorded for the task. -/
def requiredToolResultError (cfg : EngineConfig) (task : TaskDefinition)
    (results : List ToolResult) : Option String :=
  let missing := task.requiredToolIds.filter fun id => !results.any (·.toolId = id)
  if missing ≠ [] then
    some ("Task requires successful tool calls that were not recorded: " ++
      ", ".intercalate missing ++ ".")
  else
    (task.requiredToolIds.find? fun id =>
      match task.requiredToolSuccessStatuses.get? id with
      | none | some [] => false
      | some allowed => !results.any fun r => r.toolId = id &&
          (match r.result with
          | .obj fields => decide (normalizedText cfg ((Json.obj fields).get? "status") ∈
              allowed.map fun item => cfg.lower (strip (cfg.pyStr item)))
          | _ => false)).map fun id =>
      s!"Required tool '{id}' did not return an allowed success status."

/-! ### Edges -/

/-- `sub in text`. -/
def containsText (text sub : String) : Bool :=
  text.toList.tails.any sub.toList.isPrefixOf

/-- The texts in a serialised output that stand for a signal. -/
def signalMarkers : List (String × List String) := [
  ("approval_rejected", ["approval rejected", "approval_rejected"]),
  ("blocked", ["blocked"]),
  ("discord_delivery_failed",
    ["discord delivery failed", "discord_delivery_failed", "\"status\": \"not_sent\""]),
  ("error", ["error"]),
  ("memory_write_failed", ["memory write failed", "memory_write_failed"]),
  ("run_incomplete", ["incomplete", "completed_normally\": false"]),
  ("stopped", ["stopped", "cancelled", "canceled"]),
  ("voice_failed", ["voice generation failed", "voice_failed"]),
  ("voice_missing", ["voice_missing", "missing voice", "voice file does not exist"])]

/-- `_condition_signals`. -/
def conditionSignals (cfg : EngineConfig) (output : Json) (outcome : NodeOutcome) :
    List String :=
  let payload := outputMapping cfg output
  let serialized := cfg.lower (cfg.dumps (match payload with | .obj [] => output | p => p))
  let status := normalizedText cfg (payload.get? "status")
  (match outcome with | .success => ["success"] | .failure => ["failure", "failed", "run_incomplete"])
    ++ (if status = "" then [] else [status])
    ++ (if anyFalse payload ["completed_normally"] then ["run_incomplete", "incomplete"] else [])
    ++ (signalMarkers.filter fun m => m.2.any (containsText serialized)).map Prod.fst

/-- `item.strip(" _")`. -/
def stripSeparators (s : String) : String :=
  let blank := fun c => c = ' ' || c = '_'
  String.ofList ((s.toList.dropWhile blank).reverse.dropWhile blank).reverse

/-- `_edge_condition_matches`. -/
def edgeConditionMatches (cfg : EngineConfig) (edge : WorkflowEdgeDefinition) (output : Json)
    (outcome : NodeOutcome) : Bool :=
  let enabled := match edge.edgeType with
    | .failure => outcome = .failure
    | .default | .success | .handoff | .approval => outcome = .success
  let condition := cfg.lower (strip (edge.condition.getD ""))
  enabled && (condition = "" ||
    ((condition.splitOn "_or_").map stripSeparators).any fun alternative =>
      alternative ≠ "" && alternative ∈ conditionSignals cfg output outcome)

/-- `_node_is_reachable`: no edge leads to the node, or one is enabled by a source
that has an outcome. -/
def nodeIsReachable (cfg : EngineConfig) (workflow : WorkflowDefinition)
    (st : NativeExecutionState) (node : WorkflowNodeDefinition) : Bool :=
  let edges := workflow.edges.filter (·.targetNodeId = node.id)
  edges.isEmpty || edges.any fun edge =>
    match st.nodeOutcomes.get? edge.sourceNodeId with
    | none => false
    | some outcome =>
      edgeConditionMatches cfg edge ((st.nodeOutputs.get? edge.sourceNodeId).getD .null) outcome

/-! ### Lookups and policies -/

/-- `_resolve_task`. -/
def resolveTask (workflow : WorkflowDefinition) (taskId : Option String) :
    Except RuntimeException TaskDefinition :=
  match orElseString taskId none with
  | none => .error ⟨.workflowNotFound, "Workflow node is missing a task reference"⟩
  | some id =>
    match workflow.taskDefinitions.find? (·.id = id) with
    | some task => .ok task
    | none =>
      .error ⟨.workflowNotFound, s!"Task '{id}' was not found in workflow '{workflow.id}'"⟩

/-- `_resolve_agent`. -/
def resolveAgent (workflow : WorkflowDefinition) (agentId : Option String) :
    Except RuntimeException AgentDefinition :=
  match orElseString agentId none with
  | none => .error ⟨.workflowNotFound, "Task is missing an agent reference"⟩
  | some id =>
    match workflow.agentDefinitions.find? (·.id = id) with
    | some agent => .ok agent
    | none =>
      .error ⟨.workflowNotFound, s!"Agent '{id}' was not found in workflow '{workflow.id}'"⟩

/-- `_resolve_profile`, which only needs the profile to exist. -/
def resolveProfile (cfg : EngineConfig) (agent : AgentDefinition) (task : TaskDefinition) :
    Except RuntimeException Unit :=
  match orElseString task.modelProfileId agent.modelProfileId with
  | none | some "" =>
    .error ⟨.workflowNotFound, s!"Agent '{agent.id}' is missing model_profile_id"⟩
  | some id =>
    if cfg.hasProfile id then .ok ()
    else .error ⟨.workflowNotFound, s!"Model profile '{id}' was not found"⟩

/-- What a task runs under: `_task_runtime_overrides`, completed by the node and the
workflow's policy. -/
structure TaskOverrides where
  timeoutSeconds : Option ℕ
  maxRetries : ℕ
  approvalPolicy : TaskApprovalPolicy

/-- The overrides of a task at a node. -/
def taskOverrides (workflow : WorkflowDefinition) (node : WorkflowNodeDefinition)
    (task : TaskDefinition) : TaskOverrides where
  timeoutSeconds := task.timeoutSeconds.filter (0 < ·)
  maxRetries := (task.maxRetries <|> workflow.maxRetries).getD 0
  approvalPolicy :=
    if task.humanApprovalRequired || node.nodeType = .approval ||
        workflow.approvalMode = some .allTasks then .required
    else task.approvalPolicy.getD .none

end OpenAgency
