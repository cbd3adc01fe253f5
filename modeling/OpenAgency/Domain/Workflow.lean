/-
Domain/Workflow.lean

The part of a workflow definition the engine executes: nodes and edges, the
tasks and agents the nodes refer to, and the tools an agent may call.
-/
import OpenAgency.Domain.Execution

namespace OpenAgency

inductive NodeType where
  | task
  | approval
  | other (name : String)
  deriving DecidableEq

inductive EdgeType where
  | default
  | success
  | failure
  | approval
  | handoff
  deriving DecidableEq

structure WorkflowNodeDefinition where
  id : String
  nodeType : NodeType := .task
  taskId : Option String := none
  agentId : Option String := none
  deriving DecidableEq

structure WorkflowEdgeDefinition where
  sourceNodeId : String
  targetNodeId : String
  edgeType : EdgeType := .default
  condition : Option String := none
  deriving DecidableEq

inductive TaskApprovalPolicy where
  | none
  | required
  | onFailure
  deriving DecidableEq

structure TaskDefinition where
  id : String
  name : String
  agentId : Option String := .none
  humanApprovalRequired : Bool := false
  timeoutSeconds : Option ℕ := .none
  maxRetries : Option ℕ := .none
  modelProfileId : Option String := .none
  approvalPolicy : Option TaskApprovalPolicy := .none
  toolIds : List String := []
  requiredToolIds : List String := []
  requiredToolSuccessStatuses : Dict (List Json) := []
  dependsOnTaskIds : List String := []

structure AgentDefinition where
  id : String
  name : String
  modelProfileId : Option String := none
  toolIds : List String := []
  maxIterations : ℕ := 5

inductive ApprovalOnRejection where
  | skip
  | fail
  deriving DecidableEq

/-- A tool, under the names a model can call it by: `toolCallName` is the name
configured in its framework hints. -/
structure ToolDefinition where
  id : String
  name : String
  displayName : Option String := none
  callableName : Option String := none
  entrypoint : Option String := none
  toolCallName : Option String := none
  approvalRequired : Bool := false
  approvalOnRejection : ApprovalOnRejection := .fail

inductive WorkflowApprovalMode where
  | taskPolicy
  | beforeRun
  | allTasks
  deriving DecidableEq

structure WorkflowDefinition where
  id : String
  name : String
  nodes : List WorkflowNodeDefinition := []
  edges : List WorkflowEdgeDefinition := []
  entrypoint : String
  taskDefinitions : List TaskDefinition := []
  agentDefinitions : List AgentDefinition := []
  toolDefinitions : List ToolDefinition := []
  maxRuntimeSeconds : Option ℕ := none
  maxRetries : Option ℕ := none
  approvalMode : Option WorkflowApprovalMode := none

end OpenAgency
