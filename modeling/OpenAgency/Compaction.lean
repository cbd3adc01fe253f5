/-
Compaction.lean

Context compaction.  Before a model call whose prompt is too long, old or oversized
assistant and tool messages are taken out of the transcript and a summary of them is put
behind its leading system messages.  System and user messages, and those that mention a
pending decision or an unresolved error, are protected and stay.

Only the fields of workflow, task, agent and state that the summary quotes are kept.
Unicode case mapping, the JSON codec and `str` are parameters.
-/
import OpenAgency.Lib.Removal
import OpenAgency.Events
import OpenAgency.Triggers

namespace OpenAgency

open Removal

/-! ### Prompt messages and token estimates -/

/-- A message of a prompt, with the metadata the runtime attaches to it. -/
structure PromptMessage extends ModelMessage where
  metadata : Dict Json := []

/-- The functions of the standard library that turn values into text and back. -/
structure TextCodec where
  /-- `json.dumps` with sorted keys. -/
  dumps : Json → String
  /-- `json.loads`; `none` where it raises. -/
  loads : String → Option Json
  /-- `str` of a value that is no string. -/
  repr : Json → String
  lower : String → String

namespace TextCodec

variable (lib : TextCodec)

/-- `str(value)`. -/
def str : Json → String
  | .str s => s
  | value => lib.repr value

/-- The text itself, or the value as JSON. -/
def text : Json → String
  | .str s => s
  | value => lib.dumps value

/-- `estimate_text_tokens`. -/
def estimateTextTokens (value : Json) : ℕ :=
  if strip (lib.text value) = "" then 0 else max 1 ((lib.text value).length / 4)

/-- What one message adds to a prompt. -/
def messageCost (message : PromptMessage) : ℕ :=
  4 + (if (orElseString message.name none).isSome then 1 else 0) +
    (if (orElseString message.toolCallId none).isSome then 1 else 0) +
    lib.estimateTextTokens message.content

/-- `estimate_model_messages_tokens`. -/
def estimateModelMessagesTokens : List PromptMessage → ℕ
  | [] => 0
  | messages => 2 + (messages.map lib.messageCost).sum

/-- `_message_token_count`. -/
def messageTokenCount (message : PromptMessage) : ℕ := lib.estimateTextTokens message.content + 6

end TextCodec

/-- The part of a model profile that bounds its context. -/
structure ContextProfile where
  id : String
  contextWindow : Option ℤ := none
  maxTokens : Option ℤ := none
  parameters : Dict Json := []

/-- A candidate for the context window, if it is one. -/
def contextWindowOf : Json → Option ℤ
  | .num q => if q.den = 1 ∧ 0 < q.num then some q.num else none
  | .str s => match pyInt s with
      | .ok n => if 0 < n then some n else none
      | .error _ => none
  | _ => none

/-- `resolve_model_context_window`. -/
def resolveModelContextWindow (profile : ContextProfile) : Option ℤ :=
  let candidates := (profile.contextWindow.elim .null fun n => .num n) ::
    ["context_window", "context_length", "context_tokens", "max_context_tokens",
      "model_context_window", "num_ctx"].map profile.parameters.getJson
  candidates.findSome? contextWindowOf

/-- `context_usage_status`. -/
def contextUsageStatus : Option ℚ → String
  | none => "unknown"
  | some ratio =>
    if 1 ≤ ratio then "overflow"
    else if 85 / 100 ≤ ratio then "critical"
    else if 70 / 100 ≤ ratio then "warning"
    else "normal"

/-- `round(ratio, 6)`. -/
def roundRatio (ratio : ℚ) : ℚ :=
  let n := (ratio * 1000000).floor
  let rest := ratio * 1000000 - n
  (if rest < 1 / 2 ∨ rest = 1 / 2 ∧ n % 2 = 0 then n else n + 1) / 1000000

structure ContextHealth where
  estimatedPromptTokens : ℕ
  contextWindow : Option ℤ
  usageRatio : Option ℚ
  status : String

/-- `estimate_context_health`, with the completion tokens the profile reserves. -/
def TextCodec.estimateContextHealth (lib : TextCodec) (messages : List PromptMessage)
    (profile : ContextProfile) : ContextHealth :=
  let promptTokens := lib.estimateModelMessagesTokens messages
  let total := promptTokens + (profile.maxTokens.getD 0).toNat
  let contextWindow := resolveModelContextWindow profile
  let usageRatio : Option ℚ := contextWindow.map fun window => (total : ℚ) / window
  { estimatedPromptTokens := promptTokens
    contextWindow := contextWindow
    usageRatio := usageRatio.map roundRatio
    status := contextUsageStatus usageRatio }

/-! ### What a compaction is asked for -/

structure GovernedNode extends WorkflowNodeDefinition where
  name : String

structure GovernedTask extends TaskDefinition where
  description : String
  instructions : Option String := .none
  expectedOutput : Option String := .none

structure GovernedAgent extends AgentDefinition where
  role : Option String := none
  instructions : Option String := none

structure GovernedWorkflow where
  id : String
  name : String
  metadata : Dict Json := []
  nodes : List GovernedNode := []
  taskDefinitions : List GovernedTask := []

/-- The engine's state, with what its tools have returned. -/
structure GovernedState extends NativeExecutionState where
  memoryEntries : List Json := []

structure CompactionRequest where
  workflow : GovernedWorkflow
  task : GovernedTask
  agent : GovernedAgent
  profile : ContextProfile
  /-- `execution.error`. -/
  error : Option String := none
  executionInput : Dict Json := []
  state : GovernedState
  contextHealth : ContextHealth
  sourceModelRequestId : Uuid

/-- Why the runtime asks for one, with what it records of the occasion. -/
inductive CompactionReason where
  | contextHealthThreshold
  | contextLengthError (modelError : String)
  | budgetExceeded (budget : Json)

namespace CompactionReason

def value : CompactionReason → String
  | contextHealthThreshold => "context_health_threshold"
  | contextLengthError _ => "context_length_error"
  | budgetExceeded _ => "budget_exceeded"

/-- `extra_metadata`. -/
def extraMetadata : CompactionReason → Dict Json
  | contextHealthThreshold => []
  | contextLengthError modelError => [("model_error", .str modelError)]
  | budgetExceeded budget => [("budget", budget)]

end CompactionReason

structure ContextCompactionRecord where
  compacted : Bool := false
  reason : Option String := none
  memoryId : Option Uuid := none
  sourceModelRequestId : Option Uuid := none
  estimatedTokensSaved : ℕ := 0
  metadata : Dict Json := []

structure ContextCompactionResult where
  messages : List PromptMessage
  record : ContextCompactionRecord
  summary : String := ""

/-! ### Configuration -/

/-- `_governance_config`: what stands directly under the workflow's metadata overrides what
stands under its runtime governance. -/
def governanceConfig (workflow : GovernedWorkflow) : Dict Json :=
  let governance := (workflow.metadata.getJson "runtime_governance").get? "context_compaction"
  let config : Dict Json := (governance.bind Json.asDict?).getD []
  config.union (((workflow.metadata.get? "context_compaction").bind Json.asDict?).getD [])

/-- `_int_config`. -/
def intConfig (config : Dict Json) (key : String) (default minimum : ℕ)
    (maximum : Option ℕ := none) : ℕ :=
  let value : ℤ := match (config.get? key).map Json.toInt with
    | some (.ok n) => n
    | some (.error _) | none => default
  let value := max value minimum
  (maximum.elim value fun m => min value m).toNat

/-- `config.get("enabled", True) is not False`. -/
def compactionEnabled (config : Dict Json) : Bool :=
  match config.get? "enabled" with
  | some (.bool b) => b
  | _ => true

/-- `min_estimated_tokens_saved`. -/
def minEstimatedTokensSaved (config : Dict Json) : ℕ :=
  intConfig config "min_estimated_tokens_saved" 50 0

/-! ### Protected messages -/

/-- `value is False`. -/
def Json.isFalse : Json → Bool
  | .bool b => !b
  | _ => false

/-- The decision or the error that a dict of the runtime's own says is open. -/
def governedReason (d : Dict Json) (default : String) (lib : TextCodec) : Option String :=
  if (d.getJson "protected_from_compaction").isTrue then
    some (lib.str ((d.getJson "protected_reason").orElse (.str default)))
  else if (d.getJson "pending_approval").truthy || (d.getJson "pending_human_input").truthy then
    some "pending_human_decision"
  else if (d.getJson "unresolved_tool_error").truthy || (d.getJson "tool_error").truthy then
    some "unresolved_tool_error"
  else none

namespace TextCodec

variable (lib : TextCodec)

/-- `_message_payload`. -/
def messagePayload (message : PromptMessage) : Dict Json :=
  match message.content with
  | .obj fields => fields
  | .str s => ((lib.loads s).bind Json.asDict?).getD []
  | _ => []

/-- `_text_contains_any`. -/
def textContainsAny (value : Json) (needles : List String) : Bool :=
  match value with
  | .str s => needles.any (isIn · (lib.lower s))
  | _ => false

/-- `str(d.get(key, "")).lower()`. -/
def lowerField (d : Dict Json) (key : String) : String :=
  lib.lower (lib.str ((d.get? key).getD (.str "")))

/-- What a message's payload says is open. -/
def payloadReason (payload : Dict Json) : Option String :=
  let payloadStatus := lib.lowerField payload "status"
  if (payload.getJson "pending_approval").truthy || (payload.getJson "approval_required").truthy ||
      (payload.getJson "approval_request_id").truthy ||
      ["pending_approval", "waiting_for_approval", "approval_required"].contains payloadStatus then
    some "pending_human_decision"
  else if (payload.getJson "error").truthy || (payload.getJson "exception").truthy ||
      (payload.getJson "tool_error").truthy ||
      ["error", "failed", "failure"].contains payloadStatus ||
      (payload.getJson "success").isFalse then
    some "unresolved_tool_error"
  else none

/-- What a message's text says is open. -/
def contentReason (content : Json) : Option String :=
  if lib.textContainsAny content ["pending approval", "approval required", "waiting for approval"]
  then some "pending_human_decision"
  else if lib.textContainsAny content ["tool failed", "tool error", "traceback", "exception"]
  then some "unresolved_tool_error"
  else none

/-- `_protected_message_reason`. -/
def protectedMessageReason (message : PromptMessage) : Option String :=
  if message.role = "system" ∨ message.role = "user" then some s!"{message.role}_message"
  else
    let governance := ((message.metadata.get? "runtime_governance").bind Json.asDict?).getD []
    let pending := if lib.lowerField message.metadata "approval_status" = "pending" then
      some "pending_human_decision" else none
    governedReason governance "runtime_governance" lib
      <|> governedReason message.metadata "metadata" lib
      <|> pending
      <|> lib.payloadReason (lib.messagePayload message)
      <|> lib.contentReason message.content

/-- `_protected_message_indices`. -/
def protectedMessageIndices (messages : List PromptMessage) : List (ℕ × String) :=
  messages.zipIdx.filterMap fun p =>
    (orElseString (lib.protectedMessageReason p.1) none).map fun reason => (p.2, reason)

/-- The positions of assistant and tool messages. -/
def assistantOrTool (messages : List PromptMessage) : List (PromptMessage × ℕ) :=
  messages.zipIdx.filter fun p => p.1.role = "assistant" || p.1.role = "tool"

/-- `_compactable_message_indices`. -/
def compactableMessageIndices (messages : List PromptMessage) (config : Dict Json) : List ℕ :=
  let candidates := assistantOrTool messages
  let protectedIndices := (lib.protectedMessageIndices messages).map Prod.fst
  let recentCount := intConfig config "preserve_recent_messages" 1 0 (some 10)
  let oversizedThreshold := intConfig config "oversized_message_tokens" 600 50
  let recentIndices := (candidates.drop (candidates.length - recentCount)).map Prod.snd
  (candidates.filter fun p => !protectedIndices.contains p.2 &&
    (!recentIndices.contains p.2 || oversizedThreshold ≤ lib.messageTokenCount p.1)).map Prod.snd

/-- `_leading_system_count`. -/
def leadingSystemCount (messages : List PromptMessage) : ℕ :=
  (messages.takeWhile fun m => m.role = "system").length

/-! ### The summary -/

def summaryHeader : String := "Runtime Context Compaction Summary"

def strategyVersion : String := "deterministic-runtime-summary-v1"

/-- `s.rstrip()`. -/
def rstrip (s : String) : String := String.ofList (s.toList.rdropWhile isStripSpace)

/-- `_json_preview`. -/
def jsonPreview (value : Json) (maxChars : ℕ) : String :=
  match value with
  | .null => ""
  | value =>
    let text := " ".intercalate (splitWords (lib.text value))
    if text.length ≤ maxChars then text
    else s!"{rstrip (takeChars maxChars text)} ... [truncated {text.length - maxChars} chars]"

/-- `"\n".join(f"- {item}" for item in items) if items else placeholder`. -/
def bullets (items : List String) (placeholder : String) : String :=
  if items.isEmpty then placeholder else "\n".intercalate (items.map ("- " ++ ·))

/-- `_workflow_step_summary`: the completed and the pending steps. -/
def workflowStepSummary (workflow : GovernedWorkflow) (state : GovernedState) :
    List String × List String :=
  let label (node : GovernedNode) : String :=
    let task := workflow.taskDefinitions.reverse.find? fun t => t.id = node.taskId.getD ""
    s!"{task.elim node.name (·.name)} ({node.id})"
  let steps := workflow.nodes.filter fun node => node.nodeType = .task
  let (completed, pending) := steps.partition fun node => (state.nodeOutputs.get? node.id).isSome
  (completed.map label, pending.map label)

/-- How the summary refers to a message. -/
def messageLabel (message : PromptMessage) : String :=
  let named := (orElseString message.name none).elim message.role fun name =>
    s!"{message.role}:{name}"
  (orElseString message.toolCallId none).elim named fun id => s!"{named} tool_call_id={id}"

/-- `_summarize_messages`. -/
def summarizeMessages (messages : List PromptMessage) (compactIndices : List ℕ)
    (maxItemChars : ℕ) : List String :=
  (compactIndices.filterMap fun i => messages[i]?).map fun message =>
    s!"- {messageLabel message}: {lib.jsonPreview message.content maxItemChars}"

/-- `_summarize_protected_messages`. -/
def summarizeProtectedMessages (messages : List PromptMessage)
    (protectedIndices : List (ℕ × String)) (maxItemChars : ℕ) : List String :=
  (protectedIndices.filterMap fun p => messages[p.1]?.map (·, p.2)).map fun (message, reason) =>
    let retained := s!"- {messageLabel message} retained ({reason})"
    if message.role = "system" ∨ message.role = "user" then
      s!"{retained}: raw message preserved separately."
    else s!"{retained}: {lib.jsonPreview message.content maxItemChars}"

/-- `"\n".join(lines) or placeholder`. -/
def joinedOr (lines : List String) (placeholder : String) : String :=
  (orElseString (some ("\n".intercalate lines)) none).getD placeholder

/-- The sections of the summary behind its title. -/
def summarySections (request : CompactionRequest) (messages : List PromptMessage)
    (compactIndices : List ℕ) (protectedIndices : List (ℕ × String)) : List String :=
  let { workflow, task, agent, state, contextHealth, .. } := request
  let (completed, pending) := workflowStepSummary workflow state
  let currentStatus := [s!"Workflow: {workflow.name} ({workflow.id})",
      s!"Agent: {agent.name} ({agent.id})",
      s!"Current task: {task.name} ({task.id})",
      s!"Context status before compaction: {contextHealth.status}"] ++
    (contextHealth.usageRatio.map fun ratio =>
      s!"Context usage ratio before compaction: {lib.repr (.num ratio)}").toList
  let objective : Json :=
    .obj [("task", .str task.description), ("input", .obj request.executionInput)]
  let constraints : Json := .obj [("agent_role", .ofOption agent.role),
    ("agent_instructions", .ofOption agent.instructions),
    ("task_instructions", .ofOption task.instructions),
    ("expected_output", .ofOption task.expectedOutput)]
  ["The runtime compacted older or oversized assistant/tool context before this model call. " ++
      "Critical system instructions and the user request are preserved as separate messages.",
    "",
    "## User Objective",
    lib.jsonPreview objective 1400,
    "",
    "## Current Workflow State",
    bullets currentStatus "",
    "",
    "## Completed Steps",
    bullets completed "- None recorded yet.",
    "",
    "## Pending Steps",
    bullets pending "- None recorded.",
    "",
    "## Important Tool Outputs And Agent Messages",
    joinedOr (lib.summarizeMessages messages compactIndices 700) "- None compacted.",
    "",
    "## Protected Context Retained",
    joinedOr (lib.summarizeProtectedMessages messages protectedIndices 500)
      "- No protected prompt messages detected.",
    "",
    "## Prior Node Outputs",
    if state.nodeOutputs.isEmpty then "- None recorded yet."
    else lib.jsonPreview (.obj state.nodeOutputs) 1400,
    "",
    "## Runtime Memory Entries",
    if state.memoryEntries.isEmpty then "- None recorded yet."
    else lib.jsonPreview (.arr state.memoryEntries) 1400,
    "",
    "## Key Constraints",
    lib.jsonPreview constraints 1400,
    "",
    "## Errors Or Blockers",
    (orElseString request.error none).elim "- None recorded." fun error =>
      lib.jsonPreview (.str error) 700]

def summaryTitle : String := s!"# {summaryHeader}"

/-- The summary, cut off where it is too long. -/
def limitSummary (maxChars : ℕ) (summary : String) : String :=
  if summary.length ≤ maxChars then summary
  else rstrip (takeChars maxChars summary) ++
    s!"\n\n[Summary truncated to {maxChars} chars by runtime compaction.]"

/-- `_build_summary`. -/
def buildSummary (request : CompactionRequest) (messages : List PromptMessage)
    (compactIndices : List ℕ) (protectedIndices : List (ℕ × String)) (maxChars : ℕ) : String :=
  let sections := lib.summarySections request messages compactIndices protectedIndices
  limitSummary maxChars (strip ("\n".intercalate (summaryTitle :: sections)))

/-! ### Deterministic compaction -/

def compactionName : String := "runtime_context_compaction"

/-- The message that stands in for those taken out. -/
def summaryMessage (request : CompactionRequest) (messages : List PromptMessage) :
    PromptMessage :=
  let config := governanceConfig request.workflow
  let protectedIndices := lib.protectedMessageIndices messages
  let summary := lib.buildSummary request messages (lib.compactableMessageIndices messages config)
    protectedIndices (intConfig config "max_summary_chars" 5000 1200 (some 20000))
  { role := "system"
    content := .str summary
    name := some compactionName
    metadata := [("runtime_governance", .obj [("compacted", .bool true),
      ("strategy", .str strategyVersion),
      ("source_model_request_id", .str (toString request.sourceModelRequestId)),
      ("protected_context_retained", .bool true),
      ("protected_message_count", .nat protectedIndices.length)])] }

/-- The transcript without the compactable messages, and with the summary behind its leading
system messages. -/
def compactedMessages (request : CompactionRequest) (messages : List PromptMessage) :
    List PromptMessage :=
  let compactIndices := lib.compactableMessageIndices messages (governanceConfig request.workflow)
  let leadingSystems := leadingSystemCount messages
  messages.take leadingSystems ++ lib.summaryMessage request messages ::
    without compactIndices.contains leadingSystems (messages.drop leadingSystems)

/-- What a record says of the estimates and of the protected messages. -/
def estimateMetadata (request : CompactionRequest) (messages : List PromptMessage) : Dict Json :=
  [("before_estimated_prompt_tokens", .nat (lib.estimateModelMessagesTokens messages)),
    ("after_estimated_prompt_tokens",
      .nat (lib.estimateModelMessagesTokens (lib.compactedMessages request messages))),
    ("strategy", .str strategyVersion),
    ("protected_context_retained", .bool true),
    ("protected_message_count", .nat (lib.protectedMessageIndices messages).length),
    ("protected_message_roles", .strs ((lib.protectedMessageIndices messages).filterMap fun p =>
      messages[p.1]?.map fun m => m.role)),
    ("protected_message_reasons", .obj ((lib.protectedMessageIndices messages).map fun p =>
      (toString p.1, .str p.2)))]

/-- `deterministic_compact_messages`. -/
def deterministicCompactMessages (request : CompactionRequest) (messages : List PromptMessage) :
    ContextCompactionResult :=
  let config := governanceConfig request.workflow
  let skipped (reason : String) : ContextCompactionRecord :=
    { reason := some reason, sourceModelRequestId := some request.sourceModelRequestId }
  if !compactionEnabled config then ⟨messages, skipped "disabled", ""⟩
  else
    let compactIndices := lib.compactableMessageIndices messages config
    if compactIndices.isEmpty then ⟨messages, skipped "no_compactable_messages", ""⟩
    else
      let beforeTokens := lib.estimateModelMessagesTokens messages
      let compacted := lib.compactedMessages request messages
      let afterTokens := lib.estimateModelMessagesTokens compacted
      let tokensSaved := beforeTokens - afterTokens
      let minSaved := minEstimatedTokensSaved config
      let summary := lib.str (lib.summaryMessage request messages).content
      if tokensSaved < minSaved then
        ⟨messages, { skipped "insufficient_savings" with
          estimatedTokensSaved := tokensSaved
          metadata := (lib.estimateMetadata request messages).set "min_estimated_tokens_saved"
            (.nat minSaved) }, summary⟩
      else
        ⟨compacted, { skipped CompactionReason.contextHealthThreshold.value with
          compacted := true
          estimatedTokensSaved := tokensSaved
          metadata := (lib.estimateMetadata request messages).union
            [("compacted_message_count", .nat compactIndices.length),
              ("preserved_message_count", .nat compacted.length),
              ("context_status_before", .str request.contextHealth.status),
              ("context_window", request.contextHealth.contextWindow.elim .null fun n => .num n),
              ("context_usage_ratio_before", request.contextHealth.usageRatio.elim .null .num),
              ("model_profile_id", .str request.profile.id)] }, summary⟩

end TextCodec

end OpenAgency
