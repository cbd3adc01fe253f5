/-
Tools.lean

Which tools a workflow can call and under which names.  A tool answers to its id,
to its name and display name, to the name a model is given for it, and to the
callable or entry point that implements it.  The tools of the workflow come before
the built-in ones, and those before the tools registered from the catalog.
-/
import OpenAgency.Domain.Workflow

namespace OpenAgency

/-! ### Tool names -/

namespace ToolNames

/-- `[A-Z]`, `[a-z]` and `[0-9]`. -/
def isUpper (c : Char) : Bool := 'A' ≤ c && c ≤ 'Z'

def isLower (c : Char) : Bool := 'a' ≤ c && c ≤ 'z'

def isDigit (c : Char) : Bool := '0' ≤ c && c ≤ '9'

def isAlnum (c : Char) : Bool := isUpper c || isLower c || isDigit c

/-- `str.upper` and `str.lower` of ASCII letters. -/
def upper (c : Char) : Char := if isLower c then Char.ofNat (c.toNat - 32) else c

def lower (c : Char) : Char := if isUpper c then Char.ofNat (c.toNat + 32) else c

/-- `TOOL_CALL_NAME_PATTERN.fullmatch`. -/
def isCallName : List Char → Bool
  | [] => false
  | c :: cs =>
    (isUpper c || isLower c || c = '_') && cs.length ≤ 63 &&
      cs.all fun d => isAlnum d || d = '_' || d = '-'

/-- `([a-z0-9])([A-Z])` becomes `\1 \2`. -/
def spaceBeforeUpper : List Char → List Char
  | a :: b :: rest =>
    if (isLower a || isDigit a) && isUpper b then a :: ' ' :: spaceBeforeUpper (b :: rest)
    else a :: spaceBeforeUpper (b :: rest)
  | cs => cs

/-- `([A-Z]+)([A-Z][a-z])` becomes `\1 \2`. -/
def spaceBeforeWord : List Char → List Char
  | a :: b :: c :: rest =>
    if isUpper a && isUpper b && isLower c then a :: ' ' :: spaceBeforeWord (b :: c :: rest)
    else a :: spaceBeforeWord (b :: c :: rest)
  | cs => cs

/-- The parts between separators, without empty ones; `part` is the part being read,
backwards. -/
def splitWords : List Char → List Char → List (List Char)
  | part, [] => if part = [] then [] else [part.reverse]
  | part, c :: cs =>
    if isAlnum c then splitWords (c :: part) cs
    else if part = [] then splitWords [] cs
    else part.reverse :: splitWords [] cs

/-- `_split_name_words`. -/
def splitNameWords (name : List Char) : List (List Char) :=
  splitWords [] (spaceBeforeWord (spaceBeforeUpper (strip (String.ofList name)).toList))

def acronymWords : List String :=
  ["a2a", "api", "cli", "csv", "docx", "html", "http", "json", "llm", "mcp", "pdf", "sql", "txt",
    "ui", "url", "xml", "yaml"]

def lowercaseDisplayWords : List String :=
  ["a", "an", "and", "as", "by", "for", "from", "in", "of", "on", "or", "the", "to", "with"]

/-- `part.isupper()`. -/
def isUpperWord (word : List Char) : Bool := word.any isUpper && !word.any isLower

/-- `_format_display_word`. -/
def formatDisplayWord (word : List Char) : List Char :=
  if String.ofList (word.map lower) ∈ acronymWords then word.map upper
  else match word with
    | [] => []
    | c :: rest => upper c :: rest

/-- `part if part.isupper() else _format_display_word(part)`. -/
def formatPart (part : List Char) : List Char :=
  if isUpperWord part then part else formatDisplayWord part

/-- `make_tool_call_name`. -/
def makeToolCallName (toolName : List Char) : List Char :=
  let raw := (strip (String.ofList toolName)).toList
  if isCallName raw then raw
  else
    let candidate := (splitNameWords raw).flatMap formatPart
    let candidate := if candidate = [] then "Tool".toList else candidate
    let candidate := match candidate with
      | c :: _ => if isUpper c || isLower c || c = '_' then candidate else "Tool".toList ++ candidate
      | [] => candidate
    candidate.take 64

/-- `make_tool_display_name`. -/
def makeToolDisplayName (name : List Char) : List Char :=
  match splitNameWords name with
  | [] => "Tool".toList
  | first :: rest =>
    let format (part : List Char) : List Char :=
      if String.ofList (part.map lower) ∈ lowercaseDisplayWords then part.map lower
      else formatPart part
    [' '].intercalate (formatPart first :: rest.map format)

end ToolNames

namespace ToolDefinition

/-- `tool_call_name`. -/
def callName (tool : ToolDefinition) : List Char :=
  match tool.toolCallName with
  | some configured =>
    let configured := (strip configured).toList
    if ToolNames.isCallName configured then configured
    else ToolNames.makeToolCallName tool.name.toList
  | none => ToolNames.makeToolCallName tool.name.toList

/-- `tool_display_name`. -/
def displayLabel (tool : ToolDefinition) : List Char :=
  match tool.displayName with
  | some label =>
    let label := (strip label).toList
    if label ≠ [] then label else ToolNames.makeToolDisplayName tool.name.toList
  | none => ToolNames.makeToolDisplayName tool.name.toList

/-- `tool_matches_call_name`. -/
def matchesCallName (tool : ToolDefinition) (name : Option String) : Bool :=
  match name with
  | none | some "" => false
  | some name =>
    let normalized := (strip name).toList
    normalized ∈ [tool.id.toList, tool.name.toList, tool.displayLabel,
      ToolNames.makeToolCallName tool.displayLabel, tool.callName,
      (tool.callableName.getD "").toList, (tool.entrypoint.getD "").toList]

end ToolDefinition

/-! ### Resolving a tool -/

/-- `available_tools`: a built-in tool replaces a workflow's copy of it, and a
workflow's tool a catalog tool. -/
def composeTools (builtinTools catalogTools : List ToolDefinition)
    (workflow : WorkflowDefinition) : List ToolDefinition :=
  let builtinIds := builtinTools.map (·.id)
  let workflowTools := workflow.toolDefinitions.filter fun tool => tool.id ∉ builtinIds
  let workflowToolIds := workflowTools.map (·.id)
  let catalogTools := catalogTools.filter fun tool =>
    tool.id ∉ builtinIds && tool.id ∉ workflowToolIds
  workflowTools ++ builtinTools ++ catalogTools

/-- The call names a tool by its id or by one of its names. -/
def ToolDefinition.answersTo (tool : ToolDefinition) (toolId : String)
    (toolName : Option String) : Bool := tool.id = toolId || tool.matchesCallName toolName

/-- The loop of `resolve_tool`: of the tools of one id only the first is looked at. -/
def findTool (toolId : String) (toolName : Option String) :
    List String → List ToolDefinition → Option ToolDefinition
  | _, [] => none
  | seen, tool :: rest =>
    if tool.id ∈ seen then findTool toolId toolName seen rest
    else if tool.answersTo toolId toolName then some tool
    else findTool toolId toolName (tool.id :: seen) rest

end OpenAgency
