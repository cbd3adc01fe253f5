/-
BuiltinTools.lean

Which definition a call of a built-in tool resolves to.  `available_tools` drops the
definitions of a workflow and of the catalog that carry the id of a built-in tool, so
an id always leads to the built-in definition.  A call name is compared with seven
names of every tool, and the workflow's tools come first: a definition with an id of
its own that shares one of these names is returned instead.
-/
import OpenAgency.AgentExecutor

namespace OpenAgency

open List

variable {toolId : String} {toolName : Option String}

/-! ### The search of `resolve_tool` -/

variable {seen : List String} {tools : List ToolDefinition}

/-- Of the tools of one id only the first is looked at. -/
theorem findTool_eq_none :
    findTool toolId toolName seen tools = none ↔
      ∀ tool, tool.id ∉ seen → tools.find? (·.id = tool.id) = some tool →
        tool.answersTo toolId toolName = false := by
  induction tools generalizing seen with
  | nil => simp [findTool]
  | cons t rest ih =>
    have hhead : (t :: rest).find? (·.id = t.id) = some t := by
      rw [List.find?_cons_of_pos (by simp)]
    have htail : ∀ tool : ToolDefinition, t.id ≠ tool.id →
        (t :: rest).find? (·.id = tool.id) = rest.find? (·.id = tool.id) := by
      intro tool hne
      rw [List.find?_cons_of_neg (by simpa using hne)]
    by_cases hseen : t.id ∈ seen
    · rw [findTool, if_pos hseen, ih]
      apply forall_congr'
      intro tool
      apply forall_congr'
      intro hfresh
      have hne : t.id ≠ tool.id := fun he => hfresh (he ▸ hseen)
      rw [htail tool hne]
    · by_cases hanswers : t.answersTo toolId toolName = true
      · rw [findTool, if_neg hseen, if_pos hanswers]
        constructor
        · intro h
          cases h
        · intro h
          have hnot := h t hseen hhead
          rw [hanswers] at hnot
          cases hnot
      · rw [findTool, if_neg hseen, if_neg hanswers, ih]
        constructor
        · intro h tool hfresh hfirst
          by_cases hid : t.id = tool.id
          · obtain rfl : t = tool := by
              rw [← hid, hhead] at hfirst
              exact Option.some.inj hfirst
            exact eq_false_of_ne_true hanswers
          · rw [htail tool hid] at hfirst
            refine h tool ?_ hfirst
            simpa using ⟨Ne.symm hid, hfresh⟩
        · intro h tool hfresh hfirst
          obtain ⟨hid, hfresh⟩ : tool.id ≠ t.id ∧ tool.id ∉ seen := by simpa using hfresh
          refine h tool hfresh ?_
          rw [htail tool (Ne.symm hid)]
          exact hfirst

variable {tool : ToolDefinition}

theorem findTool_mem (h : findTool toolId toolName seen tools = some tool) : tool ∈ tools := by
  induction tools generalizing seen with
  | nil => cases h
  | cons t rest ih =>
    rw [findTool] at h
    by_cases hseen : t.id ∈ seen
    · rw [if_pos hseen] at h
      exact mem_cons_of_mem t (ih h)
    · rw [if_neg hseen] at h
      by_cases hanswers : t.answersTo toolId toolName = true
      · rw [if_pos hanswers] at h
        cases h
        exact mem_cons_self
      · rw [if_neg hanswers] at h
        exact mem_cons_of_mem t (ih h)

theorem findTool_head {rest : List ToolDefinition} (h : tool.answersTo toolId toolName = true) :
    findTool toolId toolName [] (tool :: rest) = some tool := by
  rw [findTool, if_neg (by simp), if_pos h]

/-- Only the ids of the tools searched matter. -/
theorem findTool_congr {seen seen' : List String} (h : ∀ t ∈ tools, t.id ∈ seen ↔ t.id ∈ seen') :
    findTool toolId toolName seen tools = findTool toolId toolName seen' tools := by
  induction tools generalizing seen seen' with
  | nil => rfl
  | cons t rest ih =>
    have hrest := fun u hu => h u (mem_cons_of_mem t hu)
    have hlonger : ∀ u ∈ rest, u.id ∈ t.id :: seen ↔ u.id ∈ t.id :: seen' := by
      intro u hu
      simp only [mem_cons, hrest u hu]
    simp only [findTool, h t mem_cons_self, ih hrest, ih hlonger]

variable {xs ys : List ToolDefinition}

theorem findTool_append_of_some (h : findTool toolId toolName seen xs = some tool) :
    findTool toolId toolName seen (xs ++ ys) = some tool := by
  induction xs generalizing seen with
  | nil => cases h
  | cons x rest ih =>
    rw [findTool] at h
    rw [cons_append, findTool]
    by_cases hseen : x.id ∈ seen
    · rw [if_pos hseen] at h ⊢
      exact ih h
    · rw [if_neg hseen] at h ⊢
      by_cases hanswers : x.answersTo toolId toolName = true
      · rw [if_pos hanswers] at h ⊢
        exact h
      · rw [if_neg hanswers] at h ⊢
        exact ih h

/-- A search that finds nothing goes on behind, where the ids are others. -/
theorem findTool_append_of_none (hids : ∀ x ∈ xs, ∀ y ∈ ys, y.id ≠ x.id)
    (h : findTool toolId toolName seen xs = none) :
    findTool toolId toolName seen (xs ++ ys) = findTool toolId toolName seen ys := by
  induction xs generalizing seen with
  | nil => rfl
  | cons x rest ih =>
    have hrest := fun u hu => hids u (mem_cons_of_mem x hu)
    rw [findTool] at h
    rw [cons_append, findTool]
    by_cases hseen : x.id ∈ seen
    · rw [if_pos hseen] at h ⊢
      exact ih hrest h
    · rw [if_neg hseen] at h ⊢
      by_cases hanswers : x.answersTo toolId toolName = true
      · rw [if_pos hanswers] at h
        cases h
      · rw [if_neg hanswers] at h ⊢
        rw [ih hrest h]
        apply findTool_congr
        intro y hy
        simp [hids x mem_cons_self y hy]

/-! ### Built-in tools -/

/-- What a call of a built-in tool means: the definition the built-in tools alone give. -/
def IdentifiesBuiltin (cfg : EngineConfig) (toolId : String) (toolName : Option String)
    (tool : ToolDefinition) : Prop :=
  findTool toolId toolName [] cfg.builtinTools = some tool

/-- The workflow's own definition of an id that no built-in tool has. -/
def DefinesTool (cfg : EngineConfig) (workflow : WorkflowDefinition) (tool : ToolDefinition) :
    Prop :=
  workflow.toolDefinitions.find? (·.id = tool.id) = some tool ∧
    tool.id ∉ cfg.builtinTools.map (·.id)

/-- The workflow's part of `available_tools`. -/
def customTools (cfg : EngineConfig) (workflow : WorkflowDefinition) : List ToolDefinition :=
  workflow.toolDefinitions.filter fun tool => tool.id ∉ cfg.builtinTools.map (·.id)

variable {workflow : WorkflowDefinition}

theorem find?_customTools {cfg : EngineConfig} :
    (customTools cfg workflow).find? (·.id = tool.id) = some tool ↔
      DefinesTool cfg workflow tool := by
  constructor
  · intro h
    have hmem : tool ∈ customTools cfg workflow := mem_of_find?_eq_some h
    have hown : tool.id ∉ cfg.builtinTools.map (·.id) := by
      simpa [customTools] using (List.mem_filter.mp hmem).2
    refine ⟨?_, hown⟩
    rw [customTools, List.find?_filter] at h
    rw [← h]
    congr 1
    funext u
    by_cases hu : u.id = tool.id
    · simpa [hu] using hown
    · simp [hu]
  · rintro ⟨h, hown⟩
    rw [customTools, List.find?_filter, ← h]
    congr 1
    funext u
    by_cases hu : u.id = tool.id
    · simpa [hu] using hown
    · simp [hu]

/-- Among all tools a call finds the workflow's definition, or else the built-in one. -/
theorem findTool_availableTools {cfg : EngineConfig}
    (h : IdentifiesBuiltin cfg toolId toolName tool) :
    findTool toolId toolName [] (availableTools cfg workflow) =
      some ((findTool toolId toolName [] (customTools cfg workflow)).getD tool) := by
  have hbuiltin : ∀ catalog : List ToolDefinition,
      findTool toolId toolName [] (cfg.builtinTools ++ catalog) = some tool :=
    fun catalog => findTool_append_of_some h
  rw [availableTools, composeTools, append_assoc]
  show findTool toolId toolName [] (customTools cfg workflow ++ _) = _
  rcases hcustom : findTool toolId toolName [] (customTools cfg workflow) with - | own
  · rw [findTool_append_of_none ?_ hcustom, hbuiltin]
    · rfl
    · -- the parts of `available_tools` share no id
      intro x hx y hy
      obtain ⟨hx, hxown⟩ := List.mem_filter.mp hx
      rcases List.mem_append.mp hy with hy | hy
      · rintro he
        apply of_decide_eq_true hxown
        rw [← he]
        exact mem_map_of_mem hy
      · obtain ⟨-, hy⟩ := List.mem_filter.mp hy
        rintro he
        obtain ⟨-, hnot⟩ := (Bool.and_eq_true _ _).mp hy
        apply of_decide_eq_true hnot
        rw [he]
        exact mem_map_of_mem (List.mem_filter.mpr ⟨hx, hxown⟩)
  · exact findTool_append_of_some hcustom

/-- **A built-in tool is shadowed by name only.**  A call that identifies a built-in tool
resolves to its canonical definition exactly if no tool the workflow defines under an id
of its own answers to the call. -/
theorem resolveTool_builtin_iff {cfg : EngineConfig} {workflow : WorkflowDefinition}
    {tool : ToolDefinition} (h : IdentifiesBuiltin cfg toolId toolName tool) :
    resolveTool cfg workflow toolId toolName = .ok tool ↔
      ∀ own, DefinesTool cfg workflow own → own.answersTo toolId toolName = false := by
  have hnone : findTool toolId toolName [] (customTools cfg workflow) = none ↔
      ∀ own, DefinesTool cfg workflow own → own.answersTo toolId toolName = false := by
    rw [findTool_eq_none]
    simp only [not_mem_nil, not_false_eq_true, true_imp_iff, find?_customTools]
  rw [resolveTool, findTool_availableTools h, ← hnone]
  rcases hcustom : findTool toolId toolName [] (customTools cfg workflow) with - | own
  · simp
  · have hown : own.id ∉ cfg.builtinTools.map (·.id) :=
      of_decide_eq_true (List.mem_filter.mp (findTool_mem hcustom)).2
    simp only [Option.getD_some, Except.ok.injEq, reduceCtorEq, iff_false]
    -- the workflow's definition has an id that no built-in tool has
    rintro rfl
    exact hown (mem_map_of_mem (findTool_mem h))

/-! ### A workflow that runs its own `run_command` -/

namespace BuiltinTools

/-- A built-in tool that asks for approval. -/
def runCommand : ToolDefinition where
  id := "agency.command.run"
  name := "run_command"
  approvalRequired := true

def cfg : EngineConfig := { EngineConfig.bare with builtinTools := [runCommand] }

/-- A tool of the same name that asks for none. -/
def ownCommand : ToolDefinition where
  id := "local.command"
  name := "run_command"

def shadowing : WorkflowDefinition where
  id := "w"
  name := "w"
  entrypoint := "n"
  toolDefinitions := [ownCommand]

def search : ToolDefinition where
  id := "local.search"
  name := "search"

/-- It has a tool of another name, and a copy of the built-in tool without its approval. -/
def plain : WorkflowDefinition := { shadowing with
  toolDefinitions := [search, { runCommand with approvalRequired := false }] }

theorem identifiesBuiltin : IdentifiesBuiltin cfg "call" (some "run_command") runCommand :=
  findTool_head (by decide +kernel)

end BuiltinTools

open BuiltinTools in
theorem resolveTool_builtin_plain :
    resolveTool cfg plain "call" (some "run_command") = .ok runCommand := by
  refine (resolveTool_builtin_iff identifiesBuiltin).mpr ?_
  rintro own ⟨hfind, hid⟩
  have hown : own ∈ plain.toolDefinitions := mem_of_find?_eq_some hfind
  rcases List.mem_cons.mp hown with rfl | hcopy
  · decide +kernel
  · rw [List.mem_singleton.mp hcopy] at hid
    exact absurd mem_cons_self hid

open BuiltinTools in
/-- The workflow's tool of the same name is called, without its approval. -/
theorem builtin_shadowed :
    ¬ ∀ cfg workflow toolId toolName tool, IdentifiesBuiltin cfg toolId toolName tool →
      resolveTool cfg workflow toolId toolName = .ok tool := by
  intro h
  have hbuiltin := h cfg shadowing "call" (some "run_command") runCommand identifiesBuiltin
  have hown : resolveTool cfg shadowing "call" (some "run_command") = .ok ownCommand := by
    have hfind : findTool "call" (some "run_command") [] (availableTools cfg shadowing) =
        some ownCommand := findTool_head (by decide +kernel)
    rw [resolveTool, hfind]
  have hid : ownCommand.id = runCommand.id := by
    rw [hown] at hbuiltin
    rw [Except.ok.inj hbuiltin]
  exact absurd hid (by decide)

end OpenAgency
