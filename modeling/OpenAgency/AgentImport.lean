/-
AgentImport.lean

Importing an agent from Markdown, and what the import grants it.

`commitFromRequest` is `commit_from_request` up to the save.  What is read from Markdown
(`readMarkdown`), how names are compared (`normalizeName`) and what `str` and `dict` make of
other values is arbitrary; the agent of a preview has no tools and hands off to nobody.  The main result is `commit_grants_iff`.
-/
import OpenAgency.Domain.Workflow
import OpenAgency.Lib.Catalog

namespace OpenAgency

open Relational

/-- The fields of an agent that an import reads or writes. -/
structure ImportedAgent extends AgentDefinition where
  displayName : Option String := none
  handoffAgentIds : List String := []
  hintsMetadata : Dict Json := []
  metadata : Dict Json := []

structure AgentImportError where
  message : String
  code : String := "agent_import_error"
  deriving DecidableEq

structure AgentImportWarning where
  code : String
  message : String
  field : Option String := none

/-- An agent that is proposed, with the tools and the handoffs that its Markdown names; a
handoff may have been matched to an agent. -/
structure AgentImportProposal where
  agent : ImportedAgent
  suggestedToolIds : List String := []
  suggestedHandoffAgentIds : List (String × Option String) := []
  warnings : List AgentImportWarning := []

inductive ConflictStrategy where
  | createOnly
  | updateExisting
  | duplicateAsNew
  deriving DecidableEq

structure AgentImportCommitRequest where
  proposal : Option AgentImportProposal := none
  markdownText : String := ""
  conflictStrategy : ConflictStrategy := .createOnly
  approvedToolIds : List String := []
  approvedHandoffAgentIds : List String := []
  modelProfileId : Option String := none
  enabled : Option Bool := none

abbrev AgentCatalog := Catalog fun a : ImportedAgent => a.id

structure AgentImportCommitResult where
  updated : Bool
  agent : ImportedAgent
  warnings : List AgentImportWarning
  /-- The agents after the save. -/
  agents : AgentCatalog

/-- The catalogs as a commit finds them, and what it draws. -/
structure AgentMarkdownImportService where
  agents : AgentCatalog
  /-- The order in which a repository lists them. -/
  listed : List ImportedAgent
  perm : listed.Perm agents.items
  hasTool : String → Bool
  hasModelProfile : String → Bool
  normalizeName : String → String
  /-- `str(value)` of a value that is not a string. -/
  repr : Json → String
  /-- `dict(value)` of a true value that is not a dict, where it may raise. -/
  dictOf : Json → Except AgentImportError (Dict Json)
  readMarkdown : String → Except AgentImportError AgentImportProposal
  uuid : String
  fresh : uuid ∉ agents.items.map (·.id)
  auditExecutionId : String
  now : Time
  currentUser : Option String := none

/-- `dict.fromkeys([*existing, *additions])`. -/
def mergeUnique (existing additions : List String) : List String :=
  (existing ++ additions).eraseDups

theorem mem_mergeUnique {x : String} {existing additions : List String} :
    x ∈ mergeUnique existing additions ↔ x ∈ existing ∨ x ∈ additions := by
  simp [mergeUnique, List.mem_eraseDups]

namespace AgentMarkdownImportService

variable (service : AgentMarkdownImportService) (payload : AgentImportCommitRequest)
  (proposal : AgentImportProposal)

/-- The agent of a preview is given no tools and no handoffs. -/
def previewFromRequest : Except AgentImportError AgentImportProposal := do
  let proposal ← service.readMarkdown payload.markdownText
  .ok { proposal with agent := { proposal.agent with toolIds := [], handoffAgentIds := [] } }

def proposalOf : Except AgentImportError AgentImportProposal :=
  match payload.proposal with
  | some proposal => .ok proposal
  | none => service.previewFromRequest payload

def findAgentByName (name : String) : Option ImportedAgent :=
  service.listed.find? fun a => service.normalizeName a.name = service.normalizeName name

def existing : Option ImportedAgent :=
  (service.agents.get proposal.agent.id).or (service.findAgentByName proposal.agent.name)

/-- One of the first numbers is free, as there are as many as agents and one more. -/
def dedupeName (name : String) : String :=
  let taken (n : String) : Bool :=
    service.listed.any fun a => service.normalizeName a.name = service.normalizeName n
  if !taken name then name
  else (((List.range (service.listed.length + 1)).map fun i => s!"{name} {i + 2}").find?
    (!taken ·)).getD name

/-- What the strategy makes of the proposed agent. -/
def resolveConflict : ImportedAgent :=
  let agent := proposal.agent
  match payload.conflictStrategy, service.existing proposal with
  | .duplicateAsNew, none => { agent with id := service.uuid }
  | .duplicateAsNew, some _ =>
    let name := service.dedupeName agent.name
    { agent with id := service.uuid, name, displayName := some name }
  | .updateExisting, some e =>
    { agent with
      id := e.id
      modelProfileId := if payload.modelProfileId.isNone then e.modelProfileId
        else agent.modelProfileId
      toolIds := e.toolIds
      handoffAgentIds := e.handoffAgentIds
      metadata := e.metadata.union agent.metadata
      hintsMetadata := e.hintsMetadata.union agent.hintsMetadata }
  | _, _ => agent

def assignModelProfile (agent : ImportedAgent) : Except AgentImportError ImportedAgent :=
  match payload.modelProfileId with
  | none => .ok agent
  | some id =>
    if service.hasModelProfile id then .ok { agent with modelProfileId := some id }
    else .error ⟨s!"Model profile '{id}' was not found.", "model_profile_not_found"⟩

def approvedToolIds : List String → Except AgentImportError (List String)
  | [] => .ok []
  | id :: ids =>
    if service.hasTool id then (id :: ·) <$> approvedToolIds ids
    else .error ⟨s!"Tool '{id}' was not found.", "tool_not_found"⟩

def approvedHandoffIds : List String → Except AgentImportError (List String) :=
  List.mapM fun id =>
    match (service.agents.get id).or (service.findAgentByName id) with
    | some agent => .ok agent.id
    | none => .error ⟨s!"Handoff agent '{id}' was not found.", "handoff_agent_not_found"⟩

/-- The suggested tools that are reported as not granted. -/
def blockedTools (approved : List String) : List String :=
  proposal.suggestedToolIds.filter (· ∉ approved)

def blockedHandoffs (approved : List String) : List String :=
  (proposal.suggestedHandoffAgentIds.filter fun (id, found) => found.getD id ∉ approved).map
    Prod.fst

/-- A warning that names what was not granted. -/
def notGranted (code subject field : String) (blocked : List String) : List AgentImportWarning :=
  if blocked = [] then []
  else
    let names := ", ".intercalate (blocked.mergeSort (· ≤ ·))
    [⟨code, s!"Some imported {subject} suggestions were not granted: {names}", some field⟩]

/-- `_string_value`. -/
def stringValue : Json → Option String
  | .null => none
  | .str s => some (strip s) |>.filter (· ≠ "")
  | value => some (strip (service.repr value)) |>.filter (· ≠ "")

/-- `dict(metadata.get("import") or {})`. -/
def importMetadata (metadata : Dict Json) : Except AgentImportError (Dict Json) :=
  match metadata.getJson "import" with
  | .obj fields => .ok fields
  | value => if value.truthy then service.dictOf value else .ok []

/-- `_ensure_import_audit_execution_id`, on the metadata of an import. -/
def ensureImportAuditExecutionId (imported : Dict Json) : String × Dict Json :=
  match service.stringValue (imported.getJson "preview_audit_execution_id") with
  | some id => (id, imported)
  | none => (service.auditExecutionId,
      imported.set "preview_audit_execution_id" (.str service.auditExecutionId))

/-- The agent as it is saved: reviewed, and enabled if that was asked for. -/
def stamped (agent : ImportedAgent) : Except AgentImportError ImportedAgent := do
  let imported ← service.importMetadata agent.metadata
  let imported := imported.set "committed_at" (.str (isoformat service.now))
  let imported := imported.set "committed_by" (.ofOption service.currentUser)
  let imported := imported.set "review_status" (.str "committed")
  let (auditId, imported) := service.ensureImportAuditExecutionId imported
  let imported := imported.set "commit_audit_execution_id" (.str auditId)
  let metadata := agent.metadata.set "import" (.obj imported)
  return { agent with metadata := metadata.set "enabled" (.bool (payload.enabled.getD false)) }

def commitFromRequest : Except AgentImportError AgentImportCommitResult := do
  let proposal ← service.proposalOf payload
  let existing := service.existing proposal
  if existing.isSome && payload.conflictStrategy = .createOnly then
    .error ⟨"An agent with the same id or name already exists. Use update_existing or " ++
      "duplicate_as_new.", "agent_import_conflict"⟩
  else
    let agent ← service.assignModelProfile payload (service.resolveConflict payload proposal)
    let tools ← service.approvedToolIds payload.approvedToolIds
    let handoffs ← service.approvedHandoffIds payload.approvedHandoffAgentIds
    let agent ← service.stamped payload
      { agent with
        toolIds := mergeUnique agent.toolIds tools
        handoffAgentIds := mergeUnique agent.handoffAgentIds handoffs }
    .ok
      { updated := payload.conflictStrategy = .updateExisting && existing.isSome
        agent
        warnings := proposal.warnings ++
          notGranted "tool_suggestions_not_granted" "tool" "tool_ids"
            (blockedTools proposal tools) ++
          notGranted "handoff_suggestions_not_granted" "handoff" "handoff_agent_ids"
            (blockedHandoffs proposal handoffs)
        agents := service.agents.put agent }

/-- The agent that an import updates. -/
def updates : Option ImportedAgent :=
  if payload.conflictStrategy = .updateExisting then service.existing proposal else none

/-- The import grants what was approved, or what an agent that it updates had; nothing that it
reports as not granted; and it overwrites no other agent. -/
structure GrantsApproved (handoffs : List String) (result : AgentImportCommitResult) : Prop where
  tools : ∀ t ∈ result.agent.toolIds, t ∈ payload.approvedToolIds ∨
    ∃ e, service.updates payload proposal = some e ∧ t ∈ e.toolIds
  handoffs : ∀ a ∈ result.agent.handoffAgentIds, a ∈ handoffs ∨
    ∃ e, service.updates payload proposal = some e ∧ a ∈ e.handoffAgentIds
  blocked : ∀ t ∈ blockedTools proposal payload.approvedToolIds, t ∈ result.agent.toolIds →
    ∃ e, service.updates payload proposal = some e ∧ t ∈ e.toolIds
  kept : payload.conflictStrategy ≠ .updateExisting →
    ∀ a ∈ service.agents.items, result.agents.get a.id = some a

variable {service payload proposal} {handoffs : List String} {result : AgentImportCommitResult}

/-- What an agent has before anything is granted. -/
theorem grants_resolveConflict :
    (service.resolveConflict payload proposal).toolIds
        = ((service.updates payload proposal).getD proposal.agent).toolIds ∧
      (service.resolveConflict payload proposal).handoffAgentIds
        = ((service.updates payload proposal).getD proposal.agent).handoffAgentIds := by
  unfold resolveConflict updates
  cases payload.conflictStrategy <;> cases service.existing proposal <;> exact ⟨rfl, rfl⟩

/-- A new agent is saved under a new id. -/
theorem id_resolveConflict (hstrategy : payload.conflictStrategy ≠ .updateExisting)
    (hnew : (service.existing proposal).isSome → payload.conflictStrategy ≠ .createOnly) :
    (service.resolveConflict payload proposal).id ∉ service.agents.items.map (·.id) := by
  unfold resolveConflict
  rcases hexisting : service.existing proposal with - | e <;> rw [hexisting] at hnew <;>
    cases hs : payload.conflictStrategy
  · have hget : service.agents.get proposal.agent.id = none :=
      (Option.or_eq_none_iff.mp hexisting).1
    intro hmem
    obtain ⟨a, ha, hid⟩ := List.mem_map.mp hmem
    have hsome : service.agents.get a.id = some a := Catalog.get_of_mem ha
    rw [show a.id = proposal.agent.id from hid, hget] at hsome
    cases hsome
  · exact absurd hs hstrategy
  · exact service.fresh
  · exact absurd hs (hnew rfl)
  · exact absurd hs hstrategy
  · exact service.fresh

theorem assignModelProfile_ok {agent agent' : ImportedAgent}
    (h : service.assignModelProfile payload agent = .ok agent') :
    agent'.id = agent.id ∧ agent'.toolIds = agent.toolIds ∧
      agent'.handoffAgentIds = agent.handoffAgentIds := by
  unfold assignModelProfile at h
  split at h
  · cases h
    exact ⟨rfl, rfl, rfl⟩
  · split at h <;> cases h
    exact ⟨rfl, rfl, rfl⟩

theorem stamped_ok {agent agent' : ImportedAgent}
    (h : service.stamped payload agent = .ok agent') :
    agent'.id = agent.id ∧ agent'.toolIds = agent.toolIds ∧
      agent'.handoffAgentIds = agent.handoffAgentIds := by
  obtain ⟨imported, -, h⟩ := bind_eq_ok.mp h
  cases h
  exact ⟨rfl, rfl, rfl⟩

theorem approvedToolIds_ok {ids tools : List String}
    (h : service.approvedToolIds ids = .ok tools) : tools = ids := by
  induction ids generalizing tools with
  | nil =>
    cases h
    rfl
  | cons id ids ih =>
    rw [approvedToolIds] at h
    split at h
    · rcases hrest : service.approvedToolIds ids with e | rest <;> rw [hrest] at h <;> cases h
      rw [ih hrest]
    · cases h

/-- What a commit saves. -/
structure Saves (service : AgentMarkdownImportService) (payload : AgentImportCommitRequest)
    (proposal : AgentImportProposal) (handoffs : List String) (result : AgentImportCommitResult) :
    Prop where
  new : (service.existing proposal).isSome → payload.conflictStrategy ≠ .createOnly
  id : result.agent.id = (service.resolveConflict payload proposal).id
  toolIds : result.agent.toolIds =
    mergeUnique (service.resolveConflict payload proposal).toolIds payload.approvedToolIds
  handoffAgentIds : result.agent.handoffAgentIds =
    mergeUnique (service.resolveConflict payload proposal).handoffAgentIds handoffs
  agents : result.agents = service.agents.put result.agent

theorem saves_of_commit (hproposal : service.proposalOf payload = .ok proposal)
    (hhandoffs : service.approvedHandoffIds payload.approvedHandoffAgentIds = .ok handoffs)
    (hcommit : service.commitFromRequest payload = .ok result) :
    service.Saves payload proposal handoffs result := by
  obtain ⟨proposal', hproposal', h⟩ := bind_eq_ok.mp hcommit
  obtain rfl : proposal = proposal' := Except.ok.inj (hproposal.symm.trans hproposal')
  dsimp only at h
  split at h
  · cases h
  · next hnew =>
    obtain ⟨agent, hagent, h⟩ := bind_eq_ok.mp h
    obtain ⟨tools, htools, h⟩ := bind_eq_ok.mp h
    obtain ⟨handoffs', hhandoffs', h⟩ := bind_eq_ok.mp h
    obtain rfl : handoffs = handoffs' := Except.ok.inj (hhandoffs.symm.trans hhandoffs')
    obtain rfl := approvedToolIds_ok htools
    obtain ⟨saved, hsaved, h⟩ := bind_eq_ok.mp h
    obtain ⟨hid, htoolIds, hhandoffIds⟩ := assignModelProfile_ok hagent
    obtain ⟨hid', htoolIds', hhandoffIds'⟩ := stamped_ok hsaved
    cases h
    exact ⟨fun hsome hcreate => hnew (by simp [hsome, hcreate]), hid'.trans hid,
      htoolIds'.trans (congrArg (mergeUnique · _) htoolIds),
      hhandoffIds'.trans (congrArg (mergeUnique · _) hhandoffIds), rfl⟩

/-- What is granted beyond the approved ids was there before. -/
theorem granted_within_iff (ids : ImportedAgent → List String) {approved granted : List String}
    (h : granted = mergeUnique (ids ((service.updates payload proposal).getD proposal.agent))
      approved) :
    (∀ x ∈ granted, x ∈ approved ∨ ∃ e, service.updates payload proposal = some e ∧ x ∈ ids e) ↔
      (service.updates payload proposal).isSome ∨ ids proposal.agent ⊆ approved := by
  subst h
  rcases service.updates payload proposal with - | e
  · simp only [mem_mergeUnique, Option.getD_none, reduceCtorEq, false_and, exists_false, or_false,
      Option.isSome_none, Bool.false_eq_true, false_or]
    exact ⟨fun h x hx => h x (.inl hx), fun h x hx => hx.elim (fun hx => h hx) id⟩
  · simp [mem_mergeUnique, or_comm]

/-- **An import grants only what was approved**, exactly if it updates an agent or the proposal
itself grants nothing else. -/
theorem commit_grants_iff (hproposal : service.proposalOf payload = .ok proposal)
    (hhandoffs : service.approvedHandoffIds payload.approvedHandoffAgentIds = .ok handoffs)
    (hcommit : service.commitFromRequest payload = .ok result) :
    service.GrantsApproved payload proposal handoffs result ↔
      (service.updates payload proposal).isSome ∨
        proposal.agent.toolIds ⊆ payload.approvedToolIds ∧
          proposal.agent.handoffAgentIds ⊆ handoffs := by
  have hsaves := saves_of_commit hproposal hhandoffs hcommit
  have htools := granted_within_iff (·.toolIds)
    (hsaves.toolIds.trans (congrArg (mergeUnique · _) grants_resolveConflict.1))
  have hhandoffIds := granted_within_iff (·.handoffAgentIds)
    (hsaves.handoffAgentIds.trans (congrArg (mergeUnique · _) grants_resolveConflict.2))
  rw [or_and_left, ← htools, ← hhandoffIds]
  refine ⟨fun h => ⟨h.tools, h.handoffs⟩, fun h => ⟨h.1, h.2, fun t hblocked ht => ?_, ?_⟩⟩
  · exact (h.1 t ht).resolve_left (by simpa using (List.mem_filter.mp hblocked).2)
  · intro hstrategy a ha
    have hne : a.id ≠ result.agent.id := fun e => id_resolveConflict hstrategy hsaves.new
      (hsaves.id ▸ e ▸ List.mem_map_of_mem (f := (·.id)) ha)
    rw [hsaves.agents, Catalog.get_put_ne (r := result.agent) hne]
    exact Catalog.get_of_mem ha

/-- A service that knows two tools and no agent. -/
def emptyCatalog : AgentMarkdownImportService where
  agents := .empty
  listed := []
  perm := .nil
  hasTool id := id ∈ ["search", "shell"]
  hasModelProfile _ := false
  normalizeName := id
  repr _ := ""
  dictOf _ := .error ⟨"object is not iterable", "type_error"⟩
  readMarkdown _ := .error ⟨"Markdown body is empty after frontmatter.", "empty_markdown_body"⟩
  uuid := "new"
  fresh := List.not_mem_nil
  auditExecutionId := "agent-import-0"
  now := 0

/-- A proposal sent by a client, which already has a tool. -/
def armedRequest (tool : String) : AgentImportCommitRequest where
  proposal := some { agent := { id := "a", name := "A", toolIds := [tool] } }
  approvedToolIds := ["search"]

theorem commit_grants_iff_search : ∃ proposal result,
    emptyCatalog.GrantsApproved (armedRequest "search") proposal [] result :=
  ⟨_, _, (commit_grants_iff rfl rfl rfl).mpr (.inr ⟨by decide, by decide⟩)⟩

/-- The agent is saved with a tool that nobody has approved. -/
theorem unapproved_shell_granted : ∃ proposal result,
    emptyCatalog.proposalOf (armedRequest "shell") = .ok proposal ∧
      emptyCatalog.commitFromRequest (armedRequest "shell") = .ok result ∧
      result.agent.toolIds = ["shell", "search"] ∧
      ¬ emptyCatalog.GrantsApproved (armedRequest "shell") proposal [] result := by
  refine ⟨_, _, rfl, rfl, by decide +kernel, fun h => ?_⟩
  rcases h.tools "shell" (by decide +kernel) with hmem | ⟨e, hupdates, -⟩
  · exact absurd hmem (by decide)
  · cases hupdates

end AgentMarkdownImportService

end OpenAgency
