/-
CompactionState.lean

The state header of a summary.  A compaction that rewrites the transcript is recorded, and
two annotators, the compactor's and the agent executor's, write its record in front of the
first message with the name that every summary has:

    # Runtime Context Compaction State
    ...
    <blank line>
    # Runtime Context Compaction Summary
    ...

A summary is a system message behind the leading ones, so it is itself among the leading
system messages of every later compaction, and is found before the summary that is new.
-/
import OpenAgency.CompactionSafety
import OpenAgency.Lib.Lines

namespace OpenAgency

open Interaction Lines List CompactionReason

namespace TextCodec

variable (lib : TextCodec)

/-! ### The annotators -/

def stateHeader : String := "# Runtime Context Compaction State"

/-- The lines of a record's header. -/
def stateLines (record : ContextCompactionRecord) : List String :=
  let retained := (record.metadata.getJson "protected_context_retained").truthy
  [stateHeader,
    "context_compacted=true",
    "compaction_reason=" ++ (orElseString record.reason none).getD "unknown",
    "context_pack_memory_id=" ++ (record.memoryId.map toString).getD "none",
    "source_model_request_id=" ++ (record.sourceModelRequestId.map toString).getD "unknown",
    "estimated_tokens_saved=" ++ toString record.estimatedTokensSaved,
    "protected_context_retained=" ++ if retained then "true" else "false"]

def stateBlock (record : ContextCompactionRecord) : String := "\n".intercalate (stateLines record)

/-- A text under a record's header. -/
def headed (record : ContextCompactionRecord) (content : String) : String :=
  stateBlock record ++ "\n\n" ++ content

/-- `content.startswith(f"# {COMPACTION_STATE_HEADER}")`. -/
def startsWithState (content : String) : Bool := stateHeader.toList.isPrefixOf content.toList

/-- The message has the name of a summary. -/
def isSummary (message : PromptMessage) : Bool := message.name = some compactionName

/-- What both annotators note in a message's metadata. -/
def stateMetadata (record : ContextCompactionRecord) (message : PromptMessage) : Dict Json :=
  let governance := ((message.metadata.get? "runtime_governance").bind Json.asDict?).getD []
  message.metadata.set "runtime_governance" (.obj (Dict.union governance
    [("context_compacted", .bool true),
      ("compaction_reason", .ofOption record.reason),
      ("context_pack_memory_id", .ofOption (record.memoryId.map toString)),
      ("estimated_tokens_saved", .nat record.estimatedTokensSaved)]))

/-- The compactor's annotation: a message that has a header keeps it. -/
def annotateSummary (record : ContextCompactionRecord) (message : PromptMessage) : PromptMessage :=
  let content := lib.str message.content
  { message with
    metadata := stateMetadata record message
    content := .str (if startsWithState content then content else headed record content) }

/-- The agent executor's annotation: a header is replaced. -/
def reannotateSummary (record : ContextCompactionRecord) (message : PromptMessage) :
    PromptMessage :=
  let content := lib.str message.content
  let body := if startsWithState content then String.ofList (afterBlankLine content.toList)
    else content
  { message with
    metadata := stateMetadata record message
    content := .str (headed record body) }

/-- `_annotate_compaction_state`. -/
def annotateCompactionState (result : ContextCompactionResult) : ContextCompactionResult :=
  if !result.record.compacted then result
  else
    { result with
      messages := modifyFirst isSummary (lib.annotateSummary result.record) result.messages
      summary := (result.messages.find? isSummary).elim result.summary fun message =>
        lib.str (lib.annotateSummary result.record message).content }

/-- `_annotate_compaction_state_messages`. -/
def annotateCompactionStateMessages (messages : List PromptMessage)
    (record : ContextCompactionRecord) : List PromptMessage :=
  if !record.compacted then messages
  else modifyFirst isSummary (lib.reannotateSummary record) messages

/-! ### One compaction -/

/-- What the compactor finds around it. -/
structure CompactorEnvironment where
  /-- It has a context to store memories through. -/
  hasContext : Bool := true
  /-- `agent_context_compaction_persist_context_pack_default`. -/
  persistContextPackDefault : Bool := false
  /-- The memory `create_memory` stores, or its error. -/
  createMemory : Except String Uuid

/-- `_persist_context_pack_enabled`. -/
def persistContextPackEnabled (env : CompactorEnvironment) (workflow : GovernedWorkflow) : Bool :=
  ((governanceConfig workflow).get? "persist_context_pack").elim env.persistContextPackDefault
    Json.truthy

/-- `_source_event_sequence_range`. -/
def sourceEventSequenceRange (state : GovernedState) : Dict Json :=
  [("source_event_start_sequence", .nat (if 0 < state.sequence - 1 then 1 else 0)),
    ("source_event_end_sequence", .nat (state.sequence - 1))]

/-- `_persist_context_pack`, and the memory id it leaves in the record. -/
def persistContextPack (env : CompactorEnvironment) (summary : String)
    (record : ContextCompactionRecord) : ContextCompactionRecord :=
  if strip summary = "" then record
  else match env.createMemory with
    | .ok id => { record with memoryId := some id }
    | .error e =>
      { record with metadata := record.metadata.set "memory_persist_error" (.str e) }

/-- The record of a compaction, with the events it covers and its memory. -/
def compactorRecord (env : CompactorEnvironment) (request : CompactionRequest)
    (result : ContextCompactionResult) : ContextCompactionRecord :=
  let record := { result.record with
    metadata := result.record.metadata.union (sourceEventSequenceRange request.state) }
  if env.hasContext && persistContextPackEnabled env request.workflow
  then persistContextPack env result.summary record else record

/-- `RuntimeContextCompactor.__call__`. -/
def runtimeContextCompactor (env : CompactorEnvironment) (request : CompactionRequest)
    (messages : List PromptMessage) : ContextCompactionResult :=
  let result := lib.deterministicCompactMessages request messages
  if !result.record.compacted then result
  else lib.annotateCompactionState { result with record := compactorRecord env request result }

/-- The record as the agent executor completes it. -/
def completeRecord (request : CompactionRequest) (reason : CompactionReason)
    (result : ContextCompactionResult) : ContextCompactionRecord :=
  let after := lib.estimateContextHealth result.messages request.profile
  { result.record with
    reason := match reason with
      | .contextHealthThreshold => orElseString result.record.reason (some reason.value)
      | _ => some reason.value
    metadata := (result.record.metadata.union reason.extraMetadata).union
      [("after_estimated_prompt_tokens", .nat after.estimatedPromptTokens),
        ("context_status_after", .str after.status),
        ("context_usage_ratio_after", after.usageRatio.elim .null .num)] }

/-- `_compact_context` up to the events it emits: the messages the next model call is made
with, the record, and the summary of the compactor's result. -/
def compactContext (env : CompactorEnvironment) (request : CompactionRequest)
    (reason : CompactionReason) (messages : List PromptMessage) : ContextCompactionResult :=
  let result := lib.runtimeContextCompactor env request messages
  let record := lib.completeRecord request reason result
  let annotated := lib.annotateCompactionStateMessages result.messages record
  { messages := if record.compacted then annotated else messages
    record := record
    summary := result.summary }

/-! ### Headers -/

variable {lib} {request : CompactionRequest} {messages : List PromptMessage}
  {record record' : ContextCompactionRecord} {env : CompactorEnvironment}
  {reason : CompactionReason}

theorem intConfig_minimum {config : Dict Json} {key : String} {default minimum : ℕ}
    {maximum : Option ℕ} (h : ∀ m ∈ maximum, minimum ≤ m) :
    minimum ≤ intConfig config key default minimum maximum := by
  unfold intConfig
  cases maximum with
  | none => simp only [Option.elim_none]; omega
  | some m =>
    have hm := h m rfl
    simp only [Option.elim_some]
    omega

theorem title_prefix_rdropWhile (text : List Char) :
    summaryTitle.toList <+: (summaryTitle.toList ++ text).rdropWhile isStripSpace :=
  prefix_rdropWhile (by decide) (by decide) text

theorem title_prefix_strip (sections : List String) (h : sections ≠ []) :
    summaryTitle.toList <+: (strip ("\n".intercalate (summaryTitle :: sections))).toList := by
  rw [String.intercalate_cons_of_ne_nil h, String.append_assoc]
  generalize "\n" ++ "\n".intercalate sections = text
  unfold strip
  rw [String.toList_ofList, String.toList_append]
  have hfront : (summaryTitle.toList ++ text.toList).dropWhile isStripSpace =
      summaryTitle.toList ++ text.toList := rfl
  rw [hfront]
  exact title_prefix_rdropWhile text.toList

theorem title_prefix_limitSummary {summary : String} (h : summaryTitle.toList <+: summary.toList)
    {maxChars : ℕ} (hmax : 1200 ≤ maxChars) :
    summaryTitle.toList <+: (limitSummary maxChars summary).toList := by
  unfold limitSummary
  split
  · exact h
  · have hlength : summaryTitle.toList.length ≤ maxChars := le_trans (by decide) hmax
    obtain ⟨rest, hrest⟩ := List.prefix_take_iff.mpr ⟨h, hlength⟩
    unfold rstrip takeChars
    rw [String.toList_append, String.toList_ofList, String.toList_ofList, ← hrest]
    exact (title_prefix_rdropWhile rest).trans (prefix_append _ _)

variable (lib request messages) in
/-- A summary begins with its title, also when it is truncated. -/
theorem title_prefix_buildSummary (indices : List ℕ) (reasons : List (ℕ × String)) {maxChars : ℕ}
    (h : 1200 ≤ maxChars) :
    summaryTitle.toList <+:
      (lib.buildSummary request messages indices reasons maxChars).toList := by
  unfold buildSummary
  exact title_prefix_limitSummary (title_prefix_strip _ (cons_ne_nil _ _)) h

variable (lib request messages) in
/-- The text of a new summary has no header yet. -/
theorem startsWithState_summary :
    startsWithState (lib.str (lib.summaryMessage request messages).content) = false := by
  have hmax : 1200 ≤ intConfig (governanceConfig request.workflow) "max_summary_chars" 5000 1200
      (some 20000) := intConfig_minimum fun m hm => by cases hm; decide
  have hcontent : (lib.summaryMessage request messages).content =
      .str (lib.buildSummary request messages
        (lib.compactableMessageIndices messages (governanceConfig request.workflow))
        (lib.protectedMessageIndices messages)
        (intConfig (governanceConfig request.workflow) "max_summary_chars" 5000 1200
          (some 20000))) := rfl
  rw [hcontent, str, startsWithState, Bool.eq_false_iff]
  have htitle := title_prefix_buildSummary lib request messages
    (lib.compactableMessageIndices messages (governanceConfig request.workflow))
    (lib.protectedMessageIndices messages) hmax
  intro hstate
  have hprefix := prefix_of_prefix_length_le (List.isPrefixOf_iff_prefix.mp hstate) htitle
    (by decide)
  revert hprefix
  decide

theorem stateBlock_toList : (stateBlock record).toList =
    ['\n'].intercalate ((stateLines record).map String.toList) := by
  unfold stateBlock
  rw [String.toList_intercalate]
  rfl

/-- A header begins with its first line. -/
theorem startsWithState_headed (content : String) :
    startsWithState (headed record content) = true := by
  rw [startsWithState, isPrefixOf_iff_prefix]
  unfold headed
  rw [String.append_assoc, String.toList_append]
  refine List.IsPrefix.trans ?_ (prefix_append _ _)
  show stateHeader.toList <+: ("\n".intercalate (stateHeader :: _)).toList
  rw [String.intercalate_cons_of_ne_nil (cons_ne_nil _ _), String.append_assoc,
    String.toList_append]
  exact prefix_append _ _

theorem newline_not_mem_toString (n : ℕ) : '\n' ∉ (toString n).toList := by
  intro hmem
  have hdigits : (toString n).toList = Nat.toDigits 10 n := Nat.toList_repr
  rw [hdigits] at hmem
  have hdigit := Nat.isDigit_of_mem_toDigits (by decide) (by decide) hmem
  revert hdigit
  decide

theorem newline_not_mem_getD {id : Option ℕ} {missing : String} (h : '\n' ∉ missing.toList) :
    '\n' ∉ ((id.map toString).getD missing).toList := by
  cases id with
  | none => exact h
  | some n => exact newline_not_mem_toString n

/-- The lines of a header, none of them empty. -/
theorem stateLines_spec (h : record.reason = some reason.value) :
    ∀ line ∈ (stateLines record).map String.toList, line ≠ [] ∧ '\n' ∉ line := by
  have hlabel : ∀ {label value : String}, label.toList ≠ [] → '\n' ∉ label.toList →
      '\n' ∉ value.toList → (label ++ value).toList ≠ [] ∧ '\n' ∉ (label ++ value).toList := by
    intro label value hne hlabel hvalue
    rw [String.toList_append]
    exact ⟨append_ne_nil_of_left_ne_nil hne _, by simp [hlabel, hvalue]⟩
  have hreason : '\n' ∉ ((orElseString record.reason none).getD "unknown").toList := by
    rw [h]
    rcases reason with - | error | budget
    · decide
    · show '\n' ∉ ((orElseString (some "context_length_error") none).getD "unknown").toList
      decide
    · show '\n' ∉ ((orElseString (some "budget_exceeded") none).getD "unknown").toList
      decide
  intro line hline
  obtain ⟨text, htext, rfl⟩ := List.mem_map.mp hline
  simp only [stateLines, mem_cons, not_mem_nil, or_false] at htext
  rcases htext with rfl | rfl | rfl | rfl | rfl | rfl | rfl
  · decide
  · decide
  · exact hlabel (by decide) (by decide) hreason
  · exact hlabel (by decide) (by decide) (newline_not_mem_getD (by decide))
  · exact hlabel (by decide) (by decide) (newline_not_mem_getD (by decide))
  · exact hlabel (by decide) (by decide) (newline_not_mem_toString _)
  · exact hlabel (by decide) (by decide) (by split <;> decide)

/-- **Reading past a header** gives the text it was put in front of. -/
theorem afterBlankLine_headed (h : record.reason = some reason.value) (content : String) :
    String.ofList (afterBlankLine (headed record content).toList) = content := by
  have hchars : (headed record content).toList =
      ['\n'].intercalate ((stateLines record).map String.toList) ++
        '\n' :: '\n' :: content.toList := by
    unfold headed
    rw [String.toList_append, String.toList_append, stateBlock_toList, append_assoc]
    rfl
  rw [hchars, afterBlankLine_block (stateLines_spec h), String.ofList_toList]

/-- The third line of a header tells its reason. -/
theorem headed_toList (h : record.reason = some reason.value) (content : String) :
    ∃ rest, (headed record content).toList =
      (stateHeader ++ "\n" ++ "context_compacted=true" ++ "\n" ++ "compaction_reason=").toList ++
        (reason.value.toList ++ rest) := by
  have hvalue : (orElseString record.reason none).getD "unknown" = reason.value := by
    rw [h]
    cases reason <;> rfl
  unfold headed stateBlock stateLines
  rw [hvalue]
  simp only [String.intercalate_cons_cons, String.toList_append, append_assoc]
  exact ⟨_, rfl⟩

/-- Texts under headers with different reasons differ. -/
theorem headed_ne {reason' : CompactionReason} (h : record.reason = some reason.value)
    (h' : record'.reason = some reason'.value)
    (hne : reason.value.toList.take 9 ≠ reason'.value.toList.take 9) (content content' : String) :
    headed record content ≠ headed record' content' := by
  intro heq
  obtain ⟨rest, hrest⟩ := headed_toList h content
  obtain ⟨rest', hrest'⟩ := headed_toList h' content'
  rw [heq, hrest'] at hrest
  have htail := congrArg (List.take 9) (append_cancel_left hrest)
  have hlong : ∀ r : CompactionReason, 9 ≤ r.value.toList.length := by
    intro r
    rcases r with - | error | budget
    · decide
    · show 9 ≤ ("context_length_error" : String).toList.length
      decide
    · show 9 ≤ ("budget_exceeded" : String).toList.length
      decide
  rw [take_append_of_le_length (hlong _), take_append_of_le_length (hlong _)] at htail
  exact hne htail.symm

/-! ### Records -/

theorem persistContextPack_spec {summary : String} :
    (persistContextPack env summary record).compacted = record.compacted ∧
      (persistContextPack env summary record).reason = record.reason := by
  unfold persistContextPack
  split
  · exact ⟨rfl, rfl⟩
  · split <;> exact ⟨rfl, rfl⟩

variable (env request) in
/-- The compactor completes a record without changing its verdict or its reason. -/
theorem compactorRecord_spec (result : ContextCompactionResult) :
    (compactorRecord env request result).compacted = result.record.compacted ∧
      (compactorRecord env request result).reason = result.record.reason := by
  unfold compactorRecord
  split
  · exact persistContextPack_spec
  · exact ⟨rfl, rfl⟩

variable {result : ContextCompactionResult}

/-- The agent executor's record has the reason it was called for. -/
theorem completeRecord_reason (h : result.record.reason = some contextHealthThreshold.value) :
    (lib.completeRecord request reason result).reason = some reason.value := by
  unfold completeRecord
  rcases reason with - | error | budget
  · rw [h]
    rfl
  · rfl
  · rfl

/-- Completed for the reason it already has, the record has the same header. -/
theorem stateBlock_completeRecord (h : result.record.reason = some contextHealthThreshold.value) :
    stateBlock (lib.completeRecord request .contextHealthThreshold result) =
      stateBlock result.record := by
  have hreason : (lib.completeRecord request .contextHealthThreshold result).reason =
      result.record.reason := (completeRecord_reason h).trans h.symm
  have hretained : (lib.completeRecord request .contextHealthThreshold result).metadata.getJson
        "protected_context_retained" =
      result.record.metadata.getJson "protected_context_retained" := by
    unfold Dict.getJson completeRecord
    rw [Dict.get?_union_of_notMem _ _ (by simp), Dict.get?_union_of_notMem _ _ (by
      simp [extraMetadata])]
  unfold stateBlock stateLines
  rw [hreason, hretained]
  rfl

/-! ### One compaction and its headers -/

/-- The message starts with the record's header. -/
def CarriesHeader (record : ContextCompactionRecord) (message : PromptMessage) : Prop :=
  ∃ body, message.content = .str (headed record body)

/-- The record the compactor annotates a rewritten transcript with. -/
def annotatedRecord (lib : TextCodec) (env : CompactorEnvironment) (request : CompactionRequest)
    (messages : List PromptMessage) : ContextCompactionRecord :=
  compactorRecord env request (lib.deterministicCompactMessages request messages)

/-- What the agent executor is handed for a rewritten transcript. -/
def annotatedResult (lib : TextCodec) (env : CompactorEnvironment) (request : CompactionRequest)
    (messages : List PromptMessage) : ContextCompactionResult :=
  lib.annotateCompactionState { lib.deterministicCompactMessages request messages with
    record := lib.annotatedRecord env request messages }

variable (env) in
/-- The result the annotation starts from, and what it adds. -/
theorem annotatedResult_eq (h : lib.Rewrites request messages) :
    lib.annotatedResult env request messages =
      { messages := modifyFirst isSummary
          (lib.annotateSummary (lib.annotatedRecord env request messages))
          (lib.compactedMessages request messages)
        record := lib.annotatedRecord env request messages
        summary := ((lib.compactedMessages request messages).find? isSummary).elim
          (lib.deterministicCompactMessages request messages).summary fun message => lib.str
            (lib.annotateSummary (lib.annotatedRecord env request messages) message).content } ∧
    (lib.annotatedRecord env request messages).compacted = true ∧
    (lib.annotatedRecord env request messages).reason = some contextHealthThreshold.value := by
  rcases deterministicCompactMessages_spec lib request messages with
    ⟨-, hcompacted, hmessages, -, hreason⟩ | ⟨hkept, -⟩
  · obtain ⟨hflag, hsame⟩ := compactorRecord_spec request env
      (lib.deterministicCompactMessages request messages)
    have hrecord : (lib.annotatedRecord env request messages).compacted = true :=
      hflag.trans hcompacted
    refine ⟨?_, hrecord, hsame.trans hreason⟩
    unfold annotatedResult annotateCompactionState
    rw [if_neg (by simp [hrecord]), hmessages]
  · exact absurd h hkept

/-- **A compaction that rewrites the transcript** annotates the first message that has the
name of a summary, and that message again. -/
theorem compactContext_of_rewrites (h : lib.Rewrites request messages) :
    lib.compactContext env request reason messages =
      { messages := modifyFirst isSummary
          (lib.reannotateSummary (lib.completeRecord request reason
            (lib.annotatedResult env request messages)))
          (modifyFirst isSummary (lib.annotateSummary (lib.annotatedRecord env request messages))
            (lib.compactedMessages request messages))
        record := lib.completeRecord request reason (lib.annotatedResult env request messages)
        summary := (lib.annotatedResult env request messages).summary } := by
  obtain ⟨hresult, hrecord, -⟩ := annotatedResult_eq env h
  have hcompacted : (lib.deterministicCompactMessages request messages).record.compacted = true :=
    (compactorRecord_spec request env _).1.symm.trans hrecord
  have hcompactor : lib.runtimeContextCompactor env request messages =
      lib.annotatedResult env request messages := by
    unfold runtimeContextCompactor
    rw [if_neg (by simp [hcompacted])]
    rfl
  have hflag : (lib.completeRecord request reason
      (lib.annotatedResult env request messages)).compacted = true := by
    show (lib.annotatedResult env request messages).record.compacted = true
    rw [hresult]
    exact hrecord
  unfold compactContext
  rw [hcompactor]
  simp only [hflag, annotateCompactionStateMessages, Bool.not_true, Bool.false_eq_true, if_false,
    if_true]
  rw [hresult]

/-- A compaction reports success exactly if it rewrites the transcript. -/
theorem compactContext_compacted :
    (lib.compactContext env request reason messages).record.compacted = true ↔
      lib.Rewrites request messages := by
  constructor
  · intro h
    by_contra hkept
    have hskipped :
        (lib.deterministicCompactMessages request messages).record.compacted = false := by
      rcases deterministicCompactMessages_spec lib request messages with
        ⟨hrewrites, -⟩ | ⟨-, hskipped, -⟩
      · exact absurd hrewrites hkept
      · exact hskipped
    have hcompactor : lib.runtimeContextCompactor env request messages =
        lib.deterministicCompactMessages request messages := by
      unfold runtimeContextCompactor
      rw [if_pos (by simp [hskipped])]
    have hflag : (lib.runtimeContextCompactor env request messages).record.compacted = true := h
    rw [hcompactor, hskipped] at hflag
    cases hflag
  · intro h
    obtain ⟨hresult, hrecord, -⟩ := annotatedResult_eq env h
    rw [compactContext_of_rewrites h]
    show (lib.annotatedResult env request messages).record.compacted = true
    rw [hresult]
    exact hrecord

/-- The leading system messages of a transcript that has no summary among them. -/
def NoSummaryLeads (messages : List PromptMessage) : Prop :=
  ∀ m ∈ messages.takeWhile (·.role = "system"), isSummary m = false

theorem isSummary_summaryMessage : isSummary (lib.summaryMessage request messages) = true := by
  show decide (some compactionName = some compactionName) = true
  exact decide_eq_true rfl

/-- An annotated message keeps its name. -/
theorem isSummary_annotateSummary (message : PromptMessage) :
    isSummary (lib.annotateSummary record message) = isSummary message := rfl

theorem isSummary_reannotateSummary (message : PromptMessage) :
    isSummary (lib.reannotateSummary record message) = isSummary message := rfl

theorem reannotateSummary_role (message : PromptMessage) :
    (lib.reannotateSummary record message).role = message.role := rfl

theorem annotateSummary_role (message : PromptMessage) :
    (lib.annotateSummary record message).role = message.role := rfl

/-- What is behind the leading system messages of a rewritten transcript and its summary. -/
def remainder (lib : TextCodec) (request : CompactionRequest) (messages : List PromptMessage) :
    List PromptMessage :=
  Removal.without (lib.compactable request messages) (leadingSystemCount messages)
    (messages.drop (leadingSystemCount messages))

theorem compactedMessages_split : lib.compactedMessages request messages =
    messages.takeWhile (·.role = "system") ++ lib.summaryMessage request messages ::
      lib.remainder request messages := by
  rw [compactedMessages_eq, take_leadingSystemCount]
  rfl

variable (record) in
/-- A text without a header gets the record's. -/
theorem annotateSummary_content {message : PromptMessage}
    (h : startsWithState (lib.str message.content) = false) :
    (lib.annotateSummary record message).content =
      .str (headed record (lib.str message.content)) := by
  show Json.str (if startsWithState (lib.str message.content) then _ else _) = _
  rw [h]
  rfl

variable (lib record') in
/-- A header is replaced by the record's. -/
theorem reannotateSummary_content {message : PromptMessage} {content : String}
    (hcontent : message.content = .str (headed record content))
    (h : record.reason = some reason.value) :
    (lib.reannotateSummary record' message).content = .str (headed record' content) := by
  unfold reannotateSummary
  simp only [hcontent, str, startsWithState_headed, if_true, afterBlankLine_headed h]

variable (env reason) in
/-- **A first summary** is the one both annotations find. -/
theorem compactContext_first (h : lib.Rewrites request messages) (hnone : NoSummaryLeads messages) :
    (lib.compactContext env request reason messages).messages =
      messages.takeWhile (·.role = "system") ++
        lib.reannotateSummary (lib.completeRecord request reason
            (lib.annotatedResult env request messages))
          (lib.annotateSummary (lib.annotatedRecord env request messages)
            (lib.summaryMessage request messages)) ::
        lib.remainder request messages ∧
    (lib.compactContext env request reason messages).summary =
      headed (lib.annotatedRecord env request messages)
        (lib.str (lib.summaryMessage request messages).content) := by
  obtain ⟨hresult, -⟩ := annotatedResult_eq env h
  have hagain : isSummary (lib.annotateSummary (lib.annotatedRecord env request messages)
      (lib.summaryMessage request messages)) = true := by
    rw [isSummary_annotateSummary]
    exact isSummary_summaryMessage
  rw [compactContext_of_rewrites h]
  constructor
  · show modifyFirst _ _ (modifyFirst _ _ (lib.compactedMessages request messages)) = _
    rw [compactedMessages_split, modifyFirst_append hnone isSummary_summaryMessage,
      modifyFirst_append hnone hagain]
  · show (lib.annotatedResult env request messages).summary = _
    have hcontent := annotateSummary_content (lib.annotatedRecord env request messages)
      (startsWithState_summary lib request messages)
    rw [hresult, compactedMessages_split, find?_append_cons hnone isSummary_summaryMessage,
      Option.elim_some, hcontent, str]

variable (env reason) in
/-- **A later summary** is not looked at: both annotations find an earlier one. -/
theorem compactContext_later (h : lib.Rewrites request messages)
    (hsome : ¬ NoSummaryLeads messages) :
    ∃ before found after annotated,
      messages.takeWhile (·.role = "system") = before ++ found :: after ∧
      (lib.compactContext env request reason messages).messages =
        before ++ annotated :: (after ++ lib.summaryMessage request messages ::
          lib.remainder request messages) ∧
      annotated.role = found.role ∧ isSummary annotated = true := by
  have hfind : ((messages.takeWhile (·.role = "system")).find? isSummary).isSome = true := by
    rw [List.find?_isSome]
    by_contra hnone
    apply hsome
    intro m hm
    by_contra hsummary
    exact hnone ⟨m, hm, Bool.not_eq_false _ ▸ hsummary⟩
  obtain ⟨found, hfound⟩ := Option.isSome_iff_exists.mp hfind
  obtain ⟨hsummary, before, after, hsplit, hbefore⟩ := List.find?_eq_some_iff_append.mp hfound
  have hbefore : ∀ m ∈ before, isSummary m = false := fun m hm => by simpa using hbefore m hm
  have hagain : isSummary (lib.annotateSummary (lib.annotatedRecord env request messages) found) =
      true := by
    rw [isSummary_annotateSummary]
    exact hsummary
  refine ⟨before, found, after, lib.reannotateSummary
    (lib.completeRecord request reason (lib.annotatedResult env request messages))
    (lib.annotateSummary (lib.annotatedRecord env request messages) found), hsplit, ?_, rfl, hagain⟩
  rw [compactContext_of_rewrites h]
  show modifyFirst _ _ (modifyFirst _ _ (lib.compactedMessages request messages)) = _
  rw [compactedMessages_split, hsplit, append_assoc, cons_append,
    modifyFirst_append hbefore hsummary, modifyFirst_append hbefore hagain]

/-- The summary a compaction has inserted carries the header of its record, and is the text
of its result. -/
def DescribesNewest (lib : TextCodec) (messages : List PromptMessage)
    (result : ContextCompactionResult) : Prop :=
  ∃ summary, result.messages[leadingSystemCount messages]? = some summary ∧
    CarriesHeader result.record summary ∧ lib.str summary.content = result.summary

theorem getElem?_leading {rest : List PromptMessage} {m : PromptMessage} :
    (messages.takeWhile (·.role = "system") ++ m :: rest)[leadingSystemCount messages]? =
      some m := by
  have hlength : (messages.takeWhile (·.role = "system")).length =
      leadingSystemCount messages := rfl
  rw [List.getElem?_append_right (le_of_eq hlength), hlength, Nat.sub_self]
  rfl

/-- The records of the two annotations have the same header exactly if the agent executor
keeps the compactor's reason. -/
theorem headed_eq_iff (h : lib.Rewrites request messages) (content : String) :
    headed (lib.completeRecord request reason (lib.annotatedResult env request messages)) content =
        headed (lib.annotatedRecord env request messages) content ↔
      reason = .contextHealthThreshold := by
  obtain ⟨hresult, -, hreason⟩ := annotatedResult_eq env h
  have hrecord : (lib.annotatedResult env request messages).record =
      lib.annotatedRecord env request messages := by rw [hresult]
  have hreason' : (lib.annotatedResult env request messages).record.reason =
      some contextHealthThreshold.value := by rw [hrecord, hreason]
  constructor
  · intro heq
    rcases reason with - | error | budget
    · rfl
    · refine absurd heq (headed_ne (completeRecord_reason hreason') hreason ?_ _ _)
      show ("context_length_error" : String).toList.take 9 ≠
        ("context_health_threshold" : String).toList.take 9
      decide
    · refine absurd heq (headed_ne (completeRecord_reason hreason') hreason ?_ _ _)
      show ("budget_exceeded" : String).toList.take 9 ≠
        ("context_health_threshold" : String).toList.take 9
      decide
  · rintro rfl
    unfold headed
    rw [stateBlock_completeRecord hreason', hrecord]

variable (env reason) in
/-- **One compaction describes its summary** exactly if there was none before it and the
agent executor keeps the reason. -/
theorem describesNewest_iff (h : lib.Rewrites request messages) :
    lib.DescribesNewest messages (lib.compactContext env request reason messages) ↔
      NoSummaryLeads messages ∧ reason = .contextHealthThreshold := by
  obtain ⟨-, -, hreason⟩ := annotatedResult_eq env h
  have hrecord : (lib.compactContext env request reason messages).record =
      lib.completeRecord request reason (lib.annotatedResult env request messages) := by
    rw [compactContext_of_rewrites h]
  have hfresh := startsWithState_summary lib request messages
  unfold DescribesNewest
  rw [hrecord]
  by_cases hnone : NoSummaryLeads messages
  · obtain ⟨hmessages, hsummary⟩ := compactContext_first env reason h hnone
    have hcontent := reannotateSummary_content lib
      (lib.completeRecord request reason (lib.annotatedResult env request messages))
      (annotateSummary_content (lib.annotatedRecord env request messages) hfresh) hreason
    rw [hmessages, hsummary, getElem?_leading, and_iff_right hnone, ← headed_eq_iff h]
    constructor
    · rintro ⟨summary, hat, -, htext⟩
      rw [← Option.some.inj hat, hcontent, str] at htext
      exact htext
    · intro heq
      exact ⟨_, rfl, ⟨_, hcontent⟩, by rw [hcontent, str, heq]⟩
  · refine iff_of_false ?_ fun hboth => hnone hboth.1
    rintro ⟨summary, hat, ⟨body, hbody⟩, -⟩
    obtain ⟨before, found, after, annotated, hsplit, hmessages, -⟩ :=
      compactContext_later env reason h hnone
    have hlength : leadingSystemCount messages = (before ++ annotated :: after).length := by
      unfold leadingSystemCount
      rw [hsplit, length_append, length_append, length_cons, length_cons]
    have hmessages' : (lib.compactContext env request reason messages).messages =
        (before ++ annotated :: after) ++ lib.summaryMessage request messages ::
          lib.remainder request messages := by
      rw [hmessages, append_assoc, cons_append]
    rw [hmessages', hlength, List.getElem?_append_right le_rfl, Nat.sub_self,
      List.getElem?_cons_zero] at hat
    rw [Option.some.inj hat, hbody, str, startsWithState_headed] at hfresh
    cases hfresh

/-- A rewritten transcript has a summary among its leading system messages, whatever is
appended to it. -/
theorem not_noSummaryLeads (h : lib.Rewrites request messages) (growth : List PromptMessage) :
    ¬ NoSummaryLeads ((lib.compactContext env request reason messages).messages ++ growth) := by
  have hleads : ∀ m ∈ messages.takeWhile (·.role = "system"), m.role = "system" :=
    fun m hm => by simpa using mem_takeWhile_imp hm
  have hsystem : ∀ {before rest : List PromptMessage} {m : PromptMessage},
      (∀ x ∈ before, x.role = "system") → m.role = "system" → isSummary m = true →
      ¬ NoSummaryLeads ((before ++ m :: rest) ++ growth) := by
    intro before rest m hbefore hrole hsummary hnone
    have hmem : m ∈ ((before ++ m :: rest) ++ growth).takeWhile (·.role = "system") := by
      rw [append_assoc, takeWhile_append_of_pos (by simpa using hbefore),
        cons_append, takeWhile_cons_of_pos (by simpa using hrole)]
      exact mem_append_right _ mem_cons_self
    rw [hnone m hmem] at hsummary
    cases hsummary
  by_cases hnone : NoSummaryLeads messages
  · rw [(compactContext_first _ _ h hnone).1]
    apply hsystem hleads
    · rw [reannotateSummary_role, annotateSummary_role]
      rfl
    · rw [isSummary_reannotateSummary, isSummary_annotateSummary]
      exact isSummary_summaryMessage
  · obtain ⟨before, found, after, annotated, hsplit, hmessages, hrole, hsummary⟩ :=
      compactContext_later env reason h hnone
    rw [hsplit] at hleads
    rw [hmessages]
    apply hsystem
    · exact fun x hx => hleads x (mem_append_left _ hx)
    · rw [hrole]
      exact hleads found (by simp)
    · exact hsummary

/-! ### Repeated compaction -/

/-- A step of a task: messages are appended to the transcript, and it is compacted. -/
structure CompactionStep where
  growth : List PromptMessage
  env : CompactorEnvironment
  request : CompactionRequest
  reason : CompactionReason

/-- The transcript behind the steps of a task. -/
def transcriptAfter (lib : TextCodec) (steps : List CompactionStep) : List PromptMessage :=
  steps.foldl (fun transcript step =>
    (lib.compactContext step.env step.request step.reason (transcript ++ step.growth)).messages) []

/-- The transcript a step compacts. -/
def transcriptAt (lib : TextCodec) (before : List CompactionStep) (step : CompactionStep) :
    List PromptMessage := lib.transcriptAfter before ++ step.growth

/-- What comes out of its compaction. -/
def resultAt (lib : TextCodec) (before : List CompactionStep) (step : CompactionStep) :
    ContextCompactionResult :=
  lib.compactContext step.env step.request step.reason (lib.transcriptAt before step)

/-- A step starts from what the one before it has left. -/
theorem transcriptAt_append (before : List CompactionStep) {first second : CompactionStep} :
    lib.transcriptAt (before ++ [first]) second =
      (lib.resultAt before first).messages ++ second.growth := by
  unfold transcriptAt transcriptAfter
  rw [foldl_append]
  rfl

theorem resultAt_compacted {before : List CompactionStep} {step : CompactionStep} :
    (lib.resultAt before step).record.compacted = true ↔
      lib.Rewrites step.request (lib.transcriptAt before step) :=
  compactContext_compacted

/-- Every compaction of the task is successful. -/
def AllSucceed (lib : TextCodec) : List CompactionStep → Prop :=
  EveryInput fun before step => (lib.resultAt before step).record.compacted = true

/-- After a step the summary it has inserted carries its record, as do those inserted by the
steps before it. -/
structure HeadersDescribe (lib : TextCodec) (before : List CompactionStep) (step : CompactionStep) :
    Prop where
  newest : lib.DescribesNewest (lib.transcriptAt before step) (lib.resultAt before step)
  earlier : ∀ front earlier rest, before = front ++ earlier :: rest →
    ∃ summary, (lib.resultAt before step).messages[
        leadingSystemCount (lib.transcriptAt front earlier)]? = some summary ∧
      CarriesHeader (lib.resultAt front earlier).record summary

/-- **Repeated compaction** describes every newest summary exactly in a task with at most one
compaction, of a transcript that no summary leads, made because of its context health. -/
theorem headersDescribe_iff (lib : TextCodec) (steps : List CompactionStep)
    (h : lib.AllSucceed steps) :
    EveryInput lib.HeadersDescribe steps ↔
      steps.length ≤ 1 ∧ ∀ step ∈ steps,
        NoSummaryLeads step.growth ∧ step.reason = .contextHealthThreshold := by
  match steps with
  | [] =>
    have hnone : ∀ step : CompactionStep, step ∉ [] := fun _ => not_mem_nil
    exact iff_of_true everyInput_nil ⟨Nat.zero_le _, fun step h => absurd h (hnone step)⟩
  | [step] =>
    have hsuccess : (lib.resultAt [] step).record.compacted = true := h [] step [] rfl
    have hrewrites := resultAt_compacted.mp hsuccess
    have hone := describesNewest_iff step.env step.reason hrewrites
    have hstart : lib.transcriptAt [] step = step.growth := rfl
    constructor
    · intro hall
      refine ⟨le_rfl, fun s hs => ?_⟩
      have hcond := hone.mp (hall [] step [] rfl).newest
      rw [hstart] at hcond
      rw [List.mem_singleton.mp hs]
      exact hcond
    · rintro ⟨-, hcond⟩
      have hnewest := hcond step mem_cons_self
      rw [← hstart] at hnewest
      refine everyInput_singleton.mpr ⟨hone.mpr hnewest, ?_⟩
      intro front earlier rest hsplit
      cases front <;> cases hsplit
  | first :: second :: rest =>
    refine iff_of_false (fun hall => ?_) fun hcond => by simp at hcond
    have hfirst : lib.Rewrites first.request (lib.transcriptAt [] first) :=
      resultAt_compacted.mp (h [] first (second :: rest) rfl)
    have hsecond : lib.Rewrites second.request (lib.transcriptAt [first] second) :=
      resultAt_compacted.mp (h [first] second rest rfl)
    have hnewest := (hall [first] second rest rfl).newest
    obtain ⟨hnone, -⟩ := (describesNewest_iff _ _ hsecond).mp hnewest
    have hstart : lib.transcriptAt [first] second =
        (lib.resultAt [] first).messages ++ second.growth := transcriptAt_append []
    rw [hstart] at hnone
    exact not_noSummaryLeads hfirst second.growth hnone

section Sample

variable {dumps repr : Json → String}

/-- The assistant answers, and the transcript is compacted. -/
def answerStep : CompactionStep where
  growth := [note "assistant"]
  env := { createMemory := .ok 7 }
  request := plainRequest (demandNothing 0)
  reason := .contextHealthThreshold

theorem rewrites_answer (transcript : List PromptMessage) :
    (plainCodec dumps repr).Rewrites answerStep.request (transcript ++ answerStep.growth) := by
  have hat : (transcript ++ answerStep.growth)[transcript.length]? = some (note "assistant") :=
    List.getElem?_concat_length
  have hfree : (plainCodec dumps repr).isProtected (note "assistant") = false := by
    unfold isProtected
    rw [protectedMessageReason_note (.inl rfl)]
    rfl
  exact ⟨rfl, ne_nil_of_mem (mem_compactable rfl hat (.inl rfl) hfree), Nat.zero_le _⟩

variable (dumps repr) in
theorem answerStep_succeeds (before : List CompactionStep) :
    ((plainCodec dumps repr).resultAt before answerStep).record.compacted = true :=
  resultAt_compacted.mpr (rewrites_answer _)

/-- A single compaction of a transcript without a summary. -/
theorem headers_after_one_answer : ∃ step : CompactionStep, ∀ dumps repr : Json → String,
    EveryInput (plainCodec dumps repr).HeadersDescribe [step] := by
  refine ⟨answerStep, fun dumps repr => ?_⟩
  have hsuccess : (plainCodec dumps repr).AllSucceed [answerStep] :=
    everyInput_singleton.mpr (answerStep_succeeds dumps repr [])
  apply (headersDescribe_iff _ _ hsuccess).mpr
  refine ⟨le_rfl, fun step hstep => ?_⟩
  rw [List.mem_singleton.mp hstep]
  refine ⟨fun m hm => ?_, rfl⟩
  cases hm

/-- The second compaction leaves its summary without a header. -/
theorem second_summary_unheaded : ∃ steps : List CompactionStep, ∀ dumps repr : Json → String,
    (plainCodec dumps repr).AllSucceed steps ∧
      ¬ EveryInput (plainCodec dumps repr).HeadersDescribe steps := by
  refine ⟨[answerStep, answerStep], fun dumps repr => ?_⟩
  have hone : (plainCodec dumps repr).AllSucceed [answerStep] :=
    everyInput_singleton.mpr (answerStep_succeeds dumps repr [])
  have htwo : (plainCodec dumps repr).AllSucceed ([answerStep] ++ [answerStep]) :=
    everyInput_append.mpr ⟨hone, answerStep_succeeds dumps repr [answerStep]⟩
  refine ⟨htwo, fun hall => ?_⟩
  have hfirst := resultAt_compacted.mp (answerStep_succeeds dumps repr [])
  have hsecond := resultAt_compacted.mp (answerStep_succeeds dumps repr [answerStep])
  obtain ⟨hnone, -⟩ := (describesNewest_iff _ _ hsecond).mp (hall [answerStep] answerStep [] rfl).newest
  have hstart : (plainCodec dumps repr).transcriptAt [answerStep] answerStep =
      ((plainCodec dumps repr).resultAt [] answerStep).messages ++ answerStep.growth :=
    transcriptAt_append []
  rw [hstart] at hnone
  exact not_noSummaryLeads hfirst answerStep.growth hnone

end Sample

end TextCodec

end OpenAgency
