/-
CompactionSafety.lean

What a compaction does to a transcript.  It takes out messages one by one, by their role,
age, size and protection:

    before:  leading systems ++                     rest
    after:   leading systems ++ [summary] ++ rest without the compactable messages

so the estimate of the prompt changes by the cost of the summary against that of the
messages taken out, and a tool call is kept together with its result only if both stay or
both go.
-/
import OpenAgency.Compaction

namespace OpenAgency

open Interaction Removal List

namespace TextCodec

variable {lib : TextCodec} {request : CompactionRequest} {messages : List PromptMessage}
  {config : Dict Json}

/-- The runtime finds a reason to protect the message. -/
def isProtected (lib : TextCodec) (message : PromptMessage) : Bool :=
  (orElseString (lib.protectedMessageReason message) none).isSome

/-- The positions a compaction of the transcript takes out. -/
def compactable (lib : TextCodec) (request : CompactionRequest) (messages : List PromptMessage) :
    ℕ → Bool :=
  (lib.compactableMessageIndices messages (governanceConfig request.workflow)).contains

/-! ### The compactable messages -/

theorem isProtected_of_role {message : PromptMessage}
    (h : message.role = "system" ∨ message.role = "user") : lib.isProtected message = true := by
  have hreason : lib.protectedMessageReason message = some s!"{message.role}_message" := by
    unfold protectedMessageReason
    exact if_pos h
  unfold isProtected
  rw [hreason]
  rcases h with hrole | hrole <;> rw [hrole] <;> decide

variable {m : PromptMessage} {i : ℕ}

theorem mem_protectedMessageIndices (hat : messages[i]? = some m) :
    i ∈ (lib.protectedMessageIndices messages).map Prod.fst ↔ lib.isProtected m = true := by
  unfold isProtected
  constructor
  · intro h
    obtain ⟨⟨j, reason⟩, hmem, rfl⟩ := List.mem_map.mp h
    obtain ⟨⟨m', k⟩, hlisted, hreason⟩ := List.mem_filterMap.mp hmem
    obtain ⟨found, hfound, hpair⟩ := Option.map_eq_some_iff.mp hreason
    cases hpair
    rw [mk_mem_zipIdx_iff_getElem?.mp hlisted] at hat
    cases hat
    rw [hfound]
    rfl
  · intro h
    obtain ⟨reason, hreason⟩ := Option.isSome_iff_exists.mp h
    apply mem_map_of_mem (f := Prod.fst) (a := (i, reason))
    apply List.mem_filterMap.mpr
    exact ⟨(m, i), mk_mem_zipIdx_iff_getElem?.mpr hat, by rw [hreason]; rfl⟩

/-- A compactable message is an unprotected one of the assistant or of a tool. -/
theorem exists_of_mem_compactable (h : i ∈ lib.compactableMessageIndices messages config) :
    ∃ m, messages[i]? = some m ∧ (m.role = "assistant" ∨ m.role = "tool") ∧
      lib.isProtected m = false := by
  unfold compactableMessageIndices at h
  obtain ⟨⟨m, j⟩, hmem, rfl⟩ := List.mem_map.mp h
  obtain ⟨hcandidate, hkeep⟩ := List.mem_filter.mp hmem
  obtain ⟨hat, hrole⟩ := List.mem_filter.mp hcandidate
  have hat : messages[j]? = some m := mk_mem_zipIdx_iff_getElem?.mp hat
  refine ⟨m, hat, by simpa using hrole, ?_⟩
  obtain ⟨hfree, -⟩ := Bool.and_eq_true_iff.mp hkeep
  by_contra hprotected
  have hlisted := (mem_protectedMessageIndices hat).mpr (Bool.not_eq_false _ ▸ hprotected)
  simp [hlisted] at hfree

/-- Where no recent message is preserved, every unprotected one is compactable. -/
theorem mem_compactable (hnone : intConfig config "preserve_recent_messages" 1 0 (some 10) = 0)
    (hat : messages[i]? = some m) (hrole : m.role = "assistant" ∨ m.role = "tool")
    (hfree : lib.isProtected m = false) : i ∈ lib.compactableMessageIndices messages config := by
  have hunlisted : i ∉ (lib.protectedMessageIndices messages).map Prod.fst := by
    rw [mem_protectedMessageIndices hat, hfree]
    exact Bool.false_ne_true
  unfold compactableMessageIndices
  apply mem_map_of_mem (f := Prod.snd) (a := (m, i))
  apply List.mem_filter.mpr
  refine ⟨List.mem_filter.mpr ⟨mk_mem_zipIdx_iff_getElem?.mpr hat, by simpa using hrole⟩, ?_⟩
  rw [hnone, Nat.sub_zero, drop_length]
  simp [hunlisted]

/-- A protected message stays where it is. -/
theorem compactable_eq_false (hat : messages[i]? = some m) (h : lib.isProtected m = true) :
    lib.compactable request messages i = false := by
  by_contra hgone
  have hmem := List.contains_iff_mem.mp (Bool.not_eq_false _ ▸ hgone)
  obtain ⟨m', hat', -, hfree⟩ := exists_of_mem_compactable hmem
  rw [hat] at hat'
  cases hat'
  rw [h] at hfree
  cases hfree

theorem take_leadingSystemCount : messages.take (leadingSystemCount messages) =
    messages.takeWhile fun m => m.role = "system" := by
  exact (List.prefix_iff_eq_take.mp (List.takeWhile_prefix _)).symm

/-- The leading system messages are not compactable. -/
theorem compactable_leading (h : i < leadingSystemCount messages) :
    lib.compactable request messages i = false := by
  have hlength : i < (messages.takeWhile fun m => m.role = "system").length := h
  have hprefix := List.takeWhile_prefix (fun m : PromptMessage => m.role = "system") (l := messages)
  have hat : messages[i]? = some (messages.takeWhile fun m => m.role = "system")[i] :=
    (List.getElem?_eq_getElem (hlength.trans_le hprefix.length_le)).trans
      (congrArg some (List.IsPrefix.getElem hprefix hlength).symm)
  apply compactable_eq_false hat
  apply isProtected_of_role
  left
  simpa using mem_takeWhile_imp (getElem_mem hlength)

/-- **What a compaction leaves** of a transcript, in two parts: the leading system messages,
and what follows them. -/
theorem without_compactable :
    without (lib.compactable request messages) 0 messages =
      messages.take (leadingSystemCount messages) ++
        without (lib.compactable request messages) (leadingSystemCount messages)
          (messages.drop (leadingSystemCount messages)) := by
  have hle : leadingSystemCount messages ≤ messages.length := (List.takeWhile_prefix _).length_le
  have hlength : (messages.take (leadingSystemCount messages)).length =
      leadingSystemCount messages := by
    rw [length_take]
    exact Nat.min_eq_left hle
  have hsplit := without_append (lib.compactable request messages) 0
    (messages.take (leadingSystemCount messages)) (messages.drop (leadingSystemCount messages))
  rw [take_append_drop, hlength, Nat.zero_add] at hsplit
  rw [hsplit]
  congr 1
  apply without_eq_self
  intro i hi
  rw [hlength] at hi
  rw [Nat.zero_add]
  exact compactable_leading hi

theorem compactedMessages_eq :
    lib.compactedMessages request messages =
      messages.take (leadingSystemCount messages) ++ lib.summaryMessage request messages ::
        without (lib.compactable request messages) (leadingSystemCount messages)
          (messages.drop (leadingSystemCount messages)) := rfl

theorem mem_compactedMessages :
    m ∈ lib.compactedMessages request messages ↔
      m = lib.summaryMessage request messages ∨
        m ∈ without (lib.compactable request messages) 0 messages := by
  rw [compactedMessages_eq, without_compactable]
  simp only [mem_append, mem_cons]
  exact or_left_comm

/-! ### Savings -/

theorem estimateModelMessagesTokens_of_ne_nil (h : messages ≠ []) :
    lib.estimateModelMessagesTokens messages = 2 + (messages.map lib.messageCost).sum := by
  cases messages with
  | nil => exact absurd rfl h
  | cons m rest => rfl

/-- What the messages taken out cost. -/
def removedCost (lib : TextCodec) (request : CompactionRequest) (messages : List PromptMessage) :
    ℕ :=
  ((removed (lib.compactable request messages) 0 messages).map lib.messageCost).sum

variable (lib request) in
/-- **The estimate after a compaction** is the one before, with the summary in exchange for
the messages taken out. -/
theorem estimate_compactedMessages (h : messages ≠ []) :
    lib.estimateModelMessagesTokens (lib.compactedMessages request messages) +
        lib.removedCost request messages =
      lib.estimateModelMessagesTokens messages +
        lib.messageCost (lib.summaryMessage request messages) := by
  have hne : lib.compactedMessages request messages ≠ [] :=
    ne_nil_of_mem (mem_compactedMessages.mpr (.inl rfl))
  have hsum := sum_without_add_removed (lib.compactable request messages) lib.messageCost 0 messages
  rw [without_compactable] at hsum
  rw [estimateModelMessagesTokens_of_ne_nil hne, estimateModelMessagesTokens_of_ne_nil h,
    compactedMessages_eq]
  simp only [map_append, map_cons, sum_append, sum_cons] at hsum ⊢
  unfold removedCost
  omega

variable (lib request messages) in
/-- A summary message costs at least its overhead and its name. -/
theorem summaryMessage_cost : 5 ≤ lib.messageCost (lib.summaryMessage request messages) := by
  have hnamed : (orElseString (lib.summaryMessage request messages).name none).isSome = true := by
    show (orElseString (some compactionName) none).isSome = true
    decide
  unfold messageCost
  rw [hnamed]
  show 5 ≤ 4 + 1 + _ + _
  omega

/-! ### When a transcript is rewritten -/

/-- The compaction is enabled, there is something to take out, and it saves as much as the
configuration demands. -/
structure Rewrites (lib : TextCodec) (request : CompactionRequest)
    (messages : List PromptMessage) : Prop where
  enabled : compactionEnabled (governanceConfig request.workflow) = true
  compactable : lib.compactableMessageIndices messages (governanceConfig request.workflow) ≠ []
  saves : minEstimatedTokensSaved (governanceConfig request.workflow) ≤
    lib.removedCost request messages - lib.messageCost (lib.summaryMessage request messages)

theorem ne_nil_of_compactable
    (h : lib.compactableMessageIndices messages config ≠ []) : messages ≠ [] := by
  obtain ⟨i, hi⟩ := exists_mem_of_ne_nil _ h
  obtain ⟨m, hat, -⟩ := exists_of_mem_compactable hi
  rintro rfl
  simp at hat

variable (lib request messages) in
/-- **`deterministic_compact_messages`** rewrites the transcript exactly then, and otherwise
returns the one it was given. -/
theorem deterministicCompactMessages_spec :
    (lib.Rewrites request messages ∧
      (lib.deterministicCompactMessages request messages).record.compacted = true ∧
      (lib.deterministicCompactMessages request messages).messages =
        lib.compactedMessages request messages ∧
      (lib.deterministicCompactMessages request messages).record.estimatedTokensSaved =
        lib.removedCost request messages - lib.messageCost (lib.summaryMessage request messages) ∧
      (lib.deterministicCompactMessages request messages).record.reason =
        some CompactionReason.contextHealthThreshold.value) ∨
    (¬ lib.Rewrites request messages ∧
      (lib.deterministicCompactMessages request messages).record.compacted = false ∧
      (lib.deterministicCompactMessages request messages).messages = messages) := by
  cases henabled : compactionEnabled (governanceConfig request.workflow) with
  | false =>
    simp only [deterministicCompactMessages, henabled, Bool.not_false, if_true]
    exact .inr ⟨fun h => by simp [h.enabled] at henabled, trivial, trivial⟩
  | true =>
    by_cases hnone : lib.compactableMessageIndices messages (governanceConfig request.workflow) = []
    · simp only [deterministicCompactMessages, henabled, Bool.not_true, Bool.false_eq_true,
        if_false, hnone, isEmpty_nil, if_true]
      exact .inr ⟨fun h => h.compactable hnone, trivial, trivial⟩
    · have hestimate := estimate_compactedMessages lib request (ne_nil_of_compactable hnone)
      have hsaved : lib.estimateModelMessagesTokens messages -
            lib.estimateModelMessagesTokens (lib.compactedMessages request messages) =
          lib.removedCost request messages -
            lib.messageCost (lib.summaryMessage request messages) := by omega
      have hsome : (lib.compactableMessageIndices messages
          (governanceConfig request.workflow)).isEmpty = false := by simpa using hnone
      simp only [deterministicCompactMessages, henabled, Bool.not_true, Bool.false_eq_true,
        if_false, hsome, hsaved]
      by_cases hless : lib.removedCost request messages -
          lib.messageCost (lib.summaryMessage request messages) <
          minEstimatedTokensSaved (governanceConfig request.workflow)
      · rw [if_pos hless]
        exact .inr ⟨fun h => absurd h.saves (not_le.mpr hless), rfl, rfl⟩
      · rw [if_neg hless]
        exact .inl ⟨⟨henabled, hnone, not_lt.mp hless⟩, rfl, rfl, rfl, rfl⟩

/-! ### A small transcript -/

section Sample

variable {dumps repr : Json → String}

/-- A codec for lower-case text that is no JSON document. -/
def plainCodec (dumps repr : Json → String) : TextCodec := ⟨dumps, fun _ => none, repr, id⟩

/-- A request under the configuration. -/
def plainRequest (config : Dict Json) : CompactionRequest where
  workflow := {
    id := "report"
    name := "report"
    metadata := [("context_compaction", .obj config)] }
  task := { id := "report", name := "report", description := "report" }
  agent := { id := "agent", name := "agent" }
  profile := { id := "profile" }
  state := { executionId := 0, workflowId := "report" }
  contextHealth := ⟨0, none, none, "unknown"⟩
  sourceModelRequestId := 0

def note (role : String) (toolCallId : Option String := none)
    (toolCalls : List ModelToolCall := []) : PromptMessage :=
  { role, content := .str "ok", toolCallId, toolCalls }

/-- The user asks, the assistant answers, makes a call and reads its result. -/
def smallTranscript : List PromptMessage :=
  [note "user", note "assistant", note "assistant" none [⟨"c1", "search", .obj []⟩],
    note "tool" (some "c1")]

/-- No saving is demanded, and some of the latest messages are preserved. -/
def demandNothing (recent : ℕ) : Dict Json :=
  [("min_estimated_tokens_saved", .num 0), ("preserve_recent_messages", .num recent)]

theorem protectedMessageReason_note {role : String} {toolCallId : Option String}
    {toolCalls : List ModelToolCall} (hrole : role = "assistant" ∨ role = "tool") :
    (plainCodec dumps repr).protectedMessageReason (note role toolCallId toolCalls) = none := by
  have hpending : ["pending approval", "approval required", "waiting for approval"].any
      (isIn · "ok") = false := by decide +kernel
  have herror : ["tool failed", "tool error", "traceback", "exception"].any
      (isIn · "ok") = false := by decide +kernel
  have hlower : (plainCodec dumps repr).lower "ok" = "ok" := rfl
  have htext : (plainCodec dumps repr).contentReason (.str "ok") = none := by
    simp only [contentReason, textContainsAny, hlower, hpending, herror]
    rfl
  have hother : ¬ ((note role toolCallId toolCalls).role = "system" ∨
      (note role toolCallId toolCalls).role = "user") := by
    show ¬ (role = "system" ∨ role = "user")
    rcases hrole with rfl | rfl <;> decide
  have hcontent : (note role toolCallId toolCalls).content = .str "ok" := rfl
  unfold protectedMessageReason
  rw [if_neg hother, hcontent, htext]
  rfl

theorem estimateTextTokens_note : (plainCodec dumps repr).estimateTextTokens (.str "ok") ≤ 1 := by
  have htext : (plainCodec dumps repr).text (.str "ok") = "ok" := rfl
  have hlength : max 1 ("ok".length / 4) = 1 := by decide
  unfold estimateTextTokens
  rw [htext, hlength]
  split <;> omega

theorem compactable_smallTranscript {recent : ℕ} (h : recent = 1 ∨ recent = 2) :
    (plainCodec dumps repr).compactableMessageIndices smallTranscript (demandNothing recent) =
      if recent = 1 then [1, 2] else [1] := by
  have hprotected : ((plainCodec dumps repr).protectedMessageIndices smallTranscript).map Prod.fst =
      [0] := by
    simp only [protectedMessageIndices, smallTranscript, zipIdx_cons, zipIdx_nil,
      filterMap_cons, filterMap_nil, protectedMessageReason_note (.inl rfl),
      protectedMessageReason_note (.inr rfl), orElseString]
    rfl
  have hsize : ∀ role toolCallId toolCalls, decide (600 ≤ (plainCodec dumps repr).messageTokenCount
      (note role toolCallId toolCalls)) = false := by
    intro role toolCallId toolCalls
    have hcount : (plainCodec dumps repr).messageTokenCount (note role toolCallId toolCalls) ≤ 7 :=
      Nat.add_le_add_right estimateTextTokens_note 6
    rw [decide_eq_false_iff_not]
    omega
  have hthreshold : intConfig (demandNothing recent) "oversized_message_tokens" 600 50 = 600 := rfl
  have hcandidates : assistantOrTool smallTranscript = [(note "assistant", 1),
      (note "assistant" none [⟨"c1", "search", .obj []⟩], 2), (note "tool" (some "c1"), 3)] := rfl
  simp only [compactableMessageIndices, hprotected, hthreshold, hcandidates, filter_cons,
    filter_nil, hsize]
  rcases h with rfl | rfl <;> rfl

end Sample

/-! ### Protected context and savings -/

/-- A compaction that rewrites the transcript takes out exactly the compactable messages, puts
the summary behind the leading system messages, keeps every protected message, and saves what
it reports, which is what the configuration demands; any other returns the transcript. -/
structure PreservesAndSaves (lib : TextCodec) (request : CompactionRequest)
    (messages : List PromptMessage) (result : ContextCompactionResult) : Prop where
  unchanged : result.record.compacted = false → result.messages = messages
  rewritten : result.record.compacted = true → ∃ summary rest,
    summary.role = "system" ∧ summary.name = some compactionName ∧
    result.messages = messages.takeWhile (·.role = "system") ++ summary :: rest ∧
    messages.takeWhile (·.role = "system") ++ rest =
      without (lib.compactable request messages) 0 messages
  takesOut : result.record.compacted = true →
    ∀ m ∈ removed (lib.compactable request messages) 0 messages,
      (m.role = "assistant" ∨ m.role = "tool") ∧ lib.isProtected m = false
  keeps : result.record.compacted = true →
    (messages.filter fun m => m.role = "system" || m.role = "user" || lib.isProtected m).Sublist
      result.messages
  saves : result.record.compacted = true →
    lib.estimateModelMessagesTokens result.messages < lib.estimateModelMessagesTokens messages ∧
    lib.estimateModelMessagesTokens messages =
      lib.estimateModelMessagesTokens result.messages + result.record.estimatedTokensSaved ∧
    minEstimatedTokensSaved (governanceConfig request.workflow) ≤ result.record.estimatedTokensSaved

/-- No saving is demanded, and the summary costs at least what is taken out. -/
structure RewritesAtALoss (lib : TextCodec) (request : CompactionRequest)
    (messages : List PromptMessage) : Prop where
  enabled : compactionEnabled (governanceConfig request.workflow) = true
  compactable : lib.compactableMessageIndices messages (governanceConfig request.workflow) ≠ []
  demandsNothing : minEstimatedTokensSaved (governanceConfig request.workflow) = 0
  loses : lib.removedCost request messages ≤ lib.messageCost (lib.summaryMessage request messages)

theorem removed_role (h : m ∈ removed (lib.compactable request messages) 0 messages) :
    (m.role = "assistant" ∨ m.role = "tool") ∧ lib.isProtected m = false := by
  obtain ⟨i, hat, hgone⟩ := mem_removed.mp h
  rw [Nat.zero_add] at hgone
  obtain ⟨m', hat', hrole, hfree⟩ := exists_of_mem_compactable (List.contains_iff_mem.mp hgone)
  rw [hat] at hat'
  cases hat'
  exact ⟨hrole, hfree⟩

/-- The system, user and protected messages are all kept, in their order. -/
theorem kept_sublist :
    (messages.filter fun m => m.role = "system" || m.role = "user" || lib.isProtected m).Sublist
      (lib.compactedMessages request messages) := by
  have hstays : ∀ i m, messages[i]? = some m →
      (m.role = "system" || m.role = "user" || lib.isProtected m) = true →
      lib.compactable request messages (0 + i) = false := by
    intro i m hat hkept
    rw [Nat.zero_add]
    apply compactable_eq_false hat
    simp only [Bool.or_eq_true, decide_eq_true_eq] at hkept
    rcases hkept with hrole | hprotected
    · exact isProtected_of_role hrole
    · exact hprotected
  have hkept := filter_sublist_without hstays
  rw [without_compactable] at hkept
  rw [compactedMessages_eq]
  exact hkept.trans ((List.Sublist.refl _).append (sublist_cons_self _ _))

/-- **Compaction preserves and saves** unless it rewrites the transcript at a loss. -/
theorem preservesAndSaves_iff (lib : TextCodec) (request : CompactionRequest)
    (messages : List PromptMessage) :
    lib.PreservesAndSaves request messages (lib.deterministicCompactMessages request messages) ↔
      ¬ lib.RewritesAtALoss request messages := by
  rcases deterministicCompactMessages_spec lib request messages with
    ⟨hrewrites, hcompacted, hmessages, hsaved, -⟩ | ⟨hkept, hcompacted, hmessages⟩
  · have hestimate := estimate_compactedMessages lib request
      (ne_nil_of_compactable hrewrites.compactable)
    have hdemand := hrewrites.saves
    constructor
    · intro h hloss
      obtain ⟨hless, -⟩ := h.saves hcompacted
      rw [hmessages] at hless
      have hcost := hloss.loses
      omega
    · intro h
      have hgain : lib.messageCost (lib.summaryMessage request messages) <
          lib.removedCost request messages := by
        by_contra hloss
        apply h
        exact ⟨hrewrites.enabled, hrewrites.compactable, by omega, not_lt.mp hloss⟩
      refine ⟨fun hfalse => ?_, fun _ => ?_, fun _ m hm => removed_role hm, fun _ => ?_,
        fun _ => ?_⟩
      · rw [hcompacted] at hfalse
        cases hfalse
      · refine ⟨lib.summaryMessage request messages,
          without (lib.compactable request messages) (leadingSystemCount messages)
            (messages.drop (leadingSystemCount messages)), rfl, rfl, ?_, ?_⟩
        · rw [hmessages, compactedMessages_eq, take_leadingSystemCount]
        · rw [without_compactable, take_leadingSystemCount]
      · rw [hmessages]
        exact kept_sublist
      · rw [hmessages, hsaved]
        omega
  · have hfalse : ∀ {P : Prop},
        (lib.deterministicCompactMessages request messages).record.compacted = true → P := by
      intro P htrue
      rw [hcompacted] at htrue
      cases htrue
    constructor
    · intro _ hloss
      apply hkept
      exact ⟨hloss.enabled, hloss.compactable, by rw [hloss.demandsNothing]; exact Nat.zero_le _⟩
    · intro _
      exact ⟨fun _ => hmessages, hfalse, hfalse, hfalse, hfalse⟩

/-- The small transcript is rewritten if no saving is demanded, and the summary then costs
more than the two messages it replaces. -/
theorem summary_at_a_loss :
    ∃ (request : CompactionRequest) (messages : List PromptMessage),
      ∀ dumps repr : Json → String, ¬ (plainCodec dumps repr).PreservesAndSaves request messages
        ((plainCodec dumps repr).deterministicCompactMessages request messages) := by
  refine ⟨plainRequest (demandNothing 2), smallTranscript, fun dumps repr h => ?_⟩
  have hindices : (plainCodec dumps repr).compactableMessageIndices smallTranscript
      (governanceConfig (plainRequest (demandNothing 2)).workflow) = [1] :=
    compactable_smallTranscript (.inr rfl)
  have hremoved : (plainCodec dumps repr).removedCost (plainRequest (demandNothing 2))
      smallTranscript = (plainCodec dumps repr).messageCost (note "assistant") := by
    unfold removedCost compactable
    rw [hindices]
    exact Nat.add_zero _
  have hcost : (plainCodec dumps repr).messageCost (note "assistant") ≤ 5 :=
    Nat.add_le_add_left estimateTextTokens_note 4
  have hsummary := summaryMessage_cost (plainCodec dumps repr)
    (plainRequest (demandNothing 2)) smallTranscript
  have hnonempty : smallTranscript ≠ [] := cons_ne_nil _ _
  have hestimate := estimate_compactedMessages (plainCodec dumps repr)
    (plainRequest (demandNothing 2)) hnonempty
  rcases deterministicCompactMessages_spec (plainCodec dumps repr)
    (plainRequest (demandNothing 2)) smallTranscript with
    ⟨-, hcompacted, hmessages, -⟩ | ⟨hkept, -, -⟩
  · obtain ⟨hless, -⟩ := h.saves hcompacted
    rw [hmessages] at hless
    omega
  · apply hkept
    exact ⟨rfl, by rw [hindices]; exact cons_ne_nil _ _, Nat.zero_le _⟩

/-! ### Calls and their results -/

/-- The message is one of the assistant that makes the call. -/
def DeclaresCall (message : PromptMessage) (callId : String) : Prop :=
  message.role = "assistant" ∧ ∃ call ∈ message.toolCalls, call.id = callId

/-- The message is the result of the call. -/
def AnswersCall (message : PromptMessage) (callId : String) : Prop :=
  message.role = "tool" ∧ message.toolCallId = some callId

/-- Every tool message answers a call declared before it, and every call is answered. -/
structure WellFormedTranscript (messages : List PromptMessage) : Prop where
  declared : Preceded (fun t => t.role = "tool")
    (fun a t => ∃ callId, t.toolCallId = some callId ∧ DeclaresCall a callId) messages
  answered : ∀ a ∈ messages, ∀ callId, DeclaresCall a callId → ∃ t ∈ messages, AnswersCall t callId

/-- A call and its results are separated: a result stays while every earlier declaration of
its call goes, or a call stays while all its results go. -/
def SeparatesCall (gone : ℕ → Bool) (messages : List PromptMessage) : Prop :=
  (∃ (i : ℕ) (t : PromptMessage) (callId : String), messages[i]? = some t ∧ gone i = false ∧
    AnswersCall t callId ∧
    ∀ j < i, ∀ a, messages[j]? = some a → DeclaresCall a callId → gone j = true) ∨
  ∃ (i : ℕ) (a : PromptMessage) (callId : String), messages[i]? = some a ∧ gone i = false ∧
    DeclaresCall a callId ∧
    ∀ (j : ℕ) (t : PromptMessage), messages[j]? = some t → AnswersCall t callId → gone j = true

/-- A summary neither makes a call nor answers one. -/
theorem wellFormed_compactedMessages :
    WellFormedTranscript (lib.compactedMessages request messages) ↔
      WellFormedTranscript (without (lib.compactable request messages) 0 messages) := by
  have hcalls : ∀ callId, ¬ DeclaresCall (lib.summaryMessage request messages) callId := by
    rintro callId ⟨hrole, -⟩
    have hrole : ("system" : String) = "assistant" := hrole
    revert hrole
    decide
  have htool : (lib.summaryMessage request messages).role ≠ "tool" := by
    show ("system" : String) ≠ "tool"
    decide
  have hdeclared : Preceded (fun t : PromptMessage => t.role = "tool")
        (fun a t => ∃ callId, t.toolCallId = some callId ∧ DeclaresCall a callId)
        (lib.compactedMessages request messages) ↔
      Preceded (fun t : PromptMessage => t.role = "tool")
        (fun a t => ∃ callId, t.toolCallId = some callId ∧ DeclaresCall a callId)
        (without (lib.compactable request messages) 0 messages) := by
    rw [compactedMessages_eq, without_compactable]
    exact preceded_insert htool fun t ⟨callId, _, hcall⟩ => hcalls callId hcall
  constructor
  · intro h
    refine ⟨hdeclared.mp h.declared, fun a ha callId hcall => ?_⟩
    obtain ⟨t, ht, hanswer⟩ := h.answered a (mem_compactedMessages.mpr (.inr ha)) callId hcall
    rcases mem_compactedMessages.mp ht with rfl | ht
    · exact absurd hanswer.1 htool
    · exact ⟨t, ht, hanswer⟩
  · intro h
    refine ⟨hdeclared.mpr h.declared, fun a ha callId hcall => ?_⟩
    rcases mem_compactedMessages.mp ha with rfl | ha
    · exact absurd hcall (hcalls callId)
    · obtain ⟨t, ht, hanswer⟩ := h.answered a ha callId hcall
      exact ⟨t, mem_compactedMessages.mpr (.inr ht), hanswer⟩

/-- **Removing messages from a well-formed transcript** leaves one exactly if no call is
separated from its results. -/
theorem wellFormed_without {gone : ℕ → Bool} (h : WellFormedTranscript messages) :
    WellFormedTranscript (without gone 0 messages) ↔ ¬ SeparatesCall gone messages := by
  constructor
  · rintro ⟨hdeclared, hanswered⟩ (⟨i, t, callId, hat, hstays, ⟨hrole, hid⟩, hall⟩ |
      ⟨i, a, callId, hat, hstays, hcall, hall⟩)
    · obtain ⟨j, hj, a, ha, hkept, id, hid', hcall⟩ :=
        preceded_without.mp hdeclared i t hat hstays hrole
      rw [hid] at hid'
      cases hid'
      have hgone := hall j hj a ha hcall
      rw [hkept] at hgone
      cases hgone
    · have hmem : a ∈ without gone 0 messages := mem_without.mpr ⟨i, hat, by rwa [Nat.zero_add]⟩
      obtain ⟨t, ht, hanswer⟩ := hanswered a hmem callId hcall
      obtain ⟨j, hj, hkept⟩ := mem_without.mp ht
      have hgone := hall j t hj hanswer
      rw [Nat.zero_add, hgone] at hkept
      cases hkept
  · intro hseparates
    have hwhole := preceded_iff.mp h.declared
    refine ⟨preceded_without.mpr ?_, ?_⟩
    · intro i t hat hstays hrole
      obtain ⟨j₀, -, a₀, -, callId, hid, -⟩ := hwhole i t hat hrole
      by_contra hnone
      apply hseparates
      refine .inl ⟨i, t, callId, hat, hstays, ⟨hrole, hid⟩, fun j hj a ha hcall => ?_⟩
      by_contra hkept
      exact hnone ⟨j, hj, a, ha, Bool.not_eq_true _ ▸ hkept, callId, hid, hcall⟩
    · intro a ha callId hcall
      obtain ⟨i, hat, hstays⟩ := mem_without.mp ha
      rw [Nat.zero_add] at hstays
      by_contra hnone
      apply hseparates
      refine .inr ⟨i, a, callId, hat, hstays, hcall, fun j t ht hanswer => ?_⟩
      by_contra hkept
      apply hnone
      exact ⟨t, mem_without.mpr ⟨j, ht, by rw [Nat.zero_add]; exact Bool.not_eq_true _ ▸ hkept⟩,
        hanswer⟩

/-- **Compaction keeps a transcript well formed** unless it separates a call from its
results. -/
theorem compaction_wellFormed_iff (lib : TextCodec) (request : CompactionRequest)
    (messages : List PromptMessage) (h : WellFormedTranscript messages) :
    WellFormedTranscript (lib.deterministicCompactMessages request messages).messages ↔
      ¬ (lib.Rewrites request messages ∧
        SeparatesCall (lib.compactable request messages) messages) := by
  rcases deterministicCompactMessages_spec lib request messages with
    ⟨hrewrites, -, hmessages, -⟩ | ⟨hkept, -, hmessages⟩
  · rw [hmessages, wellFormed_compactedMessages, wellFormed_without h]
    simp only [hrewrites, true_and]
  · rw [hmessages]
    exact iff_of_true h fun hboth => hkept hboth.1

/-- The only call of the small transcript. -/
theorem declaresCall_smallTranscript {a : PromptMessage} {callId : String}
    (hat : smallTranscript[i]? = some a) (h : DeclaresCall a callId) : i = 2 ∧ callId = "c1" := by
  obtain ⟨hrole, call, hmem, rfl⟩ := h
  match i, hat with
  | 0, hat | 1, hat =>
    cases hat
    cases hmem
  | 2, hat =>
    cases hat
    rcases List.mem_singleton.mp hmem with rfl
    exact ⟨rfl, rfl⟩
  | 3, hat =>
    cases hat
    cases hmem

/-- Its only tool message. -/
theorem answersCall_smallTranscript {t : PromptMessage} (hat : smallTranscript[i]? = some t)
    (h : t.role = "tool") : i = 3 ∧ t = note "tool" (some "c1") := by
  match i, hat with
  | 0, hat | 1, hat | 2, hat =>
    cases hat
    exact absurd h (by decide)
  | 3, hat =>
    cases hat
    exact ⟨rfl, rfl⟩

theorem declaresCall_note : DeclaresCall (note "assistant" none [⟨"c1", "search", .obj []⟩]) "c1" :=
  ⟨rfl, _, mem_cons_self, rfl⟩

theorem wellFormed_smallTranscript : WellFormedTranscript smallTranscript := by
  constructor
  · rw [preceded_iff]
    intro i t hat hrole
    obtain ⟨rfl, rfl⟩ := answersCall_smallTranscript hat hrole
    exact ⟨2, by decide, _, rfl, "c1", rfl, declaresCall_note⟩
  · intro a ha callId hcall
    obtain ⟨i, hat⟩ := mem_iff_getElem?.mp ha
    obtain ⟨-, rfl⟩ := declaresCall_smallTranscript hat hcall
    refine ⟨note "tool" (some "c1"), ?_, rfl, rfl⟩
    simp [smallTranscript]

/-- With the two latest messages preserved, the call and its result stay together. -/
theorem compaction_keeps_call : WellFormedTranscript smallTranscript ∧
    ∀ dumps repr : Json → String, WellFormedTranscript
      ((plainCodec dumps repr).deterministicCompactMessages (plainRequest (demandNothing 2))
        smallTranscript).messages := by
  refine ⟨wellFormed_smallTranscript, fun dumps repr => ?_⟩
  apply (compaction_wellFormed_iff _ _ _ wellFormed_smallTranscript).mpr
  rintro ⟨-, hseparates⟩
  have hindices : (plainCodec dumps repr).compactable (plainRequest (demandNothing 2))
      smallTranscript = [1].contains :=
    congrArg List.contains (compactable_smallTranscript (.inr rfl))
  rw [hindices] at hseparates
  rcases hseparates with ⟨i, t, callId, hat, -, ⟨hrole, hid⟩, hall⟩ |
    ⟨i, a, callId, hat, -, hcall, hall⟩
  · obtain ⟨rfl, rfl⟩ := answersCall_smallTranscript hat hrole
    cases hid
    have hgone := hall 2 (by decide) _ rfl declaresCall_note
    revert hgone
    decide
  · obtain ⟨rfl, rfl⟩ := declaresCall_smallTranscript hat hcall
    have hgone := hall 3 (note "tool" (some "c1")) rfl ⟨rfl, rfl⟩
    revert hgone
    decide

/-- With only the latest message preserved, the call goes and its result stays. -/
theorem call_without_declaration :
    ∃ (request : CompactionRequest) (messages : List PromptMessage),
      WellFormedTranscript messages ∧ ∀ dumps repr : Json → String, ¬ WellFormedTranscript
        ((plainCodec dumps repr).deterministicCompactMessages request messages).messages := by
  refine ⟨plainRequest (demandNothing 1), smallTranscript, wellFormed_smallTranscript,
    fun dumps repr h => ?_⟩
  have hindices : (plainCodec dumps repr).compactableMessageIndices smallTranscript
      (governanceConfig (plainRequest (demandNothing 1)).workflow) = [1, 2] :=
    compactable_smallTranscript (.inl rfl)
  rcases deterministicCompactMessages_spec (plainCodec dumps repr)
    (plainRequest (demandNothing 1)) smallTranscript with
    ⟨-, -, hmessages, -⟩ | ⟨hkept, -, -⟩
  · rw [hmessages, wellFormed_compactedMessages, wellFormed_without wellFormed_smallTranscript] at h
    apply h
    refine .inl ⟨3, note "tool" (some "c1"), "c1", rfl, ?_, ⟨rfl, rfl⟩, fun j _ a ha hcall => ?_⟩
    · unfold compactable
      rw [hindices]
      decide
    · obtain ⟨rfl, -⟩ := declaresCall_smallTranscript ha hcall
      unfold compactable
      rw [hindices]
      decide
  · apply hkept
    exact ⟨rfl, by rw [hindices]; exact cons_ne_nil _ _, Nat.zero_le _⟩

end TextCodec

end OpenAgency
