/-
StreamSafety.lean

What the runtime stream sends of an event.  A long log message is cut, a payload that is still
too long gets a shorter message and two marks, and one that is too long even then keeps
neither its message nor its metadata.

The other fields are never cut, so a long title makes a long payload whatever the limit, and
the mark of a cut log message comes after the length has been tested
(`safeRuntimeEventPayload_iff`).
-/
import OpenAgency.GraphPayload

namespace OpenAgency

namespace RuntimeStream

open GraphRead

/-! ### Runtime events -/

inductive RuntimeEventSourceType where
  | agency | hermes | claudeCode | codex | custom | «local»

def RuntimeEventSourceType.value : RuntimeEventSourceType → String
  | agency => "agency"
  | hermes => "hermes"
  | claudeCode => "claude_code"
  | codex => "codex"
  | custom => "custom"
  | «local» => "local"

inductive RuntimeEventLevel where
  | debug | info | warning | error | success

def RuntimeEventLevel.value : RuntimeEventLevel → String
  | debug => "debug"
  | info => "info"
  | warning => "warning"
  | error => "error"
  | success => "success"

inductive RuntimeEventType where
  | agentStatusChanged | agentSpoke | taskStarted | taskProgress | taskCompleted | taskFailed
  | toolStarted | toolCompleted | toolFailed | logReceived | approvalRequired | fileChanged
  | workflowTransitioned
  deriving DecidableEq

def RuntimeEventType.value : RuntimeEventType → String
  | agentStatusChanged => "agent_status_changed"
  | agentSpoke => "agent_spoke"
  | taskStarted => "task_started"
  | taskProgress => "task_progress"
  | taskCompleted => "task_completed"
  | taskFailed => "task_failed"
  | toolStarted => "tool_started"
  | toolCompleted => "tool_completed"
  | toolFailed => "tool_failed"
  | logReceived => "log_received"
  | approvalRequired => "approval_required"
  | fileChanged => "file_changed"
  | workflowTransitioned => "workflow_transitioned"

structure RuntimeEventActor where
  id : String
  name : Option String := none
  role : Option String := none
  avatarAssetId : Option String := none

structure RuntimeEventWorkflow where
  id : String
  name : Option String := none
  roomId : Option String := none

structure RuntimeEventTask (V : Type) where
  id : String
  title : Option String := none
  progress : Option V := none

/-- What `to_external_event` answers: a dict of these fields, without those that are `None`. -/
structure ExternalEvent (V : Type) where
  id : String
  schemaVersion : String := "agency.runtime-event.v1"
  source : String := "agency"
  sourceType : RuntimeEventSourceType := .agency
  type : RuntimeEventType
  /-- As it is written. -/
  timestamp : String
  actor : Option RuntimeEventActor := none
  workflow : Option RuntimeEventWorkflow := none
  task : Option (RuntimeEventTask V) := none
  level : RuntimeEventLevel := .info
  message : Option String := none
  metadata : Dict (MetaValue V) := []

structure RuntimeStreamEvent (V : Type) extends ExternalEvent V where
  length_message : ∀ m ∈ message, m.length ≤ 1000

variable {V : Type}

/-- What `_runtime_event` reads of an execution event. -/
structure MappedEvent where
  id : String
  executionId : String
  eventType : String
  sequence : ℕ
  timestamp : String
  actor : Option String := none
  agentId : Option String := none
  workflowId : String
  taskId : Option String := none
  /-- `payload["task_id"]`, as text. -/
  payloadTaskId : Option String := none
  /-- `payload["task_name"]`. -/
  taskName : Option String := none

/-- `_actor_for`. -/
def actorFor (event : MappedEvent) : Option RuntimeEventActor :=
  (event.agentId.filter (· ≠ "")).map fun id => { id := id, name := event.actor }

/-- `_workflow_for`. -/
def workflowFor (event : MappedEvent) : Option RuntimeEventWorkflow :=
  if event.workflowId = "" then none else some { id := event.workflowId }

/-- `_task_for`. -/
def taskFor (event : MappedEvent) (progress : Option V) : Option (RuntimeEventTask V) :=
  ((event.taskId.filter (· ≠ "") <|> event.payloadTaskId).filter (· ≠ "")).map fun id =>
    { id := id, title := event.taskName, progress := progress }

/-- `_metadata_for`, with what is `extra` and not `None`. -/
def metadataFor (event : MappedEvent) (extra : Dict (MetaValue V)) : Dict (MetaValue V) :=
  Dict.union [("executionId", .str event.executionId), ("executionEventId", .str event.id),
    ("executionEventType", .str event.eventType), ("sequence", .int event.sequence)] extra

/-- `_runtime_event`; a message that is too long is no runtime event. -/
def runtimeEvent (event : MappedEvent) (type : RuntimeEventType) (level : RuntimeEventLevel)
    (message : Option String) (progress : Option V) (metadata : Dict (MetaValue V)) :
    Option (RuntimeStreamEvent V) :=
  if h : ∀ m ∈ message, m.length ≤ 1000 then some
    { id := "runtime:" ++ event.id ++ ":" ++ type.value
      source := "agency-runtime"
      type := type
      timestamp := event.timestamp
      actor := actorFor event
      workflow := workflowFor event
      task := taskFor event progress
      level := level
      message := message
      metadata := if metadata.isEmpty then metadataFor event [] else metadata
      length_message := h }
  else none

/-! ### The length of a payload -/

section Length

variable (size : V → ℕ)

/-- A field that is left out where it is `None`. -/
def optionalField (key : String) (n : Option ℕ) : List (String × ℕ) := n.elim [] fun n => [(key, n)]

def actorSize (actor : RuntimeEventActor) : ℕ :=
  dictSize ([("id", strSize actor.id)] ++ optionalField "name" (actor.name.map strSize) ++
    optionalField "role" (actor.role.map strSize) ++
    optionalField "avatarAssetId" (actor.avatarAssetId.map strSize))

def workflowSize (workflow : RuntimeEventWorkflow) : ℕ :=
  dictSize ([("id", strSize workflow.id)] ++ optionalField "name" (workflow.name.map strSize) ++
    optionalField "roomId" (workflow.roomId.map strSize))

def taskSize (task : RuntimeEventTask V) : ℕ :=
  dictSize ([("id", strSize task.id)] ++ optionalField "title" (task.title.map strSize) ++
    optionalField "progress" (task.progress.map size))

/-- The fields besides `message` and `metadata`. -/
def uncutFields (p : ExternalEvent V) : List (String × ℕ) :=
  [("id", strSize p.id), ("schemaVersion", strSize p.schemaVersion), ("source", strSize p.source),
    ("sourceType", strSize p.sourceType.value), ("type", strSize p.type.value),
    ("timestamp", strSize p.timestamp), ("level", strSize p.level.value)] ++
  optionalField "actor" (p.actor.map actorSize) ++
  optionalField "workflow" (p.workflow.map workflowSize) ++
  optionalField "task" (p.task.map (taskSize size))

/-- `len(json.dumps(payload, separators=(",", ":")).encode("utf-8"))`. -/
def serializedLength (p : ExternalEvent V) : ℕ :=
  dictSize (uncutFields size p ++ optionalField "message" (p.message.map strSize) ++
    [("metadata", metaSize size p.metadata)])

end Length

/-! ### The payload that is sent -/

def truncatedSuffix : String := "...[truncated]"

/-- `_truncate_text`. -/
def truncateText (value : String) (maxChars : ℕ) : String × Bool :=
  if value.length ≤ maxChars then (value, false)
  else (takeChars (maxChars - truncatedSuffix.length) value ++ truncatedSuffix, true)

/-- The marks of a payload that has been cut. -/
def withMarks (originalByteLength : ℕ) (metadata : Dict (MetaValue V)) : Dict (MetaValue V) :=
  Dict.set (Dict.set metadata "payloadTruncated" (.bool true)) "originalByteLength"
    (.int originalByteLength)

/-- The message of a log is cut, and its metadata says so. -/
def cutLog (event : RuntimeStreamEvent V) (maxLogChars : ℕ) :
    Option String × Dict (MetaValue V) :=
  match event.message with
  | some message =>
    if event.type = .logReceived then
      let cut := truncateText message maxLogChars
      (some cut.1,
        if cut.2 then Dict.set event.metadata "logTruncated" (.bool true) else event.metadata)
    else (some message, event.metadata)
  | none => (none, event.metadata)

/-- The shorter message of a payload that is too long. -/
def shorten (maxLogChars : ℕ) (message : Option String) : Option String :=
  message.map fun message => (truncateText message (min maxLogChars 512)).1

/-- `safe_runtime_event_payload`. -/
def safeRuntimeEventPayload (size : V → ℕ) (event : RuntimeStreamEvent V)
    (maxEventBytes maxLogChars : ℕ) : ExternalEvent V :=
  let payload := { event.toExternalEvent with message := (cutLog event maxLogChars).1 }
  let metadata := (cutLog event maxLogChars).2
  let serialized := serializedLength size payload
  if maxEventBytes < serialized then
    let shortened := { payload with
      message := shorten maxLogChars payload.message, metadata := withMarks serialized metadata }
    let serialized := serializedLength size shortened
    if maxEventBytes < serialized then
      { shortened with
        message := some "[payload truncated]", metadata := withMarks serialized [] }
    else shortened
  else if metadata.isEmpty then payload
  else { payload with metadata := metadata }

/-! ### How long it is -/

section Bounds

variable (size : V → ℕ) (p : ExternalEvent V)

/-- What the fields that are never cut take, with their keys and commas. -/
def uncutLength : ℕ := ((uncutFields size p).map fun field => strSize field.1 + 2 + field.2).sum

/-- The length of a payload with another message and other metadata. -/
def lengthWith (message : Option String) (metadata : Dict (MetaValue V)) : ℕ :=
  serializedLength size { p with message := message, metadata := metadata }

theorem dictSize_append_singleton (fields : List (String × ℕ)) (field : String × ℕ) :
    dictSize (fields ++ [field]) =
      (fields.map fun field => strSize field.1 + 2 + field.2).sum + (strSize field.1 + 3 + field.2) := by
  unfold dictSize listSize
  induction fields with
  | nil =>
    simp
    omega
  | cons f fields ih =>
    simp at ih ⊢
    omega

/-- The message and the metadata add up with the rest. -/
theorem serializedLength_eq : serializedLength size p =
    uncutLength size p + (p.message.elim 0 fun m => strSize m + 11) + (metaSize size p.metadata + 13) := by
  have hmessage : strSize "message" = 9 := by decide
  have hmetadata : strSize "metadata" = 10 := by decide
  rw [serializedLength, dictSize_append_singleton, hmetadata, uncutLength]
  rcases p.message with - | m
  · simp [optionalField]
    omega
  · simp [optionalField, hmessage]
    omega

/-- What is left of a payload that is too long twice. -/
theorem lengthWith_stub (n : ℕ) :
    lengthWith size p (some "[payload truncated]") (withMarks n []) = uncutLength size p + 92 + natSize n := by
  have hmessage : strSize "[payload truncated]" = 21 := by decide
  have hmarks : metaSize size (withMarks n []) = 47 + natSize n := by
    have htruncated : strSize "payloadTruncated" = 18 := by decide
    have hlength : strSize "originalByteLength" = 20 := by decide
    have hint : intSize n = natSize n := by
      rw [intSize, if_neg (not_lt.mpr (Int.natCast_nonneg n)), Int.natAbs_natCast, Nat.add_zero]
    simp [withMarks, Dict.set, metaSize, dictSize, listSize, metaValueSize, hint, htruncated,
      hlength]
    omega
  rw [lengthWith, serializedLength_eq]
  simp [hmessage, hmarks, uncutLength, uncutFields]
  omega

theorem uncutLength_lt : uncutLength size p < serializedLength size p := by
  rw [serializedLength_eq]
  omega

end Bounds

/-! ### The bound -/

section Bound

variable {size : V → ℕ} {event : RuntimeStreamEvent V} {maxEventBytes maxLogChars : ℕ}

/-- What the mark of a cut log message adds to the metadata, and what it replaces there. -/
def logMark (size : V → ℕ) (event : RuntimeStreamEvent V) (maxLogChars : ℕ) : ℕ × ℕ :=
  if event.type = .logReceived ∧ event.message.any (maxLogChars < ·.length) then
    match event.metadata.get? "logTruncated" with
    | some old => (4, metaValueSize size old)
    | none => (if event.metadata.isEmpty then 19 else 20, 0)
  else (0, 0)

/-- The payload stays within its bound.  One that fits with its log message cut does so with
the mark of the cut as well; and of one that does not, either the message and the metadata are
short enough after all, or what is never cut leaves room for the rest. -/
def StaysBounded (size : V → ℕ) (event : RuntimeStreamEvent V) (maxEventBytes maxLogChars : ℕ) :
    Prop :=
  let message := (cutLog event maxLogChars).1
  let metadata := (cutLog event maxLogChars).2
  let original := lengthWith size event.toExternalEvent message event.metadata
  let shortened := lengthWith size event.toExternalEvent (shorten maxLogChars message)
    (withMarks original metadata)
  if maxEventBytes < original then
    shortened ≤ maxEventBytes ∨
      uncutLength size event.toExternalEvent + 92 + natSize shortened ≤ maxEventBytes
  else original + (logMark size event maxLogChars).1 ≤
    maxEventBytes + (logMark size event maxLogChars).2

/-- The event fits as it is. -/
structure Fits (size : V → ℕ) (event : RuntimeStreamEvent V) (maxEventBytes maxLogChars : ℕ) : Prop where
  length : serializedLength size event.toExternalEvent ≤ maxEventBytes
  message : ∀ m ∈ event.message, m.length ≤ maxLogChars

/-- A message that is short enough is not cut. -/
theorem cutLog_of_fits (h : ∀ m ∈ event.message, m.length ≤ maxLogChars) :
    cutLog event maxLogChars = (event.message, event.metadata) := by
  unfold cutLog
  split
  next message hmessage =>
    have hcut : truncateText message maxLogChars = (message, false) := if_pos (h message hmessage)
    rw [hcut, hmessage]
    split_ifs <;> rfl
  next hmessage => rw [hmessage]

theorem safeRuntimeEventPayload_of_fits (h : Fits size event maxEventBytes maxLogChars) :
    safeRuntimeEventPayload size event maxEventBytes maxLogChars = event.toExternalEvent := by
  have hfits : ¬ maxEventBytes < serializedLength size event.toExternalEvent := not_lt.mpr h.length
  unfold safeRuntimeEventPayload
  simp only [cutLog_of_fits h.message, if_neg hfits]
  split_ifs <;> rfl

theorem set_ne_nil {α : Type} (d : Dict α) (key : String) (v : α) : Dict.set d key v ≠ [] := by
  induction d with
  | nil => simp [Dict.set]
  | cons field d _ =>
    rw [Dict.set]
    split_ifs <;> simp

/-- Metadata is only ever empty where there was none. -/
theorem metadata_of_cutLog_isEmpty (h : (cutLog event maxLogChars).2.isEmpty) :
    (cutLog event maxLogChars).2 = event.metadata := by
  have hmetadata : (cutLog event maxLogChars).2 = event.metadata ∨
      (cutLog event maxLogChars).2 = Dict.set event.metadata "logTruncated" (.bool true) := by
    unfold cutLog
    rcases event.message with - | message
    · exact .inl rfl
    · dsimp only
      split_ifs
      · exact .inr rfl
      · exact .inl rfl
      · exact .inl rfl
  rcases hmetadata with hsame | hset
  · exact hsame
  · rw [hset] at h
    exact absurd (List.isEmpty_iff.mp h) (set_ne_nil _ _ _)

/-- A value that is put under a key takes the place of the one there, or comes with its key. -/
theorem metaSize_set (d : Dict (MetaValue V)) (key : String) (v : MetaValue V) :
    metaSize size (d.set key v) + (d.get? key).elim 0 (metaValueSize size) =
      metaSize size d + metaValueSize size v + (d.get? key).elim
        (strSize key + if d.isEmpty then 1 else 2) fun _ => 0 := by
  have hset : ∀ d : Dict (MetaValue V), ((d.set key v).map fun f => strSize f.1 + 1 +
      metaValueSize size f.2).sum + (d.get? key).elim 0 (metaValueSize size) =
        (d.map fun f => strSize f.1 + 1 + metaValueSize size f.2).sum + metaValueSize size v +
          (d.get? key).elim (strSize key + 1) (fun _ => 0) ∧
      (d.set key v).length = d.length + (d.get? key).elim 1 fun _ => 0 := by
    intro d
    induction d with
    | nil => exact ⟨by simp [Dict.set]; omega, rfl⟩
    | cons field d ih =>
      rw [Dict.set, Dict.get?_cons]
      split_ifs with hkey
      · subst hkey
        simp only [List.map_cons, List.sum_cons, List.length_cons, Option.elim_some, and_true]
        omega
      · simp only [List.map_cons, List.sum_cons, List.length_cons]
        omega
  obtain ⟨hsum, hlength⟩ := hset d
  rcases d with - | ⟨field, d⟩
  · simp [Dict.set, metaSize, dictSize, listSize]
    omega
  · generalize Dict.get? (field :: d) key = old at hsum hlength ⊢
    rcases old with - | old <;>
      simp only [metaSize, dictSize, listSize, List.map_map, Function.comp_def, List.length_map,
        hlength, Option.elim_none, Option.elim_some, List.length_cons, List.isEmpty_cons,
        Bool.false_eq_true, if_false] at hsum ⊢ <;> omega

/-- The mark of a cut log message makes the difference. -/
theorem metaSize_cutLog : metaSize size (cutLog event maxLogChars).2 +
      (logMark size event maxLogChars).2 =
    metaSize size event.metadata + (logMark size event maxLogChars).1 := by
  have hkey : strSize "logTruncated" = 14 := by decide
  have hset := @metaSize_set V size event.metadata "logTruncated" (.bool true)
  rw [hkey] at hset
  unfold cutLog logMark truncateText
  rcases event.message with - | message
  · simp
  · rcases hget : event.metadata.get? "logTruncated" with - | old <;>
      simp [hget, metaValueSize] at hset ⊢ <;> split_ifs <;> simp_all <;> omega

/-- **A payload stays within its bound** if and only if the condition holds, and an event that
fits is sent as it is. -/
theorem safeRuntimeEventPayload_iff (size : V → ℕ) (event : RuntimeStreamEvent V)
    (maxEventBytes maxLogChars : ℕ) :
    (serializedLength size (safeRuntimeEventPayload size event maxEventBytes maxLogChars)
        ≤ maxEventBytes ∧
      (Fits size event maxEventBytes maxLogChars →
        safeRuntimeEventPayload size event maxEventBytes maxLogChars = event.toExternalEvent)) ↔
      StaysBounded size event maxEventBytes maxLogChars := by
  have hmark : lengthWith size event.toExternalEvent (cutLog event maxLogChars).1
        (cutLog event maxLogChars).2 + (logMark size event maxLogChars).2 =
      lengthWith size event.toExternalEvent (cutLog event maxLogChars).1 event.metadata +
        (logMark size event maxLogChars).1 := by
    have hmetadata := @metaSize_cutLog V size event maxLogChars
    simp only [lengthWith, serializedLength_eq, uncutLength, uncutFields]
    omega
  rw [and_iff_left safeRuntimeEventPayload_of_fits]
  unfold StaysBounded safeRuntimeEventPayload
  dsimp only
  rw [← lengthWith_stub]
  change serializedLength size (if maxEventBytes < lengthWith size event.toExternalEvent
    (cutLog event maxLogChars).1 event.metadata then _ else _) ≤ maxEventBytes ↔ _
  split_ifs with hlong hstill hempty
  · exact (or_iff_right (not_le.mpr hstill)).symm
  · exact iff_of_true (not_lt.mp hstill) (.inl (not_lt.mp hstill))
  · rw [metadata_of_cutLog_isEmpty hempty] at hmark
    change lengthWith size _ _ event.metadata ≤ _ ↔ _
    omega
  · change lengthWith size _ _ (cutLog event maxLogChars).2 ≤ _ ↔ _
    omega

theorem uncutLength_safeRuntimeEventPayload :
    uncutLength size (safeRuntimeEventPayload size event maxEventBytes maxLogChars) =
      uncutLength size event.toExternalEvent := by
  unfold safeRuntimeEventPayload
  dsimp only
  split_ifs <;> rfl

end Bound

theorem length_le_strSize (s : String) : s.length ≤ strSize s := by
  have hchar : ∀ c, 1 ≤ charSize c := fun c => by
    unfold charSize
    split_ifs <;> decide
  have hsum : ∀ cs : List Char, cs.length ≤ (cs.map charSize).sum := by
    intro cs
    induction cs with
    | nil => simp
    | cons c cs ih =>
      have hc := hchar c
      simp
      omega
  have hs := hsum s.toList
  rw [String.length_toList] at hs
  rw [strSize]
  omega

theorem length_title_le {p : ExternalEvent V} {task : RuntimeEventTask V} {title : String}
    {size : V → ℕ} (htask : p.task = some task) (htitle : task.title = some title) :
    title.length ≤ uncutLength size p := by
  have htext := length_le_strSize title
  simp [uncutLength, uncutFields, optionalField, htask, taskSize, htitle, dictSize, listSize]
  omega

theorem task_runtimeEvent (event : MappedEvent) {message : Option String}
    (hmessage : ∀ m ∈ message, m.length ≤ 1000) (type : RuntimeEventType) (level : RuntimeEventLevel)
    (progress : Option V) (metadata : Dict (MetaValue V)) :
    ∃ e, runtimeEvent event type level message progress metadata = some e ∧
      e.task = taskFor event progress := ⟨_, dif_pos hmessage, rfl⟩

def longTitle : String := String.ofList (List.replicate 4096 'x')

theorem length_longTitle : longTitle.length = 4096 :=
  (String.length_ofList).trans (List.length_replicate)

/-- A tool call of a task with such a name. -/
def titled (title : String) : MappedEvent where
  id := "event"
  executionId := "execution"
  eventType := "tool_call_completed"
  sequence := 1
  timestamp := "2025-01-01T00:00:00Z"
  workflowId := "workflow"
  taskId := some "task"
  taskName := some title

/-- Titles are not cut. -/
theorem safeRuntimeEventPayload_longTitled :
    ¬ ∀ (mapped : MappedEvent) (event : RuntimeStreamEvent Unit),
      runtimeEvent mapped .taskProgress .info (some "Tool completed") none [] = some event →
      ∀ maxEventBytes maxLogChars, 4096 ≤ maxEventBytes → 64 ≤ maxLogChars →
        serializedLength (fun _ => 0)
            (safeRuntimeEventPayload (fun _ => 0) event maxEventBytes maxLogChars) ≤ maxEventBytes ∧
          (Fits (fun _ => 0) event maxEventBytes maxLogChars →
            safeRuntimeEventPayload (fun _ => 0) event maxEventBytes maxLogChars =
              event.toExternalEvent) := by
  intro hclaim
  have hmessage : ∀ m ∈ some "Tool completed", String.length m ≤ 1000 := by
    intro m hm
    obtain rfl := Option.mem_some.mp hm
    decide
  obtain ⟨event, hevent, htask⟩ := task_runtimeEvent (titled longTitle) hmessage
    .taskProgress .info (none : Option Unit) []
  obtain ⟨hbounded, -⟩ := hclaim (titled longTitle) event hevent 4096 64 le_rfl le_rfl
  have huncut := (uncutLength_lt (fun _ : Unit => 0) _).trans_le hbounded
  rw [uncutLength_safeRuntimeEventPayload] at huncut
  have htitled : taskFor (titled longTitle) (none : Option Unit) =
      some ⟨"task", some longTitle, none⟩ := by simp [taskFor, titled]
  have htitle := (length_title_le (htask.trans htitled) rfl).trans_lt huncut
  exact absurd length_longTitle htitle.ne

end RuntimeStream

end OpenAgency
