/-
ConversationStream.lean

Posting a message and streaming the messages of a conversation, one step at a time.

`post_message` creates a message and then publishes it to the queues that are subscribed.
`stream_conversation_events` lists the messages, hands those after a cursor to the client,
and only then subscribes to what is published.  How long the client stays is the number of
its turns; how a validated message is made of a payload, and the replies to it, are left out.
-/
import Mathlib.Data.Prod.Lex
import OpenAgency.Lib.Stages
import OpenAgency.MemoryService

namespace OpenAgency

open Relational Interaction

/-! ### Messages -/

inductive ConversationRole where
  | user
  | assistant
  | system
  | tool
  deriving DecidableEq

inductive ConversationMessageType where
  | userText
  | assistantText
  | toolCall
  | toolResult
  | executionStarted
  | executionProgress
  | executionCompleted
  | approvalRequest
  | approvalResult
  | workflowProposal
  | workflowUpdateProposal
  | systemNote
  deriving DecidableEq

structure ConversationMessage where
  id : String
  conversationId : String
  role : ConversationRole
  messageType : ConversationMessageType
  content : Dict Json := []
  plainText : Option String := none
  externalMessageId : Option String := none
  executionId : Option String := none
  approvalRequestId : Option String := none
  toolCallId : Option String := none
  metadata : Dict Json := []
  createdAt : Time

abbrev ConversationMessages := Catalog fun m : ConversationMessage => m.id

/-- The order of a conversation. -/
def ConversationMessage.key (m : ConversationMessage) : Time ×ₗ String := toLex (m.createdAt, m.id)

/-- `list_by_conversation`. -/
def listByConversation (messages : ConversationMessages) (conversationId : String) :
    List ConversationMessage :=
  (messages.items.insertionSort fun m m' => m.key ≤ m'.key).filter
    (·.conversationId = conversationId)

/-- `_messages_after_cursor`: a cursor that is not listed cuts nothing off. -/
def messagesAfterCursor (messages : List ConversationMessage) :
    Option String → List ConversationMessage
  | none => messages
  | some id =>
    match messages.dropWhile (·.id ≠ id) with
    | [] => messages
    | _ :: rest => rest

/-- What a stream carries: messages, other events of the conversation, and signs of life. -/
inductive StreamEvent where
  | message (m : ConversationMessage)
  | other (id eventType : String)
  | idle

/-! ### The store and the broker -/

/-- A queue of the broker and the conversation it is subscribed to. -/
structure EventQueue where
  conversationId : String
  subscribed : Bool := true
  events : List StreamEvent := []

/-- An event goes to the subscribed queues of its conversation. -/
def EventQueue.put (conversationId : String) (event : StreamEvent) (queue : EventQueue) :
    EventQueue :=
  if queue.subscribed && queue.conversationId = conversationId then
    { queue with events := queue.events ++ [event] }
  else queue

structure StreamState where
  /-- The table refuses an identifier it has; the dict overwrites it. -/
  sql : Bool := true
  conversations : List String := []
  messages : ConversationMessages := Catalog.empty
  queues : List EventQueue := []

inductive StreamOp where
  | getConversation (id : String)
  | createMessage (m : ConversationMessage)
  | publish (conversationId : String) (event : StreamEvent)
  | listByConversation (id : String)
  | subscribe (conversationId : String)
  | getEvent (queue : ℕ)
  | yieldEvent (event : StreamEvent)
  | unsubscribe (queue : ℕ)

abbrev StreamSig : Signature where
  Op := StreamOp
  Ret
    | .getConversation _ => Bool
    | .createMessage _ => Except RuntimeException ConversationMessage
    | .publish _ _ => Unit
    | .listByConversation _ => List ConversationMessage
    | .subscribe _ => ℕ
    | .getEvent _ => Option StreamEvent
    | .yieldEvent _ => Unit
    | .unsubscribe _ => Unit

namespace StreamState

variable (s : StreamState)

def createMessage (m : ConversationMessage) :
    Except RuntimeException ConversationMessage × StreamState :=
  if s.sql && (s.messages.get m.id).isSome then
    (.error ⟨.integrityError, "UNIQUE constraint failed: conversation_messages.id"⟩, s)
  else (.ok m, { s with messages := s.messages.put m })

end StreamState

def streamHandler : Handler StreamSig StreamState
  | .getConversation id, s => (id ∈ s.conversations, s)
  | .createMessage m, s => s.createMessage m
  | .publish conversationId event, s =>
    ((), { s with queues := s.queues.map (EventQueue.put conversationId event) })
  | .listByConversation id, s => (listByConversation s.messages id, s)
  | .subscribe conversationId, s =>
    (s.queues.length, { s with queues := s.queues ++ [{ conversationId }] })
  | .getEvent queue, s =>
    match s.queues[queue]? with
    | some q => (q.events.head?,
        { s with queues := s.queues.set queue { q with events := q.events.tail } })
    | none => (none, s)
  | .yieldEvent _, s => ((), s)
  | .unsubscribe queue, s =>
    match s.queues[queue]? with
    | some q => ((), { s with queues := s.queues.set queue { q with subscribed := false } })
    | none => ((), s)

/-! ### Calls -/

inductive StreamError where
  | conversationNotFound (id : String)
  | repository (e : RuntimeException)

inductive StreamCall where
  /-- `post_message` of a validated message. -/
  | post (m : ConversationMessage)
  /-- `stream_conversation_events` for a client that stays for some turns. -/
  | stream (conversationId : String) (after : Option String) (turns : ℕ)
  /-- Another event of a conversation is published. -/
  | activity (conversationId id eventType : String)

inductive StreamAnswer where
  | posted (m : ConversationMessage)
  | closed

abbrev StreamRun := Program StreamSig StreamError StreamAnswer

/-- `post_message`, up to the replies. -/
def postMessage (m : ConversationMessage) : StreamRun :=
  .call (.getConversation m.conversationId) fun found =>
    if found = false then .raise (.conversationNotFound m.conversationId)
    else .call (.createMessage m) fun created =>
      match created with
      | .error e => .raise (.repository e)
      | .ok created =>
        .call (.publish m.conversationId (.message created)) fun _ => .done (.posted created)

/-- The messages that the client is handed before the stream goes on. -/
def replay (next : StreamRun) : List ConversationMessage → StreamRun
  | [] => next
  | m :: ms => .call (.yieldEvent (.message m)) fun _ => replay next ms

/-- The loop over a queue; where nothing comes in time the client is told so. -/
def streamQueue (queue : ℕ) : ℕ → StreamRun
  | 0 => .call (.unsubscribe queue) fun _ => .done .closed
  | turns + 1 => .call (.getEvent queue) fun event =>
    .call (.yieldEvent (event.getD .idle)) fun _ => streamQueue queue turns

/-- `stream_conversation_events`. -/
def streamConversationEvents (conversationId : String) (after : Option String) (turns : ℕ) :
    StreamRun :=
  .call (.getConversation conversationId) fun found =>
    if found = false then .raise (.conversationNotFound conversationId)
    else .call (.listByConversation conversationId) fun messages =>
      replay (.call (.subscribe conversationId) fun queue => streamQueue queue turns)
        (messagesAfterCursor messages after)

def StreamCall.code : StreamCall → StreamRun
  | .post m => postMessage m
  | .stream conversationId after turns => streamConversationEvents conversationId after turns
  | .activity conversationId id eventType =>
    .call (.publish conversationId (.other id eventType)) fun _ => .done .closed

/-! ### Listings -/

section Listings

variable {messages : ConversationMessages} {conversationId : String} {m c : ConversationMessage}

theorem mem_listByConversation :
    m ∈ listByConversation messages conversationId ↔
      m ∈ messages.items ∧ m.conversationId = conversationId := by
  simp [listByConversation, List.mem_filter, List.mem_insertionSort]

theorem pairwise_listByConversation (messages : ConversationMessages) (conversationId : String) :
    (listByConversation messages conversationId).Pairwise fun m m' => m.key ≤ m'.key := by
  have : Std.Total fun m m' : ConversationMessage => m.key ≤ m'.key :=
    ⟨fun m m' => le_total m.key m'.key⟩
  have : IsTrans ConversationMessage fun m m' => m.key ≤ m'.key := ⟨fun _ _ _ h h' => h.trans h'⟩
  exact (List.pairwise_insertionSort _ _).filter _

/-- **What comes after the cursor is not cut off** from a list in order. -/
theorem mem_messagesAfterCursor {l : List ConversationMessage} {after : Option String}
    (hsorted : l.Pairwise fun m m' => m.key ≤ m'.key) (hm : m ∈ l)
    (hafter : ∀ c ∈ l, some c.id = after → c.key < m.key) : m ∈ messagesAfterCursor l after := by
  cases after with
  | none => exact hm
  | some id =>
    unfold messagesAfterCursor
    dsimp only
    split
    · exact hm
    · next c rest hdrop =>
      have hsplit : l.takeWhile (·.id ≠ id) ++ c :: rest = l := by
        rw [← hdrop]
        exact List.takeWhile_append_dropWhile
      have hc : c.id = id := by
        have hhead := List.head?_dropWhile_not (fun m : ConversationMessage =>
          decide (m.id ≠ id)) l
        rw [hdrop] at hhead
        simpa using hhead
      have hcm : c.key < m.key := hafter c (by rw [← hsplit]; simp) (congrArg some hc)
      rw [← hsplit] at hm hsorted
      rcases List.mem_append.mp hm with hm | hm
      · have hle := (List.pairwise_append.mp hsorted).2.2 m hm c List.mem_cons_self
        exact absurd hle (not_le.mpr hcm)
      · rcases List.mem_cons.mp hm with rfl | hm
        · exact absurd hcm (lt_irrefl _)
        · exact hm

end Listings

end OpenAgency
