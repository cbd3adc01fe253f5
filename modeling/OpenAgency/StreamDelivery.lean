/-
StreamDelivery.lean

Which messages a stream hands to its client.

A message reaches a stream with its listing or through its queue.  One that is created after
the listing and published before the subscription reaches it in neither way.  In a run
without such a message every message that a call of `post_message` has returned is handed
over, once the queue is drained (`stream_losesNothing`).
-/
import OpenAgency.ConversationStream

namespace OpenAgency

open Relational Interaction List Pool.Together EventQueue StreamCall
open StreamEvent (message)
open Program (follows_call follows_done follows_raise)

/-! ### Stages of a call -/

/-- How far a call has come: what it has created or published, or what the stream has listed
and the event that it has taken from its queue. -/
inductive StreamPoint where
  | start
  | found
  | failed
  | created (m : ConversationMessage)
  | published (m : ConversationMessage)
  | listed (conversationId : String) (messages : List ConversationMessage)
  | live (conversationId : String) (messages : List ConversationMessage) (queue : ℕ)
      (pending : Option StreamEvent)
  | closed

/-- The point that a call has reached and what it has handed to its client. -/
structure StreamStage where
  point : StreamPoint := .start
  yielded : List StreamEvent := []

namespace StreamPoint

def afterPublish : StreamPoint → StreamPoint
  | .created m => .published m
  | p => p

def afterSubscribe (queue : ℕ) : StreamPoint → StreamPoint
  | .listed conversationId messages => .live conversationId messages queue none
  | p => p

/-- What is pending is what was taken, until it is handed on. -/
def withPending (pending : Option StreamEvent) : StreamPoint → StreamPoint
  | .live conversationId messages queue _ => .live conversationId messages queue pending
  | p => p

end StreamPoint

namespace StreamStage

def next (φ : StreamStage) : Event StreamSig → StreamStage
  | ⟨.getConversation _, _⟩ => { φ with point := .found }
  | ⟨.createMessage m, .ok _⟩ => { φ with point := .created m }
  | ⟨.createMessage _, .error _⟩ => { φ with point := .failed }
  | ⟨.publish _ _, _⟩ => { φ with point := φ.point.afterPublish }
  | ⟨.listByConversation id, messages⟩ => { φ with point := .listed id messages }
  | ⟨.subscribe _, queue⟩ => { φ with point := φ.point.afterSubscribe queue }
  | ⟨.getEvent _, event⟩ => { φ with point := φ.point.withPending event }
  | ⟨.yieldEvent event, _⟩ =>
    { point := φ.point.withPending none, yielded := φ.yielded ++ [event] }
  | ⟨.unsubscribe _, _⟩ => { φ with point := .closed }

/-- What a call may do in a stage. -/
def Allows : StreamCall → StreamStage → StreamOp → Prop
  | .post _, ⟨.start, _⟩, .getConversation _ => True
  | .post m, ⟨.found, _⟩, .createMessage m' => m' = m
  | .post m, ⟨.created m', _⟩, .publish conversationId event =>
    m' = m ∧ conversationId = m.conversationId ∧ event = .message m
  | .stream _ _ _, ⟨.start, _⟩, .getConversation _ => True
  | .stream conversationId _ _, ⟨.found, _⟩, .listByConversation id => id = conversationId
  | .stream _ _ _, ⟨.listed _ _, _⟩, .yieldEvent _ => True
  | .stream conversationId after _, ⟨.listed listed messages, yielded⟩, .subscribe id =>
    (listed = conversationId ∧ id = conversationId) ∧
      ∀ m ∈ messagesAfterCursor messages after, message m ∈ yielded
  | .stream _ _ _, ⟨.live _ _ queue pending, _⟩, .getEvent queue' =>
    queue' = queue ∧ pending = none
  | .stream _ _ _, ⟨.live _ _ _ pending, _⟩, .yieldEvent event => event = pending.getD .idle
  | .stream _ _ _, ⟨.live _ _ queue pending, _⟩, .unsubscribe queue' =>
    queue' = queue ∧ pending = none
  | .activity _ _ _, ⟨.start, _⟩, .publish _ (.other _ _) => True
  | _, _, _ => False

end StreamStage

abbrev streamProtocol : Protocol StreamSig StreamCall StreamStage where
  start := {}
  next := StreamStage.next
  allowed := StreamStage.Allows
  answers
    | _, .createMessage m, .ok created => created = m
    | _, _, _ => True

/-- A call of `post_message` that returns has published its message. -/
def Publishes : StreamCall → StreamAnswer → StreamStage → Prop
  | .post m, _, φ => φ.point = .published m
  | _, _, _ => True

section Programs

theorem follows_postMessage (m : ConversationMessage) :
    (postMessage m).Follows streamProtocol (.post m) (Publishes (.post m)) (fun _ _ => True) {} := by
  unfold postMessage
  refine follows_call trivial fun found _ => ?_
  split
  · exact follows_raise trivial
  · refine follows_call rfl fun created hcreated => ?_
    cases created with
    | error e => exact follows_raise trivial
    | ok created =>
      obtain rfl : created = m := hcreated
      exact follows_call ⟨rfl, rfl, rfl⟩ fun _ _ => follows_done rfl

variable {conversationId : String} {after : Option String} {turns : ℕ}

theorem follows_streamQueue (messages : List ConversationMessage) (queue n : ℕ)
    (yielded : List StreamEvent) :
    (streamQueue queue n).Follows streamProtocol (.stream conversationId after turns)
      (Publishes (.stream conversationId after turns)) (fun _ _ => True)
      ⟨.live conversationId messages queue none, yielded⟩ := by
  induction n generalizing yielded with
  | zero => exact follows_call ⟨rfl, rfl⟩ fun _ _ => follows_done trivial
  | succ n ih =>
    unfold streamQueue
    refine follows_call ⟨rfl, rfl⟩ fun event _ => ?_
    exact follows_call (by cases event <;> rfl) fun _ _ => ih _

/-- Handing over `left` leads to where all messages of `messages` have been handed over. -/
theorem follows_replay (messages left : List ConversationMessage) (n : ℕ)
    (yielded : List StreamEvent)
    (h : ∀ m ∈ messagesAfterCursor messages after, m ∈ left ∨ message m ∈ yielded) :
    (replay (.call (.subscribe conversationId) fun queue => streamQueue queue n) left).Follows
      streamProtocol (.stream conversationId after turns)
      (Publishes (.stream conversationId after turns)) (fun _ _ => True)
      ⟨.listed conversationId messages, yielded⟩ := by
  induction left generalizing yielded with
  | nil =>
    refine follows_call ⟨⟨rfl, rfl⟩, fun m hm => ?_⟩ fun queue _ => ?_
    · exact (h m hm).resolve_left not_mem_nil
    · exact follows_streamQueue messages queue n yielded
  | cons m left ih =>
    refine follows_call trivial fun _ _ => ih _ fun m' hm' => ?_
    rcases h m' hm' with hmem | hmem
    · rcases List.mem_cons.mp hmem with rfl | hmem
      · exact .inr (mem_append_right _ (mem_singleton_self _))
      · exact .inl hmem
    · exact .inr (mem_append_left _ hmem)

theorem follows_streamCode (call : StreamCall) :
    call.code.Follows streamProtocol call (Publishes call) (fun _ _ => True) {} := by
  cases call with
  | post m => exact follows_postMessage m
  | activity conversationId id eventType =>
    exact follows_call trivial fun _ _ => follows_done trivial
  | stream conversationId after turns =>
    show (streamConversationEvents conversationId after turns).Follows _ _ _ _ _
    unfold streamConversationEvents
    refine follows_call trivial fun found _ => ?_
    split
    · exact follows_raise trivial
    · refine follows_call rfl fun messages _ => ?_
      exact follows_replay messages _ turns _ fun m hm => .inl hm

end Programs

/-! ### What a call may do -/

namespace StreamStage

variable {l : StreamCall} {point : StreamPoint} {yielded : List StreamEvent} {id : String}
  {m : ConversationMessage} {event : StreamEvent} {queue : ℕ}

theorem allows_getConversation (h : Allows l ⟨point, yielded⟩ (.getConversation id)) :
    point = .start := by
  cases l <;> cases point <;> first | rfl | cases h

theorem allows_createMessage (h : Allows l ⟨point, yielded⟩ (.createMessage m)) :
    l = .post m ∧ point = .found := by
  cases l <;> cases point <;> first | exact ⟨congrArg _ h.symm, rfl⟩ | cases h

theorem allows_publish (h : Allows l ⟨point, yielded⟩ (.publish id event)) :
    (∃ m, point = .created m ∧ id = m.conversationId ∧ event = .message m) ∨ point = .start ∧
      ∀ m, event ≠ .message m := by
  cases l <;> cases point <;> cases event <;>
    first
    | exact .inl ⟨_, rfl, h.1 ▸ h.2.1, h.1 ▸ h.2.2⟩
    | exact .inr ⟨rfl, fun _ => StreamEvent.noConfusion⟩
    | cases h

theorem allows_listByConversation (h : Allows l ⟨point, yielded⟩ (.listByConversation id)) :
    point = .found := by
  cases l <;> cases point <;> first | rfl | cases h

theorem allows_subscribe (h : Allows l ⟨point, yielded⟩ (.subscribe id)) :
    ∃ after turns messages, l = .stream id after turns ∧ point = .listed id messages ∧
      ∀ m ∈ messagesAfterCursor messages after, message m ∈ yielded := by
  cases l <;> cases point <;>
    first
    | exact ⟨_, _, _, by rw [h.1.2], by rw [h.1.1, h.1.2], h.2⟩
    | cases h

theorem allows_getEvent (h : Allows l ⟨point, yielded⟩ (.getEvent queue)) :
    ∃ id messages, point = .live id messages queue none := by
  cases l <;> cases point <;>
    first
    | exact ⟨_, _, by rw [h.1, h.2]⟩
    | cases h

theorem allows_unsubscribe (h : Allows l ⟨point, yielded⟩ (.unsubscribe queue)) :
    ∃ id messages, point = .live id messages queue none := by
  cases l <;> cases point <;>
    first
    | exact ⟨_, _, by rw [h.1, h.2]⟩
    | cases h

/-- A stream hands over what it has listed, then what it took from its queue. -/
theorem allows_yieldEvent (h : Allows l ⟨point, yielded⟩ (.yieldEvent event)) :
    (∃ id messages, point = .listed id messages) ∨
      ∃ id messages queue pending, point = .live id messages queue pending ∧
        event = pending.getD .idle := by
  cases l with
  | stream id after turns =>
    cases point with
    | listed id messages => exact .inl ⟨id, messages, rfl⟩
    | live id messages queue' pending => exact .inr ⟨id, messages, queue', pending, rfl, h⟩
    | _ => cases h
  | _ => cases point <;> cases h

end StreamStage

/-! ### The invariant -/

namespace StreamStage

/-- Messages of a conversation that are stored, in order. -/
structure Listing (s : StreamState) (conversationId : String)
    (messages : List ConversationMessage) : Prop where
  stored : ∀ m ∈ messages, m ∈ s.messages.items ∧ m.conversationId = conversationId
  sorted : messages.Pairwise fun m m' => m.key ≤ m'.key

/-- A call is in order by itself. -/
def Kept (s : StreamState) : StreamCall → StreamStage → Prop
  | _, ⟨.created m, _⟩ | _, ⟨.published m, _⟩ => m ∈ s.messages.items
  | _, ⟨.listed conversationId messages, _⟩ => Listing s conversationId messages
  | call, ⟨.live conversationId messages queue _, yielded⟩ =>
    Listing s conversationId messages ∧
      (∀ id after turns, call = .stream id after turns →
        id = conversationId ∧ ∀ m ∈ messagesAfterCursor messages after, .message m ∈ yielded) ∧
      ∃ q, s.queues[queue]? = some q ∧ q.subscribed ∧ q.conversationId = conversationId
  | _, _ => True

/-- A message has reached a stream, or will. -/
def Reached (s : StreamState) (m : ConversationMessage) : StreamStage → Prop
  | ⟨.listed conversationId messages, _⟩ => m.conversationId = conversationId → m ∈ messages
  | ⟨.live conversationId messages queue pending, yielded⟩ =>
    m.conversationId = conversationId → m ∈ messages ∨
      (∃ q, s.queues[queue]? = some q ∧ message m ∈ q.events) ∨
      pending = some (.message m) ∨ .message m ∈ yielded
  | _ => True

def queue? : StreamStage → Option ℕ
  | ⟨.live _ _ queue _, _⟩ => some queue
  | _ => none

/-- Two calls are in order: a stream is reached by what is published, and no two streams
take from one queue. -/
def InOrder (s : StreamState) (φ ψ : StreamStage) : Prop :=
  (∀ m, ψ.point = .published m → φ.Reached s m) ∧ ∀ n, φ.queue? = some n → ψ.queue? ≠ some n

end StreamStage

/-- The invariant of a run. -/
abbrev Delivering : StreamState → List (StreamCall × StreamStage) → Prop :=
  Pool.Together (fun _ => True) StreamStage.Kept StreamStage.InOrder

/-- No message takes the identifier of another, and a message is published while a stream is
between its listing and its subscription only if the stream has listed it. -/
def PublishesHeard (s : StreamState) (ps : List (StreamCall × StreamStage)) (_ : ℕ) :
    StreamOp → Prop
  | .createMessage m => s.sql = true ∨ s.messages.get m.id = none
  | .publish conversationId (.message m) => ∀ p ∈ ps, ∀ messages,
      p.2.point = .listed conversationId messages → m ∈ messages
  | _ => True

/-! ### Steps -/

namespace StreamStage

/-- A queue is still there, and so is what it holds. -/
def QueueKept (s s' : StreamState) (n : ℕ) : Prop :=
  ∀ q, s.queues[n]? = some q → ∃ q', s'.queues[n]? = some q' ∧ q'.subscribed = q.subscribed ∧
    q'.conversationId = q.conversationId ∧ ∀ e ∈ q.events, e ∈ q'.events

variable {s s' : StreamState} {ps : List (StreamCall × StreamStage)} {i : ℕ} {l : StreamCall}
  {φ φ' ψ : StreamStage} {m : ConversationMessage}

theorem queueKept_of_eq (h : s'.queues = s.queues) (n : ℕ) : QueueKept s s' n := by
  intro q hq
  exact ⟨q, by rw [h, hq], rfl, rfl, fun _ h => h⟩

theorem Listing.mono {id : String} {messages : List ConversationMessage}
    (h : Listing s id messages) (hmessages : ∀ m ∈ s.messages.items, m ∈ s'.messages.items) :
    Listing s' id messages :=
  ⟨fun m hm => (h.stored m hm).imp_left (hmessages m), h.sorted⟩

theorem Kept.mono (h : ψ.Kept s l) (hmessages : ∀ m ∈ s.messages.items, m ∈ s'.messages.items)
    (hqueue : ∀ n, ψ.queue? = some n → QueueKept s s' n) : ψ.Kept s' l := by
  obtain ⟨point, yielded⟩ := ψ
  cases point with
  | start => trivial
  | found => trivial
  | failed => trivial
  | created m => exact hmessages m h
  | published m => exact hmessages m h
  | listed id messages => exact Listing.mono h hmessages
  | live id messages queue pending =>
    obtain ⟨hlisting, hhanded, q, hq, hsubscribed, hid⟩ := h
    obtain ⟨q', hq', hsubscribed', hid', -⟩ := hqueue queue rfl q hq
    exact ⟨hlisting.mono hmessages, hhanded, q', hq', hsubscribed' ▸ hsubscribed,
      hid'.trans hid⟩
  | closed => trivial

theorem Reached.mono (h : ψ.Reached s m) (hqueue : ∀ n, ψ.queue? = some n → QueueKept s s' n) :
    ψ.Reached s' m := by
  obtain ⟨point, yielded⟩ := ψ
  cases point with
  | live id messages queue pending =>
    intro hid
    refine (h hid).imp_right (Or.imp_left ?_)
    rintro ⟨q, hq, hmem⟩
    obtain ⟨q', hq', -, -, hevents⟩ := hqueue queue rfl q hq
    exact ⟨q', hq', hevents _ hmem⟩
  | listed id messages => exact h
  | _ => trivial

/-- The queue of a stream exists. -/
theorem Kept.queue_lt (h : ψ.Kept s l) {n : ℕ} (hn : ψ.queue? = some n) : n < s.queues.length := by
  obtain ⟨point, yielded⟩ := ψ
  cases point with
  | live id messages queue pending =>
    obtain rfl : queue = n := Option.some.inj hn
    obtain ⟨-, -, q, hq, -⟩ := h
    exact (List.getElem?_eq_some_iff.mp hq).1
  | _ => cases hn

/-- What is published is stored. -/
theorem Kept.mem_of_published (h : ψ.Kept s l) (hm : ψ.point = .published m) :
    m ∈ s.messages.items := by
  obtain ⟨point, yielded⟩ := ψ
  obtain rfl : point = .published m := hm
  exact h

end StreamStage

section Steps

variable {s s' : StreamState} {ps : List (StreamCall × StreamStage)} {i : ℕ} {l : StreamCall}
  {φ φ' : StreamStage}

open StreamStage

/-- **A step** that loses no message, leaves the queues of others as they are, and publishes
only what every stream is reached by. -/
theorem Delivering.step (h : Delivering s ps) (hi : ps[i]? = some (l, φ))
    (hmessages : ∀ m ∈ s.messages.items, m ∈ s'.messages.items)
    (hqueues : ∀ n, φ.queue? ≠ some n → QueueKept s s' n) (hkept : φ'.Kept s' l)
    (hreached : ∀ m ∈ s.messages.items, φ.Reached s m → φ'.Reached s' m)
    (hpublished : ∀ m, φ'.point = .published m → ∀ p ∈ ps, p.2.Kept s p.1 → p.2.Reached s' m)
    (hqueue : ∀ n, φ'.queue? = some n → φ.queue? = some n ∨ s.queues.length ≤ n) :
    Delivering s' (ps.set i (l, φ')) := by
  have hother : ∀ {ψ : StreamStage}, φ.InOrder s ψ → ∀ n, ψ.queue? = some n → QueueKept s s' n := by
    intro ψ hφψ n hn
    exact hqueues n fun hφ => hφψ.2 n hφ hn
  refine Pool.Together.step h hi trivial hkept (fun j l' ψ _ hj hψ hφψ hψφ => ?_) ?_
  · have hqueueψ := hother hφψ
    have hapart : ∀ n, φ'.queue? = some n → ψ.queue? ≠ some n := by
      intro n hn hn'
      rcases hqueue n hn with hold | hnew
      · exact hφψ.2 n hold hn'
      · exact absurd (hψ.queue_lt hn') (not_lt.mpr hnew)
    refine ⟨hψ.mono hmessages hqueueψ, ⟨fun m hm => ?_, hapart⟩, ?_, ?_⟩
    · exact hreached m (hψ.mem_of_published hm) (hφψ.1 m hm)
    · exact fun m hm => hpublished m hm (l', ψ) (mem_of_getElem? hj) hψ
    · exact fun n hn hn' => hapart n hn' hn
  · intro ψ χ hφψ _ hψχ
    exact ⟨fun m hm => (hψχ.1 m hm).mono (hother hφψ), hψχ.2⟩

/-- A step that leaves the state as it is. -/
theorem Delivering.stay (h : Delivering s ps) (hi : ps[i]? = some (l, φ)) (hkept : φ'.Kept s l)
    (hreached : ∀ m ∈ s.messages.items, φ.Reached s m → φ'.Reached s m)
    (hpublished : ∀ m, φ'.point ≠ .published m)
    (hqueue : φ'.queue? = φ.queue? ∨ φ'.queue? = none) : Delivering s (ps.set i (l, φ')) := by
  refine Delivering.step h hi (fun _ hm => hm) (fun n _ => queueKept_of_eq rfl n) hkept hreached
    (fun m hm => absurd hm (hpublished m)) fun n hn => ?_
  rcases hqueue with heq | hnone
  · exact .inl (heq ▸ hn)
  · rw [hnone] at hn
    cases hn

variable {m : ConversationMessage} {conversationId : String} {yielded : List StreamEvent}

theorem delivering_created (h : Delivering s ps) (hi : ps[i]? = some (l, ⟨.found, yielded⟩))
    (hnew : s.messages.get m.id = none) :
    Delivering { s with messages := s.messages.put m } (ps.set i (l, ⟨.created m, yielded⟩)) := by
  refine Delivering.step h hi (fun r hr => ?_) (fun n _ => queueKept_of_eq rfl n) ?_
    (fun _ _ _ => trivial) (fun m' hm' => ?_) fun n hn => ?_
  · -- no stored message has the identifier of the new one
    refine Catalog.mem_put.mpr (.inr ⟨hr, fun hid => ?_⟩)
    have hget := Catalog.get_of_mem hr
    rw [hid, hnew] at hget
    cases hget
  · exact Catalog.mem_put.mpr (.inl rfl)
  · cases hm'
  · cases hn

theorem queueKept_publish (event : StreamEvent) (n : ℕ) :
    QueueKept s { s with queues := s.queues.map (put conversationId event) } n := by
  intro q hq
  refine ⟨q.put conversationId event, ?_, ?_⟩
  · show (s.queues.map (put conversationId event))[n]? = _
    rw [List.getElem?_map, hq, Option.map_some]
  · unfold put
    split
    · exact ⟨rfl, rfl, fun e he => mem_append_left _ he⟩
    · exact ⟨rfl, rfl, fun e he => he⟩

/-- What is published reaches a stream that has subscribed, and one that has listed it. -/
theorem reached_publish {ψ : StreamStage} (hψ : ψ.Kept s l)
    (hlisted : ∀ messages, ψ.point = .listed m.conversationId messages → m ∈ messages) :
    ψ.Reached { s with queues := s.queues.map (put m.conversationId (.message m)) } m := by
  obtain ⟨point, yielded⟩ := ψ
  cases point with
  | listed id messages =>
    intro hid
    subst hid
    exact hlisted messages rfl
  | live id messages queue pending =>
    intro hid
    obtain ⟨-, -, q, hq, hsubscribed, hconversation⟩ := hψ
    refine .inr (.inl ⟨q.put m.conversationId (.message m), ?_, ?_⟩)
    · show (s.queues.map _)[queue]? = _
      rw [List.getElem?_map, hq, Option.map_some]
    · have hput : (q.subscribed && q.conversationId = m.conversationId) = true := by
        rw [hsubscribed, hconversation, hid]
        simp
      unfold put
      rw [if_pos hput]
      exact mem_append_right _ (mem_singleton_self _)
  | _ => trivial

theorem delivering_published (h : Delivering s ps) (hi : ps[i]? = some (l, ⟨.created m, yielded⟩))
    (hlisted : ∀ p ∈ ps, ∀ messages, p.2.point = .listed m.conversationId messages → m ∈ messages) :
    Delivering { s with queues := s.queues.map (put m.conversationId (.message m)) }
      (ps.set i (l, ⟨.published m, yielded⟩)) := by
  have hkept : StreamStage.Kept s l ⟨.created m, yielded⟩ := each h hi
  refine Delivering.step h hi (fun _ hr => hr) (fun n _ => queueKept_publish _ n) hkept
    (fun _ _ _ => trivial) (fun m' hm' p hp hkept => ?_) fun n hn => ?_
  · obtain rfl : m = m' := StreamPoint.published.inj hm'
    exact reached_publish hkept (hlisted p hp)
  · cases hn

theorem delivering_activity (h : Delivering s ps) (hi : ps[i]? = some (l, ⟨.start, yielded⟩))
    (event : StreamEvent) :
    Delivering { s with queues := s.queues.map (put conversationId event) }
      (ps.set i (l, ⟨.start, yielded⟩)) := by
  refine Delivering.step h hi (fun _ hr => hr) (fun n _ => queueKept_publish _ n) trivial
    (fun _ _ _ => trivial) (fun m' hm' => ?_) fun n hn => ?_
  · cases hm'
  · cases hn

theorem delivering_listed (h : Delivering s ps) (hi : ps[i]? = some (l, ⟨.found, yielded⟩)) :
    Delivering s (ps.set i
      (l, ⟨.listed conversationId (listByConversation s.messages conversationId), yielded⟩)) := by
  refine Delivering.stay h hi ⟨fun m hm => ?_, pairwise_listByConversation _ _⟩ (fun m hm _ => ?_)
    (fun m hm => ?_) (.inl rfl)
  · exact mem_listByConversation.mp hm
  · exact fun hid => mem_listByConversation.mpr ⟨hm, hid⟩
  · cases hm

variable {messages : List ConversationMessage} {queue : ℕ} {pending : Option StreamEvent}

theorem delivering_subscribed {after : Option String} {turns : ℕ} (h : Delivering s ps)
    (hi : ps[i]? = some (.stream conversationId after turns,
      ⟨.listed conversationId messages, yielded⟩))
    (hhanded : ∀ m ∈ messagesAfterCursor messages after, message m ∈ yielded) :
    Delivering { s with queues := s.queues ++ [{ conversationId }] }
      (ps.set i (.stream conversationId after turns,
        ⟨.live conversationId messages s.queues.length none, yielded⟩)) := by
  have hlisting : StreamStage.Kept s (.stream conversationId after turns)
      ⟨.listed conversationId messages, yielded⟩ := each h hi
  refine Delivering.step h hi (fun _ hr => hr) (fun n _ q hq => ?_) ?_ (fun m _ hm hid => ?_)
    (fun m' hm' => ?_) fun n hn => ?_
  · have hlt := (List.getElem?_eq_some_iff.mp hq).1
    exact ⟨q, by rw [List.getElem?_append_left hlt, hq], rfl, rfl, fun _ h => h⟩
  · refine ⟨Listing.mono hlisting fun _ hr => hr, fun id after' turns' hcall => ?_,
      { conversationId }, ?_, rfl, rfl⟩
    · obtain ⟨rfl, rfl, -⟩ := stream.inj hcall
      exact ⟨rfl, hhanded⟩
    · exact List.getElem?_concat_length
  · exact .inl (hm hid)
  · cases hm'
  · obtain rfl : s.queues.length = n := Option.some.inj hn
    exact .inr le_rfl

theorem delivering_taken {q : EventQueue} (h : Delivering s ps)
    (hi : ps[i]? = some (l, ⟨.live conversationId messages queue none, yielded⟩))
    (hq : s.queues[queue]? = some q) :
    Delivering { s with queues := s.queues.set queue { q with events := q.events.tail } }
      (ps.set i (l, ⟨.live conversationId messages queue q.events.head?, yielded⟩)) := by
  have hlt := (List.getElem?_eq_some_iff.mp hq).1
  refine Delivering.step h hi (fun _ hr => hr) (fun n hn q' hq' => ?_) ?_ (fun m _ hm hid => ?_)
    (fun m' hm' => ?_) fun n hn => .inl hn
  · have hne : queue ≠ n := fun heq => hn (congrArg some heq)
    exact ⟨q', by rw [List.getElem?_set_ne hne, hq'], rfl, rfl, fun _ h => h⟩
  · obtain ⟨hlisting, hhanded, q', hq', hsubscribed, hid⟩ := each h hi
    obtain rfl : q = q' := Option.some.inj (hq.symm.trans hq')
    exact ⟨hlisting.mono fun _ hr => hr, hhanded, _, List.getElem?_set_self hlt, hsubscribed, hid⟩
  · -- the first event is taken, the others stay
    rcases hm hid with hmem | ⟨q', hq', hmem⟩ | hmem | hmem
    · exact .inl hmem
    · obtain rfl : q = q' := Option.some.inj (hq.symm.trans hq')
      rcases hevents : q.events with - | ⟨e, events⟩
      · rw [hevents] at hmem
        cases hmem
      · rw [hevents] at hmem
        rcases List.mem_cons.mp hmem with rfl | hmem
        · exact .inr (.inr (.inl rfl))
        · exact .inr (.inl ⟨_, List.getElem?_set_self hlt, hmem⟩)
    · cases hmem
    · exact .inr (.inr (.inr hmem))
  · cases hm'

theorem delivering_handed (h : Delivering s ps)
    (hi : ps[i]? = some (l, ⟨.live conversationId messages queue pending, yielded⟩)) :
    Delivering s (ps.set i
      (l, ⟨.live conversationId messages queue none, yielded ++ [pending.getD .idle]⟩)) := by
  refine Delivering.stay h hi ?_ (fun m _ hm hid => ?_) (fun m hm => ?_) (.inl rfl)
  · obtain ⟨hlisted, hhanded, hqueue⟩ := each h hi
    refine ⟨hlisted, fun id after turns hcall => ?_, hqueue⟩
    obtain ⟨hid, hyielded⟩ := hhanded id after turns hcall
    exact ⟨hid, fun m hm => mem_append_left _ (hyielded m hm)⟩
  · rcases hm hid with hmem | hmem | hpending | hmem
    · exact .inl hmem
    · exact .inr (.inl hmem)
    · have hevent : pending.getD .idle = .message m := by rw [hpending, Option.getD_some]
      rw [hevent]
      exact .inr (.inr (.inr (mem_append_right _ (mem_singleton_self _))))
    · exact .inr (.inr (.inr (mem_append_left _ hmem)))
  · cases hm

theorem delivering_closed {q : EventQueue} (h : Delivering s ps)
    (hi : ps[i]? = some (l, ⟨.live conversationId messages queue none, yielded⟩)) :
    Delivering { s with queues := s.queues.set queue { q with subscribed := false } }
      (ps.set i (l, ⟨.closed, yielded⟩)) := by
  refine Delivering.step h hi (fun _ hr => hr) (fun n hn q' hq' => ?_) trivial
    (fun _ _ _ => trivial) (fun m' hm' => ?_) fun n hn => ?_
  · have hne : queue ≠ n := fun heq => hn (congrArg some heq)
    exact ⟨q', by rw [List.getElem?_set_ne hne, hq'], rfl, rfl, fun _ h => h⟩
  · cases hm'
  · cases hn

theorem delivering_step (s : StreamState) (ps : List (StreamCall × StreamStage)) (i : ℕ)
    (l : StreamCall) (φ : StreamStage) (o : StreamOp) (h : Delivering s ps)
    (hi : ps[i]? = some (l, φ)) (hcond : PublishesHeard s ps i o)
    (ho : StreamStage.Allows l φ o) :
    streamProtocol.answers φ o (streamHandler o s).1 ∧
      Delivering (streamHandler o s).2
        (ps.set i (l, StreamStage.next φ ⟨o, (streamHandler o s).1⟩)) := by
  obtain ⟨point, yielded⟩ := φ
  cases o with
  | getConversation id =>
    obtain rfl := StreamStage.allows_getConversation ho
    refine ⟨trivial, Delivering.stay h hi trivial (fun _ _ _ => trivial) (fun m hm => ?_)
      (.inl rfl)⟩
    cases hm
  | createMessage m =>
    obtain ⟨rfl, rfl⟩ := StreamStage.allows_createMessage ho
    by_cases hrefused : s.sql && (s.messages.get m.id).isSome
    · have heq : s.createMessage m =
          (.error ⟨.integrityError, "UNIQUE constraint failed: conversation_messages.id"⟩, s) :=
        if_pos hrefused
      simp only [streamHandler, heq]
      refine ⟨trivial, Delivering.stay h hi trivial (fun _ _ _ => trivial) (fun m' hm' => ?_)
        (.inl rfl)⟩
      cases hm'
    · have heq : s.createMessage m = (.ok m, { s with messages := s.messages.put m }) :=
        if_neg hrefused
      simp only [streamHandler, heq]
      refine ⟨trivial, delivering_created h hi ?_⟩
      rcases hcond with hsql | hnone
      · simpa [hsql] using hrefused
      · exact hnone
  | publish conversationId event =>
    rcases StreamStage.allows_publish ho with ⟨m, rfl, rfl, rfl⟩ | ⟨rfl, hevent⟩
    · exact ⟨trivial, delivering_published h hi hcond⟩
    · exact ⟨trivial, delivering_activity h hi event⟩
  | listByConversation id =>
    obtain rfl := StreamStage.allows_listByConversation ho
    exact ⟨trivial, delivering_listed h hi⟩
  | subscribe id =>
    obtain ⟨after, turns, messages, rfl, rfl, hhanded⟩ := StreamStage.allows_subscribe ho
    exact ⟨trivial, delivering_subscribed h hi hhanded⟩
  | getEvent queue =>
    obtain ⟨id, messages, rfl⟩ := StreamStage.allows_getEvent ho
    obtain ⟨-, -, q, hq, -⟩ := each h hi
    simp only [streamHandler, hq]
    exact ⟨trivial, delivering_taken h hi hq⟩
  | yieldEvent event =>
    rcases StreamStage.allows_yieldEvent ho with ⟨id, messages, rfl⟩ |
      ⟨id, messages, queue, pending, rfl, rfl⟩
    · have hkept := each h hi
      refine ⟨trivial, Delivering.stay h hi hkept (fun _ _ hm => hm) (fun m hm => ?_) (.inl rfl)⟩
      cases hm
    · exact ⟨trivial, delivering_handed h hi⟩
  | unsubscribe queue =>
    obtain ⟨id, messages, rfl⟩ := StreamStage.allows_unsubscribe ho
    obtain ⟨-, -, q, hq, -⟩ := each h hi
    simp only [streamHandler, hq]
    exact ⟨trivial, delivering_closed h hi⟩

theorem delivering_start (h : Delivering s ps) (call : StreamCall) :
    Delivering s (ps ++ [(call, streamProtocol.start)]) := by
  have hkept : StreamStage.Kept s call streamProtocol.start := trivial
  refine start h hkept fun ψ => ⟨⟨fun m _ => ?_, fun n hn => ?_⟩,
    fun m hm => ?_, fun n _ hn => ?_⟩
  · exact (trivial : StreamStage.Reached s m streamProtocol.start)
  · cases hn
  · cases hm
  · cases hn

end Steps

/-! ### What a stream has handed over -/

abbrev StreamPool := Pool StreamSig StreamCall StreamState StreamError StreamAnswer

abbrev StreamProc := Proc StreamSig StreamCall StreamError StreamAnswer

/-- The events that a call has handed to its client. -/
def yieldedBy : List (Event StreamSig) → List StreamEvent
  | [] => []
  | ⟨.yieldEvent event, _⟩ :: past => event :: yieldedBy past
  | _ :: past => yieldedBy past

theorem yielded_foldl (past : List (Event StreamSig)) (φ : StreamStage) :
    (past.foldl StreamStage.next φ).yielded = φ.yielded ++ yieldedBy past := by
  induction past generalizing φ with
  | nil => exact (append_nil _).symm
  | cons e past ih =>
    rw [foldl_cons, ih]
    obtain ⟨o, r⟩ := e
    cases o with
    | yieldEvent event => simp [StreamStage.next, yieldedBy]
    | createMessage m => cases r <;> rfl
    | _ => rfl

theorem yielded_phase (past : List (Event StreamSig)) :
    (streamProtocol.phase past).yielded = yieldedBy past := yielded_foldl past _

/-- A stream that has handed over all that it took from its queue and is about to read it. -/
structure Drained (q : StreamPool) (p : StreamProc) (conversationId : String)
    (after : Option String) : Prop where
  started : ∃ turns, p.label = .stream conversationId after turns
  waits : ∃ n k queue, p.rest = .call (.getEvent n) k ∧ q.shared.queues[n]? = some queue ∧
    queue.events = []

/-- **The conversation stream loses no message** in a run without a message that is published
while a stream is between its listing and its subscription and has not listed it.  Where the
stream has drained its queue, what comes after the cursor and has been posted has been handed
over. -/
theorem stream_losesNothing {s : StreamState} {q : StreamPool} {p p' : StreamProc}
    {conversationId : String} {after : Option String} {m : ConversationMessage}
    (hrun : Pool.Runs code streamHandler (Pool.Staged streamProtocol PublishesHeard) ⟨s, [], []⟩ q)
    (hp : p ∈ q.procs) (hdrained : Drained q p conversationId after) (hp' : p' ∈ q.procs)
    (hpost : p'.label = .post m) (hreturned : p'.returned.isSome)
    (hconversation : m.conversationId = conversationId)
    (hafter : ∀ c ∈ q.shared.messages.items, c.conversationId = conversationId →
      some c.id = after → c.key < m.key) :
    .message m ∈ yieldedBy p.past := by
  have hnil : Delivering s [] := nil trivial
  obtain ⟨hinv, hfollows⟩ := Pool.Runs.staged (P := streamProtocol) (J := Delivering)
    (Q := Publishes) (E := fun _ _ _ => True) follows_streamCode
    (fun _ _ l h => delivering_start h l) delivering_step hnil hrun
  obtain ⟨⟨turns, hlabel⟩, n, k, queue, hrest, hqueue, hempty⟩ := hdrained
  obtain ⟨i, hi⟩ := List.getElem?_of_mem hp
  obtain ⟨j, hj⟩ := List.getElem?_of_mem hp'
  have hij : i ≠ j := by
    rintro rfl
    obtain rfl : p = p' := Option.some.inj (hi.symm.trans hj)
    cases hlabel.symm.trans hpost
  -- the stream waits for its queue, the message has been published
  have hlive : ∃ id messages, (streamProtocol.phase p.past).point = .live id messages n none := by
    have hrest' := hfollows p hp
    rw [hrest] at hrest'
    have hallowed := (Program.follows_call_iff.mp hrest').1
    exact StreamStage.allows_getEvent hallowed
  have hpublished : (streamProtocol.phase p'.past).point = .published m := by
    obtain ⟨l, past, rest⟩ := p'
    obtain rfl : l = .post m := hpost
    have hrest' := hfollows _ hp'
    cases rest with
    | done a =>
      have hends := Program.follows_done_iff.mp hrest'
      exact hends
    | raise e => cases hreturned
    | call o k => cases hreturned
  obtain ⟨id, messages, hpoint⟩ := hlive
  have hstage : (q.stages streamProtocol)[i]? = some (.stream conversationId after turns,
      ⟨.live id messages n none, yieldedBy p.past⟩) := by
    rw [Pool.stages, List.getElem?_map, hi, Option.map_some, hlabel, ← hpoint, ← yielded_phase]
  have hstage' : (q.stages streamProtocol)[j]? = some (.post m, streamProtocol.phase p'.past) := by
    rw [Pool.stages, List.getElem?_map, hj, Option.map_some, hpost]
  obtain ⟨hlisting, hhanded, -⟩ := each hinv hstage
  obtain ⟨rfl, hyielded⟩ := hhanded conversationId after turns rfl
  obtain ⟨hreached, -⟩ := pair hinv hij hstage hstage'
  rcases hreached m hpublished hconversation with hmem | ⟨queue', hqueue', hmem⟩ | hnone | hmem
  · refine hyielded m (mem_messagesAfterCursor hlisting.sorted hmem fun c hc hcursor => ?_)
    obtain ⟨hstored, hc⟩ := hlisting.stored c hc
    exact hafter c hstored hc hcursor
  · obtain rfl : queue = queue' := Option.some.inj (hqueue.symm.trans hqueue')
    rw [hempty] at hmem
    cases hmem
  · cases hnone
  · exact hmem

/-! ### Two posts and a stream -/

def streamedState : StreamState where
  conversations := ["c"]

def posted (id : String) (time : Time) : ConversationMessage where
  id := id
  conversationId := "c"
  role := .user
  messageType := .userText
  createdAt := time

/-- Two posts to a conversation and a stream of it, as `steps` interleaves them. -/
def postsAndStream (steps : List ℕ) : List (Act StreamCall) :=
  [.start (.post (posted "first" 1)), .start (.post (posted "second" 2)),
    .start (.stream "c" none 5)] ++ steps.map .step

/-- Whether a call is about to read an empty queue. -/
def readsEmpty (s : StreamState) (p : StreamProc) : Bool :=
  match p.rest with
  | .call (.getEvent n) _ => s.queues[n]?.any (·.events.isEmpty)
  | _ => false

theorem drained_of_readsEmpty {q : StreamPool} {p : StreamProc} {conversationId : String}
    {after : Option String} {turns : ℕ} (hlabel : p.label = .stream conversationId after turns)
    (h : readsEmpty q.shared p) : Drained q p conversationId after := by
  refine ⟨⟨turns, hlabel⟩, ?_⟩
  unfold readsEmpty at h
  split at h
  · next n k hrest =>
    rcases hqueue : q.shared.queues[n]? with - | queue
    · rw [hqueue] at h
      cases h
    · rw [hqueue, Option.any_some] at h
      exact ⟨n, k, queue, hrest, hqueue, List.isEmpty_iff.mp h⟩
  · cases h

/-- The identifiers of the messages that a call has handed over. -/
def handedOver (p : StreamProc) : List String :=
  (yieldedBy p.past).filterMap fun
    | .message m => some m.id
    | _ => none

theorem mem_handedOver {p : StreamProc} {m : ConversationMessage}
    (h : message m ∈ yieldedBy p.past) : m.id ∈ handedOver p :=
  List.mem_filterMap.mpr ⟨_, h, rfl⟩

def checkHeard (q : StreamPool) (_ : ℕ) : StreamOp → Bool
  | .createMessage m => q.shared.sql || (q.shared.messages.get m.id).isNone
  | .publish conversationId (.message _) => (q.stages streamProtocol).all fun p =>
    match p.2.point with
    | .listed id _ => id ≠ conversationId
    | _ => true
  | _ => true

theorem publishesHeard_of_check (q : StreamPool) (i : ℕ) (o : StreamOp) (h : checkHeard q i o) :
    PublishesHeard q.shared (q.stages streamProtocol) i o := by
  cases o with
  | createMessage m =>
    rcases Bool.or_eq_true_iff.mp h with hsql | hnone
    · exact .inl hsql
    · exact .inr (Option.isNone_iff_eq_none.mp hnone)
  | publish conversationId event =>
    cases event with
    | message m =>
      intro p hp messages hpoint
      have hapart := List.all_eq_true.mp h p hp
      rw [hpoint] at hapart
      simp at hapart
    | _ => trivial
  | _ => trivial

/-- What the three calls have come to: whether each has returned or waits for nothing more,
and what has been handed over. -/
def streamOutcome (q : StreamPool) : List (Bool × Bool × List String) :=
  q.procs.map fun p => (p.returned.isSome, readsEmpty q.shared p, handedOver p)

/-- The second post has returned, the stream has drained its queue. -/
theorem procs_postsAndStream {steps : List ℕ} {q : StreamPool} {ids : List String}
    (h : Pool.nexts code streamHandler ⟨streamedState, [], []⟩ (postsAndStream steps) = some q)
    (houtcome : streamOutcome q = [(true, false, []), (true, false, []), (false, true, ids)]) :
    ∃ p ∈ q.procs, ∃ p' ∈ q.procs, Drained q p "c" none ∧ handedOver p = ids ∧
      p'.label = .post (posted "second" 2) ∧ p'.returned.isSome := by
  have hlabels := Pool.labels_of_nexts h
  have hstarted : Pool.started (postsAndStream steps) = [.post (posted "first" 1),
      .post (posted "second" 2), .stream "c" none 5] := by
    simp [Pool.started, postsAndStream, filterMap_map]
  rw [hstarted] at hlabels
  unfold streamOutcome at houtcome
  obtain ⟨p₁, procs, hprocs, -, hrest⟩ := List.map_eq_cons_iff.mp houtcome
  obtain ⟨p₂, procs, rfl, hsecond, hrest⟩ := List.map_eq_cons_iff.mp hrest
  obtain ⟨p₃, procs, rfl, hthird, hrest⟩ := List.map_eq_cons_iff.mp hrest
  obtain rfl := List.map_eq_nil_iff.mp hrest
  rw [hprocs] at hlabels ⊢
  simp only [map_cons, map_nil, nil_append, List.cons.injEq, and_true] at hlabels
  simp only [Prod.mk.injEq] at hsecond hthird
  obtain ⟨-, hlabel₂, hlabel₃⟩ := hlabels
  exact ⟨p₃, by simp, p₂, by simp, drained_of_readsEmpty hlabel₃ hthird.2.1, hthird.2.2, hlabel₂,
    hsecond.1⟩

/-- One post before the stream, one after its subscription. -/
theorem stream_losesNothing_live :
    ∃ (q : StreamPool) (p : StreamProc), handedOver p = ["first", "second"] ∧
      Drained q p "c" none ∧ .message (posted "second" 2) ∈ yieldedBy p.past := by
  have hrun : (Pool.nextsWhere code streamHandler checkHeard ⟨streamedState, [], []⟩
      (postsAndStream [0, 0, 0, 2, 2, 2, 2, 1, 1, 1, 2, 2])).map streamOutcome =
      some [(true, false, []), (true, false, []), (false, true, ["first", "second"])] := by
    decide +kernel
  obtain ⟨q, hq, houtcome⟩ := Option.map_eq_some_iff.mp hrun
  obtain ⟨p, hp, p', hp', hdrained, hhanded, hlabel, hreturned⟩ :=
    procs_postsAndStream (Pool.nexts_of_nextsWhere hq) houtcome
  exact ⟨q, p, hhanded, hdrained, stream_losesNothing
    (Pool.runs_of_nextsWhere publishesHeard_of_check hq) hp hdrained hp' hlabel hreturned rfl
    fun _ _ _ hcursor => by cases hcursor⟩

/-- The second post comes between the listing and the subscription. -/
theorem stream_losesPost :
    ¬ ∀ (s : StreamState) (q : StreamPool) (p p' : StreamProc) (conversationId : String)
        (after : Option String) (m : ConversationMessage),
      Pool.Runs code streamHandler (fun _ _ => True) ⟨s, [], []⟩ q →
      p ∈ q.procs → Drained q p conversationId after → p' ∈ q.procs → p'.label = .post m →
      p'.returned.isSome → m.conversationId = conversationId →
      (∀ c ∈ q.shared.messages.items, c.conversationId = conversationId →
        some c.id = after → c.key < m.key) →
      .message m ∈ yieldedBy p.past := by
  intro hclaim
  have hrun : (Pool.nexts code streamHandler ⟨streamedState, [], []⟩
      (postsAndStream [0, 0, 0, 2, 2, 2, 1, 1, 1, 2])).map streamOutcome =
      some [(true, false, []), (true, false, []), (false, true, ["first"])] := by
    decide +kernel
  obtain ⟨q, hq, houtcome⟩ := Option.map_eq_some_iff.mp hrun
  obtain ⟨p, hp, p', hp', hdrained, hhanded, hlabel, hreturned⟩ := procs_postsAndStream hq houtcome
  have hmem := hclaim streamedState q p p' "c" none _ (Pool.runs_of_nexts hq) hp hdrained hp'
    hlabel hreturned rfl fun _ _ _ hcursor => by cases hcursor
  have hid := mem_handedOver hmem
  rw [hhanded] at hid
  revert hid
  decide

end OpenAgency
