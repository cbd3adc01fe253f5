/-
GraphOutbox.lean

The outbox of graph projection events and its two repositories.  An event is
stored under its `event_id`; `append` gives back the event that is already
there when the pair of source and source event id is, and `list_events` gives
the events after a cursor, oldest first.

The in-memory repository cuts a page at the cursor's place in the list.  The SQL
repository selects the rows that did not occur before the cursor, limits them,
and takes the cursor out of what is left, so the two are page functions of the
two kinds that `Lib/Paging` compares.
-/
import Mathlib.Data.List.Sort
import Mathlib.Data.String.Basic
import OpenAgency.Domain.Basic
import OpenAgency.Lib.Paging

namespace OpenAgency

open Paging List

/-! ### Events -/

structure GraphProjectionEvent where
  eventId : String
  eventType : String
  aggregateType : String
  aggregateId : String
  occurredAt : Time
  userId : Option String := none
  payload : Json := .obj []
  source : String := "application"
  sourceEventId : Option String := none
  status : String := "pending"
  attempts : ℕ := 0
  projectedAt : Option Time := none
  lastError : Option String := none

namespace GraphProjectionEvent

/-- The order of `(occurred_at, event_id)`. -/
def le (a b : GraphProjectionEvent) : Prop :=
  a.occurredAt < b.occurredAt ∨ a.occurredAt = b.occurredAt ∧ a.eventId ≤ b.eventId

instance (a b : GraphProjectionEvent) : Decidable (a.le b) := inferInstanceAs (Decidable (_ ∨ _))

instance : Std.Total GraphProjectionEvent.le where
  total a b := by
    rcases lt_trichotomy a.occurredAt b.occurredAt with h | h | h
    · exact .inl (.inl h)
    · rcases le_total a.eventId b.eventId with h' | h'
      · exact .inl (.inr ⟨h, h'⟩)
      · exact .inr (.inr ⟨h.symm, h'⟩)
    · exact .inr (.inl h)

instance : IsTrans GraphProjectionEvent GraphProjectionEvent.le where
  trans a b c := by
    rintro (hab | ⟨hab, hid⟩) (hbc | ⟨hbc, hid'⟩)
    · exact .inl (hab.trans hbc)
    · exact .inl (hbc ▸ hab)
    · exact .inl (hab ▸ hbc)
    · exact .inr ⟨hab.trans hbc, le_trans hid hid'⟩

theorem occurredAt_le_of_le {a b : GraphProjectionEvent} (h : a.le b) :
    a.occurredAt ≤ b.occurredAt := by
  rcases h with h | ⟨h, -⟩
  · exact le_of_lt h
  · exact le_of_eq h

/-- The events that two orders of each other hold in are stored under one id. -/
theorem eventId_eq_of_le_of_le {a b : GraphProjectionEvent} (h : a.le b) (h' : b.le a) :
    a.eventId = b.eventId := by
  have htime : a.occurredAt = b.occurredAt :=
    le_antisymm (occurredAt_le_of_le h) (occurredAt_le_of_le h')
  rw [le, htime] at h
  rw [le, htime] at h'
  simp only [lt_irrefl, false_or, true_and] at h h'
  exact le_antisymm h h'

end GraphProjectionEvent

/-! ### The stored events -/

/-- The events of the outbox, each under its own id, in the order they were first stored. -/
structure GraphOutbox where
  events : List GraphProjectionEvent
  nodup : (events.map GraphProjectionEvent.eventId).Nodup

namespace GraphOutbox

/-- `items[event.event_id] = event`: an existing id keeps its place. -/
def putEvent (event : GraphProjectionEvent) : List GraphProjectionEvent → List GraphProjectionEvent
  | [] => [event]
  | item :: items =>
    if item.eventId = event.eventId then event :: items else item :: putEvent event items

theorem eventIds_putEvent (event : GraphProjectionEvent) (items : List GraphProjectionEvent) :
    (putEvent event items).map (·.eventId)
      = if event.eventId ∈ items.map (·.eventId) then items.map (·.eventId)
        else items.map (·.eventId) ++ [event.eventId] := by
  induction items with
  | nil => rfl
  | cons item items ih =>
    by_cases h : item.eventId = event.eventId
    · simp [putEvent, h]
    · by_cases hmem : event.eventId ∈ items.map (·.eventId)
      · rw [if_pos hmem] at ih
        simp [putEvent, h, ih, mem_cons_of_mem _ hmem]
      · rw [if_neg hmem] at ih
        have hmem' : event.eventId ∉ (item :: items).map (·.eventId) := by
          rw [map_cons, mem_cons]
          exact not_or.mpr ⟨Ne.symm h, hmem⟩
        rw [if_neg hmem', putEvent, if_neg h, map_cons, ih, map_cons, cons_append]

/-- Store an event under its id. -/
def put (outbox : GraphOutbox) (event : GraphProjectionEvent) : GraphOutbox where
  events := putEvent event outbox.events
  nodup := by
    rw [eventIds_putEvent]
    by_cases h : event.eventId ∈ outbox.events.map (·.eventId)
    · rw [if_pos h]
      exact outbox.nodup
    · rw [if_neg h]
      exact List.nodup_append.mpr ⟨outbox.nodup, nodup_singleton _,
        fun a ha b hb e => h (by simpa [List.mem_singleton.mp hb, e] using ha)⟩

/-- An event whose id is not there yet goes to the end. -/
theorem putEvent_of_notMem {event : GraphProjectionEvent} {items : List GraphProjectionEvent}
    (h : event.eventId ∉ items.map (·.eventId)) : putEvent event items = items ++ [event] := by
  induction items with
  | nil => rfl
  | cons item items ih =>
    simp only [map_cons, mem_cons, not_or] at h
    rw [putEvent, if_neg (Ne.symm h.1), ih h.2, cons_append]

def empty : GraphOutbox := ⟨[], nodup_nil⟩

/-- The event stored under an id. -/
def get (outbox : GraphOutbox) (eventId : String) : Option GraphProjectionEvent :=
  outbox.events.find? (·.eventId = eventId)

/-- The first event of a source with a source event id. -/
def bySourceEvent (outbox : GraphOutbox) (source sourceEventId : String) :
    Option GraphProjectionEvent :=
  outbox.events.find? fun item => item.source = source ∧ item.sourceEventId = some sourceEventId

end GraphOutbox

/-- The events of a status; all of them where none is asked for. -/
def selectStatus (status : Option String) (items : List GraphProjectionEvent) :
    List GraphProjectionEvent :=
  match status with
  | some status => items.filter (·.status = status)
  | none => items

/-- Events ordered by `(occurred_at, event_id)`. -/
def ordered (items : List GraphProjectionEvent) : List GraphProjectionEvent :=
  items.insertionSort GraphProjectionEvent.le

theorem perm_ordered (items : List GraphProjectionEvent) : (ordered items).Perm items :=
  perm_insertionSort _ items

theorem pairwise_ordered (items : List GraphProjectionEvent) :
    (ordered items).Pairwise GraphProjectionEvent.le :=
  pairwise_insertionSort _ items

variable {items : List GraphProjectionEvent}

theorem nodup_ordered (h : (items.map GraphProjectionEvent.eventId).Nodup) :
    ((ordered items).map GraphProjectionEvent.eventId).Nodup :=
  ((perm_ordered items).map _).nodup_iff.mpr h

/-- Ordering and selecting commute where the ids differ. -/
theorem filter_ordered (h : (items.map GraphProjectionEvent.eventId).Nodup)
    (p : GraphProjectionEvent → Bool) :
    (ordered items).filter p = ordered (items.filter p) := by
  apply List.Perm.eq_of_pairwise _ ((pairwise_ordered items).filter p) (pairwise_ordered _)
  · exact ((perm_ordered items).filter p).trans (perm_ordered (items.filter p)).symm
  · intro a b ha hb hab hba
    have ha' := (perm_ordered items).mem_iff.mp (mem_of_mem_filter ha)
    have hb' := mem_of_mem_filter ((perm_ordered (items.filter p)).mem_iff.mp hb)
    exact inj_on_of_nodup_map h ha' hb' (GraphProjectionEvent.eventId_eq_of_le_of_le hab hba)

theorem nodup_selectStatus (h : (items.map GraphProjectionEvent.eventId).Nodup)
    (status : Option String) :
    ((selectStatus status items).map GraphProjectionEvent.eventId).Nodup := by
  rcases status with - | status
  · exact h
  · exact h.sublist (List.filter_sublist.map _)

theorem selectStatus_ordered (h : (items.map GraphProjectionEvent.eventId).Nodup)
    (status : Option String) :
    selectStatus status (ordered items) = ordered (selectStatus status items) := by
  rcases status with - | status
  · rfl
  · exact filter_ordered h _

/-! ### The repositories -/

namespace InMemoryGraphProjectionEventRepository

/-- `append`. -/
def append (items : GraphOutbox) (event : GraphProjectionEvent) :
    GraphProjectionEvent × GraphOutbox :=
  match event.sourceEventId with
  | none => (event, items.put event)
  | some sourceEventId =>
    if sourceEventId = "" then (event, items.put event)
    else
      match items.bySourceEvent event.source sourceEventId with
      | some existing => (existing, items)
      | none => (event, items.put event)

/-- `list_events`. -/
def listEvents (items : GraphOutbox) (status afterEventId : Option String) (limit : ℤ) :
    List GraphProjectionEvent :=
  let items := selectStatus status (ordered items.events)
  let items := match afterEventId with
    | some afterEventId => following GraphProjectionEvent.eventId afterEventId items
    | none => items
  items.take (max limit 0).toNat

end InMemoryGraphProjectionEventRepository

namespace SQLGraphProjectionEventRepository

/-- The lengths of the text columns. -/
def fits (event : GraphProjectionEvent) : Bool :=
  event.eventId.length ≤ 64 && event.eventType.length ≤ 128 &&
    event.aggregateType.length ≤ 64 && event.aggregateId.length ≤ 128 &&
    event.userId.all (·.length ≤ 255) && event.source.length ≤ 64 &&
    event.sourceEventId.all (·.length ≤ 128) && event.status.length ≤ 32

/-- `append`: the insert fails on a text that is too long, on the primary key and on the unique
pair of source and source event id, in which `NULL` differs from `NULL`. -/
def append (rows : GraphOutbox) (event : GraphProjectionEvent) :
    Except RuntimeException GraphProjectionEvent × GraphOutbox :=
  let existing := event.sourceEventId.bind fun ref => rows.bySourceEvent event.source ref
  if fits event = false then (.error ⟨.dataError, "value too long"⟩, rows)
  else if (rows.get event.eventId).isSome ∨ existing.isSome then
    match event.sourceEventId, existing with
    | some ref, some row =>
      if ref = "" then (.error ⟨.integrityError, ""⟩, rows) else (.ok row, rows)
    | _, _ => (.error ⟨.integrityError, ""⟩, rows)
  else (.ok event, rows.put event)

/-- `list_events`. -/
def listEvents (rows : GraphOutbox) (status afterEventId : Option String) (limit : ℤ) :
    List GraphProjectionEvent :=
  let selected := selectStatus status rows.events
  let anchor := afterEventId.bind rows.get
  let selected := match anchor with
    | some anchor => selected.filter fun row => anchor.occurredAt ≤ row.occurredAt
    | none => selected
  let items := (ordered selected).take (max limit 0).toNat
  match afterEventId with
  | some afterEventId => items.filter (·.eventId ≠ afterEventId)
  | none => items

end SQLGraphProjectionEventRepository

variable {event : GraphProjectionEvent}

/-! ### The two repositories as page functions -/

theorem inMemory_listEvents (items : GraphOutbox) (status afterEventId : Option String)
    {limit : ℤ} (hlimit : 1 ≤ limit) :
    InMemoryGraphProjectionEventRepository.listEvents items status afterEventId limit
      = pageAfter GraphProjectionEvent.eventId limit.toNat
          (ordered (selectStatus status items.events)) afterEventId := by
  unfold InMemoryGraphProjectionEventRepository.listEvents
  rw [selectStatus_ordered items.nodup, max_eq_left (by omega)]
  cases afterEventId <;> rfl

/-- The anchor is looked up among all rows, which makes no difference for a cursor among the
selected ones. -/
theorem find?_selectStatus (rows : GraphOutbox) (status : Option String)
    (h : event ∈ selectStatus status rows.events) :
    (ordered (selectStatus status rows.events)).find? (fun row => row.eventId = event.eventId)
        = some event ∧ rows.get event.eventId = some event := by
  have hfind : ∀ {items : List GraphProjectionEvent},
      (items.map GraphProjectionEvent.eventId).Nodup → event ∈ items →
        items.find? (fun row => row.eventId = event.eventId) = some event := by
    intro items hnodup hmem
    obtain ⟨before, rest, rfl⟩ := append_of_mem hmem
    exact find?_append (key_notMem hnodup).1
  have hmem : event ∈ rows.events := by
    rcases status with - | status
    · exact h
    · exact mem_of_mem_filter h
  exact ⟨hfind (nodup_ordered (nodup_selectStatus rows.nodup status))
    ((perm_ordered _).mem_iff.mpr h), hfind rows.nodup hmem⟩

theorem sql_listEvents (rows : GraphOutbox) (status : Option String)
    {afterEventId : Option String} {limit : ℤ} (hlimit : 1 ≤ limit)
    (hafter : ∀ id ∈ afterEventId,
      id ∈ (selectStatus status rows.events).map GraphProjectionEvent.eventId) :
    SQLGraphProjectionEventRepository.listEvents rows status afterEventId limit
      = pageFrom GraphProjectionEvent.eventId GraphProjectionEvent.occurredAt limit.toNat
          (ordered (selectStatus status rows.events)) afterEventId := by
  unfold SQLGraphProjectionEventRepository.listEvents
  rw [max_eq_left (by omega)]
  rcases afterEventId with - | id
  · rfl
  · obtain ⟨event, hevent, rfl⟩ := List.mem_map.mp (hafter id rfl)
    obtain ⟨hfind, hget⟩ := find?_selectStatus rows status hevent
    simp only [Option.bind_some, hget, pageFrom, hfind,
      filter_ordered (nodup_selectStatus rows.nodup status)]

/-! ### The cursor -/

/-- What a reader of the outbox may rely on, with either repository. -/
structure CursorLaw (outbox : GraphOutbox) (status : Option String) (limit : ℤ) : Prop where
  sql : VisitsAll GraphProjectionEvent.eventId
    (fun after => SQLGraphProjectionEventRepository.listEvents outbox status after limit)
    (ordered (selectStatus status outbox.events))
  inMemory : VisitsAll GraphProjectionEvent.eventId
    (fun after => InMemoryGraphProjectionEventRepository.listEvents outbox status after limit)
    (ordered (selectStatus status outbox.events))
  samePages : ∀ k, pages GraphProjectionEvent.eventId
      (fun after => SQLGraphProjectionEventRepository.listEvents outbox status after limit) k
    = pages GraphProjectionEvent.eventId
      (fun after => InMemoryGraphProjectionEventRepository.listEvents outbox status after limit) k

/-- The SQL repository's reader, which only passes ids of events it received. -/
theorem pages_sql (outbox : GraphOutbox) (status : Option String) {limit : ℤ}
    (hlimit : 1 ≤ limit) (k : ℕ) :
    pages GraphProjectionEvent.eventId
        (fun after => SQLGraphProjectionEventRepository.listEvents outbox status after limit) k
      = pages GraphProjectionEvent.eventId
          (pageFrom GraphProjectionEvent.eventId GraphProjectionEvent.occurredAt limit.toNat
            (ordered (selectStatus status outbox.events))) k := by
  refine pages_congr (fun k => ?_) k
  refine (sql_listEvents outbox status hlimit fun id hid => ?_).symm
  obtain ⟨event, hevent, rfl⟩ := Option.mem_map.mp hid
  apply mem_map_of_mem
  exact (perm_ordered _).mem_iff.mp (mem_of_mem_received (mem_of_getLast? hevent))

/-- **The outbox cursor.**  A reader of the outbox visits every event once and in order, gets an
empty page only at the end and gets the same pages from both repositories, exactly where there
are fewer than two pages of events and the last event of the first page and the last event of all
each occurred later than every event before them. -/
theorem cursorLaw_iff (outbox : GraphOutbox) (status : Option String) (limit : ℤ)
    (hlimit : 1 ≤ limit) :
    CursorLaw outbox status limit ↔
      (ordered (selectStatus status outbox.events)).length < 2 * limit ∧
        LastLater GraphProjectionEvent.occurredAt
          ((ordered (selectStatus status outbox.events)).take limit.toNat) ∧
        LastLater GraphProjectionEvent.occurredAt
          (ordered (selectStatus status outbox.events)) := by
  have hn : 0 < limit.toNat := by omega
  have hnodup := nodup_ordered (nodup_selectStatus outbox.nodup status)
  have hsorted := (pairwise_ordered (selectStatus status outbox.events)).imp
    GraphProjectionEvent.occurredAt_le_of_le
  have hmem : ∀ after, InMemoryGraphProjectionEventRepository.listEvents outbox status after limit
      = pageAfter GraphProjectionEvent.eventId limit.toNat
          (ordered (selectStatus status outbox.events)) after := fun after =>
    inMemory_listEvents outbox status after hlimit
  have hlen : ((ordered (selectStatus status outbox.events)).length : ℤ) < 2 * limit ↔
      (ordered (selectStatus status outbox.events)).length < 2 * limit.toNat := by omega
  rw [hlen, ← visitsAll_pageFrom_iff hn hnodup hsorted]
  constructor
  · rintro ⟨hsql, -, hpages⟩
    simp only [hmem] at hpages
    refine ⟨hsql.congr fun k => (pages_sql outbox status hlimit k).symm, fun k => ?_⟩
    rw [← pages_sql outbox status hlimit k]
    exact hpages k
  · rintro ⟨hvisits, hpages⟩
    refine ⟨hvisits.congr (pages_sql outbox status hlimit), ?_, fun k => ?_⟩
    · simp only [hmem]
      exact visitsAll_pageAfter hn hnodup
    · simp only [hmem]
      exact (pages_sql outbox status hlimit k).trans (hpages k)

/-- An update of workflow `w` that occurred at an instant. -/
def workflowUpdatedAt (eventId : String) (occurredAt : Time) : GraphProjectionEvent where
  eventId := eventId
  eventType := "workflow.updated"
  aggregateType := "workflow"
  aggregateId := "w"
  occurredAt := occurredAt

/-- Three events of different instants, read by pages of two. -/
theorem cursorLaw_iff_instants :
    (1 : ℤ) ≤ 2 ∧ CursorLaw ⟨[workflowUpdatedAt "c" 1, workflowUpdatedAt "a" 2,
      workflowUpdatedAt "b" 0], by decide⟩ none 2 :=
  ⟨by decide, (cursorLaw_iff _ none 2 (by decide)).mpr ⟨by decide, by decide, by decide⟩⟩

/-- Two events of one instant: after a page with both, the SQL repository gives the first again. -/
theorem sql_repeats_event :
    ¬ ∀ (outbox : GraphOutbox) (limit : ℤ), 1 ≤ limit → CursorLaw outbox none limit := by
  intro h
  have hlaw := h ⟨[workflowUpdatedAt "a" 0, workflowUpdatedAt "b" 0], by decide⟩ 2 (by decide)
  have hlength := (hlaw.sql.inOrder 2).length_le
  exact absurd hlength (by decide)

/-- **The in-memory cursor**: a reader visits every event once and in order, with any page size. -/
theorem inMemory_visitsAll (outbox : GraphOutbox) (status : Option String) {limit : ℤ}
    (hlimit : 1 ≤ limit) :
    VisitsAll GraphProjectionEvent.eventId
      (fun after => InMemoryGraphProjectionEventRepository.listEvents outbox status after limit)
      (ordered (selectStatus status outbox.events)) := by
  simp only [fun after => inMemory_listEvents outbox status after hlimit]
  exact visitsAll_pageAfter (by omega) (nodup_ordered (nodup_selectStatus outbox.nodup status))

theorem inMemory_visitsAll_instant : (1 : ℤ) ≤ 2 ∧ VisitsAll GraphProjectionEvent.eventId
    (fun after => InMemoryGraphProjectionEventRepository.listEvents
      ⟨[workflowUpdatedAt "a" 0, workflowUpdatedAt "b" 0], by decide⟩ none after 2)
    (ordered [workflowUpdatedAt "a" 0, workflowUpdatedAt "b" 0]) :=
  ⟨by decide, inMemory_visitsAll _ none (by decide)⟩

end OpenAgency
