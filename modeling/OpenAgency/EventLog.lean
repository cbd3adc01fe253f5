/-
EventLog.lean

The event log of an execution in its two stores.  Both number an execution's events
from one on.  `InMemoryExecutionEventRepository` keeps a counter for each execution;
`SQLExecutionStore` takes the largest number among the rows that are left, plus one.
So the counter never gives a number twice, and the table does as soon as an event is
appended after its newest event has been deleted: a reader that has seen the deleted
event is past the number of the new one.

Every `save_event` here saves an event of its own, as the emitter does, so saving an
event cannot renumber one that is in the log.
-/
import OpenAgency.Database
import OpenAgency.Lib.NumberedLog

namespace OpenAgency

open List

/-- An event of execution `x`. -/
abbrev EventOf (x : Uuid) := { e : ExecutionEvent // e.executionId = x }

/-! ### `SQLExecutionStore` -/

namespace Database

/-- The primary key and the foreign key of the event table refuse an event whose
identifier is taken or whose parent is not there. -/
def refusesEvent (db : Database) (event : ExecutionEvent) : Bool :=
  db.events.any (·.id = event.id) ||
    (match event.parentEventId with
      | none => false
      | some parent => parent ≠ event.id && !db.events.any (·.id = parent))

/-- `save_event`. -/
def saveEvent (db : Database) (event : ExecutionEvent) :
    Except RuntimeException ExecutionEvent × Database :=
  if (db.executions.get event.executionId).isSome && db.refusesEvent event then
    (.error ⟨.integrityError, "constraint failed: execution_events"⟩, db)
  else
    (DbOp.saveEvent event).exec db

/-- `delete_event`; the foreign key refuses to delete the parent of another event. -/
def deleteEvent (db : Database) (eventId : Uuid) : Except RuntimeException Bool × Database :=
  if db.events.any (·.id = eventId) then
    if db.events.any (fun e => e.id ≠ eventId && e.parentEventId = some eventId) then
      (.error ⟨.integrityError, "constraint failed: execution_events"⟩, db)
    else
      (.ok true, { db with events := db.events.filter (·.id ≠ eventId) })
  else
    (.ok false, db)

/-- `list_events_after`. -/
def listEventsAfter (db : Database) (executionId : Uuid) (afterSequence : ℕ) :
    List ExecutionEvent :=
  (db.events.filter fun e => e.executionId = executionId && afterSequence < e.sequence).insertionSort
    (·.sequence ≤ ·.sequence)

/-- The rows of one execution, in the order they were appended. -/
def eventRows (x : Uuid) (db : Database) : List ExecutionEvent :=
  db.events.filter (·.executionId = x)

/-- What `save_event` needs to store an event. -/
def AcceptsEvent (x : Uuid) (event : EventOf x) (db : Database) : Prop :=
  (db.executions.get x).isSome ∧ db.refusesEvent event = false

end Database

/-- The log of one execution in `SQLExecutionStore`. -/
def sqlEventLog (x : Uuid) : NumberedLog Database (EventOf x) ExecutionEvent Uuid where
  append event db := ((db.saveEvent event).1.toOption, (db.saveEvent event).2)
  delete eventId db := ((db.deleteEvent eventId).1.toOption.getD false, (db.deleteEvent eventId).2)
  after n db := db.listEventsAfter x n
  number e := e.sequence
  key e := e.id

/-! ### `InMemoryExecutionStore` -/

/-- `d[key] = value`: a key keeps its place. -/
def setItem {α : Type} (d : List (Uuid × α)) (key : Uuid) (value : α) : List (Uuid × α) :=
  if d.any (·.1 = key) then d.map fun p => if p.1 = key then (key, value) else p
  else d ++ [(key, value)]

structure InMemoryExecutionEventRepository where
  items : List (Uuid × List ExecutionEvent) := []
  sequences : List (Uuid × ℕ) := []

namespace InMemoryExecutionEventRepository

/-- `append_event`. -/
def appendEvent (r : InMemoryExecutionEventRepository) (event : ExecutionEvent) :
    ExecutionEvent × InMemoryExecutionEventRepository :=
  let nextSequence := (r.sequences.lookup event.executionId).getD 0 + 1
  let saved := { event with sequence := nextSequence }
  (saved,
    { items := setItem r.items event.executionId
        ((r.items.lookup event.executionId).getD [] ++ [saved])
      sequences := setItem r.sequences event.executionId nextSequence })

/-- The loop of `delete_event`: the first execution that has the event loses it. -/
def deleteFrom (eventId : Uuid) :
    List (Uuid × List ExecutionEvent) → Option (List (Uuid × List ExecutionEvent))
  | [] => none
  | (x, events) :: rest =>
    let remaining := events.filter (·.id ≠ eventId)
    if remaining.length ≠ events.length then some ((x, remaining) :: rest)
    else (deleteFrom eventId rest).map ((x, events) :: ·)

/-- `delete_event`. -/
def deleteEvent (r : InMemoryExecutionEventRepository) (eventId : Uuid) :
    Bool × InMemoryExecutionEventRepository :=
  match deleteFrom eventId r.items with
  | some items => (true, { r with items := items })
  | none => (false, r)

/-- `list_events_after_sequence`. -/
def listEventsAfterSequence (r : InMemoryExecutionEventRepository) (executionId : Uuid)
    (afterSequence : ℕ) : List ExecutionEvent :=
  ((r.items.lookup executionId).getD []).filter (afterSequence < ·.sequence)

/-- The events of one execution. -/
def events (x : Uuid) (r : InMemoryExecutionEventRepository) : List ExecutionEvent :=
  (r.items.lookup x).getD []

/-- The number the next event of one execution gets. -/
def nextSequence (x : Uuid) (r : InMemoryExecutionEventRepository) : ℕ :=
  (r.sequences.lookup x).getD 0 + 1

end InMemoryExecutionEventRepository

/-- The log of one execution in `InMemoryExecutionStore`. -/
def inMemoryEventLog (x : Uuid) :
    NumberedLog InMemoryExecutionEventRepository (EventOf x) ExecutionEvent Uuid where
  append event r := (some (r.appendEvent event).1, (r.appendEvent event).2)
  delete eventId r := r.deleteEvent eventId
  after n r := r.listEventsAfterSequence x n
  number e := e.sequence
  key e := e.id

/-! ### The table gives the number after the largest one left -/

namespace Database

theorem le_foldr_max {ns : List ℕ} {n : ℕ} (h : n ∈ ns) : n ≤ ns.foldr max 0 := by
  induction ns with
  | nil => cases h
  | cons m ns ih =>
    rcases List.mem_cons.mp h with rfl | h
    · exact le_max_left _ _
    · exact le_trans (ih h) (le_max_right _ _)

theorem foldr_max_mem (ns : List ℕ) : ns.foldr max 0 = 0 ∨ ns.foldr max 0 ∈ ns := by
  induction ns with
  | nil => exact .inl rfl
  | cons m ns ih =>
    rw [foldr_cons]
    rcases le_total m (ns.foldr max 0) with h | h
    · rw [max_eq_right h]
      exact ih.imp id (mem_cons_of_mem m)
    · rw [max_eq_left h]
      exact .inr mem_cons_self

theorem foldr_max_eq {ns : List ℕ} {m : ℕ} (h : ∀ n ∈ ns, n ≤ m) : ns.foldr max m = m := by
  induction ns with
  | nil => rfl
  | cons n ns ih =>
    rw [foldr_cons, ih fun k hk => h k (mem_cons_of_mem n hk)]
    exact max_eq_right (h n mem_cons_self)

theorem nextSequence_eq (db : Database) (x : Uuid) :
    db.nextSequence x = ((db.eventRows x).map (·.sequence)).foldr max 0 + 1 := rfl

variable {x : Uuid} {db : Database}

theorem lt_nextSequence {e : ExecutionEvent} (h : e ∈ db.eventRows x) :
    e.sequence < db.nextSequence x :=
  Nat.lt_succ_of_le (le_foldr_max (mem_map_of_mem h))

/-- The next number is one above the largest number left. -/
theorem nextSequence_tight (db : Database) (x : Uuid) :
    db.nextSequence x = 1 ∨ ∃ e ∈ db.eventRows x, db.nextSequence x = e.sequence + 1 := by
  rw [nextSequence_eq]
  rcases foldr_max_mem ((db.eventRows x).map (·.sequence)) with h | h
  · left
    rw [h]
  · obtain ⟨e, he, hseq⟩ := List.mem_map.mp h
    exact .inr ⟨e, he, by rw [hseq]⟩

/-- The rows of an execution are in the order of their numbers. -/
def Sorted (x : Uuid) (db : Database) : Prop :=
  (db.eventRows x).Pairwise fun a b => a.sequence < b.sequence

/-- Everything `save_event` can do. -/
theorem saveEvent_cases (db : Database) (event : EventOf x) :
    (db.AcceptsEvent x event ∧
      db.saveEvent event = (.ok { event.1 with sequence := db.nextSequence x },
        { db with events := db.events ++ [{ event.1 with sequence := db.nextSequence x }] })) ∨
    (¬ db.AcceptsEvent x event ∧ ∃ e, db.saveEvent event = (.error e, db)) := by
  obtain ⟨event, rfl⟩ := event
  rcases hget : db.executions.get event.executionId with - | execution
  · refine .inr ⟨fun h => by simp [AcceptsEvent, hget] at h, ⟨.valueError,
      s!"Execution '{event.executionId}' was not found for event append"⟩, ?_⟩
    simp [saveEvent, hget, DbOp.exec]
  · rcases hrefuse : db.refusesEvent event with - | -
    · exact .inl ⟨⟨by simp [hget], hrefuse⟩, by simp [saveEvent, hget, hrefuse, DbOp.exec]⟩
    · refine .inr ⟨fun h => by simp [AcceptsEvent, hrefuse] at h,
        ⟨.integrityError, "constraint failed: execution_events"⟩, ?_⟩
      simp [saveEvent, hget, hrefuse]

/-- Everything `delete_event` can do. -/
theorem deleteEvent_cases (db : Database) (eventId : Uuid) :
    db.deleteEvent eventId = (.ok true, { db with events := db.events.filter (·.id ≠ eventId) }) ∨
    ((db.deleteEvent eventId).1.toOption.getD false = false ∧ (db.deleteEvent eventId).2 = db) := by
  unfold deleteEvent
  split
  · split
    · exact .inr ⟨rfl, rfl⟩
    · exact .inl rfl
  · exact .inr ⟨rfl, rfl⟩

theorem listEventsAfter_eq (h : db.Sorted x) (n : ℕ) :
    db.listEventsAfter x n = (db.eventRows x).filter fun e => n < e.sequence := by
  have hfilter : (db.events.filter fun e => e.executionId = x && n < e.sequence) =
      (db.eventRows x).filter fun e => n < e.sequence := by
    rw [eventRows, filter_filter]
    exact filter_congr fun e _ => by rw [Bool.and_comm]
  rw [listEventsAfter, hfilter]
  refine List.Pairwise.insertionSort_eq ?_
  exact (h.filter _).imp fun hlt => hlt.le

theorem lawful_sqlEventLog (x : Uuid) :
    (sqlEventLog x).Lawful (eventRows x) (nextSequence · x) (Sorted x) where
  after_eq n db h := listEventsAfter_eq h n
  lt_next db _ e he := lt_nextSequence he
  next_pos db _ := Nat.succ_pos _
  append_some event saved db db' h he := by
    rcases db.saveEvent_cases event with ⟨-, hsave⟩ | ⟨-, e, hsave⟩
    · simp only [sqlEventLog, hsave, Except.toOption, Prod.mk.injEq, Option.some.injEq] at he
      obtain ⟨rfl, rfl⟩ := he
      have hrows : eventRows x { db with
          events := db.events ++ [{ event.1 with sequence := db.nextSequence x }] } =
            db.eventRows x ++ [{ event.1 with sequence := db.nextSequence x }] := by
        simp [eventRows, filter_append, event.2]
      refine ⟨?_, hrows, rfl, ?_⟩
      · rw [Sorted, hrows]
        refine List.pairwise_append.mpr ⟨h, pairwise_singleton _ _, fun a ha b hb => ?_⟩
        obtain rfl := List.mem_singleton.mp hb
        exact lt_nextSequence ha
      · -- the number just given is the largest there is
        show nextSequence _ x = db.nextSequence x + 1
        rw [nextSequence_eq, hrows, map_append, foldr_append]
        rw [map_singleton, foldr_cons, foldr_nil, Nat.max_zero, foldr_max_eq]
        rintro n hn
        obtain ⟨e, he, rfl⟩ := List.mem_map.mp hn
        exact (lt_nextSequence he).le
    · simp [sqlEventLog, hsave, Except.toOption] at he
  append_none event db db' _ he := by
    rcases db.saveEvent_cases event with ⟨-, hsave⟩ | ⟨-, e, hsave⟩
    · simp [sqlEventLog, hsave, Except.toOption] at he
    · simp only [sqlEventLog, hsave, Prod.mk.injEq] at he
      exact he.2.symm
  delete_true eventId db db' h he := by
    rcases db.deleteEvent_cases eventId with hdelete | ⟨hfalse, -⟩
    · simp only [sqlEventLog, hdelete, Prod.mk.injEq] at he
      obtain ⟨-, rfl⟩ := he
      have hrows : eventRows x { db with events := db.events.filter (·.id ≠ eventId) } =
          (db.eventRows x).filter (·.id ≠ eventId) := by
        simp only [eventRows, filter_filter]
        exact filter_congr fun e _ => by rw [Bool.and_comm]
      refine ⟨?_, hrows, ?_⟩
      · rw [Sorted, hrows]
        exact h.filter _
      · rcases nextSequence_tight { db with events := db.events.filter (·.id ≠ eventId) } x with
          h1 | ⟨e, he, hnext⟩
        · rw [h1]
          exact Nat.succ_pos _
        · rw [hnext]
          rw [hrows] at he
          exact lt_nextSequence (mem_of_mem_filter he)
    · simp [sqlEventLog, hfalse] at he
  delete_false eventId db db' _ he := by
    rcases db.deleteEvent_cases eventId with hdelete | ⟨-, hsame⟩
    · simp [sqlEventLog, hdelete, Except.toOption] at he
    · simp only [sqlEventLog, hsame, Prod.mk.injEq] at he
      exact he.2.symm

theorem acceptsEvent_iff (event : EventOf x) (db : Database) :
    db.AcceptsEvent x event ↔ ∃ saved db', (sqlEventLog x).append event db = (some saved, db') := by
  rcases db.saveEvent_cases event with ⟨hacc, hsave⟩ | ⟨hacc, e, hsave⟩
  · refine iff_of_true hacc ⟨{ event.1 with sequence := db.nextSequence x },
      (db.saveEvent event).2, ?_⟩
    show ((db.saveEvent event).1.toOption, (db.saveEvent event).2) = _
    rw [hsave]
    rfl
  · refine iff_of_false hacc ?_
    rintro ⟨saved, db', he⟩
    simp [sqlEventLog, hsave, Except.toOption] at he

theorem blank_sqlEventLog (h : db.eventRows x = []) :
    NumberedLog.Blank (eventRows x) (nextSequence · x) (Sorted x) db where
  inv := by
    rw [Sorted, h]
    exact List.Pairwise.nil
  entries_eq := h
  next_eq := by
    show nextSequence db x = 1
    rw [nextSequence_eq, h]
    rfl

end Database

/-! ### The counter only counts up -/

namespace InMemoryExecutionEventRepository

/-- A repository that holds the events of one execution at most, all of them numbered
up to its counter. -/
inductive Holds (x : Uuid) : InMemoryExecutionEventRepository → Prop where
  | none : Holds x {}
  | some (events : List ExecutionEvent) (n : ℕ) (h : ∀ e ∈ events, e.sequence ≤ n) :
      Holds x { items := [(x, events)], sequences := [(x, n)] }

theorem setItem_self {α : Type} (x : Uuid) (v v' : α) : setItem [(x, v)] x v' = [(x, v')] := by
  simp [setItem]

theorem lawful_inMemoryEventLog (x : Uuid) :
    (inMemoryEventLog x).Lawful (events x) (nextSequence x) (Holds x) where
  after_eq n r _ := rfl
  lt_next r h e he := by
    cases h with
    | none => simp [events] at he
    | some es n h =>
      have he : e ∈ es := by simpa [events] using he
      simp only [nextSequence, lookup_cons, BEq.rfl, Option.getD_some]
      exact Nat.lt_succ_of_le (h e he)
  next_pos r _ := Nat.succ_pos _
  append_some event saved r r' h he := by
    obtain ⟨event, rfl⟩ := event
    simp only [inMemoryEventLog, Prod.mk.injEq, Option.some.injEq] at he
    obtain ⟨rfl, rfl⟩ := he
    cases h with
    | none =>
      refine ⟨Holds.some _ 1 fun e he => ?_, ?_⟩
      · obtain rfl := List.mem_singleton.mp he
        exact le_rfl
      · simp [appendEvent, events, nextSequence, setItem, inMemoryEventLog]
    | some es n h =>
      simp only [appendEvent, lookup_cons, BEq.rfl, Option.getD_some, setItem_self]
      refine ⟨Holds.some _ _ fun e he => ?_, ?_⟩
      · rcases List.mem_append.mp he with he | he
        · exact Nat.le_succ_of_le (h e he)
        · obtain rfl := List.mem_singleton.mp he
          exact le_rfl
      · simp [events, nextSequence, inMemoryEventLog]
  append_none event r r' _ he := by simp [inMemoryEventLog] at he
  delete_true eventId r r' h he := by
    cases h with
    | none => simp [inMemoryEventLog, deleteEvent, deleteFrom] at he
    | some es n h =>
      simp only [inMemoryEventLog, deleteEvent, deleteFrom, Option.map_none] at he
      split at he
      next items hitems =>
        split at hitems
        · cases hitems
          obtain ⟨-, rfl⟩ := Prod.mk.inj he
          refine ⟨Holds.some _ n fun e he => h e (mem_of_mem_filter he), ?_⟩
          refine ⟨?_, le_rfl⟩
          simp only [events, lookup_cons, BEq.rfl, Option.getD_some]
          rfl
        · cases hitems
      · cases he
  delete_false eventId r r' h he := by
    simp only [inMemoryEventLog, deleteEvent] at he
    split at he
    · cases he
    · exact (Prod.mk.inj he).2.symm

theorem nextSequence_deleteEvent (x : Uuid) (eventId : Uuid) (r : InMemoryExecutionEventRepository) :
    nextSequence x (r.deleteEvent eventId).2 = nextSequence x r := by
  unfold deleteEvent
  split <;> rfl

theorem blank_inMemoryEventLog (x : Uuid) :
    NumberedLog.Blank (events x) (nextSequence x) (Holds x) {} where
  inv := .none
  entries_eq := rfl
  next_eq := rfl

end InMemoryExecutionEventRepository

/-! ### Readers of an execution's events -/

open NumberedLog in
/-- **Reading by cursor.**  In memory every reader receives what was appended and not
deleted since its last poll, once and in order, and no number is given twice.  In the
table both hold of exactly those runs in which no event is appended while the newest
event is deleted. -/
theorem readers_of_events (x : Uuid) :
    (∀ (db : Database) (cs : List (Call (EventOf x) Uuid)), db.eventRows x = [] →
      ((∀ steps, calls steps = cs → (sqlEventLog x).Exact { store := db } steps) ↔
        (sqlEventLog x).Always (KeepsNewest (fun e db => db.AcceptsEvent x e)
          (Database.eventRows x)) { store := db } cs) ∧
      ((((sqlEventLog x).run { store := db } cs).appended.map (·.sequence)).Nodup ↔
        (sqlEventLog x).Always (KeepsNewest (fun e db => db.AcceptsEvent x e)
          (Database.eventRows x)) { store := db } cs)) ∧
    ∀ cs : List (Call (EventOf x) Uuid),
      (∀ steps, calls steps = cs → (inMemoryEventLog x).Exact { store := {} } steps) ∧
      (((inMemoryEventLog x).run { store := {} } cs).appended.map (·.sequence)).Nodup := by
  refine ⟨fun db cs h => ?_, fun cs => ?_⟩
  · have hL := Database.lawful_sqlEventLog x
    have hblank := Database.blank_sqlEventLog h
    have hfresh := hblank.growing.always_fresh_iff hL (fun e s _ => Database.acceptsEvent_iff e s)
      (fun s _ => s.nextSequence_tight x) cs
    exact ⟨(exact_iff hL hblank cs).trans hfresh, (nodup_iff hL hblank cs).trans hfresh⟩
  · have hL := InMemoryExecutionEventRepository.lawful_inMemoryEventLog x
    have hblank := InMemoryExecutionEventRepository.blank_inMemoryEventLog x
    have hfresh := always_fresh_of_le hL (q := { store := {} }) (fun k s s' _ he => by
      have hs : s' = (s.deleteEvent k).2 := by rw [show s.deleteEvent k = (true, s') from he]
      rw [hs, InMemoryExecutionEventRepository.nextSequence_deleteEvent]) hblank.inv (by simp) cs
    exact ⟨(exact_iff hL hblank cs).mpr hfresh, (nodup_iff hL hblank cs).mpr hfresh⟩

namespace Database

/-- A database with execution `0` and no events. -/
def eventless : Database :=
  { executions := Relational.Table.empty.save { id := 0, workflowId := "w" } }

/-- An event of execution `0`. -/
def routing (id : Uuid) : EventOf 0 :=
  ⟨{ id := id, executionId := 0, workflowId := "w", eventType := .routingDecisionRecorded
     sequence := 0, timestamp := 0 }, rfl⟩

end Database

open NumberedLog Database in
/-- Two events of which the older one is deleted reach every reader. -/
theorem readers_of_events_two :
    (∀ steps, calls steps = [.append (routing 1), .append (routing 2), .delete 1] →
      (sqlEventLog 0).Exact { store := eventless } steps) ∧
    (((sqlEventLog 0).run { store := eventless }
      [.append (routing 1), .append (routing 2), .delete 1]).appended.map (·.sequence)).Nodup := by
  have h := (readers_of_events 0).1 eventless
    [.append (routing 1), .append (routing 2), .delete 1] (by decide)
  have hkeeps : (sqlEventLog 0).Always (KeepsNewest (fun e db => db.AcceptsEvent 0 e)
      (Database.eventRows 0)) { store := eventless }
      [.append (routing 1), .append (routing 2), .delete 1] := by
    refine ⟨fun _ _ _ a ha => ?_, ⟨fun _ _ _ a ha => ?_, ⟨fun e he => ?_, trivial⟩⟩⟩
    · cases ha
    · obtain rfl : { (routing 1).1 with sequence := 1 } = a := Option.some.inj ha
      show _ ∈ [{ (routing 1).1 with sequence := 1 }]
      exact mem_singleton_self _
    · cases he
  exact ⟨h.1.mpr hkeeps, h.2.mpr hkeeps⟩

open NumberedLog Database in
/-- The only event is read and deleted, and the next event gets its number and is
never read. -/
theorem event_missed :
    ((sqlEventLog 0).run { store := eventless }
      [.append (routing 1), .delete 1, .append (routing 2)]).appended.map (·.sequence) = [1, 1] ∧
    ¬ (sqlEventLog 0).Exact { store := eventless }
      [.call (.append (routing 1)), .poll, .call (.delete 1), .call (.append (routing 2)), .poll] := by
  refine ⟨by decide, fun h => ?_⟩
  have hpoll : ([] : List ExecutionEvent) = [{ (routing 2).1 with sequence := 1 }] := h.2.1
  cases hpoll

end OpenAgency
