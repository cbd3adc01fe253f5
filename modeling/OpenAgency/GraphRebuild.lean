/-
GraphRebuild.lean

The rebuild of the graph from the outbox: all events are reset to pending, and then projected
in batches, oldest first, until no event is pending or a batch had a failure.

The driver is a parameter: `raises` gives the message with which the projection of an event
fails.  In `Stage` the ordered events of the outbox are those that were attempted, each
projected or failed, followed by those that are pending; an event, a batch and the loop each
move the border (`Stage.projectEvent`, `Stage.projectPending`, `rebuild_replays`).
-/
import OpenAgency.GraphOutbox
import OpenAgency.Lib.Fuel

namespace OpenAgency

open Fuel List

/-! ### The marks of the repositories -/

namespace GraphProjectionEvent

def projected (event : GraphProjectionEvent) (now : Time) : GraphProjectionEvent :=
  { event with status := "projected", projectedAt := some now }

def failed (event : GraphProjectionEvent) (error : String) : GraphProjectionEvent :=
  { event with
    status := "failed"
    attempts := event.attempts + 1
    lastError := some (takeChars 2000 error) }

def reset (event : GraphProjectionEvent) : GraphProjectionEvent :=
  { event with status := "pending", projectedAt := none, lastError := none }

end GraphProjectionEvent

namespace GraphOutbox

variable (outbox : GraphOutbox)

/-- `mark_projected`, of both repositories. -/
def markProjected (eventId : String) (now : Time) : GraphOutbox :=
  match outbox.get eventId with
  | none => outbox
  | some event => outbox.put (event.projected now)

/-- `mark_failed`, of both repositories. -/
def markFailed (eventId error : String) : GraphOutbox :=
  match outbox.get eventId with
  | none => outbox
  | some event => outbox.put (event.failed error)

/-- Whether `reset_for_replay` takes the event. -/
def isSelected (eventIds : Option (List String)) (event : GraphProjectionEvent) : Bool :=
  (eventIds.getD []).isEmpty || event.eventId ∈ eventIds.getD []

/-- `reset_for_replay`, of both repositories. -/
def resetForReplay (eventIds : Option (List String)) : ℕ × GraphOutbox :=
  (outbox.events.countP (isSelected eventIds),
    { events := outbox.events.map fun event =>
        if isSelected eventIds event then event.reset else event
      nodup := by
        have hids : (outbox.events.map fun event =>
            if isSelected eventIds event then event.reset else event).map (·.eventId) =
              outbox.events.map (·.eventId) := by
          rw [map_map]
          refine map_congr_left fun event _ => ?_
          show (if isSelected eventIds event then event.reset else event).eventId = event.eventId
          split
          · rfl
          · rfl
        rw [hids]
        exact outbox.nodup })

end GraphOutbox

/-- The repositories of the outbox. -/
inductive ProjectionRepository where
  | inMemory
  | sql

/-- `list_events(status="pending", limit=...)`. -/
def ProjectionRepository.listPending (repository : ProjectionRepository) (outbox : GraphOutbox)
    (limit : ℤ) : List GraphProjectionEvent :=
  match repository with
  | .inMemory => InMemoryGraphProjectionEventRepository.listEvents outbox (some "pending") none limit
  | .sql => SQLGraphProjectionEventRepository.listEvents outbox (some "pending") none limit

/-! ### The projector and the rebuilder -/

structure ProjectionBatchResult where
  processed : ℕ := 0
  failed : ℕ := 0
  checkpointEventId : Option String := none
  errors : List String := []

structure GraphRebuildResult where
  dryRun : Bool := false
  cleared : Bool := false
  resetEvents : ℕ := 0
  processed : ℕ := 0
  failed : ℕ := 0
  checkpointEventId : Option String := none
  errors : List String := []
  projectedLabels : List String

/-- The outbox, how many events were marked, and the ids of the events that were attempted. -/
structure ReplayState where
  outbox : GraphOutbox
  marked : ℕ := 0
  attempted : List String := []

/-- What the rebuild takes from elsewhere. -/
structure GraphReplay where
  repository : ProjectionRepository
  /-- The message of the exception that the projection of an event raises. -/
  raises : String → Option String
  /-- The time of each mark. -/
  clock : ℕ → Time

namespace GraphReplay

variable (r : GraphReplay)

/-- One event of `project_pending`. -/
def projectEvent (event : GraphProjectionEvent) (s : ReplayState × ProjectionBatchResult) :
    ReplayState × ProjectionBatchResult :=
  match r.raises event.eventId with
  | none =>
    ({ outbox := s.1.outbox.markProjected event.eventId (r.clock s.1.marked)
       marked := s.1.marked + 1
       attempted := s.1.attempted ++ [event.eventId] },
      { s.2 with
        processed := s.2.processed + 1
        checkpointEventId := some event.eventId })
  | some message =>
    ({ outbox := s.1.outbox.markFailed event.eventId message
       marked := s.1.marked + 1
       attempted := s.1.attempted ++ [event.eventId] },
      { s.2 with
        failed := s.2.failed + 1
        errors := s.2.errors ++ [s!"{event.eventId}: {message}"] })

/-- `project_pending`. -/
def projectPending (limit : ℤ) (s : ReplayState) : ReplayState × ProjectionBatchResult :=
  (r.repository.listPending s.outbox limit).foldl (fun s event => r.projectEvent event s) (s, {})

/-- One turn of the loop of `rebuild`: it goes on with what it has, or ends. -/
def rebuildTurn (batchSize : ℤ) (s : ReplayState × GraphRebuildResult) :
    (ReplayState × GraphRebuildResult) ⊕ (ReplayState × GraphRebuildResult) :=
  let batch := r.projectPending batchSize s.1
  let result := { s.2 with
    processed := s.2.processed + batch.2.processed
    failed := s.2.failed + batch.2.failed
    errors := s.2.errors ++ batch.2.errors
    checkpointEventId := batch.2.checkpointEventId <|> s.2.checkpointEventId }
  if batch.2.processed = 0 ∧ batch.2.failed = 0 then .inr (batch.1, result)
  else if 0 < batch.2.failed then .inr (batch.1, result)
  else .inl (batch.1, result)

/-- `rebuild`, with as many turns of its loop as there is fuel.  The batch size is at least one;
`clear` and the schema only concern the graph. -/
def rebuild (batchSize : ℤ) (projectedLabels : List String) (clear dryRun : Bool)
    (outbox : GraphOutbox) : ℕ → Option (ReplayState × GraphRebuildResult) :=
  if dryRun then fun _ => some ({ outbox }, {
    dryRun := true
    resetEvents := outbox.events.countP fun event =>
      event.status ∈ ["pending", "projected", "failed"]
    projectedLabels })
  else
    let reset := outbox.resetForReplay none
    loop (fun _ s => some (r.rebuildTurn (max batchSize 1) s))
      ({ outbox := reset.2 }, { cleared := clear, resetEvents := reset.1, projectedLabels })

end GraphReplay

/-! ### One mark -/

namespace GraphOutbox

variable {outbox : GraphOutbox} {event : GraphProjectionEvent}

theorem get_of_mem (h : event ∈ outbox.events) : outbox.get event.eventId = some event :=
  (find?_selectStatus outbox none h).2

variable {items : List GraphProjectionEvent}

/-- Events with other ids are left alone. -/
theorem map_replace_of_notMem {eventId : String} (h : eventId ∉ items.map (·.eventId))
    (event : GraphProjectionEvent) :
    (items.map fun item => if item.eventId = eventId then event else item) = items := by
  rw [map_congr_left (g := id), map_id]
  intro item hitem
  refine if_neg fun hid => h ?_
  rw [← hid]
  exact mem_map_of_mem hitem

/-- An event that is stored again takes the place of the one with its id. -/
theorem putEvent_eq_map (hnodup : (items.map (·.eventId)).Nodup)
    (h : event.eventId ∈ items.map (·.eventId)) :
    putEvent event items = items.map fun item =>
      if item.eventId = event.eventId then event else item := by
  induction items with
  | nil => exact absurd h not_mem_nil
  | cons item items ih =>
    rw [map_cons, nodup_cons] at hnodup
    obtain ⟨hitem, hnodup⟩ := hnodup
    rw [putEvent, map_cons]
    split
    next hid =>
      rw [hid] at hitem
      exact congrArg (event :: ·) (map_replace_of_notMem hitem event).symm
    next hid =>
      have hrest := (List.mem_cons.mp h).resolve_left (Ne.symm hid)
      rw [ih hnodup hrest]

/-- A mark keeps the order. -/
theorem ordered_put {before rest : List GraphProjectionEvent} {marked : GraphProjectionEvent}
    (h : ordered outbox.events = before ++ event :: rest) (hid : marked.eventId = event.eventId)
    (htime : marked.occurredAt = event.occurredAt) :
    ordered (outbox.put marked).events = before ++ marked :: rest := by
  have hmem : event ∈ outbox.events := by
    rw [← (perm_ordered outbox.events).mem_iff, h]
    exact mem_append_right _ mem_cons_self
  have heq : ∀ other ∈ outbox.events, other.eventId = marked.eventId → other = event :=
    fun other hother hsame =>
      inj_on_of_nodup_map outbox.nodup hother hmem (hsame.trans hid)
  have hkeys : ∀ other ∈ outbox.events,
      (if other.eventId = marked.eventId then marked else other).eventId = other.eventId ∧
        (if other.eventId = marked.eventId then marked else other).occurredAt =
          other.occurredAt := by
    intro other hother
    split
    next hsame =>
      rw [heq other hother hsame]
      exact ⟨hid, htime⟩
    · exact ⟨rfl, rfl⟩
  have hevents : (outbox.put marked).events = outbox.events.map fun other =>
      if other.eventId = marked.eventId then marked else other :=
    putEvent_eq_map outbox.nodup (hid ▸ mem_map_of_mem hmem)
  have hsorted : ordered (outbox.put marked).events = (ordered outbox.events).map fun other =>
      if other.eventId = marked.eventId then marked else other := by
    rw [hevents]
    refine (map_insertionSort (r := GraphProjectionEvent.le) (s := GraphProjectionEvent.le)
      _ _ fun a ha b hb => ?_).symm
    unfold GraphProjectionEvent.le
    rw [(hkeys a ha).1, (hkeys a ha).2, (hkeys b hb).1, (hkeys b hb).2]
  have hnodup := nodup_ordered outbox.nodup
  rw [h, map_append, map_cons, nodup_middle, nodup_cons, mem_append,
    not_or] at hnodup
  rw [← hid] at hnodup
  rw [hsorted, h, map_append, map_cons, map_replace_of_notMem hnodup.1.1,
    map_replace_of_notMem hnodup.1.2, if_pos hid.symm]

end GraphOutbox

namespace GraphReplay

variable {r : GraphReplay}

/-- The pending events, oldest first. -/
def pendingEvents (outbox : GraphOutbox) : List GraphProjectionEvent :=
  (ordered outbox.events).filter fun event => event.status = "pending"

variable {limit : ℤ}

theorem listPending_eq (repository : ProjectionRepository) (outbox : GraphOutbox)
    (hlimit : 1 ≤ limit) :
    repository.listPending outbox limit = (pendingEvents outbox).take limit.toNat := by
  have hordered : selectStatus (some "pending") (ordered outbox.events) = pendingEvents outbox :=
    rfl
  cases repository with
  | inMemory =>
    show (selectStatus (some "pending") (ordered outbox.events)).take (max limit 0).toNat = _
    rw [hordered, max_eq_left (by omega)]
  | sql =>
    show (ordered (selectStatus (some "pending") outbox.events)).take (max limit 0).toNat = _
    rw [← selectStatus_ordered outbox.nodup, hordered, max_eq_left (by omega)]

/-! ### Events, batches and the loop -/

/-- The projection of the event raises. -/
def fails (r : GraphReplay) (event : GraphProjectionEvent) : Bool :=
  (r.raises event.eventId).isSome

/-- What the error list says of an event whose projection raises. -/
def error (r : GraphReplay) (event : GraphProjectionEvent) : Option String :=
  (r.raises event.eventId).map fun message => s!"{event.eventId}: {message}"

/-- The status of an event that was attempted. -/
def statusAfter (r : GraphReplay) (event : GraphProjectionEvent) : String :=
  if r.fails event then "failed" else "projected"

/-- The events `before` were attempted, in this order, and `rest` are pending. -/
structure Stage (r : GraphReplay) (before rest : List GraphProjectionEvent) (s : ReplayState) :
    Prop where
  events : ∃ settled, ordered s.outbox.events = settled ++ rest ∧
    settled.map (fun event => (event.eventId, event.status)) =
      before.map fun event => (event.eventId, r.statusAfter event)
  attempted : s.attempted = before.map (·.eventId)
  pending : ∀ event ∈ rest, event.status = "pending"

variable {before rest : List GraphProjectionEvent}

theorem Stage.pendingEvents_eq {s : ReplayState} (h : r.Stage before rest s) :
    pendingEvents s.outbox = rest := by
  obtain ⟨settled, hordered, hsettled⟩ := h.events
  have hnone : settled.filter (fun event => event.status = "pending") = [] := by
    rw [filter_eq_nil_iff]
    intro event hevent hpending
    have hmem := mem_map_of_mem (f := fun event => (event.eventId, event.status)) hevent
    rw [hsettled] at hmem
    obtain ⟨attempted, -, heq⟩ := List.mem_map.mp hmem
    have hstatus : r.statusAfter attempted = event.status := (Prod.mk.inj heq).2
    rw [of_decide_eq_true hpending, statusAfter] at hstatus
    split at hstatus
    · exact absurd hstatus (by decide)
    · exact absurd hstatus (by decide)
  have hall : rest.filter (fun event => event.status = "pending") = rest :=
    List.filter_eq_self.mpr fun event hevent => decide_eq_true (h.pending event hevent)
  rw [pendingEvents, hordered, filter_append, hnone, hall, nil_append]

variable {s : ReplayState × ProjectionBatchResult}

variable {event : GraphProjectionEvent}

/-- **One event** is attempted. -/
theorem Stage.projectEvent (h : r.Stage before (event :: rest) s.1) :
    r.Stage (before ++ [event]) rest (r.projectEvent event s).1 := by
  obtain ⟨settled, hordered, hsettled⟩ := h.events
  have hmem : event ∈ s.1.outbox.events := by
    rw [← (perm_ordered s.1.outbox.events).mem_iff, hordered]
    exact mem_append_right _ mem_cons_self
  have hget := GraphOutbox.get_of_mem hmem
  have hpending : ∀ other ∈ rest, other.status = "pending" := fun other hother =>
    h.pending other (mem_cons_of_mem _ hother)
  -- either mark puts the event behind those that were settled
  have hmarked : ∀ (marked : GraphProjectionEvent) (t : ReplayState),
      marked.eventId = event.eventId → marked.occurredAt = event.occurredAt →
      marked.status = r.statusAfter event → t.outbox = s.1.outbox.put marked →
      t.attempted = s.1.attempted ++ [event.eventId] → r.Stage (before ++ [event]) rest t := by
    intro marked t hid htime hstatus houtbox hattempted
    refine ⟨⟨settled ++ [marked], ?_, ?_⟩, ?_, hpending⟩
    · rw [houtbox, GraphOutbox.ordered_put hordered hid htime, append_assoc,
        singleton_append]
    · rw [map_append, hsettled, map_append, map_singleton, map_singleton, hid,
        hstatus]
    · rw [hattempted, h.attempted, map_append, map_singleton]
  unfold GraphReplay.projectEvent
  rcases hraises : r.raises event.eventId with - | message
  · refine hmarked (event.projected (r.clock s.1.marked)) _ rfl rfl ?_ ?_ rfl
    · rw [statusAfter, fails, hraises]
      rfl
    · show s.1.outbox.markProjected event.eventId _ = _
      rw [GraphOutbox.markProjected, hget]
  · refine hmarked (event.failed message) _ rfl rfl ?_ ?_ rfl
    · rw [statusAfter, fails, hraises]
      rfl
    · show s.1.outbox.markFailed event.eventId message = _
      rw [GraphOutbox.markFailed, hget]

/-- What a batch of these events adds to a result. -/
structure Tallied (r : GraphReplay) (batch : List GraphProjectionEvent)
    (b b' : ProjectionBatchResult) : Prop where
  attempted : b'.processed + b'.failed = b.processed + b.failed + batch.length
  failed : b'.failed = b.failed + batch.countP r.fails
  errors : b'.errors = b.errors ++ batch.filterMap r.error

theorem tallied_projectEvent : r.Tallied [event] s.2 (r.projectEvent event s).2 := by
  unfold GraphReplay.projectEvent
  rcases hraises : r.raises event.eventId with - | message
  · refine ⟨?_, ?_, ?_⟩
    · simp only [length_singleton]
      omega
    · simp [fails, hraises]
    · simp [error, hraises]
  · refine ⟨?_, ?_, ?_⟩
    · simp only [length_singleton]
      omega
    · simp [fails, hraises]
    · simp [error, hraises]

theorem Tallied.trans {batch batch' : List GraphProjectionEvent}
    {b b' b'' : ProjectionBatchResult} (h : r.Tallied batch b b') (h' : r.Tallied batch' b' b'') :
    r.Tallied (batch ++ batch') b b'' := by
  refine ⟨?_, ?_, ?_⟩
  · rw [h'.attempted, h.attempted, length_append, Nat.add_assoc]
  · rw [h'.failed, h.failed, countP_append, Nat.add_assoc]
  · rw [h'.errors, h.errors, filterMap_append, append_assoc]

/-- **A batch** is attempted, event by event. -/
theorem Stage.foldl {batch before rest : List GraphProjectionEvent}
    (h : r.Stage before (batch ++ rest) s.1) :
    r.Stage (before ++ batch) rest (batch.foldl (fun s event => r.projectEvent event s) s).1 ∧
      r.Tallied batch s.2 (batch.foldl (fun s event => r.projectEvent event s) s).2 := by
  induction batch generalizing before s with
  | nil =>
    rw [append_nil]
    exact ⟨h, ⟨rfl, rfl, (append_nil _).symm⟩⟩
  | cons event batch ih =>
    obtain ⟨hstage, htallied⟩ := ih (s := r.projectEvent event s) h.projectEvent
    rw [append_assoc, singleton_append] at hstage
    exact ⟨hstage, tallied_projectEvent.trans htallied⟩

theorem Stage.projectPending {s : ReplayState} (h : r.Stage before rest s) (hlimit : 1 ≤ limit) :
    r.Stage (before ++ rest.take limit.toNat) (rest.drop limit.toNat) (r.projectPending limit s).1 ∧
      r.Tallied (rest.take limit.toNat) {} (r.projectPending limit s).2 := by
  have hlisted : r.repository.listPending s.outbox limit = rest.take limit.toNat := by
    rw [listPending_eq _ _ hlimit, h.pendingEvents_eq]
  unfold GraphReplay.projectPending
  rw [hlisted]
  refine Stage.foldl (s := (s, {})) ?_
  rw [take_append_drop]
  exact h

/-- After the reset all events are pending. -/
theorem stage_reset (r : GraphReplay) (outbox : GraphOutbox) :
    r.Stage [] ((ordered outbox.events).map GraphProjectionEvent.reset)
      { outbox := (outbox.resetForReplay none).2 } := by
  have hreset : (outbox.resetForReplay none).2.events =
      outbox.events.map GraphProjectionEvent.reset := rfl
  have hsorted : (ordered outbox.events).map GraphProjectionEvent.reset =
      ordered (outbox.events.map GraphProjectionEvent.reset) :=
    map_insertionSort (r := GraphProjectionEvent.le) (s := GraphProjectionEvent.le)
      GraphProjectionEvent.reset _ fun _ _ _ _ => Iff.rfl
  refine ⟨⟨[], ?_, rfl⟩, rfl, ?_⟩
  · show ordered (outbox.resetForReplay none).2.events = _
    rw [hsorted, hreset, nil_append]
  · intro event hevent
    obtain ⟨e, -, rfl⟩ := List.mem_map.mp hevent
    rfl

/-- The events up to the end of the first batch of `n` in which a projection raises; all of
them, where none does. -/
def replayed (r : GraphReplay) (n : ℕ) (events : List GraphProjectionEvent) :
    List GraphProjectionEvent :=
  events.take ((events.findIdx r.fails / n + 1) * n)

/-- The turn that ends the loop has attempted the events to be replayed. -/
theorem replayed_eq {n : ℕ} (hn : 0 < n) (hbefore : ∀ event ∈ before, r.fails event = false)
    (hwhole : n ∣ before.length ∨ rest = [])
    (hends : rest = [] ∨ ∃ event ∈ rest.take n, r.fails event = true) :
    r.replayed n (before ++ rest) = before ++ rest.take n := by
  have hindex : (before ++ rest).findIdx r.fails = before.length + rest.findIdx r.fails := by
    rw [findIdx_append, findIdx_eq_length_of_false hbefore, if_neg (lt_irrefl _)]
    omega
  unfold replayed
  rw [hindex]
  rcases hends with rfl | ⟨event, hevent, hfails⟩
  · have hnil : ([] : List GraphProjectionEvent).findIdx r.fails = 0 := findIdx_nil
    have hdiv := Nat.div_add_mod before.length n
    have hmod := Nat.mod_lt before.length hn
    simp only [hnil, append_nil, take_nil, Nat.add_zero]
    refine take_of_length_le ?_
    rw [Nat.add_mul, Nat.one_mul, Nat.mul_comm]
    omega
  · have hrest : rest ≠ [] := by
      rintro rfl
      exact absurd hevent (by simp)
    obtain ⟨k, hk⟩ := hwhole.resolve_right hrest
    have hfirst : rest.findIdx r.fails < n := by
      obtain ⟨i, hi, hget⟩ := List.mem_iff_getElem.mp hevent
      rw [length_take] at hi
      rw [getElem_take] at hget
      have hle : rest.findIdx r.fails ≤ i := by
        by_contra hlt
        have hfalse := not_of_lt_findIdx (not_le.mp hlt)
        rw [hget, hfails] at hfalse
        cases hfalse
      omega
    have hcount : (before.length + rest.findIdx r.fails) / n = k := by
      rw [hk, Nat.mul_add_div hn, Nat.div_eq_of_lt hfirst, Nat.add_zero]
    rw [hcount, Nat.add_mul, Nat.one_mul, Nat.mul_comm, ← hk, take_length_add_append]

/-- What a rebuild leaves, where `events` are the events of the outbox, oldest first: it has
attempted those to be replayed once each and in order, they are projected or failed, and
the others are pending. -/
structure Replayed (r : GraphReplay) (n : ℕ) (events : List GraphProjectionEvent)
    (final : ReplayState × GraphRebuildResult) : Prop where
  attempted : final.1.attempted = (r.replayed n events).map (·.eventId)
  eventIds : (ordered final.1.outbox.events).map (·.eventId) = events.map (·.eventId)
  statuses : (ordered final.1.outbox.events).map (·.status) =
    (r.replayed n events).map r.statusAfter ++
      (events.drop (r.replayed n events).length).map fun _ => "pending"
  resetEvents : final.2.resetEvents = events.length
  counted : final.2.processed + final.2.failed = (r.replayed n events).length
  failed : final.2.failed = (r.replayed n events).countP r.fails
  errors : final.2.errors = (r.replayed n events).filterMap r.error

theorem replayed_reset (n : ℕ) (events : List GraphProjectionEvent) :
    r.replayed n (events.map GraphProjectionEvent.reset) =
      (r.replayed n events).map GraphProjectionEvent.reset := by
  have hindex : (events.map GraphProjectionEvent.reset).findIdx r.fails = events.findIdx r.fails := by
    rw [findIdx_map]
    rfl
  rw [replayed, replayed, hindex, map_take]

/-- The stage at which the loop ends is what the rebuild leaves. -/
theorem Stage.replayed {n : ℕ} {events rest : List GraphProjectionEvent}
    {final : ReplayState × GraphRebuildResult}
    (h : r.Stage (r.replayed n (events.map GraphProjectionEvent.reset)) rest final.1)
    (hevents : events.map GraphProjectionEvent.reset =
      r.replayed n (events.map GraphProjectionEvent.reset) ++ rest)
    (hreset : final.2.resetEvents = events.length)
    (hcounted : final.2.processed + final.2.failed =
      (r.replayed n (events.map GraphProjectionEvent.reset)).length)
    (hfailed : final.2.failed =
      (r.replayed n (events.map GraphProjectionEvent.reset)).countP r.fails)
    (herrors : final.2.errors =
      (r.replayed n (events.map GraphProjectionEvent.reset)).filterMap r.error) :
    r.Replayed n events final := by
  have hrest : rest = (events.drop (r.replayed n events).length).map GraphProjectionEvent.reset := by
    rw [replayed_reset] at hevents
    have hlength : (r.replayed n events).length =
        ((r.replayed n events).map GraphProjectionEvent.reset).length := (length_map _).symm
    rw [hlength, map_drop, hevents, drop_left]
  rw [replayed_reset] at h hevents hcounted hfailed herrors
  obtain ⟨settled, hordered, hsettled⟩ := h.events
  have hids := congrArg (List.map Prod.fst) hsettled
  have hstatuses := congrArg (List.map Prod.snd) hsettled
  simp only [map_map, Function.comp_def] at hids hstatuses
  refine ⟨?_, ?_, ?_, hreset, ?_, ?_, ?_⟩
  · rw [h.attempted, map_map]
    rfl
  · have hall := congrArg (List.map fun event => event.eventId) hevents
    simp only [map_append, map_map, Function.comp_def] at hall
    rw [hordered, map_append, hids]
    exact hall.symm
  · rw [hordered, map_append, hstatuses, hrest, map_map]
    rfl
  · rw [hcounted, length_map]
  · rw [hfailed, countP_map]
    rfl
  · rw [herrors, filterMap_map]
    rfl

/-- In the loop no projection has raised yet, and the events come in whole batches of `n`. -/
structure Replaying (r : GraphReplay) (n : ℕ) (before rest : List GraphProjectionEvent)
    (s : ReplayState × GraphRebuildResult) : Prop where
  stage : r.Stage before rest s.1
  unharmed : ∀ event ∈ before, r.fails event = false
  whole : n ∣ before.length ∨ rest = []
  resetEvents : s.2.resetEvents = (before ++ rest).length
  processed : s.2.processed = before.length
  failed : s.2.failed = 0
  errors : s.2.errors = []

variable {events : List GraphProjectionEvent}

theorem countP_fails_of_unharmed (h : ∀ event ∈ events, r.fails event = false) :
    events.countP r.fails = 0 :=
  List.countP_eq_zero.mpr fun event hevent => Bool.eq_false_iff.mp (h event hevent)

theorem filterMap_error_of_unharmed (h : ∀ event ∈ events, r.fails event = false) :
    events.filterMap r.error = [] := by
  rw [filterMap_eq_nil_iff]
  intro event hevent
  have hnone : r.raises event.eventId = none := by simpa [fails] using h event hevent
  rw [error, hnone]
  rfl

variable {s : ReplayState × GraphRebuildResult}

/-- **One turn** that goes on. -/
theorem Replaying.goesOn (hlimit : 1 ≤ limit) (h : r.Replaying limit.toNat before rest s)
    (hrest : rest ≠ []) (hunharmed : ∀ event ∈ rest.take limit.toNat, r.fails event = false) :
    ∃ s', r.rebuildTurn limit s = .inl s' ∧
      r.Replaying limit.toNat (before ++ rest.take limit.toNat) (rest.drop limit.toNat) s' := by
  obtain ⟨hstage, hattempted, hfailed, herrors⟩ := h.stage.projectPending hlimit
  have hpos : 0 < (rest.take limit.toNat).length := by
    have := List.length_pos_iff.mpr hrest
    rw [length_take]
    omega
  rw [countP_fails_of_unharmed hunharmed] at hfailed
  rw [filterMap_error_of_unharmed hunharmed] at herrors
  simp only [Nat.zero_add, nil_append] at hattempted hfailed herrors
  unfold rebuildTurn
  dsimp only
  rw [if_neg (by omega), if_neg (by omega)]
  refine ⟨_, rfl, hstage, ?_, ?_, ?_, ?_, ?_, ?_⟩
  · intro event hevent
    rcases List.mem_append.mp hevent with hevent | hevent
    · exact h.unharmed event hevent
    · exact hunharmed event hevent
  · rcases Nat.lt_or_ge rest.length limit.toNat with hlast | hfull
    · exact .inr (drop_eq_nil_of_le hlast.le)
    · refine .inl ?_
      rw [length_append, length_take, Nat.min_eq_left hfull]
      exact Nat.dvd_add (h.whole.resolve_right hrest) (Nat.dvd_refl _)
  · rw [append_assoc, take_append_drop]
    exact h.resetEvents
  · dsimp only
    rw [h.processed, length_append]
    omega
  · dsimp only
    rw [h.failed, hfailed]
  · dsimp only
    rw [h.errors, herrors]
    rfl

/-- **The last turn**: nothing is pending, or a projection raises. -/
theorem Replaying.ends (hlimit : 1 ≤ limit) {events rest before : List GraphProjectionEvent}
    (h : r.Replaying limit.toNat before rest s)
    (hevents : events.map GraphProjectionEvent.reset = before ++ rest)
    (hends : rest = [] ∨ ∃ event ∈ rest.take limit.toNat, r.fails event = true) :
    ∃ final, r.rebuildTurn limit s = .inr final ∧ r.Replayed limit.toNat events final := by
  obtain ⟨hstage, hattempted, hfailed, herrors⟩ := h.stage.projectPending hlimit
  simp only [Nat.zero_add, nil_append] at hattempted hfailed herrors
  have hn : 0 < limit.toNat := by omega
  have hreplayed := r.replayed_eq hn h.unharmed h.whole hends
  rw [← hevents] at hreplayed
  have hcounts : (before ++ rest.take limit.toNat).countP r.fails =
      (rest.take limit.toNat).countP r.fails := by
    rw [countP_append, countP_fails_of_unharmed h.unharmed, Nat.zero_add]
  have hsilent : (before ++ rest.take limit.toNat).filterMap r.error =
      (rest.take limit.toNat).filterMap r.error := by
    rw [filterMap_append, filterMap_error_of_unharmed h.unharmed, nil_append]
  have hlast : (r.projectPending limit s.1).2.processed = 0 ∧
      (r.projectPending limit s.1).2.failed = 0 ∨ 0 < (r.projectPending limit s.1).2.failed := by
    rcases hends with rfl | hraises
    · rw [take_nil, length_nil] at hattempted
      exact .inl (by omega)
    · rw [hfailed]
      exact .inr (List.countP_pos_iff.mpr hraises)
  have hturn : ∃ final, r.rebuildTurn limit s = .inr final ∧
      final.1 = (r.projectPending limit s.1).1 ∧ final.2.resetEvents = s.2.resetEvents ∧
      final.2.processed = s.2.processed + (r.projectPending limit s.1).2.processed ∧
      final.2.failed = s.2.failed + (r.projectPending limit s.1).2.failed ∧
      final.2.errors = s.2.errors ++ (r.projectPending limit s.1).2.errors := by
    unfold rebuildTurn
    dsimp only
    rcases hlast with hlast | hlast
    · rw [if_pos hlast]
      exact ⟨_, rfl, rfl, rfl, rfl, rfl, rfl⟩
    · rw [if_neg (by omega), if_pos hlast]
      exact ⟨_, rfl, rfl, rfl, rfl, rfl, rfl⟩
  obtain ⟨final, hfinal, hstate, hresetEvents, hprocessed, hfailures, hmessages⟩ := hturn
  have hdone : r.Stage (r.replayed limit.toNat (events.map GraphProjectionEvent.reset))
      (rest.drop limit.toNat) final.1 := by
    rw [hreplayed, hstate]
    exact hstage
  refine ⟨final, hfinal, hdone.replayed ?_ ?_ ?_ ?_ ?_⟩
  · rw [hreplayed, hevents, append_assoc, take_append_drop]
  · rw [hresetEvents, h.resetEvents, ← hevents, length_map]
  · rw [hreplayed, hprocessed, hfailures, h.processed, h.failed, length_append]
    omega
  · rw [hreplayed, hcounts, hfailures, h.failed, hfailed, Nat.zero_add]
  · rw [hreplayed, hsilent, hmessages, h.errors, herrors, nil_append]

/-- **The rebuild** terminates, and has replayed the outbox up to the end of the first batch in
which a projection raises. -/
theorem rebuild_replays (r : GraphReplay) {batchSize : ℤ} (hbatch : 1 ≤ batchSize)
    (projectedLabels : List String) (clear : Bool) (outbox : GraphOutbox) :
    ∃ final, Returns (r.rebuild batchSize projectedLabels clear false outbox) final ∧
      r.Replayed batchSize.toNat (ordered outbox.events) final := by
  have hmax : max batchSize 1 = batchSize := max_eq_left hbatch
  let I : ReplayState × GraphRebuildResult → Prop := fun s => ∃ before rest,
    (ordered outbox.events).map GraphProjectionEvent.reset = before ++ rest ∧
      r.Replaying batchSize.toNat before rest s
  have hturn : ∀ s, I s →
      (∃ s', Returns (fun _ => some (r.rebuildTurn (max batchSize 1) s)) (.inl s') ∧ I s' ∧
        (pendingEvents s'.1.outbox).length < (pendingEvents s.1.outbox).length) ∨
      ∃ final, Returns (fun _ => some (r.rebuildTurn (max batchSize 1) s)) (.inr final) ∧
        r.Replayed batchSize.toNat (ordered outbox.events) final := by
    rintro s ⟨before, rest, hevents, hreplaying⟩
    rw [hmax]
    by_cases hends : rest = [] ∨ ∃ event ∈ rest.take batchSize.toNat, r.fails event = true
    · obtain ⟨final, hfinal, hreplayed⟩ := hreplaying.ends hbatch hevents hends
      refine .inr ⟨final, ?_, hreplayed⟩
      rw [hfinal]
      exact returns_some _
    · rw [not_or] at hends
      obtain ⟨s', hs', hreplaying'⟩ := hreplaying.goesOn hbatch hends.1 fun event hevent =>
        Bool.eq_false_iff.mpr fun hfails => hends.2 ⟨event, hevent, hfails⟩
      refine .inl ⟨s', ?_, ⟨_, _, ?_, hreplaying'⟩, ?_⟩
      · rw [hs']
        exact returns_some _
      · rw [hevents, append_assoc, take_append_drop]
      · -- the batch is not empty
        rw [hreplaying'.stage.pendingEvents_eq, hreplaying.stage.pendingEvents_eq,
          length_drop]
        have hpos := List.length_pos_iff.mpr hends.1
        omega
  refine returns_loop (I := I) (fun s => (pendingEvents s.1.outbox).length) hturn
    ⟨[], _, rfl, r.stage_reset outbox, fun _ h => absurd h not_mem_nil, .inl (Nat.dvd_zero _), ?_,
      rfl, rfl, rfl⟩
  rw [nil_append, length_map, (perm_ordered outbox.events).length_eq]
  show outbox.events.countP (GraphOutbox.isSelected none) = _
  exact List.countP_eq_length.mpr fun _ _ => rfl

theorem steady_rebuild (r : GraphReplay) (batchSize : ℤ) (projectedLabels : List String)
    (clear : Bool) (outbox : GraphOutbox) :
    Steady (r.rebuild batchSize projectedLabels clear false outbox) := by
  have hturn : ∀ s, Steady fun _ => some (r.rebuildTurn (max batchSize 1) s) := fun s =>
    steady_const _
  exact steady_loop hturn _

/-! ### Two events -/

/-- The projection of the event `a` raises. -/
def failsFirst : GraphReplay where
  repository := .sql
  raises := fun eventId => if eventId = "a" then some "no driver" else none
  clock := id

def twoEvents : GraphOutbox where
  events := [workflowUpdatedAt "b" 1, workflowUpdatedAt "a" 0]
  nodup := by decide

/-- Both are attempted in a batch of two. -/
theorem rebuild_replays_two :
    ∃ final, Returns (failsFirst.rebuild 2 [] false false twoEvents) final ∧
      final.1.attempted = ["a", "b"] ∧ final.2.errors = ["a: no driver"] := by
  have hbatch : (1 : ℤ) ≤ 2 := by decide
  obtain ⟨final, hfinal, hreplayed⟩ := rebuild_replays failsFirst hbatch [] false twoEvents
  exact ⟨final, hfinal, hreplayed.attempted.trans (by decide +kernel),
    hreplayed.errors.trans (by decide +kernel)⟩

/-- In batches of one the second event stays pending. -/
theorem rebuild_stops :
    ¬ ∀ (r : GraphReplay) (batchSize : ℤ) (projectedLabels : List String) (clear : Bool)
      (outbox : GraphOutbox), 1 ≤ batchSize →
        ∃ final, Returns (r.rebuild batchSize projectedLabels clear false outbox) final ∧
          (∀ event ∈ final.1.outbox.events, event.status ≠ "pending") ∧
          final.2.processed + final.2.failed = final.2.resetEvents := by
  intro hall
  obtain ⟨final, hfinal, hpending, -⟩ := hall failsFirst 1 [] false twoEvents (by decide)
  have hsteady := steady_rebuild failsFirst 1 [] false twoEvents
  rcases hone : failsFirst.rebuild 1 [] false false twoEvents 1 with - | final'
  · exact absurd (congrArg Option.isSome hone) (by decide +kernel)
  · obtain rfl := hfinal.unique (hsteady.returns hone)
    have hstatuses : (failsFirst.rebuild 1 [] false false twoEvents 1).map (fun final =>
        final.1.outbox.events.map fun event => event.status) = some ["pending", "failed"] := by
      decide +kernel
    rw [hone, Option.map_some] at hstatuses
    obtain ⟨event, hevent, hstatus⟩ := List.mem_map.mp
      (Option.some.inj hstatuses ▸ mem_cons_self : "pending" ∈ _)
    exact hpending event hevent hstatus

end GraphReplay

end OpenAgency
