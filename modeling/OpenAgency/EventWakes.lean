/-
EventWakes.lean

How many waiters an event reaches.

`wake_event` asks the store for the pending waits under a correlation key, whatever they
wait for, and the store answers the oldest `limit` of them; only then are the waits for an
event picked out.  A wait for an approval or for input under the same key so takes a place
without being woken.  The count is right just if no wait for an event stands behind the
limit while another kind stands before it (`Selection.Uncrowded`), whichever store answers
and whatever becomes of the waits that are resolved.
-/
import OpenAgency.ExecutionWaits
import OpenAgency.Lib.Selection
import OpenAgency.WaitStore

namespace OpenAgency

open Interaction Relational Program List ExecutionWait WaitQuery ExecutionWaitORM

/-! ### The waits under a key -/

/-- A pending wait under the correlation key. -/
def ExecutionWait.waitsUnder (key : String) (wait : ExecutionWait) : Bool :=
  wait.status = .pending && wait.correlationKey = some key

/-- A wait that wants an event. -/
def ExecutionWait.wantsEvent (wait : ExecutionWait) : Bool := wait.kind = .event

/-- The pending waits for an event under the key. -/
def eventWaiters (key : String) (waits : List ExecutionWait) : List ExecutionWait :=
  waits.filter fun wait => wait.waitsUnder key && wait.wantsEvent

/-- The entries report the attempts on as many of the waiters as the limit allows, each a
different one. -/
def ReachesWaiters (limit : ℕ) (waiters : List ExecutionWait) (items : List WakeItem) : Prop :=
  ∃ attempted : List ExecutionWait, attempted.Subperm waiters ∧
    items.map (fun item => (item.waitId, item.executionId))
      = attempted.map (fun wait => (wait.id, wait.executionId)) ∧
    attempted.length = min limit waiters.length

variable {limit : ℕ} {waiters waiting : List ExecutionWait} {items : List WakeItem}

theorem ReachesWaiters.length_items (h : ReachesWaiters limit waiters items) :
    items.length = min limit waiters.length := by
  obtain ⟨attempted, -, hitems, hlength⟩ := h
  rw [← hlength, ← length_map (f := fun wait : ExecutionWait => (wait.id, wait.executionId)),
    ← hitems, length_map]

/-- Without an attempt every waiter is reached just if there is none. -/
theorem reachesWaiters_nil (hlimit : 0 < limit) :
    ReachesWaiters limit waiters [] ↔ waiters = [] := by
  constructor
  · intro h
    have hlength := h.length_items
    rw [length_nil] at hlength
    exact List.length_eq_zero_iff.mp (by omega)
  · rintro rfl
    exact ⟨[], nil_subperm, rfl, by simp⟩

/-- What is attempted: the waits for an event among the first of an ordered list. -/
theorem reachesWaiters_iff (hperm : (waiting.filter wantsEvent).Perm waiters)
    (hitems : items.map (fun item => (item.waitId, item.executionId))
      = ((waiting.take limit).filter wantsEvent).map
          fun wait => (wait.id, wait.executionId)) :
    ReachesWaiters limit waiters items ↔ Selection.Uncrowded wantsEvent limit waiting := by
  rw [← Selection.length_filter_take_eq_iff, hperm.length_eq]
  constructor
  · intro h
    have hlength := h.length_items
    rwa [← length_map (f := fun item : WakeItem => (item.waitId, item.executionId)), hitems,
      length_map] at hlength
  · intro hlength
    refine ⟨_, ?_, hitems, hlength⟩
    exact ((take_sublist limit waiting).filter _).subperm.trans hperm.subperm

/-! ### The database -/

variable {env : Environment} {w : World}

/-- Every attempt is reported, in the order of the waits. -/
theorem wp_wakeEach (request : ExecutionWait → ResolveWaitRequest) (waits : List ExecutionWait)
    {Q : List WakeItem → World → Prop} {E : RuntimeException → World → Prop}
    (hQ : ∀ items w', items.map (fun item => (item.waitId, item.executionId))
      = waits.map (fun wait => (wait.id, wait.executionId)) → Q items w') :
    (wakeEach request waits).wp (handler env) Q E w := by
  induction waits generalizing w Q with
  | nil => exact wp_of_done (hQ [] w rfl)
  | cons wait waits ih =>
    rw [wakeEach, wp_bind, wp_attempt]
    have hrest : ∀ outcome w₁, (wakeEach request waits >>= fun items =>
        (pure (⟨wait.id, wait.executionId, outcome⟩ :: items) : Coroutine (List WakeItem))).wp
          (handler env) Q E w₁ := by
      intro outcome w₁
      rw [wp_bind]
      refine ih fun items w' hitems => wp_of_done (hQ _ w' ?_)
      rw [map_cons, map_cons, hitems]
    exact (wp_iff_run _ _).mpr ⟨fun outcome w₁ _ => hrest (.ok outcome) w₁,
      fun exc w₁ _ => hrest (.error exc) w₁⟩

/-- The pending waits under the key, oldest first. -/
def ExecutionWaitTable.waitingUnder (key : String) (t : ExecutionWaitTable) : List ExecutionWait :=
  (t.rows.selectOrdered (fun row => row.wait.waitsUnder key)
    fun a b => lexLe [a.wait.createdAt, a.id] [b.wait.createdAt, b.id]).map (·.wait)

/-- The waits that are stored. -/
def ExecutionWaitTable.stored (t : ExecutionWaitTable) : List ExecutionWait :=
  (t.rows.select fun _ => true).map (·.wait)

theorem ExecutionWaitTable.waitingUnder_perm (key : String) (t : ExecutionWaitTable) :
    ((t.waitingUnder key).filter wantsEvent).Perm (eventWaiters key t.stored) := by
  have hsorted := perm_insertionSort
    (fun a b : ExecutionWaitORM => lexLe [a.wait.createdAt, a.id] [b.wait.createdAt, b.id] = true)
    (t.rows.select fun row => row.wait.waitsUnder key)
  have hfilter : ((t.rows.select fun row => row.wait.waitsUnder key).map (·.wait)).filter
      wantsEvent = eventWaiters key t.stored := by
    rw [eventWaiters, stored, Table.select, Table.select, filter_true]
    generalize t.rows.rows.entries.map Sigma.snd = rows
    rw [filter_map, filter_map, filter_filter]
    congr 2
    funext row
    exact Bool.and_comm _ _
  rw [← hfilter]
  exact (hsorted.map (·.wait)).filter wantsEvent

/-- The rows the store is asked for. -/
theorem select_pendingByCorrelation (key : String) {n : ℤ} (hn : 1 ≤ n) (t : ExecutionWaitTable) :
    ((pendingByCorrelation key n).select t).map (·.wait) = (t.waitingUnder key).take n.toNat := by
  have hmax : max 1 n = n := max_eq_right hn
  rw [ExecutionWaitTable.waitingUnder, ← map_take, select, limited, hmax]
  rfl

/-- Pending rows are read back as they are, or not at all. -/
theorem mapM_toWait_pending {rows : List ExecutionWaitORM}
    (hpending : ∀ row ∈ rows, row.wait.status = .pending) :
    rows.mapM toWait = .ok (rows.map (·.wait)) ∧ (∀ row ∈ rows, row.wait.Valid) ∨
      (∃ e, rows.mapM toWait = .error e) ∧ ¬ ∀ row ∈ rows, row.wait.Valid := by
  induction rows with
  | nil => exact .inl ⟨rfl, by simp⟩
  | cons row rows ih =>
    rw [forall_mem_cons] at hpending
    rw [mapM_cons, forall_mem_cons, toWait]
    rcases hrow : row.wait.validateLifecycle with e | wait
    · refine .inr ⟨⟨e, rfl⟩, fun h => ?_⟩
      rw [validateLifecycle_ok h.1] at hrow
      cases hrow
    · obtain ⟨hvalid, rfl⟩ := valid_of_validateLifecycle hrow
      rw [fillResolvedAt_of_pending hpending.1]
      rcases ih hpending.2 with ⟨hrows, hall⟩ | ⟨⟨e, hrows⟩, hnot⟩
      · rw [hrows]
        exact .inl ⟨rfl, hvalid, hall⟩
      · rw [hrows]
        exact .inr ⟨⟨e, rfl⟩, fun h => hnot h.2⟩

/-- What a call attempted: nothing, where it raised. -/
def attempts : Except RuntimeException (List WakeItem) → List WakeItem
  | .ok items => items
  | .error _ => []

/-- `wake_event` does not refuse the request. -/
def WakeEventRequest.Accepted (r : WakeEventRequest) : Prop :=
  strip r.correlationKey ≠ "" ∧ strip r.eventId ≠ ""

/-- A call that raises attempts nothing. -/
theorem reachesWaiters_of_error {n : ℤ} (hn : 1 ≤ n) {C : Prop} (hC : ¬ C) :
    ReachesWaiters n.toNat waiters [] ↔ waiters = [] ∨ C := by
  rw [reachesWaiters_nil (by omega), or_iff_left hC]

/-- What holds of a call that has listed the waits. -/
theorem reachesWaiters_of_listed {n : ℤ} (hperm : (waiting.filter wantsEvent).Perm waiters)
    (hitems : items.map (fun item => (item.waitId, item.executionId))
      = ((waiting.take n.toNat).filter wantsEvent).map
          fun wait => (wait.id, wait.executionId)) {C : Prop} (hC : C) :
    ReachesWaiters n.toNat waiters items ↔ waiters = [] ∨
      C ∧ Selection.Uncrowded wantsEvent n.toNat waiting := by
  rw [reachesWaiters_iff hperm hitems, and_iff_right hC]
  refine ⟨.inr, ?_⟩
  rintro (rfl | h)
  · have hnone := List.filter_eq_nil_iff.mp hperm.eq_nil
    exact .inl fun wait hwait => by simpa using hnone wait (mem_of_mem_drop hwait)
  · exact h

theorem reachesWaiters_of_wp {p : Coroutine (List WakeItem)} {w : World} {n : ℤ} (hn : 1 ≤ n)
    {C U : Prop} (hp : p.wp (handler env)
      (fun items _ => ReachesWaiters n.toNat waiters items ↔ waiters = [] ∨ C ∧ U)
      (fun _ _ => ¬ C) w) :
    ReachesWaiters n.toNat waiters (attempts (p.run (handler env) w).1) ↔
      waiters = [] ∨ C ∧ U := by
  obtain ⟨hok, herror⟩ := (wp_iff_run _ _).mp hp
  rcases hrun : p.run (handler env) w with ⟨e | items, w'⟩
  · exact reachesWaiters_of_error hn fun h => herror e w' hrun h.1
  · exact hok items w' hrun

/-- `wake_event` on the database. -/
theorem wakeEvent_database_iff (r : WakeEventRequest) (hlimit : 1 ≤ r.limit) (w : World) :
    ReachesWaiters r.limit.toNat (eventWaiters (strip r.correlationKey) w.db.waits.stored)
        (attempts ((wakeEvent r).run (handler env) w).1) ↔
      eventWaiters (strip r.correlationKey) w.db.waits.stored = [] ∨
        (r.Accepted ∧ ∀ wait ∈ (w.db.waits.waitingUnder (strip r.correlationKey)).take
          r.limit.toNat, wait.Valid) ∧
        Selection.Uncrowded wantsEvent r.limit.toNat
          (w.db.waits.waitingUnder (strip r.correlationKey)) := by
  apply reachesWaiters_of_wp hlimit
  unfold wakeEvent
  by_cases hkey : strip r.correlationKey = ""
  · rw [if_pos hkey]
    exact wp_of_raise fun h => h.1.1 hkey
  rw [if_neg hkey]
  by_cases hevent : strip r.eventId = ""
  · rw [if_pos hevent]
    exact wp_of_raise fun h => h.1.2 hevent
  rw [if_neg hevent]
  show (selectExecutionWaits _ >>= fun candidates => wakeEach r.request
    (candidates.filter (·.kind = .event))).wp (handler env) _ _ w
  rw [wp_bind, selectExecutionWaits, wp_query]
  simp only [DbOp.exec]
  have hrows := select_pendingByCorrelation (strip r.correlationKey) hlimit w.db.waits
  have hpending : ∀ row ∈ (pendingByCorrelation (strip r.correlationKey)
      r.limit).select w.db.waits, row.wait.status = .pending := by
    intro row hrow
    have hholds := (mem_select hrow).2
    simp only [holds, Bool.and_eq_true, decide_eq_true_eq] at hholds
    exact hholds.1
  have hvalid : (∀ row ∈ (pendingByCorrelation (strip r.correlationKey)
      r.limit).select w.db.waits, row.wait.Valid) ↔
      ∀ wait ∈ (w.db.waits.waitingUnder (strip r.correlationKey)).take r.limit.toNat,
        wait.Valid := by
    rw [← hrows, forall_mem_map]
  rcases mapM_toWait_pending hpending with ⟨hread, hall⟩ | ⟨⟨e, hread⟩, hnot⟩
  · rw [hread, hrows, wp_ofExcept_ok]
    refine wp_wakeEach r.request _ fun items w' hitems => ?_
    exact reachesWaiters_of_listed (ExecutionWaitTable.waitingUnder_perm _ _) hitems
      ⟨⟨hkey, hevent⟩, hvalid.mp hall⟩
  · rw [hread, wp_ofExcept_error]
    exact fun h => hnot (hvalid.mpr h.2)

/-! ### The store of one process -/

/-- `_waits` of an `InMemoryExecutionStore`. -/
abbrev InMemoryWaits := Table ExecutionWait.id

namespace InMemoryWaits

/-- `items[:n]`. -/
def sliceTo {α : Type} (items : List α) (n : ℤ) : List α :=
  if 0 ≤ n then items.take n.toNat else items.take (items.length - (-n).toNat)

/-- The matches of `list_pending_execution_waits_by_correlation`, sorted. -/
def waitingUnder (key : String) (t : InMemoryWaits) : List ExecutionWait :=
  t.selectOrdered (waitsUnder key)
    fun a b => lexLe [a.createdAt, a.id] [b.createdAt, b.id]

/-- `list_pending_execution_waits_by_correlation`. -/
def listPendingExecutionWaitsByCorrelation (key : String) (limit : ℤ) (t : InMemoryWaits) :
    List ExecutionWait := sliceTo (t.waitingUnder key) limit

def stored (t : InMemoryWaits) : List ExecutionWait := t.select fun _ => true

variable {σ : Type} (resolve : ResolveWaitRequest → σ → Except RuntimeException WakeOutcome × σ)

/-- The loop of `wake_event`, whatever `resolve_wait` makes of the store. -/
def wakeEach (request : ExecutionWait → ResolveWaitRequest) :
    List ExecutionWait → σ → List WakeItem × σ
  | [], s => ([], s)
  | wait :: rest, s =>
    let (outcome, s₁) := resolve (request wait) s
    let (items, s') := wakeEach request rest s₁
    (⟨wait.id, wait.executionId, outcome⟩ :: items, s')

/-- `wake_event`. -/
def wakeEvent (waits : σ → InMemoryWaits) (r : WakeEventRequest) (s : σ) :
    Except RuntimeException (List WakeItem) × σ :=
  if strip r.correlationKey = "" then
    (.error ⟨.valueError, "correlation_key must not be empty"⟩, s)
  else if strip r.eventId = "" then (.error ⟨.valueError, "event_id must not be empty"⟩, s)
  else
    let candidates :=
      (waits s).listPendingExecutionWaitsByCorrelation (strip r.correlationKey) r.limit
    let (items, s') := wakeEach resolve r.request (candidates.filter (·.kind = .event)) s
    (.ok items, s')

theorem waitingUnder_perm (key : String) (t : InMemoryWaits) :
    ((t.waitingUnder key).filter wantsEvent).Perm (eventWaiters key t.stored) := by
  have hsorted := perm_insertionSort
    (fun a b : ExecutionWait => lexLe [a.createdAt, a.id] [b.createdAt, b.id] = true)
    (t.select (waitsUnder key))
  have hfilter : (t.select (waitsUnder key)).filter wantsEvent = eventWaiters key t.stored := by
    rw [eventWaiters, stored, Table.select, Table.select, filter_true, filter_filter]
    congr 1
    funext wait
    exact Bool.and_comm _ _
  rw [← hfilter]
  exact hsorted.filter wantsEvent

theorem items_wakeEach (request : ExecutionWait → ResolveWaitRequest) (waits : List ExecutionWait)
    (s : σ) : (wakeEach resolve request waits s).1.map (fun item => (item.waitId, item.executionId))
      = waits.map fun wait => (wait.id, wait.executionId) := by
  induction waits generalizing s with
  | nil => rfl
  | cons wait waits ih =>
    show _ :: List.map _ (wakeEach resolve request waits _).1 = _
    rw [ih, map_cons]

/-- `wake_event` on the store of one process. -/
theorem wakeEvent_iff (waits : σ → InMemoryWaits) (r : WakeEventRequest) (hlimit : 1 ≤ r.limit)
    (s : σ) :
    ReachesWaiters r.limit.toNat (eventWaiters (strip r.correlationKey) (waits s).stored)
        (attempts (wakeEvent resolve waits r s).1) ↔
      eventWaiters (strip r.correlationKey) (waits s).stored = [] ∨
        r.Accepted ∧ Selection.Uncrowded wantsEvent r.limit.toNat
          ((waits s).waitingUnder (strip r.correlationKey)) := by
  unfold wakeEvent
  by_cases hkey : strip r.correlationKey = ""
  · rw [if_pos hkey]
    exact reachesWaiters_of_error hlimit fun h => h.1.1 hkey
  rw [if_neg hkey]
  by_cases hevent : strip r.eventId = ""
  · rw [if_pos hevent]
    exact reachesWaiters_of_error hlimit fun h => h.1.2 hevent
  rw [if_neg hevent]
  refine reachesWaiters_of_listed (waitingUnder_perm _ _) ?_ ⟨hkey, hevent⟩
  have hslice : (waits s).listPendingExecutionWaitsByCorrelation (strip r.correlationKey) r.limit
      = ((waits s).waitingUnder (strip r.correlationKey)).take r.limit.toNat := by
    rw [listPendingExecutionWaitsByCorrelation, sliceTo, if_pos (by omega)]
  rw [← hslice]
  exact items_wakeEach resolve r.request _ s

end InMemoryWaits

/-! ### The wake -/

/-- **When an event reaches every waiter.**  A wake with a limit of one or more attempts as
many of the waits for the event as the limit allows just if there is none, or the request
is accepted, the first waits under the key can be read, and either no wait for an event
stands behind the limit or only such waits stand before it. -/
theorem wakeEvent_reaches_iff (r : WakeEventRequest) (hlimit : 1 ≤ r.limit) :
    (∀ (env : Environment) (w : World),
      ReachesWaiters r.limit.toNat (eventWaiters (strip r.correlationKey) w.db.waits.stored)
          (attempts ((wakeEvent r).run (handler env) w).1) ↔
        eventWaiters (strip r.correlationKey) w.db.waits.stored = [] ∨
          (r.Accepted ∧ ∀ wait ∈ (w.db.waits.waitingUnder (strip r.correlationKey)).take
            r.limit.toNat, wait.Valid) ∧
          Selection.Uncrowded wantsEvent r.limit.toNat
            (w.db.waits.waitingUnder (strip r.correlationKey))) ∧
    ∀ (σ : Type) (resolve : ResolveWaitRequest → σ → Except RuntimeException WakeOutcome × σ)
      (waits : σ → InMemoryWaits) (s : σ),
      ReachesWaiters r.limit.toNat (eventWaiters (strip r.correlationKey) (waits s).stored)
          (attempts (InMemoryWaits.wakeEvent resolve waits r s).1) ↔
        eventWaiters (strip r.correlationKey) (waits s).stored = [] ∨
          r.Accepted ∧ Selection.Uncrowded wantsEvent r.limit.toNat
            ((waits s).waitingUnder (strip r.correlationKey)) :=
  ⟨fun _ w => wakeEvent_database_iff r hlimit w,
    fun _ resolve waits s => InMemoryWaits.wakeEvent_iff resolve waits r hlimit s⟩

namespace SharedKey

def wait (id : Uuid) (kind : ExecutionWaitKind) : ExecutionWait where
  id := id
  executionId := id
  kind := kind
  idempotencyKey := "k"
  correlationKey := some "approval:send_mail"
  createdAt := id
  updatedAt := id

def stored (waits : List ExecutionWait) : ExecutionWaitTable :=
  waits.foldl (fun t wait => (t.insert (.ofWait wait)).getD t) .empty

/-- One wake for the key, with a limit of one. -/
def wake : WakeEventRequest where
  correlationKey := "approval:send_mail"
  eventId := "e"
  limit := 1

end SharedKey

open SharedKey in
/-- A wait for an approval that comes later takes no place. -/
theorem wakeEvent_reaches_one :
    ReachesWaiters wake.limit.toNat
      (eventWaiters (strip wake.correlationKey) (stored [wait 1 .event, wait 2 .approval]).stored)
      (attempts ((wakeEvent wake).run (handler .silent)
        { db := { waits := stored [wait 1 .event, wait 2 .approval] } }).1) := by
  refine ((wakeEvent_reaches_iff wake (by decide)).1 .silent
    { db := { waits := stored [wait 1 .event, wait 2 .approval] } }).mpr (.inr ⟨⟨?_, ?_⟩, ?_⟩)
  · exact ⟨by decide +kernel, by decide +kernel⟩
  · decide +kernel
  · decide +kernel

open SharedKey in
/-- An older wait for an approval takes the only place. -/
theorem wakeEvent_crowded_out : ¬ ∀ (env : Environment) (r : WakeEventRequest) (w : World),
    1 ≤ r.limit → ReachesWaiters r.limit.toNat
      (eventWaiters (strip r.correlationKey) w.db.waits.stored)
      (attempts ((wakeEvent r).run (handler env) w).1) := by
  intro h
  have hlength := (h .silent wake { db := { waits := stored [wait 1 .approval, wait 2 .event] } }
    (by decide)).length_items
  revert hlength
  decide +kernel

end OpenAgency
