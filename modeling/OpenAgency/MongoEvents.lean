/-
MongoEvents.lean

Sequence numbers in the MongoDB store.  The counter of an execution's events is a
field of the execution's document.  `append_event` increments it in one step, so
appends alone never give a number twice.  `save_execution` reads the counter and
writes it back with the rest of the document: an increment that lands between the
two is rolled back, and the next append gives its number again.

A statement is one operation on one document, hence atomic.  `updated_at` and the
activity `append_event` records in the metadata are left out: neither the counter
nor an event depends on them.
-/
import Mathlib.Data.List.Nodup
import OpenAgency.Domain.Execution
import OpenAgency.Lib.Pool

namespace OpenAgency

open Interaction Pool Program

/-! ### The two collections -/

/-- A document of the executions collection; documents written elsewhere may lack the
counter. -/
structure MongoExecution where
  execution : Execution
  nextEventSequence : Option ℕ

structure MongoState where
  executions : Uuid → Option MongoExecution := fun _ => none
  events : List ExecutionEvent := []

/-- The counter as `$inc` sees it: a missing field counts from zero. -/
def MongoState.counter (s : MongoState) (x : Uuid) : ℕ :=
  ((s.executions x).bind (·.nextEventSequence)).getD 0

inductive MongoOp where
  | findSequence (executionId : Uuid)
  | upsertExecution (e : Execution) (nextEventSequence : ℕ)
  | incSequence (executionId : Uuid)
  | insertEvent (event : ExecutionEvent)

namespace MongoOp

/-- `find_one` answers the document's counter field, if there is a document. -/
abbrev Ret : MongoOp → Type
  | findSequence _ => Option (Option ℕ)
  | upsertExecution _ _ => Unit
  | incSequence _ => Option ℕ
  | insertEvent _ => Unit

end MongoOp

abbrev MongoSig : Signature := ⟨MongoOp, MongoOp.Ret⟩

/-- What a statement answers and does. -/
def mongo : Handler MongoSig MongoState
  | .findSequence x, s => ((s.executions x).map (·.nextEventSequence), s)
  | .upsertExecution e n, s =>
    ((), { s with executions := Function.update s.executions e.id (some ⟨e, some n⟩) })
  | .incSequence x, s =>
    match s.executions x with
    | none => (none, s)
    | some d =>
      (some (s.counter x + 1), { s with
        executions := Function.update s.executions x (some ⟨d.execution, some (s.counter x + 1)⟩) })
  | .insertEvent event, s => ((), { s with events := s.events ++ [event] })

/-! ### The two coroutines -/

/-- `MongoExecutionEventRepository.append_event`. -/
def mongoAppendEvent (event : ExecutionEvent) : Program MongoSig RuntimeException ExecutionEvent := do
  let counter ← perform (S := MongoSig) (.incSequence event.executionId)
  match counter with
  | none => throw ⟨.valueError,
      s!"Execution '{event.executionId}' was not found for event append"⟩
  | some n =>
    perform (S := MongoSig) (.insertEvent { event with sequence := n })
    return { event with sequence := n }

/-- The counter `save_execution` writes back after what it has found. -/
def foundSequence (existing : Option (Option ℕ)) : ℕ := existing.join.getD 0

/-- `MongoExecutionRepository.save_execution`. -/
def mongoSaveExecution (e : Execution) : Program MongoSig RuntimeException Execution := do
  let existing ← perform (S := MongoSig) (.findSequence e.id)
  perform (S := MongoSig) (.upsertExecution e (foundSequence existing))
  return e

inductive MongoCall where
  | appendEvent (event : ExecutionEvent)
  | saveExecution (e : Execution)

def MongoCall.code : MongoCall → Program MongoSig RuntimeException Unit
  | .appendEvent event => mongoAppendEvent event >>= fun _ => return ()
  | .saveExecution e => mongoSaveExecution e >>= fun _ => return ()

/-- Calls of the two repositories, interleaved. -/
abbrev MongoCalls := Pool MongoSig MongoCall MongoState RuntimeException Unit

/-- The number an operation gives to an event of `x`. -/
def given (x : Uuid) : MongoCall × Event MongoSig → Option ℕ
  | (_, ⟨.incSequence y, answer⟩) => if y = x then answer else none
  | _ => none

/-- The sequence numbers the events of `x` have received, oldest first. -/
def received (x : Uuid) (trace : List (MongoCall × Event MongoSig)) : List ℕ :=
  trace.filterMap (given x)

/-- A save overwrites the document while the counter is still what it has read. -/
def stillAsRead (_ : MongoCall) (past : List (Event MongoSig)) : MongoOp → MongoState → Bool
  | .upsertExecution e _, s =>
    match past.getLast? with
    | some ⟨.findSequence _, existing⟩ => s.counter e.id = foundSequence existing
    | _ => true
  | _, _ => true

/-! ### What a statement does to the counters -/

@[simp] theorem counter_update (s : MongoState) (x : Uuid) (e : Execution) (n : ℕ) (y : Uuid) :
    MongoState.counter
        { s with executions := Function.update s.executions x (some ⟨e, some n⟩) } y =
      if y = x then n else s.counter y := by
  by_cases h : y = x
  · subst h
    simp [MongoState.counter]
  · simp [MongoState.counter, h]

/-- An increment answers the counter it leaves behind, one above the one it found. -/
theorem mongo_incSequence (x : Uuid) (s : MongoState) :
    (mongo (.incSequence x) s).1 = none ∧ (mongo (.incSequence x) s).2 = s ∨
    (mongo (.incSequence x) s).1 = some (s.counter x + 1) ∧
      ∀ y, (mongo (.incSequence x) s).2.counter y =
        if y = x then s.counter x + 1 else s.counter y := by
  rcases h : s.executions x with - | d
  · left
    simp [mongo, h]
  · right
    refine ⟨by simp [mongo, h], fun y => ?_⟩
    have hs : (mongo (.incSequence x) s).2 = { s with
        executions :=
          Function.update s.executions x (some ⟨d.execution, some (s.counter x + 1)⟩) } := by
      simp [mongo, h]
    rw [hs, counter_update]

/-! ### Saves that find the counter as they read it -/

/-- Under the condition, a save writes the counter that is there. -/
def mongoContract : Pool.Contract MongoSig MongoCall MongoState RuntimeException Unit mongo where
  inv _ := True
  rely _ _ := True
  cond l past o s := stillAsRead l past o s
  guar _ _ o s := ∀ e n, o = .upsertExecution e n → s.counter e.id = n
  post _ _ _ _ := True
  rely_refl _ := trivial
  rely_trans _ _ := trivial
  inv_step _ _ _ := trivial
  rely_step _ _ _ := trivial

theorem safe_code (l : MongoCall) (s : MongoState) : Pool.Safe mongoContract l [] l.code s := by
  cases l with
  | appendEvent event =>
    intro s₁ _ _ _
    refine ⟨fun e n h => by simp at h, ?_⟩
    rcases (mongo (.incSequence event.executionId) s₁).1 with - | n
    · intro s₂ _ _
      trivial
    · intro s₂ _ _ _
      exact ⟨fun e n h => by simp at h, fun s₃ _ _ => trivial⟩
  | saveExecution e =>
    intro s₁ _ _ _
    refine ⟨fun e n h => by simp at h, fun s₂ _ _ hc => ⟨fun e' n h => ?_, fun s₃ _ _ => trivial⟩⟩
    have hc : s₂.counter e.id = foundSequence (mongo (.findSequence e.id) s₁).1 :=
      of_decide_eq_true hc
    obtain ⟨rfl, rfl⟩ := MongoOp.upsertExecution.inj h
    exact hc

/-- Every number given so far is at most the counter, and none was given twice. -/
structure Counted (x : Uuid) (q : MongoCalls) : Prop where
  le_counter : ∀ n ∈ received x q.trace, n ≤ q.shared.counter x
  nodup : (received x q.trace).Nodup

theorem received_append (x : Uuid) (trace : List (MongoCall × Event MongoSig))
    (a : MongoCall × Event MongoSig) :
    received x (trace ++ [a]) = received x trace ++ (given x a).toList := by
  rw [received, List.filterMap_append]
  rcases h : given x a with - | n <;> simp [received, h]

/-- **What one statement preserves.** -/
theorem Counted.step {x : Uuid} {q : MongoCalls} (h : Counted x q) {i : ℕ} {l : MongoCall}
    {past : List (Event MongoSig)} {o : MongoOp} {k : o.Ret → Program MongoSig RuntimeException Unit}
    (hguar : ∀ e n, o = .upsertExecution e n → q.shared.counter e.id = n) :
    Counted x (afterStep mongo q i l past o k) := by
  -- a statement that gives no number and leaves the counter where it is changes nothing
  have hsame : given x (l, ⟨o, (mongo o q.shared).1⟩) = none →
      (mongo o q.shared).2.counter x = q.shared.counter x →
      Counted x (afterStep mongo q i l past o k) := by
    intro hgiven hcounter
    have hreceived : received x (afterStep mongo q i l past o k).trace = received x q.trace := by
      show received x (q.trace ++ [_]) = _
      rw [received_append, hgiven, Option.toList_none, List.append_nil]
    refine ⟨fun n hn => ?_, hreceived ▸ h.nodup⟩
    rw [hreceived] at hn
    show n ≤ (mongo o q.shared).2.counter x
    rw [hcounter]
    exact h.le_counter n hn
  cases o with
  | findSequence y => exact hsame rfl rfl
  | insertEvent event => exact hsame rfl rfl
  | upsertExecution e n =>
    refine hsame rfl ?_
    show MongoState.counter _ x = _
    rw [mongo, counter_update]
    split
    next hx => rw [hx, hguar e n rfl]
    · rfl
  | incSequence y =>
    rcases mongo_incSequence y q.shared with ⟨hanswer, hs⟩ | ⟨hanswer, hs⟩
    · refine hsame ?_ (by rw [hs])
      simp only [given, hanswer]
      split <;> rfl
    · by_cases hy : y = x
      · subst hy
        have hreceived : received y (afterStep mongo q i l past (.incSequence y) k).trace =
            received y q.trace ++ [q.shared.counter y + 1] := by
          show received y (q.trace ++ [_]) = _
          rw [received_append]
          simp [given, hanswer]
        refine ⟨fun n hn => ?_, ?_⟩
        · show n ≤ (mongo (.incSequence y) q.shared).2.counter y
          rw [hs, if_pos rfl]
          rw [hreceived] at hn
          rcases List.mem_append.mp hn with hn | hn
          · exact Nat.le_succ_of_le (h.le_counter n hn)
          · exact (List.mem_singleton.mp hn).le
        · rw [hreceived]
          refine List.nodup_append.mpr ⟨h.nodup, List.nodup_singleton _, fun n hn m hm => ?_⟩
          have := h.le_counter n hn
          have := List.mem_singleton.mp hm
          omega
      · refine hsame ?_ (by rw [hs, if_neg (Ne.symm hy)])
        simp [given, hy]

/-- **Distinct sequence numbers.**  In every interleaving in which each save overwrites
the document while its counter is still the one the save has read, no two events of an
execution receive the same number. -/
theorem received_nodup (x : Uuid) (s : MongoState) (q : MongoCalls)
    (h : Pool.Runs MongoCall.code mongo (Pool.Every fun l past o s => stillAsRead l past o s)
      { shared := s } q) :
    (received x q.trace).Nodup := by
  have hcounted : Counted x q := by
    refine Pool.Runs.invariant_of_safe (C := mongoContract) (I := Counted x)
      (fun l s _ => safe_code l s) (fun q l hq => ⟨hq.le_counter, hq.nodup⟩) ?_
      (allSafe_nil trivial []) ⟨?_, List.nodup_nil⟩ h
    · intro q i l past o k hq _ _ _ hguar
      exact hq.step hguar
    · intro n hn
      cases hn
  exact hcounted.nodup

/-- An execution of workflow `w`. -/
def mongoExecution : Execution := { id := 0, workflowId := "w" }

/-- An event of that execution. -/
def mongoEvent (id : Uuid) : ExecutionEvent :=
  { id := id, executionId := 0, workflowId := "w", eventType := .executionStarted, sequence := 0
    timestamp := 0 }

def mongoCreated : MongoState :=
  { executions := fun x => if x = 0 then some ⟨mongoExecution, some 0⟩ else none }

/-- Two appends around a save that neither of them interrupts. -/
theorem received_nodup_two : ∃ q : MongoCalls, received 0 q.trace = [1, 2] ∧
    (received 0 q.trace).Nodup := by
  rcases h : nextsIf MongoCall.code mongo stillAsRead { shared := mongoCreated }
    [.start (.appendEvent (mongoEvent 1)), .start (.saveExecution mongoExecution),
      .start (.appendEvent (mongoEvent 2)), .step 0, .step 1, .step 1, .step 2] with - | q
  · cases h
  · have hreceived : received 0 q.trace = [1, 2] := by
      cases h
      rfl
    exact ⟨q, hreceived, received_nodup 0 mongoCreated q (runs_of_nextsIf h)⟩

/-- A save reads the counter, an event is appended, the save writes the counter back,
and the next event receives the number of the first. -/
theorem received_twice : ∃ q : MongoCalls,
    Pool.Runs MongoCall.code mongo (fun _ _ => True) { shared := mongoCreated } q ∧
    ¬ (received 0 q.trace).Nodup := by
  rcases h : nexts MongoCall.code mongo { shared := mongoCreated }
    [.start (.appendEvent (mongoEvent 1)), .start (.saveExecution mongoExecution),
      .start (.appendEvent (mongoEvent 2)), .step 1, .step 0, .step 1, .step 2] with - | q
  · cases h
  · refine ⟨q, runs_of_nexts h, ?_⟩
    have hreceived : received 0 q.trace = [1, 1] := by
      cases h
      rfl
    rw [hreceived]
    decide

end OpenAgency
