/-
StoreRules.lean

Rules for coroutines that overwrite rows and append events.  A rule says of the worlds
it leads to that the records are the same (`SameStore`), or the same but for the row of
one execution (`OthersKept`).
-/
import OpenAgency.Containers
import OpenAgency.ControlPlane

namespace OpenAgency

open Relational Interaction Program

variable {env : Environment} {w w' : World}

/-! ### Identifiers that have not been drawn -/

/-- A coroutine never un-draws an identifier. -/
theorem wp_uuidsDrawn {α : Type} (p : Coroutine α) (w : World) :
    p.wp (handler env) (fun _ w' => w.uuidsDrawn ≤ w'.uuidsDrawn)
      (fun _ w' => w.uuidsDrawn ≤ w'.uuidsDrawn) w := by
  induction p generalizing w with
  | done a => exact wp_of_done le_rfl
  | raise e => exact wp_of_raise le_rfl
  | call o k ih =>
    rw [wp_call]
    have hstep : w.uuidsDrawn ≤ (handler env o w).2.uuidsDrawn := by
      cases o with
      | uuid4 => exact Nat.le_succ _
      | db o => exact le_rfl
      | proc o => exact le_rfl
      | ext o => exact le_rfl
      | utcNow => exact le_rfl
    apply wp_mono (ih _ _)
    · exact fun _ _ h => hstep.trans h
    · exact fun _ _ h => hstep.trans h

/-- The records of two worlds are the same, and no identifier has been un-drawn. -/
structure SameStore (w w' : World) : Prop extends SameRecords w w' where
  drawn : w.uuidsDrawn ≤ w'.uuidsDrawn

theorem SameStore.trans {w₁ w₂ w₃ : World} (h : SameStore w₁ w₂) (h' : SameStore w₂ w₃) :
    SameStore w₁ w₃ where
  toSameRecords := h.toSameRecords.trans h'.toSameRecords
  drawn := h.drawn.trans h'.drawn

theorem sameStore_of_db (hdb : w'.db = w.db) (hd : w.uuidsDrawn ≤ w'.uuidsDrawn) :
    SameStore w w' where
  executions := by rw [hdb]
  waits := by rw [hdb]
  approvalRequests := by rw [hdb]
  drawn := hd

variable {E : RuntimeException → World → Prop}

/-- A postcondition may count on the identifiers drawn. -/
theorem wp_of_drawn {α : Type} {p : Coroutine α} {Q : α → World → Prop}
    (h : p.wp (handler env) (fun a w' => w.uuidsDrawn ≤ w'.uuidsDrawn →
      Q a w') (fun e w' => w.uuidsDrawn ≤ w'.uuidsDrawn → E e w') w) :
    p.wp (handler env) Q E w := by
  apply wp_mono (wp_and h (wp_uuidsDrawn p w))
  · exact fun _ _ h => h.1 h.2
  · exact fun _ _ h => h.1 h.2

/-! ### One execution changes -/

/-- Every execution but `x`, and all waits, are as they were. -/
structure OthersKept (x : Uuid) (w w' : World) : Prop where
  others : ∀ i, i ≠ x → w'.db.executions.get i = w.db.executions.get i
  waits : w'.db.waits = w.db.waits
  drawn : w.uuidsDrawn ≤ w'.uuidsDrawn

namespace OthersKept

variable {x : Uuid} {w₁ w₂ w₃ : World}

theorem trans (h : OthersKept x w₁ w₂) (h' : OthersKept x w₂ w₃) : OthersKept x w₁ w₃ where
  others i hi := (h'.others i hi).trans (h.others i hi)
  waits := h'.waits.trans h.waits
  drawn := h.drawn.trans h'.drawn

theorem of_sameStore (h : SameStore w₁ w₂) : OthersKept x w₁ w₂ where
  others i _ := by rw [h.executions]
  waits := h.waits
  drawn := h.drawn

end OthersKept

/-- `e` is stored under its identifier. -/
abbrev Stores (e : Execution) (w : World) : Prop := w.db.executions.get e.id = some e

variable {e : Execution}

theorem Stores.of_sameRecords (h : Stores e w) (hw : SameRecords w w') : Stores e w' := by
  show w'.db.executions.get e.id = some e
  rw [hw.executions]
  exact h

theorem Stores.ne_none (h : Stores e w) : w.db.executions.get e.id ≠ none := by
  rw [h]
  exact Option.some_ne_none e

/-- One row is overwritten. -/
theorem wp_save {α : Type} {f : Unit → Coroutine α} {Q : α → World → Prop}
    (h : ∀ w', Stores e w' → OthersKept e.id w w' → (f ()).wp (handler env) Q E w') :
    (updateExecution e >>= f).wp (handler env) Q E w := by
  rw [wp_updateExecution]
  apply h
  · exact Table.get_save_self _ e
  · exact ⟨fun i hi => Table.get_save_ne hi, rfl, le_rfl⟩

/-! ### Emissions and readings -/

section Rules

variable {st : NativeExecutionState} {eventType : ExecutionEventType}
  {E : RuntimeException → World → Prop}

theorem wp_emit_sameStore {Q : ExecutionEvent → World → Prop}
    (hrow : w.db.executions.get st.executionId ≠ none) (hQ : ∀ event w', SameStore w w' → Q event w') :
    (emit st eventType).wp (handler env) Q E w := by
  apply wp_of_drawn
  apply wp_emit_of_row hrow
  intro event w' h hd
  exact hQ event w' ⟨h.toSameRecords, hd⟩

variable {Q : NativeExecutionState → World → Prop}

theorem wp_emitHeld (hrow : w.db.executions.get st.executionId ≠ none)
    (hQ : ∀ st' w', st'.executionId = st.executionId → SameStore w w' → Q st' w') :
    (emitHeld st eventType).wp (handler env) Q E w := by
  apply wp_of_drawn
  rw [emitHeld, wp_bind]
  apply wp_appendEvent_of_row
  · exact hrow
  · intro event w' h _
    apply wp_of_done
    exact fun hd => hQ _ w' rfl ⟨h, hd⟩

theorem wp_eventStateFor {x : Uuid} {workflowId : String} (hQ : ∀ st, st.executionId = x → Q st w) :
    (eventStateFor x workflowId).wp (handler env) Q E w := by
  rw [eventStateFor, wp_query]
  apply wp_of_done
  apply hQ
  simp only [DbOp.exec]
  rcases (w.db.eventsOf x).getLast? with - | last <;> rfl

theorem wp_orUtcNow {α : Type} {t : Option Time} {f : Time → Coroutine α} {Q : α → World → Prop}
    (hf : ∀ now w', SameStore w w' → (f now).wp (handler env) Q E w') :
    (orUtcNow t >>= f).wp (handler env) Q E w := by
  rw [wp_bind]
  apply wp_of_drawn
  rcases t with - | t
  · show (utcNow : Coroutine Time).wp _ _ _ w
    rw [← bind_done utcNow, wp_utcNow]
    apply wp_of_done
    exact fun hd => hf _ _ (sameStore_of_db rfl hd)
  · apply wp_of_done
    exact fun hd => hf _ _ (sameStore_of_db rfl hd)

theorem wp_snapshot {reason : String} {Q : Option PartialResultPreservation → World → Prop}
    (hQ : ∀ p w', SameStore w w' → Q p w') :
    (partialResultPreservationSnapshot e reason).wp (handler env) Q E w := by
  apply wp_of_drawn
  apply wp_partialResultPreservationSnapshot
  intro p w' hdb hd
  exact hQ p w' (sameStore_of_db hdb hd)

end Rules

end OpenAgency
