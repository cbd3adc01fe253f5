/-
CycleFrame.lean

What the node loop of a run leaves alone.  Between the start of a cycle and its end
the engine writes the execution's row many times, from its own object and from copies
it has just read, but it never touches the cycle record or the policy in the metadata,
and the only waits it stores are those of approvals.  A `CycleFrame` names an
execution, the engine's object for it and a property of cycle record and policy;
`Keeps` says of a coroutine that it writes nothing outside the property as long as it
reads nothing outside it, and `Keeps.wp` turns this into an invariant of its runs.
-/
import OpenAgency.Engine

namespace OpenAgency

open Interaction Relational

structure CycleFrame where
  executionId : Uuid
  /-- The engine's object of the execution, where the engine runs it. -/
  ref : Option ℕ
  holds : PersistentCycle → PersistentCyclePolicy → Prop
  /-- The kinds of waits that may be stored. -/
  waits : ExecutionWaitKind → Prop

/-- The two executions agree in what a frame speaks of. -/
structure SameCycle (e e' : Execution) : Prop where
  id : e'.id = e.id
  cycle : e'.metadata.persistentCycle = e.metadata.persistentCycle
  policy : e'.metadata.persistentCyclePolicy = e.metadata.persistentCyclePolicy

namespace CycleFrame

variable (F : CycleFrame)

def Holds (e : Execution) : Prop :=
  F.holds e.metadata.persistentCycle e.metadata.persistentCyclePolicy

/-- The answers under the property. -/
def ok : (o : RuntimeOp) → o.Ret → Prop
  | .db (.getExecution y), row =>
    ∀ e, row = some e → e.id = y ∧ (y = F.executionId → F.Holds e)
  | .proc (.object ref), e => F.ref = some ref → e.id = F.executionId ∧ F.Holds e
  | _, _ => True

/-- The operations that keep the property. -/
def allowed : RuntimeOp → Prop
  | .db (.updateExecution e) => e.id = F.executionId → F.Holds e
  | .db (.insertExecutionWait wait) => F.waits wait.kind
  | .proc (.modifyObject ref f) => F.ref = some ref →
      ∀ e, e.id = F.executionId → F.Holds e → (f e).id = F.executionId ∧ F.Holds (f e)
  | _ => True

/-- The property holds of the row and of the object, and a pending wait of any other
kind has been pending since `w₀`. -/
structure Invariant (w₀ w : World) : Prop where
  row : ∃ e, w.db.executions.get F.executionId = some e ∧ F.Holds e
  object : ∀ ref, F.ref = some ref → ∃ e, ObjectIs w ref e ∧ e.id = F.executionId ∧ F.Holds e
  waits : ∀ i row, w.db.waits.get i = some row → row.wait.status = .pending →
    ¬ F.waits row.wait.kind → ∃ row₀, w₀.db.waits.get i = some row₀ ∧
      row₀.wait.status = .pending ∧ row₀.wait.kind = row.wait.kind ∧
      row₀.wait.executionId = row.wait.executionId

/-- A coroutine that keeps the property. -/
def Keeps {α : Type} (p : Coroutine α) : Prop := p.Within F.ok F.allowed

variable {F}

theorem Holds.of_same {e e' : Execution} (h : F.Holds e) (hs : SameCycle e e') : F.Holds e' := by
  rw [Holds, hs.cycle, hs.policy]
  exact h

/-! ### One operation -/

namespace Invariant

variable {w₀ w : World}

theorem of_eq {w' : World} (h : F.Invariant w₀ w) (hdb : w'.db = w.db)
    (hobjects : w'.proc.objects = w.proc.objects) : F.Invariant w₀ w' := by
  obtain ⟨hrow, hobject, hwaits⟩ := h
  refine ⟨?_, ?_, ?_⟩
  · rw [hdb]
    exact hrow
  · intro ref href
    show ∃ e, w'.proc.objects[ref]? = some e ∧ _
    rw [hobjects]
    exact hobject ref href
  · rw [hdb]
    exact hwaits

theorem of_sameButEvents {w' : World} (h : F.Invariant w₀ w) (hs : SameButEvents w w') :
    F.Invariant w₀ w' := by
  obtain ⟨hrow, hobject, hwaits⟩ := h
  refine ⟨?_, ?_, ?_⟩
  · rw [hs.executions]
    exact hrow
  · intro ref href
    show ∃ e, w'.proc.objects[ref]? = some e ∧ _
    rw [hs.objects]
    exact hobject ref href
  · rw [hs.waits]
    exact hwaits

/-- A statement that keeps the property of the row. -/
theorem exec_db (h : F.Invariant w₀ w) {o : DbOp} (ho : F.allowed (.db o)) :
    F.Invariant w₀ { w with db := (o.exec w.db).2 } := by
  refine ⟨?_, h.object, ?_⟩
  · by_cases hupdate : ∃ e, o = .updateExecution e
    · obtain ⟨e, rfl⟩ := hupdate
      show ∃ e', (w.db.executions.save e).get F.executionId = some e' ∧ F.Holds e'
      rw [Table.get_save]
      split
      next hx => exact ⟨e, rfl, ho hx.symm⟩
      · exact h.row
    · show ∃ e', (o.exec w.db).2.executions.get F.executionId = some e' ∧ F.Holds e'
      rw [DbOp.exec_executions (fun e he => hupdate ⟨e, he⟩)]
      exact h.row
  · intro i row hi hp hkind
    rcases DbOp.exec_waits hi with hold | ⟨wait, rfl, -, rfl, -⟩ | ⟨r, now, old, -, hold, hpold, rfl⟩
    · exact h.waits i row hold hp hkind
    · exact absurd ho hkind
    · exact h.waits i old hold hpold hkind

/-- An access that keeps the property of the object. -/
theorem exec_proc (h : F.Invariant w₀ w) {o : ProcOp} (ho : F.allowed (.proc o)) :
    F.Invariant w₀ { w with proc := (o.exec w.proc).2 } := by
  refine ⟨h.row, fun ref href => ?_, h.waits⟩
  obtain ⟨e, he, hid, hholds⟩ := h.object ref href
  have he' : w.proc.objects[ref]? = some e := he
  cases o with
  | newObject e' =>
    refine ⟨e, ?_, hid, hholds⟩
    show (w.proc.objects ++ [e'])[ref]? = some e
    rw [List.getElem?_append_left (List.getElem?_eq_some_iff.mp he').1]
    exact he'
  | modifyObject ref' f =>
    show ∃ e', (w.proc.objects.modify ref' f)[ref]? = some e' ∧ _
    rw [List.getElem?_modify, he']
    by_cases hsame : ref' = ref
    · subst hsame
      obtain ⟨hid', hholds'⟩ := ho href e hid hholds
      exact ⟨f e, by simp, hid', hholds'⟩
    · exact ⟨e, by simp [hsame], hid, hholds⟩
  | createTask y =>
    refine ⟨e, ?_, hid, hholds⟩
    show (if y ∈ w.proc.tasks then w.proc else _).objects[ref]? = some e
    split <;> exact he'
  | _ => exact ⟨e, he', hid, hholds⟩

/-- Under the property the answers have it, and allowed operations keep it. -/
theorem sound {env : Environment} {o : RuntimeOp} (h : F.Invariant w₀ w) (ho : F.allowed o) :
    F.ok o (handler env o w).1 ∧ F.Invariant w₀ (handler env o w).2 := by
  cases o with
  | db o =>
    refine ⟨?_, h.exec_db ho⟩
    cases o with
    | getExecution y =>
      intro e he
      refine ⟨Table.key_of_get he, ?_⟩
      rintro rfl
      obtain ⟨e', he', hholds⟩ := h.row
      obtain rfl : e' = e := Option.some.inj (he'.symm.trans he)
      exact hholds
    | _ => trivial
  | proc o =>
    refine ⟨?_, h.exec_proc ho⟩
    cases o with
    | object ref =>
      intro href
      obtain ⟨e, he, hid, hholds⟩ := h.object ref href
      have he' : w.proc.objects[ref]? = some e := he
      show (w.proc.objects.getD ref _).id = _ ∧ F.Holds (w.proc.objects.getD ref _)
      rw [List.getD_eq_getElem?_getD, he']
      exact ⟨hid, hholds⟩
    | _ => trivial
  | ext o => exact ⟨trivial, h.of_eq rfl rfl⟩
  | utcNow => exact ⟨trivial, h.of_eq rfl rfl⟩
  | uuid4 => exact ⟨trivial, h.of_eq rfl rfl⟩

end Invariant

/-! ### Coroutines that keep the property -/

namespace Keeps

variable {α β : Type}

variable {p : Coroutine α}

/-- **The frame rule.** -/
theorem wp (hp : F.Keeps p) {env : Environment} {w₀ w : World} (h : F.Invariant w₀ w) :
    p.wp (handler env) (fun _ => F.Invariant w₀) (fun _ => F.Invariant w₀) w :=
  Program.Within.invariant (fun _ _ hs ho => hs.sound ho) hp h

theorem bind {f : α → Coroutine β} (hp : F.Keeps p) (hf : ∀ a, F.Keeps (f a)) :
    F.Keeps (p >>= f) := Program.Within.bind hp hf

theorem query {o : DbOp} (h : F.allowed (.db o)) : F.Keeps (OpenAgency.query o) :=
  ⟨h, fun _ _ => trivial⟩

theorem process {o : ProcOp} (h : F.allowed (.proc o)) : F.Keeps (OpenAgency.process o) :=
  ⟨h, fun _ _ => trivial⟩

theorem ask (o : ExtOp) : F.Keeps (OpenAgency.ask o) := ⟨trivial, fun _ _ => trivial⟩

theorem utcNow : F.Keeps OpenAgency.utcNow := ⟨trivial, fun _ _ => trivial⟩

theorem uuid4 : F.Keeps OpenAgency.uuid4 := ⟨trivial, fun _ _ => trivial⟩

theorem pure (a : α) : F.Keeps (Pure.pure a : Coroutine α) := trivial

theorem raise (cls : ExceptionClass) (message : String) :
    F.Keeps (OpenAgency.raise cls message : Coroutine α) := trivial

theorem ofExcept (r : Except RuntimeException α) :
    F.Keeps (Program.ofExcept r : Coroutine α) := Program.within_ofExcept r

theorem rescue {h : RuntimeException → Coroutine α} (hp : F.Keeps p) (hh : ∀ e, F.Keeps (h e)) :
    F.Keeps (p.rescue h) := Program.Within.rescue hp hh

/-- A copy of a row is read. -/
theorem getExecution {y : Uuid} {f : Option Execution → Coroutine β} (hnone : F.Keeps (f none))
    (hsome : ∀ e, e.id = y → (y = F.executionId → F.Holds e) → F.Keeps (f (some e))) :
    F.Keeps (OpenAgency.getExecution y >>= f) := by
  refine ⟨trivial, fun row hrow => ?_⟩
  rcases row with - | e
  · exact hnone
  · obtain ⟨hid, hholds⟩ := hrow e rfl
    exact hsome e hid hholds

/-- A copy goes back with the cycle it was read with. -/
theorem updateExecution {y : Uuid} {e e' : Execution} (hid : e.id = y)
    (h : y = F.executionId → F.Holds e) (hs : SameCycle e e') :
    F.Keeps (OpenAgency.updateExecution e') :=
  query fun hx => (h (hid.symm.trans (hs.id.symm.trans hx))).of_same hs

theorem object {ref : ℕ} (href : F.ref = some ref) {f : Execution → Coroutine β}
    (h : ∀ e, e.id = F.executionId → F.Holds e → F.Keeps (f e)) :
    F.Keeps (OpenAgency.process (.object ref) >>= f) :=
  ⟨trivial, fun e he => h e (he href).1 (he href).2⟩

theorem saveObject {ref : ℕ} (href : F.ref = some ref) : F.Keeps (OpenAgency.saveObject ref) :=
  object href fun _ _ he => query fun _ => he

theorem modifyObject {f : Execution → Execution} (h : ∀ e, SameCycle e (f e)) (ref : ℕ) :
    F.Keeps (OpenAgency.process (.modifyObject ref f)) :=
  process fun _ e hid he => ⟨(h e).id.trans hid, he.of_same (h e)⟩

theorem state (x : Uuid) (workflowId : String) :
    F.Keeps (OpenAgency.process (.state x workflowId)) := process trivial

theorem modifyState (x : Uuid) (f : NativeExecutionState → NativeExecutionState) :
    F.Keeps (OpenAgency.process (.modifyState x f)) := process trivial

theorem emit (st : NativeExecutionState) (eventType : ExecutionEventType) (labels : EventLabels) :
    F.Keeps (OpenAgency.emit st eventType labels) := by
  refine .bind (modifyState _ _) fun _ => .bind (state _ _) fun current => .bind ?_ fun saved =>
    .bind (modifyState _ _) fun _ => pure saved
  exact .bind uuid4 fun id => .bind utcNow fun now => .bind (query trivial) ofExcept

end Keeps

end CycleFrame

end OpenAgency
