/-
Runtime.lean

The operations the runtime's coroutines perform, and what performing them does.

A coroutine is a `Program` over `RuntimeSig`: between two operations it holds
nothing but its own local values, so the operations are exactly the points at
which coroutines of this and other processes interleave.  An operation is a
database statement, a reading of the clock, a fresh identifier, an access to
state local to a worker process, or a question to the world outside.

What the world outside answers is not ours to say: the clock is an arbitrary
monotone sequence of readings, identifiers are an arbitrary sequence without
repetition, and every other answer is arbitrary.
-/
import OpenAgency.Database
import OpenAgency.Domain.Workflow
import OpenAgency.Lib.Crash

namespace OpenAgency

open Interaction Program

/-! ### State local to a process -/

/-- `NativeExecutionState`, the engine's working copy of a run. -/
structure NativeExecutionState where
  executionId : Uuid
  workflowId : String
  paused : Bool := false
  cancelled : Bool := false
  sequence : ℕ := 0
  nodeOutputs : Dict Json := []
  nodeOutcomes : Dict NodeOutcome := []
  nodeErrors : Dict String := []
  taskToolResults : Dict (List ToolResult) := []
  currentNodeId : Option String := none
  currentAgentId : Option String := none
  currentTaskId : Option String := none
  plannedNodeIds : List String := []
  terminalNodeIds : List String := []
  lastEventId : Option Uuid := none

/-- A key of `ApprovalManager._request_ids`, which joins execution and tool, in
the manager of one process. -/
structure ApprovalKey where
  manager : ℕ
  executionId : Uuid
  toolId : String
  deriving DecidableEq

theorem unfiled_keyed (x : Uuid) (st : NativeExecutionState)
    (h : (none : Option NativeExecutionState) = some st) : st.executionId = x := by
  cases h

/-- The dictionaries of the engine, the approval managers and the control plane,
and the `Execution` objects that coroutines of the engine hold on to and mutate:
an object outlives an exception, unlike the coroutine's local values. -/
structure ProcessState where
  states : Uuid → Option NativeExecutionState := fun _ => none
  /-- A state is filed under its own execution. -/
  keyed : ∀ x st, states x = some st → st.executionId = x := by
    first | exact unfiled_keyed | simp
  requestIds : ApprovalKey → Option Uuid := fun _ => none
  tasks : List Uuid := []
  objects : List Execution := []

/-- Accesses to process-local state. -/
inductive ProcOp where
  | state (executionId : Uuid) (workflowId : String)
  | modifyState (executionId : Uuid) (f : NativeExecutionState → NativeExecutionState)
  | setRequestId (key : ApprovalKey) (requestId : Uuid)
  | requestId (key : ApprovalKey)
  | popRequestId (key : ApprovalKey)
  | createTask (executionId : Uuid)
  | popTask (executionId : Uuid)
  | newObject (e : Execution)
  | object (ref : ℕ)
  | modifyObject (ref : ℕ) (f : Execution → Execution)

namespace ProcOp

abbrev Ret : ProcOp → Type
  | state _ _ => NativeExecutionState
  | requestId _ => Option Uuid
  | newObject _ => ℕ
  | object _ => Execution
  | _ => Unit

/-- `_states.setdefault`. -/
def setdefault (x : Uuid) (workflowId : String) (p : ProcessState) : NativeExecutionState :=
  (p.states x).getD { executionId := x, workflowId := workflowId }

@[simp] theorem executionId_setdefault (x : Uuid) (workflowId : String) (p : ProcessState) :
    (setdefault x workflowId p).executionId = x := by
  rcases h : p.states x with - | st
  · simp [setdefault, h]
  · simpa [setdefault, h] using p.keyed x st h

/-- File a state of `x`, or none, under `x`. -/
def setState (p : ProcessState) (x : Uuid) (st : Option NativeExecutionState)
    (h : ∀ s, st = some s → s.executionId = x) : ProcessState :=
  { p with
    states := Function.update p.states x st
    keyed := by
      intro y s hs
      by_cases hy : y = x
      · subst hy
        exact h s (by simpa using hs)
      · exact p.keyed y s (by simpa [hy] using hs) }

/-- What an access does: a change of a state leaves its execution alone, a task that
is running is kept, and an object is referred to by its place among all objects. -/
def exec : (o : ProcOp) → ProcessState → o.Ret × ProcessState
  | state x workflowId, p =>
    (setdefault x workflowId p, setState p x (some (setdefault x workflowId p)) (by simp))
  | modifyState x f, p =>
    ((), setState p x ((p.states x).map fun st => { f st with executionId := x }) (by simp))
  | setRequestId key r, p =>
    ((), { p with requestIds := Function.update p.requestIds key (some r) })
  | requestId key, p => (p.requestIds key, p)
  | popRequestId key, p =>
    ((), { p with requestIds := Function.update p.requestIds key none })
  | createTask x, p => ((), if x ∈ p.tasks then p else { p with tasks := x :: p.tasks })
  | popTask x, p => ((), { p with tasks := p.tasks.erase x })
  | newObject e, p => (p.objects.length, { p with objects := p.objects ++ [e] })
  | object ref, p => (p.objects.getD ref { id := 0, workflowId := "" }, p)
  | modifyObject ref f, p => ((), { p with objects := p.objects.modify ref f })

end ProcOp

/-! ### The world outside -/

structure ModelResponse where
  content : Option Json
  toolCalls : List (Option String × String × Json) := []
  usage : TokenUsage

/-- Questions to models, tools, delegates and timers. -/
inductive ExtOp where
  | delegateDecision (executionId : Uuid) (toolId : String) (payload approvalMetadata : Json)
  | generateText (agentId : String) (messages : List ModelMessage) (withTools : Bool)
  | executeTool (toolId : String) (arguments : Json)
  | timeoutAfter (timeout : Time)

namespace ExtOp

/-- `timeoutAfter` answers how many more operations a coroutine performs before
its timeout fires, if it does. -/
abbrev Ret : ExtOp → Type
  | delegateDecision _ _ _ _ => Except RuntimeException (Option ApprovalDecision)
  | generateText _ _ _ => Except RuntimeException ModelResponse
  | executeTool _ _ => Except RuntimeException Json
  | timeoutAfter _ => Option ℕ

end ExtOp

/-- Everything the runtime does not decide: readings of the clock, identifiers,
and the answers of the world outside, each by how often it was asked. -/
structure Environment where
  clock : ℕ → Time
  clock_mono : Monotone clock
  uuid : ℕ → Uuid
  uuid_injective : Function.Injective uuid
  answer : ℕ → (o : ExtOp) → o.Ret

/-- An environment whose clock and identifiers count up. -/
def Environment.counting (answer : ℕ → (o : ExtOp) → o.Ret) : Environment where
  clock := id
  clock_mono := monotone_id
  uuid := id
  uuid_injective := Function.injective_id
  answer := answer

/-- The answers of a world in which no delegate decides, models and tools answer
nothing and no timeout fires. -/
def ExtOp.silent : ℕ → (o : ExtOp) → o.Ret
  | _, delegateDecision _ _ _ _ => .ok none
  | _, generateText _ _ _ => .ok { content := none, usage := {} }
  | _, executeTool _ _ => .ok .null
  | _, timeoutAfter _ => none

/-- Counting identifiers and clock in a world that answers nothing. -/
def Environment.silent : Environment := .counting ExtOp.silent

structure World where
  db : Database := {}
  proc : ProcessState := {}
  clockReads : ℕ := 0
  uuidsDrawn : ℕ := 0
  answers : ℕ := 0

/-! ### Operations -/

inductive RuntimeOp where
  | db (o : DbOp)
  | proc (o : ProcOp)
  | ext (o : ExtOp)
  | utcNow
  | uuid4

namespace RuntimeOp

abbrev Ret : RuntimeOp → Type
  | db o => o.Ret
  | proc o => o.Ret
  | ext o => o.Ret
  | utcNow => Time
  | uuid4 => Uuid

end RuntimeOp

abbrev RuntimeSig : Signature := ⟨RuntimeOp, RuntimeOp.Ret⟩

/-- A coroutine of the runtime. -/
abbrev Coroutine (α : Type) := Program RuntimeSig RuntimeException α

/-- What performing an operation answers and does. -/
def handler (env : Environment) : Handler RuntimeSig World
  | .db o, w => ((o.exec w.db).1, { w with db := (o.exec w.db).2 })
  | .proc o, w => ((o.exec w.proc).1, { w with proc := (o.exec w.proc).2 })
  | .ext o, w => (env.answer w.answers o, { w with answers := w.answers + 1 })
  | .utcNow, w => (env.clock w.clockReads, { w with clockReads := w.clockReads + 1 })
  | .uuid4, w => (env.uuid w.uuidsDrawn, { w with uuidsDrawn := w.uuidsDrawn + 1 })

section Handler

variable (env : Environment) (w : World)

@[simp] theorem handler_db (o : DbOp) :
    handler env (.db o) w = ((o.exec w.db).1, { w with db := (o.exec w.db).2 }) := rfl

@[simp] theorem handler_proc (o : ProcOp) :
    handler env (.proc o) w = ((o.exec w.proc).1, { w with proc := (o.exec w.proc).2 }) := rfl

@[simp] theorem handler_utcNow :
    handler env .utcNow w = (env.clock w.clockReads, { w with clockReads := w.clockReads + 1 }) :=
  rfl

end Handler

/-! ### Performing single operations -/

/-- One database statement. -/
def query (o : DbOp) : Coroutine o.Ret := Program.perform (S := RuntimeSig) (.db o)

/-- One access to process-local state. -/
def process (o : ProcOp) : Coroutine o.Ret := Program.perform (S := RuntimeSig) (.proc o)

/-- One question to the world outside. -/
def ask (o : ExtOp) : Coroutine o.Ret := Program.perform (S := RuntimeSig) (.ext o)

def utcNow : Coroutine Time := Program.perform (S := RuntimeSig) .utcNow

def uuid4 : Coroutine Uuid := Program.perform (S := RuntimeSig) .uuid4

variable {β : Type}

@[simp] theorem query_bind (o : DbOp) (f : o.Ret → Coroutine β) :
    @Bind.bind (Program RuntimeSig RuntimeException) _ (no_index o.Ret) β (query o) f =
      Program.call (S := RuntimeSig) (.db o) f := rfl

@[simp] theorem utcNow_bind (f : Time → Coroutine β) :
    (utcNow >>= f) = Program.call (S := RuntimeSig) .utcNow f := rfl

@[simp] theorem uuid4_bind (f : Uuid → Coroutine β) :
    (uuid4 >>= f) = Program.call (S := RuntimeSig) .uuid4 f := rfl

/-- `raise cls(message)`. -/
def raise {α : Type} (cls : ExceptionClass) (message : String) : Coroutine α :=
  Program.throw ⟨cls, message⟩

/-! ### What single operations need -/

section Wp

variable {env : Environment} {w : World} {β : Type} {Q : β → World → Prop}
  {E : RuntimeException → World → Prop}

theorem wp_query (o : DbOp) (f : o.Ret → Coroutine β) :
    (query o >>= f).wp (handler env) Q E w ↔
      (f (o.exec w.db).1).wp (handler env) Q E { w with db := (o.exec w.db).2 } := wp_call _ _ _

theorem wp_process (o : ProcOp) (f : o.Ret → Coroutine β) :
    (process o >>= f).wp (handler env) Q E w ↔
      (f (o.exec w.proc).1).wp (handler env) Q E { w with proc := (o.exec w.proc).2 } := wp_call _ _ _

theorem wp_process_last (o : ProcOp) {Q : o.Ret → World → Prop} :
    (process o).wp (handler env) Q E w ↔
      Q (o.exec w.proc).1 { w with proc := (o.exec w.proc).2 } := by
  rw [← bind_done (process o), wp_process, wp_done]

/-- `_states.setdefault`. -/
theorem wp_state (x : Uuid) (workflowId : String) (f : NativeExecutionState → Coroutine β) :
    (process (.state x workflowId) >>= f).wp (handler env) Q E w ↔
      (f (ProcOp.setdefault x workflowId w.proc)).wp (handler env) Q E
        { w with proc := ((ProcOp.state x workflowId).exec w.proc).2 } := wp_call _ _ _

theorem wp_utcNow (f : Time → Coroutine β) :
    (utcNow >>= f).wp (handler env) Q E w ↔
      (f (env.clock w.clockReads)).wp (handler env) Q E
        { w with clockReads := w.clockReads + 1 } := wp_call _ _ _

theorem wp_uuid4 (f : Uuid → Coroutine β) :
    (uuid4 >>= f).wp (handler env) Q E w ↔
      (f (env.uuid w.uuidsDrawn)).wp (handler env) Q E
        { w with uuidsDrawn := w.uuidsDrawn + 1 } := wp_call _ _ _

end Wp

/-! ### The same for stopped coroutines -/

/-- The operations that write the store. -/
def RuntimeOp.isWrite : RuntimeOp → Bool
  | .db o => o.isWrite
  | _ => false

section Wpc

variable {env : Environment} {w : World} {n : ℕ} {β : Type} {C : ℕ → World → Prop}
  {Q : β → ℕ → World → Prop} {E : RuntimeException → ℕ → World → Prop}

theorem wpc_query_read {o : DbOp} (ho : o.isWrite = false) (f : o.Ret → Coroutine β) :
    (query o >>= f).wpc (handler env) RuntimeOp.isWrite C Q E n w ↔
      (f (o.exec w.db).1).wpc (handler env) RuntimeOp.isWrite C Q E n w := by
  have hdb : (handler env (.db o) w).2 = w := by rw [handler_db, DbOp.exec_of_not_isWrite ho]
  rw [query_bind, wpc_read ho, hdb]
  rfl

theorem wpc_query_write {o : DbOp} (ho : o.isWrite = true) (f : o.Ret → Coroutine β) :
    (query o >>= f).wpc (handler env) RuntimeOp.isWrite C Q E n w ↔
      C n w ∧ (f (o.exec w.db).1).wpc (handler env) RuntimeOp.isWrite C Q E (n + 1)
        { w with db := (o.exec w.db).2 } := wpc_write ho _

theorem wpc_process (o : ProcOp) (f : o.Ret → Coroutine β) :
    (process o >>= f).wpc (handler env) RuntimeOp.isWrite C Q E n w ↔
      (f (o.exec w.proc).1).wpc (handler env) RuntimeOp.isWrite C Q E n
        { w with proc := (o.exec w.proc).2 } := wpc_read rfl _

theorem wpc_utcNow (f : Time → Coroutine β) :
    (utcNow >>= f).wpc (handler env) RuntimeOp.isWrite C Q E n w ↔
      (f (env.clock w.clockReads)).wpc (handler env) RuntimeOp.isWrite C Q E n
        { w with clockReads := w.clockReads + 1 } := wpc_read rfl _

theorem wpc_uuid4 (f : Uuid → Coroutine β) :
    (uuid4 >>= f).wpc (handler env) RuntimeOp.isWrite C Q E n w ↔
      (f (env.uuid w.uuidsDrawn)).wpc (handler env) RuntimeOp.isWrite C Q E n
        { w with uuidsDrawn := w.uuidsDrawn + 1 } := wpc_read rfl _

end Wpc

/-- A coroutine never un-draws an identifier, wherever it is stopped. -/
theorem uuidsDrawn_stopAfter {env : Environment} {α : Type} (n : ℕ) (p : Coroutine α) (w : World) :
    w.uuidsDrawn ≤ (p.stopAfter (handler env) RuntimeOp.isWrite n w).uuidsDrawn := by
  refine Program.stopAfter_invariant (I := fun w' : World => w.uuidsDrawn ≤ w'.uuidsDrawn) ?_ n p le_rfl
  intro o s h
  cases o with
  | uuid4 => exact Nat.le_succ_of_le h
  | db o => exact h
  | proc o => exact h
  | ext o => exact h
  | utcNow => exact h

end OpenAgency
