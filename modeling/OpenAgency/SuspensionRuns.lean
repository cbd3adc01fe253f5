/-
SuspensionRuns.lean

Sequences of the commands that suspend and wake executions.  A sequence keeps every
suspended execution wakeable as long as no command of it is answered an old wait:
`create_wait` asks under a key the execution has not used, and a cycle finds under
its number only the sleep that is still pending.
-/
import OpenAgency.Suspension

namespace OpenAgency

open Interaction Relational

/-! ### Commands -/

inductive SuspensionCommand where
  | createWait (r : CreateWaitRequest)
  | resolveWait (r : ResolveWaitRequest)
  | wakeDueWaits (now : Option Time) (limit : ℤ)
  | wakeEvent (r : WakeEventRequest)
  | pause (x : Uuid)
  | resume (x : Uuid)
  | cancel (x : Uuid)
  /-- The engine schedules the next cycle of the object `e`. -/
  | schedulePersistentCycle (e : Execution) (workflow : WorkflowDefinition)
      (policy : PersistentCyclePolicy) (cycleOutput : CycleOutput) (delay : ℚ) (reason : String)

/-- `_schedule_persistent_cycle` on an object of the engine's own. -/
def schedulePersistentCycleOf (cfg : EngineConfig) (e : Execution) (workflow : WorkflowDefinition)
    (policy : PersistentCyclePolicy) (cycleOutput : CycleOutput) (delay : ℚ) (reason : String) :
    Coroutine Unit := do
  let st ← process (.state e.id workflow.id)
  let ref ← process (.newObject e)
  let run : RunContext := ⟨cfg, st, ref, workflow, policy⟩
  schedulePersistentCycle run cycleOutput delay reason

namespace SuspensionCommand

/-- What a command does; its answer is dropped. -/
def program (cfg : EngineConfig) : SuspensionCommand → Coroutine Unit
  | createWait r => OpenAgency.createWait r >>= fun _ => pure ()
  | resolveWait r => OpenAgency.resolveWait r >>= fun _ => pure ()
  | wakeDueWaits now limit => OpenAgency.wakeDueWaits now limit >>= fun _ => pure ()
  | wakeEvent r => OpenAgency.wakeEvent r >>= fun _ => pure ()
  | pause x => OpenAgency.pause x >>= fun _ => pure ()
  | resume x => OpenAgency.resume x >>= fun _ => pure ()
  | cancel x => OpenAgency.cancel x >>= fun _ => pure ()
  | schedulePersistentCycle e workflow policy cycleOutput delay reason =>
    schedulePersistentCycleOf cfg e workflow policy cycleOutput delay reason

/-- Before the command, the store holds no wait that it would answer in place of a new
one, other than the pending sleep of the same cycle. -/
def FindsNoOldWait (db : Database) : SuspensionCommand → Prop
  | createWait r => r.UsesFreshKey db
  | schedulePersistentCycle e _ _ _ _ _ => FindsPendingSleep db e.id e.cycleKey
  | _ => True

end SuspensionCommand

section Runs

variable (cfg : EngineConfig) (env : Environment)

/-- The world after a command, whether it returned or raised. -/
def SuspensionCommand.after (c : SuspensionCommand) (w : World) : World :=
  ((c.program cfg).run (handler env) w).2

/-- Every suspended execution can be woken, now and after each command. -/
def CanAlwaysBeWoken : List SuspensionCommand → World → Prop
  | [], w => ∀ x, CanBeWoken w.db x
  | c :: cs, w => (∀ x, CanBeWoken w.db x) ∧ CanAlwaysBeWoken cs (c.after cfg env w)

/-- No command of the sequence, where it is applied, finds an old wait. -/
def FindNoOldWait : List SuspensionCommand → World → Prop
  | [], _ => True
  | c :: cs, w => c.FindsNoOldWait w.db ∧ FindNoOldWait cs (c.after cfg env w)

end Runs

/-! ### The invariant over a run -/

variable {cfg : EngineConfig} {env : Environment} {w : World}

theorem keeps_schedulePersistentCycleOf (h : Suspension w.db) {e : Execution}
    (hkey : FindsPendingSleep w.db e.id e.cycleKey) (workflow : WorkflowDefinition)
    (policy : PersistentCyclePolicy) (cycleOutput : CycleOutput) (delay : ℚ) (reason : String) :
    KeepsFrom env (schedulePersistentCycleOf cfg e workflow policy cycleOutput delay reason) w := by
  rw [KeepsFrom, schedulePersistentCycleOf, wp_state]
  refine wp_newObject fun ref w' hdb hobj => ?_
  refine keeps_schedulePersistentCycle ?_ hobj ?_ _ _ _
  · rw [hdb]
    exact h
  · rw [hdb]
    exact hkey

/-- One command keeps the invariant. -/
theorem SuspensionCommand.keeps (h : Suspension w.db) {c : SuspensionCommand}
    (hc : c.FindsNoOldWait w.db) : Suspension (c.after cfg env w).db := by
  refine Program.wp_state (I := fun w' : World => Suspension w'.db).mp ?_
  have drop {α : Type} {p : Coroutine α} (hp : KeepsFrom env p w) :
      KeepsFrom env (p >>= fun _ => pure ()) w := by
    rw [KeepsFrom]
    exact Program.wp_seq hp fun _ _ h' => Program.wp_of_done h'
  cases c with
  | createWait r => exact drop (keeps_createWait h hc)
  | resolveWait r => exact drop (keeps_resolveWait r w h)
  | wakeDueWaits now limit => exact drop (keeps_wakeDueWaits now limit w h)
  | wakeEvent r => exact drop (keeps_wakeEvent r w h)
  | pause x => exact drop (keeps_pause x w h)
  | resume x => exact drop (keeps_resume x w h)
  | cancel x => exact drop (keeps_cancel x w h)
  | schedulePersistentCycle e workflow policy cycleOutput delay reason =>
    exact keeps_schedulePersistentCycleOf h hc _ _ _ _ _

theorem canAlwaysBeWoken_of_suspension (cs : List SuspensionCommand) (h : Suspension w.db)
    (hcs : FindNoOldWait cfg env cs w) : CanAlwaysBeWoken cfg env cs w := by
  induction cs generalizing w with
  | nil => exact h.woken
  | cons c cs ih => exact ⟨h.woken, ih (SuspensionCommand.keeps h hcs.1) hcs.2⟩

/-- **A suspended execution can be woken.**  From a store without waits in which no
execution is suspended, every sequence of commands that finds no old wait keeps every
suspended execution wakeable. -/
theorem suspended_canAlwaysBeWoken (hw : w.db.waits = .empty)
    (he : ∀ x e, w.db.executions.get x = some e → e.status.isSuspended = false)
    (cs : List SuspensionCommand) (hcs : FindNoOldWait cfg env cs w) :
    CanAlwaysBeWoken cfg env cs w :=
  canAlwaysBeWoken_of_suspension cs (suspension_of_no_waits hw he) hcs

/-! ### A key that is used again -/

namespace ReusedKey

def paused : Execution := { id := 1, workflowId := "w", status := .paused }

def world : World := { db := { executions := Table.empty.save paused } }

/-- Ask for an input under a key. -/
def askInput (key : String) : SuspensionCommand :=
  .createWait { executionId := 1, kind := .input, idempotencyKey := key }

/-- Answer the first wait, and leave the execution paused. -/
def answer : SuspensionCommand :=
  .resolveWait { executionId := 1, waitId := 0, resolutionKey := "answer", resume := false }

/-- After the second question. -/
def asked : World :=
  [askInput "key", answer, askInput "key"].foldl (fun w c => c.after .bare .silent w) world

theorem not_suspended (x : Uuid) (e : Execution) (h : world.db.executions.get x = some e) :
    e.status.isSuspended = false := by
  have h' : (Table.empty.save paused).get x = some e := h
  rw [Table.get_save] at h'
  split at h'
  · cases h'
    rfl
  · cases h'

/-- No wait is stored under the key. -/
theorem usesFreshKey {r : CreateWaitRequest} {db : Database}
    (h : (db.waits.rows.select fun row =>
      row.wait.executionId = r.executionId && row.wait.idempotencyKey = r.key) = []) :
    r.UsesFreshKey db := by
  intro _ _ _ row hrow
  have hmem := mem_select_storedUnder.mpr hrow
  simp [h] at hmem

end ReusedKey

open ReusedKey in
/-- The same execution asks twice, under two keys. -/
theorem suspended_canAlwaysBeWoken_two_keys :
    CanAlwaysBeWoken .bare .silent [askInput "first", answer, askInput "second"] world :=
  suspended_canAlwaysBeWoken rfl not_suspended _
    ⟨usesFreshKey (List.eq_nil_of_length_eq_zero (by decide +kernel)), trivial,
      usesFreshKey (List.eq_nil_of_length_eq_zero (by decide +kernel)), trivial⟩

open ReusedKey in
/-- The same execution asks twice under one key: the store answers the wait that is
already resolved, and the execution is suspended on it. -/
theorem suspended_on_resolved_wait :
    ¬ (∀ (cfg : EngineConfig) (env : Environment) (w : World), w.db.waits = .empty →
        (∀ x e, w.db.executions.get x = some e → e.status.isSuspended = false) →
        ∀ cs : List SuspensionCommand, CanAlwaysBeWoken cfg env cs w) := by
  intro h
  obtain ⟨-, -, -, hlast : ∀ x, CanBeWoken asked.db x⟩ :=
    h .bare .silent world rfl not_suspended [askInput "key", answer, askInput "key"]
  have hexecution : (asked.db.executions.get 1).map (fun e =>
      (e.status, e.metadata.activeWait.map (·.waitId))) = some (.waitingForInput, some 0) := by
    decide +kernel
  have hwait : (asked.db.waits.get 0).map (·.wait.status) = some .resolved := by decide +kernel
  rcases he : asked.db.executions.get 1 with - | e
  · simp [he] at hexecution
  · simp only [he, Option.map_some, Option.some.injEq, Prod.mk.injEq] at hexecution
    obtain ⟨hstatus, hactive⟩ := hexecution
    obtain ⟨active, row, ha, hrow, -, hp, -⟩ := hlast 1 e he (by rw [hstatus]; rfl)
    simp only [ha, Option.map_some, Option.some.injEq] at hactive
    rw [← hactive, hrow] at hwait
    simp [hp] at hwait

end OpenAgency
