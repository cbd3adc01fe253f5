/-
TerminalRecords.lean

Terminal executions under the lifecycle commands of the control plane and of the
engine.  The commands that start or continue an execution refuse a terminal one,
and the two cancels leave it alone; the engine's `pause_execution` has no such
guard, and the control plane's `pause` reaches it for a native execution.  So the
audit record of a terminal execution survives a sequence of commands exactly when
the sequence has no such pause.
-/
import OpenAgency.ControlPlane

namespace OpenAgency

open Relational Interaction Program ExecutionStatus

/-! ### Commands -/

inductive LifecycleCommand where
  | queueStart
  | pause
  | resume
  | cancel
  | startExecution
  | pauseExecution
  | resumeExecution
  | cancelExecution
  deriving DecidableEq

namespace LifecycleCommand

/-- What a command does to the execution `x`. -/
def program (cfg : EngineConfig) (x : Uuid) : LifecycleCommand → Coroutine Execution
  | queueStart => OpenAgency.queueStart x
  | pause => OpenAgency.pause x
  | resume => OpenAgency.resume x
  | cancel => OpenAgency.cancel x
  | startExecution => (OpenAgency.startExecution cfg x).flatten cfg
  | pauseExecution => OpenAgency.pauseExecution x
  | resumeExecution => OpenAgency.resumeExecution x
  | cancelExecution => OpenAgency.cancelExecution x

/-- The command reaches the engine's `pause_execution` on execution `e`. -/
def reachesEnginePause (e : Execution) : LifecycleCommand → Bool
  | pauseExecution => true
  | pause => e.runtimeAdapterId = "native"
  | _ => false

end LifecycleCommand

/-- What of an execution is an audit record once it is terminal. -/
structure AuditRecord where
  status : ExecutionStatus
  outputPayload : Option OutputPayload
  error : Option String

def Execution.auditRecord (e : Execution) : AuditRecord where
  status := e.status
  outputPayload := e.outputPayload
  error := e.error

section Commands

variable (cfg : EngineConfig) (env : Environment) (x : Uuid)

/-- The command raises, or it leaves the audit record as it is. -/
def KeepsAuditRecord (c : LifecycleCommand) (w : World) : Prop :=
  (∃ exc, ((c.program cfg x).run (handler env) w).1 = .error exc) ∨
    (((c.program cfg x).run (handler env) w).2.db.executions.get x).map Execution.auditRecord =
      (w.db.executions.get x).map Execution.auditRecord

/-- Every command of the sequence does, where it is applied. -/
def KeepAuditRecord : List LifecycleCommand → World → Prop
  | [], _ => True
  | c :: cs, w =>
    KeepsAuditRecord cfg env x c w ∧ KeepAuditRecord cs ((c.program cfg x).run (handler env) w).2

end Commands

/-! ### One command on a terminal execution -/

variable {cfg : EngineConfig} {env : Environment} {x : Uuid} {w w' : World} {e : Execution}

theorem rejectTerminalExecutionReplay_of_isTerminal (ht : e.status.isTerminal) :
    ∃ exc, rejectTerminalExecutionReplay e = .error exc := by
  rw [rejectTerminalExecutionReplay, if_pos ht]
  exact ⟨_, rfl⟩

theorem not_isDurableWait_of_isTerminal (ht : e.status.isTerminal) :
    e.status.isDurableWait = false := by
  cases h : e.status <;> simp_all [isTerminal, isDurableWait]

theorem status_of_isTerminal (ht : e.status.isTerminal) :
    e.status = .completed ∨ e.status = .failed ∨ e.status = .cancelled := by
  cases h : e.status <;> simp_all [isTerminal]

/-- The execution table is as it was. -/
abbrev SameExecutions (w w' : World) : Prop := w'.db.executions = w.db.executions

/-- A guarded program raises before it does anything. -/
theorem wp_reject {α : Type} (ht : e.status.isTerminal) (f : Unit → Coroutine α)
    (hw : SameExecutions w w') :
    (ofExcept (rejectTerminalExecutionReplay e) >>= f).wp (handler env)
      (fun _ => SameExecutions w) (fun _ => SameExecutions w) w' := by
  obtain ⟨exc, hexc⟩ := rejectTerminalExecutionReplay_of_isTerminal ht
  rw [hexc]
  exact wp_of_raise hw

/-- `start_execution` raises on what it has read. -/
theorem wp_startExecution_terminal (h : w.db.executions.get x = some e) (ht : e.status.isTerminal) :
    ((startExecution cfg x).flatten cfg).wp (handler env) (fun _ => SameExecutions w)
      (fun _ => SameExecutions w) w := by
  obtain ⟨exc, hexc⟩ := rejectTerminalExecutionReplay_of_isTerminal ht
  rw [startExecution, EngineRun.flatten_bind, EngineRun.flatten_lift, wp_getExecution, h]
  show wp _ _ _ (EngineRun.flatten cfg (ofExcept _ >>= _)) w
  rw [hexc]
  exact wp_of_raise rfl

/-- A command that does not reach the engine's pause leaves the table as it is. -/
theorem wp_terminal (h : w.db.executions.get x = some e) (ht : e.status.isTerminal)
    {c : LifecycleCommand} (hc : c.reachesEnginePause e = false) :
    (c.program cfg x).wp (handler env) (fun _ => SameExecutions w) (fun _ => SameExecutions w)
      w := by
  cases c with
  | queueStart =>
    show (queueStart x).wp _ _ _ w
    rw [queueStart, wp_getExecution, h]
    exact wp_reject ht _ rfl
  | resume =>
    show (resume x).wp _ _ _ w
    rw [resume, wp_getExecution, h]
    exact wp_reject ht _ rfl
  | startExecution => exact wp_startExecution_terminal h ht
  | pauseExecution => cases hc
  | resumeExecution =>
    show (resumeExecution x).wp _ _ _ w
    rw [resumeExecution, wp_bind]
    apply wp_requireExecutionAndState h
    intro st w' _ hw'
    exact wp_reject ht _ hw'.executions
  | cancelExecution =>
    show (cancelExecution x).wp _ _ _ w
    rw [cancelExecution, wp_bind]
    apply wp_requireExecutionAndState h
    intro st w' _ hw'
    -- a cancelled execution is marked in the engine's state only
    rcases status_of_isTerminal ht with hs | hs | hs
    · simp only [hs]
      exact wp_of_done hw'.executions
    · simp only [hs]
      exact wp_of_done hw'.executions
    · simp only [hs]
      rw [wp_process]
      exact wp_of_done hw'.executions
  | cancel =>
    show (cancel x).wp _ _ _ w
    rw [cancel, wp_getExecution, h]
    show wp _ _ _ (if e.status.isTerminal || e.status = .cancelling then _ else _) w
    rw [if_pos (by simp [ht])]
    exact wp_of_done rfl
  | pause =>
    show (pause x).wp _ _ _ w
    rw [pause, wp_getExecution, h]
    have hs : e.status ≠ .sleeping := by
      intro hs
      simp [hs, isTerminal] at ht
    simp only [if_neg hs]
    rw [wp_bind]
    apply wp_resolveAdapterForExecution h
    · intro hn
      simp [LifecycleCommand.reachesEnginePause, hn] at hc
    · intro _ exc
      exact rfl

/-- The engine's `pause_execution` moves a terminal execution to `PAUSED`. -/
theorem wp_pauseExecution_terminal (h : w.db.executions.get x = some e) (ht : e.status.isTerminal) :
    (pauseExecution x).wp (handler env)
      (fun _ w' => w'.db.executions.get x = some { e with status := .paused })
      (fun _ _ => False) w := by
  rw [pauseExecution, wp_bind]
  apply wp_requireExecutionAndState h
  intro st w' hst hw'
  show wp _ _ _ (process _ >>= fun _ => updateExecution _ >>= fun _ => emit st _ >>= _) w'
  rw [wp_process, wp_updateExecution, wp_bind]
  have hx : e.id = x := Table.key_of_get h
  have hpaused : (if e.status.isDurableWait then e.status else .paused) = paused :=
    if_neg (by simp [not_isDurableWait_of_isTerminal ht])
  rw [hpaused]
  have hrow : (w'.db.executions.save { e with status := .paused }).get x =
      some { e with status := .paused } := by
    rw [Table.get_save, if_pos hx.symm]
  apply wp_emit
  · intro event w'' hw''
    apply wp_of_done
    rw [hw''.executions]
    exact hrow
  · intro hnone
    rw [hst] at hnone
    simp [hrow] at hnone

theorem wp_reachesEnginePause (h : w.db.executions.get x = some e) (ht : e.status.isTerminal)
    {c : LifecycleCommand} (hc : c.reachesEnginePause e) :
    (c.program cfg x).wp (handler env)
      (fun _ w' => w'.db.executions.get x = some { e with status := .paused })
      (fun _ _ => False) w := by
  cases c with
  | pauseExecution => exact wp_pauseExecution_terminal h ht
  | pause =>
    have hs : e.status ≠ .sleeping := by
      intro hs
      simp [hs, isTerminal] at ht
    show (pause x).wp _ _ _ w
    rw [pause, wp_getExecution, h]
    simp only [if_neg hs]
    rw [wp_bind]
    apply wp_resolveAdapterForExecution h
    · intro _
      exact wp_pauseExecution_terminal h ht
    · intro hn
      simp [LifecycleCommand.reachesEnginePause, hn] at hc
  | queueStart | resume | cancel | startExecution | resumeExecution | cancelExecution => cases hc

/-! ### Sequences of commands -/

/-- **Terminal records are immutable exactly without a pause.**  A terminal
execution keeps its audit record through a sequence of commands if and only if
none of them reaches the engine's `pause_execution`. -/
theorem keepAuditRecord_iff (h : w.db.executions.get x = some e) (ht : e.status.isTerminal)
    (cs : List LifecycleCommand) :
    KeepAuditRecord cfg env x cs w ↔ ∀ c ∈ cs, c.reachesEnginePause e = false := by
  induction cs generalizing w with
  | nil => simp [KeepAuditRecord]
  | cons c cs ih =>
    rw [KeepAuditRecord, List.forall_mem_cons]
    rcases hc : c.reachesEnginePause e with - | -
    · have hsame : SameExecutions w ((c.program cfg x).run (handler env) w).2 :=
        Program.wp_state.mp (wp_terminal h ht hc)
      have hkeeps : KeepsAuditRecord cfg env x c w := .inr (by rw [hsame])
      rw [ih (by rw [hsame]; exact h)]
      simp [hkeeps]
    · have hbreaks : ¬ KeepsAuditRecord cfg env x c w := by
        have hpause : (c.program cfg x).wp (handler env) _ _ w := wp_reachesEnginePause h ht hc
        obtain ⟨hok, herror⟩ := (wp_iff_run _ _).mp hpause
        rintro (⟨exc, hexc⟩ | hsame)
        · exact herror exc _ (Prod.ext hexc rfl)
        · rcases hr : (c.program cfg x).run (handler env) w with ⟨exc | a, w'⟩
          · exact herror exc w' hr
          · rw [hr, hok a w' hr, h] at hsame
            have hs : paused = e.status := congrArg AuditRecord.status (Option.some.inj hsame)
            simp [← hs, isTerminal] at ht
      simp [hbreaks]

/-! ### A terminal execution that is replayed -/

namespace ReplayedRecord

def completed : Execution := { id := 1, workflowId := "w", status := .completed }

def world : World := { db := { executions := Table.empty.save completed } }

end ReplayedRecord

open ReplayedRecord in
theorem keepAuditRecord_iff_completed :
    KeepAuditRecord .bare .silent 1 [.resume, .cancel, .startExecution, .cancelExecution] world :=
  (keepAuditRecord_iff (e := completed) rfl rfl _).mpr (by decide)

open ReplayedRecord in
/-- A completed execution is paused by the engine, and the next resume queues it for
another run. -/
theorem terminal_record_replayed :
    ¬ (∀ (cfg : EngineConfig) (env : Environment) (x : Uuid) (w : World) (e : Execution),
        w.db.executions.get x = some e → e.status.isTerminal → ∀ cs : List LifecycleCommand,
          KeepAuditRecord cfg env x cs w) ∧
      (([.pauseExecution, .resume].foldl (fun w (c : LifecycleCommand) =>
        ((c.program .bare 1).run (handler .silent) w).2) world).db.executions.get 1).map
          Execution.status = some .queued := by
  refine ⟨fun h => ?_, by decide +kernel⟩
  obtain ⟨⟨exc, hexc⟩ | hsame, -⟩ :=
    h .bare .silent 1 world completed rfl rfl [.pauseExecution, .resume]
  · cases hexc
  · have hstatus : paused = .completed := congrArg AuditRecord.status (Option.some.inj hsame)
    cases hstatus

end OpenAgency
