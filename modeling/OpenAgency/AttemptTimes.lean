/-
AttemptTimes.lean

How long the attempts at a task take.

`_execute_task_with_runtime_overrides` is a loop around three things: an attempt, the
approval of one more attempt, and an event.  `attemptLoop` is that loop over a signature of
its own.  Read with what these are for the engine it is the engine's coroutine
(`executeTaskWithRuntimeOverrides_eq_interp`); read with a `Course`, which says how long each
attempt would take and how it would end, it is a run with a clock.

`asyncio.wait_for` cuts every attempt at the same timeout, so a task keeps to what is left
of the workflow's runtime just if the attempts that are made fit into it.
-/
import Mathlib.Algebra.Order.BigOperators.Group.Finset
import OpenAgency.Engine

namespace OpenAgency

open Interaction Program

/-! ### The loop -/

/-- What the loop does, except for deciding. -/
inductive AttemptOp where
  | attempt (timeout : Option Time)
  /-- `_maybe_request_task_approval` after a failure. -/
  | approval (reason : String)
  /-- The event `AGENT_STEP_FAILED`. -/
  | stepFailed

namespace AttemptOp

abbrev Value : AttemptOp → Type
  | attempt _ => Json
  | approval _ => Unit
  | stepFailed => Unit

/-- Everything can fail. -/
abbrev Ret (o : AttemptOp) : Type := Except RuntimeException o.Value

end AttemptOp

abbrev AttemptSig : Signature := ⟨AttemptOp, AttemptOp.Ret⟩

/-- Do something, and raise what it raises. -/
def attemptStep (o : AttemptOp) : Program AttemptSig RuntimeException o.Value :=
  Program.perform (S := AttemptSig) o >>= Program.ofExcept

/-- `_execute_task_with_runtime_overrides` from attempt `attempt` on. -/
def attemptLoop (o : TaskOverrides) (workflowTimeout : Option Time) :
    ℕ → ℕ → Bool → Program AttemptSig RuntimeException Json
  | remaining, attempt, approvalUsed => do
    let timeout := effectiveTimeout (o.timeoutSeconds.map seconds) workflowTimeout
    match ← Program.perform (S := AttemptSig) (.attempt timeout.1) with
    | .ok output => return output
    | .error exc =>
      if exc.cls.isExecutionPaused || exc.cls = .executionCancelled then Program.throw exc
      let workflowTimedOut := exc.cls = .timeoutError && timeout.2
      let hasRetry := decide (attempt < o.maxRetries + 1) && !workflowTimedOut
      let asks := !hasRetry && !workflowTimedOut && o.approvalPolicy = .onFailure &&
        !approvalUsed
      if asks then
        attemptStep (.approval s!"Task failed with {exc.cls.name}: {exc.message}")
      attemptStep .stepFailed
      match remaining with
      | 0 => Program.throw (attemptError workflowTimedOut exc)
      | remaining + 1 =>
        if hasRetry || asks then
          attemptLoop o workflowTimeout remaining (attempt + 1) (approvalUsed || asks)
        else Program.throw (attemptError workflowTimedOut exc)

/-! ### What it is for the engine -/

/-- What the engine does for each operation. -/
def AttemptOp.program (ctx : TaskContext) : (o : AttemptOp) → EngineRun o.Ret
  | .attempt timeout => (attemptTask ctx timeout).attempt
  | .approval reason => (requestTaskApproval ctx (some reason)).attempt
  | .stepFailed => Program.attempt (do
      let _ ← ctx.emit .agentStepFailed
      return ())

section Engine

variable {S : Signature} {ε α β : Type}

theorem attempt_bind_ofExcept (p : Program S ε α) (f : α → Program S ε β) :
    (p.attempt >>= fun r => Program.ofExcept r >>= f) = p >>= f := by
  induction p with
  | done a => rfl
  | raise e => rfl
  | call o k ih => exact congrArg (Program.call o) (funext ih)

variable (ctx : TaskContext)

theorem interp_attemptStep_bind (o : AttemptOp)
    (f : o.Value → Program AttemptSig RuntimeException α) :
    (attemptStep o >>= f).interp (AttemptOp.program ctx) =
      AttemptOp.program ctx o >>= fun r =>
        Program.ofExcept r >>= fun a => (f a).interp (AttemptOp.program ctx) := by
  rw [attemptStep, Program.bind_assoc, interp_bind]
  show (AttemptOp.program ctx o >>= Program.done) >>= _ = _
  rw [bind_done]
  congr 1
  funext r
  rcases r with e | a <;> rfl

theorem interp_approval_bind (reason : String) (f : Unit → Program AttemptSig RuntimeException α) :
    (attemptStep (.approval reason) >>= f).interp (AttemptOp.program ctx) =
      requestTaskApproval ctx (some reason) >>= fun a => (f a).interp (AttemptOp.program ctx) := by
  rw [interp_attemptStep_bind]
  exact attempt_bind_ofExcept _ _

theorem interp_stepFailed_bind (f : Unit → Program AttemptSig RuntimeException α) :
    (attemptStep .stepFailed >>= f).interp (AttemptOp.program ctx) =
      (liftM (ctx.emit .agentStepFailed) : EngineRun ExecutionEvent) >>= fun _ =>
        (f ()).interp (AttemptOp.program ctx) := by
  rw [interp_attemptStep_bind]
  refine (attempt_bind_ofExcept _ _).trans ?_
  rw [Program.bind_assoc]
  rfl

/-- What follows a failure that is not passed on at once. -/
theorem interp_failed (asks : Bool) (reason : String) {f : Program AttemptSig RuntimeException α}
    {g : EngineRun α} (h : f.interp (AttemptOp.program ctx) = g) :
    (if asks then attemptStep (.approval reason) >>= fun _ => attemptStep .stepFailed >>= fun _ => f
        else attemptStep .stepFailed >>= fun _ => f).interp (AttemptOp.program ctx) =
      (if asks then requestTaskApproval ctx (some reason) >>= fun _ =>
          (liftM (ctx.emit .agentStepFailed) : EngineRun ExecutionEvent) >>= fun _ => g
        else (liftM (ctx.emit .agentStepFailed) : EngineRun ExecutionEvent) >>= fun _ => g) := by
  subst h
  cases asks with
  | false => exact interp_stepFailed_bind ctx _
  | true =>
    refine (interp_approval_bind ctx reason _).trans ?_
    exact congrArg (requestTaskApproval ctx _ >>= ·) (funext fun _ => interp_stepFailed_bind ctx _)

end Engine

/-- **The engine runs this loop.** -/
theorem executeTaskWithRuntimeOverrides_eq_interp (ctx : TaskContext) (o : TaskOverrides)
    (workflowTimeout : Option Time) (remaining attempt : ℕ) (approvalUsed : Bool) :
    executeTaskWithRuntimeOverrides ctx o workflowTimeout remaining attempt approvalUsed =
      (attemptLoop o workflowTimeout remaining attempt approvalUsed).interp
        (AttemptOp.program ctx) := by
  induction remaining generalizing attempt approvalUsed with
  | zero =>
    unfold executeTaskWithRuntimeOverrides attemptLoop
    rw [Program.perform_bind, interp_call]
    refine congrArg ((attemptTask ctx _).attempt >>= ·) (funext fun result => ?_)
    rcases result with exc | output
    · dsimp only
      split
      · rfl
      · refine (interp_failed ctx _ _ ?_).symm
        rfl
    · rfl
  | succ remaining ih =>
    unfold executeTaskWithRuntimeOverrides attemptLoop
    rw [Program.perform_bind, interp_call]
    refine congrArg ((attemptTask ctx _).attempt >>= ·) (funext fun result => ?_)
    rcases result with exc | output
    · dsimp only
      split
      · rfl
      · refine (interp_failed ctx _ _ ?_).symm
        rw [apply_ite (Program.interp _), ih]
        rfl
    · rfl

/-! ### A run with a clock -/

/-- What an attempt would do if nothing cut it. -/
structure TaskAttempt where
  duration : Time
  result : Except RuntimeException Json

namespace TaskAttempt

/-- `asyncio.wait_for`: an attempt that takes longer than its timeout is cut. -/
def outcome (a : TaskAttempt) (timeout : Option Time) : Except RuntimeException Json :=
  if timeout.any (· < a.duration) then .error ⟨.timeoutError, ""⟩ else a.result

/-- How long the attempt takes then. -/
def time (a : TaskAttempt) (timeout : Option Time) : Time :=
  timeout.elim a.duration (min a.duration)

end TaskAttempt

/-- What happens while a task is executed: its attempts, the events that report that they
have failed, and the answer to the request for one more attempt. -/
structure Course where
  attempt : ℕ → TaskAttempt
  stepFailed : ℕ → Except RuntimeException Unit := fun _ => .ok ()
  approval : Except RuntimeException Unit := .ok ()

/-- The attempts made so far and the time they have taken. -/
structure Spent where
  attempts : ℕ := 0
  total : Time := 0
  deriving DecidableEq

namespace TaskOverrides

variable (o : TaskOverrides) (cap : Time)

/-- The timeout of every attempt, where the workflow's runtime has a cap. -/
def attemptTimeout : Time := ((o.timeoutSeconds.map seconds).elim cap (min · cap))

/-- The timeout of an attempt is what is left of the workflow's runtime. -/
def workflowTimeoutSelected : Bool := (effectiveTimeout (o.timeoutSeconds.map seconds) (some cap)).2

/-- The attempts the settings allow. -/
def mostAttempts : ℕ := o.maxRetries + 1 + if o.approvalPolicy = .onFailure then 1 else 0

/-- An error that another attempt may follow: nothing has stopped the execution, and the
workflow has time left. -/
def Retryable (exc : RuntimeException) : Prop :=
  exc.cls.isExecutionPaused = false ∧ exc.cls ≠ .executionCancelled ∧
    ¬ (exc.cls = .timeoutError ∧ o.workflowTimeoutSelected cap = true)

theorem effectiveTimeout_eq :
    effectiveTimeout (o.timeoutSeconds.map seconds) (some cap) =
      (some (o.attemptTimeout cap), o.workflowTimeoutSelected cap) := by
  rw [attemptTimeout, workflowTimeoutSelected]
  rcases o.timeoutSeconds.map seconds with - | t <;> rfl

theorem mostAttempts_le : o.mostAttempts ≤ o.maxRetries + 2 := by
  rw [mostAttempts]
  split <;> omega

theorem attemptTimeout_le : o.attemptTimeout cap ≤ cap := by
  rw [attemptTimeout]
  rcases o.timeoutSeconds.map seconds with - | t
  · exact le_rfl
  · exact min_le_right _ _

end TaskOverrides

namespace Course

variable (c : Course) (o : TaskOverrides) (cap : Time)

def handler : Handler AttemptSig Spent
  | .attempt timeout, s =>
    ((c.attempt s.attempts).outcome timeout,
      ⟨s.attempts + 1, s.total + (c.attempt s.attempts).time timeout⟩)
  | .approval _, s => (c.approval, s)
  | .stepFailed, s => (c.stepFailed s.attempts, s)

/-- How the `n`-th attempt ends. -/
def outcome (n : ℕ) : Except RuntimeException Json :=
  (c.attempt n).outcome (some (o.attemptTimeout cap))

/-- How long it takes. -/
def time (n : ℕ) : Time := (c.attempt n).time (some (o.attemptTimeout cap))

/-- How long the attempts before it take. -/
def timeBefore (n : ℕ) : Time := ∑ i ∈ Finset.range n, c.time o cap i

/-- The task is executed, with `more` turns of the loop than the settings allow attempts. -/
def run (more : ℕ) : Spent :=
  ((attemptLoop o (some cap) (o.maxRetries + 1 + more) 1 false).run c.handler {}).2

/-- The `n`-th attempt fails, and another one follows. -/
structure IsRetried (n : ℕ) : Prop where
  fails : ∃ exc, c.outcome o cap n = .error exc ∧ o.Retryable cap exc
  allowed : n < o.maxRetries ∨
    n = o.maxRetries ∧ o.approvalPolicy = .onFailure ∧ c.approval = .ok ()
  reported : c.stepFailed (n + 1) = .ok ()

variable {c o cap}

theorem time_le (n : ℕ) : c.time o cap n ≤ o.attemptTimeout cap := min_le_right _ _

/-! ### One attempt -/

theorem IsRetried.lt_mostAttempts {n : ℕ} (h : c.IsRetried o cap n) : n + 1 < o.mostAttempts := by
  rw [TaskOverrides.mostAttempts]
  rcases h.allowed with hlt | ⟨rfl, hpolicy, -⟩
  · omega
  · rw [if_pos hpolicy]
    omega

section Step

variable {op : AttemptOp} {f : op.Value → Program AttemptSig RuntimeException Json} {s : Spent}

theorem run_attemptStep_ok {a : op.Value} (h : c.handler op s = (.ok a, s)) :
    (attemptStep op >>= f).run c.handler s = (f a).run c.handler s := by
  show ((Program.ofExcept (c.handler op s).1 >>= f).run c.handler (c.handler op s).2) = _
  rw [h]
  rfl

theorem run_attemptStep_error {exc : RuntimeException} (h : c.handler op s = (.error exc, s)) :
    (attemptStep op >>= f).run c.handler s = (.error exc, s) := by
  show ((Program.ofExcept (c.handler op s).1 >>= f).run c.handler (c.handler op s).2) = _
  rw [h]
  rfl

end Step

variable {r : Except RuntimeException Unit}

theorem handler_approval {reason : String} {s : Spent} (h : c.approval = r) :
    c.handler (.approval reason) s = (r, s) := Prod.ext h rfl

theorem handler_stepFailed {s : Spent} (h : c.stepFailed s.attempts = r) :
    c.handler .stepFailed s = (r, s) := Prod.ext h rfl

variable {total : Time}

theorem handler_attempt {n : ℕ} {r : Except RuntimeException Json} (h : c.outcome o cap n = r) :
    c.handler (.attempt (some (o.attemptTimeout cap))) ⟨n, total⟩ =
      (r, ⟨n + 1, total + c.time o cap n⟩) := Prod.ext h rfl

variable {n remaining : ℕ}

/-- After an attempt that another one follows, the loop goes on with what is left to it. -/
theorem run_retried (h : c.IsRetried o cap n) :
    (attemptLoop o (some cap) (remaining + 1) (n + 1) (decide (o.maxRetries < n))).run c.handler
        ⟨n, total⟩ =
      (attemptLoop o (some cap) remaining (n + 2) (decide (o.maxRetries < n + 1))).run c.handler
        ⟨n + 1, total + c.time o cap n⟩ := by
  obtain ⟨⟨exc, houtcome, hpaused, hcancelled, htimeout⟩, hallowed, hreported⟩ := h
  have htimed : (decide (exc.cls = .timeoutError) && o.workflowTimeoutSelected cap) = false := by
    simpa using htimeout
  rw [attemptLoop, Program.perform_bind, run_call, o.effectiveTimeout_eq]
  dsimp only
  rw [handler_attempt houtcome]
  dsimp only
  rw [if_neg (by simp [hpaused, hcancelled])]
  have hreport := handler_stepFailed (s := ⟨n + 1, total + c.time o cap n⟩) hreported
  rcases hallowed with hlt | ⟨rfl, hpolicy, happroval⟩
  · have hbefore : ¬ o.maxRetries < n := by omega
    have hafter : ¬ o.maxRetries < n + 1 := by omega
    simp only [htimed, hlt, hbefore, hafter, Nat.add_lt_add_iff_right]
    exact run_attemptStep_ok hreport
  · simp only [htimed, hpolicy, Nat.lt_irrefl, Nat.lt_add_one]
    exact (run_attemptStep_ok (handler_approval happroval)).trans (run_attemptStep_ok hreport)

/-- Asking and reporting take no time. -/
theorem run_failed_state {asks : Bool} {reason : String}
    {last : Program AttemptSig RuntimeException Json} {s : Spent}
    (hlast : (asks = true → c.approval = .ok ()) → c.stepFailed s.attempts = .ok () →
      (last.run c.handler s).2 = s) :
    ((if asks then attemptStep (.approval reason) >>= fun _ => attemptStep .stepFailed >>= fun _ => last
      else attemptStep .stepFailed >>= fun _ => last).run c.handler s).2 = s := by
  have hreport : (asks = true → c.approval = .ok ()) →
      ((attemptStep .stepFailed >>= fun _ => last).run c.handler s).2 = s := by
    intro happroval
    rcases hreported : c.stepFailed s.attempts with exc | ⟨⟩
    · rw [run_attemptStep_error (handler_stepFailed hreported)]
    · rw [run_attemptStep_ok (handler_stepFailed hreported)]
      exact hlast happroval hreported
  cases asks with
  | false => exact hreport nofun
  | true =>
    rw [if_pos rfl]
    rcases happroval : c.approval with exc | ⟨⟩
    · rw [run_attemptStep_error (handler_approval happroval)]
    · rw [run_attemptStep_ok (handler_approval happroval)]
      exact hreport fun _ => happroval

/-- The loop goes on for a retry, or once after an approval. -/
theorem goesOn_cases {timedOut onFailure asks : Bool} {n retries : ℕ}
    (hasks : asks = (!(decide (n + 1 < retries + 1) && !timedOut) && !timedOut && onFailure &&
      !decide (retries < n)))
    (h : (decide (n + 1 < retries + 1) && !timedOut || asks) = true) :
    timedOut = false ∧ (n < retries ∨ n = retries ∧ onFailure = true ∧ asks = true) := by
  subst hasks
  cases timedOut with
  | true => simp at h
  | false =>
    refine ⟨rfl, ?_⟩
    rcases lt_trichotomy n retries with hlt | rfl | hgt
    · exact .inl hlt
    · exact .inr ⟨rfl, by simpa using h, by simpa using h⟩
    · simp [hgt.not_gt, hgt] at h

/-- Otherwise it ends. -/
theorem run_last (h : ¬ c.IsRetried o cap n) :
    ((attemptLoop o (some cap) remaining (n + 1) (decide (o.maxRetries < n))).run c.handler
      ⟨n, total⟩).2 = ⟨n + 1, total + c.time o cap n⟩ := by
  rw [attemptLoop, Program.perform_bind, run_call, o.effectiveTimeout_eq]
  dsimp only
  rcases houtcome : c.outcome o cap n with exc | output
  · rw [handler_attempt houtcome]
    dsimp only
    split
    · rfl
    next hstop =>
      refine run_failed_state fun happroval hreported => ?_
      rcases remaining with - | remaining
      · rfl
      · dsimp only
        rw [if_neg]
        · rfl
        · intro hgoes
          -- an attempt that the loop goes on after is retried
          obtain ⟨htimed, hallowed⟩ := goesOn_cases rfl hgoes
          simp only [Bool.or_eq_true, decide_eq_true_eq, not_or, Bool.not_eq_true] at hstop
          refine h ⟨⟨exc, houtcome, hstop.1, hstop.2, by simpa using htimed⟩, ?_, hreported⟩
          rcases hallowed with hlt | ⟨hn, hpolicy, hasks⟩
          · exact .inl hlt
          · exact .inr ⟨hn, of_decide_eq_true hpolicy, happroval hasks⟩
  · rw [handler_attempt houtcome]
    rfl

/-! ### The run -/

theorem timeBefore_succ (n : ℕ) :
    c.timeBefore o cap (n + 1) = c.timeBefore o cap n + c.time o cap n := Finset.sum_range_succ _ n

/-- From the `n`-th attempt on the loop makes the attempts that are retried and one more. -/
theorem run_from (henough : o.maxRetries + 1 ≤ n + remaining) :
    ∃ m, n ≤ m ∧ (∀ i, n ≤ i → i < m → c.IsRetried o cap i) ∧ ¬ c.IsRetried o cap m ∧
      ((attemptLoop o (some cap) remaining (n + 1) (decide (o.maxRetries < n))).run c.handler
        ⟨n, c.timeBefore o cap n⟩).2 = ⟨m + 1, c.timeBefore o cap (m + 1)⟩ := by
  -- on what is left to the loop; it never runs out while attempts are retried
  induction remaining generalizing n with
  | zero =>
    have hlast : ¬ c.IsRetried o cap n := by
      intro h
      rcases h.allowed with hlt | ⟨hn, -⟩ <;> omega
    refine ⟨n, le_rfl, fun i hi hlt => absurd hlt hi.not_gt, hlast, ?_⟩
    rw [run_last hlast, timeBefore_succ]
  | succ remaining ih =>
    by_cases hretried : c.IsRetried o cap n
    · obtain ⟨m, hm, hbefore, hlast, hrun⟩ := ih (n := n + 1) (by omega)
      refine ⟨m, by omega, fun i hi hlt => ?_, hlast, ?_⟩
      · rcases hi.eq_or_lt with rfl | hi
        · exact hretried
        · exact hbefore i hi hlt
      · rw [run_retried hretried, ← timeBefore_succ]
        exact hrun
    · refine ⟨n, le_rfl, fun i hi hlt => absurd hlt hi.not_gt, hretried, ?_⟩
      rw [run_last hretried, timeBefore_succ]

theorem exists_run (c : Course) (o : TaskOverrides) (cap : Time) (more : ℕ) :
    ∃ m, (∀ i < m, c.IsRetried o cap i) ∧ ¬ c.IsRetried o cap m ∧
      c.run o cap more = ⟨m + 1, c.timeBefore o cap (m + 1)⟩ := by
  have henough : o.maxRetries + 1 ≤ 0 + (o.maxRetries + 1 + more) := by omega
  obtain ⟨m, -, hbefore, hlast, hrun⟩ : ∃ m, 0 ≤ m ∧ (∀ i, 0 ≤ i → i < m → c.IsRetried o cap i) ∧
      ¬ c.IsRetried o cap m ∧ c.run o cap more = ⟨m + 1, c.timeBefore o cap (m + 1)⟩ :=
    run_from henough
  exact ⟨m, fun i hi => hbefore i (Nat.zero_le i) hi, hlast, hrun⟩

/-- The last attempt is the one that is not retried. -/
theorem le_last {m m' : ℕ} (hlast : ¬ c.IsRetried o cap m)
    (hm' : ∀ i < m', c.IsRetried o cap i) : m' ≤ m := by
  by_contra hlt
  exact hlast (hm' m (not_le.mp hlt))

/-- The settings bound the attempts. -/
theorem attempts_le (c : Course) (o : TaskOverrides) (cap : Time) (more : ℕ) :
    (c.run o cap more).attempts ≤ o.mostAttempts := by
  obtain ⟨m, hbefore, -, hrun⟩ := c.exists_run o cap more
  rw [hrun]
  rcases m with - | m
  · rw [TaskOverrides.mostAttempts]
    dsimp only
    omega
  · exact (hbefore m (Nat.lt_succ_self m)).lt_mostAttempts

theorem timeBefore_le (c : Course) (o : TaskOverrides) (cap : Time) (n : ℕ) :
    c.timeBefore o cap n ≤ n * o.attemptTimeout cap := by
  have hsum := Finset.sum_le_card_nsmul (Finset.range n) (c.time o cap) _ fun i _ => time_le i
  simpa [timeBefore] using hsum

/-- Each attempt that follows another one ends within what the earlier ones have left. -/
def FitsCap (c : Course) (o : TaskOverrides) (cap : Time) : Prop :=
  ∀ n, 0 < n → (∀ i < n, c.IsRetried o cap i) → c.timeBefore o cap n + c.time o cap n ≤ cap

theorem total_le_iff (c : Course) (o : TaskOverrides) (cap : Time) (more : ℕ) :
    (c.run o cap more).total ≤ cap ↔ c.FitsCap o cap := by
  obtain ⟨m, hbefore, hlast, hrun⟩ := c.exists_run o cap more
  rw [hrun]
  dsimp only
  constructor
  · intro hle n _ hn
    have hnm : n ≤ m := le_last hlast hn
    rw [← timeBefore_succ]
    have hmono : c.timeBefore o cap (n + 1) ≤ c.timeBefore o cap (m + 1) :=
      Finset.sum_le_sum_of_subset (Finset.range_subset_range.mpr (by omega))
    exact hmono.trans hle
  · intro hfits
    rw [timeBefore_succ]
    rcases m with - | m
    · have hfirst : c.time o cap 0 ≤ cap := (time_le 0).trans (o.attemptTimeout_le cap)
      simpa [timeBefore] using hfirst
    · exact hfits (m + 1) m.succ_pos hbefore

/-! ### The worst course -/

/-- Every attempt fails just in time. -/
def worst (o : TaskOverrides) (cap : Time) : Course where
  attempt _ := ⟨o.attemptTimeout cap, .error ⟨.runtimeError, ""⟩⟩

theorem worst_outcome (n : ℕ) : (worst o cap).outcome o cap n = .error ⟨.runtimeError, ""⟩ := by
  simp [outcome, worst, TaskAttempt.outcome]

theorem worst_time (n : ℕ) : (worst o cap).time o cap n = o.attemptTimeout cap := min_self _

theorem worst_isRetried_iff (n : ℕ) : (worst o cap).IsRetried o cap n ↔ n + 1 < o.mostAttempts := by
  refine ⟨IsRetried.lt_mostAttempts, fun hn => ⟨⟨_, worst_outcome n, rfl, nofun, nofun⟩, ?_, rfl⟩⟩
  rw [TaskOverrides.mostAttempts] at hn
  split at hn
  next hpolicy =>
    rcases (show n ≤ o.maxRetries by omega).eq_or_lt with hn | hn
    · exact .inr ⟨hn, hpolicy, rfl⟩
    · exact .inl hn
  · exact .inl (by omega)

theorem worst_run (more : ℕ) :
    (worst o cap).run o cap more = ⟨o.mostAttempts, o.mostAttempts * o.attemptTimeout cap⟩ := by
  obtain ⟨m, hbefore, hlast, hrun⟩ := (worst o cap).exists_run o cap more
  have hm : m + 1 = o.mostAttempts := by
    have hlast' := mt (worst_isRetried_iff m).mpr hlast
    rcases m with - | m
    · have hpos : 0 < o.mostAttempts := by
        rw [TaskOverrides.mostAttempts]
        omega
      omega
    · have := (worst_isRetried_iff m).mp (hbefore m m.lt_succ_self)
      omega
  rw [hrun, hm]
  simp [timeBefore, worst_time]

end Course

/-- **What a task takes.**  However its attempts go, at most two more than its retries are
made.  In a course of attempts they fit into what is left of the workflow's runtime just if
each one that follows another ends within what the earlier ones have left; and whatever the
course, just if the attempts that the settings allow fit, each with its full timeout. -/
theorem attemptTimes_bounded_iff (o : TaskOverrides) (cap : Time) :
    (∀ (c : Course) (more : ℕ), (c.run o cap more).attempts ≤ o.maxRetries + 2) ∧
      (∀ (c : Course) (more : ℕ), (c.run o cap more).total ≤ cap ↔ c.FitsCap o cap) ∧
      ((∀ (c : Course) (more : ℕ), (c.run o cap more).total ≤ cap) ↔
        o.mostAttempts * o.attemptTimeout cap ≤ cap) := by
  refine ⟨fun c more => ?_, fun c more => c.total_le_iff o cap more, fun hall => ?_, ?_⟩
  · exact (c.attempts_le o cap more).trans o.mostAttempts_le
  · have hworst := hall (Course.worst o cap) 0
    rwa [Course.worst_run] at hworst
  · intro hmost c more
    obtain ⟨m, -, -, hrun⟩ := c.exists_run o cap more
    have hattempts := c.attempts_le o cap more
    rw [hrun] at hattempts ⊢
    calc c.timeBefore o cap (m + 1) ≤ (m + 1) * o.attemptTimeout cap := c.timeBefore_le o cap _
      _ ≤ o.mostAttempts * o.attemptTimeout cap := Nat.mul_le_mul_right _ hattempts
      _ ≤ cap := hmost

/-! ### Beyond the cap -/

namespace RetriedTask

/-- One retry, and no timeout of the task's own. -/
def settings : TaskOverrides := ⟨none, 1, .none⟩

/-- Every attempt fails after nine seconds. -/
def course : Course where
  attempt _ := ⟨seconds 9, .error ⟨.toolExecution, "unreachable"⟩⟩

end RetriedTask

open RetriedTask in
/-- With ten seconds left, the task takes eighteen. -/
theorem attemptTimes_beyond_cap :
    ¬ ∀ (o : TaskOverrides) (cap : Time) (c : Course),
      (c.run o cap 0).attempts ≤ o.maxRetries + 2 ∧ (c.run o cap 0).total ≤ cap := by
  intro hall
  have hrun : course.run settings (seconds 10) 0 = ⟨2, seconds 18⟩ := by decide +kernel
  have htotal := (hall settings (seconds 10) course).2
  rw [hrun] at htotal
  revert htotal
  decide

end OpenAgency
