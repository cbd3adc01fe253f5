/-
ExecutionLock.lean

The execution lock.  `acquire_lock`, `heartbeat` and `release_lock` each read the
row, check who owns it and overwrite it in a second statement, so another
worker's write can fall in between and the check is then about a row that is no
longer there.

`Tenure` is what the history of the calls says of one worker.  The invariant
`Recorded` says that the row names every worker that holds the lock with a fresh
heartbeat; it is kept by every write whose check would still pass on the row it
overwrites, and only by those.
-/
import OpenAgency.Lib.Pool
import OpenAgency.Store

namespace OpenAgency

open Interaction Relational Program Pool DbOp

namespace ExecutionLock

/-! ### Calls -/

/-- The calls a worker makes on the lock of one execution. -/
inductive LockCall where
  | acquire (worker : String) (staleAfterSeconds : ℕ)
  | heartbeat (worker : String)
  | release (worker : String)

def LockCall.worker : LockCall → String
  | acquire w _ | heartbeat w | release w => w

inductive LockAnswer where
  | acquired (ok : Bool)
  | beating (e : Option Execution)
  | released (ok : Bool)

/-- The coroutine of one call. -/
def call (x : Uuid) : LockCall → Coroutine LockAnswer
  | .acquire w stale => acquireLock x w stale >>= fun ok => return .acquired ok
  | .heartbeat w => heartbeat x w >>= fun e => return .beating e
  | .release w => releaseLock x w >>= fun ok => return .released ok

/-- Workers calling on the lock of one execution, interleaved. -/
abbrev Workers := Pool RuntimeSig LockCall World RuntimeException LockAnswer

/-! ### Tenure -/

/-- What the history says of one worker: it has been told it acquired the lock
and has not released it since, and when it last wrote a heartbeat. -/
structure Tenure where
  held : Bool := false
  lastBeat : Option Time := none
  deriving DecidableEq

/-- `acquire_lock` answers `True`, and `release_lock` too, with their write. -/
def Tenure.after (w : String) (h : Tenure) : LockCall × Event RuntimeSig → Tenure
  | (.acquire w' _, ⟨.db (.updateExecution e), _⟩) =>
    if w' = w then { held := true, lastBeat := e.lastHeartbeatAt } else h
  | (.heartbeat w', ⟨.db (.updateExecution e), _⟩) =>
    if w' = w then { h with lastBeat := e.lastHeartbeatAt } else h
  | (.release w', ⟨.db (.updateExecution _), _⟩) =>
    if w' = w then { h with held := false } else h
  | _ => h

/-- The tenure of a worker after a history of operations. -/
def tenure (w : String) (trace : List (LockCall × Event RuntimeSig)) : Tenure :=
  trace.foldl (Tenure.after w) {}

theorem tenure_append (w : String) (trace : List (LockCall × Event RuntimeSig))
    (a : LockCall × Event RuntimeSig) :
    tenure w (trace ++ [a]) = (tenure w trace).after w a := List.foldl_concat ..

/-- The worker holds the lock, and at `now` its last heartbeat is not older than
`staleAfterSeconds`. -/
def Tenure.Fresh (staleAfterSeconds : ℕ) (now : Time) (h : Tenure) : Prop :=
  h.held = true ∧ ∃ t, h.lastBeat = some t ∧ now ≤ t + seconds staleAfterSeconds

/-- No instant since the last reading of the clock finds two distinct workers
that hold the lock with a fresh heartbeat. -/
def Exclusive (env : Environment) (staleAfterSeconds : ℕ) (q : Workers) : Prop :=
  ∀ w₁ w₂ now, (∀ i < q.shared.clockReads, env.clock i ≤ now) →
    (tenure w₁ q.trace).Fresh staleAfterSeconds now →
    (tenure w₂ q.trace).Fresh staleAfterSeconds now → w₁ = w₂

/-! ### The check made again -/

/-- The check a call made before it writes `e`, on the row it overwrites. -/
def LockCall.admits (staleAfterSeconds : ℕ) : LockCall → Execution → Execution → Bool
  | acquire w _, row, e =>
    ownedByOrFree row w || isStale row staleAfterSeconds (e.lastHeartbeatAt.getD 0)
  | heartbeat w, row, _ => ownedByOrFree row w
  | release w, row, _ => row.workerId = some w

/-- A write passes if its call's check does. -/
def rechecked (x : Uuid) (staleAfterSeconds : ℕ) (l : LockCall) :
    List (Event RuntimeSig) → RuntimeOp → World → Bool
  | _, .db (.updateExecution e), s =>
    match s.db.executions.get x with
    | some row => l.admits staleAfterSeconds row e
    | none => true
  | _, _, _ => true

/-! ### What one call writes -/

variable {env : Environment} {x : Uuid} {stale : ℕ}

/-- What a call that is about to overwrite the row writes. -/
def LockCall.Writes (env : Environment) (x : Uuid) (s : World) (e : Execution) :
    LockCall → Prop
  | acquire w _ | heartbeat w => e.id = x ∧ e.workerId = some w ∧
      ∃ i < s.clockReads, e.lastHeartbeatAt = some (env.clock i)
  | release _ => e.id = x ∧ e.workerId = none

/-- A call has written. -/
def wrote (past : List (Event RuntimeSig)) : Bool :=
  past.any fun a => match a.op with
    | .db (.updateExecution _) => true
    | _ => false

/-- Workers promise each other only that the clock has been read no less often;
`acquire_lock` and `release_lock` answer `True` exactly when they have
written. -/
def contract (env : Environment) (x : Uuid) (stale : ℕ) :
    Pool.Contract RuntimeSig LockCall World RuntimeException LockAnswer (handler env) where
  inv _ := True
  rely s s' := s.clockReads ≤ s'.clockReads
  cond l past o s := rechecked x stale l past o s
  guar l _ o s := ∀ e, o = .db (.updateExecution e) → l.Writes env x s e
  post _ past r _ := ∀ ok, r = .ok (.acquired ok) ∨ r = .ok (.released ok) → ok = wrote past
  rely_refl _ := le_refl _
  rely_trans := le_trans
  inv_step _ _ _ := trivial
  rely_step := by
    intro l past o s _ _ _
    cases o with
    | utcNow => exact Nat.le_succ _
    | db | proc | ext | uuid4 => exact le_refl _

theorem safe_acquire (w : String) (staleAfter : ℕ) (s : World) :
    Pool.Safe (contract env x stale) (.acquire w staleAfter) [] (call x (.acquire w staleAfter))
      s := by
  simp only [call, acquireLock, getExecution_bind, call_bind]
  intro s₁ _ _ _
  refine ⟨fun e he => (by cases he), ?_⟩
  rcases hrow : s₁.db.executions.get x with - | row
  · simp only [handler_db, exec, hrow]
    intro s₂ _ _ ok hok
    simpa [wrote] using hok
  · have hid : row.id = x := Table.key_of_get hrow
    simp only [handler_db, exec, hrow, utcNow_bind, call_bind]
    intro s₂ _ _ _
    refine ⟨fun e he => (by cases he), ?_⟩
    rw [handler_utcNow]
    by_cases hcheck : (!ownedByOrFree row w && !isStale row staleAfter (env.clock s₂.clockReads))
    · simp only [hcheck, if_true]
      intro s₃ _ _ ok hok
      simpa [wrote] using hok
    · simp only [hcheck]
      intro s₃ hread _ _
      refine ⟨fun e he => ?_, fun s₄ _ _ ok hok => by simpa [wrote] using hok⟩
      cases he
      exact ⟨hid, rfl, s₂.clockReads, hread, rfl⟩

theorem safe_heartbeat (w : String) (s : World) :
    Pool.Safe (contract env x stale) (.heartbeat w) [] (call x (.heartbeat w)) s := by
  simp only [call, heartbeat, getExecution_bind, call_bind]
  intro s₁ _ _ _
  refine ⟨fun e he => (by cases he), ?_⟩
  rcases hrow : s₁.db.executions.get x with - | row
  · simp only [handler_db, exec, hrow]
    intro s₂ _ _ ok hok
    rcases hok with hok | hok <;> cases hok
  · have hid : row.id = x := Table.key_of_get hrow
    simp only [handler_db, exec, hrow]
    by_cases hcheck : (!ownedByOrFree row w)
    · simp only [hcheck, if_true]
      intro s₂ _ _ ok hok
      rcases hok with hok | hok <;> cases hok
    · simp only [hcheck, utcNow_bind]
      intro s₂ _ _ _
      refine ⟨fun e he => (by cases he), ?_⟩
      intro s₃ hread _ _
      refine ⟨fun e he => ?_, fun s₄ _ _ ok hok => ?_⟩
      · cases he
        exact ⟨hid, rfl, s₂.clockReads, hread, rfl⟩
      · rcases hok with hok | hok <;> cases hok

theorem safe_release (w : String) (s : World) :
    Pool.Safe (contract env x stale) (.release w) [] (call x (.release w)) s := by
  simp only [call, releaseLock, getExecution_bind, call_bind]
  intro s₁ _ _ _
  refine ⟨fun e he => (by cases he), ?_⟩
  rcases hrow : s₁.db.executions.get x with - | row
  · simp only [handler_db, exec, hrow]
    intro s₂ _ _ ok hok
    simpa [wrote] using hok
  · have hid : row.id = x := Table.key_of_get hrow
    simp only [handler_db, exec, hrow]
    by_cases hcheck : row.workerId ≠ some w
    · rw [if_pos hcheck]
      intro s₂ _ _ ok hok
      simpa [wrote] using hok
    · rw [if_neg hcheck]
      intro s₂ _ _ _
      refine ⟨fun e he => ?_, fun s₃ _ _ ok hok => by simpa [wrote] using hok⟩
      cases he
      exact ⟨hid, rfl⟩

theorem safe_call (l : LockCall) (s : World) :
    Pool.Safe (contract env x stale) l [] (call x l) s := by
  cases l with
  | acquire w staleAfter => exact safe_acquire w staleAfter s
  | heartbeat w => exact safe_heartbeat w s
  | release w => exact safe_release w s

/-! ### The row names the holder -/

/-- At every instant since the last reading of the clock, the row names every
worker that holds the lock with a fresh heartbeat, and that heartbeat. -/
def Recorded (env : Environment) (x : Uuid) (stale : ℕ) (q : Workers) : Prop :=
  ∀ w now, (∀ i < q.shared.clockReads, env.clock i ≤ now) → (tenure w q.trace).Fresh stale now →
    ∃ row, q.shared.db.executions.get x = some row ∧ row.workerId = some w ∧
      row.lastHeartbeatAt = (tenure w q.trace).lastBeat

theorem Recorded.exclusive {q : Workers} (h : Recorded env x stale q) : Exclusive env stale q := by
  intro w₁ w₂ now hnow h₁ h₂
  obtain ⟨row₁, hrow₁, hw₁, -⟩ := h w₁ now hnow h₁
  obtain ⟨row₂, hrow₂, hw₂, -⟩ := h w₂ now hnow h₂
  obtain rfl : row₁ = row₂ := Option.some.inj (hrow₁.symm.trans hrow₂)
  exact Option.some.inj (hw₁.symm.trans hw₂)

/-- Only an update changes a tenure. -/
theorem Tenure.after_of_ne {w : String} {h : Tenure} {l : LockCall} {o : RuntimeOp} {r : o.Ret}
    (ho : ∀ e, o ≠ .db (.updateExecution e)) : h.after w (l, ⟨o, r⟩) = h := by
  unfold Tenure.after
  split
  next heq => cases heq; exact absurd rfl (ho _)
  next heq => cases heq; exact absurd rfl (ho _)
  next heq => cases heq; exact absurd rfl (ho _)
  · rfl

section Step

variable {q : Workers} {i : ℕ} {l : LockCall} {past : List (Event RuntimeSig)}

/-- An operation that writes no execution keeps the record. -/
theorem Recorded.read (h : Recorded env x stale q) {o : RuntimeOp} {k : o.Ret → Coroutine LockAnswer}
    (ho : ∀ e, o ≠ .db (.updateExecution e)) :
    Recorded env x stale (afterStep (handler env) q i l past o k) := by
  have hexec : (handler env o q.shared).2.db.executions = q.shared.db.executions := by
    cases o with
    | db o => exact exec_executions (fun e he => ho e (he ▸ rfl)) _
    | proc | ext | utcNow | uuid4 => rfl
  have hclock : q.shared.clockReads ≤ (handler env o q.shared).2.clockReads := by
    cases o with
    | utcNow => exact Nat.le_succ _
    | db | proc | ext | uuid4 => exact le_refl _
  intro w now hnow hfresh
  simp only [afterStep, tenure_append, Tenure.after_of_ne ho] at hnow hfresh ⊢
  obtain ⟨row, hrow, hw, hbeat⟩ := h w now (fun j hj => hnow j (hj.trans_le hclock)) hfresh
  exact ⟨row, (congrArg (·.get x) hexec).trans hrow, hw, hbeat⟩

/-- A write that passes the check of its call finds no other worker that holds
the lock with a fresh heartbeat. -/
theorem Recorded.holder (h : Recorded env x stale q) {e : Execution}
    (hwrites : l.Writes env x q.shared e)
    (hcheck : rechecked x stale l past (.db (.updateExecution e)) q.shared) {w : String}
    {now : Time} (hnow : ∀ j < q.shared.clockReads, env.clock j ≤ now)
    (hfresh : (tenure w q.trace).Fresh stale now) : l.worker = w := by
  obtain ⟨row, hrow, hw, hbeat⟩ := h w now hnow hfresh
  obtain ⟨-, t, ht, hnt⟩ := hfresh
  simp only [rechecked, hrow] at hcheck
  cases l with
  | acquire w' staleAfter =>
    obtain ⟨-, -, j, hj, hej⟩ := hwrites
    have hread := hnow j hj
    rcases Bool.or_eq_true_iff.mp hcheck with hown | hstale
    · simpa [ownedByOrFree, hw, LockCall.worker, eq_comm] using hown
    · -- the clock reading the caller judged by is no later than `now`
      have : t + seconds stale < env.clock j := by
        simpa [isStale, hbeat, ht, hej] using hstale
      exact absurd (hnt.trans_lt this) (not_lt.mpr hread)
  | heartbeat w' => simpa [LockCall.admits, ownedByOrFree, hw, LockCall.worker, eq_comm] using hcheck
  | release w' => simpa [LockCall.admits, hw, LockCall.worker, eq_comm] using hcheck

theorem Recorded.write (h : Recorded env x stale q) {e : Execution} {k : Unit → Coroutine LockAnswer}
    (hwrites : l.Writes env x q.shared e)
    (hcheck : rechecked x stale l past (.db (.updateExecution e)) q.shared) :
    Recorded env x stale (afterStep (handler env) q i l past (.db (.updateExecution e)) k) := by
  intro w now hnow hfresh
  have hid : e.id = x := by cases l <;> exact hwrites.1
  have hrow : (q.shared.db.executions.save e).get x = some e := hid ▸ Table.get_save_self _ _
  simp only [afterStep, tenure_append] at hfresh
  by_cases hw : l.worker = w
  · -- the writer: it has just been recorded, or has just released
    refine ⟨e, hrow, ?_⟩
    simp only [afterStep, tenure_append]
    cases l with
    | acquire w' staleAfter =>
      obtain rfl : w' = w := hw
      simp [Tenure.after, hwrites.2.1]
    | heartbeat w' =>
      obtain rfl : w' = w := hw
      simp [Tenure.after, hwrites.2.1]
    | release w' =>
      obtain rfl : w' = w := hw
      simp [Tenure.after, Tenure.Fresh] at hfresh
  · -- another holder: the check would have failed
    have hsame : (tenure w q.trace).after w (l, ⟨.db (.updateExecution e), ()⟩) =
        tenure w q.trace := by
      cases l <;> exact if_neg hw
    rw [show (handler env (.db (.updateExecution e)) q.shared).1 = () from rfl, hsame] at hfresh
    exact absurd (h.holder hwrites hcheck hnow hfresh) hw

end Step

end ExecutionLock

open ExecutionLock

/-! ### Mutual exclusion -/

/-- Runs in which every write passes the check of its call, made again on the row
it overwrites. -/
abbrev RecheckedRuns (env : Environment) (x : Uuid) (stale : ℕ) : Workers → Workers → Prop :=
  Pool.Runs (call x) (handler env) (Pool.Every (contract env x stale).cond)

/-- **Mutual exclusion.**  If every write of `acquire_lock`, `heartbeat` and
`release_lock` finds a row on which the check of its own call still passes, no
two distinct workers ever hold the lock with fresh heartbeats. -/
theorem acquireLock_exclusive (env : Environment) (x : Uuid) (stale : ℕ) (w₀ : World) (q : Workers)
    (h : RecheckedRuns env x stale ⟨w₀, [], []⟩ q) : Exclusive env stale q := by
  have hinit : Recorded env x stale ⟨w₀, [], []⟩ := by
    rintro w now - ⟨hheld, -⟩
    exact absurd hheld (by simp [tenure])
  have hrun := Pool.Runs.invariant_of_safe (C := contract env x stale) (I := Recorded env x stale)
    (fun l s _ => safe_call l s) (fun q l hI => hI) ?_ (allSafe_nil trivial _) hinit h
  · exact hrun.exclusive
  · intro q i l past o k hI _ hi hc hg
    by_cases ho : ∃ e, o = .db (.updateExecution e)
    · obtain ⟨e, rfl⟩ := ho
      exact hI.write (hg e rfl) hc
    · exact hI.read fun e he => ho ⟨e, he⟩

namespace ExecutionLock

/-- A world with one execution, which nobody has locked. -/
def freeWorld : World :=
  { db := { executions := Table.empty.save { id := 0, workflowId := "w" } } }

/-- Worker `a` acquires the lock, `b` is refused, `a` releases it and `b` acquires
it, then beats. -/
def handover : List (Act LockCall) :=
  [.start (.acquire "a" 30), .step 0, .step 0, .step 0,
    .start (.acquire "b" 30), .step 1, .step 1,
    .start (.release "a"), .step 2, .step 2,
    .start (.acquire "b" 30), .step 3, .step 3, .step 3,
    .start (.heartbeat "b"), .step 4, .step 4, .step 4]

/-- Workers `a` and `b` both read the row before either overwrites it. -/
def race : List (Act LockCall) :=
  [.start (.acquire "a" 30), .start (.acquire "b" 30), .step 0, .step 1, .step 0, .step 1,
    .step 0, .step 1]

end ExecutionLock

theorem acquireLock_exclusive_handover :
    let env := Environment.counting ExtOp.silent
    (nextsIf (call 0) (handler env) (rechecked 0 30) ⟨freeWorld, [], []⟩ handover).isSome ∧
      ∀ q, nextsIf (call 0) (handler env) (rechecked 0 30) ⟨freeWorld, [], []⟩ handover =
        some q → Exclusive env 30 q :=
  ⟨by decide, fun q hq => acquireLock_exclusive _ 0 30 freeWorld q (runs_of_nextsIf hq)⟩

/-- Two workers are both told that they acquired a free lock. -/
theorem acquireLock_not_exclusive :
    let env := Environment.counting ExtOp.silent
    ∃ q, nexts (call 0) (handler env) ⟨freeWorld, [], []⟩ race = some q ∧ ¬Exclusive env 30 q := by
  refine ⟨_, rfl, fun h => ?_⟩
  have hab : "a" = "b" := h "a" "b" 1 ?_ ⟨rfl, 0, rfl, by decide⟩ ⟨rfl, 1, rfl, by decide⟩
  · exact absurd hab (by decide)
  · intro i hi
    exact Nat.le_of_lt_succ hi

end OpenAgency
