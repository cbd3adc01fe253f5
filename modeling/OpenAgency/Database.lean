/-
Database.lean

The tables behind `SQLExecutionStore` and the statements issued against them.
Every statement is one atomic step: a `get` answers a copy of a row, an update
of an execution overwrites its row, and the two conditional updates answer the
number of rows they changed.

The wait table carries its two unique constraints, so a database in which an
execution has two waits in the active slot, or two waits under one idempotency
key, cannot be built: an insertion that would break one is refused.
-/
import OpenAgency.Domain.Execution
import OpenAgency.Lib.Semantics
import OpenAgency.Lib.Table

namespace OpenAgency

open Relational Interaction Table

/-! ### The wait table -/

/-- A row of `execution_waits`: the wait's columns and its active slot. -/
structure ExecutionWaitORM where
  wait : ExecutionWait
  activeSlot : Option String

namespace ExecutionWaitORM

def id (row : ExecutionWaitORM) : Uuid := row.wait.id

/-- `_execution_wait_to_orm`. -/
def ofWait (w : ExecutionWait) : ExecutionWaitORM where
  wait := w
  activeSlot := if w.status = .pending then some "active" else none

/-- `_execution_wait_from_orm`: reading a row validates it. -/
def toWait (row : ExecutionWaitORM) : Except RuntimeException ExecutionWait :=
  row.wait.validateLifecycle

/-- The columns the conditional update sets. -/
def resolve (row : ExecutionWaitORM) (r : ExecutionWait.Resolution) (now : Time) :
    ExecutionWaitORM where
  wait := row.wait.resolve r now
  activeSlot := none

/-- The two rows cannot stand in the table together. -/
def conflicts (row other : ExecutionWaitORM) : Bool :=
  row.wait.executionId = other.wait.executionId &&
    (row.wait.idempotencyKey = other.wait.idempotencyKey ||
      (row.activeSlot ≠ none && row.activeSlot = other.activeSlot))

theorem conflicts_comm (row other : ExecutionWaitORM) :
    row.conflicts other = other.conflicts row := by
  have hslot : (row.activeSlot ≠ none ∧ row.activeSlot = other.activeSlot) ↔
      (other.activeSlot ≠ none ∧ other.activeSlot = row.activeSlot) := by
    constructor <;> rintro ⟨h, e⟩ <;> exact ⟨e ▸ h, e.symm⟩
  rw [Bool.eq_iff_iff]
  simp only [conflicts, Bool.and_eq_true, Bool.or_eq_true, decide_eq_true_eq, hslot]
  rw [eq_comm (b := other.wait.executionId), eq_comm (b := other.wait.idempotencyKey)]

end ExecutionWaitORM

/-- `execution_waits` with its unique constraints: on execution and idempotency
key, and on execution and active slot. -/
structure ExecutionWaitTable where
  rows : Table ExecutionWaitORM.id
  unique : ∀ i j r r', rows.get i = some r → rows.get j = some r' → r.conflicts r' → i = j

namespace ExecutionWaitTable

def empty : ExecutionWaitTable := ⟨Table.empty, fun i j r r' h => by simp at h⟩

def get (t : ExecutionWaitTable) (id : Uuid) : Option ExecutionWaitORM := t.rows.get id

/-- The row's identifier is taken, or it conflicts with a stored row. -/
def rejects (t : ExecutionWaitTable) (row : ExecutionWaitORM) : Bool :=
  (t.get row.id).isSome || !(t.rows.select row.conflicts).isEmpty

variable {t : ExecutionWaitTable}

theorem not_conflicts {row r : ExecutionWaitORM} {i : Uuid} (h : t.rejects row = false)
    (hr : t.get i = some r) : row.conflicts r = false := by
  simp only [rejects, Bool.or_eq_false_iff, Bool.not_eq_false', List.isEmpty_iff] at h
  by_contra hc
  obtain rfl : r.id = i := key_of_get hr
  have : r ∈ t.rows.select row.conflicts := mem_select.mpr ⟨hr, by simpa using hc⟩
  simp [h.2] at this

/-- `INSERT`, refused when a constraint would break. -/
def insert (t : ExecutionWaitTable) (row : ExecutionWaitORM) : Option ExecutionWaitTable :=
  if h : t.rejects row = false then
    some {
      rows := t.rows.save row
      unique := by
        intro i j r r' hi hj hc
        rw [Table.get_save] at hi hj
        split at hi <;> split at hj
        · simp_all
        · cases hi
          simp [not_conflicts h hj] at hc
        · cases hj
          rw [ExecutionWaitORM.conflicts_comm, not_conflicts h hi] at hc
          cases hc
        · exact t.unique i j r r' hi hj hc }
  else none

/-- The table with one row. -/
def singleton (row : ExecutionWaitORM) : ExecutionWaitTable where
  rows := Table.empty.save row
  unique := by
    intro i j r r' hi hj _
    rw [Table.get_save] at hi hj
    split at hi <;> split at hj <;> simp_all

/-- Overwriting a row by one that conflicts with no more rows than it did keeps
the constraints. -/
theorem unique_save {row old : ExecutionWaitORM} (hold : t.get row.id = some old)
    (hle : ∀ other, row.conflicts other → old.conflicts other) (i j : Uuid)
    (r r' : ExecutionWaitORM) (hi : (t.rows.save row).get i = some r)
    (hj : (t.rows.save row).get j = some r') (hc : r.conflicts r') : i = j := by
  rw [Table.get_save] at hi hj
  split at hi <;> split at hj
  · simp_all
  next hi' _ =>
    cases hi
    exact t.unique i j old r' (hi' ▸ hold) hj (hle r' hc)
  next _ hj' =>
    cases hj
    rw [ExecutionWaitORM.conflicts_comm] at hc
    have := hle r hc
    rw [ExecutionWaitORM.conflicts_comm] at this
    exact t.unique i j r old hi (hj' ▸ hold) this
  · exact t.unique i j r r' hi hj hc

/-- The condition of the conditional update. -/
def isPending (row : ExecutionWaitORM) : Bool := row.wait.status = .pending

theorem conflicts_of_resolve {row other : ExecutionWaitORM} {r : ExecutionWait.Resolution}
    {now : Time} (h : (row.resolve r now).conflicts other) : row.conflicts other := by
  simp only [ExecutionWaitORM.conflicts, ExecutionWaitORM.resolve, ExecutionWait.resolve,
    Bool.and_eq_true, Bool.or_eq_true, decide_eq_true_eq] at h ⊢
  obtain ⟨hx, hkey | ⟨hslot, -⟩⟩ := h
  · exact ⟨of_decide_eq_true hx, .inl (of_decide_eq_true hkey)⟩
  · exact absurd rfl (of_decide_eq_true hslot)

/-- `UPDATE … WHERE id = … AND status = 'pending'`, with its row count. -/
def updatePending (t : ExecutionWaitTable) (id : Uuid) (r : ExecutionWait.Resolution)
    (now : Time) : ℕ × ExecutionWaitTable :=
  ((t.rows.updateIf id isPending (·.resolve r now)).1, {
    rows := (t.rows.updateIf id isPending (·.resolve r now)).2
    unique := by
      rcases t.rows.updateIf_cases id isPending (·.resolve r now) with
        ⟨row, hrow, -, e⟩ | ⟨-, e⟩
      · obtain rfl : row.id = id := key_of_get hrow
        rw [e]
        exact unique_save hrow fun _ => conflicts_of_resolve
      · rw [e]
        exact t.unique })

/-- What a conditional update can do: it resolves one pending row, or finds no
pending row and changes nothing. -/
theorem updatePending_cases (t : ExecutionWaitTable) (id : Uuid) (r : ExecutionWait.Resolution)
    (now : Time) :
    (∃ row, t.get id = some row ∧ row.wait.status = .pending ∧ (t.updatePending id r now).1 = 1 ∧
      (t.updatePending id r now).2.get id = some (row.resolve r now) ∧
      ∀ i, i ≠ id → (t.updatePending id r now).2.get i = t.get i) ∨
    ((∀ row, t.get id = some row → row.wait.status ≠ .pending) ∧
      t.updatePending id r now = (0, t)) := by
  rcases t.rows.updateIf_cases id isPending (·.resolve r now) with ⟨row, hrow, hp, e⟩ | ⟨hp, e⟩
  · obtain rfl : row.id = id := key_of_get hrow
    refine .inl ⟨row, hrow, by simpa [isPending] using hp, ?_, ?_, fun i hi => ?_⟩
    · simp only [updatePending, e]
    · simp only [updatePending, get, e]
      exact get_save_self _ _
    · simp only [updatePending, get, e]
      exact get_save_ne hi
  · refine .inr ⟨fun row hrow => by simpa [isPending] using hp row hrow, ?_⟩
    simp only [updatePending, e]

variable {row : ExecutionWaitORM}

variable {t t' : ExecutionWaitTable}

theorem get_insert (h : t.insert row = some t') (i : Uuid) :
    t'.get i = if i = row.id then some row else t.get i := by
  unfold insert at h
  split at h
  · cases h
    exact Table.get_save _ _ _
  · cases h

theorem get_insert_self (h : t.insert row = some t') : t'.get row.id = some row := by
  rw [get_insert h, if_pos rfl]

theorem rejects_of_insert (h : t.insert row = some t') : t.rejects row = false := by
  unfold insert at h
  split at h
  · assumption
  · cases h

theorem insert_eq_none : t.insert row = none ↔ t.rejects row := by
  unfold insert
  split <;> simp_all

/-- At most one row of an execution stands in the active slot. -/
theorem eq_of_activeSlot {i j : Uuid} {r r' : ExecutionWaitORM} (hi : t.get i = some r)
    (hj : t.get j = some r') (he : r.wait.executionId = r'.wait.executionId)
    (hs : r.activeSlot ≠ none) (hs' : r.activeSlot = r'.activeSlot) : i = j :=
  t.unique i j r r' hi hj (by simp [ExecutionWaitORM.conflicts, he, ← hs', hs])

end ExecutionWaitTable

/-! ### The database -/

structure ExecutionArtifact where
  executionId : Uuid
  name : String
  deriving DecidableEq

structure Database where
  executions : Table Execution.id := Table.empty
  waits : ExecutionWaitTable := .empty
  approvalRequests : Table ApprovalRequest.id := Table.empty
  events : List ExecutionEvent := []
  artifacts : List ExecutionArtifact := []

/-- The selections of waits the store issues. -/
inductive WaitQuery where
  | ofExecution (executionId : Uuid) (status : Option ExecutionWaitStatus)
  | due (before : Time) (limit : ℤ)
  | expired (before : Time) (limit : ℤ)
  | pendingByCorrelation (correlationKey : String) (limit : ℤ)

namespace WaitQuery

/-- The `WHERE` clause. -/
def holds : WaitQuery → ExecutionWaitORM → Bool
  | ofExecution x status, row =>
    row.wait.executionId = x && (status = none || some row.wait.status = status)
  | due before _, row =>
    row.wait.status = .pending &&
      (match row.wait.wakeAt with | some t => t ≤ before | none => false)
  | expired before _, row =>
    row.wait.status = .pending &&
      (match row.wait.deadlineAt with | some t => t ≤ before | none => false)
  | pendingByCorrelation key _, row =>
    row.wait.status = .pending && row.wait.correlationKey = some key

/-- The `ORDER BY` clause. -/
def le : WaitQuery → ExecutionWaitORM → ExecutionWaitORM → Bool
  | due _ _, a, b => lexLe [a.wait.wakeAt.getD 0, a.wait.createdAt, a.id]
      [b.wait.wakeAt.getD 0, b.wait.createdAt, b.id]
  | expired _ _, a, b => lexLe [a.wait.deadlineAt.getD 0, a.wait.createdAt, a.id]
      [b.wait.deadlineAt.getD 0, b.wait.createdAt, b.id]
  | _, a, b => lexLe [a.wait.createdAt, a.id] [b.wait.createdAt, b.id]

/-- `LIMIT max(1, limit)`. -/
def limited : WaitQuery → List ExecutionWaitORM → List ExecutionWaitORM
  | ofExecution _ _, rows => rows
  | due _ n, rows | expired _ n, rows | pendingByCorrelation _ n, rows =>
    rows.take (max 1 n).toNat

def select (q : WaitQuery) (t : ExecutionWaitTable) : List ExecutionWaitORM :=
  q.limited (t.rows.selectOrdered q.holds q.le)

theorem mem_select {q : WaitQuery} {t : ExecutionWaitTable} {row : ExecutionWaitORM}
    (h : row ∈ q.select t) : t.get row.id = some row ∧ q.holds row := by
  have h' : row ∈ t.rows.selectOrdered q.holds q.le := by
    cases q with
    | ofExecution => exact h
    | due | expired | pendingByCorrelation => exact List.mem_of_mem_take h
  exact mem_selectOrdered.mp h'

/-- The rows of one execution in one status. -/
theorem mem_select_ofExecution {t : ExecutionWaitTable} {row : ExecutionWaitORM} {x : Uuid}
    {s : ExecutionWaitStatus} :
    row ∈ (ofExecution x (some s)).select t ↔
      t.get row.id = some row ∧ row.wait.executionId = x ∧ row.wait.status = s := by
  refine mem_selectOrdered.trans (and_congr_right fun _ => ?_)
  simp [holds]

end WaitQuery

/-- What a conditional update writes into an approval request. -/
structure ApprovalResponse where
  status : ApprovalStatus
  responsePayload : Json
  respondedBy : Option String

namespace ApprovalRequest

def respond (a : ApprovalRequest) (r : ApprovalResponse) (now : Time) : ApprovalRequest :=
  { a with
    status := r.status
    responsePayload := some r.responsePayload
    respondedBy := r.respondedBy
    respondedAt := some now }

/-- `ORDER BY requested_at DESC, id DESC`. -/
def newestFirst (a b : ApprovalRequest) : Bool := lexLe [b.requestedAt, b.id] [a.requestedAt, a.id]

/-- `ORDER BY requested_at ASC, id ASC`. -/
def oldestFirst (a b : ApprovalRequest) : Bool := lexLe [a.requestedAt, a.id] [b.requestedAt, b.id]

end ApprovalRequest

/-- `ORDER BY created_at DESC`. -/
def Execution.newestFirst (a b : Execution) : Bool := b.createdAt ≤ a.createdAt

/-- The request of a tool that `LIMIT 1` of the newest-first order selects. -/
def Database.latestApprovalRequest (db : Database) (executionId : Uuid) (toolId : String) :
    Option Uuid :=
  ((db.approvalRequests.selectOrdered (fun a => a.executionId = executionId && a.toolId = toolId)
    ApprovalRequest.newestFirst).head?).map ApprovalRequest.id

/-- The events of one execution, by sequence. -/
def Database.eventsOf (db : Database) (executionId : Uuid) : List ExecutionEvent :=
  (db.events.filter (·.executionId = executionId)).insertionSort (·.sequence ≤ ·.sequence)

/-- The next free sequence number of an execution's event log. -/
def Database.nextSequence (db : Database) (executionId : Uuid) : ℕ :=
  ((db.events.filter (·.executionId = executionId)).map (·.sequence)).foldr max 0 + 1

/-! ### Statements -/

/-- The statements of `SQLExecutionStore`, each one transaction. -/
inductive DbOp where
  | getExecution (id : Uuid)
  | listExecutions (statusIn : ExecutionStatus → Bool)
  | updateExecution (e : Execution)
  | saveEvent (event : ExecutionEvent)
  | listEvents (executionId : Uuid)
  | saveArtifact (artifact : ExecutionArtifact)
  | listArtifacts (executionId : Uuid)
  | insertExecutionWait (w : ExecutionWait)
  | getExecutionWaitByKey (executionId : Uuid) (idempotencyKey : String)
  | getExecutionWait (id : Uuid)
  | listExecutionWaits (q : WaitQuery)
  | updatePendingExecutionWait (id : Uuid) (r : ExecutionWait.Resolution) (now : Time)
  | mergeApprovalRequest (a : ApprovalRequest)
  | getApprovalRequest (id : Uuid)
  | listApprovalRequests (executionId : Uuid)
  | latestApprovalRequest (executionId : Uuid) (toolId : String)
  | updatePendingApprovalRequest (id : Uuid) (r : ApprovalResponse) (now : Time)

namespace DbOp

/-- What a statement answers. -/
abbrev Ret : DbOp → Type
  | getExecution _ => Option Execution
  | listExecutions _ => List Execution
  | updateExecution _ => Unit
  | saveEvent _ => Except RuntimeException ExecutionEvent
  | listEvents _ => List ExecutionEvent
  | saveArtifact _ => Unit
  | listArtifacts _ => List ExecutionArtifact
  | insertExecutionWait _ => Except RuntimeException Unit
  | getExecutionWaitByKey _ _ => Option ExecutionWaitORM
  | getExecutionWait _ => Option ExecutionWaitORM
  | listExecutionWaits _ => List ExecutionWaitORM
  | updatePendingExecutionWait _ _ _ => Except RuntimeException ℕ
  | mergeApprovalRequest _ => Unit
  | getApprovalRequest _ => Option ApprovalRequest
  | listApprovalRequests _ => List ApprovalRequest
  | latestApprovalRequest _ _ => Option Uuid
  | updatePendingApprovalRequest _ _ _ => ℕ

/-- The statements that write. -/
def isWrite : DbOp → Bool
  | updateExecution _ | saveEvent _ | saveArtifact _ | insertExecutionWait _
  | updatePendingExecutionWait _ _ _ | mergeApprovalRequest _
  | updatePendingApprovalRequest _ _ _ => true
  | _ => false

/-- What a statement does to the database. -/
def exec : (o : DbOp) → Database → o.Ret × Database
  | getExecution id, db => (db.executions.get id, db)
  | listExecutions statusIn, db =>
    (db.executions.selectOrdered (statusIn ·.status) Execution.newestFirst, db)
  | updateExecution e, db => ((), { db with executions := db.executions.save e })
  | saveEvent event, db =>
    match db.executions.get event.executionId with
    | none => (.error ⟨.valueError,
        s!"Execution '{event.executionId}' was not found for event append"⟩, db)
    | some _ =>
      let saved := { event with sequence := db.nextSequence event.executionId }
      (.ok saved, { db with events := db.events ++ [saved] })
  | listEvents id, db => (db.eventsOf id, db)
  | saveArtifact artifact, db => ((), { db with artifacts := db.artifacts ++ [artifact] })
  | listArtifacts id, db => (db.artifacts.filter (·.executionId = id), db)
  | insertExecutionWait w, db =>
    match db.waits.insert (.ofWait w) with
    | some waits => (.ok (), { db with waits := waits })
    | none => (.error ⟨.integrityError, "UNIQUE constraint failed: execution_waits"⟩, db)
  | getExecutionWaitByKey x key, db =>
    ((db.waits.rows.select fun r => r.wait.executionId = x && r.wait.idempotencyKey = key).head?,
      db)
  | getExecutionWait id, db => (db.waits.get id, db)
  | listExecutionWaits q, db => (q.select db.waits, db)
  | updatePendingExecutionWait id r now, db =>
    if 255 < r.resolutionKey.length || !ExecutionWait.fits255 r.resolvedBy then
      (.error ⟨.dataError, "value too long for type character varying(255)"⟩, db)
    else
      (.ok (db.waits.updatePending id r now).1,
        { db with waits := (db.waits.updatePending id r now).2 })
  | mergeApprovalRequest a, db => ((), { db with approvalRequests := db.approvalRequests.save a })
  | getApprovalRequest id, db => (db.approvalRequests.get id, db)
  | listApprovalRequests x, db =>
    (db.approvalRequests.selectOrdered (·.executionId = x) ApprovalRequest.oldestFirst, db)
  | latestApprovalRequest x tool, db => (db.latestApprovalRequest x tool, db)
  | updatePendingApprovalRequest id r now, db =>
    let u := db.approvalRequests.updateIf id (·.status = .pending) (·.respond r now)
    (u.1, { db with approvalRequests := u.2 })

/-! ### What a statement can change -/

/-- A statement that does not write leaves the database as it is. -/
theorem exec_of_not_isWrite {o : DbOp} (h : o.isWrite = false) (db : Database) :
    (o.exec db).2 = db := by
  cases o <;> first | rfl | cases h

/-- Only `update_execution` changes an execution row. -/
theorem exec_executions {o : DbOp} (h : ∀ e, o ≠ updateExecution e) (db : Database) :
    (o.exec db).2.executions = db.executions := by
  cases o with
  | updateExecution e => exact absurd rfl (h e)
  | saveEvent event =>
    rw [exec]
    split <;> rfl
  | insertExecutionWait w =>
    rw [exec]
    split <;> rfl
  | updatePendingExecutionWait id r now =>
    rw [exec]
    split <;> rfl
  | _ => rfl

/-- Where a wait row can come from: it was there, it was inserted, or it was
pending and has been resolved. -/
theorem exec_waits {o : DbOp} {db : Database} {i : Uuid} {row : ExecutionWaitORM}
    (h : (o.exec db).2.waits.get i = some row) :
    db.waits.get i = some row ∨
    (∃ w, o = insertExecutionWait w ∧ w.id = i ∧ row = .ofWait w ∧ db.waits.rejects row = false) ∨
    ∃ r now old, o = updatePendingExecutionWait i r now ∧ db.waits.get i = some old ∧
      old.wait.status = .pending ∧ row = old.resolve r now := by
  cases o with
  | insertExecutionWait w =>
    rw [exec] at h
    split at h
    next waits hw =>
      rw [ExecutionWaitTable.get_insert hw] at h
      split at h
      next hi =>
        cases h
        exact .inr (.inl ⟨w, rfl, hi.symm, rfl, ExecutionWaitTable.rejects_of_insert hw⟩)
      · exact .inl h
    · exact .inl h
  | updatePendingExecutionWait id r now =>
    rw [exec] at h
    split at h
    · exact .inl h
    · rcases db.waits.updatePending_cases id r now with ⟨old, hold, hp, -, hself, hne⟩ | ⟨-, e⟩
      · by_cases hi : i = id
        · subst hi
          rw [hself] at h
          cases h
          exact .inr (.inr ⟨r, now, old, rfl, hold, hp, rfl⟩)
        · rw [hne i hi] at h
          exact .inl h
      · rw [e] at h
        exact .inl h
  | saveEvent event =>
    rw [exec] at h
    split at h <;> exact .inl h
  | _ => exact .inl h

end DbOp

end OpenAgency
