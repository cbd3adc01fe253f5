/-
WaitStore.lean

The wait methods of the store, called one at a time on a table whose rows are
sound.  A row is sound as the store writes it: it passes its own validation, and it
holds the active slot exactly while it is pending.  On such a table no method fails
to read a row back, so each one has a rule that lists what it can answer.
-/
import OpenAgency.Events

namespace OpenAgency

open Interaction Relational Program DbOp ExecutionWait WaitQuery

/-! ### Sound rows -/

namespace ExecutionWaitORM

/-- A row as the store writes it. -/
structure Sound (row : ExecutionWaitORM) : Prop where
  valid : row.wait.Valid
  filled : row.wait.fillResolvedAt = row.wait
  slot : row.activeSlot = if row.wait.status = .pending then some "active" else none

theorem Sound.toWait {row : ExecutionWaitORM} (h : row.Sound) : row.toWait = .ok row.wait := by
  rw [ExecutionWaitORM.toWait, validateLifecycle_ok h.valid, h.filled]

theorem sound_ofWait {wait : ExecutionWait} (hv : wait.Valid) (hp : wait.status = .pending) :
    (ofWait wait).Sound :=
  ⟨hv, fillResolvedAt_of_pending hp, rfl⟩

theorem Sound.resolve {row : ExecutionWaitORM} (h : row.Sound) {r : ExecutionWait.Resolution}
    (now : Time) (hs : r.status.isTerminal) (hkey : r.resolutionKey.length ≤ 255)
    (hby : fits255 r.resolvedBy) : (row.resolve r now).Sound := by
  refine ⟨h.valid.resolve hs hkey hby, fillResolvedAt_of_resolvedAt rfl, ?_⟩
  have hne : r.status ≠ .pending := ExecutionWaitStatus.isTerminal_iff.mp hs
  show none = if r.status = .pending then some "active" else none
  rw [if_neg hne]

/-- Two pending rows of one execution are one row. -/
theorem Sound.eq_of_pending {t : ExecutionWaitTable} {i j : Uuid} {row row' : ExecutionWaitORM}
    (h : row.Sound) (h' : row'.Sound) (hi : t.get i = some row) (hj : t.get j = some row')
    (hx : row.wait.executionId = row'.wait.executionId) (hp : row.wait.status = .pending)
    (hp' : row'.wait.status = .pending) : i = j := by
  have hs : row.activeSlot = some "active" := by rw [h.slot, if_pos hp]
  have hs' : row'.activeSlot = some "active" := by rw [h'.slot, if_pos hp']
  exact ExecutionWaitTable.eq_of_activeSlot hi hj hx (by simp [hs]) (hs.trans hs'.symm)

end ExecutionWaitORM

/-- Every wait row is sound. -/
def SoundWaits (db : Database) : Prop := ∀ i row, db.waits.get i = some row → row.Sound

theorem soundWaits_of_waits_eq {db db' : Database} (h : SoundWaits db)
    (e : db'.waits = db.waits) : SoundWaits db' := by
  intro i row hi
  rw [e] at hi
  exact h i row hi

variable {db : Database}

/-- A sound row that is stored keeps the table sound. -/
theorem SoundWaits.insert (h : SoundWaits db) {row : ExecutionWaitORM} {t : ExecutionWaitTable}
    (hrow : row.Sound) (ht : db.waits.insert row = some t) :
    SoundWaits { db with waits := t } := by
  intro i r hr
  have hr' : t.get i = some r := hr
  rw [ExecutionWaitTable.get_insert ht] at hr'
  split at hr'
  · cases hr'
    exact hrow
  · exact h i r hr'

/-- The two worlds have the same waits, up to those of execution `x`. -/
def SameWaitsBut (x : Uuid) (db db' : Database) : Prop :=
  ∀ i row, row.wait.executionId ≠ x → (db'.waits.get i = some row ↔ db.waits.get i = some row)

namespace SameWaitsBut

variable {x : Uuid} {db db₁ db₂ : Database}

theorem refl (x : Uuid) (db : Database) : SameWaitsBut x db db := fun _ _ _ => Iff.rfl

theorem trans (h : SameWaitsBut x db db₁) (h' : SameWaitsBut x db₁ db₂) :
    SameWaitsBut x db db₂ := fun i row hne => (h' i row hne).trans (h i row hne)

end SameWaitsBut

/-! ### Selections -/

section Rules

variable {env : Environment} {w : World}

theorem mapM_toWait {rows : List ExecutionWaitORM} (h : ∀ row ∈ rows, row.Sound) :
    rows.mapM ExecutionWaitORM.toWait = .ok (rows.map (·.wait)) := by
  induction rows with
  | nil => rfl
  | cons row rows ih =>
    rw [List.forall_mem_cons] at h
    rw [List.mapM_cons, h.1.toWait, ih h.2]
    rfl

/-- The waits a selection answers. -/
def WaitQuery.waits (q : WaitQuery) (db : Database) : List ExecutionWait :=
  (q.select db.waits).map (·.wait)

theorem wp_selectExecutionWaits (hs : SoundWaits w.db) (q : WaitQuery)
    {Q : List ExecutionWait → World → Prop} {E : RuntimeException → World → Prop} :
    (selectExecutionWaits q).wp (handler env) Q E w ↔ Q (q.waits w.db) w := by
  have hrows : ∀ row ∈ q.select w.db.waits, row.Sound := fun row hr =>
    hs row.id row (mem_select hr).1
  rw [selectExecutionWaits, wp_query]
  simp only [exec]
  rw [mapM_toWait hrows]
  exact wp_ofExcept_ok _ _

variable {wait : ExecutionWait}

theorem mem_waits_pending {x : Uuid} :
    wait ∈ (ofExecution x (some .pending)).waits db ↔
      ∃ row, db.waits.get wait.id = some row ∧ row.wait = wait ∧ wait.executionId = x ∧
        wait.status = .pending := by
  rw [waits, List.mem_map]
  constructor
  · rintro ⟨row, hr, rfl⟩
    obtain ⟨hget, hx, hp⟩ := mem_select_ofExecution.mp hr
    exact ⟨row, hget, rfl, hx, hp⟩
  · rintro ⟨row, hget, rfl, hx, hp⟩
    exact ⟨row, mem_select_ofExecution.mpr ⟨hget, hx, hp⟩, rfl⟩

theorem wp_getExecutionWait (hs : SoundWaits w.db) {i : Uuid}
    {Q : Option ExecutionWait → World → Prop} {E : RuntimeException → World → Prop} :
    (getExecutionWait i).wp (handler env) Q E w ↔ Q ((w.db.waits.get i).map (·.wait)) w := by
  rw [getExecutionWait, wp_query]
  simp only [exec]
  rcases h : w.db.waits.get i with - | row
  · exact wp_done _ _
  · simp only [(hs i row h).toWait]
    exact wp_done _ _

/-- Reading a wait writes nothing. -/
theorem getExecutionWait_reads (i : Uuid) : (getExecutionWait i).Reads RuntimeOp.isWrite := by
  refine ⟨rfl, fun row _ => ?_⟩
  rcases row with - | row
  · trivial
  · show Program.Within _ _ (Program.ofExcept row.toWait >>= _)
    exact .bind (within_ofExcept _) fun _ => trivial

theorem selectExecutionWaits_reads (q : WaitQuery) :
    (selectExecutionWaits q).Reads RuntimeOp.isWrite :=
  ⟨rfl, fun _ _ => within_ofExcept _⟩

/-! ### Insertion -/

/-- The row that keeps an execution from storing another wait under a key. -/
def StoredUnder (db : Database) (x : Uuid) (key : String) (row : ExecutionWaitORM) : Prop :=
  db.waits.get row.id = some row ∧ row.wait.executionId = x ∧ row.wait.idempotencyKey = key

theorem mem_select_storedUnder {x : Uuid} {key : String} {row : ExecutionWaitORM} :
    row ∈ (db.waits.rows.select fun r =>
      r.wait.executionId = x && r.wait.idempotencyKey = key) ↔ StoredUnder db x key row := by
  rw [Table.mem_select]
  simp only [Bool.and_eq_true, decide_eq_true_eq]
  exact Iff.rfl

/-- A key of an execution is used by one row. -/
theorem StoredUnder.unique {x : Uuid} {key : String} {row row' : ExecutionWaitORM}
    (h : StoredUnder db x key row) (h' : StoredUnder db x key row') : row' = row := by
  have hid : row.id = row'.id := db.waits.unique _ _ row row' h.1 h'.1 (by
    simp [ExecutionWaitORM.conflicts, h.2.1, h.2.2, h'.2.1, h'.2.2])
  have hrow := h.1
  rw [hid] at hrow
  exact Option.some.inj (h'.1.symm.trans hrow)

/-- A stored key is refused. -/
theorem StoredUnder.insert_eq_none {row : ExecutionWaitORM}
    (h : StoredUnder db wait.executionId wait.idempotencyKey row) :
    db.waits.insert (.ofWait wait) = none := by
  have hmem : row ∈ db.waits.rows.select (ExecutionWaitORM.ofWait wait).conflicts := by
    refine Table.mem_select.mpr ⟨h.1, ?_⟩
    simp [ExecutionWaitORM.conflicts, ExecutionWaitORM.ofWait, h.2.1, h.2.2]
  rw [ExecutionWaitTable.insert_eq_none, ExecutionWaitTable.rejects, Bool.or_eq_true]
  refine .inr ?_
  rw [Bool.not_eq_true', List.isEmpty_eq_false_iff]
  exact List.ne_nil_of_mem hmem

/-- `create_execution_wait` writes once: it stores the wait, or answers the one stored
under its key, or fails because another wait of the execution is pending. -/
theorem wpc_createExecutionWait (hs : SoundWaits w.db) (hv : wait.Valid)
    (hp : wait.status = .pending) {n : ℕ} {C : ℕ → World → Prop}
    {Q : ExecutionWait → ℕ → World → Prop} {E : RuntimeException → ℕ → World → Prop} (hC : C n w)
    (hnew : ∀ t, w.db.waits.insert (.ofWait wait) = some t →
      Q wait (n + 1) { w with db := { w.db with waits := t } })
    (hold : ∀ row, StoredUnder w.db wait.executionId wait.idempotencyKey row → Q row.wait (n + 1) w)
    (herror : w.db.waits.insert (.ofWait wait) = none →
      (∀ row, ¬ StoredUnder w.db wait.executionId wait.idempotencyKey row) →
      ∀ e, e.cls = .integrityError → E e (n + 1) w) :
    (createExecutionWait wait).wpc (handler env) RuntimeOp.isWrite C Q E n w := by
  rw [createExecutionWait, wpc_query_write rfl]
  refine ⟨hC, ?_⟩
  simp only [exec]
  rcases hins : w.db.waits.insert (.ofWait wait) with - | t
  · show Program.wpc _ _ _ _ _
      (query (.getExecutionWaitByKey wait.executionId wait.idempotencyKey) >>= _) _ w
    rw [wpc_query_read rfl]
    simp only [exec]
    rcases hkey : (w.db.waits.rows.select fun r => r.wait.executionId = wait.executionId &&
      r.wait.idempotencyKey = wait.idempotencyKey).head? with - | row
    · refine wpc_of_raise (herror hins (fun row hrow => ?_) _ rfl)
      have hmem := mem_select_storedUnder.mpr hrow
      simp [List.head?_eq_none_iff.mp hkey] at hmem
    · have hrow := mem_select_storedUnder.mp (List.mem_of_head? hkey)
      show Program.wpc _ _ _ _ _ (Program.ofExcept row.toWait) _ w
      rw [(hs row.id row hrow.1).toWait]
      exact wpc_of_done (hold row hrow)
  · show Program.wpc _ _ _ _ _ (Program.ofExcept (ExecutionWaitORM.ofWait wait).toWait) _ _
    rw [(ExecutionWaitORM.sound_ofWait hv hp).toWait]
    exact wpc_of_done (hnew t hins)

theorem wp_createExecutionWait (hs : SoundWaits w.db) (hv : wait.Valid)
    (hp : wait.status = .pending) {Q : ExecutionWait → World → Prop}
    {E : RuntimeException → World → Prop}
    (hnew : ∀ t, w.db.waits.insert (.ofWait wait) = some t →
      Q wait { w with db := { w.db with waits := t } })
    (hold : ∀ row, StoredUnder w.db wait.executionId wait.idempotencyKey row → Q row.wait w)
    (herror : (∀ row, ¬ StoredUnder w.db wait.executionId wait.idempotencyKey row) →
      ∀ e, e.cls = .integrityError → E e w) :
    (createExecutionWait wait).wp (handler env) Q E w :=
  wp_of_wpc_true (wpc_createExecutionWait hs hv hp trivial hnew hold fun _ => herror)

/-! ### Resolution -/

/-- The key and the resolver of a resolution fit their columns. -/
def ExecutionWait.Resolution.Fits (r : ExecutionWait.Resolution) : Prop :=
  r.resolutionKey.length ≤ 255 ∧ fits255 r.resolvedBy

/-- The wait table after the row under `i` has been resolved. -/
structure ResolvedInto (t t' : ExecutionWaitTable) (i : Uuid) (row : ExecutionWaitORM)
    (r : ExecutionWait.Resolution) (now : Time) : Prop where
  table : t' = (t.updatePending i r now).2
  before : t.get i = some row
  pending : row.wait.status = .pending
  after : t'.get i = some (row.resolve r now)
  others : ∀ j, j ≠ i → t'.get j = t.get j

/-- `resolve_execution_wait` writes once: it claims a pending row, or finds it resolved
and changes nothing. -/
theorem wpc_resolveExecutionWait (hs : SoundWaits w.db) {i : Uuid}
    {r : ExecutionWait.Resolution} (ht : r.status.isTerminal) {n : ℕ} {C : ℕ → World → Prop}
    {Q : Option ExecutionWait × Bool → ℕ → World → Prop}
    {E : RuntimeException → ℕ → World → Prop} (hC : C n { w with clockReads := w.clockReads + 1 })
    (hclaim : r.Fits → ∀ row t, ResolvedInto w.db.waits t i row r (env.clock w.clockReads) →
      (row.resolve r (env.clock w.clockReads)).Sound →
      Q (some (row.wait.resolve r (env.clock w.clockReads)), true) (n + 1)
        { w with db := { w.db with waits := t }, clockReads := w.clockReads + 1 })
    (hdone : r.Fits → ∀ row, w.db.waits.get i = some row → row.wait.status ≠ .pending →
      Q (if row.wait.resolutionKey = some r.resolutionKey then some row.wait else none, false)
        (n + 1) { w with clockReads := w.clockReads + 1 })
    (hmissing : w.db.waits.get i = none →
      Q (none, false) (n + 1) { w with clockReads := w.clockReads + 1 })
    (hlong : ¬ r.Fits → ∀ e, E e (n + 1) { w with clockReads := w.clockReads + 1 }) :
    (resolveExecutionWait i r).wpc (handler env) RuntimeOp.isWrite C Q E n w := by
  rw [resolveExecutionWait, wpc_utcNow, wpc_query_write rfl]
  refine ⟨hC, ?_⟩
  simp only [exec]
  by_cases hlength : 255 < r.resolutionKey.length || !fits255 r.resolvedBy
  · rw [if_pos hlength]
    refine wpc_of_raise (hlong (fun hfit => ?_) _)
    simp [hfit.2, Nat.not_lt.mpr hfit.1] at hlength
  · rw [if_neg hlength]
    have hfit : r.Fits := by
      simpa only [ExecutionWait.Resolution.Fits, Bool.or_eq_true, decide_eq_true_eq,
        Bool.not_eq_true', not_or, Nat.not_lt, Bool.not_eq_false] using hlength
    rcases w.db.waits.updatePending_cases i r (env.clock w.clockReads) with
      ⟨row, hrow, hp, hone, hself, hothers⟩ | ⟨hp, hzero⟩
    · have hsound := (hs i row hrow).resolve (env.clock w.clockReads) ht hfit.1 hfit.2
      simp only [readBackResolution, hone]
      rw [wpc_query_read rfl]
      simp only [exec, hself, readBackRow, hsound.toWait]
      exact wpc_of_done (hclaim hfit row _ ⟨rfl, hrow, hp, hself, hothers⟩ hsound)
    · simp only [readBackResolution, hzero]
      rw [wpc_query_read rfl]
      simp only [exec]
      rcases hrow : w.db.waits.get i with - | row
      · exact wpc_of_done (hmissing hrow)
      · simp only [readBackRow, (hs i row hrow).toWait]
        have hans := hdone hfit row hrow (hp row hrow)
        show Program.wpc _ _ _ _ _
          (if row.wait.resolutionKey = some r.resolutionKey then _ else _) _ _
        rw [wpc_ite]
        split
        next hkey => exact wpc_of_done (by simpa [hkey] using hans)
        next hkey => exact wpc_of_done (by simpa [hkey] using hans)

theorem wp_resolveExecutionWait (hs : SoundWaits w.db) {i : Uuid} {r : ExecutionWait.Resolution}
    (ht : r.status.isTerminal) {Q : Option ExecutionWait × Bool → World → Prop}
    {E : RuntimeException → World → Prop}
    (hclaim : r.Fits → ∀ row t, ResolvedInto w.db.waits t i row r (env.clock w.clockReads) →
      (row.resolve r (env.clock w.clockReads)).Sound →
      Q (some (row.wait.resolve r (env.clock w.clockReads)), true)
        { w with db := { w.db with waits := t }, clockReads := w.clockReads + 1 })
    (hdone : r.Fits → ∀ row, w.db.waits.get i = some row → row.wait.status ≠ .pending →
      Q (if row.wait.resolutionKey = some r.resolutionKey then some row.wait else none, false)
        { w with clockReads := w.clockReads + 1 })
    (hmissing : w.db.waits.get i = none → Q (none, false) { w with clockReads := w.clockReads + 1 })
    (hlong : ¬ r.Fits → ∀ e, E e { w with clockReads := w.clockReads + 1 }) :
    (resolveExecutionWait i r).wp (handler env) Q E w :=
  wp_of_wpc_true (wpc_resolveExecutionWait hs ht trivial hclaim hdone hmissing hlong)

end Rules

end OpenAgency
