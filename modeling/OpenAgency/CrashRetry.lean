/-
CrashRetry.lean

The wake protocol after a crash.  A call of `create_wait` or `resolve_wait` stops after
some of its writes, and the same call is repeated, by any process, until it returns.
The question is whether the execution's status, its `active_wait`, its wait records and
the invocation of `control_plane.resume` are then those of one uninterrupted call.

The repeated call sees only the stage the first one has reached: a wait that is stored
counts as created and a wait that is resolved as woken, whatever became of the
execution.  So the stages between the write of the wait and the last write of the
execution are never repaired.
-/
import OpenAgency.CrashStages

namespace OpenAgency

open Interaction Relational Program RuntimeOp Table ResolveWaitRequest ExecutionWaitORM ExecutionWaitTable

/-! ### Calls -/

inductive WakeCall where
  | createWait (r : CreateWaitRequest)
  | resolveWait (r : ResolveWaitRequest)

namespace WakeCall

def executionId : WakeCall → Uuid
  | createWait r => r.executionId
  | resolveWait r => r.executionId

/-- What a call does; its answer is dropped. -/
def program : WakeCall → Coroutine Unit
  | createWait r => OpenAgency.createWait r >>= fun _ => pure ()
  | resolveWait r => OpenAgency.resolveWait r >>= fun _ => pure ()

/-- The call up to its invocation of `control_plane.resume`: the execution it resumes,
if it does. -/
def beforeResume : WakeCall → Coroutine (Option Execution)
  | createWait r => OpenAgency.createWait r >>= fun _ => pure none
  | resolveWait r => claimWait r >>= fun claim => pure (claim.2.filter fun _ => r.shouldResume)

end WakeCall

/-- What a call leaves of the execution `x` and its waits. -/
structure SuspensionRecord where
  status : Option ExecutionStatus
  activeWait : Option ActiveWait
  waits : List ExecutionWaitORM

def suspensionRecord (db : Database) (x : Uuid) : SuspensionRecord where
  status := (db.executions.get x).map (·.status)
  activeWait := (db.executions.get x).bind (·.metadata.activeWait)
  waits := db.waits.rows.select fun row => row.wait.executionId = x

/-- Some process, at some later time, finds the store as `w` left it. -/
structure FoundLater (w w' : World) : Prop where
  db : w'.db = w.db
  uuidsDrawn : w.uuidsDrawn ≤ w'.uuidsDrawn

section Calls

variable (env : Environment)

/-- A coroutine is repeated, from each of the given worlds, until it returns. -/
inductive RepeatedUntilOk {α : Type} (p : Coroutine α) : World → List World → World → Prop
  | returned {w w' : World} {a : α} (h : p.run (handler env) w = (.ok a, w')) :
      RepeatedUntilOk p w [w] w'
  | raised {w w₁ w₂ w' : World} {exc : RuntimeException} {ws : List World}
      (h : p.run (handler env) w = (.error exc, w₁)) (hlater : FoundLater w₁ w₂)
      (hrest : RepeatedUntilOk p w₂ ws w') : RepeatedUntilOk p w (w :: ws) w'

namespace WakeCall

variable (c : WakeCall)

/-- The call, started here and not interrupted, invokes `control_plane.resume`. -/
def Resumes (w : World) : Prop :=
  ∃ e w', c.beforeResume.run (handler env) w = (.ok (some e), w')

/-- The call invokes `control_plane.resume` before it is stopped after `k` writes. -/
def ResumesWithin (k : ℕ) (w : World) : Prop :=
  ∃ e, c.beforeResume.endedWithin (handler env) isWrite k w = some (.ok (some e))

/-- One uninterrupted call on the store of `w`, then or later, would have left this
record and, if `resumed`, invoked `control_plane.resume`. -/
def LeavesUninterrupted (w : World) (db : Database) (resumed : Prop) : Prop :=
  ∃ w₀ u, FoundLater w w₀ ∧ c.program.run (handler env) w₀ = (.ok (), u) ∧
    suspensionRecord u.db c.executionId = suspensionRecord db c.executionId ∧
    (c.Resumes env w₀ ↔ resumed)

/-- Stopped after `k` writes and then repeated until it returns, the call leaves what one
uninterrupted call would have; and it does return if the uninterrupted call does. -/
def Recovers (k : ℕ) (w : World) : Prop :=
  ∀ w₁, FoundLater (c.program.stopAfter (handler env) isWrite k w) w₁ →
    ((∃ u, c.program.run (handler env) w = (.ok (), u)) →
      ∃ ws w', RepeatedUntilOk env c.program w₁ ws w') ∧
    ∀ ws w', RepeatedUntilOk env c.program w₁ ws w' →
      c.LeavesUninterrupted env w w'.db (c.ResumesWithin env k w ∨ ∃ v ∈ ws, c.Resumes env v)

/-- The stop falls where no repetition makes up for it: `create_wait` has stored a new
wait and not yet suspended the execution; `resolve_wait` has claimed the wait and not yet
woken the execution, or not yet resumed it though the call asks for that. -/
def LosesSteps (db : Database) (k : ℕ) : WakeCall → Prop
  | createWait r => k = 1 ∧ ∃ e, r.AsksStore db e ∧ ∀ row, ¬ StoredUnder db r.executionId r.key row
  | resolveWait r => (∃ e row, r.Claims db e row) ∧ (k = 1 ∨ r.shouldResume ∧ (k = 2 ∨ k = 3))

end WakeCall

/-- The identifiers still to be drawn are new: no wait has one, and no `active_wait` names
one. -/
structure FreshIds (w : World) : Prop where
  waits : ∀ n, w.uuidsDrawn ≤ n → w.db.waits.get (env.uuid n) = none
  active : ∀ n x e a, w.uuidsDrawn ≤ n → w.db.executions.get x = some e →
    e.metadata.activeWait = some a → a.waitId ≠ env.uuid n

end Calls

variable {env : Environment} {w : World} {e : Execution} {t : ExecutionWaitTable}

theorem FoundLater.trans {w₁ w₂ w₃ : World} (h : FoundLater w₁ w₂) (h' : FoundLater w₂ w₃) :
    FoundLater w₁ w₃ := ⟨h'.db.trans h.db, h.uuidsDrawn.trans h'.uuidsDrawn⟩

theorem StoredAs.suspensionRecord {x : Uuid} (h : StoredAs x e t w) :
    suspensionRecord w.db x = ⟨some e.status, e.metadata.activeWait,
      t.rows.select fun row => row.wait.executionId = x⟩ := by
  rw [OpenAgency.suspensionRecord, h.execution, h.waits]
  rfl

/-- A call that returns at once is not repeated. -/
theorem repeats_of_ok {α : Type} {p : Coroutine α} {a : α} {u : World} {A : Prop}
    {P : List World → World → Prop} (hok : p.run (handler env) w = (.ok a, u)) (h : P [w] u) :
    (A → ∃ ws w', RepeatedUntilOk env p w ws w') ∧
      ∀ ws w', RepeatedUntilOk env p w ws w' → P ws w' := by
  refine ⟨fun _ => ⟨_, _, .returned hok⟩, fun ws w' hrep => ?_⟩
  cases hrep with
  | returned hr =>
    rw [hok] at hr
    cases hr
    exact h
  | raised hr _ _ =>
    rw [hok] at hr
    cases hr

/-! ### Calls that change nothing -/

namespace WakeCall

/-- What follows. -/
def afterResume : Option Execution → Coroutine Unit
  | none => pure ()
  | some e => resume e.id >>= fun _ => pure ()

theorem program_eq (c : WakeCall) : c.program = c.beforeResume >>= afterResume := by
  cases c with
  | createWait r =>
    rw [program, beforeResume, Program.bind_assoc]
    rfl
  | resolveWait r =>
    rw [program, OpenAgency.resolveWait, beforeResume, Program.bind_assoc, Program.bind_assoc]
    refine congrArg (claimWait r >>= ·) (funext fun claim => ?_)
    obtain ⟨wait, - | e⟩ := claim
    · rfl
    · rcases hr : r.shouldResume with - | -
      · simp [resumeWoken, hr, afterResume]
      · simp only [resumeWoken, hr, if_true, Program.bind_assoc]
        rfl

variable {c : WakeCall} {db : Database}

/-- On this store the call answers what is there. -/
def Answers (env : Environment) (c : WakeCall) (db : Database) : Prop :=
  ∀ w, w.db = db → c.beforeResume.wpc (handler env) isWrite (fun _ w' => w'.db = db)
    (fun woken _ w' => woken = none ∧ w'.db = db) (fun _ _ _ => False) 0 w

/-- On this store the call raises and changes nothing. -/
def Refuses (env : Environment) (c : WakeCall) (db : Database) : Prop :=
  ∀ w, w.db = db → c.beforeResume.wpc (handler env) isWrite (fun _ w' => w'.db = db)
    (fun _ _ _ => False) (fun _ _ w' => w'.db = db) 0 w

theorem Answers.run (h : c.Answers env db) (hw : w.db = db) :
    (∃ u, c.program.run (handler env) w = (.ok (), u) ∧ u.db = db) ∧ ¬ c.Resumes env w := by
  rcases run_of_wpc (h w hw) with ⟨woken, u, m, hr, rfl, hu⟩ | ⟨e, u, m, -, hf⟩
  · refine ⟨⟨u, ?_, hu⟩, ?_⟩
    · rw [program_eq, run_bind_ok _ hr]
      rfl
    · rintro ⟨e, w', hr'⟩
      rw [hr] at hr'
      cases hr'
  · exact hf.elim

theorem Refuses.run (h : c.Refuses env db) (hw : w.db = db) :
    ∃ exc u, c.program.run (handler env) w = (.error exc, u) ∧ u.db = db := by
  rcases run_of_wpc (h w hw) with ⟨woken, u, m, -, hf⟩ | ⟨exc, u, m, hr, hu⟩
  · exact hf.elim
  · exact ⟨exc, u, by rw [program_eq, run_bind_error _ hr], hu⟩

/-- Wherever such a call is stopped, the store is as it was. -/
theorem Answers.stopAfter (h : c.Answers env db) (hw : w.db = db) (k : ℕ) :
    (c.program.stopAfter (handler env) isWrite k w).db = db ∧ ¬ c.ResumesWithin env k w := by
  constructor
  · have hp : c.program.wpc (handler env) isWrite (fun _ w' => w'.db = db)
        (fun _ _ w' => w'.db = db) (fun _ _ _ => False) 0 w := by
      rw [program_eq, wpc_bind]
      refine wpc_mono (h w hw) (fun _ _ h => h) ?_ (fun _ _ _ h => h)
      rintro woken m w' ⟨rfl, hw'⟩
      exact wpc_of_done hw'
    rcases wpc_stopped hp k with ⟨-, hs⟩ | ⟨m, -, ⟨-, -, hs⟩ | ⟨-, -, hf⟩⟩
    · exact hs
    · exact hs
    · exact hf.elim
  · rintro ⟨e, he⟩
    rcases wpc_stopped (h w hw) k with ⟨hnone, -⟩ | ⟨m, -, ⟨a, ha, hs⟩ | ⟨-, -, hf⟩⟩
    · simp [hnone] at he
    · rw [he] at ha
      cases ha
      cases hs.1
    · exact hf.elim

theorem Refuses.stopAfter (h : c.Refuses env db) (hw : w.db = db) (k : ℕ) :
    (c.program.stopAfter (handler env) isWrite k w).db = db := by
  have hp : c.program.wpc (handler env) isWrite (fun _ w' => w'.db = db)
      (fun _ _ _ => False) (fun _ _ w' => w'.db = db) 0 w := by
    rw [program_eq, wpc_bind]
    exact wpc_mono (h w hw) (fun _ _ h => h) (fun _ _ _ h => h.elim) (fun _ _ _ h => h)
  rcases wpc_stopped hp k with ⟨-, hs⟩ | ⟨m, -, ⟨-, -, hf⟩ | ⟨-, -, hs⟩⟩
  · exact hs
  · exact hf.elim
  · exact hs

/-- A stop that leaves the store as it was. -/
theorem foundLater_of_stop {w₁ : World} {k : ℕ}
    (hstop : (c.program.stopAfter (handler env) isWrite k w).db = w.db)
    (h : FoundLater (c.program.stopAfter (handler env) isWrite k w) w₁) :
    FoundLater w w₁ :=
  .trans ⟨hstop, uuidsDrawn_stopAfter k c.program w⟩ h

theorem Answers.recovers (h : c.Answers env w.db) (k : ℕ) : c.Recovers env k w := by
  intro w₁ hlater
  obtain ⟨hstop, hwithin⟩ := h.stopAfter rfl k
  have hdb : w₁.db = w.db := hlater.db.trans hstop
  obtain ⟨⟨u, hu, -⟩, hresumes⟩ := h.run hdb
  refine repeats_of_ok hu ?_
  refine ⟨w₁, u, foundLater_of_stop hstop hlater, hu, rfl, ?_⟩
  simp [hresumes, hwithin]

theorem Refuses.not_repeated (h : c.Refuses env db) {ws : List World} {w' : World}
    (hrep : RepeatedUntilOk env c.program w ws w') : w.db ≠ db := by
  induction hrep with
  | returned hr =>
    intro hw
    obtain ⟨exc, u, hu, -⟩ := h.run hw
    rw [hr] at hu
    cases hu
  | raised hr hlater _ ih =>
    intro hw
    obtain ⟨exc, u, hu, hdb⟩ := h.run hw
    rw [hr] at hu
    cases hu
    exact ih (hlater.db.trans hdb)

theorem Refuses.recovers (h : c.Refuses env w.db) (k : ℕ) : c.Recovers env k w := by
  intro w₁ hlater
  have hdb : w₁.db = w.db := hlater.db.trans (h.stopAfter rfl k)
  refine ⟨?_, fun ws w' hrep => absurd hdb (h.not_repeated hrep)⟩
  rintro ⟨u, hu⟩
  obtain ⟨exc, u', hu', -⟩ := h.run (w := w) rfl
  rw [hu] at hu'
  cases hu'

/-! ### `create_wait` -/

section Create

variable {r : CreateWaitRequest} {row : ExecutionWaitORM}

theorem createWait_returns_none (r : CreateWaitRequest) :
    (beforeResume (.createWait r)).Returns (· = none) := .bind fun _ => rfl

theorem createWait_not_resumes (w : World) : ¬ (createWait r).Resumes env w := by
  rintro ⟨e, w', hr⟩
  have hnone := ((wp_iff_run _ _).mp
    (wp_of_returns (H := handler env) (createWait_returns_none r) w)).1 _ _ hr
  cases hnone

theorem createWait_not_resumesWithin (k : ℕ) (w : World) :
    ¬ (createWait r).ResumesWithin env k w := by
  rintro ⟨e, he⟩
  have hnone := Program.returns_endedWithin (createWait_returns_none r) he
  cases hnone

theorem createWait_answers (hs : SoundWaits db) (h : r.FindsPending db e) :
    Answers env (createWait r) db := by
  rintro w rfl
  show Program.wpc _ _ _ _ _ (OpenAgency.createWait r >>= fun _ => pure none) 0 w
  rw [wpc_bind]
  refine wpc_createWait hs (fun _ hno => absurd h (hno e)) ?_ ?_
  · exact fun _ _ _ w' hw' => wpc_of_done ⟨rfl, hw'⟩
  · intro e' w' ha _
    cases h.execution.symm.trans ha.execution
    exact absurd h ha.not_findsPending

theorem createWait_refuses (hs : SoundWaits db) (ha : ∀ e, ¬ r.AsksStore db e)
    (hf : ∀ e, ¬ r.FindsPending db e) : Refuses env (createWait r) db := by
  rintro w rfl
  show Program.wpc _ _ _ _ _ (OpenAgency.createWait r >>= fun _ => pure none) 0 w
  rw [wpc_bind]
  exact wpc_createWait hs (fun _ _ _ w' hw' => hw') (fun e h => absurd h (hf e))
    fun e w' h => absurd h (ha e)

/-- A call that asks the store, wherever it is stopped. -/
theorem wpc_program_createWait (hs : SoundWaits w.db) (hr : r.AsksStore w.db e)
    {C Q : ℕ → World → Prop}
    (h : ∀ w', w'.db = w.db →
      (storeWait r e (r.wait e (env.uuid w.uuidsDrawn) (env.clock w.clockReads))).wpc
        (handler env) isWrite C (fun _ => Q) (fun _ _ _ => False) 0 w') :
    (program (createWait r)).wpc (handler env) isWrite C (fun _ => Q)
      (fun _ _ _ => False) 0 w := by
  rw [program, wpc_bind]
  refine wpc_createWait hs (fun hno => absurd hr (hno e)) ?_ ?_
  · intro e' hf
    cases hr.execution.symm.trans hf.execution
    exact absurd hf hr.not_findsPending
  · intro e' w' ha hw'
    cases hr.execution.symm.trans ha.execution
    exact wpc_mono (h w' hw') (fun _ _ h => h) (fun _ _ _ h => wpc_of_done h)
      (fun _ _ _ h => h)

variable {e₁ : Execution}

/-- What an execution suspended before looks like to a call that asks the store again. -/
theorem asksStore_of_storedAs (hr : r.AsksStore db e)
    (he₁ : e₁ = e ∨ e₁ = e.suspendOn r.kind row.wait) {w : World}
    (h : StoredAs r.executionId e₁ db.waits w) : r.AsksStore w.db e₁ := by
  have hsource : e₁.status.isWaitCreationSource := by
    rcases he₁ with rfl | rfl
    · exact hr.source
    · show (waitExecutionStatus r.kind).isWaitCreationSource
      cases r.kind <;> rfl
  refine ⟨⟨h.execution, hsource, hr.key, hr.deadline⟩, ?_, fun id now => hr.valid id now⟩
  intro row hrow
  rw [h.waits] at hrow
  exact hr.none_pending row hrow

/-- **A used key.**  The call suspends the execution on the wait that is stored, and so
does every repetition. -/
theorem createWait_recovers_old (hs : SoundWaits w.db) (hr : r.AsksStore w.db e)
    (hrow : StoredUnder w.db r.executionId r.key row) (k : ℕ) :
    (createWait r).Recovers env k w := by
  have hrun : ∀ v e₁, (e₁ = e ∨ e₁ = e.suspendOn r.kind row.wait) →
      StoredAs r.executionId e₁ w.db.waits v →
      (program (createWait r)).wpc (handler env) isWrite
        (fun _ w' => StoredAs r.executionId e₁ w.db.waits w' ∨
          StoredAs r.executionId (e₁.suspendOn r.kind row.wait) w.db.waits w')
        (fun _ _ => StoredAs r.executionId (e₁.suspendOn r.kind row.wait) w.db.waits)
        (fun _ _ _ => False) 0 v := by
    intro v e₁ he₁ hv
    have hsv : SoundWaits v.db := soundWaits_of_waits_eq hs hv.waits
    have hrv := asksStore_of_storedAs hr he₁ hv
    have hrowv : StoredUnder v.db r.executionId r.key row :=
      ⟨by rw [hv.waits]; exact hrow.1, hrow.2⟩
    refine wpc_program_createWait hsv hrv fun w' hw' => ?_
    rw [← hv.waits, ← hw']
    rw [← hw'] at hsv hrv hrowv
    exact wpc_storeWait_old hsv hrv hrowv _ _
  have hstart : StoredAs r.executionId e w.db.waits w := ⟨hr.execution, rfl⟩
  obtain ⟨⟨⟩, u, -, hu, hus⟩ | ⟨-, -, -, -, hf⟩ := run_of_wpc (hrun w e (.inl rfl) hstart)
  swap
  · exact hf.elim
  intro w₁ hlater
  -- the store a repetition finds
  obtain ⟨e₁, he₁, hw₁⟩ : ∃ e₁, (e₁ = e ∨ e₁ = e.suspendOn r.kind row.wait) ∧
      StoredAs r.executionId e₁ w.db.waits w₁ := by
    rcases wpc_stopped (hrun w e (.inl rfl) hstart) k with
      ⟨-, hstop | hstop⟩ | ⟨m, -, ⟨-, -, hstop⟩ | ⟨-, -, hf⟩⟩
    · exact ⟨e, .inl rfl, hstop.of_db hlater.db⟩
    · exact ⟨_, .inr rfl, hstop.of_db hlater.db⟩
    · exact ⟨_, .inr rfl, hstop.of_db hlater.db⟩
    · exact hf.elim
  obtain ⟨⟨⟩, u₁, -, hu₁, hus₁⟩ | ⟨-, -, -, -, hf⟩ := run_of_wpc (hrun w₁ e₁ he₁ hw₁)
  swap
  · exact hf.elim
  refine repeats_of_ok hu₁ ?_
  refine ⟨w, u, ⟨rfl, le_rfl⟩, hu, ?_, ?_⟩
  · show suspensionRecord u.db r.executionId = suspensionRecord u₁.db r.executionId
    rw [hus.suspensionRecord, hus₁.suspensionRecord]
    rfl
  · simp [createWait_not_resumes, createWait_not_resumesWithin]

/-- The wait a call asks for that starts here. -/
abbrev newWait (env : Environment) (r : CreateWaitRequest) (e : Execution) (w : World) :
    ExecutionWait := r.wait e (env.uuid w.uuidsDrawn) (env.clock w.clockReads)

/-- The stages of a call that stores a new wait. -/
theorem createWait_stages (hs : SoundWaits w.db) (hr : r.AsksStore w.db e)
    (ht : w.db.waits.insert (.ofWait (newWait env r e w)) = some t) :
    (∀ k, r.Stage w.db e (newWait env r e w) t k
      ((program (createWait r)).stopAfter (handler env) isWrite k w)) ∧
    ∃ u, (program (createWait r)).run (handler env) w = (.ok (), u) ∧
      StoredAs r.executionId (e.suspendOn r.kind (newWait env r e w)) t u := by
  have hwpc : (program (createWait r)).wpc (handler env) isWrite
      (r.Stage w.db e (newWait env r e w) t)
      (fun _ m w' => m = 3 ∧ StoredAs r.executionId (e.suspendOn r.kind (newWait env r e w)) t w')
      (fun _ _ _ => False) 0 w := by
    refine wpc_program_createWait (Q := fun m w' => m = 3 ∧
      StoredAs r.executionId (e.suspendOn r.kind (newWait env r e w)) t w') hs hr fun w' hw' => ?_
    rw [← hw'] at hs hr ht ⊢
    exact wpc_storeWait_new hs hr ht
  constructor
  · intro k
    rcases wpc_stopped hwpc k with ⟨-, hstop⟩ | ⟨m, hm, ⟨-, -, rfl, hstop⟩ | ⟨-, -, hf⟩⟩
    · rwa [Nat.zero_add] at hstop
    · obtain ⟨j, rfl⟩ := Nat.exists_eq_add_of_le' (show 3 ≤ k by omega)
      exact hstop
    · exact hf.elim
  · obtain ⟨⟨⟩, u, -, hu, -, hus⟩ | ⟨-, -, -, -, hf⟩ := run_of_wpc hwpc
    · exact ⟨u, hu, hus⟩
    · exact hf.elim

/-- Once the wait is stored, a repetition finds it. -/
theorem findsPending_of_stage (hr : r.AsksStore w.db e)
    (ht : w.db.waits.insert (.ofWait (newWait env r e w)) = some t)
    (he₁ : e₁.status.isWaitCreationSource) {v : World} (hv : StoredAs r.executionId e₁ t v) :
    r.FindsPending v.db e₁ := by
  refine ⟨⟨hv.execution, he₁, hr.key, hr.deadline⟩, .ofWait (newWait env r e w), ?_, rfl⟩
  refine ⟨?_, rfl, rfl⟩
  rw [hv.waits]
  exact get_insert_self ht

/-- A repetition that finds the wait leaves the record as the stop left it. -/
theorem recovers_iff_of_stored (hs : SoundWaits w.db) (hr : r.AsksStore w.db e)
    (ht : w.db.waits.insert (.ofWait (newWait env r e w)) = some t) {k : ℕ}
    (he₁ : e₁.status.isWaitCreationSource)
    (hstop : StoredAs r.executionId e₁ t ((program (createWait r)).stopAfter (handler env)
      isWrite k w)) :
    (createWait r).Recovers env k w ↔ ∃ w₀ u, FoundLater w w₀ ∧
      (program (createWait r)).run (handler env) w₀ = (.ok (), u) ∧
      suspensionRecord u.db r.executionId = ⟨some e₁.status, e₁.metadata.activeWait,
        t.rows.select fun row => row.wait.executionId = r.executionId⟩ := by
  have hrun : ∀ w₁, FoundLater ((program (createWait r)).stopAfter (handler env)
      isWrite k w) w₁ → StoredAs r.executionId e₁ t w₁ ∧ ∃ u,
        (program (createWait r)).run (handler env) w₁ = (.ok (), u) ∧ u.db = w₁.db := by
    intro w₁ hlater
    have hw₁ := hstop.of_db hlater.db
    have hsw₁ : SoundWaits w₁.db := soundWaits_of_waits_eq
      (hs.insert (sound_ofWait (hr.valid _ _) rfl) ht) hw₁.waits
    exact ⟨hw₁, ((createWait_answers hsw₁ (findsPending_of_stage hr ht he₁ hw₁)).run rfl).1⟩
  constructor
  · intro h
    obtain ⟨hw₁, u₁, hu₁, hdb⟩ := hrun _ ⟨rfl, le_rfl⟩
    obtain ⟨w₀, u, hw₀, hu, hrec, -⟩ := (h _ ⟨rfl, le_rfl⟩).2 _ _ (.returned hu₁)
    refine ⟨w₀, u, hw₀, hu, hrec.trans ?_⟩
    rw [hdb]
    exact hw₁.suspensionRecord
  · rintro ⟨w₀, u, hw₀, hu, hrec⟩ w₁ hlater
    obtain ⟨hw₁, u₁, hu₁, hdb⟩ := hrun w₁ hlater
    refine repeats_of_ok hu₁ ?_
    refine ⟨w₀, u, hw₀, hu, hrec.trans ?_, ?_⟩
    · rw [hdb]
      exact hw₁.suspensionRecord.symm
    · simp [createWait_not_resumes, createWait_not_resumesWithin]

/-- **A new wait.**  The call recovers unless it is stopped between the write of the wait
and the write of the execution. -/
theorem createWait_recovers_new (hs : SoundWaits w.db) (hfresh : FreshIds env w)
    (hr : r.AsksStore w.db e) (hkey : ∀ row, ¬ StoredUnder w.db r.executionId r.key row) (k : ℕ) :
    (createWait r).Recovers env k w ↔ k ≠ 1 := by
  -- what an uninterrupted call does, now or later
  have huninterrupted : ∀ w₀, FoundLater w w₀ → ∃ t,
      w.db.waits.insert (.ofWait (newWait env r e w₀)) = some t ∧ r.AsksStore w₀.db e ∧
      SoundWaits w₀.db ∧ ∃ u, (program (createWait r)).run (handler env) w₀ = (.ok (), u) ∧
        StoredAs r.executionId (e.suspendOn r.kind (newWait env r e w₀)) t u := by
    intro w₀ hw₀
    obtain ⟨t, ht⟩ := hr.exists_insert hs hkey (hfresh.waits _ hw₀.uuidsDrawn)
      (env.clock w₀.clockReads)
    have hs₀ : SoundWaits w₀.db := hw₀.db ▸ hs
    have hr₀ : r.AsksStore w₀.db e := hw₀.db ▸ hr
    refine ⟨t, ht, hr₀, hs₀, ?_⟩
    rw [← hw₀.db] at ht
    exact (createWait_stages hs₀ hr₀ ht).2
  obtain ⟨t, ht, -, -, u, hu, hus⟩ := huninterrupted w ⟨rfl, le_rfl⟩
  have hstage := (createWait_stages hs hr ht).1 k
  match k, hstage with
  | 0, hstage =>
    -- nothing was written: the repetition is the uninterrupted call
    refine ⟨fun _ => by decide, fun _ w₁ hlater => ?_⟩
    have hw₁ := foundLater_of_stop hstage hlater
    obtain ⟨-, -, -, -, u₁, hu₁, -⟩ := huninterrupted w₁ hw₁
    refine repeats_of_ok hu₁ ?_
    exact ⟨w₁, u₁, hw₁, hu₁, rfl,
      by simp [createWait_not_resumes, createWait_not_resumesWithin]⟩
  | 1, hstage =>
    rw [recovers_iff_of_stored hs hr ht hr.source hstage]
    refine ⟨?_, fun h => absurd rfl h⟩
    rintro ⟨w₀, u₀, hw₀, hu₀, hrec⟩
    obtain ⟨t₀, ht₀, -, -, u₀', hu₀', hus₀⟩ := huninterrupted w₀ hw₀
    rw [hu₀] at hu₀'
    cases hu₀'
    rw [hus₀.suspensionRecord] at hrec
    injection hrec with _ hactive hwaits
    -- the two calls have stored one wait, so they have drawn one identifier
    have hmem : ofWait (newWait env r e w) ∈
        t₀.rows.select fun row => row.wait.executionId = r.executionId := by
      rw [hwaits]
      exact mem_select.mpr ⟨get_insert_self ht, by simp; rfl⟩
    have hget : t₀.get (env.uuid w.uuidsDrawn) = some (.ofWait (newWait env r e w)) :=
      (mem_select.mp hmem).1
    rw [get_insert ht₀] at hget
    split at hget
    next hid =>
      have hid' : env.uuid w.uuidsDrawn = env.uuid w₀.uuidsDrawn := hid
      exact absurd hid'.symm (hfresh.active w.uuidsDrawn _ e _ le_rfl hr.execution hactive.symm)
    · rw [hfresh.waits _ le_rfl] at hget
      cases hget
  | k + 2, hstage =>
    have hsource : (e.suspendOn r.kind (newWait env r e w)).status.isWaitCreationSource := by
      show (waitExecutionStatus r.kind).isWaitCreationSource
      cases r.kind <;> rfl
    rw [recovers_iff_of_stored hs hr ht hsource hstage]
    exact ⟨fun _ => by omega, fun _ => ⟨w, u, ⟨rfl, le_rfl⟩, hu, hus.suspensionRecord⟩⟩

end Create

/-! ### `resolve_wait` -/

section Resolve

variable {r : ResolveWaitRequest} {row : ExecutionWaitORM}

theorem resolveWait_answers (hs : SoundWaits db) (h : r.FindsResolved db row) :
    Answers env (resolveWait r) db := by
  rintro w rfl
  show Program.wpc _ _ _ _ _ (claimWait r >>= fun claim => pure _) 0 w
  rw [wpc_bind]
  refine wpc_claimWait hs (fun w' hw' => hw') (fun _ hno => absurd h (hno row)) ?_ ?_
  · exact fun _ _ m w' hw' => wpc_of_done ⟨rfl, hw'⟩
  · intro e row' t w' hr _ _ _
    obtain rfl := hr.row_eq h.toNames
    exact absurd hr.pending h.resolved

theorem resolveWait_refuses (hs : SoundWaits db) (hc : ∀ e row, ¬ r.Claims db e row)
    (hf : ∀ row, ¬ r.FindsResolved db row) : Refuses env (resolveWait r) db := by
  rintro w rfl
  show Program.wpc _ _ _ _ _ (claimWait r >>= fun claim => pure _) 0 w
  rw [wpc_bind]
  exact wpc_claimWait hs (fun w' hw' => hw') (fun _ _ _ _ w' hw' => hw')
    (fun row h => absurd h (hf row)) fun e row t w' h => absurd h (hc e row)

/-- The wait as a call that starts here resolves it, and the table it leaves. -/
abbrev resolvedWait (env : Environment) (r : ResolveWaitRequest) (row : ExecutionWaitORM)
    (w : World) : ExecutionWait := row.wait.resolve r.resolution (env.clock w.clockReads)

abbrev resolvedTable (env : Environment) (r : ResolveWaitRequest) (w : World) :
    ExecutionWaitTable := (w.db.waits.updatePending r.waitId r.resolution (env.clock w.clockReads)).2

/-- The stages of a call that claims its wait. -/
theorem resolveWait_stages (env : Environment) (hs : SoundWaits w.db) (hr : r.Claims w.db e row) :
    (∀ k, r.Stage w.db e (resolvedWait env r row w) (resolvedTable env r w) k
      ((program (resolveWait r)).stopAfter (handler env) isWrite k w)) ∧
    ∃ u, (program (resolveWait r)).run (handler env) w = (.ok (), u) ∧
      r.Stage w.db e (resolvedWait env r row w) (resolvedTable env r w) 4 u := by
  have hwpc : (program (resolveWait r)).wpc (handler env) isWrite
      (r.Stage w.db e (resolvedWait env r row w) (resolvedTable env r w))
      (fun _ m w' => ∀ k, m ≤ k →
        r.Stage w.db e (resolvedWait env r row w) (resolvedTable env r w) k w')
      (fun _ _ _ => False) 0 w := by
    rw [program, OpenAgency.resolveWait, wpc_bind, wpc_bind]
    refine wpc_mono (wpc_claimWait_stage hs hr rfl rfl) (fun m w' h => h.2) ?_
      (fun _ _ _ h => h)
    rintro ⟨wait, woken⟩ m w' ⟨rfl, rfl, hw'⟩
    exact wpc_mono (wpc_resumeWoken_stage hs hr rfl hw' wait) (fun _ _ h => h)
      (fun _ _ _ h => wpc_of_done h) (fun _ _ _ h => h)
  constructor
  · intro k
    rcases wpc_stopped hwpc k with ⟨-, hstop⟩ | ⟨m, hm, ⟨-, -, hstop⟩ | ⟨-, -, hf⟩⟩
    · rwa [Nat.zero_add] at hstop
    · exact hstop k (by omega)
    · exact hf.elim
  · obtain ⟨⟨⟩, u, m, hu, hus⟩ | ⟨-, -, -, -, hf⟩ := run_of_wpc hwpc
    · refine ⟨u, hu, ?_⟩
      have hlast := hus (max m 4) (le_max_left _ _)
      rw [ResolveWaitRequest.Stage, if_neg (by omega),
        wokenStage_last (le_max_right _ _)] at hlast
      rwa [ResolveWaitRequest.Stage, if_neg (by decide)]
    · exact hf.elim

/-- It invokes `resume` once it has made three writes, where it asks for that. -/
theorem resolveWait_resumes (env : Environment) (hs : SoundWaits w.db) (hr : r.Claims w.db e row) :
    ((resolveWait r).Resumes env w ↔ r.shouldResume) ∧
    ∀ k, (resolveWait r).ResumesWithin env k w ↔ r.shouldResume ∧ 3 ≤ k := by
  have hwpc : (beforeResume (resolveWait r)).wpc (handler env) isWrite
      (fun m _ => m < 3) (fun woken m _ => m = 3 ∧ woken = (some e).filter fun _ => r.shouldResume)
      (fun _ _ _ => False) 0 w := by
    rw [beforeResume, wpc_bind]
    refine wpc_mono (wpc_claimWait_stage hs hr rfl rfl) (fun m w' h => h.1) ?_
      (fun _ _ _ h => h)
    rintro claim m w' ⟨rfl, hclaim, -⟩
    exact wpc_of_done ⟨rfl, by rw [hclaim]⟩
  constructor
  · obtain ⟨woken, u, m, hu, -, rfl⟩ | ⟨-, -, -, -, hf⟩ := run_of_wpc hwpc
    · rw [Resumes, hu]
      rcases r.shouldResume with - | - <;> simp
    · exact hf.elim
  · intro k
    rcases wpc_stopped hwpc k with
      ⟨hnone, hlt⟩ | ⟨m, hm, ⟨woken, hended, rfl, rfl⟩ | ⟨-, -, hf⟩⟩
    · rw [ResumesWithin, hnone]
      simp only [reduceCtorEq, exists_false, false_iff]
      omega
    · rw [ResumesWithin, hended]
      rcases r.shouldResume with - | -
      · simp
      · simp only [Option.filter_some, if_true, Option.some.injEq, Except.ok.injEq,
          exists_eq', true_and, true_iff]
        omega
    · exact hf.elim

/-- Once the wait is claimed, a repetition finds it resolved under its own key. -/
theorem findsResolved_of_stage (hr : r.Claims w.db e row) {v : World}
    (hv : v.db.waits = resolvedTable env r w) :
    r.FindsResolved v.db (row.resolve r.resolution (env.clock w.clockReads)) := by
  refine ⟨hr.toAcceptable, ⟨?_, hr.of_execution⟩, ?_, rfl⟩
  · rw [hv]
    rcases w.db.waits.updatePending_cases r.waitId r.resolution (env.clock w.clockReads) with
      ⟨old, hold, -, -, hself, -⟩ | ⟨hnone, -⟩
    · cases hold.symm.trans hr.stored
      exact hself
    · exact absurd hr.pending (hnone row hr.stored)
  · exact ExecutionWaitStatus.isTerminal_iff.mp hr.terminal

/-- A repetition that finds the wait resolved leaves the record as the stop left it. -/
theorem recovers_iff_of_resolved (hs : SoundWaits w.db) (hr : r.Claims w.db e row) {k : ℕ}
    (hk : k ≠ 0) :
    (resolveWait r).Recovers env k w ↔ ∃ w₀ u, FoundLater w w₀ ∧
      (program (resolveWait r)).run (handler env) w₀ = (.ok (), u) ∧
      suspensionRecord u.db r.executionId =
        ⟨some (r.wokenStage e (resolvedWait env r row w) k).status,
          (r.wokenStage e (resolvedWait env r row w) k).metadata.activeWait,
          (resolvedTable env r w).rows.select fun row => row.wait.executionId = r.executionId⟩ ∧
      ((resolveWait r).Resumes env w₀ ↔ r.shouldResume ∧ 3 ≤ k) := by
  have hstop : StoredAs r.executionId (r.wokenStage e (resolvedWait env r row w) k)
      (resolvedTable env r w)
      ((program (resolveWait r)).stopAfter (handler env) isWrite k w) := by
    have hstage := (resolveWait_stages env hs hr).1 k
    rwa [ResolveWaitRequest.Stage, if_neg hk] at hstage
  have hwithin := (resolveWait_resumes env hs hr).2 k
  have hrun : ∀ w₁, FoundLater ((program (resolveWait r)).stopAfter (handler env)
      isWrite k w) w₁ → StoredAs r.executionId
        (r.wokenStage e (resolvedWait env r row w) k) (resolvedTable env r w) w₁ ∧
        (∃ u, (program (resolveWait r)).run (handler env) w₁ = (.ok (), u) ∧ u.db = w₁.db) ∧
        ¬ (resolveWait r).Resumes env w₁ := by
    intro w₁ hlater
    have hw₁ := hstop.of_db hlater.db
    exact ⟨hw₁, (resolveWait_answers (soundWaits_stage hs hr hw₁.waits)
      (findsResolved_of_stage hr hw₁.waits)).run rfl⟩
  constructor
  · intro h
    obtain ⟨hw₁, ⟨u₁, hu₁, hdb⟩, hnot⟩ := hrun _ ⟨rfl, le_rfl⟩
    obtain ⟨w₀, u, hw₀, hu, hrec, hresumes⟩ := (h _ ⟨rfl, le_rfl⟩).2 _ _ (.returned hu₁)
    refine ⟨w₀, u, hw₀, hu, hrec.trans ?_, hresumes.trans ?_⟩
    · rw [hdb]
      exact hw₁.suspensionRecord
    · simp [hwithin, hnot]
  · rintro ⟨w₀, u, hw₀, hu, hrec, hresumes⟩ w₁ hlater
    obtain ⟨hw₁, ⟨u₁, hu₁, hdb⟩, hnot⟩ := hrun w₁ hlater
    refine repeats_of_ok hu₁ ?_
    refine ⟨w₀, u, hw₀, hu, hrec.trans ?_, hresumes.trans ?_⟩
    · rw [hdb]
      exact hw₁.suspensionRecord.symm
    · simp [hwithin, hnot]

theorem waitExecutionStatus_ne (kind : ExecutionWaitKind) :
    waitExecutionStatus kind ≠ .queued ∧ waitExecutionStatus kind ≠ .paused := by
  cases kind <;> decide

/-- The status an execution has before the first, and after the last stage. -/
theorem status_wokenStage (hr : r.Claims w.db e row) (resolved : ExecutionWait) :
    (r.wokenStage e resolved 1).status = waitExecutionStatus row.wait.kind ∧
      (r.wokenStage e resolved 4).status = if r.shouldResume then .queued else .paused := by
  have hsuspended := hr.suspended
  simp only [Execution.isSuspendedOn, Bool.and_eq_true, decide_eq_true_eq] at hsuspended
  refine ⟨hsuspended.1, ?_⟩
  rcases h : r.shouldResume with - | - <;> simp [wokenStage, h,
    Execution.wakeFrom]

/-- **A claimed wait.**  The call recovers unless it is stopped between the claim and the
last change of the execution's status. -/
theorem resolveWait_recovers_claims (hs : SoundWaits w.db) (hr : r.Claims w.db e row) (k : ℕ) :
    (resolveWait r).Recovers env k w ↔ ¬ (k = 1 ∨ r.shouldResume ∧ (k = 2 ∨ k = 3)) := by
  obtain ⟨hstages, u, hu, hus⟩ := resolveWait_stages env hs hr
  rcases Nat.eq_zero_or_pos k with rfl | hk
  · -- nothing was written: the repetition is the uninterrupted call
    refine ⟨fun _ => by omega, fun _ w₁ hlater => ?_⟩
    have hw₁ := foundLater_of_stop (hstages 0) hlater
    have hs₁ : SoundWaits w₁.db := hw₁.db ▸ hs
    have hr₁ : r.Claims w₁.db e row := hw₁.db ▸ hr
    obtain ⟨-, u₁, hu₁, -⟩ := resolveWait_stages env hs₁ hr₁
    refine repeats_of_ok hu₁ ?_
    refine ⟨w₁, u₁, hw₁, hu₁, rfl, ?_⟩
    simp [(resolveWait_resumes env hs hr).2 0]
  · rw [recovers_iff_of_resolved hs hr (by omega)]
    constructor
    · rintro ⟨w₀, u₀, hw₀, hu₀, hrec, -⟩ hbad
      have hs₀ : SoundWaits w₀.db := hw₀.db ▸ hs
      have hr₀ : r.Claims w₀.db e row := hw₀.db ▸ hr
      obtain ⟨-, u₀', hu₀', hus₀⟩ := resolveWait_stages env hs₀ hr₀
      rw [hu₀] at hu₀'
      cases hu₀'
      have hus₀' : StoredAs r.executionId (r.wokenStage e (resolvedWait env r row w₀) 4)
        (resolvedTable env r w₀) u₀ := hus₀
      rw [hus₀'.suspensionRecord, (status_wokenStage hr₀ _).2] at hrec
      have hstatus := Option.some.inj (congrArg SuspensionRecord.status hrec)
      rcases hbad with rfl | ⟨hresume, rfl | rfl⟩
      · rw [(status_wokenStage hr _).1] at hstatus
        split at hstatus
        · exact absurd hstatus.symm (waitExecutionStatus_ne _).1
        · exact absurd hstatus.symm (waitExecutionStatus_ne _).2
      · rw [if_pos hresume] at hstatus
        cases hstatus
      · rw [if_pos hresume] at hstatus
        cases hstatus
    · intro hgood
      have hlast : r.wokenStage e (resolvedWait env r row w) k =
          r.wokenStage e (resolvedWait env r row w) 4 := by
        rcases Nat.lt_or_ge k 4 with hlt | hge
        · have hresume : r.shouldResume = false := by
            by_contra h
            exact hgood (by simp at h; simp [h]; omega)
          obtain rfl | rfl : k = 2 ∨ k = 3 := by omega
          · simp [wokenStage, hresume]
          · simp [wokenStage, hresume]
        · exact wokenStage_last hge
      have hus' : StoredAs r.executionId (r.wokenStage e (resolvedWait env r row w) 4)
        (resolvedTable env r w) u := hus
      refine ⟨w, u, ⟨rfl, le_rfl⟩, hu, ?_, ?_⟩
      · rw [hlast]
        exact hus'.suspensionRecord
      · rw [(resolveWait_resumes env hs hr).1, iff_self_and]
        intro hresume
        by_contra hlt
        exact hgood (by simp [hresume]; omega)

end Resolve

/-! ### Both calls -/

/-- **Crash and retry.**  A call that is stopped after `k` writes and then repeated leaves
what one uninterrupted call would have, unless the stop falls between the write of the
wait and the last write of the execution. -/
theorem recovers_iff (hs : SoundWaits w.db) (hfresh : FreshIds env w) (c : WakeCall) (k : ℕ) :
    c.Recovers env k w ↔ ¬ LosesSteps w.db k c := by
  cases c with
  | createWait r =>
    by_cases hask : ∃ e, r.AsksStore w.db e
    · obtain ⟨e, hr⟩ := hask
      by_cases hkey : ∃ row, StoredUnder w.db r.executionId r.key row
      · obtain ⟨row, hrow⟩ := hkey
        refine iff_of_true (createWait_recovers_old hs hr hrow k) ?_
        rintro ⟨-, -, -, hnone⟩
        exact hnone row hrow
      · rw [not_exists] at hkey
        rw [createWait_recovers_new hs hfresh hr hkey, not_iff_not]
        exact ⟨fun hk => ⟨hk, e, hr, hkey⟩, fun h => h.1⟩
    · rw [not_exists] at hask
      have hno : ¬ LosesSteps w.db k (createWait r) := fun ⟨_, e, hr, _⟩ => hask e hr
      by_cases hfound : ∃ e, r.FindsPending w.db e
      · obtain ⟨e, hf⟩ := hfound
        exact iff_of_true ((createWait_answers hs hf).recovers k) hno
      · rw [not_exists] at hfound
        exact iff_of_true ((createWait_refuses hs hask hfound).recovers k) hno
  | resolveWait r =>
    by_cases hclaims : ∃ e row, r.Claims w.db e row
    · obtain ⟨e, row, hr⟩ := hclaims
      rw [resolveWait_recovers_claims hs hr, not_iff_not]
      exact ⟨fun hk => ⟨⟨e, row, hr⟩, hk⟩, fun h => h.2⟩
    · have hno : ¬ LosesSteps w.db k (resolveWait r) := fun h => hclaims h.1
      simp only [not_exists] at hclaims
      by_cases hfound : ∃ row, r.FindsResolved w.db row
      · obtain ⟨row, hf⟩ := hfound
        exact iff_of_true ((resolveWait_answers hs hf).recovers k) hno
      · rw [not_exists] at hfound
        exact iff_of_true ((resolveWait_refuses hs hclaims hfound).recovers k) hno

end WakeCall

/-! ### A claim that is lost -/

namespace LostWake

def wait : ExecutionWait where
  id := 0
  executionId := 1
  kind := .input
  idempotencyKey := "question"
  createdAt := 0
  updatedAt := 0

/-- An execution that waits for its input. -/
def waiting : Execution where
  id := 1
  workflowId := "w"
  status := .waitingForInput
  metadata := { activeWait := some { waitId := 0, kind := .input } }

def world : World where
  db := { executions := empty.save waiting, waits := .singleton (.ofWait wait) }
  uuidsDrawn := 1

def answer : ResolveWaitRequest := { executionId := 1, waitId := 0, resolutionKey := "answer" }

theorem get_waits {i : Uuid} {row : ExecutionWaitORM} (h : world.db.waits.get i = some row) :
    i = 0 ∧ row = .ofWait wait := by
  have h' : (empty.save (ofWait wait)).get i = some row := h
  rw [get_save] at h'
  split at h'
  next hi =>
    cases h'
    exact ⟨hi, rfl⟩
  · cases h'

theorem sound : SoundWaits world.db := by
  intro i row h
  obtain ⟨-, rfl⟩ := get_waits h
  exact sound_ofWait (by decide) rfl

theorem fresh : FreshIds .silent world := by
  refine ⟨fun n hn => ?_, fun n x e a hn he ha hid => ?_⟩
  · rcases h : world.db.waits.get n with - | row
    · exact h
    · obtain ⟨rfl, -⟩ := get_waits h
      exact absurd hn (by decide)
  · have he' : (empty.save waiting).get x = some e := he
    rw [get_save] at he'
    split at he'
    · cases he'
      cases ha
      have hid' : (0 : ℕ) = n := hid
      have hn' : 1 ≤ n := hn
      omega
    · cases he'

theorem claims : answer.Claims world.db waiting (.ofWait wait) where
  terminal := rfl
  key := by decide
  fits := ⟨by decide, rfl⟩
  stored := rfl
  of_execution := rfl
  pending := rfl
  execution := rfl
  suspended := rfl
  native _ := rfl

end LostWake

open LostWake in
/-- Stopped after the resume has queued the execution, the call recovers. -/
theorem WakeCall.recovers_iff_queued : (WakeCall.resolveWait answer).Recovers .silent 4 world :=
  (WakeCall.recovers_iff sound fresh _ 4).mpr (by rintro ⟨-, h | ⟨-, h | h⟩⟩ <;> cases h)

open LostWake in
/-- Stopped right after the claim, the call is answered from the resolved wait ever after,
and the execution waits for good. -/
theorem WakeCall.claim_lost :
    ¬ ∀ (env : Environment) (w : World), SoundWaits w.db → FreshIds env w →
      ∀ (c : WakeCall) (k : ℕ), c.Recovers env k w := fun h =>
  (WakeCall.resolveWait_recovers_claims sound claims 1).mp
    (h .silent world sound fresh (.resolveWait answer) 1) (.inl rfl)

end OpenAgency
