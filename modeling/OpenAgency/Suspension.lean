/-
Suspension.lean

A suspended execution can be woken.  The link between an execution and the wait it
is suspended on lives in two records that different operations update, so the
invariant ties them together: while an execution waits for input or an event, or
sleeps, `active_wait` names a pending wait of the execution, of the kind its status
stands for.

Every command keeps the invariant as long as the store does not answer an old wait
for a new request: `create_execution_wait` finds a wait by its idempotency key
whatever its status and kind, so a key that was used before can suspend an execution
on a wait that nobody can resolve any more.
-/
import OpenAgency.WaitCalls

namespace OpenAgency

open Interaction Relational Program Table ExecutionStatus ExecutionWaitTable RunContext ExecutionWait

/-! ### The invariant -/

/-- The statuses of an execution that is suspended on a wait other than an approval. -/
def ExecutionStatus.isSuspended : ExecutionStatus → Bool
  | waitingForInput | waitingForEvent | sleeping => true
  | _ => false

/-- `active_wait` names a pending wait of the execution, of the kind that
`WAIT_EXECUTION_STATUS` maps to its status. -/
def NamesPendingWait (db : Database) (e : Execution) : Prop :=
  ∃ active row, e.metadata.activeWait = some active ∧ db.waits.get active.waitId = some row ∧
    row.wait.executionId = e.id ∧ row.wait.status = .pending ∧
    waitExecutionStatus row.wait.kind = e.status

/-- Execution `x` can be woken if it is suspended. -/
def CanBeWoken (db : Database) (x : Uuid) : Prop :=
  ∀ e, db.executions.get x = some e → e.status.isSuspended → NamesPendingWait db e

/-- Every suspended execution can be woken, but perhaps `x`. -/
structure SuspensionBut (x : Uuid) (db : Database) : Prop where
  sound : SoundWaits db
  woken : ∀ y, y ≠ x → CanBeWoken db y

/-- The suspension invariant. -/
structure Suspension (db : Database) : Prop where
  sound : SoundWaits db
  woken : ∀ x, CanBeWoken db x

variable {db : Database}

/-- Where no wait is stored and no execution is suspended, the invariant holds. -/
theorem suspension_of_no_waits (hw : db.waits = .empty)
    (he : ∀ x e, db.executions.get x = some e → e.status.isSuspended = false) :
    Suspension db := by
  refine ⟨fun i row hrow => ?_, fun x e hx hs => ?_⟩
  · rw [hw] at hrow
    cases hrow
  · rw [he x e hx] at hs
    cases hs

section Database

variable {db db' : Database} {x : Uuid} {e : Execution}

theorem namesPendingWait_of_waits_eq (h : NamesPendingWait db e) (hw : db'.waits = db.waits) :
    NamesPendingWait db' e := by
  obtain ⟨active, row, ha, hrow, hrest⟩ := h
  exact ⟨active, row, ha, by rw [hw]; exact hrow, hrest⟩

theorem Suspension.congr (h : Suspension db) (he : db'.executions = db.executions)
    (hw : db'.waits = db.waits) : Suspension db' := by
  refine ⟨soundWaits_of_waits_eq h.sound hw, fun x e hx hs => ?_⟩
  rw [he] at hx
  exact namesPendingWait_of_waits_eq (h.woken x e hx hs) hw

theorem Suspension.but (h : Suspension db) (x : Uuid) : SuspensionBut x db :=
  ⟨h.sound, fun y _ => h.woken y⟩

/-- Saving an execution that can be woken, or is not suspended, restores the
invariant. -/
theorem SuspensionBut.save (h : SuspensionBut e.id db)
    (he : e.status.isSuspended → NamesPendingWait db e) :
    Suspension { db with executions := db.executions.save e } := by
  refine ⟨h.sound, fun y e' hy hs => ?_⟩
  have hy' : (db.executions.save e).get y = some e' := hy
  rw [get_save] at hy'
  split at hy'
  · cases hy'
    exact he hs
  next hne => exact h.woken y hne e' hy' hs

theorem SuspensionBut.save_but (h : SuspensionBut e.id db) :
    SuspensionBut e.id { db with executions := db.executions.save e } := by
  refine ⟨h.sound, fun y hy e' hget hs => ?_⟩
  have hget' : (db.executions.save e).get y = some e' := hget
  rw [get_save_ne hy] at hget'
  exact h.woken y hy e' hget' hs

theorem Suspension.save (h : Suspension db) (he : e.status.isSuspended → NamesPendingWait db e) :
    Suspension { db with executions := db.executions.save e } := (h.but e.id).save he

/-- What happens to the waits of `x` concerns `x` only. -/
theorem SuspensionBut.frame (h : SuspensionBut x db) (hs : SoundWaits db')
    (he : db'.executions = db.executions) (hw : SameWaitsBut x db db') : SuspensionBut x db' := by
  refine ⟨hs, fun y hy e hget hsus => ?_⟩
  rw [he] at hget
  obtain ⟨active, row, ha, hrow, hx, hrest⟩ := h.woken y hy e hget hsus
  refine ⟨active, row, ha, (hw _ row ?_).mpr hrow, hx, hrest⟩
  rw [hx, key_of_get hget]
  exact hy

/-- A wait that is stored takes nothing away. -/
theorem Suspension.insert (h : Suspension db) {row : ExecutionWaitORM} {t : ExecutionWaitTable}
    (hrow : row.Sound) (ht : db.waits.insert row = some t) :
    Suspension { db with waits := t } := by
  refine ⟨h.sound.insert hrow ht, fun x e hx hs => ?_⟩
  obtain ⟨active, old, ha, hold, hrest⟩ := h.woken x e hx hs
  refine ⟨active, old, ha, ?_, hrest⟩
  show t.get _ = _
  rw [get_insert ht, if_neg, hold]
  intro hid
  have hrejects := rejects_of_insert ht
  simp [rejects, ← hid, hold] at hrejects

end Database

variable {row : ExecutionWaitORM}

variable {r : ExecutionWait.Resolution}

/-- Resolving a wait changes no wait of another execution. -/
theorem sameWaitsBut_of_resolvedInto {t : ExecutionWaitTable} {i : Uuid} {now : Time}
    (h : ResolvedInto db.waits t i row r now) :
    SameWaitsBut row.wait.executionId db { db with waits := t } := by
  intro j row' hne
  show t.get j = some row' ↔ _
  by_cases hj : j = i
  · subst hj
    rw [h.after, h.before]
    constructor
    · rintro ⟨⟩
      exact absurd rfl hne
    · rintro ⟨⟩
      exact absurd rfl hne
  · rw [h.others j hj]

theorem soundWaits_of_resolvedInto {t : ExecutionWaitTable} {i : Uuid} {now : Time}
    (hs : SoundWaits db) (h : ResolvedInto db.waits t i row r now)
    (hrow : (row.resolve r now).Sound) :
    SoundWaits { db with waits := t } := by
  intro j row' hj
  have hj' : t.get j = some row' := hj
  by_cases he : j = i
  · subst he
    rw [h.after] at hj'
    cases hj'
    exact hrow
  · rw [h.others j he] at hj'
    exact hs j row' hj'

/-! ### Coroutines that keep it -/

variable {env : Environment} {α β : Type}

/-- However the coroutine stops, the invariant holds again. -/
abbrev KeepsFrom (env : Environment) (p : Coroutine α) (w : World) : Prop :=
  p.wp (handler env) (fun _ w' => Suspension w'.db) (fun _ w' => Suspension w'.db) w

/-- The coroutine keeps the invariant. -/
def KeepsSuspension (env : Environment) (p : Coroutine α) : Prop :=
  ∀ w, Suspension w.db → KeepsFrom env p w

namespace KeepsSuspension

theorem done (a : α) : KeepsSuspension env (.done a) := fun _ h => wp_of_done h

theorem throw (e : RuntimeException) : KeepsSuspension env (.raise e : Coroutine α) :=
  fun _ h => wp_of_raise h

theorem bind {p : Coroutine α} {f : α → Coroutine β} (hp : KeepsSuspension env p)
    (hf : ∀ a, KeepsSuspension env (f a)) : KeepsSuspension env (p >>= f) := by
  intro w h
  rw [KeepsFrom]
  exact wp_seq (hp w h) fun a w' h' => hf a w' h'

theorem attempt {p : Coroutine α} (hp : KeepsSuspension env p) : KeepsSuspension env p.attempt := by
  intro w h
  rw [KeepsFrom, wp_attempt]
  exact hp w h

theorem ite (c : Prop) [Decidable c] {p q : Coroutine α} (hp : KeepsSuspension env p)
    (hq : KeepsSuspension env q) : KeepsSuspension env (if c then p else q) := by
  split
  · exact hp
  · exact hq

theorem ofExcept (r : Except RuntimeException α) : KeepsSuspension env (Program.ofExcept r) := by
  cases r with
  | ok a => exact done a
  | error e => exact throw e

/-- A single operation that keeps the invariant. -/
theorem op {o : RuntimeOp} (h : ∀ w, Suspension w.db → Suspension (handler env o w).2.db) :
    KeepsSuspension env (Program.perform (S := RuntimeSig) o) := fun w hw =>
  wp_of_perform (S := RuntimeSig) (h w hw)

theorem getExecution (x : Uuid) : KeepsSuspension env (OpenAgency.getExecution x) := op fun _ h => h

theorem process (o : ProcOp) : KeepsSuspension env (OpenAgency.process o) := op fun _ h => h

theorem utcNow : KeepsSuspension env OpenAgency.utcNow := op fun _ h => h

theorem updateExecution {e : Execution} (he : e.status.isSuspended = false) :
    KeepsSuspension env (OpenAgency.updateExecution e) :=
  op fun _ h => h.save fun hs => absurd hs (by simp [he])

theorem emit (st : NativeExecutionState) (t : ExecutionEventType) (labels : EventLabels) :
    KeepsSuspension env (OpenAgency.emit st t labels) := fun _ h =>
  wp_emit (fun _ _ hw => h.congr hw.executions hw.waits)
    (fun _ _ _ hw => h.congr hw.executions hw.waits)

theorem emitFromLog (x : Uuid) (workflowId : String) (t : ExecutionEventType) :
    KeepsSuspension env (OpenAgency.emitFromLog x workflowId t) := fun _ h =>
  wp_emitFromLog (fun _ hw => h.congr hw.executions hw.waits)
    (fun _ _ _ hw => h.congr hw.executions hw.waits)

theorem selectExecutionWaits (q : WaitQuery) :
    KeepsSuspension env (OpenAgency.selectExecutionWaits q) := fun _ h =>
  (wp_selectExecutionWaits h.sound q).mpr h

end KeepsSuspension

/-! ### Commands that leave an execution unsuspended -/

theorem keeps_requireExecutionAndState (x : Uuid) :
    KeepsSuspension env (requireExecutionAndState x) := by
  refine .bind (.getExecution x) fun row => ?_
  rcases row with - | e
  · exact .throw _
  · refine .bind (.process _) fun st => .bind ?_ fun _ => .done _
    exact fun _ h => wp_hydrateStatePosition fun _ hw => h.congr hw.executions hw.waits

theorem keeps_rejectUnresolvedWait (x : Uuid) : KeepsSuspension env (rejectUnresolvedWait x) := by
  refine .bind (.selectExecutionWaits _) fun pending => ?_
  rcases pending with - | ⟨wait, rest⟩
  · exact .done _
  · exact .throw _

theorem keeps_resolveAdapterForExecution (x : Uuid) :
    KeepsSuspension env (resolveAdapterForExecution x) := by
  refine .bind (.getExecution x) fun row => ?_
  rcases row with - | e
  · exact .throw _
  · exact .ite _ (.throw _) (.done _)

theorem keeps_resumeExecution (x : Uuid) : KeepsSuspension env (resumeExecution x) := by
  refine .bind (keeps_requireExecutionAndState x) fun ⟨e, st⟩ => ?_
  refine .bind (.ofExcept _) fun _ => .bind (.process _) fun _ => ?_
  exact .bind (.updateExecution rfl) fun _ => .bind (.emit _ _ _) fun _ => .done _

theorem keeps_queueStart (x : Uuid) : KeepsSuspension env (queueStart x) := by
  refine .bind (.getExecution x) fun row => ?_
  rcases row with - | e
  · exact .throw _
  · refine .bind (.ofExcept _) fun _ => .bind (keeps_rejectUnresolvedWait x) fun _ => ?_
    exact .bind (.updateExecution rfl) fun _ => .bind (.process _) fun _ => .done _

theorem keeps_resume (x : Uuid) : KeepsSuspension env (resume x) := by
  refine .bind (.getExecution x) fun row => ?_
  rcases row with - | e
  · exact .throw _
  · refine .bind (.ofExcept _) fun _ => .bind (keeps_rejectUnresolvedWait x) fun _ => ?_
    refine .bind (keeps_resolveAdapterForExecution x) fun _ => ?_
    refine .bind (keeps_resumeExecution x) fun resumed => ?_
    exact .ite _ (.bind (keeps_queueStart x) fun _ => .done _) (.done _)

theorem keeps_cancelExecution (x : Uuid) : KeepsSuspension env (cancelExecution x) := by
  refine .bind (keeps_requireExecutionAndState x) fun ⟨e, st⟩ => ?_
  dsimp only
  split
  · exact .bind (.process _) fun _ => .done _
  · exact .done _
  · exact .done _
  · refine .bind (.process _) fun _ => .bind .utcNow fun _ => ?_
    exact .bind (.updateExecution rfl) fun _ => .done _
  · refine .bind (.process _) fun _ => .bind .utcNow fun _ => .bind .utcNow fun _ => ?_
    exact .bind (.updateExecution rfl) fun _ => .bind (.emit _ _ _) fun _ => .done _

theorem cancelExecution_returns (x : Uuid) :
    (cancelExecution x).Returns fun e => e.status.isSuspended = false := by
  refine .bind fun ⟨e, st⟩ => ?_
  dsimp only
  split
  next hs => exact .bind fun _ => by simp [Program.Returns, hs, isSuspended]
  next hs => simp [Program.Returns, hs, isSuspended]
  next hs => simp [Program.Returns, hs, isSuspended]
  · exact .bind fun _ => .bind fun _ => .bind fun _ => rfl
  · exact .bind fun _ => .bind fun _ => .bind fun _ => .bind fun _ => .bind fun _ => rfl

/-! ### Pausing and cancelling -/

/-- The engine's pause leaves a suspended execution suspended. -/
theorem keeps_pauseExecution (x : Uuid) : KeepsSuspension env (pauseExecution x) := by
  intro w h
  rcases hrow : w.db.executions.get x with - | e
  · show Program.wp _ _ _ (requireExecutionAndState x >>= _) w
    rw [requireExecutionAndState, wp_bind, wp_getExecution, hrow]
    exact wp_of_raise h
  · rw [KeepsFrom, pauseExecution, wp_bind]
    apply wp_requireExecutionAndState hrow
    intro st w' _ hw'
    have h' : Suspension w'.db := h.congr hw'.executions hw'.waits
    show Program.wp _ _ _ (process _ >>= fun _ => updateExecution _ >>= fun _ => emit st _ >>= _) w'
    rw [wp_process, wp_updateExecution]
    refine KeepsSuspension.bind (.emit _ _ _) (fun _ => .done _) _ (h'.save fun hs => ?_)
    -- the status is written again only if the execution was suspended before
    have hdurable : e.status.isDurableWait := by
      by_contra hd
      simp [hd, isSuspended] at hs
    simp only [hdurable, if_true] at hs ⊢
    rw [← hw'.executions] at hrow
    exact h'.woken x e hrow hs

variable {w : World}

/-- Closing waits of `x` succeeds, changes no wait of another execution, and closes
something if one of them is pending. -/
theorem wp_closeWaits {x : Uuid} {reason : String} {waits : List ExecutionWait}
    (hs : SoundWaits w.db)
    (hx : ∀ wait ∈ waits, ∃ row, w.db.waits.get wait.id = some row ∧ row.wait.executionId = x) :
    (closeWaits reason waits).wp (handler env)
      (fun closed w' => SoundWaits w'.db ∧ w'.db.executions = w.db.executions ∧
        SameWaitsBut x w.db w'.db ∧
        ((∃ wait ∈ waits, ∃ row, w.db.waits.get wait.id = some row ∧
          row.wait.status = .pending) → closed ≠ []))
      (fun _ _ => False) w := by
  induction waits generalizing w with
  | nil => exact wp_of_done ⟨hs, rfl, .refl _ _, by simp⟩
  | cons wait rest ih =>
    rw [List.forall_mem_cons] at hx
    rw [closeWaits, wp_bind]
    obtain ⟨row, hrow, hrx⟩ := hx.1
    apply wp_resolveExecutionWait hs (r := closingResolution reason wait) rfl
    · intro _ row' t ht hsound
      obtain rfl : row = row' := Option.some.inj (hrow.symm.trans ht.before)
      have hs' := soundWaits_of_resolvedInto hs ht hsound
      have hx' : ∀ wait ∈ rest, ∃ row, t.get wait.id = some row ∧ row.wait.executionId = x := by
        intro wait' hwait'
        obtain ⟨row', hrow', hrx'⟩ := hx.2 wait' hwait'
        by_cases hid : wait'.id = wait.id
        · exact ⟨row.resolve _ _, by rw [hid, ht.after], hrx⟩
        · exact ⟨row', by rw [ht.others _ hid, hrow'], hrx'⟩
      refine wp_seq (ih (w := ⟨_, _, _, _, _⟩) hs' hx') ?_
      rintro closed w' ⟨hsound', he, hw, -⟩
      exact wp_of_done ⟨hsound', he, (hrx ▸ sameWaitsBut_of_resolvedInto ht).trans hw, by simp⟩
    · intro _ row' hrow' hne
      obtain rfl : row = row' := Option.some.inj (hrow.symm.trans hrow')
      refine wp_seq (ih (w := ⟨_, _, _, _, _⟩) hs hx.2) ?_
      rintro closed w' ⟨hsound', he, hw, hclosed⟩
      refine wp_of_done ⟨hsound', he, hw, ?_⟩
      rintro ⟨wait', hwait', row', hrow'', hp⟩
      rcases List.mem_cons.mp hwait' with rfl | hwait'
      · rw [hrow] at hrow''
        cases hrow''
        exact absurd hp hne
      · simpa using hclosed ⟨wait', hwait', row', hrow'', hp⟩
    · intro hnone
      simp [hnone] at hrow
    · exact fun hlong => absurd ⟨by simp [closingResolution, takeChars], rfl⟩ hlong

/-- Closing the pending waits of an execution leaves only that execution in doubt,
and none where it is set to `PAUSED` and had such a wait. -/
theorem wp_closePendingWaits (h : Suspension w.db) (e : Execution) (reason : String)
    (kind : Option ExecutionWaitKind) (setPaused : Bool) :
    (closePendingWaits e reason kind setPaused).wp (handler env)
      (fun _ w' => SuspensionBut e.id w'.db ∧
        (setPaused → (∃ wait ∈ (WaitQuery.ofExecution e.id (some .pending)).waits w.db,
          kind.all (· = wait.kind)) → Suspension w'.db))
      (fun _ _ => False) w := by
  rw [closePendingWaits, wp_bind, listPendingWaits, wp_selectExecutionWaits h.sound,
    wp_bind]
  have hstored : ∀ wait ∈ ((WaitQuery.ofExecution e.id (some .pending)).waits w.db).filter
      fun w => kind.all (· = w.kind), ∃ row, w.db.waits.get wait.id = some row ∧
        row.wait.executionId = e.id := by
    intro wait hwait
    obtain ⟨row, hget, rfl, hx, -⟩ := mem_waits_pending.mp (List.mem_filter.mp hwait).1
    exact ⟨row, hget, hx⟩
  refine wp_mono (wp_closeWaits h.sound hstored) ?_ (fun _ _ hf => hf)
  rintro closed w' ⟨hsound, he, hframe, hclosed⟩
  have hbut : SuspensionBut e.id w'.db := (h.but e.id).frame hsound he hframe
  rcases hlast : closed.getLast? with - | last
  · refine wp_of_done ⟨hbut, fun _ hex => ?_⟩
    obtain ⟨wait, hwait, hkind⟩ := hex
    obtain ⟨row, hget, rfl, -, hp⟩ := mem_waits_pending.mp hwait
    exact absurd (List.getLast?_eq_none_iff.mp hlast)
      (hclosed ⟨row.wait, List.mem_filter.mpr ⟨hwait, hkind⟩, row, hget, hp⟩)
  · rw [wp_updateExecution_last]
    refine ⟨?_, fun hp _ => ?_⟩
    · exact SuspensionBut.save_but (e := e.withClosedWaits closed last setPaused) hbut
    · refine SuspensionBut.save (e := e.withClosedWaits closed last setPaused) hbut fun hs => ?_
      simp [Execution.withClosedWaits, hp, isSuspended] at hs

theorem keeps_pause (x : Uuid) : KeepsSuspension env (pause x) := by
  intro w h
  rw [KeepsFrom, pause, wp_getExecution]
  rcases hrow : w.db.executions.get x with - | e
  · exact wp_of_raise h
  · obtain rfl : e.id = x := key_of_get hrow
    have hrest : KeepsSuspension env (do
        resolveAdapterForExecution e.id
        pauseExecution e.id) :=
      .bind (keeps_resolveAdapterForExecution _) fun _ => keeps_pauseExecution _
    by_cases hs : e.status = .sleeping
    · simp only [hs, if_true]
      refine wp_then (wp_closePendingWaits h e _ _ _) ?_ (fun _ _ hf => hf.elim)
      rintro - w' ⟨-, hsus⟩
      -- a sleeping execution sleeps on a pending sleep wait, which is closed
      obtain ⟨active, row, -, hget, hx, hp, hkind⟩ := h.woken _ e hrow (by simp [hs, isSuspended])
      have hsleep : row.wait.kind = .sleep := by
        rw [hs] at hkind
        cases hk : row.wait.kind <;> simp [hk, waitExecutionStatus] at hkind ⊢
      have hid : row.id = active.waitId := key_of_get (t := w.db.waits.rows) hget
      refine hrest w' (hsus rfl ⟨row.wait, mem_waits_pending.mpr ⟨row, ?_, rfl, hx, hp⟩, ?_⟩)
      · rw [← hid] at hget
        exact hget
      · simp [hsleep]
    · simp only [hs, if_false]
      exact hrest w h

theorem keeps_cancel (x : Uuid) : KeepsSuspension env (cancel x) := by
  intro w h
  rw [KeepsFrom, cancel, wp_getExecution]
  rcases hrow : w.db.executions.get x with - | e
  · exact wp_of_raise h
  · obtain rfl : e.id = x := key_of_get hrow
    show Program.wp _ _ _ (if e.status.isTerminal || e.status = .cancelling then _ else _) w
    rw [wp_ite]
    split
    · exact wp_of_done h
    · refine wp_then (wp_closePendingWaits h e _ _ _) ?_ (fun _ _ hf => hf.elim)
      rintro - w' ⟨hbut, -⟩
      rw [wp_getExecution, wp_bind]
      apply wp_partialResultPreservationSnapshot
      intro preservation w'' hdb
      have hid : ((w'.db.executions.get e.id).getD e).id = e.id := by
        rcases hcur : w'.db.executions.get e.id with - | current
        · rfl
        · exact key_of_get hcur
      rw [wp_updateExecution]
      -- from here on the execution is not suspended
      refine KeepsSuspension.bind (keeps_resolveAdapterForExecution _) (fun _ w₃ h₃ => ?_) _ ?_
      · rw [KeepsFrom]
        refine wp_then (wp_and (keeps_cancelExecution _ w₃ h₃)
          (wp_of_returns (cancelExecution_returns _) w₃)) ?_ (fun _ _ hf => hf.1)
        rintro cancelled w₄ ⟨h₄, hcancelled⟩
        rcases preservation with - | snapshot
        · exact wp_of_done h₄
        · show Program.wp _ _ _ (updateExecution _ >>= _) w₄
          rw [wp_updateExecution]
          exact wp_of_done (h₄.save fun hs => absurd hs (by simp [hcancelled]))
      · rw [hdb]
        have hbut' : SuspensionBut ((w'.db.executions.get e.id).getD e).id w'.db := by
          rw [hid]
          exact hbut
        exact SuspensionBut.save hbut' (fun hs => by cases hs)

/-! ### Waking -/

variable {e : Execution}

/-- The claimed execution is moved to `PAUSED`, which nothing has to wake. -/
theorem keeps_wakeExecution (h : SuspensionBut e.id w.db) (resolved : ExecutionWait) :
    KeepsFrom env (wakeExecution e resolved) w := by
  rw [KeepsFrom, wakeExecution, wp_updateExecution]
  refine KeepsSuspension.emitFromLog _ _ _ _ ?_
  exact SuspensionBut.save (e := e.wakeFrom resolved) h fun hs => by cases hs

theorem keeps_claimWait (r : ResolveWaitRequest) : KeepsSuspension env (claimWait r) := by
  intro w h
  have hsame : ∀ w' : World, w'.db = w.db → Suspension w'.db := fun _ hdb => hdb ▸ h
  refine wp_of_wpc_true (wpc_claimWait h.sound (fun _ _ => trivial)
    (fun _ _ _ _ => hsame) (fun _ _ _ => hsame) fun e row t w' hr hinto hsound hdb => ?_)
  refine wpc_of_wp (keeps_wakeExecution ?_ _)
  have hxe : e.id = r.executionId := key_of_get hr.execution
  rw [hdb]
  refine (h.but e.id).frame (soundWaits_of_resolvedInto h.sound hinto hsound) rfl ?_
  rw [hxe, ← hr.of_execution]
  exact sameWaitsBut_of_resolvedInto hinto

theorem keeps_resolveWait (r : ResolveWaitRequest) : KeepsSuspension env (resolveWait r) := by
  refine .bind (keeps_claimWait r) fun ⟨wait, woken⟩ => ?_
  rcases woken with - | e
  · exact .done _
  · exact .ite _ (.bind (keeps_resume _) fun _ => .done _) (.done _)

theorem keeps_wakeEach (request : ExecutionWait → ResolveWaitRequest)
    (waits : List ExecutionWait) : KeepsSuspension env (wakeEach request waits) := by
  induction waits with
  | nil => exact .done _
  | cons wait rest ih =>
    exact .bind (.attempt (keeps_resolveWait _)) fun _ => .bind ih fun _ => .done _

theorem keeps_wakeDueWaits (now : Option Time) (limit : ℤ) :
    KeepsSuspension env (wakeDueWaits now limit) := by
  have hrest : ∀ current, KeepsSuspension env (do
      let expired ← selectExecutionWaits (.expired current limit)
      let expiredItems ← wakeEach deadlineRequest expired
      let due ← selectExecutionWaits (.due current limit)
      let dueItems ← wakeEach timerRequest due
      return expiredItems ++ dueItems) := by
    intro current
    refine .bind (.selectExecutionWaits _) fun _ => .bind (keeps_wakeEach _ _) fun _ => ?_
    exact .bind (.selectExecutionWaits _) fun _ => .bind (keeps_wakeEach _ _) fun _ => .done _
  rcases now with - | t
  · exact .bind .utcNow hrest
  · exact .bind (.done t) hrest

theorem keeps_wakeEvent (r : WakeEventRequest) : KeepsSuspension env (wakeEvent r) := by
  refine .ite _ (.throw _) (.ite _ (.throw _) ?_)
  exact .bind (.selectExecutionWaits _) fun _ => keeps_wakeEach _ _

/-! ### Creating waits -/

/-- A call that asks the store for a wait other than an approval asks under a key
that the execution has not used yet. -/
def CreateWaitRequest.UsesFreshKey (r : CreateWaitRequest) (db : Database) : Prop :=
  r.kind ≠ .approval → ∀ e, r.AsksStore db e → ∀ row, ¬ StoredUnder db r.executionId r.key row

theorem keeps_createWaitConflict (r : CreateWaitRequest) (exc : RuntimeException) :
    KeepsSuspension env (createWaitConflict r exc) := by
  refine .ite _ (.throw _) (.bind (.selectExecutionWaits _) fun pending => ?_)
  rcases pending with - | ⟨existing, rest⟩
  · exact .throw _
  · exact .ite _ (.done _) (.throw _)

/-- What is saved after a new wait has been stored. -/
theorem namesPendingWait_suspendOn {kind : ExecutionWaitKind} {wait : ExecutionWait}
    (hrow : db.waits.get wait.id = some row) (hwait : row.wait = wait)
    (hx : wait.executionId = e.id) (hp : wait.status = .pending) (hkind : wait.kind = kind) :
    NamesPendingWait db (e.suspendOn kind wait) := by
  subst hwait
  exact ⟨_, row, rfl, hrow, hx, hp, by rw [hkind]; rfl⟩

theorem keeps_storeWait (h : Suspension w.db) {r : CreateWaitRequest} (hr : r.AsksStore w.db e)
    (hfresh : r.kind ≠ .approval → ∀ row, ¬ StoredUnder w.db r.executionId r.key row) (id : Uuid)
    (now : Time) : KeepsFrom env (storeWait r e (r.wait e id now)) w := by
  have hid : e.id = r.executionId := key_of_get hr.execution
  have hvalid := hr.valid id now
  rw [KeepsFrom, storeWait, wp_bind, wp_attempt]
  refine wp_createExecutionWait h.sound hvalid rfl ?_ ?_ ?_
  · intro t ht
    show Program.wp _ _ _ (updateExecution _ >>= _) _
    rw [wp_updateExecution]
    refine KeepsSuspension.bind (.emitFromLog _ _ _) (fun _ => .done _) _ ?_
    have hins := h.insert (ExecutionWaitORM.sound_ofWait hvalid rfl) ht
    refine hins.save fun _ => ?_
    exact namesPendingWait_suspendOn (get_insert_self ht) rfl hid.symm rfl rfl
  · intro row hrow
    -- the store has answered an old wait: only an approval may be suspended on it
    have hkind : r.kind = .approval := by
      by_contra hne
      exact hfresh hne row hrow
    show Program.wp _ _ _ (updateExecution _ >>= _) _
    rw [wp_updateExecution]
    refine KeepsSuspension.bind (.emitFromLog _ _ _) (fun _ => .done _) _ ?_
    refine h.save fun hs => absurd hs ?_
    simp [Execution.suspendOn, hkind, waitExecutionStatus, isSuspended]
  · intro _ exc _
    exact keeps_createWaitConflict r exc _ h

theorem keeps_createWait (h : Suspension w.db) {r : CreateWaitRequest}
    (hfresh : r.UsesFreshKey w.db) : KeepsFrom env (createWait r) w := by
  have hsame : ∀ w' : World, w'.db = w.db → Suspension w'.db := fun _ hdb => hdb ▸ h
  refine wp_of_wpc_true (wpc_createWait h.sound (fun _ _ _ => hsame)
    (fun _ _ _ => hsame) fun e w' hr hdb => ?_)
  rw [← hdb] at h hr hfresh
  exact wpc_of_wp (keeps_storeWait h hr (fun hkind => hfresh hkind e hr) _ _)

/-! ### Scheduling a cycle -/

/-- The execution sleeping on the wait of its next cycle. -/
def Execution.sleepOn (e : Execution) (wait : ExecutionWait) (wakeAt : Time) : Execution :=
  { e with
    status := .sleeping
    metadata.activeWait := some {
      waitId := wait.id
      kind := wait.kind
      createdAt := some wait.createdAt
      wakeAt := some wakeAt } }

variable {run : RunContext}

/-- The cycle's object is saved sleeping on a pending sleep wait. -/
theorem keeps_saveSleeping {wait : ExecutionWait} (wakeAt : Time) (h : Suspension w.db)
    (hobj : ObjectIs w run.ref e) (hrow : w.db.waits.get wait.id = some row)
    (hwait : row.wait = wait) (hx : wait.executionId = e.id) (hp : wait.status = .pending)
    (hkind : wait.kind = .sleep) :
    KeepsFrom env (do
      run.modifyObject fun e => e.sleepOn wait wakeAt
      saveObject run.ref
      run.emit .executionWaiting) w := by
  rw [KeepsFrom, modifyObject]
  refine wp_modifyObject hobj _ fun w' hdb hobj' => ?_
  rw [wp_bind]
  refine wp_saveObject hobj' fun _ => ?_
  refine KeepsSuspension.bind (.emit _ _ _) (fun _ => .done _) _ ?_
  subst hwait
  rw [← hdb] at h hrow
  exact h.save fun _ => ⟨_, row, rfl, hrow, hx, hp, by rw [hkind]; rfl⟩

/-- `_schedule_persistent_cycle` waits under the number of the next cycle. -/
def Execution.cycleKey (e : Execution) : String :=
  let next := e.metadata.persistentCycle.number + 1
  s!"persistent-cycle:{next}"

/-- What is stored under the key is a pending sleep. -/
def FindsPendingSleep (db : Database) (x : Uuid) (key : String) : Prop :=
  ∀ row, StoredUnder db x key row → row.wait.status = .pending ∧ row.wait.kind = .sleep

theorem keeps_sleepUntilCycle {next : ℕ} (h : Suspension w.db) (hobj : ObjectIs w run.ref e)
    (hkey : FindsPendingSleep w.db e.id s!"persistent-cycle:{next}") (wakeAt : Time)
    (reason : String) :
    KeepsFrom env (sleepUntilCycle run next wakeAt reason) w := by
  rw [KeepsFrom, sleepUntilCycle, object, wp_object hobj, wp_bind,
    newExecutionWait, wp_uuid4, wp_utcNow]
  rcases hval : validateLifecycle _ with exc | wait
  · exact wp_of_raise h
  · obtain ⟨hvalid, hwait⟩ := valid_of_validateLifecycle hval
    rw [fillResolvedAt_of_pending rfl] at hwait
    subst hwait
    refine wp_of_done ?_
    rw [wp_bind, createCycleWait, wp_rescue]
    refine wp_createExecutionWait
      (w := { w with clockReads := w.clockReads + 1, uuidsDrawn := w.uuidsDrawn + 1 })
      h.sound hvalid rfl ?_ ?_ ?_
    · intro t ht
      have hins := h.insert (ExecutionWaitORM.sound_ofWait hvalid rfl) ht
      exact keeps_saveSleeping wakeAt hins hobj (get_insert_self ht) rfl rfl rfl rfl
    · intro row hrow
      obtain ⟨hp, hkind⟩ := hkey row hrow
      exact keeps_saveSleeping wakeAt h hobj hrow.1 rfl hrow.2.1 hp hkind
    · intro _ exc hexc
      show Program.wp _ _ _ (if !exc.cls.isValueError then _ else _) _
      rw [wp_ite, if_pos (by rw [hexc]; rfl)]
      exact wp_of_raise h

theorem keeps_schedulePersistentCycle (h : Suspension w.db) (hobj : ObjectIs w run.ref e)
    (hkey : FindsPendingSleep w.db e.id e.cycleKey) (cycleOutput : CycleOutput) (delay : ℚ)
    (reason : String) :
    KeepsFrom env (schedulePersistentCycle run cycleOutput delay reason) w := by
  rw [KeepsFrom, schedulePersistentCycle, object, wp_object hobj, wp_utcNow]
  refine wp_modifyObject (w := { w with clockReads := w.clockReads + 1 }) hobj _ fun w₁ hdb₁ hobj₁ => ?_
  rw [wp_bind]
  refine wp_resetCycleCheckpoint hobj₁ fun w₂ hdb₂ hobj₂ => ?_
  rw [modifyObject]
  refine wp_modifyObject hobj₂ _ fun w₃ hdb₃ hobj₃ => ?_
  rw [wp_bind]
  refine wp_saveObject hobj₃ fun hobj₄ => ?_
  have hdb : w₃.db = w.db := (hdb₃.trans hdb₂).trans hdb₁
  refine keeps_sleepUntilCycle (w := ⟨_, _, _, _, _⟩) ?_ hobj₄ ?_ _ _
  · rw [hdb]
    exact h.save fun hs => by cases hs
  · rw [hdb]
    exact hkey

end OpenAgency
