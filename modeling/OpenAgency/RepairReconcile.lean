/-
RepairReconcile.lean

The stale repair and the reconciler, one after the other.

The repair removes the container of an execution that it requeues, and leaves the row linked
to it.  For the reconciler a row that is linked to a container the daemon does not have has
lost it.  So the next pass fails what the repair has requeued: the row is followed through
both loops (`wp_collect_turn`), in which every other turn leaves it alone (`get_aside`).
-/
import OpenAgency.JanitorRuns

namespace OpenAgency

open Interaction Relational Program Table Execution

variable {x : Uuid} {e e' : Execution} {h h' : Host} {env : Environment}
  {denv : DockerEnvironment}

/-! ### One row -/

/-- The row of the execution `x`. -/
abbrev Row (x : Uuid) (e : Execution) (h : Host) : Prop := h.1.db.executions.get x = some e

theorem Row.id (hrow : Row x e h) : e.id = x := key_of_get hrow

/-- Another execution's turn concerns another row. -/
theorem Other.of_ne (hid : e.id ≠ x) : Other x none e :=
  ⟨hid, fun _ h => absurd h (Option.some_ne_none _).symm⟩

variable {link : Option String}

/-- What is stored of `x` stays. -/
theorem get_spared {r : Option Execution} {o : HostSig.Op} (hget : h.1.db.executions.get x = r)
    (ho : Spared x link o) :
    (hostHandler env denv o h).2.1.db.executions.get x = r := by
  obtain ⟨w, d⟩ := h
  rcases o with (o | o | o | - | -) | o
  · by_cases hupdate : ∃ e', o = .updateExecution e'
    · obtain ⟨e', rfl⟩ := hupdate
      have hother : Other x link e' := ho
      exact (get_save_ne (Ne.symm hother.id)).trans hget
    · show (o.exec w.db).2.executions.get x = r
      rw [DbOp.exec_executions (fun e' he' => hupdate ⟨e', he'⟩) w.db]
      exact hget
  all_goals exact hget

/-- What leaves the execution alone keeps its row. -/
theorem get_aside {α : Type} {p : HostRun α} {r : Option Execution}
    (hget : h.1.db.executions.get x = r) (hp : Aside x link p) :
    p.wp (hostHandler env denv) (fun _ h => h.1.db.executions.get x = r) (fun _ _ => True) h := by
  refine wp_mono (Program.Within.invariant (I := fun h => h.1.db.executions.get x = r)
    (fun _ _ hget' ho => ⟨trivial, get_spared hget' ho⟩) hp hget) ?_ ?_
  · exact fun _ _ h => h
  · exact fun _ _ _ => trivial

/-! ### The repair -/

/-- The cleanup keeps the status and the link. -/
structure SameLink (e e' : Execution) : Prop where
  id : e'.id = e.id
  status : e'.status = e.status
  containerId : e'.containerId = e.containerId

theorem SameLink.refl (e : Execution) : SameLink e e := ⟨rfl, rfl, rfl⟩

theorem sameLink_removed (e : Execution) (c : RuntimeContainerState) (endedAt : Time) :
    SameLink e (e.withRemoved c endedAt) := ⟨rfl, rfl, rfl⟩

section Repair

variable {cfg : StaleRepairConfig} {scope : RepairScope} {st : NativeExecutionState}

theorem wp_repairContainer (a : RepairAction) (h : Host) :
    (repairContainer a e st).wp (hostHandler env denv)
      (fun progress _ => SameLink e progress.execution) (fun _ _ => True) h := by
  unfold repairContainer
  split
  · exact wp_of_done (SameLink.refl e)
  · unfold cleanupStaleExecutionContainer
    split
    · exact wp_of_done (SameLink.refl e)
    · rw [cleanupLinked]
      refine wp_skip (fun inspected h₁ => ?_) h
      rcases inspected with exc | inspected
      · exact wp_of_done (SameLink.refl e)
      · show Program.wp _ _ _ (cleanupInspected e st _ inspected) h₁
        rw [cleanupInspected]
        refine wp_skip (fun stopped h₂ => ?_) h₁
        rcases stopped with exc | c
        · exact wp_of_done (SameLink.refl e)
        · obtain ⟨w₂, d₂⟩ := h₂
          apply wp_lift
          rw [recordCleanup]
          refine wp_skip (fun endedAt w₃ => ?_) w₂
          refine wp_skip (fun emitted w₄ => ?_) w₃
          rcases emitted with exc | st'
          · exact wp_of_done (sameLink_removed e c endedAt)
          · exact wp_of_done (sameLink_removed e c endedAt)

/-- A row that is queued and linked as `e` was. -/
def Requeued (e : Execution) (h : Host) : Prop :=
  ∃ e', Row e.id e' h ∧ e'.status = .queued ∧ e'.containerId = e.containerId

theorem wp_recordRepair {progress : RepairProgress} {a : RepairAction}
    {preservation : Option PartialResultPreservation} {repair : Time → StaleRepair} {w : World} :
    (recordRepair progress a preservation repair).wp (handler env)
      (fun _ w' => ∃ r, Stores (progress.execution.released a preservation r) w')
      (fun _ _ => True) w := by
  rw [recordRepair]
  refine wp_skip (fun repairedAt w₁ => ?_) w
  refine wp_skip (fun _ w₂ => ?_) w₁
  apply wp_save
  intro w₃ hrow _
  rw [wp_bind, emitHeld, wp_bind]
  apply wp_appendEvent
  · intro event w₄ hrecords
    exact wp_of_done (wp_of_done ⟨_, hrow.of_sameRecords hrecords⟩)
  · exact fun _ _ _ _ => trivial

/-- What the repair requeues is queued, and linked as before. -/
theorem wp_repairExecution_requeued (age : ℕ) (h : Host) :
    (repairExecution cfg e age).wp (hostHandler env denv)
      (fun r h' => r.executionId = e.id ∧ (r.repairAction = .requeued → Requeued e h'))
      (fun _ _ => True) h := by
  rw [repairExecution]
  refine wp_skip (fun completedAt h₁ => ?_) h
  refine wp_skip (fun preservation h₂ => ?_) h₁
  refine wp_skip (fun st h₃ => ?_) h₂
  refine wp_seq (wp_repairContainer _ h₃) fun progress h₄ hlink => ?_
  refine wp_skip (fun expired h₅ => ?_) h₄
  obtain ⟨w₅, d₅⟩ := h₅
  apply wp_lift_bind
  refine wp_post wp_recordRepair fun _ w₆ hrow => ?_
  obtain ⟨r, hrow⟩ := hrow
  apply wp_of_done
  refine ⟨rfl, fun haction => ⟨progress.execution.released
    (.of e.status (hasCompletedWorkflowCheckpoint cfg.engine e)) preservation r, ?_, ?_, ?_⟩⟩
  · have hid : progress.execution.id = e.id := hlink.id
    rw [← hid]
    exact hrow
  · have hstatus : progress.execution.status =
        (RepairAction.of e.status (hasCompletedWorkflowCheckpoint cfg.engine e)).status :=
      hlink.status
    have hrequeued : RepairAction.of e.status (hasCompletedWorkflowCheckpoint cfg.engine e) =
      .requeued := haction
    rw [hrequeued] at hstatus
    exact hstatus
  · exact hlink.containerId

/-- What the turn of an execution returns is about this execution. -/
theorem wp_repairListed_own (h : Host) :
    (repairListed cfg scope e).wp (hostHandler env denv)
      (fun rs h' => ∀ r ∈ rs, r.executionId = e.id ∧ (r.repairAction = .requeued → Requeued e h'))
      (fun _ _ => True) h := by
  unfold repairListed
  split
  · refine wp_skip (fun now h₁ => ?_) h
    unfold repairIfStale
    split
    · refine wp_seq (wp_repairExecution_requeued _ h₁) fun r h₂ hr => ?_
      apply wp_of_done
      intro r' hr'
      rw [List.mem_singleton.mp hr']
      exact hr
    · exact wp_of_done fun r hr => absurd hr List.not_mem_nil
  · exact wp_of_done fun r hr => absurd hr List.not_mem_nil

/-- A program that leaves `e` alone keeps it requeued. -/
theorem Requeued.aside {α : Type} {p : HostRun α} (hq : Requeued e h) (hp : Aside e.id link p) :
    p.wp (hostHandler env denv) (fun _ => Requeued e) (fun _ _ => True) h := by
  obtain ⟨e', hrow, hstatus, hlink⟩ := hq
  refine wp_post (get_aside hrow hp) fun _ h' hrow' => ?_
  exact ⟨e', hrow', hstatus, hlink⟩

/-- A listed row of another execution. -/
theorem ne_of_listed {w : World} {d : Docker} {p : Execution → Bool} {b : Execution}
    (hrow : Row x e (w, d))
    (hb : b ∈ w.db.executions.selectOrdered p newestFirst) (hne : b ≠ e) :
    b.id ≠ x := by
  obtain ⟨hget, -⟩ := mem_selectOrdered.mp hb
  rintro rfl
  exact hne (Option.some.inj (hget.symm.trans hrow))

/-- **What a repair requeues** is queued when the repair has ended, and linked as before. -/
theorem wp_repairStaleExecutions_requeued (hrow : Row x e h) :
    (repairStaleExecutions cfg scope).wp (hostHandler env denv)
      (fun repaired h' => ∀ r ∈ repaired, r.executionId = x → r.repairAction = .requeued →
        Requeued e h')
      (fun _ _ => True) h := by
  obtain ⟨w, d⟩ := h
  have hid : e.id = x := hrow.id
  rw [repairStaleExecutions]
  apply wp_lift_query
  have hquiet : ∀ b ∈ w.db.executions.selectOrdered (fun a => a.status.isActive)
      newestFirst, b ≠ e → ∀ h : Host, (repairListed cfg scope b).wp (hostHandler env denv)
        (fun rs _ => ∀ r ∈ rs, r.executionId ≠ x) (fun _ _ => True) h := by
    intro b hb hne h
    refine wp_post (wp_repairListed_own h) fun rs _ hrs r hr => ?_
    rw [(hrs r hr).1]
    exact ne_of_listed hrow hb hne
  by_cases hlisted : e ∈ w.db.executions.selectOrdered (fun a => a.status.isActive)
      newestFirst
  · refine wp_post (wp_collect_turn (I := fun _ => True)
      (T := fun own h => (∃ r ∈ own, r.repairAction = .requeued) → Requeued e h)
      (R := fun r => r.executionId ≠ x) (a := e) ((nodup_keys_selectOrdered _ _ _).of_map _) hlisted
      (fun b hb hne h _ => ?_) (fun b hb hne own h hown => ?_) (fun h _ => ?_) trivial)
      (fun repaired h' hT r hr hx haction => ?_)
    · refine wp_post (hquiet b hb hne h) (fun rs _ hrs => ⟨trivial, hrs⟩)
    · have hother : Other e.id none b := by
        rw [hid]
        exact .of_ne (ne_of_listed hrow hb hne)
      by_cases hrequeued : ∃ r ∈ own, r.repairAction = .requeued
      · refine wp_mono (wp_and (hquiet b hb hne h)
          ((hown hrequeued).aside (Aside.repairListed cfg scope hother)))
          (fun rs _ hrs => ⟨fun _ => hrs.2, hrs.1⟩) fun _ _ _ => trivial
      · exact wp_post (hquiet b hb hne h)
          (fun rs _ hrs => ⟨fun hown => absurd hown hrequeued, hrs⟩)
    · refine wp_post (wp_repairListed_own h) fun rs h' hrs hown => ?_
      obtain ⟨r, hr, haction⟩ := hown
      exact (hrs r hr).2 haction
    · obtain ⟨own, hown, hall⟩ := hT
      rcases hall r hr with hne | hmem
      · exact absurd hx hne
      · exact hown ⟨r, hmem, haction⟩
  · refine wp_post (wp_collect_quiet (I := fun _ => True)
      (R := fun r => r.executionId ≠ x) (fun b hb h _ => ?_) trivial)
      (fun repaired h' hall r hr hx => absurd hx (hall.2 r hr))
    have hne : b ≠ e := fun heq => hlisted (heq ▸ hb)
    exact wp_post (hquiet b hb hne h) (fun rs _ hrs => ⟨trivial, hrs⟩)

end Repair

/-! ### The pass after it -/

section Pass

variable {ttlSeconds : ℕ} {i : String}

/-- The row of an execution that has lost its container. -/
def Lost (x : Uuid) (h : Host) : Prop :=
  ∃ e, Row x e h ∧ e.status = .failed ∧ e.error = some "Managed container is missing"

theorem Lost.aside {α : Type} {p : HostRun α} (hlost : Lost x h) (hp : Aside x link p) :
    p.wp (hostHandler env denv) (fun _ => Lost x) (fun _ _ => True) h := by
  obtain ⟨e, hrow, hstatus, herror⟩ := hlost
  refine wp_post (get_aside hrow hp) fun _ h' hrow' => ?_
  exact ⟨e, hrow', hstatus, herror⟩

theorem wp_markExecutionFailedForMissingContainer {w : World} :
    (markExecutionFailedForMissingContainer e).wp (handler env)
      (fun _ w' => ∃ now, Stores (e.withoutContainer now) w') (fun _ _ => True) w := by
  rw [markExecutionFailedForMissingContainer]
  refine wp_skip (fun st w₁ => ?_) w
  refine wp_skip (fun now w₂ => ?_) w₁
  apply wp_save
  intro w₃ hrow _
  rw [wp_bind, emitHeld, wp_bind]
  apply wp_appendEvent
  · intro event w₄ hrecords₄
    apply wp_of_done
    rw [wp_bind, emitHeld, wp_bind]
    apply wp_appendEvent
    · intro event w₅ hrecords₅
      refine wp_of_done (wp_of_done ⟨now, ?_⟩)
      exact (hrow.of_sameRecords hrecords₄).of_sameRecords hrecords₅
    · exact fun _ _ _ _ => trivial
  · exact fun _ _ _ _ => trivial

/-- The turn of an active execution whose container the daemon does not have. -/
theorem wp_reconcileListed_missing {containers : List RuntimeContainerState}
    (hactive : e.status.isActive = true) (hlink : e.container = some i)
    (hmissing : findContainer containers i = none) (h : Host) :
    (reconcileListed containers e).wp (hostHandler env denv) (fun _ => Lost e.id)
      (fun _ _ => True) h := by
  obtain ⟨w, d⟩ := h
  rw [reconcileListed, hlink]
  dsimp only
  rw [hmissing]
  dsimp only
  rw [if_pos hactive, reconcileMissing]
  apply wp_lift_bind
  refine wp_post wp_markExecutionFailedForMissingContainer fun _ w' hrow => ?_
  obtain ⟨now, hrow⟩ := hrow
  exact wp_of_done ⟨_, hrow, rfl, rfl⟩

/-- **A pass fails an active execution whose container is gone.** -/
theorem wp_reconcileOnce_missing (hrow : Row x e h) (hactive : e.status.isActive = true)
    (hlink : e.container = some i) (hmissing : h.2.find i = none) :
    (reconcileOnce ttlSeconds).wp (hostHandler env denv) (fun _ => Lost x) (fun _ _ => True) h := by
  obtain ⟨w, d⟩ := h
  obtain rfl : e.id = x := hrow.id
  rw [reconcileOnce]
  apply wp_lift_query
  show Program.wp _ _ _ (listManagedContainers >>= _) (w, d)
  rw [wp_bind]
  apply wp_listManagedContainers (fun _ => trivial)
  have hlisted : e ∈ w.db.executions.selectOrdered (fun _ => true) newestFirst :=
    mem_selectOrdered.mpr ⟨hrow, rfl⟩
  refine wp_seq (wp_collect_turn (I := fun _ => True) (T := fun _ => Lost e.id)
    (R := fun _ => True) (a := e) ((nodup_keys_selectOrdered _ _ _).of_map _) hlisted
    (fun b hb hne h _ => ?_) (fun b hb hne own h hown => ?_) (fun h _ => ?_) trivial)
    fun reconciled h₂ hT => ?_
  · exact wp_of_all (fun _ _ => ⟨trivial, fun _ _ => trivial⟩) (fun _ _ => trivial) h
  · have hother : Other e.id none b := .of_ne (ne_of_listed hrow hb hne)
    refine wp_post (hown.aside (Aside.reconcileListed d.containers hother))
      (fun _ _ hown' => ⟨hown', fun _ _ => trivial⟩)
  · exact wp_reconcileListed_missing hactive hlink hmissing h
  · obtain ⟨-, hlost, -⟩ := hT
    rw [wp_bind]
    have hx : (w.db.executions.selectOrdered (fun _ => true) newestFirst).any
        (·.id = e.id) = true := List.any_eq_true.mpr ⟨e, hlisted, decide_eq_true rfl⟩
    have horphans : Aside e.id none (Program.collect (reapOrphan
        (w.db.executions.selectOrdered (fun _ => true) newestFirst)) d.containers) :=
      Program.Within.collect fun c _ => Aside.reapOrphan hx fun h => absurd h (Option.some_ne_none _).symm
    refine wp_post (hlost.aside horphans) fun orphans h₃ hlost => ?_
    rw [wp_bind]
    have hclean : Aside e.id none (cleanupExpiredContainers ttlSeconds d.containers) :=
      (Aside.lift Aside.utcNow).bind fun _ => Program.Within.collect fun c _ =>
        Aside.reapExpired _ (Option.some_ne_none _).symm
    refine wp_post (hlost.aside hclean) fun expired h₄ hlost => ?_
    exact wp_of_done hlost

end Pass

/-! ### One after the other -/

/-- The execution has not failed. -/
def NotFailed (x : Uuid) (h : Host) : Prop :=
  ∀ e, h.1.db.executions.get x = some e → e.status ≠ .failed

/-- **The reconciler fails what the repair has requeued.**  If a repair requeues an execution
and removes the container it was linked to, then every pass over the executions and
containers that it leaves, if the pass comes to its end, marks the execution as failed. -/
theorem repair_reconcile_conflict {cfg : StaleRepairConfig} {scope : RepairScope} {ttlSeconds : ℕ}
    {i : String} {repaired : List RepairedExecution} {report : ReconciliationReport}
    {h₁ h₂ : Host} (hrow : h.1.db.executions.get x = some e) (hlink : e.container = some i)
    (hrepair : (repairStaleExecutions cfg scope).run (hostHandler env denv) h = (.ok repaired, h₁))
    (hrequeued : ∃ r ∈ repaired, r.executionId = x ∧ r.repairAction = .requeued)
    (hremoved : h₁.2.find i = none)
    (hreconcile : (reconcileOnce ttlSeconds).run (hostHandler env denv) h₁ = (.ok report, h₂)) :
    NotFailed x h₁ ∧ ¬ NotFailed x h₂ := by
  obtain rfl : e.id = x := Row.id hrow
  obtain ⟨r, hr, hx, haction⟩ := hrequeued
  have hqueued : Requeued e h₁ :=
    ((wp_iff_run _ _).mp (wp_repairStaleExecutions_requeued hrow)).1 _ _ hrepair r hr hx haction
  obtain ⟨e', hrow', hstatus, hlink'⟩ := hqueued
  have hcontainer : e'.container = some i := (congrArg (Option.filter _) hlink').trans hlink
  have hactive : e'.status.isActive = true := by
    rw [hstatus]
    rfl
  have hlost : Lost e.id h₂ :=
    ((wp_iff_run _ _).mp (wp_reconcileOnce_missing hrow' hactive hcontainer hremoved)).1
      _ _ hreconcile
  obtain ⟨e'', hrow'', hfailed, -⟩ := hlost
  refine ⟨fun e₁ he₁ => ?_, fun hnot => hnot e'' hrow'' hfailed⟩
  obtain rfl : e' = e₁ := Option.some.inj (hrow'.symm.trans he₁)
  rw [hstatus]
  decide

/-! ### A worker that has died -/

namespace DeadWorker

open SuspendedWorker (config minuteLater)

/-- A worker without a heartbeat for a minute. -/
def running : Execution where
  id := 0
  workflowId := "w"
  status := .running
  lastHeartbeatAt := some 0
  containerId := some "c"

def host : Host :=
  ({ db := { executions := Table.empty.save running } },
    { containers := [{ containerId := "c", status := .running, executionId := some 0 }] })

def repair : Except RuntimeException (List RepairedExecution) × Host :=
  (repairStaleExecutions config {}).run (hostHandler minuteLater .reliable) host

def reconcile : Except RuntimeException ReconciliationReport × Host :=
  (reconcileOnce 3600).run (hostHandler minuteLater .reliable) repair.2

def requeued : RepairedExecution := ⟨0, .running, .queued, .requeued, staleReason .running 60⟩

theorem repair_eq : repair = (.ok [requeued], repair.2) := Prod.ext (by rfl) rfl

theorem removed : repair.2.2.find "c" = none := by rfl

/-- The pass has lost the container and reports so. -/
def report : ReconciliationReport where
  scannedExecutions := 1
  scannedContainers := 0
  actions := [.missingContainer running "c"]

theorem reconcile_eq : reconcile = (.ok report, reconcile.2) := Prod.ext (by rfl) rfl

theorem row : host.1.db.executions.get 0 = some running := get_save_self Table.empty running

end DeadWorker

open DeadWorker in
/-- A worker has not been heard of for a minute.  The repair removes its container and requeues
its execution, and the next pass fails the execution. -/
theorem repair_reconcile_conflict_running : NotFailed 0 repair.2 ∧ ¬ NotFailed 0 reconcile.2 :=
  repair_reconcile_conflict row rfl repair_eq ⟨requeued, List.mem_singleton_self _, rfl, rfl⟩
    removed reconcile_eq

open DeadWorker in
/-- Not every execution that is requeued survives the next pass. -/
theorem requeued_then_failed :
    ¬ ∀ (cfg : StaleRepairConfig) (env : Environment) (denv : DockerEnvironment)
      (scope : RepairScope) (ttlSeconds : ℕ) (x : Uuid) (e : Execution) (i : String)
      (repaired : List RepairedExecution) (report : ReconciliationReport) (h h₁ h₂ : Host),
      h.1.db.executions.get x = some e → e.container = some i →
        (repairStaleExecutions cfg scope).run (hostHandler env denv) h = (.ok repaired, h₁) →
          (∃ r ∈ repaired, r.executionId = x ∧ r.repairAction = .requeued) →
            h₁.2.find i = none →
              (reconcileOnce ttlSeconds).run (hostHandler env denv) h₁ = (.ok report, h₂) →
                NotFailed x h₂ := by
  intro hall
  have hnot := hall SuspendedWorker.config SuspendedWorker.minuteLater .reliable {} 3600 0 running
    "c" [requeued] report host repair.2 reconcile.2 row rfl repair_eq
    ⟨requeued, List.mem_singleton_self _, rfl, rfl⟩ removed reconcile_eq
  have hrow : reconcile.2.1.db.executions.get 0 =
      some ((reconcile.2.1.db.executions.get 0).getD running) := by rfl
  have hfailed : ((reconcile.2.1.db.executions.get 0).getD running).status = .failed := by rfl
  exact hnot _ hrow hfailed

end OpenAgency
