/-
JanitorFrame.lean

What the reconciler and the stale repair do to one execution leaves every other one
alone: they write no row but its own, no wait at all, and command no container but the
one its row is linked to.

`Aside x link` says this of a program with respect to the execution `x` and the
container `link`; the lemmas follow the functions of the two janitors.
-/
import OpenAgency.Reconcile
import OpenAgency.StaleRepair

namespace OpenAgency

open Interaction Program

/-! ### Operations on something else -/

/-- Another execution than `x`, not linked to the container `link`. -/
structure Other (x : Uuid) (link : Option String) (e : Execution) : Prop where
  id : e.id ≠ x
  container : ∀ i, link = some i → e.container ≠ some i

theorem Other.of_eq {x : Uuid} {link : Option String} {e e' : Execution} (h : Other x link e)
    (hid : e'.id = e.id) (hc : e'.containerId = e.containerId) : Other x link e' where
  id := by
    rw [hid]
    exact h.id
  container := by
    have heq : e'.container = e.container := congrArg (Option.filter _) hc
    rw [heq]
    exact h.container

/-- Operations that leave the execution `x`, all waits and the container `link` alone. -/
def Spared (x : Uuid) (link : Option String) : HostSig.Op → Prop
  | .inl (.db (.updateExecution e)) => Other x link e
  | .inl (.db (.insertExecutionWait _)) => False
  | .inl (.db (.updatePendingExecutionWait _ _ _)) => False
  | .inl _ => True
  | .inr (.stopContainer i) => link ≠ some i
  | .inr (.removeContainer i _) => link ≠ some i
  | .inr _ => True

/-- The program leaves them alone. -/
abbrev Aside (x : Uuid) (link : Option String) {α : Type} (p : HostRun α) : Prop :=
  p.Within (fun _ _ => True) (Spared x link)

/-- The coroutine leaves them alone. -/
abbrev AsideC (x : Uuid) (link : Option String) {α : Type} (p : Coroutine α) : Prop :=
  p.Within (fun _ _ => True) fun o => Spared x link (.inl o)

namespace Aside

variable {x : Uuid} {link : Option String} {e : Execution} {c : RuntimeContainerState}
  {st : NativeExecutionState}

/-! ### Coroutines -/

theorem lift {α : Type} {p : Coroutine α} (h : AsideC x link p) :
    Aside x link (liftM p : HostRun α) := Program.Within.inl (T := DockerSig) h

theorem liftEnsures {α : Type} {p : Coroutine α} {P : α → Prop}
    (h : p.Ensures (fun _ _ => True) (fun o => Spared x link (.inl o)) P) :
    (liftM p : HostRun α).Ensures (fun _ _ => True) (Spared x link) P :=
  Program.Ensures.inl (T := DockerSig) h

theorem query {o : DbOp} (h : Spared x link (.inl (.db o))) :
    AsideC x link (OpenAgency.query o) := ⟨h, fun _ _ => trivial⟩

theorem utcNow : AsideC x link OpenAgency.utcNow := ⟨trivial, fun _ _ => trivial⟩

theorem updateExecution (h : Other x link e) : AsideC x link (OpenAgency.updateExecution e) :=
  ⟨h, fun _ _ => trivial⟩

theorem appendEvent (eventType : ExecutionEventType) (labels : EventLabels) :
    AsideC x link (OpenAgency.appendEvent st eventType labels) := by
  -- an identifier, a reading of the clock, the append itself
  refine ⟨trivial, fun _ _ => ⟨trivial, fun _ _ => ⟨trivial, fun saved _ => ?_⟩⟩⟩
  exact within_ofExcept saved

theorem emitHeld (eventType : ExecutionEventType) :
    AsideC x link (OpenAgency.emitHeld st eventType) :=
  (appendEvent eventType {}).bind fun _ => trivial

theorem eventStateFor (y : Uuid) (workflowId : String) :
    AsideC x link (OpenAgency.eventStateFor y workflowId) := ⟨trivial, fun _ _ => trivial⟩

theorem orUtcNow (t : Option Time) : AsideC x link (OpenAgency.orUtcNow t) := by
  rcases t with - | t
  · exact ⟨trivial, fun _ _ => trivial⟩
  · trivial

theorem partialResultPreservationSnapshot (reason : String) :
    AsideC x link (OpenAgency.partialResultPreservationSnapshot e reason) := by
  apply (query (o := .listArtifacts e.id) trivial).bind
  intro artifacts
  dsimp only
  split
  · trivial
  · exact utcNow.bind fun _ => trivial

/-! ### Commands -/

theorem command {o : DockerOp} (h : Spared x link (.inr o)) :
    Aside x link (OpenAgency.command o) := ⟨h, fun _ _ => trivial⟩

theorem inspectContainer (i : String) : Aside x link (OpenAgency.inspectContainer i) :=
  (command (o := .inspectContainer i) trivial).bind fun answer => within_ofExcept answer

theorem removeContainer {i : String} (hi : link ≠ some i) (force : Bool) :
    Aside x link (OpenAgency.removeContainer i force) :=
  (command (o := .removeContainer i force) hi).bind fun answer => within_ofExcept answer

theorem stopInspected {i : String} (hi : link ≠ some i) :
    Aside x link (OpenAgency.stopInspected i c) := by
  have hstop : Aside x link (stopIfLive i c) := by
    unfold stopIfLive
    split
    · exact (command (o := .stopContainer i) hi).bind fun answer => within_ofExcept answer
    · trivial
  apply hstop.bind
  intro current
  exact (removeContainer hi _).bind fun _ => trivial

/-! ### The reconciler -/

section Reconciler

/-- The execution it returns is the one it has written. -/
theorem markExecutionFailedForExitedContainer (h : Other x link e) :
    (OpenAgency.markExecutionFailedForExitedContainer e c).Ensures (fun _ _ => True)
      (fun o => Spared x link (.inl o)) (Other x link) := by
  apply (eventStateFor _ _).bind_ensures
  intro st
  apply (orUtcNow _).bind_ensures
  intro completionTime
  dsimp only
  split
  · have hother : Other x link (e.withExit c) := h.of_eq rfl rfl
    apply (updateExecution hother).bind_ensures
    exact fun _ => (emitHeld _).bind_ensures fun _ => hother
  · have hother : Other x link ((e.withExit c).finishedBy (workerOutcome c) completionTime) :=
      h.of_eq rfl rfl
    apply (updateExecution hother).bind_ensures
    exact fun _ => (emitHeld _).bind_ensures fun _ => (emitHeld _).bind_ensures fun _ => hother

theorem markExecutionFailedForMissingContainer (h : Other x link e) :
    AsideC x link (OpenAgency.markExecutionFailedForMissingContainer e) := by
  apply (eventStateFor _ _).bind
  intro st
  apply utcNow.bind
  intro now
  have hother : Other x link (e.withoutContainer now) := h.of_eq rfl rfl
  apply (updateExecution hother).bind
  exact fun _ => (emitHeld _).bind fun _ => (emitHeld _).bind fun _ => trivial

theorem recordRemoved (h : Other x link e) : AsideC x link (OpenAgency.recordRemoved e c) := by
  apply (orUtcNow _).bind
  intro endedAt
  apply updateExecution
  unfold Execution.unlinkIfActive
  split
  · exact ⟨h.id, fun i _ => nofun⟩
  · exact h.of_eq rfl rfl

theorem maybeRemoveFinishedExecutionContainer (h : Other x link e)
    (hc : link ≠ some c.containerId) :
    Aside x link (OpenAgency.maybeRemoveFinishedExecutionContainer e c) := by
  unfold OpenAgency.maybeRemoveFinishedExecutionContainer
  split
  · apply (removeContainer hc _).attempt.bind
    rintro (_ | _)
    · trivial
    · exact (lift (recordRemoved h)).bind fun _ => trivial
  · trivial

theorem reapTerminalExecutionContainer (h : Other x link e) (hc : link ≠ some c.containerId) :
    Aside x link (OpenAgency.reapTerminalExecutionContainer e c) := by
  apply (lift (eventStateFor _ _)).bind
  intro st
  apply (stopInspected hc).bind
  intro current
  apply (lift (orUtcNow _)).bind
  intro endedAt
  have hother : Other x link (e.withRemoved current endedAt) := h.of_eq rfl rfl
  apply (lift (updateExecution hother)).bind
  exact fun _ => (lift (emitHeld _)).bind fun _ => trivial

theorem syncExecutionContainerState (h : Other x link e) :
    AsideC x link (OpenAgency.syncExecutionContainerState e c) := by
  unfold OpenAgency.syncExecutionContainerState
  split
  · exact updateExecution (h.of_eq rfl rfl)
  · trivial

theorem reconcileMissing (h : Other x link e) (i : String) :
    Aside x link (OpenAgency.reconcileMissing e i) :=
  (lift (markExecutionFailedForMissingContainer h)).bind fun _ => trivial

theorem reconcileExited (h : Other x link e) (hc : link ≠ some c.containerId) :
    Aside x link (OpenAgency.reconcileExited e c) := by
  apply (liftEnsures (markExecutionFailedForExitedContainer h)).bind_within
  intro exited hexited
  exact (maybeRemoveFinishedExecutionContainer hexited hc).bind fun _ => trivial

theorem reconcileTerminal (h : Other x link e) (hc : link ≠ some c.containerId) :
    Aside x link (OpenAgency.reconcileTerminal e c) := by
  unfold OpenAgency.reconcileTerminal
  split
  · exact (reapTerminalExecutionContainer h hc).bind fun _ => trivial
  · exact (lift (syncExecutionContainerState h)).bind fun _ => trivial

theorem reconcileSynced (h : Other x link e) (actions : List ReconciliationAction) :
    Aside x link (OpenAgency.reconcileSynced e c actions) :=
  (lift (syncExecutionContainerState h)).bind fun _ => trivial

theorem reconcileLinked (h : Other x link e) (hc : link ≠ some c.containerId) :
    Aside x link (OpenAgency.reconcileLinked e c) := by
  unfold OpenAgency.reconcileLinked
  split
  · exact reconcileExited h hc
  · split
    · exact reconcileTerminal h hc
    · exact reconcileSynced h []

/-- A listed container is linked to by the identifier it has. -/
theorem ne_of_findContainer {containers : List RuntimeContainerState} {i : String}
    (h : Other x link e) (hlink : e.container = some i)
    (hfind : findContainer containers i = some c) : link ≠ some c.containerId := by
  have hid : c.containerId = i := by simpa using List.find?_some hfind
  rw [hid]
  exact fun hx => h.container i hx hlink

theorem reconcileListed (containers : List RuntimeContainerState) (h : Other x link e) :
    Aside x link (OpenAgency.reconcileListed containers e) := by
  unfold OpenAgency.reconcileListed
  split
  · trivial
  next i hlink =>
    split
    next c hfind => exact reconcileLinked h (ne_of_findContainer h hlink hfind)
    · split
      · exact reconcileMissing h i
      · trivial

/-- A container of a listed execution is no orphan. -/
theorem reapOrphan {executions : List Execution} (hx : executions.any (·.id = x))
    (hc : link = some c.containerId → c.executionId = some x) :
    Aside x link (OpenAgency.reapOrphan executions c) := by
  unfold OpenAgency.reapOrphan
  split
  · trivial
  next horphan =>
    apply Program.Within.bind
    · apply stopInspected
      intro hlink
      apply horphan
      rw [hc hlink]
      exact hx
    · exact fun _ => trivial

theorem reapExpired (ttlSeconds : ℕ) (hc : link ≠ some c.containerId) :
    Aside x link (OpenAgency.reapExpired ttlSeconds c) := by
  apply (removeContainer hc true).attempt.bind
  rintro (_ | _) <;> trivial

theorem reconcileSingle (h : Other x link e) {observed : Option RuntimeContainerState}
    (hobserved : ∀ i c, e.container = some i → observed = some c → c.containerId = i) :
    Aside x link (OpenAgency.reconcileSingle e observed) := by
  unfold OpenAgency.reconcileSingle
  split
  · trivial
  next i hlink =>
    rcases observed with - | c
    · rw [reconcileObserved]
      split
      · exact reconcileMissing h i
      · trivial
    · have hid : c.containerId = i := hobserved i c hlink rfl
      rw [reconcileObserved]
      split
      · apply reconcileExited h
        rw [hid]
        exact fun hx => h.container i hx hlink
      · exact reconcileSynced h _

end Reconciler

/-! ### The stale repair -/

section Repair

variable {a : RepairAction}

theorem repairedCompletedAt : AsideC x link (OpenAgency.repairedCompletedAt a e) := by
  unfold OpenAgency.repairedCompletedAt
  split
  · trivial
  · exact (orUtcNow _).bind fun _ => trivial

theorem repairPreservation : AsideC x link (OpenAgency.repairPreservation a e) := by
  unfold OpenAgency.repairPreservation
  split
  · trivial
  · exact partialResultPreservationSnapshot _

/-- The execution a cleanup goes on with. -/
abbrev EndsOther (x : Uuid) (link : Option String) (p : HostRun RepairProgress) : Prop :=
  p.Ensures (fun _ _ => True) (Spared x link) fun progress => Other x link progress.execution

theorem recordCleanup (h : Other x link e) (repair : ContainerRepair) :
    (OpenAgency.recordCleanup e st repair c).Ensures (fun _ _ => True)
      (fun o => Spared x link (.inl o)) fun progress => Other x link progress.execution := by
  apply (orUtcNow _).bind_ensures
  intro endedAt
  apply (emitHeld _).attempt.bind_ensures
  rintro (_ | _)
  · exact h.of_eq rfl rfl
  · exact h.of_eq rfl rfl

theorem cleanupInspected (h : Other x link e) {repair : ContainerRepair}
    (hi : link ≠ some repair.containerId) :
    EndsOther x link (OpenAgency.cleanupInspected e st repair c) := by
  apply (stopInspected hi).attempt.bind_ensures
  rintro (_ | c)
  · exact h
  · exact liftEnsures (recordCleanup h _)

theorem cleanupStaleExecutionContainer (h : Other x link e) :
    EndsOther x link (OpenAgency.cleanupStaleExecutionContainer e st) := by
  unfold OpenAgency.cleanupStaleExecutionContainer
  split
  · exact h
  next i hlink =>
    apply (inspectContainer _).attempt.bind_ensures
    rintro (_ | inspected)
    · exact h
    · apply cleanupInspected h
      exact fun hx => h.container i hx hlink

theorem repairContainer (h : Other x link e) :
    EndsOther x link (OpenAgency.repairContainer a e st) := by
  unfold OpenAgency.repairContainer
  split
  · exact h
  · exact cleanupStaleExecutionContainer h

theorem expireApprovalRequest (y : Uuid) (reason : String) (request : ApprovalRequest) :
    AsideC x link (OpenAgency.expireApprovalRequest y reason request) := by
  apply Program.Within.bind
  · apply utcNow.bind
    intro now
    apply (query (o := .latestApprovalRequest y request.toolId) trivial).bind
    rintro (_ | requestId)
    · trivial
    · apply (query (o := .updatePendingApprovalRequest requestId (expiredResponse reason) now)
        trivial).bind
      intro rowcount
      apply (query (o := .getApprovalRequest requestId) trivial).bind
      rintro (_ | entity)
      · trivial
      · dsimp only
        split <;> trivial
  · rintro (_ | _) <;> trivial

theorem repairApprovals : AsideC x link (OpenAgency.repairApprovals a e) := by
  unfold OpenAgency.repairApprovals
  split
  · apply (query (o := .listApprovalRequests e.id) trivial).bind
    intro requests
    apply Program.Within.collect
    exact fun request _ => expireApprovalRequest _ _ request
  · trivial

theorem recordRepair {progress : RepairProgress} (h : Other x link progress.execution)
    (preservation : Option PartialResultPreservation) (repair : Time → StaleRepair) :
    AsideC x link (OpenAgency.recordRepair progress a preservation repair) := by
  apply utcNow.bind
  intro repairedAt
  apply utcNow.bind
  intro updatedAt
  have hother : Other x link (progress.execution.released a preservation (repair repairedAt)) :=
    h.of_eq rfl rfl
  apply (updateExecution hother).bind
  exact fun _ => (emitHeld _).bind fun _ => trivial

theorem repairExecution (cfg : StaleRepairConfig) (h : Other x link e) (ageSeconds : ℕ) :
    Aside x link (OpenAgency.repairExecution cfg e ageSeconds) := by
  apply (lift repairedCompletedAt).bind
  intro completedAt
  apply (lift repairPreservation).bind
  intro preservation
  apply (lift (eventStateFor _ _)).bind
  intro st
  have hother : Other x link (e.repairedBy
      (.of e.status (hasCompletedWorkflowCheckpoint cfg.engine e)) completedAt) := h.of_eq rfl rfl
  apply (repairContainer hother).bind_within
  intro progress hprogress
  apply (lift repairApprovals).bind
  intro expired
  exact (lift (recordRepair hprogress _ _)).bind fun _ => trivial

theorem repairListed (cfg : StaleRepairConfig) (scope : RepairScope) (h : Other x link e) :
    Aside x link (OpenAgency.repairListed cfg scope e) := by
  unfold OpenAgency.repairListed
  split
  · apply (lift utcNow).bind
    intro now
    unfold repairIfStale
    split
    · exact (repairExecution cfg h _).bind fun _ => trivial
    · trivial
  · trivial

end Repair

end Aside

end OpenAgency
