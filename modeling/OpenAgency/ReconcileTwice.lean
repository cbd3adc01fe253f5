/-
ReconcileTwice.lean

A pass of the reconciler after another one, and the reconciliation of one execution by a
container that it is told about.

A pass records nothing if and only if every row it finds is `AtRest` against the containers
that the daemon lists (`recordless_reconcileOnce_iff`): the turn of such a row does nothing at
all, so that the first other row is reached.  What a pass makes of a row and its container is
known turn by turn (`Turned`), with every other turn leaving both alone (`Followed`).  So the
second pass records nothing just if the first one has met no execution that `lingers`.
-/
import OpenAgency.RepairReconcile

namespace OpenAgency

open Interaction Relational Docker DockerOp Table
open Program (bind_done everyOp_bind_iff within_ofExcept wp_and wp_attempt wp_iff_run wp_ite wp_mono
  wp_of_all wp_of_done wp_of_raise wp_performRight_bind wp_post wp_seq)

variable {x : Uuid} {e e' : Execution} {h h' : Host} {env : Environment}
  {denv : DockerEnvironment} {w : World} {d : Docker} {c : RuntimeContainerState} {i : String}

/-! ### Passes that record nothing -/

/-- The operation is no update of an execution and no event. -/
def RecordsNothing : HostSig.Op → Host → Prop
  | .inl (.db (.updateExecution _)), _ => False
  | .inl (.db (.saveEvent _)), _ => False
  | _, _ => True

/-- The pass records nothing. -/
abbrev Recordless (env : Environment) (denv : DockerEnvironment) {α : Type} (p : HostRun α) (h : Host) :
    Prop := p.EveryOp (hostHandler env denv) RecordsNothing h

/-- A terminal execution whose container is to be reaped. -/
def Reapable (e : Execution) (c : RuntimeContainerState) : Bool :=
  e.status.isTerminal && (c.status.isLive || c.status.isExited) &&
    e.metadata.terminateContainerOnCompletion

/-- There is nothing to do about an execution of whose container the daemon has `found`. -/
structure Rests (found : Option RuntimeContainerState) (e : Execution) : Prop where
  missing : found = none → e.status.isActive = false
  present : ∀ c, found = some c →
    (e.status.isActive && c.status.isExited) = false ∧ Reapable e c = false ∧ e.outOfSync c = false

/-- There is nothing to do about the container an execution is linked to, if any. -/
def AtRest (cs : List RuntimeContainerState) (e : Execution) : Prop :=
  ∀ i, e.container = some i → Rests (findContainer cs i) e

/-- The daemon answers every command. -/
def DockerEnvironment.Reliable (denv : DockerEnvironment) : Prop := ∀ k, denv.fails k = false

theorem Docker.find_remove_self (d : Docker) (i : String) : (d.remove i).find i = none := by
  apply List.find?_eq_none.mpr
  intro c hc
  have hne := (List.mem_filter.mp hc).2
  simpa using hne

theorem Docker.find_of_mem (h : c ∈ d.containers) : d.find c.containerId = some c := by
  rcases hfind : d.find c.containerId with - | c'
  · have hne := List.find?_eq_none.mp hfind c h
    simp at hne
  · have hid : c'.containerId = c.containerId := containerId_of_find hfind
    rw [List.inj_on_of_nodup_map d.unique (mem_of_find hfind) h hid]

/-! ### Commands to a reliable daemon -/

section Reliable

variable {E : RuntimeException → Host → Prop} {force : Bool}

theorem wp_removeContainer_gone {Q : Unit → Host → Prop} (hreliable : denv.Reliable)
    (hfind : d.find i = some c) (hforce : needsForce c = false)
    (hQ : Q () (w, d.remove i)) : (removeContainer i force).wp (hostHandler env denv) Q E (w, d) := by
  rw [removeContainer, command, hostHandler, wp_performRight_bind,
    exec_remove hfind (hreliable _) hforce]
  exact wp_of_done hQ

/-- A container that the daemon has is stopped and removed. -/
theorem wp_stopInspected_gone {Q : RuntimeContainerState → Host → Prop}
    (hreliable : denv.Reliable) (hfind : d.find i = some c)
    (hQ : ∀ c' d', d'.find i = none → (∀ j, j ≠ i → d'.find j = d.find j) → Q c' (w, d')) :
    (stopInspected i c).wp (hostHandler env denv) Q E (w, d) := by
  rw [stopInspected, Program.wp_bind, stopIfLive]
  split
  · apply wp_stopContainer hfind (hreliable _)
    intro d₁ _ hstopped hothers
    rw [Program.wp_bind]
    apply wp_removeContainer_gone hreliable hstopped (needsForce_stopped _ _)
    apply wp_of_done
    refine hQ _ _ (find_remove_self d₁ i) fun j hj => ?_
    rw [find_remove_ne hj, hothers j hj]
  next hlive =>
    apply wp_of_done
    rw [Program.wp_bind]
    have hforce := needsForce_of_not_isLive (Bool.eq_false_iff.mpr hlive)
    apply wp_removeContainer_gone hreliable hfind hforce
    apply wp_of_done
    exact hQ _ _ (find_remove_self d i) fun j hj => find_remove_ne hj

/-- A container that is there is removed by force. -/
theorem wp_attempt_removeForced {Q : Except RuntimeException Unit → Host → Prop}
    (hreliable : denv.Reliable)
    (hgone : d.find i = none → Q (.error (notFound i)) (w, d.tick))
    (hok : d.find i ≠ none → Q (.ok ()) (w, d.remove i)) :
    (removeContainer i true).attempt.wp (hostHandler env denv) Q E (w, d) := by
  rw [wp_attempt, removeContainer, command, hostHandler, wp_performRight_bind]
  simp only [exec]
  split
  next hnone => exact wp_of_raise (hgone hnone)
  next c hfind =>
    rw [hreliable, Bool.not_true, Bool.and_false, Bool.or_false, if_neg Bool.false_ne_true]
    apply wp_of_done
    apply hok
    rw [hfind]
    exact Option.some_ne_none c

end Reliable

/-! ### Turns -/

section Turn

variable {cs : List RuntimeContainerState} {α : Type}

theorem recordless_lift {p : Coroutine α} {h : Host} : Recordless env denv (liftM p : HostRun α) h ↔
    p.EveryOp (handler env) (fun o w => RecordsNothing (.inl o) (w, h.2)) h.1 :=
  Program.everyOp_inl (T := DockerSig) p h

theorem not_recordless_reconcileMissing (h : Host) : ¬ Recordless env denv (reconcileMissing e i) h := by
  intro hq
  have hmark := recordless_lift.mp ((everyOp_bind_iff _).mp hq).1
  -- the events are listed, the clock is read, the row is updated
  exact hmark.2.2.1

theorem not_recordless_reconcileExited (h : Host) : ¬ Recordless env denv (reconcileExited e c) h := by
  intro hq
  have hmark := recordless_lift.mp ((everyOp_bind_iff _).mp hq).1
  have hrest := ((everyOp_bind_iff _).mp hmark).2 _ _ rfl
  obtain ⟨-, hrest⟩ := (everyOp_bind_iff _).mp hrest
  rcases hended : (e.withExit c).containerEndedAt with - | t
  · have hupdate := hrest _ _ (by rw [hended]; rfl)
    split at hupdate
    · exact hupdate.1
    · exact hupdate.1
  · have hupdate := hrest _ _ (by rw [hended]; rfl)
    split at hupdate
    · exact hupdate.1
    · exact hupdate.1

theorem recordless_syncExecutionContainerState_iff (h : Host) :
    Recordless env denv (liftM (syncExecutionContainerState e c) : HostRun Unit) h ↔
      e.outOfSync c = false := by
  rw [recordless_lift, syncExecutionContainerState]
  split
  next hout => exact iff_of_false (fun hq => hq.1) (by simp [hout])
  next hin => exact iff_of_true trivial (Bool.eq_false_iff.mpr hin)

theorem not_recordless_reapTerminalExecutionContainer (hreliable : denv.Reliable)
    (hfind : d.find c.containerId = some c) :
    ¬ Recordless env denv (reapTerminalExecutionContainer e c) (w, d) := by
  intro hq
  have hstop := ((everyOp_bind_iff _).mp hq).2 _ (w, d) rfl
  obtain ⟨-, hrest⟩ := (everyOp_bind_iff _).mp hstop
  have hwp : (stopInspected c.containerId c).wp (hostHandler env denv) (fun _ _ => True)
      (fun _ _ => False) (w, d) :=
    wp_stopInspected_gone hreliable hfind fun _ _ _ _ => trivial
  obtain ⟨-, hraises⟩ := (wp_iff_run _ _).mp hwp
  rcases hrun : (stopInspected c.containerId c).run (hostHandler env denv) (w, d) with ⟨exc | c', h'⟩
  · exact hraises exc h' hrun
  · obtain ⟨-, hupdate⟩ := (everyOp_bind_iff _).mp (hrest c' h' hrun)
    rcases hended : (c'.finishedAt <|> e.containerEndedAt) with - | t
    · exact (hupdate _ _ (by rw [hended]; rfl)).1
    · exact (hupdate _ _ (by rw [hended]; rfl)).1

/-- The turn of an execution at rest does nothing. -/
theorem run_reconcileListed_atRest (hrest : AtRest cs e) (h : Host) :
    ∃ r, (reconcileListed cs e).run (hostHandler env denv) h = (.ok r, h) ∧
      Recordless env denv (reconcileListed cs e) h := by
  unfold reconcileListed
  rcases hlink : e.container with - | i
  · exact ⟨_, rfl, trivial⟩
  · dsimp only
    rcases hfind : findContainer cs i with - | c
    · dsimp only
      rw [if_neg (by rw [(hrest i hlink).missing hfind]; exact Bool.false_ne_true)]
      exact ⟨_, rfl, trivial⟩
    · obtain ⟨hexited, hreap, hsync⟩ := (hrest i hlink).present c hfind
      have hnot : ¬ e.outOfSync c = true := by simp [hsync]
      dsimp only
      rw [reconcileLinked, if_neg (by rw [hexited]; exact Bool.false_ne_true)]
      split
      next hterminal =>
        have hretained : ¬ e.metadata.terminateContainerOnCompletion = true := by
          intro hterminate
          rw [Reapable, hterminal, hterminate] at hreap
          cases hreap
        rw [reconcileTerminal, if_neg hretained, syncExecutionContainerState, if_neg hnot]
        exact ⟨_, rfl, trivial⟩
      · rw [reconcileSynced, syncExecutionContainerState, if_neg hnot]
        exact ⟨_, rfl, trivial⟩

/-- **The turn of an execution** records nothing just if the execution is at rest. -/
theorem recordless_reconcileListed_iff (hreliable : denv.Reliable) (h : Host) :
    Recordless env denv (reconcileListed h.2.containers e) h ↔ AtRest h.2.containers e := by
  refine ⟨fun hq => ?_, fun hrest => (run_reconcileListed_atRest hrest h).choose_spec.2⟩
  obtain ⟨w, d⟩ := h
  unfold reconcileListed at hq
  refine fun i hlink => ⟨fun hfind => ?_, fun c hfind => ?_⟩
  · rw [hlink] at hq
    dsimp only at hq hfind
    rw [hfind] at hq
    dsimp only at hq
    by_contra hactive
    rw [if_pos (by simpa using hactive)] at hq
    exact not_recordless_reconcileMissing _ hq
  · have hid : c.containerId = i := by simpa using List.find?_some hfind
    rw [hlink] at hq
    dsimp only at hq hfind
    rw [hfind] at hq
    dsimp only at hq
    rw [reconcileLinked] at hq
    have hexited : ¬ (e.status.isActive && c.status.isExited) = true := by
      intro hexited
      rw [if_pos hexited] at hq
      exact not_recordless_reconcileExited _ hq
    rw [if_neg hexited] at hq
    refine ⟨Bool.eq_false_iff.mpr hexited, ?_⟩
    split at hq
    next hterminal =>
      rw [reconcileTerminal] at hq
      split at hq
      · have hlisted : d.find c.containerId = some c := by
          rw [hid]
          exact hfind
        exact absurd ((everyOp_bind_iff _).mp hq).1
          (not_recordless_reapTerminalExecutionContainer hreliable hlisted)
      next hretained =>
        refine ⟨?_, ?_⟩
        · rw [Reapable, Bool.eq_false_iff.mpr hretained, Bool.and_false]
        · exact (recordless_syncExecutionContainerState_iff _).mp ((everyOp_bind_iff _).mp hq).1
    next hterminal =>
      refine ⟨?_, ?_⟩
      · rw [Reapable, Bool.eq_false_iff.mpr hterminal, Bool.false_and]
      · exact (recordless_syncExecutionContainerState_iff _).mp ((everyOp_bind_iff _).mp hq).1

/-! ### A pass -/

/-- The loop over the executions records nothing just if all are at rest: the turns before the
first one that is not change nothing. -/
theorem recordless_collect_iff (hreliable : denv.Reliable) (h : Host) (executions : List Execution) :
    Recordless env denv (Program.collect (reconcileListed h.2.containers) executions) h ↔
      ∀ e ∈ executions, AtRest h.2.containers e := by
  induction executions with
  | nil => exact iff_of_true trivial fun e he => absurd he List.not_mem_nil
  | cons a rest ih =>
    have hhead : Recordless env denv (reconcileListed h.2.containers a) h ↔
        AtRest h.2.containers a := recordless_reconcileListed_iff hreliable h
    rw [List.forall_mem_cons, ← ih, Program.collect, Recordless, everyOp_bind_iff]
    refine (and_congr_left' hhead).trans (and_congr_right fun hrest => ?_)
    obtain ⟨r, hrun, -⟩ : ∃ r, (reconcileListed h.2.containers a).run (hostHandler env denv) h =
      (.ok r, h) ∧ Recordless env denv (reconcileListed h.2.containers a) h :=
        run_reconcileListed_atRest hrest h
    constructor
    · intro hall
      exact ((everyOp_bind_iff _).mp (hall r h hrun)).1
    · intro hq r' h' hrun'
      obtain ⟨-, rfl⟩ := Prod.mk.inj (hrun.symm.trans hrun')
      exact (everyOp_bind_iff _).mpr ⟨hq, fun _ _ _ => trivial⟩

end Turn

section Pass

variable {ttlSeconds : ℕ}

/-- The program has no operation that records anything. -/
abbrev NeverRecords {α : Type} (p : HostRun α) : Prop :=
  p.Within (fun _ _ => True) fun o => ∀ h, RecordsNothing o h

theorem NeverRecords.recordless {α : Type} {p : HostRun α} (hp : NeverRecords p) (h : Host) :
    Recordless env denv p h := Program.everyOp_of_within _ (fun _ ho => ho) hp h

theorem neverRecords_command (o : DockerOp) : NeverRecords (command o) :=
  ⟨fun _ => trivial, fun _ _ => trivial⟩

theorem neverRecords_listManagedContainers : NeverRecords listManagedContainers :=
  (neverRecords_command .listManagedContainers).bind fun answer => within_ofExcept answer

theorem neverRecords_removeContainer (i : String) (force : Bool) :
    NeverRecords (removeContainer i force) :=
  (neverRecords_command (.removeContainer i force)).bind fun answer =>
    within_ofExcept answer

theorem neverRecords_stopInspected (i : String) (c : RuntimeContainerState) :
    NeverRecords (stopInspected i c) := by
  have hstop : NeverRecords (stopIfLive i c) := by
    unfold stopIfLive
    split
    · exact (neverRecords_command (.stopContainer i)).bind fun answer =>
        within_ofExcept answer
    · trivial
  exact hstop.bind fun current => (neverRecords_removeContainer i _).bind fun _ => trivial

/-- Containers are removed without a record. -/
theorem neverRecords_reapOrphan (executions : List Execution) (c : RuntimeContainerState) :
    NeverRecords (reapOrphan executions c) := by
  unfold reapOrphan
  split
  · trivial
  · exact (neverRecords_stopInspected _ _).bind fun _ => trivial

theorem neverRecords_cleanupExpiredContainers (cs : List RuntimeContainerState) :
    NeverRecords (cleanupExpiredContainers ttlSeconds cs) := by
  have hnow : NeverRecords (liftM utcNow : HostRun Time) := ⟨fun _ => trivial, fun _ _ => trivial⟩
  refine hnow.bind fun now => Program.Within.collect fun c _ => ?_
  refine (neverRecords_removeContainer _ _).attempt.bind fun answer => ?_
  rcases answer with - | -
  · trivial
  · trivial

/-- **A pass records nothing** if and only if every execution is at rest. -/
theorem recordless_reconcileOnce_iff (hreliable : denv.Reliable) (h : Host) :
    Recordless env denv (reconcileOnce ttlSeconds) h ↔
      ∀ x e, Row x e h → AtRest h.2.containers e := by
  obtain ⟨w, d⟩ := h
  have hlisted : ∀ e, e ∈ w.db.executions.selectOrdered (fun _ => true) Execution.newestFirst ↔
      w.db.executions.get e.id = some e := fun e => by
    rw [mem_selectOrdered, and_iff_left rfl]
  have hrows : (∀ x e, Row x e (w, d) → AtRest d.containers e) ↔
      ∀ e ∈ w.db.executions.selectOrdered (fun _ => true) Execution.newestFirst,
        AtRest d.containers e := by
    constructor
    · exact fun h e he => h e.id e ((hlisted e).mp he)
    · intro h x e hrow
      obtain rfl : e.id = x := Row.id hrow
      exact h e ((hlisted e).mpr hrow)
  have hlist : (liftM (query (.listExecutions fun _ => true)) :
      HostRun (List Execution)).run (hostHandler env denv) (w, d) =
      (.ok (w.db.executions.selectOrdered (fun _ => true) Execution.newestFirst), (w, d)) := rfl
  have hanswer : listManagedContainers.run (hostHandler env denv) (w, d) =
      (.ok d.containers, (w, d.tick)) := by
    have hexec : exec denv .listManagedContainers d = (.ok d.containers, d.tick) := by
      rw [exec, hreliable, if_neg Bool.false_ne_true]
    show Program.run _ (Program.ofExcept (exec denv .listManagedContainers d).1)
      (w, (exec denv .listManagedContainers d).2) = _
    rw [hexec]
    rfl
  have hloop : Recordless env denv (Program.collect (reconcileListed d.containers)
      (w.db.executions.selectOrdered (fun _ => true) Execution.newestFirst)) (w, d.tick) ↔ _ :=
    recordless_collect_iff hreliable (w, d.tick) _
  rw [hrows]
  refine Iff.trans ⟨fun hq => ?_, fun hq => ?_⟩ hloop
  · have hlisted := ((everyOp_bind_iff _).mp hq).2 _ _ hlist
    exact ((everyOp_bind_iff _).mp (((everyOp_bind_iff _).mp hlisted).2 _ _ hanswer)).1
  · have hreads : Recordless env denv (liftM (query (.listExecutions fun _ => true)) :
        HostRun (List Execution)) (w, d) := ⟨trivial, trivial⟩
    refine (everyOp_bind_iff _).mpr ⟨hreads, fun executions h₁ hrun => ?_⟩
    obtain ⟨hexecutions, rfl⟩ := Prod.mk.inj (hlist.symm.trans hrun)
    obtain rfl := Except.ok.inj hexecutions
    refine (everyOp_bind_iff _).mpr
      ⟨neverRecords_listManagedContainers.recordless _, fun containers h₂ hrun => ?_⟩
    obtain ⟨hcontainers, rfl⟩ := Prod.mk.inj (hanswer.symm.trans hrun)
    obtain rfl := Except.ok.inj hcontainers
    refine (everyOp_bind_iff _).mpr ⟨hq, fun reconciled h₃ _ => ?_⟩
    have hcleanup : NeverRecords (Program.collect (reapOrphan
        (w.db.executions.selectOrdered (fun _ => true) Execution.newestFirst)) d.containers) :=
      Program.Within.collect fun c _ => neverRecords_reapOrphan _ c
    refine (everyOp_bind_iff _).mpr ⟨hcleanup.recordless _, fun orphans h₄ _ => ?_⟩
    refine (everyOp_bind_iff _).mpr
      ⟨(neverRecords_cleanupExpiredContainers _).recordless _, fun expired h₅ _ => ?_⟩
    trivial

end Pass

/-! ### What a pass makes of an execution -/

/-- The worker has suspended itself, and its container is retained: the execution stays active
and linked to a container that has exited. -/
def leavesSuspended (e : Execution) (c : RuntimeContainerState) : Bool :=
  e.status.isActive && c.status.isExited && !e.metadata.terminateContainerOnCompletion &&
    decide (c.exitCode = some workerExitSuspended)

/-- The worker has exited, its container is retained, and its start has not been recorded: the
exit records how the container has ended, but not when it started. -/
def leavesUnsynced (e : Execution) (c : RuntimeContainerState) : Bool :=
  e.status.isActive && c.status.isExited && !e.metadata.terminateContainerOnCompletion &&
    decide ((e.synced c).containerStartedAt ≠ e.containerStartedAt)

/-- The daemon's `before` of the container of `e` has become `after`, and the row `e'`. -/
structure Turned (e : Execution) (before : Option RuntimeContainerState) (e' : Execution)
    (after : Option RuntimeContainerState) : Prop where
  container : e'.container = none ∨ e'.container = e.container
  missing : before = none → after = none ∧ (e'.container ≠ none → Rests after e')
  kept : ∀ c, before = some c → after = none ∨ after = some c
  rests : ∀ c, before = some c →
    ((e'.container ≠ none → Rests after e') ↔ (leavesSuspended e c || leavesUnsynced e c) = false)
  removed : ∀ c, before = some c → c.status.isExited = true →
    ((e'.container ≠ none → Rests none e') ↔ leavesSuspended e c = false)

theorem workerOutcome_inactive (c : RuntimeContainerState) :
    (workerOutcome c).status.isActive = false := by
  unfold workerOutcome
  split
  · rfl
  · split
    · rfl
    · rfl

theorem rests_none_iff : Rests none e ↔ e.status.isActive = false :=
  ⟨fun h => h.missing rfl, fun h => ⟨fun _ => h, fun _ hc => absurd hc (Option.some_ne_none _).symm⟩⟩

theorem rests_some_iff : Rests (some c) e ↔ (e.status.isActive && c.status.isExited) = false ∧
    Reapable e c = false ∧ e.outOfSync c = false :=
  ⟨fun h => h.present c rfl, fun h => ⟨fun hc => absurd hc (Option.some_ne_none _), fun c' hc' => by
    obtain rfl := Option.some.inj hc'
    exact h⟩⟩

namespace Execution

theorem synced_of_inSync (h : e.outOfSync c = false) : e.synced c = e := by
  simp only [outOfSync, Bool.or_eq_false_iff, decide_eq_false_iff_not, not_not] at h
  obtain ⟨⟨⟨hstatus, hstarted⟩, hended⟩, hcode⟩ := h
  have hstarted : (c.startedAt <|> e.containerStartedAt) = e.containerStartedAt := hstarted
  have hended : (c.finishedAt <|> e.containerEndedAt) = e.containerEndedAt := hended
  have hcode : (c.exitCode <|> e.containerExitCode) = e.containerExitCode := hcode
  rw [synced, hstarted, hended, hcode, ← hstatus]

/-- What has been synced is in sync. -/
theorem outOfSync_synced (e : Execution) (c : RuntimeContainerState) :
    (e.synced c).outOfSync c = false := by
  rcases hstarted : c.startedAt <;> rcases hended : c.finishedAt <;> rcases hcode : c.exitCode <;>
    simp [outOfSync, synced, hstarted, hended, hcode]

theorem outOfSync_finishedBy (e : Execution) (c : RuntimeContainerState) (t : Time) :
    ((e.withExit c).finishedBy (workerOutcome c) t).outOfSync c =
      decide ((e.synced c).containerStartedAt ≠ e.containerStartedAt) := by
  rcases hended : c.finishedAt <;> rcases hcode : c.exitCode <;>
    simp [outOfSync, synced, finishedBy, withExit, hended, hcode]

end Execution

namespace Turned

variable {found : Option RuntimeContainerState} {t : Time}

/-- An execution without a container, and one that is not active and has lost it. -/
theorem untouched (hrest : e.container ≠ none → e.status.isActive = false) :
    Turned e none e none where
  container := .inr rfl
  missing _ := ⟨rfl, fun h => rests_none_iff.mpr (hrest h)⟩
  kept _ h := absurd h (Option.some_ne_none _).symm
  rests _ h := absurd h (Option.some_ne_none _).symm
  removed _ h := absurd h (Option.some_ne_none _).symm

theorem lost : Turned e none (e.withoutContainer t) none where
  container := .inr rfl
  missing _ := ⟨rfl, fun _ => rests_none_iff.mpr rfl⟩
  kept _ h := absurd h (Option.some_ne_none _).symm
  rests _ h := absurd h (Option.some_ne_none _).symm
  removed _ h := absurd h (Option.some_ne_none _).symm

/-- The daemon has the container `c` of the execution, and what is to be known of that case. -/
theorem of_found (hcontainer : e'.container = none ∨ e'.container = e.container)
    (hkept : found = none ∨ found = some c)
    (hrests : (e'.container ≠ none → Rests found e') ↔
      (leavesSuspended e c || leavesUnsynced e c) = false)
    (hremoved : c.status.isExited = true →
      ((e'.container ≠ none → Rests none e') ↔ leavesSuspended e c = false)) :
    Turned e (some c) e' found where
  container := hcontainer
  missing h := absurd h (Option.some_ne_none _)
  kept c' h := by
    obtain rfl := Option.some.inj h
    exact hkept
  rests c' h := by
    obtain rfl := Option.some.inj h
    exact hrests
  removed c' h := by
    obtain rfl := Option.some.inj h
    exact hremoved

/-- Neither flaw, and a row that rests. -/
theorem of_rests (hcontainer : e'.container = none ∨ e'.container = e.container)
    (hkept : found = none ∨ found = some c) (hsuspended : leavesSuspended e c = false)
    (hunsynced : leavesUnsynced e c = false) (hrests : e'.container ≠ none → Rests found e')
    (hremoved : c.status.isExited = true → e'.container ≠ none → Rests none e') :
    Turned e (some c) e' found := by
  refine of_found hcontainer hkept (iff_of_true hrests ?_) fun hexited =>
    iff_of_true (hremoved hexited) hsuspended
  rw [hsuspended, hunsynced]
  rfl

/-- Neither the worker runs on with its container gone, nor is the container retained. -/
theorem leaves_of_not_exited (hnot : (e.status.isActive && c.status.isExited) = false) :
    leavesSuspended e c = false ∧ leavesUnsynced e c = false := by
  rw [leavesSuspended, leavesUnsynced, hnot]
  exact ⟨rfl, rfl⟩

theorem leaves_of_terminates (hterminates : e.metadata.terminateContainerOnCompletion = true) :
    leavesSuspended e c = false ∧ leavesUnsynced e c = false := by
  rw [leavesSuspended, leavesUnsynced, hterminates]
  simp

theorem synced (hnot : (e.status.isActive && c.status.isExited) = false)
    (hreap : Reapable e c = false) : Turned e (some c) (e.synced c) (some c) := by
  obtain ⟨hsuspended, hunsynced⟩ := leaves_of_not_exited hnot
  refine of_rests (.inr rfl) (.inr rfl) hsuspended hunsynced (fun _ => ?_) fun hexited _ => ?_
  · exact rests_some_iff.mpr ⟨hnot, hreap, e.outOfSync_synced c⟩
  · rw [hexited, Bool.and_true] at hnot
    exact rests_none_iff.mpr hnot

theorem reaped {c' : RuntimeContainerState} (hnot : e.status.isActive = false) :
    Turned e (some c) (e.withRemoved c' t) none := by
  obtain ⟨hsuspended, hunsynced⟩ : leavesSuspended e c = false ∧ leavesUnsynced e c = false :=
    leaves_of_not_exited (by rw [hnot, Bool.false_and])
  have hrests : Rests none (e.withRemoved c' t) := rests_none_iff.mpr hnot
  exact of_rests (.inr rfl) (.inl rfl) hsuspended hunsynced (fun _ => hrests) fun _ _ => hrests

/-- The container has been removed, and an execution that is still active has forgotten it. -/
theorem unlinked (hcontainer : e'.container = e.container)
    (hterminates : e.metadata.terminateContainerOnCompletion = true) :
    Turned e (some c) e'.unlinkIfActive none := by
  obtain ⟨hsuspended, hunsynced⟩ : leavesSuspended e c = false ∧ leavesUnsynced e c = false :=
    leaves_of_terminates hterminates
  rcases hactive : e'.status.isActive with - | -
  · have hsame : e'.unlinkIfActive = e' := if_neg (by rw [hactive]; exact Bool.false_ne_true)
    have hrests : Rests none e' := rests_none_iff.mpr hactive
    rw [hsame]
    exact of_rests (.inr hcontainer) (.inl rfl) hsuspended hunsynced (fun _ => hrests)
      fun _ _ => hrests
  · have hunlinked : e'.unlinkIfActive = e'.unlinked := if_pos hactive
    have hnone : e'.unlinked.container = none := rfl
    rw [hunlinked]
    exact of_rests (.inl hnone) (.inl rfl) hsuspended hunsynced (fun h => absurd hnone h)
      fun _ h => absurd hnone h

section Exited

variable (hlink : e.container ≠ none) (hexited : (e.status.isActive && c.status.isExited) = true)
  (hretained : e.metadata.terminateContainerOnCompletion = false)

include hlink hexited hretained

/-- A worker that has suspended itself, and whose container stays. -/
theorem suspended (hcode : c.exitCode = some workerExitSuspended) :
    Turned e (some c) (e.withExit c) (some c) := by
  obtain ⟨hactive, -⟩ := Bool.and_eq_true_iff.mp hexited
  have hsuspended : leavesSuspended e c = true := by
    rw [leavesSuspended, hexited, hretained, hcode]
    rfl
  refine of_found (.inr rfl) (.inr rfl) (iff_of_false (fun h => ?_) ?_) fun _ =>
    iff_of_false (fun h => ?_) ?_
  · exact absurd hexited (Bool.eq_false_iff.mp (rests_some_iff.mp (h hlink)).1)
  · rw [hsuspended]
    exact Bool.false_ne_true.symm
  · have hinactive : (e.withExit c).status.isActive = false := rests_none_iff.mp (h hlink)
    exact absurd hactive (Bool.eq_false_iff.mp hinactive)
  · rw [hsuspended]
    exact Bool.false_ne_true.symm

/-- A worker that has finished its execution, and whose container stays. -/
theorem finished (hcode : c.exitCode ≠ some workerExitSuspended) :
    Turned e (some c) ((e.withExit c).finishedBy (workerOutcome c) t) (some c) := by
  have hinactive : ((e.withExit c).finishedBy (workerOutcome c) t).status.isActive = false :=
    workerOutcome_inactive c
  have hsuspended : leavesSuspended e c = false := by
    rw [leavesSuspended, decide_eq_false hcode, Bool.and_false]
  have hunsynced : leavesUnsynced e c =
      decide ((e.synced c).containerStartedAt ≠ e.containerStartedAt) := by
    rw [leavesUnsynced, hexited, hretained]
    rfl
  have hreap : Reapable ((e.withExit c).finishedBy (workerOutcome c) t) c = false := by
    show (_ && e.metadata.terminateContainerOnCompletion) = false
    rw [hretained, Bool.and_false]
  refine of_found (.inr rfl) (.inr rfl) ?_ fun _ =>
    iff_of_true (fun _ => rests_none_iff.mpr hinactive) hsuspended
  rw [hsuspended, Bool.false_or, hunsynced, ← e.outOfSync_finishedBy c t]
  constructor
  · exact fun h => (rests_some_iff.mp (h hlink)).2.2
  · intro hsync _
    exact rests_some_iff.mpr ⟨by rw [hinactive, Bool.false_and], hreap, hsync⟩

end Exited

end Turned

/-! ### The turn of an execution -/

/-- The row of `x`, and what the daemon has of the container it was linked to. -/
structure Followed (x : Uuid) (link : Option String) (e : Execution)
    (found : Option RuntimeContainerState) (h : Host) : Prop where
  row : Row x e h
  found : link.bind h.2.find = found

section Followed

variable {link : Option String} {found : Option RuntimeContainerState}

theorem Followed.spared {o : HostSig.Op} (hf : Followed x link e found h) (ho : Spared x link o) :
    Followed x link e found (hostHandler env denv o h).2 := by
  refine ⟨get_spared hf.row ho, ?_⟩
  obtain ⟨w, d⟩ := h
  rcases o with (o | o | o | - | -) | o
  all_goals try exact hf.found
  rw [← hf.found]
  rcases hlink : link with - | j
  · rfl
  · show (exec denv o d).2.find j = d.find j
    apply find_exec
    intro htarget
    cases o with
    | stopContainer i =>
      cases htarget
      exact ho hlink
    | removeContainer i force =>
      cases htarget
      exact ho hlink
    | _ => cases htarget

theorem Followed.aside {α : Type} {p : HostRun α} (hf : Followed x link e found h)
    (hp : Aside x link p) :
    p.wp (hostHandler env denv) (fun _ => Followed x link e found) (fun _ _ => True) h := by
  refine wp_mono (Program.Within.invariant (I := Followed x link e found)
    (fun _ _ hf' ho => ⟨trivial, hf'.spared ho⟩) hp hf) ?_ ?_
  · exact fun _ _ h => h
  · exact fun _ _ _ => trivial

end Followed

section Turns

variable {cs : List RuntimeContainerState}

variable {E : RuntimeException → World → Prop}

variable {Q : Unit → World → Prop}

/-- The columns are brought up to date, or are. -/
theorem wp_syncExecutionContainerState (hrow : Stores e w)
    (hQ : ∀ w', Stores (e.synced c) w' → Q () w') :
    (syncExecutionContainerState e c).wp (handler env) Q E w := by
  rw [syncExecutionContainerState]
  split
  · rw [← bind_done (updateExecution _)]
    apply wp_save
    exact fun w' hrow' _ => wp_of_done (hQ w' hrow')
  next hin =>
    have hsame : e.synced c = e := Execution.synced_of_inSync (Bool.eq_false_iff.mpr hin)
    apply wp_of_done
    apply hQ
    rw [hsame]
    exact hrow

/-- An execution whose worker has exited. -/
def Exited (e : Execution) (c : RuntimeContainerState) (e' : Execution) : Prop :=
  (c.exitCode = some workerExitSuspended ∧ e' = e.withExit c) ∨
    (c.exitCode ≠ some workerExitSuspended ∧
      ∃ t, e' = (e.withExit c).finishedBy (workerOutcome c) t)

theorem wp_markExited {Q : Execution → World → Prop}
    (hQ : ∀ e' w', Exited e c e' → Stores e' w' → Q e' w') :
    (markExecutionFailedForExitedContainer e c).wp (handler env) Q E w := by
  rw [markExecutionFailedForExitedContainer, Program.wp_bind]
  apply wp_eventStateFor
  intro st hst
  apply wp_orUtcNow
  intro now w₁ _
  split
  next hcode =>
    rw [recordSuspended]
    apply wp_save
    intro w₂ hrow₂ _
    rw [Program.wp_bind]
    apply wp_emitHeld
    · rw [hst]
      exact hrow₂.ne_none
    · intro st' w₃ _ hw₃
      apply wp_of_done
      exact hQ _ _ (.inl ⟨hcode, rfl⟩) (hrow₂.of_sameRecords hw₃.toSameRecords)
  next hcode =>
    rw [recordFinished]
    apply wp_save
    intro w₂ hrow₂ _
    rw [Program.wp_bind]
    apply wp_emitHeld
    · rw [hst]
      exact hrow₂.ne_none
    · intro st' w₃ hst' hw₃
      have hrow₃ := hrow₂.of_sameRecords hw₃.toSameRecords
      rw [Program.wp_bind]
      apply wp_emitHeld
      · rw [hst', hst]
        exact hrow₃.ne_none
      · intro st'' w₄ _ hw₄
        apply wp_of_done
        exact hQ _ _ (.inr ⟨hcode, now, rfl⟩) (hrow₃.of_sameRecords hw₄.toSameRecords)

theorem wp_recordRemoved (hQ : ∀ t w', Stores (e.withRemoved c t).unlinkIfActive w' → Q () w') :
    (recordRemoved e c).wp (handler env) Q E w := by
  rw [recordRemoved]
  apply wp_orUtcNow
  intro endedAt w₁ _
  rw [← bind_done (updateExecution _)]
  apply wp_save
  exact fun w' hrow' _ => wp_of_done (hQ endedAt w' hrow')

@[simp] theorem Execution.id_unlinkIfActive (e : Execution) : e.unlinkIfActive.id = e.id := by
  unfold Execution.unlinkIfActive
  split
  · rfl
  · rfl

theorem Exited.id (hexited : Exited e c e') : e'.id = e.id := by
  rcases hexited with ⟨-, rfl⟩ | ⟨-, t, rfl⟩
  · rfl
  · rfl

theorem Exited.container (hexited : Exited e c e') : e'.container = e.container := by
  rcases hexited with ⟨-, rfl⟩ | ⟨-, t, rfl⟩
  · rfl
  · rfl

theorem Exited.metadata (hexited : Exited e c e') : e'.metadata = e.metadata := by
  rcases hexited with ⟨-, rfl⟩ | ⟨-, t, rfl⟩
  · rfl
  · rfl

/-- What a turn makes of its own execution. -/
def TurnedIn (e : Execution) (before : Option RuntimeContainerState) (h : Host) : Prop :=
  ∃ e' after, Followed e.id e.container e' after h ∧ Turned e before e' after

theorem bind_find {f : String → Option RuntimeContainerState} (hlink : e.container = some i) :
    e.container.bind f = f i := by
  rw [hlink]
  rfl

theorem turned_reconcileExited (hreliable : denv.Reliable) (hlink : e.container = some i)
    (hfind : d.find i = some c) (hexited : (e.status.isActive && c.status.isExited) = true) :
    (reconcileExited e c).wp (hostHandler env denv) (fun _ => TurnedIn e (some c))
      (fun _ _ => True) (w, d) := by
  have hid : c.containerId = i := containerId_of_find hfind
  have hne : e.container ≠ none := by
    rw [hlink]
    exact Option.some_ne_none i
  obtain ⟨-, hgone⟩ := Bool.and_eq_true_iff.mp hexited
  rw [reconcileExited]
  apply wp_lift_bind
  apply wp_markExited
  intro e₁ w₁ he₁ hrow₁
  rw [Program.wp_bind, maybeRemoveFinishedExecutionContainer, hgone, Bool.true_and, wp_ite]
  split
  next hterminates =>
    rw [he₁.metadata] at hterminates
    rw [removeFinished, hgone, Program.wp_bind]
    subst hid
    apply wp_attempt_removeForced hreliable
    · exact fun hnone => absurd (hfind.symm.trans hnone) (Option.some_ne_none c)
    · intro _
      apply wp_lift_bind
      apply wp_recordRemoved
      intro t w₂ hrow₂
      refine wp_of_done (wp_of_done ⟨(e₁.withRemoved c t).unlinkIfActive, none, ⟨?_, ?_⟩, ?_⟩)
      · rw [Stores, Execution.id_unlinkIfActive] at hrow₂
        rw [← he₁.id]
        exact hrow₂
      · rw [bind_find hlink]
        exact find_remove_self d _
      · exact Turned.unlinked he₁.container hterminates
  next hretained =>
    rw [he₁.metadata] at hretained
    refine wp_of_done (wp_of_done ⟨e₁, some c, ⟨?_, ?_⟩, ?_⟩)
    · rw [← he₁.id]
      exact hrow₁
    · rw [bind_find hlink]
      exact hfind
    · rcases he₁ with ⟨hcode, rfl⟩ | ⟨hcode, t, rfl⟩
      · exact Turned.suspended hne hexited (Bool.eq_false_iff.mpr hretained) hcode
      · exact Turned.finished hne hexited (Bool.eq_false_iff.mpr hretained) hcode

/-- The columns of a row whose container stays are brought up to date. -/
theorem turned_sync {α : Type} {a : α} (hrow : Row e.id e (w, d)) (hlink : e.container = some i)
    (hfind : d.find i = some c) (hnot : (e.status.isActive && c.status.isExited) = false)
    (hreap : Reapable e c = false) :
    ((liftM (syncExecutionContainerState e c) : HostRun Unit) >>= fun _ => pure a).wp
      (hostHandler env denv) (fun _ => TurnedIn e (some c)) (fun _ _ => True) (w, d) := by
  apply wp_lift_bind
  apply wp_syncExecutionContainerState hrow
  intro w' hrow'
  refine wp_of_done ⟨e.synced c, some c, ⟨hrow', ?_⟩, Turned.synced hnot hreap⟩
  rw [bind_find hlink]
  exact hfind

theorem turned_reap {α : Type} {a : α} (hreliable : denv.Reliable)
    (hlink : e.container = some i) (hfind : d.find i = some c)
    (hnot : e.status.isActive = false) :
    (reapTerminalExecutionContainer e c >>= fun _ => pure a).wp (hostHandler env denv)
      (fun _ => TurnedIn e (some c)) (fun _ _ => True) (w, d) := by
  have hid : c.containerId = i := containerId_of_find hfind
  subst hid
  rw [Program.wp_bind, reapTerminalExecutionContainer]
  apply wp_lift_bind
  refine wp_of_all (fun st w₁ => ?_) (fun _ _ => trivial) w
  rw [Program.wp_bind]
  apply wp_stopInspected_gone hreliable hfind
  intro c' d₁ hgone _
  apply wp_lift_bind
  refine wp_of_all (fun endedAt w₂ => ?_) (fun _ _ => trivial) w₁
  apply wp_lift_bind
  rw [← bind_done (updateExecution _)]
  apply wp_save
  intro w₃ hrow₃ _
  apply wp_of_done
  apply wp_lift_bind
  rw [emitHeld, Program.wp_bind]
  apply wp_appendEvent
  · intro event w₄ hrecords
    refine wp_of_done (wp_of_done (wp_of_done
      ⟨e.withRemoved c' endedAt, none, ⟨hrow₃.of_sameRecords hrecords, ?_⟩, Turned.reaped hnot⟩))
    rw [bind_find hlink]
    exact hgone
  · exact fun _ _ _ _ => trivial

/-- **The turn of an execution.** -/
theorem turned_reconcileListed (hreliable : denv.Reliable) (hrow : Row e.id e (w, d))
    (hcs : e.container.bind (findContainer cs) = e.container.bind d.find) :
    (reconcileListed cs e).wp (hostHandler env denv) (fun _ => TurnedIn e (e.container.bind d.find))
      (fun _ _ => True) (w, d) := by
  unfold reconcileListed
  rcases hlink : e.container with - | i
  · refine wp_of_done ⟨e, none, ⟨hrow, ?_⟩, Turned.untouched fun h => absurd hlink h⟩
    rw [hlink]
    rfl
  · rw [hlink] at hcs
    have hcs : findContainer cs i = d.find i := hcs
    show Program.wp _ (fun _ => TurnedIn e (d.find i)) _ _ _
    dsimp only
    rw [hcs]
    rcases hfind : d.find i with - | c
    · dsimp only
      split
      · rw [reconcileMissing]
        apply wp_lift_bind
        refine wp_post wp_markExecutionFailedForMissingContainer fun _ w' hrow' => ?_
        obtain ⟨now, hrow'⟩ := hrow'
        refine wp_of_done ⟨e.withoutContainer now, none, ⟨hrow', ?_⟩, Turned.lost⟩
        rw [bind_find hlink]
        exact hfind
      next hactive =>
        refine wp_of_done ⟨e, none, ⟨hrow, ?_⟩,
          Turned.untouched fun _ => Bool.eq_false_iff.mpr hactive⟩
        rw [bind_find hlink]
        exact hfind
    · dsimp only
      rw [reconcileLinked]
      split
      next hexited => exact turned_reconcileExited hreliable hlink hfind hexited
      next hexited =>
        have hexited : (e.status.isActive && c.status.isExited) = false :=
          Bool.eq_false_iff.mpr hexited
        split
        next hterminal =>
          rw [reconcileTerminal]
          split
          · refine turned_reap hreliable hlink hfind ?_
            obtain ⟨hterminal, -⟩ := Bool.and_eq_true_iff.mp hterminal
            rcases hstatus : e.status <;> rw [hstatus] at hterminal <;>
              first | rfl | cases hterminal
          next hretained =>
            refine turned_sync hrow hlink hfind hexited ?_
            rw [Reapable, Bool.eq_false_iff.mpr hretained, Bool.and_false]
        next hterminal =>
          refine turned_sync hrow hlink hfind hexited ?_
          rw [Reapable, Bool.eq_false_iff.mpr hterminal, Bool.false_and]

end Turns

/-! ### The rest of the pass -/

section Cleanup

variable {ttlSeconds : ℕ} {link : Option String} {after : Option RuntimeContainerState}

/-- What the cleanup leaves of a container that has come through the loops as `after`. -/
def cleaned (ttlSeconds : ℕ) (now : Time) (before after : Option RuntimeContainerState) :
    Option RuntimeContainerState :=
  if before.any (·.expired ttlSeconds now) then none else after

/-- The turn of the container that is followed. -/
theorem followed_reapExpired (hreliable : denv.Reliable)
    (hf : Followed x (some c.containerId) e after h) :
    (reapExpired ttlSeconds c).wp (hostHandler env denv)
      (fun _ h' => h'.1 = h.1 ∧ Followed x (some c.containerId) e none h') (fun _ _ => True) h := by
  obtain ⟨w, d⟩ := h
  rw [reapExpired, Program.wp_bind]
  apply wp_attempt_removeForced hreliable
  · exact fun hnone => wp_of_done ⟨rfl, hf.row, hnone⟩
  · exact fun _ => wp_of_done ⟨rfl, hf.row, find_remove_self d _⟩

/-- A command leaves the store and its clock as they are. -/
theorem wp_reapExpired_store (h : Host) :
    (reapExpired ttlSeconds c).wp (hostHandler env denv) (fun _ h' => h'.1 = h.1)
      (fun _ _ => True) h := by
  obtain ⟨w, d⟩ := h
  rw [reapExpired, Program.wp_bind, wp_attempt, removeContainer, command, hostHandler,
    wp_performRight_bind]
  rcases (exec denv (.removeContainer c.containerId true) d).1 with exc | -
  · exact wp_of_raise (wp_of_done rfl)
  · exact wp_of_done (wp_of_done rfl)

/-- The cleanup removes nothing else, and leaves the store alone. -/
theorem followed_reapExpired_other (hne : link ≠ some c.containerId)
    (hf : Followed x link e after h) :
    (reapExpired ttlSeconds c).wp (hostHandler env denv)
      (fun bs h' => (h'.1 = h.1 ∧ Followed x link e after h') ∧ ∀ b ∈ bs, True) (fun _ _ => True)
      h := by
  refine wp_mono (wp_and (wp_reapExpired_store h)
    (hf.aside (Aside.reapExpired ttlSeconds hne))) (fun bs h' h => ?_) fun _ _ _ => trivial
  exact ⟨h, fun _ _ => trivial⟩

theorem followed_cleanupExpiredContainers {d₀ : Docker} (hreliable : denv.Reliable)
    (hf : Followed x link e after h) :
    (cleanupExpiredContainers ttlSeconds d₀.containers).wp (hostHandler env denv)
      (fun _ h' => h'.1.clockReads = h.1.clockReads + 1 ∧ Followed x link e
        (cleaned ttlSeconds (env.clock h.1.clockReads) (link.bind d₀.find) after) h')
      (fun _ _ => True) h := by
  obtain ⟨w, d⟩ := h
  rw [cleanupExpiredContainers]
  apply wp_lift_bind
  rw [← bind_done utcNow, wp_utcNow]
  apply wp_of_done
  have hstart : Followed x link e after ({ w with clockReads := w.clockReads + 1 }, d) :=
    ⟨hf.row, hf.found⟩
  have hdistinct : ∀ b ∈ d₀.containers, ∀ c, d₀.find c.containerId = some c → b ≠ c →
      b.containerId ≠ c.containerId := by
    intro b hb c hfind hne hid
    exact hne (List.inj_on_of_nodup_map d₀.unique hb (mem_of_find hfind) hid)
  by_cases hexpired : ∃ c, link.bind d₀.find = some c ∧
      c.expired ttlSeconds (env.clock w.clockReads) = true
  · obtain ⟨c, hbefore, hexpired⟩ := hexpired
    obtain ⟨i, rfl, hfind⟩ := Option.bind_eq_some_iff.mp hbefore
    obtain rfl : c.containerId = i := containerId_of_find hfind
    have hcleaned : cleaned ttlSeconds (env.clock w.clockReads)
        ((some c.containerId).bind d₀.find) after = none := by
      rw [cleaned, hbefore]
      exact if_pos hexpired
    have hmem : c ∈ d₀.containers.filter (·.expired ttlSeconds (env.clock w.clockReads)) :=
      List.mem_filter.mpr ⟨mem_of_find hfind, hexpired⟩
    refine wp_post (Program.wp_collect_turn
      (I := fun h => h.1 = { w with clockReads := w.clockReads + 1 } ∧
        Followed x (some c.containerId) e after h)
      (T := fun _ h => h.1 = { w with clockReads := w.clockReads + 1 } ∧
        Followed x (some c.containerId) e none h)
      (R := fun _ => True) ((d₀.unique.of_map _).filter _) hmem (fun b hb hne h hI => ?_)
      (fun b hb hne own h hT => ?_) (fun h hI => ?_) ⟨rfl, hstart⟩) (fun _ h' hT => ?_)
    · have hother : some c.containerId ≠ some b.containerId := fun heq =>
        hdistinct b (List.mem_of_mem_filter hb) c hfind hne (Option.some.inj heq).symm
      refine wp_post (followed_reapExpired_other hother hI.2) fun bs h' h => ?_
      exact ⟨⟨h.1.1.trans hI.1, h.1.2⟩, h.2⟩
    · have hother : some c.containerId ≠ some b.containerId := fun heq =>
        hdistinct b (List.mem_of_mem_filter hb) c hfind hne (Option.some.inj heq).symm
      refine wp_post (followed_reapExpired_other hother hT.2) fun bs h' h => ?_
      exact ⟨⟨h.1.1.trans hT.1, h.1.2⟩, h.2⟩
    · refine wp_post (followed_reapExpired hreliable hI.2) fun bs h' h => ?_
      exact ⟨h.1.trans hI.1, h.2⟩
    · obtain ⟨-, ⟨hw, hf'⟩, -⟩ := hT
      rw [hcleaned]
      exact ⟨congrArg World.clockReads hw, hf'⟩
  · have hcleaned : cleaned ttlSeconds (env.clock w.clockReads) (link.bind d₀.find) after =
        after := by
      rw [cleaned, if_neg]
      intro hany
      obtain ⟨c, hbefore, hc⟩ := (Option.any_eq_true _ _).mp hany
      exact hexpired ⟨c, hbefore, hc⟩
    refine wp_post (Program.wp_collect_quiet
      (I := fun h => h.1 = { w with clockReads := w.clockReads + 1 } ∧ Followed x link e after h)
      (R := fun _ => True) (fun b hb h hI => ?_) ⟨rfl, hstart⟩) (fun _ h' hI => ?_)
    · have hother : link ≠ some b.containerId := by
        rintro rfl
        obtain ⟨hb, hbexpired⟩ := List.mem_filter.mp hb
        exact hexpired ⟨b, find_of_mem hb, hbexpired⟩
      refine wp_post (followed_reapExpired_other hother hI.2) fun bs h' h => ?_
      exact ⟨⟨h.1.1.trans hI.1, h.1.2⟩, h.2⟩
    · rw [hcleaned]
      exact ⟨congrArg World.clockReads hI.1.1, hI.1.2⟩

end Cleanup

/-! ### The first pass -/

section FirstPass

variable {ttlSeconds : ℕ}

/-- A container is linked to one execution at most, whose label it was created with. -/
structure WellLinked (h : Host) : Prop where
  sole : ∀ x y e e' i, Row x e h → Row y e' h → e.container = some i → e'.container = some i → x = y
  labelled : ∀ x e i c, Row x e h → e.container = some i → h.2.find i = some c →
    c.executionId = some x

/-- The time that the cleanup of a pass goes by: no clock is read after it. -/
def cleanupTime (env : Environment) (h : Host) : Time := env.clock (h.1.clockReads - 1)

theorem TurnedIn.aside {α : Type} {p : HostRun α} {before : Option RuntimeContainerState}
    (ht : TurnedIn e before h) (hp : Aside e.id e.container p) :
    p.wp (hostHandler env denv) (fun _ => TurnedIn e before) (fun _ _ => True) h := by
  obtain ⟨e', after, hf, hturned⟩ := ht
  exact wp_post (hf.aside hp) (fun _ _ hf' => ⟨e', after, hf', hturned⟩)

/-- **What a pass makes of an execution**: its turn, and the cleanup of its container. -/
theorem followed_reconcileOnce (hreliable : denv.Reliable) (hlinks : WellLinked h)
    (hrow : Row x e h) :
    (reconcileOnce ttlSeconds).wp (hostHandler env denv) (fun _ h₁ => ∃ e' after,
      Followed x e.container e' (cleaned ttlSeconds (cleanupTime env h₁)
        (e.container.bind h.2.find) after) h₁ ∧ Turned e (e.container.bind h.2.find) e' after)
      (fun _ _ => True) h := by
  obtain ⟨w, d⟩ := h
  obtain rfl : e.id = x := hrow.id
  rw [reconcileOnce]
  apply wp_lift_query
  show Program.wp _ _ _ (listManagedContainers >>= _) (w, d)
  rw [Program.wp_bind]
  apply wp_listManagedContainers (fun _ => trivial)
  have hlisted : e ∈ w.db.executions.selectOrdered (fun _ => true) Execution.newestFirst :=
    mem_selectOrdered.mpr ⟨hrow, rfl⟩
  have hother : ∀ b ∈ w.db.executions.selectOrdered (fun _ => true) Execution.newestFirst,
      b ≠ e → Other e.id e.container b := by
    intro b hb hne
    have hid := ne_of_listed hrow hb hne
    refine ⟨hid, fun i hlink hb' => hid ?_⟩
    exact hlinks.sole b.id e.id b e i (mem_selectOrdered.mp hb).1 hrow hb' hlink
  refine wp_seq (Program.wp_collect_turn
    (I := Followed e.id e.container e (e.container.bind d.find))
    (T := fun _ => TurnedIn e (e.container.bind d.find)) (R := fun _ => True) (a := e)
    ((nodup_keys_selectOrdered _ _ _).of_map _) hlisted
    (fun b hb hne h hI => ?_) (fun b hb hne own h hT => ?_) (fun h hI => ?_) ⟨hrow, rfl⟩)
    fun reconciled h₂ hT => ?_
  · exact wp_post (hI.aside (Aside.reconcileListed d.containers (hother b hb hne)))
      (fun _ _ hI' => ⟨hI', fun _ _ => trivial⟩)
  · exact wp_post (hT.aside (Aside.reconcileListed d.containers (hother b hb hne)))
      (fun _ _ hT' => ⟨hT', fun _ _ => trivial⟩)
  · obtain ⟨w', d'⟩ := h
    rw [← hI.found]
    exact turned_reconcileListed hreliable hI.row hI.found.symm
  · obtain ⟨-, hturned, -⟩ := hT
    have hx : (w.db.executions.selectOrdered (fun _ => true) Execution.newestFirst).any
        (·.id = e.id) = true := List.any_eq_true.mpr ⟨e, hlisted, decide_eq_true rfl⟩
    have horphans : Aside e.id e.container (Program.collect (reapOrphan
        (w.db.executions.selectOrdered (fun _ => true) Execution.newestFirst)) d.containers) :=
      Program.Within.collect fun c hc => Aside.reapOrphan hx fun hlink =>
        hlinks.labelled e.id e c.containerId c hrow hlink (find_of_mem hc)
    refine wp_seq (hturned.aside horphans) fun orphans h₃ hturned => ?_
    obtain ⟨e', after, hf, hturned⟩ := hturned
    refine wp_seq (followed_cleanupExpiredContainers hreliable hf) fun expired h₄ hcleaned => ?_
    obtain ⟨hreads, hf'⟩ := hcleaned
    refine wp_of_done ⟨e', after, ?_, hturned⟩
    rw [cleanupTime, hreads, Nat.add_sub_cancel]
    exact hf'

/-- There is no row of `x`. -/
abbrev Absent (x : Uuid) (h : Host) : Prop := h.1.db.executions.get x = none

/-- A pass makes no rows. -/
theorem absent_reconcileOnce (habsent : Absent x h) :
    (reconcileOnce ttlSeconds).wp (hostHandler env denv) (fun _ => Absent x) (fun _ _ => True)
      h := by
  obtain ⟨w, d⟩ := h
  rw [reconcileOnce]
  apply wp_lift_query
  show Program.wp _ _ _ (listManagedContainers >>= _) (w, d)
  rw [Program.wp_bind]
  apply wp_listManagedContainers (fun _ => trivial)
  have hnone : ∀ i, (none : Option String) ≠ some i := fun i => (Option.some_ne_none i).symm
  apply get_aside (h := (w, d.tick)) habsent
  change Aside x none _
  refine (Program.Within.collect fun b hb => Aside.reconcileListed _ ?_).bind fun _ => ?_
  · obtain ⟨hget, -⟩ := mem_selectOrdered.mp hb
    refine Other.of_ne ?_
    rintro rfl
    exact Option.some_ne_none b (hget.symm.trans habsent)
  · refine (Program.Within.collect fun c _ => ?_).bind fun _ => ?_
    · unfold reapOrphan
      split
      · trivial
      · exact (Aside.stopInspected (hnone _)).bind fun _ => trivial
    · refine Program.Within.bind ?_ fun _ => trivial
      exact (Aside.lift Aside.utcNow).bind fun _ => Program.Within.collect fun c _ =>
        Aside.reapExpired _ (hnone _)

end FirstPass

/-! ### The second pass -/

section SecondPass

variable {ttlSeconds : ℕ} {report : ReconciliationReport} {h₁ h₂ : Host}

/-- The pass after the one that has met the execution with this container finds something to
record: a container that has exited is retained, and either its execution is still active, or it
was not known when the container was started and the first pass has not removed it. -/
def lingers (ttlSeconds : ℕ) (now : Time) (e : Execution) (c : RuntimeContainerState) : Bool :=
  leavesSuspended e c || (leavesUnsynced e c && !c.expired ttlSeconds now)

theorem Followed.atRest_iff {found : Option RuntimeContainerState}
    (hf : Followed x e.container e' found h)
    (hcontainer : e'.container = none ∨ e'.container = e.container) :
    AtRest h.2.containers e' ↔ (e'.container ≠ none → Rests found e') := by
  have hfound : ∀ i, e'.container = some i → found = h.2.find i := by
    intro i hlink
    rcases hcontainer with hnone | hsame
    · exact absurd (hlink.symm.trans hnone) (Option.some_ne_none i)
    · rw [← hf.found, ← hsame, hlink]
      rfl
  constructor
  · intro hrest hne
    obtain ⟨i, hlink⟩ := Option.ne_none_iff_exists'.mp hne
    rw [hfound i hlink]
    exact hrest i hlink
  · intro hrest i hlink
    have hne : e'.container ≠ none := by
      rw [hlink]
      exact Option.some_ne_none i
    have hrests := hrest hne
    rw [hfound i hlink] at hrests
    exact hrests

/-- A row rests after its turn and the cleanup just if it does not linger. -/
theorem Turned.rests_cleaned_iff {before after : Option RuntimeContainerState} {now : Time}
    (h : Turned e before e' after) :
    (e'.container ≠ none → Rests (cleaned ttlSeconds now before after) e') ↔
      ∀ c, before = some c → lingers ttlSeconds now e c = false := by
  rcases hbefore : before with - | c
  · refine iff_of_true (h.missing hbefore).2 fun c hc => ?_
    exact absurd hc (Option.some_ne_none c).symm
  · have hthe : (∀ c', some c = some c' → lingers ttlSeconds now e c' = false) ↔
        lingers ttlSeconds now e c = false := by
      constructor
      · exact fun h => h c rfl
      · rintro h c' hc'
        obtain rfl := Option.some.inj hc'
        exact h
    rw [hthe, lingers]
    rcases hexpired : c.expired ttlSeconds now with - | -
    · have hstays : cleaned ttlSeconds now (some c) after = after := by
        rw [cleaned, if_neg]
        rw [Option.any_some, hexpired]
        exact Bool.false_ne_true
      rw [hstays, Bool.not_false, Bool.and_true]
      exact h.rests c hbefore
    · have hgone : cleaned ttlSeconds now (some c) after = none := if_pos hexpired
      rw [hgone, Bool.not_true, Bool.and_false, Bool.or_false]
      exact h.removed c hbefore (Bool.and_eq_true_iff.mp hexpired).1

/-- **The second of two passes** records nothing if and only if the first one has met no
execution that lingers. -/
theorem recordless_second_iff (hreliable : denv.Reliable) (hlinks : WellLinked h)
    (hfirst : (reconcileOnce ttlSeconds).run (hostHandler env denv) h = (.ok report, h₁))
    (hexecutions : h₂.1.db.executions = h₁.1.db.executions)
    (hcontainers : h₂.2.containers = h₁.2.containers) :
    Recordless env denv (reconcileOnce ttlSeconds) h₂ ↔
      ∀ x e i c, Row x e h → e.container = some i → h.2.find i = some c →
        lingers ttlSeconds (cleanupTime env h₁) e c = false := by
  rw [recordless_reconcileOnce_iff hreliable, hcontainers]
  have hrow₂ : ∀ x e, Row x e h₂ ↔ Row x e h₁ := fun x e => by rw [Row, Row, hexecutions]
  have hmade : ∀ x e, Row x e h → ∃ e', Row x e' h₁ ∧ (AtRest h₁.2.containers e' ↔
      ∀ c, e.container.bind h.2.find = some c →
        lingers ttlSeconds (cleanupTime env h₁) e c = false) := by
    intro x e hrow
    have hwp : (reconcileOnce ttlSeconds).wp (hostHandler env denv) _ _ h :=
      followed_reconcileOnce hreliable hlinks hrow
    obtain ⟨e', after, hf, hturned⟩ := ((wp_iff_run _ _).mp hwp).1 _ _ hfirst
    refine ⟨e', hf.row, ?_⟩
    rw [hf.atRest_iff hturned.container, hturned.rests_cleaned_iff]
  constructor
  · intro hrest x e i c hrow hlink hfind
    obtain ⟨e', hrow', hiff⟩ := hmade x e hrow
    refine hiff.mp (hrest x e' ((hrow₂ x e').mpr hrow')) c ?_
    rw [hlink]
    exact hfind
  · intro hnone x e' hrow'
    rcases hrow : h.1.db.executions.get x with - | e
    · have hwp : (reconcileOnce ttlSeconds).wp (hostHandler env denv) (fun _ => Absent x) _ h :=
        absent_reconcileOnce hrow
      have habsent := ((wp_iff_run _ _).mp hwp).1 _ _ hfirst
      exact absurd (((hrow₂ x e').mp hrow').symm.trans habsent) (Option.some_ne_none e')
    · obtain ⟨e'', hrow'', hiff⟩ := hmade x e hrow
      obtain rfl : e'' = e' := Option.some.inj (hrow''.symm.trans ((hrow₂ x e').mp hrow'))
      refine hiff.mpr fun c hfound => ?_
      obtain ⟨i, hlink, hfind⟩ := Option.bind_eq_some_iff.mp hfound
      exact hnone x e i c hrow hlink hfind

end SecondPass

/-! ### A container that the reconciler is told about -/

section Known

/-- The execution `x` has the status and the container of `e`. -/
def KeepsLink (x : Uuid) (e : Execution) (h : Host) : Prop :=
  ∀ e', Row x e' h → e'.status = e.status ∧ e'.containerId = e.containerId

/-- What is known of a container finishes no execution and takes no container from it: the
execution is linked to none, or is not active, or the container has not exited; or its worker
has suspended itself, and it is not for the reconciler to remove it, or it is gone. -/
def Harmless (e : Execution) (c : RuntimeContainerState) (d : Docker) : Prop :=
  e.container = none ∨ (e.status.isActive && c.status.isExited) = false ∨
    c.exitCode = some workerExitSuspended ∧
      (e.metadata.terminateContainerOnCompletion = false ∨ d.find c.containerId = none)

/-- How the row of `e` has ended up, seen from before. -/
def EndsAs (x : Uuid) (e : Execution) (harmless : Prop) (h : Host) : Prop :=
  ∃ e', Row x e' h ∧ (e'.status = e.status ∧ e'.containerId = e.containerId ↔ harmless)

theorem EndsAs.keepsLink_iff {harmless : Prop} (hends : EndsAs x e harmless h) :
    KeepsLink x e h ↔ harmless := by
  obtain ⟨e', hrow, hiff⟩ := hends
  rw [← hiff]
  constructor
  · exact fun hkeeps => hkeeps e' hrow
  · intro hsame e'' hrow''
    obtain rfl : e' = e'' := Option.some.inj (hrow.symm.trans hrow'')
    exact hsame

theorem Exited.status_eq_iff (hexited : Exited e c e') (hactive : e.status.isActive = true) :
    e'.status = e.status ↔ c.exitCode = some workerExitSuspended := by
  rcases hexited with ⟨hcode, rfl⟩ | ⟨hcode, t, rfl⟩
  · exact iff_of_true rfl hcode
  · refine iff_of_false (fun heq => ?_) hcode
    have hinactive := workerOutcome_inactive c
    have heq : (workerOutcome c).status = e.status := heq
    rw [heq, hactive] at hinactive
    cases hinactive

/-- An execution that the reconciler takes for one whose worker has exited. -/
theorem endsAs_reconcileExited (hreliable : denv.Reliable) (hlink : e.container ≠ none)
    (hexited : (e.status.isActive && c.status.isExited) = true) :
    (reconcileExited e c).wp (hostHandler env denv) (fun _ => EndsAs e.id e (Harmless e c d))
      (fun _ => EndsAs e.id e (Harmless e c d)) (w, d) := by
  obtain ⟨hactive, hgone⟩ := Bool.and_eq_true_iff.mp hexited
  have hharmless : Harmless e c d ↔ c.exitCode = some workerExitSuspended ∧
      (e.metadata.terminateContainerOnCompletion = false ∨ d.find c.containerId = none) := by
    rw [Harmless, or_iff_right hlink, or_iff_right (by rw [hexited]; exact Bool.false_ne_true.symm)]
  rw [hharmless, reconcileExited]
  apply wp_lift_bind
  apply wp_markExited
  intro e₁ w₁ he₁ hrow₁
  have hrow₁ : Row e.id e₁ (w₁, d) := by
    rw [← he₁.id]
    exact hrow₁
  have hsame : e₁.containerId = e.containerId := by
    rcases he₁ with ⟨-, rfl⟩ | ⟨-, t, rfl⟩
    · rfl
    · rfl
  have hstatus := he₁.status_eq_iff hactive
  rw [Program.wp_bind, maybeRemoveFinishedExecutionContainer, hgone, Bool.true_and, wp_ite]
  split
  next hterminates =>
    rw [he₁.metadata] at hterminates
    rw [removeFinished, hgone, Program.wp_bind]
    apply wp_attempt_removeForced hreliable
    · intro hnone
      refine wp_of_done (wp_of_done ⟨e₁, hrow₁, ?_⟩)
      rw [hstatus, and_iff_left hsame, and_iff_left (.inr hnone)]
    · intro hthere
      apply wp_lift_bind
      apply wp_recordRemoved
      intro t w₂ hrow₂
      refine wp_of_done (wp_of_done ⟨(e₁.withRemoved c t).unlinkIfActive, ?_, iff_of_false ?_ ?_⟩)
      · rw [Stores, Execution.id_unlinkIfActive] at hrow₂
        rw [← he₁.id]
        exact hrow₂
      · rintro ⟨hsamestatus, hsameid⟩
        by_cases hstill : (e₁.withRemoved c t).status.isActive = true
        · rw [Execution.unlinkIfActive, if_pos hstill] at hsameid
          have hnone : e.container = none := congrArg (Option.filter _) hsameid.symm
          exact hlink hnone
        · rw [Execution.unlinkIfActive, if_neg hstill] at hsamestatus
          rw [hsamestatus] at hstill
          exact hstill hactive
      · rw [hterminates, or_iff_right Bool.false_ne_true.symm]
        exact fun h => hthere h.2
  next hretained =>
    rw [he₁.metadata] at hretained
    refine wp_of_done (wp_of_done ⟨e₁, hrow₁, ?_⟩)
    rw [hstatus, and_iff_left hsame, and_iff_left (.inl (Bool.eq_false_iff.mpr hretained))]

/-- **A reconciliation of one execution by a container it is told about** keeps the status and
the link of the execution if and only if the container is harmless. -/
theorem endsAs_reconcileExecution (hreliable : denv.Reliable) (hrow : Row x e (w, d)) :
    (reconcileExecution x (some c)).wp (hostHandler env denv)
      (fun _ => EndsAs x e (Harmless e c d)) (fun _ => EndsAs x e (Harmless e c d)) (w, d) := by
  obtain rfl : e.id = x := hrow.id
  rw [reconcileExecution]
  apply wp_lift_bind
  rw [← bind_done (getExecution e.id), wp_getExecution]
  apply wp_of_done
  rw [hrow]
  show Program.wp _ _ _ (reconcileSingle e (some c) >>= _) (w, d)
  refine wp_seq (Q := fun _ => EndsAs e.id e (Harmless e c d)) ?_
    (fun _ _ h => wp_of_done h)
  unfold reconcileSingle
  split
  next hnone => exact wp_of_done ⟨e, hrow, iff_of_true ⟨rfl, rfl⟩ (.inl hnone)⟩
  next i hlink =>
    have hne : e.container ≠ none := by
      rw [hlink]
      exact Option.some_ne_none i
    rw [reconcileObserved]
    split
    next hexited => exact endsAs_reconcileExited hreliable hne hexited
    next hexited =>
      have hharmless : Harmless e c d := .inr (.inl (Bool.eq_false_iff.mpr hexited))
      rw [reconcileSynced]
      apply wp_lift_bind
      apply wp_syncExecutionContainerState hrow
      intro w' hrow'
      exact wp_of_done ⟨e.synced c, hrow', iff_of_true ⟨rfl, rfl⟩ hharmless⟩

theorem keepsLink_iff (hreliable : denv.Reliable) (hrow : Row x e h) :
    KeepsLink x e ((reconcileExecution x (some c)).run (hostHandler env denv) h).2 ↔
      Harmless e c h.2 := by
  obtain ⟨w, d⟩ := h
  exact (Program.wp_state.mp (endsAs_reconcileExecution hreliable hrow)).keepsLink_iff

end Known

/-! ### Both -/

/-- **When reconciliation is idempotent, and when it minds its own container.**  A second pass
over what the first one left records nothing if and only if the first one has met no execution
that lingers; and a reconciliation of one execution by the container of another keeps status and
link if and only if that container is harmless. -/
theorem reconciliation_settles_iff (hreliable : denv.Reliable) :
    (∀ ttlSeconds report h h₁ h₂, WellLinked h →
      (reconcileOnce ttlSeconds).run (hostHandler env denv) h = (.ok report, h₁) →
        h₂.1.db.executions = h₁.1.db.executions → h₂.2.containers = h₁.2.containers →
          (Recordless env denv (reconcileOnce ttlSeconds) h₂ ↔
            ∀ x e i c, Row x e h → e.container = some i → h.2.find i = some c →
              lingers ttlSeconds (cleanupTime env h₁) e c = false)) ∧
    ∀ x e c h, Row x e h → e.containerId ≠ some c.containerId →
      (KeepsLink x e ((reconcileExecution x (some c)).run (hostHandler env denv) h).2 ↔
        Harmless e c h.2) := by
  refine ⟨fun ttlSeconds report h h₁ h₂ hlinks hfirst hexecutions hcontainers => ?_,
    fun x e c h hrow _ => keepsLink_iff hreliable hrow⟩
  exact recordless_second_iff hreliable hlinks hfirst hexecutions hcontainers

namespace RetainedWorker

open SuspendedWorker (minuteLater)

/-- An execution that sleeps, and whose lifecycle retains the container of its worker. -/
def sleeping : Execution where
  id := 0
  workflowId := "w"
  status := .sleeping
  containerId := some "c"
  metadata := { terminateContainerOnCompletion := false }

/-- The container of its worker, which has suspended itself. -/
def exited : RuntimeContainerState where
  containerId := "c"
  status := .exited
  executionId := some 0
  exitCode := some workerExitSuspended

def host : Host :=
  ({ db := { executions := Table.empty.save sleeping } }, { containers := [exited] })

/-- A container of something else, whose worker has succeeded. -/
def foreign : RuntimeContainerState where
  containerId := "d"
  status := .exited
  exitCode := some workerExitSuccess

def first : Except RuntimeException ReconciliationReport × Host :=
  (reconcileOnce 3600).run (hostHandler minuteLater .reliable) host

def report : ReconciliationReport where
  scannedExecutions := 1
  scannedContainers := 1
  actions := [.containerExited sleeping exited]

theorem first_eq : first = (.ok report, first.2) := Prod.ext (by rfl) rfl

theorem reliable : DockerEnvironment.reliable.Reliable := fun _ => rfl

theorem row : Row 0 sleeping host := get_save_self Table.empty sleeping

theorem row_eq {x : Uuid} {e : Execution} (hrow : Row x e host) : x = 0 ∧ e = sleeping := by
  have hx : x = 0 := by
    by_contra hne
    have hget : host.1.db.executions.get x = none := get_save_ne hne
    exact Option.some_ne_none e (hrow.symm.trans hget)
  subst hx
  exact ⟨rfl, Option.some.inj (hrow.symm.trans row)⟩

theorem wellLinked : WellLinked host where
  sole x y e e' i hx hy _ _ := by
    rw [(row_eq hx).1, (row_eq hy).1]
  labelled x e i c hx hlink hfind := by
    obtain ⟨rfl, rfl⟩ := row_eq hx
    obtain rfl : "c" = i := Option.some.inj hlink
    obtain rfl : exited = c := Option.some.inj hfind
    rfl

end RetainedWorker

open RetainedWorker in
/-- The container of a suspended worker is retained, so that a second pass records its exit once
more; and an execution is finished by the container of another. -/
theorem reconciliation_unsettled_sleeping :
    (Recordless SuspendedWorker.minuteLater .reliable (reconcileOnce 3600) first.2 ↔
      ∀ x e i c, Row x e host → e.container = some i → host.2.find i = some c →
        lingers 3600 (cleanupTime SuspendedWorker.minuteLater first.2) e c = false) ∧
    (KeepsLink 0 sleeping ((reconcileExecution 0 (some foreign)).run
      (hostHandler SuspendedWorker.minuteLater .reliable) host).2 ↔
        Harmless sleeping foreign host.2) :=
  ⟨(reconciliation_settles_iff reliable).1 3600 report host first.2 first.2 wellLinked first_eq
      rfl rfl,
    (reconciliation_settles_iff reliable).2 0 sleeping foreign host row (by decide)⟩

open RetainedWorker in
/-- Passes are not idempotent, nor is a container that is told about checked to be the one of
the execution. -/
theorem reconciliation_unsettled :
    (¬ ∀ (env : Environment) (denv : DockerEnvironment) (ttlSeconds : ℕ)
      (report : ReconciliationReport) (h h₁ : Host), denv.Reliable → WellLinked h →
        (reconcileOnce ttlSeconds).run (hostHandler env denv) h = (.ok report, h₁) →
          Recordless env denv (reconcileOnce ttlSeconds) h₁) ∧
    ¬ ∀ (env : Environment) (denv : DockerEnvironment) (x : Uuid) (e : Execution)
      (c : RuntimeContainerState) (h : Host), denv.Reliable → Row x e h →
        e.containerId ≠ some c.containerId →
          KeepsLink x e ((reconcileExecution x (some c)).run (hostHandler env denv) h).2 := by
  constructor
  · intro hall
    have hquiet := hall SuspendedWorker.minuteLater .reliable 3600 report host first.2 reliable
      wellLinked first_eq
    have hnone := (recordless_second_iff reliable wellLinked first_eq rfl rfl).mp hquiet 0 sleeping
      "c" exited row rfl rfl
    cases hnone
  · intro hall
    have hkeeps := hall SuspendedWorker.minuteLater .reliable 0 sleeping foreign host reliable row
      (by decide)
    rcases (keepsLink_iff reliable row).mp hkeeps with hnone | hactive | hcode
    · cases hnone
    · cases hactive
    · cases hcode.1

end OpenAgency
