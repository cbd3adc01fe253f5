/-
JanitorRuns.lean

Runs of the janitors, in any order and any number: passes of the reconciler, with any
time to live, reconciliations of single executions, and stale repairs of any scope.
The clock may have moved on by any amount from one reading to the next, and between two
janitors anything may happen that leaves the suspended execution alone.

An abandoned approval is failed on purpose, so that the runs are those in which every
janitor spares the execution.
-/
import OpenAgency.DurableSuspension

namespace OpenAgency

open Interaction Relational
open Program (bind_done wp_ite wp_mono wp_of_done wp_seq)

variable {x : Uuid} {s : ExecutionStatus} {link : Option String} {e : Execution} {h h' : Host}
  {env : Environment} {denv : DockerEnvironment}

/-! ### A single execution -/

/-- What the daemon reports of the container a row is linked to. -/
def Observed (y : Uuid) (known : Option RuntimeContainerState) (h : Host) : Prop :=
  ∀ c, known = some c → ∀ a, h.1.db.executions.get y = some a → ∀ i, a.container = some i →
    h.2.find i = some c

section Single

variable {w : World} {d : Docker} {known : Option RuntimeContainerState}

theorem wp_observedContainer {Q : Option RuntimeContainerState → Host → Prop}
    {E : RuntimeException → Host → Prop} (hknown : ∀ c, known = some c → Q (some c) (w, d))
    (hnone : known = none → e.container = none → Q none (w, d))
    (hfails : ∀ i, known = none → e.container = some i →
      (d.find i = none ∨ denv.fails d.commands = true) → Q none (w, d.tick))
    (hok : ∀ i c, known = none → e.container = some i → d.find i = some c →
      Q (some c) (w, d.tick)) :
    (observedContainer e known).wp (hostHandler env denv) Q E (w, d) := by
  rcases known with - | c
  · rw [observedContainer]
    split
    next hlink => exact wp_of_done (hnone rfl hlink)
    next i hlink =>
      rw [Program.wp_bind]
      apply wp_attempt_inspectContainer
      · exact fun h => wp_of_done (hfails i rfl hlink h)
      · exact fun c hc => wp_of_done (hok i c rfl hlink hc)
  · exact wp_of_done (hknown c rfl)

/-- The suspended execution, with its container observed. -/
theorem wp_reconcileSingle_self {observed : Option RuntimeContainerState}
    (hs : Suspended x s link e (w, d))
    (hobserved : ∀ i, e.container = some i → ∃ c, observed = some c ∧ d.find i = some c) :
    (reconcileSingle e observed).wp (hostHandler env denv) (fun _ => DurablySuspended x s)
      (fun _ => DurablySuspended x s) (w, d) := by
  unfold reconcileSingle
  split
  · exact wp_of_done ⟨link, e, hs⟩
  next i hlink =>
    obtain ⟨c, rfl, hfind⟩ := hobserved i hlink
    obtain ⟨-, c', hfind', hretired⟩ := hs.linked i hlink
    obtain rfl : c = c' := Option.some.inj (hfind.symm.trans hfind')
    have hexited : (e.status.isActive && c.status.isExited) = true := by
      rw [hs.waiting.isActive, hretired.exited]
      rfl
    rw [reconcileObserved, if_pos hexited]
    apply wp_reconcileExited hs hretired
    · rw [Docker.containerId_of_find hfind]
      exact hlink
    · exact fun e' w' d' hs' _ _ => ⟨link, e', hs'⟩
    · exact fun e' w' d' hs' _ _ => ⟨link, e', hs'⟩

/-- Any execution, with its container observed. -/
theorem wp_reconcileSingle {y : Uuid} {a : Execution} {observed : Option RuntimeContainerState}
    (hs : Suspended x s link e (w, d)) (hrow : w.db.executions.get y = some a)
    (hobserved : ∀ i c, a.container = some i → observed = some c → d.find i = some c)
    (hself : y = x → a.container ≠ none → observed ≠ none) :
    (reconcileSingle a observed).wp (hostHandler env denv) (fun _ => DurablySuspended x s)
      (fun _ => DurablySuspended x s) (w, d) := by
  by_cases hy : y = x
  · subst hy
    obtain rfl : a = e := Option.some.inj (hrow.symm.trans hs.row)
    apply wp_reconcileSingle_self hs
    intro i hlink
    have hne : a.container ≠ none := by
      rw [hlink]
      exact Option.some_ne_none i
    obtain ⟨c, hc⟩ := Option.ne_none_iff_exists'.mp (hself rfl hne)
    exact ⟨c, hc, hobserved i c hlink hc⟩
  · have haside : Aside x link (reconcileSingle a observed) := by
      apply Aside.reconcileSingle (hs.other hy hrow)
      intro i c hlink hc
      exact Docker.containerId_of_find (hobserved i c hlink hc)
    apply wp_mono (hs.aside haside)
    · exact fun _ _ hs' => ⟨link, e, hs'⟩
    · exact fun _ _ hs' => ⟨link, e, hs'⟩

/-- **A reconciliation of one execution** keeps the suspension. -/
theorem wp_reconcileExecution {y : Uuid} (hs : Suspended x s link e (w, d))
    (hobserved : Observed y known (w, d))
    (hanswers : y = x → known = none → denv.fails d.commands = false) :
    (reconcileExecution y known).wp (hostHandler env denv) (fun _ => DurablySuspended x s)
      (fun _ => DurablySuspended x s) (w, d) := by
  rw [reconcileExecution]
  apply wp_lift_bind
  rw [← bind_done (getExecution y), wp_getExecution]
  apply wp_of_done
  rcases hrow : w.db.executions.get y with - | a
  · exact wp_of_done ⟨link, e, hs⟩
  show Program.wp _ _ _ (observedContainer a known >>= _) (w, d)
  have hnothing : ∀ i c, a.container = some i → (none : Option RuntimeContainerState) = some c →
      d.find i = some c := by
    rintro i c - ⟨⟩
  have htick : Suspended x s link e (w, d.tick) := hs.of_sameRecords (.refl w) fun _ _ => rfl
  rw [Program.wp_bind]
  apply wp_observedContainer
  · intro c hc
    apply wp_seq (wp_reconcileSingle hs hrow _ _)
    · exact fun _ _ h => wp_of_done h
    · rintro i _ hlink ⟨⟩
      exact hobserved c hc a hrow i hlink
    · exact fun _ _ => Option.some_ne_none c
  · intro hnone hlink
    exact wp_seq (wp_reconcileSingle hs hrow hnothing fun _ h => absurd hlink h) fun _ _ h =>
      wp_of_done h
  · intro i hnone hlink hfails
    apply wp_seq (wp_reconcileSingle htick hrow hnothing _)
    · exact fun _ _ h => wp_of_done h
    · rintro rfl -
      -- the daemon answers, and knows the container
      obtain rfl : a = e := Option.some.inj (hrow.symm.trans hs.row)
      obtain ⟨-, c, hfind, -⟩ := hs.linked i hlink
      rw [hfind, hanswers rfl hnone] at hfails
      rcases hfails with hfails | hfails <;> cases hfails
  · intro i c hnone hlink hfind
    apply wp_seq (wp_reconcileSingle htick hrow _ fun _ _ => Option.some_ne_none c)
    · exact fun _ _ h => wp_of_done h
    · rintro j _ hlink' ⟨⟩
      obtain rfl : i = j := Option.some.inj (hlink.symm.trans hlink')
      exact hfind

end Single

/-! ### The stale repair -/

section Repair

variable {cfg : StaleRepairConfig} {scope : RepairScope} {lo hi : Host} {rest : List Execution}

/-- A durable wait for anything but an approval is never stale. -/
theorem Waiting.isStaleAt {waits : ExecutionWaitTable} (hw : Waiting x s waits e)
    (hs : e.status ≠ .waitingForApproval) (now : Time) : cfg.isStaleAt e now = false := by
  have hwait : intentionalExecutionWaitState e = some e.status.value := if_pos hw.isIntentionalWait
  rw [StaleRepairConfig.isStaleAt, hwait, decide_eq_false hs]
  simp

/-- No reading of the clock from `lo` to `hi` finds an approval that is waited for stale. -/
def NotAbandoned (env : Environment) (cfg : StaleRepairConfig) (scope : RepairScope)
    (e : Execution) (lo hi : Host) : Prop :=
  e.status = .waitingForApproval → scope.selects e = true →
    ∀ k, lo.1.clockReads ≤ k → k < hi.1.clockReads → cfg.isStaleAt e (env.clock k) = false

/-- The loop of the repair, `rest` of the executions still to come. -/
def RepairWithin (x : Uuid) (s : ExecutionStatus) (link : Option String) (e : Execution)
    (lo hi : Host) (rest : List Execution) (h : Host) : Prop :=
  Later lo h ∧ (Later h hi → (∀ a ∈ rest, a = e ∨ Other x link a) ∧ Suspended x s link e h)

/-- The turn of the suspended execution itself: it is not stale. -/
theorem wp_repairListed_self (hs : Suspended x s link e h)
    (hfresh : NotAbandoned env cfg scope e lo hi) (hlo : Later lo h) :
    (repairListed cfg scope e).wp (hostHandler env denv)
      (fun _ h' => Later h' hi → Suspended x s link e h')
      (fun _ => SuspendedBefore x s hi) h := by
  obtain ⟨w, d⟩ := h
  rw [repairListed, wp_ite]
  split
  next hselects =>
    apply wp_lift_bind
    rw [← bind_done utcNow, wp_utcNow]
    apply wp_of_done
    apply Program.wp_before Later.refl Later.trans later_step
    intro hhi
    have hnot : cfg.isStaleAt e (env.clock w.clockReads) = false := by
      by_cases happroval : e.status = .waitingForApproval
      · exact hfresh happroval hselects _ hlo.clockReads hhi.clockReads
      · exact hs.waiting.isStaleAt happroval _
    rw [repairIfStale, if_neg (by rw [hnot]; exact Bool.false_ne_true)]
    apply wp_of_done
    exact fun _ => hs.of_sameRecords ⟨rfl, rfl, rfl⟩ fun _ _ => rfl
  · exact wp_of_done fun _ => hs

/-- **One turn of the loop** keeps its invariant. -/
theorem wp_repairListed {a : Execution} (hfresh : NotAbandoned env cfg scope e lo hi)
    (hloop : RepairWithin x s link e lo hi (a :: rest) h) :
    (repairListed cfg scope a).wp (hostHandler env denv)
      (fun _ => RepairWithin x s link e lo hi rest)
      (fun _ => SuspendedBefore x s hi) h := by
  obtain ⟨hlo, hloop⟩ := hloop
  apply Program.wp_window Later.refl Later.trans later_step hlo
  intro hhi
  obtain ⟨hlisted, hs⟩ := hloop hhi
  have hrest : ∀ b ∈ rest, b = e ∨ Other x link b := fun b hb =>
    hlisted b (List.mem_cons_of_mem a hb)
  rcases hlisted a List.mem_cons_self with rfl | hother
  · apply wp_mono (wp_repairListed_self hs hfresh hlo)
    · exact fun _ _ hs' _ hhi' => ⟨hrest, hs' hhi'⟩
    · exact fun _ _ hs' _ hhi' => hs' hhi'
  · apply wp_mono (hs.aside (Aside.repairListed cfg scope hother))
    · exact fun _ _ hs' _ _ => ⟨hrest, hs'⟩
    · exact fun _ _ hs' _ _ => ⟨link, e, hs'⟩

/-- **A stale repair** keeps the suspension. -/
theorem wp_repairStaleExecutions (hs : Suspended x s link e lo)
    (hfresh : NotAbandoned env cfg scope e lo hi) :
    (repairStaleExecutions cfg scope).wp (hostHandler env denv)
      (fun _ => SuspendedBefore x s hi) (fun _ => SuspendedBefore x s hi) lo := by
  obtain ⟨w, d⟩ := lo
  rw [repairStaleExecutions]
  apply wp_lift_query
  have hloop : RepairWithin x s link e (w, d) hi
      (w.db.executions.selectOrdered (fun a => a.status.isActive) Execution.newestFirst) (w, d) :=
    ⟨.refl _, fun _ => ⟨fun a ha => listed_other hs ha, hs⟩⟩
  apply wp_mono (Program.wp_collect (I := RepairWithin x s link e (w, d) hi)
    (fun a rest h hloop => wp_repairListed hfresh hloop) hloop)
  · exact fun _ _ h hhi => ⟨link, e, (h.2 hhi).2⟩
  · exact fun _ _ h => h

end Repair

/-! ### Runs -/

/-- What runs on its own to repair the store. -/
inductive Janitor where
  | reconcileOnce (ttlSeconds : ℕ)
  | reconcileExecution (executionId : Uuid) (known : Option RuntimeContainerState)
  | repairStaleExecutions (scope : RepairScope)

namespace Janitor

/-- What a janitor does; its report is dropped. -/
def program (cfg : StaleRepairConfig) : Janitor → HostRun Unit
  | reconcileOnce ttlSeconds => do
    let _ ← OpenAgency.reconcileOnce ttlSeconds
  | reconcileExecution y known => do
    let _ ← OpenAgency.reconcileExecution y known
  | repairStaleExecutions scope => do
    let _ ← OpenAgency.repairStaleExecutions cfg scope

section Definitions

variable (cfg : StaleRepairConfig) (env : Environment) (denv : DockerEnvironment) (x : Uuid)

/-- The host after a janitor, whether it has ended or raised. -/
def after (j : Janitor) (h : Host) : Host := ((j.program cfg).run (hostHandler env denv) h).2

/-- A container the caller reports is the one the daemon has. -/
def WellInformed : Janitor → Host → Prop
  | reconcileExecution y known, h => Observed y known h
  | _, _ => True

/-- The janitor finds nothing wrong with `x`: the time to live of its container does not run
out while its row is linked to it, the daemon answers what is asked about it, and an approval
it waits for is not abandoned. -/
def Spares (j : Janitor) (h : Host) : Prop :=
  ∀ e, h.1.db.executions.get x = some e →
    match j with
    | reconcileOnce ttlSeconds => TtlSpares env denv ttlSeconds e h (j.after cfg env denv h)
    | reconcileExecution y known => y = x → known = none → denv.fails h.2.commands = false
    | repairStaleExecutions scope => NotAbandoned env cfg scope e h (j.after cfg env denv h)

end Definitions

end Janitor

/-- The execution `x`, its waits and its container are as they were, and no other execution
is linked to it now. -/
structure LeftAlone (x : Uuid) (h h' : Host) : Prop where
  row : h'.1.db.executions.get x = h.1.db.executions.get x
  waits : ∀ i row, h.1.db.waits.get i = some row → row.wait.executionId = x →
    h'.1.db.waits.get i = some row
  container : ∀ e i, h.1.db.executions.get x = some e → e.container = some i →
    h'.2.find i = h.2.find i ∧
      ∀ y e', h'.1.db.executions.get y = some e' → e'.container = some i → y = x

/-- A run of janitors from `h`, each of which starts in a state in `P`. -/
inductive JanitorRun (cfg : StaleRepairConfig) (env : Environment) (denv : DockerEnvironment)
    (x : Uuid) (P : Janitor → Host → Prop) (h : Host) : Host → Prop
  | refl : JanitorRun cfg env denv x P h h
  | step {h' : Host} (j : Janitor) (hrun : JanitorRun cfg env denv x P h h') (hP : P j h') :
      JanitorRun cfg env denv x P h (j.after cfg env denv h')
  | elsewhere {h' h'' : Host} (hrun : JanitorRun cfg env denv x P h h')
      (halone : LeftAlone x h' h'') : JanitorRun cfg env denv x P h h''

variable {cfg : StaleRepairConfig}

theorem DurablySuspended.leftAlone (hs : DurablySuspended x s h) (h₁ : LeftAlone x h h') :
    DurablySuspended x s h' := by
  obtain ⟨link, e, hs⟩ := hs
  refine ⟨e.container, e, h₁.row.trans hs.row, ⟨hs.waiting.status, hs.waiting.worker, ?_⟩, ?_, ?_⟩
  · obtain ⟨a, row, ha, hrow, hx, hrest⟩ := hs.waiting.wait
    exact ⟨a, row, ha, h₁.waits _ _ hrow hx, hx, hrest⟩
  · intro i hi
    rw [(h₁.container e i hs.row hi).1]
    exact ⟨hi, (hs.linked i hi).2⟩
  · intro i hi
    exact (h₁.container e i hs.row hi).2

/-- What a janitor's program keeps holds after the janitor. -/
theorem Janitor.of_wp {α : Type} {p : HostRun α} {I : Host → Prop}
    (hwp : p.wp (hostHandler env denv) (fun _ => I) (fun _ => I) h) :
    I ((p >>= fun _ => Program.done ()).run (hostHandler env denv) h).2 := by
  apply Program.wp_state.mp
  exact wp_seq hwp fun _ _ hI => wp_of_done hI

/-- **A janitor that spares the execution** keeps the suspension. -/
theorem DurablySuspended.after {j : Janitor} (hs : DurablySuspended x s h)
    (hinformed : j.WellInformed h) (hspares : j.Spares cfg env denv x h) :
    DurablySuspended x s (j.after cfg env denv h) := by
  obtain ⟨link, e, hs⟩ := hs
  cases j with
  | reconcileOnce ttlSeconds =>
    exact Janitor.of_wp (wp_reconcileOnce hs.relink (hspares e hs.row)) (.refl _)
  | reconcileExecution y known =>
    exact Janitor.of_wp (wp_reconcileExecution hs hinformed (hspares e hs.row))
  | repairStaleExecutions scope =>
    exact Janitor.of_wp (wp_repairStaleExecutions hs (hspares e hs.row)) (.refl _)

/-- **Durable suspension survives the janitors**: the execution stays suspended in the same
status, so that it has neither completed nor failed nor been cancelled. -/
theorem durableSuspension_survives (hs : DurablySuspended x s h)
    (hrun : JanitorRun cfg env denv x
      (fun j h' => j.WellInformed h' ∧ j.Spares cfg env denv x h') h h') :
    DurablySuspended x s h' ∧
      ∃ e, h'.1.db.executions.get x = some e ∧ e.status = s ∧ e.status.isTerminal = false := by
  have hsuspended : DurablySuspended x s h' := by
    induction hrun with
    | refl => exact hs
    | step j hrun hP ih => exact ih.after hP.1 hP.2
    | elsewhere hrun halone ih => exact ih.leftAlone halone
  obtain ⟨link, e, hs'⟩ := hsuspended
  exact ⟨⟨link, e, hs'⟩, e, hs'.row, hs'.waiting.status, hs'.waiting.not_isTerminal⟩

/-! ### Two suspended executions -/

namespace SuspendedWorker

/-- The container of a worker that has suspended execution 0. -/
def container : RuntimeContainerState where
  containerId := "c"
  status := .exited
  executionId := some 0
  finishedAt := some 0
  exitCode := some workerExitSuspended

def wait (kind : ExecutionWaitKind) : ExecutionWait where
  id := 1
  executionId := 0
  kind := kind
  idempotencyKey := "k"
  createdAt := 0
  updatedAt := 0

def execution (kind : ExecutionWaitKind) : Execution where
  id := 0
  workflowId := "w"
  status := waitExecutionStatus kind
  lastHeartbeatAt := some 0
  containerId := some "c"
  metadata := { activeWait := some { waitId := 1, kind := kind } }

def host (kind : ExecutionWaitKind) : Host :=
  ({ db := {
      executions := Table.empty.save (execution kind)
      waits := .singleton (.ofWait (wait kind)) } },
    { containers := [container] })

def config : StaleRepairConfig where
  engine := .bare
  staleAfterSeconds := 30
  activityReferenceAt _ _ := 0

/-- A clock that stands a minute after the worker's last heartbeat. -/
def minuteLater : Environment :=
  { Environment.silent with clock := fun _ => seconds 60, clock_mono := monotone_const }

theorem get_execution {kind : ExecutionWaitKind} :
    (host kind).1.db.executions.get 0 = some (execution kind) :=
  Table.get_save_self Table.empty (execution kind)

theorem suspended (kind : ExecutionWaitKind) :
    DurablySuspended 0 (waitExecutionStatus kind) (host kind) := by
  refine ⟨some "c", execution kind, get_execution, ⟨rfl, rfl, ?_⟩, ?_, ?_⟩
  · exact ⟨_, .ofWait (wait kind), rfl, Table.get_save_self _ _, rfl, rfl, rfl⟩
  · rintro i ⟨⟩
    exact ⟨rfl, container, rfl, rfl, rfl, rfl⟩
  · intro i _ y e hy _
    by_contra hne
    have hnone : (host kind).1.db.executions.get y = none := Table.get_save_ne hne
    rw [hnone] at hy
    cases hy

/-- The pass removes the container. -/
theorem spared (kind : ExecutionWaitKind) :
    (Janitor.reconcileOnce 1).Spares config minuteLater .reliable 0 (host kind) := by
  intro e he i c _ _
  obtain rfl : execution kind = e := Option.some.inj (get_execution.symm.trans he)
  exact .inr ⟨rfl, fun _ _ _ => rfl⟩

end SuspendedWorker

open SuspendedWorker

/-- The container of an execution that waits for input is past its time to live, and its
worker has not been heard of for a minute: a pass removes the container, and a repair finds
nothing to do. -/
theorem durableSuspension_survives_input :
    let h := (Janitor.reconcileOnce 1).after config minuteLater .reliable (host .input)
    let h' := (Janitor.repairStaleExecutions {}).after config minuteLater .reliable h
    DurablySuspended 0 .waitingForInput h' ∧
      ∃ e, h'.1.db.executions.get 0 = some e ∧ e.status = .waitingForInput ∧
        e.status.isTerminal = false := by
  intro h h'
  have hfirst : DurablySuspended 0 .waitingForInput h :=
    (suspended .input).after trivial (spared .input)
  apply durableSuspension_survives (suspended .input)
    (.step (.repairStaleExecutions {})
      (.step (.reconcileOnce 1) .refl ⟨trivial, spared .input⟩) ⟨trivial, ?_⟩)
  obtain ⟨link, e', hs⟩ := hfirst
  intro e he happroval
  obtain rfl : e' = e := Option.some.inj (hs.row.symm.trans he)
  rw [hs.waiting.status] at happroval
  cases happroval

/-- An execution that waits for an approval is failed a minute after its worker's last
heartbeat. -/
theorem suspendedApproval_failed :
    ¬ (∀ (cfg : StaleRepairConfig) (env : Environment) (denv : DockerEnvironment) (x : Uuid)
        (s : ExecutionStatus) (h h' : Host), DurablySuspended x s h →
        JanitorRun cfg env denv x Janitor.WellInformed h h' →
        ∃ e, h'.1.db.executions.get x = some e ∧ e.status.isTerminal = false) := by
  intro hclaim
  have hrun : JanitorRun config minuteLater .reliable 0 Janitor.WellInformed (host .approval)
      ((Janitor.repairStaleExecutions {}).after config minuteLater .reliable (host .approval)) :=
    .step (.repairStaleExecutions {}) .refl trivial
  obtain ⟨e, hrow, hlive⟩ := hclaim config minuteLater .reliable 0 _ _ _ (suspended .approval) hrun
  have hfailed : (((Janitor.repairStaleExecutions {}).after config minuteLater .reliable
      (host .approval)).1.db.executions.get 0).map (·.status) = some .failed := by
    decide +kernel
  rw [hrow, Option.map_some, Option.some.injEq] at hfailed
  rw [hfailed] at hlive
  cases hlive

end OpenAgency
