/-
DurableSuspension.lean

Executions that are durably suspended, under any sequence of passes of the reconciler
and of the stale repair.

A suspended execution waits: its row names a pending wait, no worker has it, and its
last container, as long as the row is linked to one, has exited with the code of a
suspension.  `Suspended` is what all three janitors keep.  A pass spares the execution
unless one of these happens: the container reaches the end of its time to live while
the row stays linked to it, the daemon does not answer the inspection of the container,
or the execution waits for an approval and its heartbeat is stale.
-/
import OpenAgency.JanitorFrame
import OpenAgency.StoreRules

namespace OpenAgency

open Interaction Relational Program Table DockerOp Execution

/-! ### Suspended executions -/

/-- The row of an execution that waits: no worker has it, and the wait it names is pending. -/
structure Waiting (x : Uuid) (s : ExecutionStatus) (waits : ExecutionWaitTable)
    (e : Execution) : Prop where
  status : e.status = s
  worker : e.workerId = none
  wait : ∃ a row, e.metadata.activeWait = some a ∧ waits.get a.waitId = some row ∧
    row.wait.executionId = x ∧ row.wait.status = .pending ∧ waitExecutionStatus row.wait.kind = s

/-- The container of a worker that has suspended `x`. -/
structure Retired (x : Uuid) (c : RuntimeContainerState) : Prop where
  exited : c.status.isExited = true
  code : c.exitCode = some workerExitSuspended
  label : c.executionId = some x

/-- The execution `x` waits in status `s`, with the row `e`.  The row is linked to no
container but `link`, which no other execution is linked to. -/
structure Suspended (x : Uuid) (s : ExecutionStatus) (link : Option String) (e : Execution)
    (h : Host) : Prop where
  row : h.1.db.executions.get x = some e
  waiting : Waiting x s h.1.db.waits e
  linked : ∀ i, e.container = some i → link = some i ∧ ∃ c, h.2.find i = some c ∧ Retired x c
  sole : ∀ i, link = some i → ∀ y e', h.1.db.executions.get y = some e' →
    e'.container = some i → y = x

/-- The execution `x` is durably suspended in status `s`. -/
def DurablySuspended (x : Uuid) (s : ExecutionStatus) (h : Host) : Prop :=
  ∃ link e, Suspended x s link e h

/-- The columns of its container apart, the execution is the same. -/
structure SameLife (e e' : Execution) : Prop where
  id : e'.id = e.id
  status : e'.status = e.status
  worker : e'.workerId = e.workerId
  metadata : e'.metadata = e.metadata

variable {x : Uuid} {s : ExecutionStatus} {link : Option String} {e e' : Execution} {h h' : Host}

namespace Waiting

variable {waits : ExecutionWaitTable}

theorem sameLife (hw : Waiting x s waits e) (hlife : SameLife e e') : Waiting x s waits e' where
  status := hlife.status.trans hw.status
  worker := hlife.worker.trans hw.worker
  wait := by
    rw [hlife.metadata]
    exact hw.wait

/-- The status of a wait is one of four. -/
theorem isDurableWait (hw : Waiting x s waits e) : e.status.isDurableWait = true := by
  obtain ⟨a, row, -, -, -, -, hkind⟩ := hw.wait
  rw [hw.status, ← hkind]
  cases row.wait.kind <;> rfl

theorem isActive (hw : Waiting x s waits e) : e.status.isActive = true := by
  have hdurable := hw.isDurableWait
  rcases hs : e.status <;> rw [hs] at hdurable <;> first | rfl | cases hdurable

theorem isIntentionalWait (hw : Waiting x s waits e) : e.status.isIntentionalWait = true := by
  have hdurable := hw.isDurableWait
  rcases hs : e.status <;> rw [hs] at hdurable <;> first | rfl | cases hdurable

theorem not_isTerminal (hw : Waiting x s waits e) : e.status.isTerminal = false := by
  have hdurable := hw.isDurableWait
  rcases hs : e.status <;> rw [hs] at hdurable <;> first | rfl | cases hdurable

end Waiting

namespace Suspended

theorem id (hs : Suspended x s link e h) : e.id = x := key_of_get hs.row

/-- A row that is linked to nothing need not be protected from others. -/
theorem relink (hs : Suspended x s link e h) : Suspended x s e.container e h where
  row := hs.row
  waiting := hs.waiting
  linked i hi := ⟨hi, (hs.linked i hi).2⟩
  sole i hi := hs.sole i (hs.linked i hi).1

/-- Other rows are linked elsewhere. -/
theorem other {y : Uuid} (hs : Suspended x s link e h) (hy : y ≠ x)
    (hrow : h.1.db.executions.get y = some e') : Other x link e' where
  id := by
    have hid : e'.id = y := key_of_get hrow
    rw [hid]
    exact hy
  container i hlink hi := hy (hs.sole i hlink y e' hrow hi)

/-- The row is written again, with other container columns. -/
theorem rewrite {w' : World} {d' : Docker} (hs : Suspended x s link e h)
    (hlife : SameLife e e') (hrow : Stores e' w') (hothers : OthersKept e'.id h.1 w')
    (hlinked : ∀ i, e'.container = some i → link = some i ∧ ∃ c, d'.find i = some c ∧ Retired x c) :
    Suspended x s link e' (w', d') where
  row := by
    have hid : e'.id = x := hlife.id.trans hs.id
    rw [← hid]
    exact hrow
  waiting := by
    show Waiting x s w'.db.waits e'
    rw [hothers.waits]
    exact hs.waiting.sameLife hlife
  linked := hlinked
  sole := by
    intro i hi y e₂ hy hc
    by_contra hne
    have hyother : y ≠ e'.id := by
      rw [hlife.id, hs.id]
      exact hne
    rw [hothers.others y hyother] at hy
    exact hne (hs.sole i hi y e₂ hy hc)

/-- The records are the same, and so is the container. -/
theorem of_sameRecords {w' : World} {d' : Docker} (hs : Suspended x s link e h)
    (hw : SameRecords h.1 w') (hd : ∀ i, link = some i → d'.find i = h.2.find i) :
    Suspended x s link e (w', d') where
  row := by
    show w'.db.executions.get x = some e
    rw [hw.executions]
    exact hs.row
  waiting := by
    show Waiting x s w'.db.waits e
    rw [hw.waits]
    exact hs.waiting
  linked i hi := by
    obtain ⟨hlink, hc⟩ := hs.linked i hi
    exact ⟨hlink, by rw [hd i hlink]; exact hc⟩
  sole := by
    show ∀ i, link = some i → ∀ y e', w'.db.executions.get y = some e' → _
    rw [hw.executions]
    exact hs.sole

end Suspended

/-! ### What leaves it alone -/

variable {env : Environment} {denv : DockerEnvironment}

variable {w : World}

/-- Statements that touch no execution and no wait. -/
theorem sameRecords_of_spared {o : DbOp} (ho : Spared x link (.inl (.db o)))
    (hupdate : ∀ e, o ≠ .updateExecution e) :
    (o.exec w.db).2.executions = w.db.executions ∧ (o.exec w.db).2.waits = w.db.waits := by
  refine ⟨DbOp.exec_executions hupdate w.db, ?_⟩
  cases o with
  | insertExecutionWait wait => exact absurd ho nofun
  | updatePendingExecutionWait id r now => exact absurd ho nofun
  | saveEvent event =>
    rw [DbOp.exec]
    split <;> rfl
  | _ => rfl

/-- **A spared operation** keeps the suspension. -/
theorem Suspended.spared {o : HostSig.Op} (hs : Suspended x s link e h) (ho : Spared x link o) :
    Suspended x s link e (hostHandler env denv o h).2 := by
  obtain ⟨w, d⟩ := h
  rcases o with (o | o | o | - | -) | o
  · by_cases hupdate : ∃ e', o = .updateExecution e'
    · obtain ⟨e', rfl⟩ := hupdate
      have hother : Other x link e' := ho
      refine ⟨?_, hs.waiting, hs.linked, ?_⟩
      · exact (get_save_ne (Ne.symm hother.id)).trans hs.row
      · intro i hi y e₂ hy hc
        by_cases hye : y = e'.id
        · subst hye
          have hy' := (get_save_self w.db.executions e').symm.trans hy
          cases hy'
          exact absurd hc (hother.container i hi)
        · exact hs.sole i hi y e₂ ((get_save_ne hye).symm.trans hy) hc
    · obtain ⟨hexecutions, hwaits⟩ := sameRecords_of_spared (w := w) ho fun e' he' => hupdate ⟨e', he'⟩
      refine ⟨?_, ?_, hs.linked, ?_⟩
      · show (o.exec w.db).2.executions.get x = some e
        rw [hexecutions]
        exact hs.row
      · show Waiting x s (o.exec w.db).2.waits e
        rw [hwaits]
        exact hs.waiting
      · show ∀ i, link = some i → ∀ y e', (o.exec w.db).2.executions.get y = some e' → _
        rw [hexecutions]
        exact hs.sole
  · exact ⟨hs.row, hs.waiting, hs.linked, hs.sole⟩
  · exact ⟨hs.row, hs.waiting, hs.linked, hs.sole⟩
  · exact ⟨hs.row, hs.waiting, hs.linked, hs.sole⟩
  · exact ⟨hs.row, hs.waiting, hs.linked, hs.sole⟩
  · apply hs.of_sameRecords (.refl w)
    intro j hj
    show (exec denv o d).2.find j = d.find j
    apply find_exec
    intro htarget
    cases o with
    | stopContainer i =>
      cases htarget
      exact ho hj
    | removeContainer i force =>
      cases htarget
      exact ho hj
    | _ => cases htarget

/-- A program that leaves it alone keeps the suspension, however it ends. -/
theorem Suspended.aside {α : Type} {p : HostRun α} (hs : Suspended x s link e h)
    (hp : Aside x link p) :
    p.wp (hostHandler env denv) (fun _ => Suspended x s link e) (fun _ => Suspended x s link e)
      h :=
  Program.Within.invariant (fun _ _ hs' ho => ⟨trivial, hs'.spared ho⟩) hp hs

/-! ### The end of a suspended worker -/

/-- The counters of the clock and of the daemon only go up. -/
structure Later (h h' : Host) : Prop where
  clockReads : h.1.clockReads ≤ h'.1.clockReads
  commands : h.2.commands ≤ h'.2.commands

/-- The suspension holds wherever `hi` is still to come. -/
abbrev SuspendedBefore (x : Uuid) (s : ExecutionStatus) (hi h : Host) : Prop :=
  Later h hi → DurablySuspended x s h

theorem Later.refl (h : Host) : Later h h := ⟨le_rfl, le_rfl⟩

theorem Later.trans {h₁ h₂ h₃ : Host} (h : Later h₁ h₂) (h' : Later h₂ h₃) : Later h₁ h₃ :=
  ⟨h.clockReads.trans h'.clockReads, h.commands.trans h'.commands⟩

theorem later_step (o : HostSig.Op) (h : Host) : Later h (hostHandler env denv o h).2 := by
  rcases o with (o | o | o | - | -) | o
  · exact ⟨le_rfl, le_rfl⟩
  · exact ⟨le_rfl, le_rfl⟩
  · exact ⟨le_rfl, le_rfl⟩
  · exact ⟨Nat.le_succ _, le_rfl⟩
  · exact ⟨le_rfl, le_rfl⟩
  · refine ⟨le_rfl, ?_⟩
    have hcommands : (exec denv o h.2).2.commands = h.2.commands + 1 := commands_exec denv o h.2
    exact (Nat.le_succ _).trans hcommands.ge

theorem wp_markExecutionFailedForExitedContainer {c : RuntimeContainerState}
    {Q : Execution → World → Prop} {E : RuntimeException → World → Prop}
    (hcode : c.exitCode = some workerExitSuspended)
    (hQ : ∀ w', Stores (e.withExit c) w' → OthersKept e.id w w' → Q (e.withExit c) w') :
    (markExecutionFailedForExitedContainer e c).wp (handler env) Q E w := by
  rw [markExecutionFailedForExitedContainer, wp_bind]
  apply wp_eventStateFor
  intro st hst
  apply wp_orUtcNow
  intro now w₁ hw₁
  rw [if_pos hcode]
  show Program.wp _ _ _ (updateExecution (e.withExit c) >>= _) w₁
  apply wp_save
  intro w₂ hrow₂ hothers₂
  rw [wp_bind]
  apply wp_emitHeld
  · rw [hst]
    exact hrow₂.ne_none
  · intro st' w₃ _ hw₃
    apply wp_of_done
    apply hQ
    · exact hrow₂.of_sameRecords hw₃.toSameRecords
    · exact ((OthersKept.of_sameStore hw₁).trans hothers₂).trans (.of_sameStore hw₃)

section Exited

variable {w : World} {d : Docker} {c c' : RuntimeContainerState}

variable {E : RuntimeException → Host → Prop}

/-- The container of a worker that has suspended `x` is removed with the link to it, or it
stays: the lifecycle retains it, or the daemon has failed to remove it. -/
theorem wp_maybeRemoveFinishedExecutionContainer {Q : Bool → Host → Prop}
    (hs : Suspended x s link e (w, d)) (hexited : c.status.isExited = true)
    (hfind : d.find c.containerId = some c') (hc' : c'.status.isExited = true)
    (hkept : ∀ d', Suspended x s link e (w, d') →
      (e.metadata.terminateContainerOnCompletion = true →
      denv.fails d.commands = true ∧ d.commands < d'.commands) → Q false (w, d'))
    (hcleared : ∀ e' w' d', Suspended x s link e' (w', d') → e'.container = none →
      Q true (w', d')) :
    (maybeRemoveFinishedExecutionContainer e c).wp (hostHandler env denv) Q E (w, d) := by
  rw [maybeRemoveFinishedExecutionContainer, wp_ite]
  split
  · rw [removeFinished, wp_bind]
    have hforce : needsForce c' = false := by
      apply needsForce_of_not_isLive
      rcases hstatus : c'.status <;> rw [hstatus] at hc' <;> first | rfl | cases hc'
    apply wp_attempt_removeContainer hfind hforce
    · intro hfails exc
      apply wp_of_done
      apply hkept
      · exact hs.of_sameRecords (.refl w) fun _ _ => rfl
      · exact fun _ => ⟨hfails, Nat.lt_succ_self _⟩
    · show Program.wp _ _ _ ((liftM (recordRemoved e c) : HostRun Unit) >>= _) (w, d.remove _)
      apply wp_lift_bind
      rw [recordRemoved]
      apply wp_orUtcNow
      intro endedAt w₁ hw₁
      -- the execution is active, so that it forgets its container
      have hunlink : (e.withRemoved c endedAt).unlinkIfActive = (e.withRemoved c endedAt).unlinked :=
        if_pos hs.waiting.isActive
      rw [hunlink, ← bind_done (updateExecution _)]
      apply wp_save
      intro w₂ hrow₂ hothers₂
      apply wp_of_done
      apply wp_of_done
      apply hcleared (e.withRemoved c endedAt).unlinked
      · have hlife : SameLife e (e.withRemoved c endedAt).unlinked := ⟨rfl, rfl, rfl, rfl⟩
        apply hs.rewrite hlife hrow₂
        · exact (OthersKept.of_sameStore hw₁).trans hothers₂
        · exact fun i hi => absurd hi nofun
      · rfl
  next hretained =>
    apply wp_of_done
    apply hkept d hs
    intro hterminate
    rw [hexited, hterminate] at hretained
    exact absurd rfl hretained

/-- The reconciler on the execution whose worker has suspended it. -/
theorem wp_reconcileExited {Q : List ReconciliationAction → Host → Prop}
    (hs : Suspended x s link e (w, d)) (hc : Retired x c) (hlink : e.container = some c.containerId)
    (hkept : ∀ e' w' d', Suspended x s link e' (w', d') →
      (e.metadata.terminateContainerOnCompletion = true →
      denv.fails d.commands = true ∧ d.commands < d'.commands) → ∀ r, Q r (w', d'))
    (hcleared : ∀ e' w' d', Suspended x s link e' (w', d') → e'.container = none →
      ∀ r, Q r (w', d')) :
    (reconcileExited e c).wp (hostHandler env denv) Q E (w, d) := by
  obtain ⟨hlinked, c', hfind, hc'⟩ := hs.linked _ hlink
  rw [reconcileExited]
  apply wp_lift_bind
  apply wp_markExecutionFailedForExitedContainer hc.code
  intro w₁ hrow₁ hothers₁
  have hs₁ : Suspended x s link (e.withExit c) (w₁, d) := by
    have hlife : SameLife e (e.withExit c) := ⟨rfl, rfl, rfl, rfl⟩
    apply hs.rewrite hlife hrow₁ hothers₁
    exact hs.linked
  rw [wp_bind]
  apply wp_maybeRemoveFinishedExecutionContainer hs₁ hc.exited hfind hc'.exited
  · intro d' hs₂ hfails
    exact wp_of_done (hkept _ _ _ hs₂ hfails _)
  · intro e₂ w₂ d₂ hs₂ hnone
    exact wp_of_done (hcleared _ _ _ hs₂ hnone _)

end Exited

/-! ### A pass over all executions -/

section Pass

variable {ttlSeconds : ℕ} {lo hi : Host} {containers : List RuntimeContainerState}
  {rest : List Execution}

/-- A pass from `lo` to `hi` removes the container of `e`: the lifecycle says so, and the
daemon answers. -/
def Removal (denv : DockerEnvironment) (lo hi : Host) (e : Execution) : Prop :=
  e.metadata.terminateContainerOnCompletion = true ∧
    ∀ k, lo.2.commands ≤ k → k < hi.2.commands → denv.fails k = false

/-- The loop over the executions, `rest` of which are still to come: `x` is suspended, its
row is `e` until its turn, and after a removal it is linked to nothing. -/
structure Loop (x : Uuid) (s : ExecutionStatus) (link : Option String) (e : Execution)
    (removal : Prop) (rest : List Execution) (h : Host) : Prop where
  listed : ∀ a ∈ rest, a = e ∨ Other x link a
  nodup : rest.Nodup
  row : ∃ e', Suspended x s link e' h ∧ (e ∈ rest → e' = e) ∧
    (removal → e ∉ rest → e'.container = none)

/-- `Loop`, as far as the pass goes. -/
def LoopWithin (denv : DockerEnvironment) (x : Uuid) (s : ExecutionStatus) (e : Execution)
    (lo hi : Host) (rest : List Execution) (h : Host) : Prop :=
  Later lo h ∧ (Later h hi → Loop x s e.container e (Removal denv lo hi e) rest h)

/-- The turn of the suspended execution itself. -/
theorem wp_reconcileListed_self {Q : List ReconciliationAction → Host → Prop}
    {E : RuntimeException → Host → Prop} (hs : Suspended x s e.container e h)
    (hcontainers : ∀ i, e.container = some i →
      ∃ c, findContainer containers i = some c ∧ Retired x c)
    (hkept : ∀ e' h', Suspended x s e.container e' h' →
      (e.metadata.terminateContainerOnCompletion = true →
        denv.fails h.2.commands = true ∧ h.2.commands < h'.2.commands) → ∀ r, Q r h')
    (hcleared : ∀ e' h', Suspended x s e.container e' h' → e'.container = none → ∀ r, Q r h') :
    (reconcileListed containers e).wp (hostHandler env denv) Q E h := by
  unfold reconcileListed
  rcases hlink : e.container with - | i
  · exact wp_of_done (hcleared e h hs hlink _)
  · obtain ⟨c, hfind, hc⟩ := hcontainers i hlink
    have hid : c.containerId = i := by simpa using List.find?_some hfind
    simp only [hfind]
    have hexited : (e.status.isActive && c.status.isExited) = true := by
      rw [hs.waiting.isActive, hc.exited]
      rfl
    rw [reconcileLinked, if_pos hexited]
    apply wp_reconcileExited hs hc
    · rw [hid]
      exact hlink
    · exact fun e' w' d' hs' hfails => hkept e' (w', d') hs' hfails
    · exact fun e' w' d' hs' hnone => hcleared e' (w', d') hs' hnone

/-- **One turn of the loop** keeps its invariant. -/
theorem wp_reconcileListed {a : Execution} (hid : e.id = x)
    (hcontainers : ∀ i, e.container = some i →
      ∃ c, findContainer containers i = some c ∧ Retired x c)
    (hloop : LoopWithin denv x s e lo hi (a :: rest) h) :
    (reconcileListed containers a).wp (hostHandler env denv)
      (fun _ => LoopWithin denv x s e lo hi rest)
      (fun _ => SuspendedBefore x s hi) h := by
  obtain ⟨hlo, hloop⟩ := hloop
  apply wp_window Later.refl Later.trans later_step hlo
  intro hhi
  obtain ⟨hlisted, hdistinct, e', hs, hrow, hremoved⟩ := hloop hhi
  obtain ⟨ha, hnodup⟩ := List.nodup_cons.mp hdistinct
  have hrest : ∀ b ∈ rest, b = e ∨ Other x e.container b := fun b hb =>
    hlisted b (List.mem_cons_of_mem a hb)
  rcases hlisted a List.mem_cons_self with rfl | hother
  · -- the execution itself, in its turn
    obtain rfl : e' = a := hrow List.mem_cons_self
    apply wp_reconcileListed_self hs hcontainers
    · intro e₂ h₂ hs₂ hfails r _ hhi₂
      refine ⟨hrest, hnodup, e₂, hs₂, fun h => absurd h ha, ?_⟩
      rintro ⟨hterminate, hanswers⟩ -
      obtain ⟨hfail, hlt⟩ := hfails hterminate
      have hanswer := hanswers _ hlo.commands (hlt.trans_le hhi₂.commands)
      rw [hfail] at hanswer
      cases hanswer
    · intro e₂ h₂ hs₂ hnone r _ _
      exact ⟨hrest, hnodup, e₂, hs₂, fun h => absurd h ha, fun _ _ => hnone⟩
  · have hne : e ≠ a := by
      rintro rfl
      exact hother.id hid
    apply wp_mono (hs.aside (Aside.reconcileListed containers hother))
    · intro r h₂ hs₂ _ _
      refine ⟨hrest, hnodup, e', hs₂, fun h => hrow (List.mem_cons_of_mem a h), ?_⟩
      intro hremoval hnotin
      apply hremoved hremoval
      intro hin
      rcases List.mem_cons.mp hin with heq | hin
      · exact hne heq
      · exact hnotin hin
    · exact fun _ h₂ hs₂ _ _ => ⟨_, e', hs₂⟩

variable {d : Docker}

/-- The rows listed at the start of a pass: the suspended execution and others. -/
theorem listed_other {p : Execution → Bool} (hs : Suspended x s link e (w, d)) {a : Execution}
    (ha : a ∈ w.db.executions.selectOrdered p newestFirst) :
    a = e ∨ Other x link a := by
  obtain ⟨hget, -⟩ := mem_selectOrdered.mp ha
  by_cases hid : a.id = x
  · rw [hid] at hget
    exact .inl (Option.some.inj (hget.symm.trans hs.row))
  · exact .inr (hs.other hid hget)

/-- A listed container of that identifier is the one the daemon finds. -/
theorem eq_of_mem_containers {i : String} {c c' : RuntimeContainerState} (hmem : c' ∈ d.containers)
    (hid : c'.containerId = i) (hfind : d.find i = some c) :
    c' = c := by
  apply List.inj_on_of_nodup_map d.unique hmem (Docker.mem_of_find hfind)
  rw [hid, Docker.containerId_of_find hfind]

/-- The time to live of the container does not run out in the pass while the row stays
linked to it. -/
def TtlSpares (env : Environment) (denv : DockerEnvironment) (ttlSeconds : ℕ) (e : Execution)
    (lo hi : Host) : Prop :=
  ∀ i c, e.container = some i → lo.2.find i = some c →
    (∀ t, c.finishedAt = some t → ∀ k < hi.1.clockReads,
      env.clock k < t + seconds ttlSeconds) ∨ Removal denv lo hi e

/-- The containers that are reaped as orphans belong to no listed execution. -/
theorem wp_reapOrphans {executions : List Execution} (hx : executions.any (·.id = x))
    (hlabel : ∀ c ∈ containers, e.container = some c.containerId → c.executionId = some x)
    (hloop : LoopWithin denv x s e lo hi [] h) :
    (Program.collect (reapOrphan executions) containers).wp (hostHandler env denv)
      (fun _ => LoopWithin denv x s e lo hi [])
      (fun _ => SuspendedBefore x s hi) h := by
  obtain ⟨hlo, hloop⟩ := hloop
  apply wp_window Later.refl Later.trans later_step hlo
  intro hhi
  obtain ⟨hlisted, hnodup, e', hs, hrow, hremoved⟩ := hloop hhi
  have haside : Aside x e.container (Program.collect (reapOrphan executions) containers) :=
    Program.Within.collect fun c hc => Aside.reapOrphan hx (hlabel c hc)
  apply wp_mono (hs.aside haside)
  · exact fun _ _ hs₁ _ _ => ⟨hlisted, hnodup, e', hs₁, hrow, hremoved⟩
  · exact fun _ _ hs₁ _ _ => ⟨_, e', hs₁⟩

/-- The cleanup after the loop: the container has not expired, or the row is not linked to
it any more. -/
theorem wp_cleanupExpiredContainers (hs : Suspended x s e.container e' h)
    (hcontainers : ∀ i, e.container = some i → ∃ c, d.find i = some c)
    (hspares : ∀ i c, e.container = some i → d.find i = some c → (∀ t, c.finishedAt = some t →
      ∀ k < hi.1.clockReads, env.clock k < t + seconds ttlSeconds) ∨ e'.container = none) :
    (cleanupExpiredContainers ttlSeconds d.containers).wp (hostHandler env denv)
      (fun _ => SuspendedBefore x s hi) (fun _ => SuspendedBefore x s hi) h := by
  obtain ⟨w, d₁⟩ := h
  rw [cleanupExpiredContainers]
  apply wp_lift_bind
  rw [← bind_done utcNow, wp_utcNow]
  apply wp_of_done
  have hs₁ : Suspended x s e.container e' ({ w with clockReads := w.clockReads + 1 }, d₁) :=
    hs.of_sameRecords ⟨rfl, rfl, rfl⟩ fun _ _ => rfl
  apply wp_before Later.refl Later.trans later_step
  intro hhi
  have hread : w.clockReads < hi.1.clockReads := hhi.clockReads
  rcases hlink : e'.container with - | j
  · -- no command can harm a row that is linked to nothing
    have hs₂ := hs₁.relink
    rw [hlink] at hs₂
    apply wp_mono (hs₂.aside (Program.Within.collect fun c _ => Aside.reapExpired _ nofun))
    · exact fun _ _ hs₃ _ => ⟨_, e', hs₃⟩
    · exact fun _ _ hs₃ _ => ⟨_, e', hs₃⟩
  · have haside : Aside x e.container (Program.collect (reapExpired ttlSeconds)
        (d.containers.filter (·.expired ttlSeconds (env.clock w.clockReads)))) := by
      apply Program.Within.collect
      intro c hc
      apply Aside.reapExpired
      intro hec
      obtain ⟨hmem, hexpired⟩ := List.mem_filter.mp hc
      obtain ⟨c', hfind⟩ := hcontainers _ hec
      obtain rfl : c = c' := eq_of_mem_containers hmem rfl hfind
      rcases hspares _ c hec hfind with hunexpired | hnone
      · obtain ⟨-, hany⟩ := (Bool.and_eq_true _ _).mp hexpired
        obtain ⟨t, ht, hle⟩ := (Option.any_eq_true _ _).mp hany
        have hlt := hunexpired t ht w.clockReads hread
        exact absurd (of_decide_eq_true hle) (not_le.mpr hlt)
      · rw [hlink] at hnone
        cases hnone
    apply wp_mono (hs₁.aside haside)
    · exact fun _ _ hs₃ _ => ⟨_, e', hs₃⟩
    · exact fun _ _ hs₃ _ => ⟨_, e', hs₃⟩

theorem wp_cleanupAfterLoop
    (hcontainers : ∀ i, e.container = some i →
      ∃ c, findContainer d.containers i = some c ∧ Retired x c)
    (hspares : TtlSpares env denv ttlSeconds e (w, d) hi)
    (hloop : LoopWithin denv x s e (w, d) hi [] h) (hhi : Later h hi) :
    (cleanupExpiredContainers ttlSeconds d.containers).wp (hostHandler env denv)
      (fun _ => SuspendedBefore x s hi) (fun _ => SuspendedBefore x s hi) h := by
  obtain ⟨-, -, e', hs, -, hremoved⟩ := hloop.2 hhi
  apply wp_cleanupExpiredContainers hs
  · intro i hi
    obtain ⟨c, hfind, -⟩ := hcontainers i hi
    exact ⟨c, hfind⟩
  · intro i c hi hfind
    rcases hspares i c hi hfind with hunexpired | hremoval
    · exact .inl hunexpired
    · exact .inr (hremoved hremoval List.not_mem_nil)

/-- **A pass of the reconciler** keeps the suspension. -/
theorem wp_reconcileOnce (hs : Suspended x s e.container e lo)
    (hspares : TtlSpares env denv ttlSeconds e lo hi) :
    (reconcileOnce ttlSeconds).wp (hostHandler env denv)
      (fun _ => SuspendedBefore x s hi) (fun _ => SuspendedBefore x s hi) lo := by
  obtain ⟨w, d⟩ := lo
  rw [reconcileOnce]
  apply wp_lift_query
  show Program.wp _ _ _ (listManagedContainers >>= _) (w, d)
  have hs₁ : Suspended x s e.container e (w, d.tick) := hs.of_sameRecords (.refl w) fun _ _ => rfl
  rw [wp_bind]
  apply wp_listManagedContainers
  · exact fun _ _ => ⟨_, e, hs₁⟩
  have hcontainers : ∀ i, e.container = some i →
      ∃ c, findContainer d.containers i = some c ∧ Retired x c := fun i hi => (hs.linked i hi).2
  have hmem : e ∈ w.db.executions.selectOrdered (fun _ => true) newestFirst := by
    apply mem_selectOrdered.mpr
    rw [hs.id]
    exact ⟨hs.row, rfl⟩
  have hloop : LoopWithin denv x s e (w, d) hi
      (w.db.executions.selectOrdered (fun _ => true) newestFirst) (w, d.tick) := by
    refine ⟨⟨le_rfl, Nat.le_succ _⟩, fun _ => ⟨fun a ha => listed_other hs ha, ?_, e, hs₁, ?_⟩⟩
    · exact (nodup_keys_selectOrdered _ _ _).of_map _
    · exact ⟨fun _ => rfl, fun _ hnotin => absurd hmem hnotin⟩
  refine wp_seq (wp_collect (I := LoopWithin denv x s e (w, d) hi)
    (fun a rest h hloop => wp_reconcileListed hs.id hcontainers hloop) hloop)
    fun reconciled h₂ hloop₂ => ?_
  have hx : (w.db.executions.selectOrdered (fun _ => true) newestFirst).any
      (·.id = x) = true := by
    apply List.any_eq_true.mpr
    exact ⟨e, hmem, decide_eq_true hs.id⟩
  apply wp_seq (wp_reapOrphans hx _ hloop₂)
  · intro orphans h₃ hloop₃
    exact wp_seq (wp_before Later.refl Later.trans later_step
      (wp_cleanupAfterLoop hcontainers hspares hloop₃)) fun _ _ h => wp_of_done h
  · intro c hc hlink
    obtain ⟨c', hfind, hretired⟩ := hcontainers _ hlink
    obtain rfl : c = c' := eq_of_mem_containers hc rfl hfind
    exact hretired.label

end Pass

end OpenAgency
