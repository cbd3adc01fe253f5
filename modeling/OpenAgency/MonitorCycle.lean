/-
MonitorCycle.lean

One `start_execution` of a persistent monitor, from the row it reads to the row it
leaves.  Starting a cycle fixes its number; the node loop and the handlers of a pause
or a cancellation leave the cycle record as it is; the handlers of a completed and of a
failed cycle change it in four ways (`CycleFrame.Closed`), after which the number of
the next cycle, if one is named, is the number of this cycle plus one.
-/
import OpenAgency.NodeLoop

namespace OpenAgency

open Interaction Relational Program

/-! ### The number of a cycle -/

namespace PersistentCycle

/-- The number the next cycle to start takes. -/
def startNumber (c : PersistentCycle) : ℕ :=
  (positiveInt c.nextCycleNumber <|> positiveInt c.cycleNumber).getD 1

theorem positiveInt_some {n : ℕ} (h : 0 < n) : positiveInt (some n) = some n := by
  simp [positiveInt, h]

theorem positiveInt_pos {c : Option ℕ} {n : ℕ} (h : positiveInt c = some n) : 0 < n := by
  rcases c with - | m
  · cases h
  · simp only [positiveInt, Option.filter] at h
    split at h
    next hm =>
      cases h
      exact of_decide_eq_true hm
    · cases h

theorem number_pos (c : PersistentCycle) : 0 < c.number := by
  unfold number
  rcases h : positiveInt c.cycleNumber with - | n
  · exact Nat.one_pos
  · exact positiveInt_pos h

theorem startNumber_pos (c : PersistentCycle) : 0 < c.startNumber := by
  unfold startNumber
  rcases h : positiveInt c.nextCycleNumber with - | n
  · rcases h' : positiveInt c.cycleNumber with - | m
    · exact Nat.one_pos
    · exact positiveInt_pos h'
  · exact positiveInt_pos h

@[simp] theorem number_start (c : PersistentCycle) (now : Time) :
    (c.start now).number = c.startNumber := by
  show (positiveInt (some c.startNumber)).getD 1 = _
  rw [positiveInt_some c.startNumber_pos]
  rfl

@[simp] theorem number_complete (c : PersistentCycle) (policy : PersistentCyclePolicy)
    (signature : String) (now : Time) : (c.complete policy signature now).number = c.number := by
  show (positiveInt (some c.number)).getD 1 = _
  rw [positiveInt_some c.number_pos]
  rfl

@[simp] theorem number_fail (c : PersistentCycle) (policy : PersistentCyclePolicy)
    (error : String) (now : Time) : (c.fail policy error now).number = c.number := by
  show (positiveInt (some c.number)).getD 1 = _
  rw [positiveInt_some c.number_pos]
  rfl

/-- Without a number for the next cycle the same cycle starts again. -/
theorem startNumber_of_next_none {c : PersistentCycle} (h : c.nextCycleNumber = none) :
    c.startNumber = c.number := by
  rw [startNumber, number, h]
  rfl

theorem startNumber_of_next {c : PersistentCycle} {n : ℕ} (h : c.nextCycleNumber = some (n + 1)) :
    c.startNumber = n + 1 := by
  rw [startNumber, h, positiveInt_some (Nat.succ_pos n)]
  rfl

end PersistentCycle

/-! ### The ends of a cycle -/

namespace CycleFrame

/-- The ways in which the end of a cycle changes its record keep the property.  A
schedule names the successor of the number it has read before. -/
structure Closed (F : CycleFrame) (policy : PersistentCyclePolicy) : Prop where
  complete : ∀ c q signature now, F.holds c q → F.holds (c.complete policy signature now) q
  fail : ∀ c q error now, F.holds c q → F.holds (c.fail policy error now) q
  terminal : ∀ c q reason, F.holds c q →
    F.holds { c with phase := some .completed, terminalReason := some reason } q
  guard : ∀ c q reason, F.holds c q → F.holds { c with
    phase := some .guarded
    guardReason := some reason
    nextCycleNumber := some (c.number + 1) } q
  schedule : ∀ read q' c q wakeAt, F.holds read q' → F.holds c q → F.holds { c with
    phase := some .sleeping
    nextCycleNumber := some (read.number + 1)
    nextWakeAt := some wakeAt } q

variable {F : CycleFrame} {run : RunContext}

namespace Keeps

theorem handlePaused (href : F.ref = some run.ref) (hx : run.state.executionId = F.executionId) :
    F.Keeps (OpenAgency.handlePaused run) := by
  -- the part after the object has taken over the row's wait, or has been paused
  have hsave : F.Keeps (do
      OpenAgency.saveObject run.ref
      let e ← run.object
      if e.status = .waitingForApproval && e.metadata.activeWait.isSome then
        run.emit .executionWaiting
      run.emit .executionPaused) := by
    refine .bind (saveObject href) fun _ => .bind (process trivial) fun e => ?_
    dsimp only
    split
    · exact .bind (KeepsRun.emitRun _) fun _ => KeepsRun.emitRun _
    · exact KeepsRun.emitRun _
  refine .bind (state _ _) fun st => getExecution ?_ fun current hid hcurrent => ?_
  · exact .bind (modifyObject (fun _ => ⟨rfl, rfl, rfl⟩) _) fun _ => hsave
  · dsimp only
    split
    · exact .bind (process fun _ e hid _ => ⟨hid, hcurrent hx⟩) fun _ => hsave
    · exact .bind (modifyObject (fun _ => ⟨rfl, rfl, rfl⟩) _) fun _ => hsave

theorem handleCancelled (href : F.ref = some run.ref) : F.Keeps (OpenAgency.handleCancelled run) := by
  refine .bind (state _ _) fun st => .bind utcNow fun now => ?_
  refine .bind (modifyObject (fun _ => ⟨rfl, rfl, rfl⟩) _) fun _ => ?_
  exact .bind (saveObject href) fun _ => KeepsRun.emitRun _

theorem completeRun (href : F.ref = some run.ref) : F.Keeps (OpenAgency.completeRun run) := by
  refine .bind utcNow fun now => .bind (modifyObject (fun _ => ⟨rfl, rfl, rfl⟩) _) fun _ => ?_
  exact .bind (saveObject href) fun _ => KeepsRun.emitRun _

theorem failRun (href : F.ref = some run.ref) (error : String) :
    F.Keeps (OpenAgency.failRun run error) := by
  refine .bind utcNow fun now => .bind (modifyObject (fun _ => ⟨rfl, rfl, rfl⟩) _) fun _ => ?_
  exact .bind (saveObject href) fun _ => KeepsRun.emitRun _

theorem resetCycleCheckpoint (cycleOutput : CycleOutput) :
    F.Keeps (OpenAgency.resetCycleCheckpoint run cycleOutput) :=
  .bind (modifyObject (fun _ => ⟨rfl, rfl, rfl⟩) _) fun _ => modifyState _ _

theorem modifyCycle {f : PersistentCycle → PersistentCycle}
    (h : ∀ c q, F.holds c q → F.holds (f c) q) : F.Keeps (run.modifyCycle f) :=
  process fun _ _ hid he => ⟨hid, h _ _ he⟩

theorem createCycleWait (hwaits : ∀ kind, F.waits kind) (wait : ExecutionWait) :
    F.Keeps (OpenAgency.createCycleWait wait) := by
  refine rescue ?_ fun exc => ?_
  · refine .bind (query (hwaits _)) fun inserted => ?_
    rcases inserted with e | -
    · refine .bind (query trivial) fun existing => ?_
      rcases existing with - | existing
      · exact within_ofExcept (.error e)
      · exact ofExcept _
    · exact ofExcept _
  · dsimp only
    split
    · exact within_ofExcept (.error exc)
    · refine .bind (listPendingWaits _) fun waits => ?_
      rcases waits with - | ⟨pending, -⟩
      · exact within_ofExcept (.error exc)
      · dsimp only
        split
        · exact pure pending
        · exact within_ofExcept (.error exc)

theorem sleepUntilCycle (hwaits : ∀ kind, F.waits kind) (href : F.ref = some run.ref) (next : ℕ)
    (wakeAt : Time) (reason : String) :
    F.Keeps (OpenAgency.sleepUntilCycle run next wakeAt reason) := by
  refine .bind (process trivial) fun e => ?_
  refine .bind (.bind uuid4 fun id => .bind utcNow fun now => ofExcept _) fun wait => ?_
  refine .bind (createCycleWait hwaits _) fun wait => ?_
  refine .bind (modifyObject (fun _ => ⟨rfl, rfl, rfl⟩) _) fun _ => ?_
  exact .bind (saveObject href) fun _ => KeepsRun.emitRun _

theorem schedulePersistentCycle (hF : F.Closed run.policy) (hwaits : ∀ kind, F.waits kind)
    (href : F.ref = some run.ref) (cycleOutput : CycleOutput) (delay : ℚ) (reason : String) :
    F.Keeps (OpenAgency.schedulePersistentCycle run cycleOutput delay reason) := by
  refine object href fun e _ he => .bind utcNow fun now => ?_
  refine .bind (modifyCycle fun c q hc => ?_) fun _ => .bind (resetCycleCheckpoint _) fun _ => ?_
  · exact hF.schedule _ _ c q _ he hc
  · refine .bind (modifyObject (fun _ => ⟨rfl, rfl, rfl⟩) _) fun _ => .bind (saveObject href) fun _ => ?_
    exact sleepUntilCycle hwaits href _ _ _

theorem pausePersistentCycleForGuard (hF : F.Closed run.policy) (href : F.ref = some run.ref)
    (cycleOutput : CycleOutput) (reason : String) :
    F.Keeps (OpenAgency.pausePersistentCycleForGuard run cycleOutput reason) := by
  refine .bind (modifyCycle fun c q hc => hF.guard c q reason hc) fun _ => ?_
  refine .bind (resetCycleCheckpoint _) fun _ => ?_
  refine .bind (modifyObject (fun _ => ⟨rfl, rfl, rfl⟩) _) fun _ => ?_
  exact .bind (saveObject href) fun _ => .bind (KeepsRun.emitRun _) fun _ => KeepsRun.emitRun _

theorem handlePersistentCycleSuccess (hF : F.Closed run.policy) (hwaits : ∀ kind, F.waits kind)
    (href : F.ref = some run.ref) (cycleOutput : CycleOutput) :
    F.Keeps (OpenAgency.handlePersistentCycleSuccess run cycleOutput) := by
  unfold OpenAgency.handlePersistentCycleSuccess
  split
  · exact pure false
  · refine .bind utcNow fun now => ?_
    refine .bind (modifyCycle fun c q hc => hF.complete c q _ _ hc) fun _ => ?_
    refine .bind (modifyObject (fun _ => ⟨rfl, rfl, rfl⟩) _) fun _ => .bind (process trivial) fun e => ?_
    refine .bind (KeepsRun.emitRun _) fun _ => ?_
    dsimp only
    split
    · exact .bind (modifyCycle fun c q hc => hF.terminal c q _ hc) fun _ => pure false
    · split
      · exact .bind (pausePersistentCycleForGuard hF href _ _) fun _ => pure true
      · exact .bind (schedulePersistentCycle hF hwaits href _ _ _) fun _ => pure true

theorem handlePersistentCycleFailure (hF : F.Closed run.policy) (hwaits : ∀ kind, F.waits kind)
    (href : F.ref = some run.ref) (error : String) :
    F.Keeps (OpenAgency.handlePersistentCycleFailure run error) := by
  refine .bind utcNow fun now => .bind (state _ _) fun st => ?_
  refine .bind (modifyObject (fun _ => ⟨rfl, rfl, rfl⟩) _) fun _ => ?_
  refine .bind (modifyCycle fun c q hc => hF.fail c q _ _ hc) fun _ => ?_
  refine .bind (process trivial) fun e => .bind (KeepsRun.emitRun _) fun _ => ?_
  dsimp only
  split
  · exact pausePersistentCycleForGuard hF href _ _
  · split
    · exact pausePersistentCycleForGuard hF href _ _
    · exact schedulePersistentCycle hF hwaits href _ _ _

theorem concludeRun (hF : F.Closed run.policy) (hwaits : ∀ kind, F.waits kind)
    (href : F.ref = some run.ref) : F.Keeps (OpenAgency.concludeRun run) := by
  refine .bind (state _ _) fun st => .bind (modifyObject (fun _ => ⟨rfl, rfl, rfl⟩) _) fun _ => ?_
  refine .bind (handlePersistentCycleSuccess hF hwaits href _) fun ends => ?_
  cases ends with
  | true => exact pure ()
  | false =>
    refine .bind (state _ _) fun st => ?_
    split
    · exact completeRun href
    · split
      · exact handlePersistentCycleFailure hF hwaits href _
      · exact failRun href _

theorem handleException (hF : F.Closed run.policy) (hwaits : ∀ kind, F.waits kind)
    (href : F.ref = some run.ref) (hx : run.state.executionId = F.executionId)
    (exc : RuntimeException) : F.Keeps (OpenAgency.handleException run exc) := by
  unfold OpenAgency.handleException
  split
  · exact handlePaused href hx
  · split
    · exact handleCancelled href
    · split
      · exact handlePersistentCycleFailure hF hwaits href _
      · refine .bind (state _ _) fun st => ?_
        exact .bind (modifyObject (fun _ => ⟨rfl, rfl, rfl⟩) _) fun _ => failRun href _

end Keeps

/-! ### The start of a cycle -/

theorem Keeps.hydrateResumeCheckpoint : F.Keeps (OpenAgency.hydrateResumeCheckpoint run) := by
  refine .bind (.process trivial) fun e => .bind (.state _ _) fun st => ?_
  split
  · exact .pure ()
  · split
    · exact .modifyState _ _
    · split
      · exact .pure ()
      · refine .bind (.query trivial) fun source => ?_
        split
        · exact .pure ()
        · exact .modifyState _ _

section Begin

variable {env : Environment} {w : World} {x : Uuid} {e : Execution}
  {holds : PersistentCycle → PersistentCyclePolicy → Prop} {waits : ExecutionWaitKind → Prop}

/-- The object is saved as it is, and the property has been established. -/
theorem invariant_save {w₁ : World} {ref : ℕ} {e₁ : Execution} (hwaits : w₁.db.waits = w.db.waits)
    (hobj : ObjectIs w₁ ref e₁) (hid : e₁.id = x)
    (hholds : holds e₁.metadata.persistentCycle e₁.metadata.persistentCyclePolicy) :
    (⟨x, some ref, holds, waits⟩ : CycleFrame).Invariant w
      { w₁ with db.executions := w₁.db.executions.save e₁ } := by
  refine ⟨⟨e₁, ?_, hholds⟩, ?_, ?_⟩
  · show (w₁.db.executions.save e₁).get x = some e₁
    rw [← hid]
    exact Table.get_save_self _ _
  · rintro _ ⟨⟩
    exact ⟨e₁, hobj, hid, hholds⟩
  · intro i row hi hp _
    refine ⟨row, ?_, hp, rfl, rfl⟩
    have hi' : w₁.db.waits.get i = some row := hi
    rwa [hwaits] at hi'

/-- **The start of a cycle.**  Afterwards the property holds of row and object, if it
holds of the cycle record as the start leaves it. -/
theorem wp_beginRun {cfg : EngineConfig} {workflow : WorkflowDefinition} (hid : e.id = x)
    (hholds : ∀ now, holds
      (if e.metadata.persistentCyclePolicy.enabled then e.metadata.persistentCycle.start now
        else e.metadata.persistentCycle) e.metadata.persistentCyclePolicy)
    {Q : RunContext → World → Prop} {E : RuntimeException → World → Prop}
    (hQ : ∀ run w₁, run.cfg = cfg → run.workflow = workflow → run.state.executionId = x →
      run.policy = e.metadata.persistentCyclePolicy →
      (⟨x, some run.ref, holds, waits⟩ : CycleFrame).Invariant w w₁ → Q run w₁)
    (hE : ∀ exc w₁ ref, (⟨x, some ref, holds, waits⟩ : CycleFrame).Invariant w w₁ → E exc w₁) :
    (beginRun cfg e workflow).wp (handler env) Q E w := by
  rw [beginRun, wp_state, wp_process, wp_bind]
  apply wp_hydrateStatePosition
  intro w' hw'
  refine wp_newObject fun ref w₁ hdb hobj => ?_
  have hwaits : w₁.db.waits = w.db.waits := by
    rw [hdb]
    exact hw'.waits
  generalize hrun : (⟨cfg, _, ref, workflow, e.metadata.persistentCyclePolicy⟩ : RunContext) = run
  have hx : run.state.executionId = x := by
    rw [← hrun, ← hid]
    exact ProcOp.executionId_setdefault _ _ _
  have href : run.ref = ref := by rw [← hrun]
  -- once the object is saved, everything keeps the property
  have htail : ∀ (cycleStarted : Bool) (w₂ : World) (e₂ : Execution), w₂.db = w₁.db →
      ObjectIs w₂ ref e₂ → e₂.id = x →
      holds e₂.metadata.persistentCycle e₂.metadata.persistentCyclePolicy →
      (do
        saveObject ref
        OpenAgency.hydrateResumeCheckpoint run
        run.emit .executionStarted
        if cycleStarted then run.emit .executionCycleStarted
        return run : Coroutine RunContext).wp (handler env) Q E w₂ := by
    intro cycleStarted w₂ e₂ hdb₂ hobj₂ hid₂ hholds₂
    rw [wp_bind]
    refine wp_saveObject hobj₂ fun _ => ?_
    have hinv : (⟨x, some ref, holds, waits⟩ : CycleFrame).Invariant w
        { w₂ with db.executions := w₂.db.executions.save e₂ } :=
      invariant_save (by rw [hdb₂, hwaits]) hobj₂ hid₂ hholds₂
    have hQ' : ∀ w₃, (⟨x, some ref, holds, waits⟩ : CycleFrame).Invariant w w₃ → Q run w₃ := by
      subst href
      exact fun w₃ h₃ => hQ run w₃ (by rw [← hrun]) (by rw [← hrun]) hx (by rw [← hrun]) h₃
    have hE' := fun exc w₃ => hE exc w₃ ref
    refine wp_then (Keeps.hydrateResumeCheckpoint.wp hinv) (fun _ w₃ h₃ => ?_) hE'
    refine wp_then ((KeepsRun.emitRun _).wp h₃) (fun _ w₄ h₄ => ?_) hE'
    cases cycleStarted with
    | true =>
      rw [if_pos rfl]
      exact wp_then ((KeepsRun.emitRun _).wp h₄) (fun _ w₅ h₅ => wp_of_done (hQ' w₅ h₅)) hE'
    | false => exact wp_of_done (hQ' w₄ h₄)
  have hrest : ∀ (cycleStarted : Bool) (w₂ : World) (e₂ : Execution), w₂.db = w₁.db →
      ObjectIs w₂ ref e₂ → e₂.id = x →
      holds e₂.metadata.persistentCycle e₂.metadata.persistentCyclePolicy →
      (do
        run.modifyObject fun e => { e with status := .running }
        if e.startedAt.isNone then
          let now ← utcNow
          run.modifyObject fun e => { e with startedAt := some now }
        if (orElseString e.workerId none).isSome then
          let now ← utcNow
          run.modifyObject fun e => { e with lastHeartbeatAt := some now }
        saveObject ref
        OpenAgency.hydrateResumeCheckpoint run
        run.emit .executionStarted
        if cycleStarted then run.emit .executionCycleStarted
        return run : Coroutine RunContext).wp (handler env) Q E w₂ := by
    intro cycleStarted w₂ e₂ hdb₂ hobj₂ hid₂ hholds₂
    unfold RunContext.modifyObject
    rw [href]
    refine wp_modifyObject hobj₂ _ fun w₃ hdb₃ hobj₃ => ?_
    have hdb₃' := hdb₃.trans hdb₂
    dsimp only
    by_cases hstarted : e.startedAt.isNone = true
    · rw [if_pos hstarted, wp_utcNow]
      refine wp_modifyObject (w := { w₃ with clockReads := w₃.clockReads + 1 }) hobj₃ _
        fun w₄ hdb₄ hobj₄ => ?_
      by_cases hworker : (orElseString e.workerId none).isSome = true
      · rw [if_pos hworker, wp_utcNow]
        refine wp_modifyObject (w := { w₄ with clockReads := w₄.clockReads + 1 }) hobj₄ _
          fun w₅ hdb₅ hobj₅ => ?_
        exact htail _ w₅ _ (hdb₅.trans (hdb₄.trans hdb₃')) hobj₅ hid₂ hholds₂
      · rw [if_neg hworker]
        exact htail _ w₄ _ (hdb₄.trans hdb₃') hobj₄ hid₂ hholds₂
    · rw [if_neg hstarted]
      by_cases hworker : (orElseString e.workerId none).isSome = true
      · rw [if_pos hworker, wp_utcNow]
        refine wp_modifyObject (w := { w₃ with clockReads := w₃.clockReads + 1 }) hobj₃ _
          fun w₄ hdb₄ hobj₄ => ?_
        exact htail _ w₄ _ (hdb₄.trans hdb₃') hobj₄ hid₂ hholds₂
      · rw [if_neg hworker]
        exact htail _ w₃ _ hdb₃' hobj₃ hid₂ hholds₂
  have hpolicy : run.policy = e.metadata.persistentCyclePolicy := by rw [← hrun]
  rw [wp_bind, markPersistentCycleStarted, hpolicy]
  by_cases henabled : e.metadata.persistentCyclePolicy.enabled = true
  · rw [if_neg (by simp [henabled]), wp_utcNow]
    subst href
    refine wp_modifyObject (w := { w₁ with clockReads := w₁.clockReads + 1 }) hobj _
      fun w₂ hdb₂ hobj₂ => wp_of_done ?_
    have hstart := hholds (env.clock w₁.clockReads)
    rw [if_pos henabled] at hstart
    exact hrest true w₂ _ hdb₂ hobj₂ hid hstart
  · rw [if_pos (by simp [henabled])]
    have hstart := hholds 0
    rw [if_neg henabled] at hstart
    exact wp_of_done (hrest false w₁ e rfl hobj hid hstart)

end Begin

/-- What follows a pause or a cancellation leaves the cycle record as it is. -/
theorem Keeps.handleInterruption (href : F.ref = some run.ref)
    (hx : run.state.executionId = F.executionId) {exc : RuntimeException}
    (h : (exc.cls.isExecutionPaused || exc.cls = .executionCancelled) = true) :
    F.Keeps (OpenAgency.handleException run exc) := by
  unfold OpenAgency.handleException
  by_cases hpaused : exc.cls.isExecutionPaused = true
  · rw [if_pos hpaused]
    exact handlePaused href hx
  · have hcancelled : exc.cls = .executionCancelled := by simpa [hpaused] using h
    rw [if_neg hpaused, if_pos hcancelled]
    exact handleCancelled href

/-! ### The last cycle -/

section End

variable {env : Environment} {w₀ w : World}

variable {E : RuntimeException → World → Prop}

variable {Q : Unit → World → Prop}

/-- An emission of the run does not fail while the row is there. -/
theorem wp_emitRun {eventType : ExecutionEventType} (hx : run.state.executionId = F.executionId)
    (h : F.Invariant w₀ w) (hQ : ∀ w', SameButEvents w w' → F.Invariant w₀ w' → Q () w') :
    (run.emit eventType).wp (handler env) Q E w := by
  obtain ⟨e, he, -⟩ := h.row
  rw [RunContext.emit, wp_bind]
  refine wp_emit_of_row ?_ fun event w' hs => ?_
  · rw [hx, he]
    exact Option.some_ne_none e
  · exact wp_of_done (hQ w' hs (h.of_sameButEvents hs))

/-- A change of the object that keeps the property. -/
theorem wp_edit {α : Type} {g : Execution → Execution} {f : Unit → Coroutine α}
    {Q : α → World → Prop} (h : F.Invariant w₀ w)
    (hg : ∀ e, e.id = F.executionId → F.Holds e → (g e).id = F.executionId ∧ F.Holds (g e))
    (hf : ∀ w', F.Invariant w₀ w' → w'.proc.nodeErrors = w.proc.nodeErrors →
      (f ()).wp (handler env) Q E w') :
    (run.modifyObject g >>= f).wp (handler env) Q E w := by
  show Program.wp _ _ _ (process (.modifyObject run.ref g) >>= f) w
  rw [wp_process]
  exact hf _ (h.exec_proc (o := .modifyObject run.ref g) fun _ => hg) rfl

/-- The object is read. -/
theorem wp_readObject {α : Type} {f : Execution → Coroutine α} {Q : α → World → Prop}
    (href : F.ref = some run.ref) (h : F.Invariant w₀ w)
    (hf : ∀ e, ObjectIs w run.ref e → e.id = F.executionId → F.Holds e →
      (f e).wp (handler env) Q E w) : (run.object >>= f).wp (handler env) Q E w := by
  obtain ⟨e, hobj, hid, hholds⟩ := h.object run.ref href
  exact (wp_object hobj f).mpr (hf e hobj hid hholds)

/-- The frame of a cycle whose number is `n` and that names no next one. -/
def lastCycle (x : Uuid) (ref n : ℕ) (policy : PersistentCyclePolicy) : CycleFrame where
  executionId := x
  ref := some ref
  holds c q := c.number = n ∧ c.nextCycleNumber = none ∧ q = policy
  waits _ := True

/-- The object is saved, and the property stays. -/
theorem wp_saveRun (href : F.ref = some run.ref) (h : F.Invariant w₀ w)
    (hQ : ∀ w', F.Invariant w₀ w' → Q () w') :
    (saveObject run.ref).wp (handler env) Q E w := by
  obtain ⟨e, hobj, hid, hholds⟩ := h.object run.ref href
  refine wp_saveObject hobj fun _ => hQ _ ?_
  exact h.exec_db (o := .updateExecution e) fun _ => hholds

/-- **A clean last cycle schedules nothing.**  It is compared with `max_cycles` before
anything else, and nothing after it fails. -/
theorem wp_concludeRun_last {n : ℕ} (henabled : run.policy.enabled = true)
    (hmax : run.policy.maxCycles.any (· ≤ n) = true)
    (h : (lastCycle run.state.executionId run.ref n run.policy).Invariant w₀ w)
    (herrors : w.proc.nodeErrors run.state.executionId = []) :
    (OpenAgency.concludeRun run).wp (handler env)
      (fun _ => (lastCycle run.state.executionId run.ref n run.policy).Invariant w₀) E w := by
  rw [concludeRun, RunContext.currentState, wp_state]
  refine wp_edit (h.of_eq rfl rfl) (fun e hid he => ⟨hid, he⟩) fun w₁ h₁ herr₁ => ?_
  rw [wp_bind, OpenAgency.handlePersistentCycleSuccess, if_neg (by simp [henabled]), wp_utcNow]
  refine wp_edit (h₁.of_eq rfl rfl) (fun e hid he => ⟨hid, ?_⟩) fun w₂ h₂ herr₂ => ?_
  · exact ⟨(PersistentCycle.number_complete _ _ _ _).trans he.1, he.2⟩
  refine wp_edit h₂ (fun e hid he => ⟨hid, he⟩) fun w₃ h₃ herr₃ => ?_
  refine wp_readObject rfl h₃ fun e hobj hid he => ?_
  rw [wp_bind]
  refine wp_emitRun rfl h₃ fun w₄ hs h₄ => ?_
  obtain ⟨reason, hreason⟩ : ∃ reason, e.metadata.persistentCycle.terminalReasonFor run.policy
      (env.clock w₁.clockReads) = some reason := by
    refine ⟨"max_cycles_reached", if_pos ?_⟩
    rw [he.1]
    exact hmax
  rw [hreason]
  refine wp_edit h₄ (fun e hid he => ⟨hid, he⟩) fun w₅ h₅ herr₅ => wp_of_done ?_
  -- no node has failed, so the run completes
  have herrors₅ : w₅.proc.nodeErrors run.state.executionId = [] := by
    rw [herr₅, hs.nodeErrors, herr₃, herr₂]
    show w₁.proc.nodeErrors run.state.executionId = []
    rw [herr₁]
    exact (ProcessState.nodeErrors_state _ _ _ _).trans herrors
  rw [if_neg (by simp), wp_state, ProcessState.nodeErrors_setdefault, herrors₅]
  show Program.wp _ _ _ (completeRun run) _
  rw [completeRun, wp_utcNow]
  refine wp_edit (h₅.of_eq rfl rfl) (fun e hid he => ⟨hid, he⟩) fun w₆ h₆ _ => ?_
  rw [wp_bind]
  refine wp_saveRun rfl h₆ fun w₇ h₇ => wp_emitRun rfl h₇ fun w₈ _ h₈ => h₈

end End

/-! ### A failed cycle -/

section Failure

variable {env : Environment} {w : World} {x : Uuid} {e : Execution}

/-- The cycle record with the guard of the given reason. -/
def guarded (c : PersistentCycle) (reason : String) : PersistentCycle :=
  { c with
    phase := some .guarded
    guardReason := some reason
    nextCycleNumber := some (c.number + 1) }

variable {E : RuntimeException → World → Prop}

theorem wp_pausePersistentCycleForGuard {cycleOutput : CycleOutput} {reason : String}
    {Q : Unit → World → Prop} (hx : run.state.executionId = x) (hobj : ObjectIs w run.ref e)
    (hid : e.id = x)
    (hQ : ∀ w' e', w'.db.waits = w.db.waits → w'.db.executions.get x = some e' →
      e'.status = .paused →
      e'.metadata.persistentCycle = guarded e.metadata.persistentCycle reason →
      e'.metadata.persistentCyclePolicy = e.metadata.persistentCyclePolicy → Q () w') :
    (pausePersistentCycleForGuard run cycleOutput reason).wp (handler env) Q E w := by
  subst hx
  rw [pausePersistentCycleForGuard]
  refine wp_modifyObject hobj _ fun w₁ hdb₁ hobj₁ => ?_
  rw [wp_bind]
  refine wp_resetCycleCheckpoint hobj₁ fun w₂ hdb₂ hobj₂ => ?_
  refine wp_modifyObject hobj₂ _ fun w₃ hdb₃ hobj₃ => ?_
  obtain ⟨e₃, hobj₃, hid₃, hstatus, hcycle, hpolicy⟩ : ∃ e₃, ObjectIs w₃ run.ref e₃ ∧
      e₃.id = run.state.executionId ∧ e₃.status = .paused ∧
      e₃.metadata.persistentCycle = guarded e.metadata.persistentCycle reason ∧
      e₃.metadata.persistentCyclePolicy = e.metadata.persistentCyclePolicy :=
    ⟨_, hobj₃, hid, rfl, rfl, rfl⟩
  rw [wp_bind]
  refine wp_saveObject hobj₃ fun hobj₄ => ?_
  have hinv : (⟨run.state.executionId, some run.ref, fun _ _ => True, fun _ => True⟩ :
      CycleFrame).Invariant w₃ _ := invariant_save rfl hobj₃ hid₃ trivial
  rw [wp_bind]
  refine wp_emitRun rfl hinv fun w₅ hs₅ h₅ => wp_emitRun rfl h₅ fun w₆ hs₆ h₆ => ?_
  refine hQ w₆ e₃ ?_ ?_ hstatus hcycle hpolicy
  · rw [hs₆.waits, hs₅.waits]
    show w₃.db.waits = w.db.waits
    rw [hdb₃, hdb₂, hdb₁]
  · rw [hs₆.executions, hs₅.executions, ← hid₃]
    exact Table.get_save_self _ _

/-- The row of an execution has the property. -/
def RowHolds (x : Uuid) (holds : PersistentCycle → PersistentCyclePolicy → Prop)
    (w : World) : Prop :=
  ∃ e, w.db.executions.get x = some e ∧
    holds e.metadata.persistentCycle e.metadata.persistentCyclePolicy

variable {holds : PersistentCycle → PersistentCyclePolicy → Prop}

theorem wp_schedulePersistentCycle {cycleOutput : CycleOutput} {delay : ℚ} {reason : String}
    (hobj : ObjectIs w run.ref e) (hid : e.id = x)
    (hholds : ∀ wakeAt, holds { e.metadata.persistentCycle with
      phase := some .sleeping
      nextCycleNumber := some (e.metadata.persistentCycle.number + 1)
      nextWakeAt := some wakeAt } e.metadata.persistentCyclePolicy) :
    (schedulePersistentCycle run cycleOutput delay reason).wp (handler env)
      (fun _ => RowHolds x holds) (fun _ => RowHolds x holds) w := by
  rw [schedulePersistentCycle]
  refine (wp_object hobj _).mpr ?_
  rw [wp_utcNow]
  refine wp_modifyObject (w := { w with clockReads := w.clockReads + 1 }) hobj _
    fun w₁ hdb₁ hobj₁ => ?_
  rw [wp_bind]
  refine wp_resetCycleCheckpoint hobj₁ fun w₂ hdb₂ hobj₂ => ?_
  refine wp_modifyObject hobj₂ _ fun w₃ hdb₃ hobj₃ => ?_
  rw [wp_bind]
  refine wp_saveObject hobj₃ fun hobj₄ => ?_
  have hinv : (⟨x, some run.ref, holds, fun _ => True⟩ : CycleFrame).Invariant w₃ _ :=
    invariant_save rfl hobj₃ hid (hholds _)
  refine wp_mono ((Keeps.sleepUntilCycle (fun _ => trivial) rfl _ _ _).wp hinv) ?_ ?_
  · exact fun _ w' h => h.row
  · exact fun _ w' h => h.row

/-- The execution is paused by the guard of consecutive failures. -/
def GuardTriggered (x : Uuid) (w : World) : Prop :=
  ∃ e, w.db.executions.get x = some e ∧ e.status = .paused ∧
    e.metadata.persistentCycle.phase = some .guarded ∧
    e.metadata.persistentCycle.guardReason = some "max_consecutive_failures_reached"

/-- **A failed cycle is counted.**  It is the guard's as soon as the count reaches the
limit, and then no wait is stored. -/
theorem wp_handlePersistentCycleFailure {w₀ : World} {waits : ExecutionWaitKind → Prop} {k : ℕ}
    {error : String}
    (h : (⟨x, some run.ref, fun c q => c.consecutiveFailures = k ∧
      q = run.policy, waits⟩ : CycleFrame).Invariant w₀ w) (hx : run.state.executionId = x)
    {Q : Unit → World → Prop}
    (hguard : run.policy.maxConsecutiveFailures ≤ k + 1 → ∀ w', w'.db.waits = w.db.waits →
      GuardTriggered x w' →
      RowHolds x (fun c q => k < c.consecutiveFailures ∧ q = run.policy) w' → Q () w')
    (hother : ¬ run.policy.maxConsecutiveFailures ≤ k + 1 →
      ∀ w', RowHolds x (fun c q => k < c.consecutiveFailures ∧ q = run.policy) w' →
      Q () w' ∧ ∀ exc, E exc w') :
    (handlePersistentCycleFailure run error).wp (handler env) Q E w := by
  obtain ⟨e, hobj, hid, hcount, hpolicy⟩ := h.object run.ref rfl
  obtain ⟨row, hrow, -⟩ := h.row
  rw [handlePersistentCycleFailure, wp_utcNow, RunContext.currentState, wp_state]
  refine wp_modifyObject (w := { w with
    clockReads := w.clockReads + 1
    proc := ((ProcOp.state run.state.executionId run.state.workflowId).exec w.proc).2 })
    hobj _ fun w₁ hdb₁ hobj₁ => ?_
  refine wp_modifyObject hobj₁ _ fun w₂ hdb₂ hobj₂ => ?_
  obtain ⟨e₂, hobj₂, hid₂, hcount₂, hpolicy₂⟩ : ∃ e₂, ObjectIs w₂ run.ref e₂ ∧ e₂.id = x ∧
      e₂.metadata.persistentCycle.consecutiveFailures = k + 1 ∧
      e₂.metadata.persistentCyclePolicy = run.policy :=
    ⟨_, hobj₂, hid, congrArg (· + 1) hcount, hpolicy⟩
  refine (wp_object hobj₂ _).mpr ?_
  rw [hcount₂, RunContext.emit, Program.bind_assoc, wp_bind]
  have hdb : w₂.db = w.db := hdb₂.trans hdb₁
  refine wp_emit_of_row ?_ fun event w₃ hs => ?_
  · rw [hx, hdb, hrow]
    exact Option.some_ne_none row
  have hobj₃ : ObjectIs w₃ run.ref e₂ := by
    rw [ObjectIs, hs.objects]
    exact hobj₂
  have hwaits : w₃.db.waits = w.db.waits := by rw [hs.waits, hdb]
  have hcount' : k < e₂.metadata.persistentCycle.consecutiveFailures := by omega
  by_cases hlimit : run.policy.maxConsecutiveFailures ≤ k + 1
  · rw [if_pos hlimit]
    refine wp_pausePersistentCycleForGuard hx hobj₃ hid₂ fun w' e' hw' he' hstatus hcycle hq => ?_
    refine hguard hlimit w' (hw'.trans hwaits) ⟨e', he', hstatus, ?_, ?_⟩ ⟨e', he', ?_, ?_⟩
    · rw [hcycle]
      rfl
    · rw [hcycle]
      rfl
    · rw [hcycle]
      exact hcount'
    · rw [hq, hpolicy₂]
  rw [if_neg hlimit]
  split
  · refine wp_pausePersistentCycleForGuard hx hobj₃ hid₂ fun w' e' _ he' _ hcycle hq => ?_
    refine (hother hlimit w' ⟨e', he', ?_, ?_⟩).1
    · rw [hcycle]
      exact hcount'
    · rw [hq, hpolicy₂]
  · refine wp_mono (wp_schedulePersistentCycle hobj₃ hid₂ fun wakeAt => ?_)
      (fun _ w' h' => (hother hlimit w' h').1) fun exc w' h' => (hother hlimit w' h').2 exc
    exact ⟨hcount', hpolicy₂⟩

end Failure

end CycleFrame

end OpenAgency
