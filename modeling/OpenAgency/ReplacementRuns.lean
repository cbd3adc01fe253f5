/-
ReplacementRuns.lean

What replacing the active executions of a workflow does, over any sequence of
revisions.  Each step of a call has one rule; the rules compose to the chain of
`ReplacedAll`, in which every candidate is superseded by exactly one new execution and
no other execution changes.

A call passes over every execution that carries the reason it marks superseded
executions with.  Replacements carry that reason from the start, so a call is complete
exactly when none of them is still active and waiting to be superseded itself.

Calls run to their end one after the other; in between, anything may have happened to
the store.
-/
import OpenAgency.Replacement
import OpenAgency.StoreRules

namespace OpenAgency

open Relational Interaction Program List Table

variable {env : Environment} {denv : DockerEnvironment} {w w' : World}

/-! ### Identifiers that have not been drawn -/

/-- No row belongs to an identifier that is still to be drawn. -/
structure FreshExecutionIds (env : Environment) (w : World) : Prop where
  executions : ∀ n, w.uuidsDrawn ≤ n → w.db.executions.get (env.uuid n) = none
  waits : ∀ n, w.uuidsDrawn ≤ n → ∀ i row, w.db.waits.get i = some row →
    row.wait.executionId ≠ env.uuid n

/-! ### Creating the replacement -/

/-- The adapter the registry finds for an execution of that adapter's name. -/
def RegistryConfig.adapterFor (cfg : RegistryConfig) (workflow : WorkflowDefinition)
    (adapterId : String) : Except RuntimeException String :=
  cfg.resolveAdapterForWorkflow workflow (normalizedRuntimeAdapterId (some adapterId))

variable {E : RuntimeException → World → Prop} {e : Execution}

theorem wp_prepareExecution {adapter : String} {Q : Unit → World → Prop}
    (hQ : ∀ w', Stores e w' → OthersKept e.id w w' → Q () w') :
    (prepareExecution adapter e).wp (handler env) Q E w := by
  rw [prepareExecution, wp_ite]
  split
  · rw [wp_state]
    apply wp_save
    intro w₁ hrow hothers
    rw [wp_bind]
    apply wp_emit_sameStore
    · rw [ProcOp.executionId_setdefault]
      exact hrow.ne_none
    · intro event w' h
      apply wp_of_done
      exact hQ w' (hrow.of_sameRecords h.toSameRecords)
        ⟨fun i hi => by rw [h.executions, hothers.others i hi], h.waits.trans hothers.waits,
          hothers.drawn.trans h.drawn⟩
  · apply wp_save
    intro w₁ hrow hothers
    rw [wp_bind]
    apply wp_emitHeld hrow.ne_none
    intro st w' _ h
    apply wp_of_done
    exact hQ w' (hrow.of_sameRecords h.toSameRecords) (hothers.trans (.of_sameStore h))

variable {Q : Execution → World → Prop}

variable {cfg : RegistryConfig}

theorem wp_createExecution {workflow : WorkflowDefinition} {workflowId adapterId adapter : String}
    {goalId : Option String} {input : InputPayload} {trigger : Json}
    (hworkflow : cfg.engine.workflow workflowId = some workflow)
    (hadapter : cfg.adapterFor workflow adapterId = .ok adapter)
    (hQ : ∀ e w', e.id = env.uuid w.uuidsDrawn → e.workflowId = workflowId →
      e.status = .created → Stores e w' → OthersKept e.id w w' → w.uuidsDrawn < w'.uuidsDrawn →
      Q e w') :
    (createExecution cfg workflowId input trigger (some adapterId) goalId).wp (handler env) Q E
      w := by
  rw [RegistryConfig.adapterFor] at hadapter
  rw [createExecution, hworkflow]
  simp only [hadapter]
  show Program.wp _ _ _ (uuid4 >>= _) w
  rw [wp_uuid4, wp_utcNow, wp_bind]
  apply wp_prepareExecution
  intro w' hrow hothers
  apply wp_of_done
  have hdrawn : w.uuidsDrawn < w'.uuidsDrawn := Nat.lt_of_succ_le hothers.drawn
  exact hQ _ w' rfl rfl rfl hrow ⟨hothers.others, hothers.waits, hdrawn.le⟩ hdrawn

/-! ### Queueing the replacement -/

/-- No wait belongs to `x`. -/
def NoWaits (x : Uuid) (w : World) : Prop :=
  ∀ i row, w.db.waits.get i = some row → row.wait.executionId ≠ x

theorem wp_rejectUnresolvedWait_of_noWaits {x : Uuid} {Q : Unit → World → Prop}
    (hwaits : NoWaits x w) (hQ : Q () w) :
    (rejectUnresolvedWait x).wp (handler env) Q E w := by
  have hselect : (WaitQuery.ofExecution x (some .pending)).select w.db.waits = [] := by
    apply List.eq_nil_iff_forall_not_mem.mpr
    intro row hrow
    obtain ⟨hget, hx, -⟩ := WaitQuery.mem_select_ofExecution.mp hrow
    exact hwaits row.id row hget hx
  rw [rejectUnresolvedWait, wp_bind, listPendingWaits, selectExecutionWaits, wp_query]
  simp only [DbOp.exec, hselect]
  exact (wp_ofExcept_ok _ _).mpr (wp_of_done hQ)

variable {r : Execution}

theorem wp_queueStart_new (hrow : Stores r w) (hlive : r.status.isTerminal = false)
    (hwaits : NoWaits r.id w)
    (hQ : ∀ e w', Stores { r with status := .queued } w' → OthersKept r.id w w' → Q e w') :
    (queueStart r.id).wp (handler env) Q E w := by
  rw [queueStart, wp_getExecution, hrow]
  show Program.wp _ _ _ (Program.ofExcept (rejectTerminalExecutionReplay r) >>= _) w
  rw [rejectTerminalExecutionReplay, if_neg (by simp [hlive])]
  show Program.wp _ _ _ (rejectUnresolvedWait r.id >>= _) w
  rw [wp_bind]
  apply wp_rejectUnresolvedWait_of_noWaits hwaits
  apply wp_save
  intro w' hqueued hothers
  rw [wp_process]
  apply wp_of_done
  exact hQ _ _ hqueued ⟨hothers.others, hothers.waits, hothers.drawn⟩

/-- The execution `r` was created to replace `x`. -/
structure IsReplacement (r : Execution) (x : Uuid) : Prop where
  replaces : r.replacementOfExecutionId = some x
  reason : r.restartReason = some workflowRevisionSuperseded

variable {preservation : Option PartialResultPreservation}

theorem wp_startReplacement {e r : Execution} {Q : Unit → World → Prop}
    (hlive : r.status = .created) (hwaits : NoWaits r.id w)
    (hQ : ∀ r' w', r'.id = r.id → r'.workflowId = r.workflowId → IsReplacement r' e.id →
      Stores r' w' → OthersKept r.id w w' → Q () w') :
    (startReplacement e preservation r).wp (handler env) Q E w := by
  have hterminal : (r.replacing e preservation).status.isTerminal = false := by
    show r.status.isTerminal = false
    rw [hlive]
    rfl
  rw [startReplacement]
  apply wp_save
  intro w₁ hrow hothers
  rw [wp_bind]
  apply wp_queueStart_new (r := r.replacing e preservation) hrow hterminal
  · intro i row hi
    rw [hothers.waits] at hi
    exact hwaits i row hi
  · intro queued w' hqueued hothers'
    apply wp_of_done
    apply hQ { r.replacing e preservation with status := .queued } w' rfl rfl ⟨rfl, rfl⟩ hqueued
    exact hothers.trans hothers'

/-! ### Cancelling the replaced execution -/

/-- An execution is on its way out. -/
def ExecutionStatus.IsCancelled (s : ExecutionStatus) : Prop := s = .cancelling ∨ s = .cancelled

section Cancel

variable {e : Execution} {E : RuntimeException → World → Prop}

theorem wp_cancelExecution_active (hrow : Stores e w) (hactive : e.status.isActive)
    (hQ : ∀ e' w', e'.id = e.id → e'.containerId = e.containerId → e'.status.IsCancelled →
      Stores e' w' → OthersKept e.id w w' → Q e' w') :
    (cancelExecution e.id).wp (handler env) Q E w := by
  apply wp_of_drawn
  rw [cancelExecution, wp_bind]
  apply wp_requireExecutionAndState hrow
  intro st w₁ hst h₁
  have hkept : ∀ w₂ : World, OthersKept e.id w₁ w₂ → w.uuidsDrawn ≤ w₂.uuidsDrawn →
      OthersKept e.id w w₂ := fun w₂ h hd =>
    ⟨fun i hi => by rw [h.others i hi, h₁.executions], h.waits.trans h₁.waits, hd⟩
  -- the cancellation of an execution that no worker runs
  have himmediate : ∀ c : Execution, c.id = e.id → c.containerId = e.containerId →
      c.status = .cancelled → ∀ w₂ : World, OthersKept e.id w₁ w₂ →
      (updateExecution c >>= fun _ => emit st .executionCancelled >>= fun _ => pure c).wp
        (handler env) (fun a w' => w.uuidsDrawn ≤ w'.uuidsDrawn → Q a w')
        (fun exc w' => w.uuidsDrawn ≤ w'.uuidsDrawn → E exc w') w₂ := by
    intro c hid hcontainer hstatus w₂ h₂
    apply wp_save
    intro w₃ hc h₃
    rw [hid] at h₃
    rw [wp_bind]
    apply wp_emit_sameStore
    · rw [hst, ← hid]
      exact hc.ne_none
    · intro event w' h
      apply wp_of_done
      intro hd
      apply hQ c w' hid hcontainer (.inr hstatus) (hc.of_sameRecords h.toSameRecords)
      exact hkept w' ((h₂.trans h₃).trans (.of_sameStore h)) hd
  rcases hs : e.status with _ | _ | _ | _ | _ | _ | _ | _ | _ | _ | _ | _ <;>
    simp only [hs, ExecutionStatus.isActive, Bool.false_eq_true] at hactive ⊢
  case running =>
    rw [wp_process, wp_utcNow]
    apply wp_save
    intro w₂ hc h₂
    apply wp_of_done
    intro hd
    exact hQ _ w₂ rfl rfl (.inl rfl) hc (hkept w₂ ⟨h₂.others, h₂.waits, h₂.drawn⟩ hd)
  all_goals
    rw [wp_process, wp_utcNow, wp_utcNow]
    apply himmediate
    · rfl
    · rfl
    · rfl
    · exact ⟨fun _ _ => rfl, rfl, le_rfl⟩

/-- The registry cancels an active execution, or raises before anything has changed. -/
theorem wp_registryCancelExecution (hrow : Stores e w) (hactive : e.status.isActive)
    (hQ : ∀ e' w', e'.id = e.id → e'.containerId = e.containerId → e'.status.IsCancelled →
      Stores e' w' → OthersKept e.id w w' → Q e' w') (hE : ∀ exc, E exc w) :
    (registryCancelExecution e.id).wp (handler env) Q E w := by
  rw [registryCancelExecution, wp_getExecution, hrow]
  show Program.wp _ _ _ (if e.runtimeAdapterId = "native" then _ else _) w
  rw [wp_ite]
  split
  · exact wp_cancelExecution_active hrow hactive hQ
  · rw [wp_ite]
    split
    · exact wp_of_raise (hE _)
    · exact wp_of_raise (hE _)

theorem id_preserve (e : Execution) (p : Option PartialResultPreservation) :
    (e.preserve p).id = e.id := by
  cases p <;> rfl

theorem containerId_preserve (e : Execution) (p : Option PartialResultPreservation) :
    (e.preserve p).containerId = e.containerId := by
  cases p <;> rfl

theorem status_preserve (e : Execution) (p : Option PartialResultPreservation) :
    (e.preserve p).status = e.status := by
  cases p <;> rfl

/-- One way or the other, the execution is cancelled. -/
theorem wp_cancelOutdated {marked : Execution} {st : NativeExecutionState}
    {Q : Execution × NativeExecutionState → World → Prop} (hrow : Stores e w)
    (hactive : e.status.isActive) (hid : marked.id = e.id)
    (hcontainer : marked.containerId = e.containerId) (hst : st.executionId = e.id)
    (hQ : ∀ e' st' w', e'.id = e.id → e'.containerId = e.containerId → e'.status.IsCancelled →
      st'.executionId = e.id → Stores e' w' → OthersKept e.id w w' → Q (e', st') w') :
    (cancelOutdated marked st preservation).wp (handler env) Q E w := by
  rw [cancelOutdated, wp_bind, wp_attempt, hid]
  apply wp_registryCancelExecution hrow hactive
  · intro e' w₁ hid' hcontainer' hcancelled hstored hothers
    rcases preservation with - | p
    · apply wp_of_done
      exact hQ e' st w₁ hid' hcontainer' hcancelled hst hstored hothers
    · show Program.wp _ _ _ (updateExecution (e'.preserve (some p)) >>= _) w₁
      apply wp_save
      intro w₂ hstored₂ hothers₂
      apply wp_of_done
      rw [id_preserve, hid'] at hothers₂
      apply hQ (e'.preserve (some p)) st w₂
      · rw [id_preserve, hid']
      · rw [containerId_preserve, hcontainer']
      · rw [status_preserve]
        exact hcancelled
      · exact hst
      · exact hstored₂
      · exact hothers.trans hothers₂
  · intro exc
    show Program.wp _ _ _ (orUtcNow marked.completedAt >>= _) w
    apply wp_orUtcNow
    intro now w₁ h₁
    apply wp_save
    intro w₂ hstored hothers
    have hid₂ : (marked.preserve preservation).id = e.id := (id_preserve _ _).trans hid
    rw [wp_bind]
    apply wp_emitHeld
    · rw [hst, ← hid₂]
      exact hstored.ne_none
    · intro st' w' hst' h'
      apply wp_of_done
      apply hQ { marked.preserve preservation with
        status := .cancelled
        completedAt := some now } st' w' hid₂
      · exact (containerId_preserve _ _).trans hcontainer
      · exact .inr rfl
      · exact hst'.trans hst
      · exact hstored.of_sameRecords h'.toSameRecords
      · have hothers' : OthersKept e.id w₁ w₂ := hid₂ ▸ hothers
        exact ((OthersKept.of_sameStore h₁).trans hothers').trans (.of_sameStore h')

end Cancel

/-! ### Replacing one execution -/

/-- The execution `x` is cancelled, or about to be, because it was superseded. -/
def Superseded (x : Uuid) (w : World) : Prop :=
  ∃ e, w.db.executions.get x = some e ∧ e.restartReason = some workflowRevisionSuperseded ∧
    e.status.IsCancelled

theorem Stores.superseded {x : Uuid} (h : Stores e w) (hid : e.id = x)
    (hreason : e.restartReason = some workflowRevisionSuperseded)
    (hcancelled : e.status.IsCancelled) : Superseded x w :=
  ⟨e, hid ▸ h, hreason, hcancelled⟩

theorem wp_finalCompletedAt {Q : Option Time → World → Prop}
    (hQ : ∀ t w', SameStore w w' → Q t w') :
    (finalCompletedAt e).wp (handler env) Q E w := by
  rw [finalCompletedAt, wp_ite]
  split
  · apply wp_orUtcNow
    intro now w' h
    exact wp_of_done (hQ _ w' h)
  · exact wp_of_done (hQ _ w (sameStore_of_db rfl le_rfl))

variable {st : NativeExecutionState}

theorem wp_emitFinalCancellation {Q : NativeExecutionState → World → Prop}
    (hrow : w.db.executions.get st.executionId ≠ none)
    (hQ : ∀ st' w', st'.executionId = st.executionId → SameStore w w' → Q st' w') :
    (emitFinalCancellation e st).wp (handler env) Q E w := by
  rw [emitFinalCancellation, wp_ite]
  split
  · exact wp_emitHeld hrow hQ
  · exact wp_of_done (hQ st w rfl (sameStore_of_db rfl le_rfl))

theorem wp_finishReplaced {container : RuntimeContainerState} {Q : Unit → World → Prop}
    (hst : st.executionId = e.id) (hreason : e.restartReason = some workflowRevisionSuperseded)
    (hcancelled : e.status.IsCancelled)
    (hQ : ∀ w', Superseded e.id w' → OthersKept e.id w w' → Q () w') :
    (finishReplaced e container st).wp (handler env) Q E w := by
  have hfinal : ExecutionStatus.IsCancelled
      (if e.status = .cancelling then .cancelled else e.status) := by
    split
    · exact .inr rfl
    · exact hcancelled
  rw [finishReplaced, wp_bind]
  apply wp_finalCompletedAt
  intro completedAt w₁ h₁
  apply wp_orUtcNow
  intro endedAt w₂ h₂
  apply wp_save
  intro w₃ hstored h₃
  have hrow : ∀ w' : World, SameStore w₃ w' → w'.db.executions.get e.id ≠ none := fun w' h' =>
    (hstored.of_sameRecords h'.toSameRecords).ne_none
  rw [wp_bind]
  apply wp_emitFinalCancellation
  · rw [hst]
    exact hrow w₃ (sameStore_of_db rfl le_rfl)
  · intro st' w₄ hst' h₄
    rw [wp_bind]
    apply wp_emitHeld
    · rw [hst', hst]
      exact hrow w₄ h₄
    · intro st'' w' _ h'
      apply wp_of_done
      have hend : SameStore w₃ w' := h₄.trans h'
      apply hQ
      · exact (hstored.of_sameRecords hend.toSameRecords).superseded rfl hreason hfinal
      · exact ((OthersKept.of_sameStore (h₁.trans h₂)).trans h₃).trans (.of_sameStore hend)

variable {d : Docker}

variable {Q : RuntimeContainerState → Host → Prop}

theorem wp_stopIfLive {i : String} {c : RuntimeContainerState} {E : RuntimeException → Host → Prop}
    (hfind : d.find i = some c) (hok : denv.fails d.commands = false)
    (hQ : ∀ c' d', d'.find i = some c' → DockerOp.needsForce c' = false → d.Kept (· = i) 1 d' →
      Q c' (w, d')) :
    (stopIfLive i c).wp (hostHandler env denv) Q E (w, d) := by
  rw [stopIfLive, wp_ite]
  split
  · apply wp_stopContainer hfind hok
    intro d' hcommands hfind' hothers
    exact hQ _ d' hfind' (DockerOp.needsForce_stopped _ c) ⟨hothers, by omega, by omega⟩
  next hlive =>
    apply wp_of_done
    apply hQ c d hfind (DockerOp.needsForce_of_not_isLive (by simpa using hlive))
    exact ⟨fun _ _ => rfl, le_rfl, Nat.le_succ _⟩

theorem wp_stopAndRemove {i : String} {c : RuntimeContainerState}
    {E : RuntimeException → Host → Prop} (hfind : d.find i = some c) (hok : d.Answers denv 3)
    (hQ : ∀ container d', d.Kept (· = i) 3 d' → Q container (w, d')) :
    (stopAndRemove i).wp (hostHandler env denv) Q E (w, d) := by
  rw [stopAndRemove, wp_bind]
  apply wp_inspectContainer hfind (hok _ le_rfl (by omega))
  rw [wp_bind]
  apply wp_stopIfLive (d := d.tick) hfind (hok _ (Nat.le_succ _) (by simp))
  intro c' d₁ hfind₁ hforce h₁
  have hlower : d.commands + 1 ≤ d₁.commands := h₁.commands
  have hupper : d₁.commands ≤ d.commands + 1 + 1 := h₁.bound
  rw [wp_bind]
  apply wp_removeContainer hfind₁ (hok _ (by omega) (by omega)) hforce
  intro d' hcommands hothers
  apply wp_of_done
  apply hQ
  refine ⟨fun j hj => ?_, by omega, by omega⟩
  rw [hothers j hj, h₁.find j hj, Docker.find_tick]

theorem wp_orSnapshot {reason : String} {p : Option PartialResultPreservation}
    {Q : Option PartialResultPreservation → World → Prop} (hQ : ∀ p w', SameStore w w' → Q p w') :
    (orSnapshot e reason p).wp (handler env) Q E w := by
  rcases p with - | p
  · exact wp_snapshot hQ
  · exact wp_of_done (hQ _ w (sameStore_of_db rfl le_rfl))

/-- The end of a replacement, if the daemon knows the container and answers. -/
theorem wp_recordReplaced {Q : Unit → Host → Prop} {E : RuntimeException → Host → Prop}
    (hst : st.executionId = e.id) (hreason : e.restartReason = some workflowRevisionSuperseded)
    (hcancelled : e.status.IsCancelled) (hcontainer : ∀ i, e.container = some i → d.find i ≠ none)
    (hok : d.Answers denv 3)
    (hQ : ∀ w' d', Superseded e.id w' → OthersKept e.id w w' →
      d.Kept (e.container = some ·) 3 d' → Q () (w', d')) :
    (recordReplaced e st).wp (hostHandler env denv) Q E (w, d) := by
  rw [recordReplaced]
  rcases hc : e.container with - | i
  · apply wp_lift
    rw [← bind_done (updateExecution e)]
    apply wp_save
    intro w' hstored hothers
    apply wp_of_done
    apply hQ w' d (hstored.superseded rfl hreason hcancelled) hothers
    exact ⟨fun _ _ => rfl, le_rfl, Nat.le_add_right _ _⟩
  · obtain ⟨c, hfind⟩ := Option.ne_none_iff_exists'.mp (hcontainer i hc)
    show Program.wp _ _ _ (stopAndRemove i >>= _) _
    rw [wp_bind]
    apply wp_stopAndRemove hfind hok
    intro container d' hd'
    apply wp_lift
    apply wp_finishReplaced hst hreason hcancelled
    intro w' hsuperseded hothers
    apply hQ w' d' hsuperseded hothers
    refine ⟨fun j hj => hd'.find j ?_, hd'.commands, hd'.bound⟩
    rintro rfl
    exact hj hc

/-- **An active execution is superseded**, if the daemon knows its container and answers. -/
theorem wp_replaceOutdatedExecution {Q : Unit → Host → Prop} {E : RuntimeException → Host → Prop}
    (hrow : Stores e w) (hactive : e.status.isActive)
    (hcontainer : ∀ i, e.container = some i → d.find i ≠ none) (hok : d.Answers denv 3)
    (hQ : ∀ w' d', Superseded e.id w' → OthersKept e.id w w' →
      d.Kept (e.container = some ·) 3 d' → Q () (w', d')) :
    (replaceOutdatedExecution e workflowRevisionSuperseded preservation).wp
      (hostHandler env denv) Q E (w, d) := by
  rw [replaceOutdatedExecution]
  apply wp_lift_bind
  apply wp_eventStateFor
  intro st hst
  apply wp_lift_bind
  apply wp_orSnapshot
  intro p w₁ h₁
  apply wp_lift_bind
  apply wp_cancelOutdated (hrow.of_sameRecords h₁.toSameRecords) hactive
  · exact id_preserve _ p
  · exact containerId_preserve _ p
  · exact hst
  · intro e' st' w₂ hid hcontainer' hcancelled hst' hstored h₂
    have hsame : (e'.marked workflowRevisionSuperseded).container = e.container := by
      show e'.containerId.filter (· ≠ "") = e.containerId.filter (· ≠ "")
      rw [hcontainer']
    show Program.wp _ _ _ (recordReplaced (e'.marked workflowRevisionSuperseded) st') _
    apply wp_recordReplaced (e := e'.marked workflowRevisionSuperseded)
    · exact hst'.trans hid.symm
    · rfl
    · exact hcancelled
    · rw [hsame]
      exact hcontainer
    · exact hok
    · rw [hsame]
      intro w' d' hsuperseded h₃ hd'
      have hid' : (e'.marked workflowRevisionSuperseded).id = e.id := hid
      rw [hid'] at hsuperseded h₃
      exact hQ w' d' hsuperseded (((OthersKept.of_sameStore h₁).trans h₂).trans h₃) hd'

/-! ### One candidate -/

/-- What replacing `c` does to the executions: a row `y` that was not there replaces it,
`c` is superseded, and every other row is as it was. -/
structure Replaced (c : Execution) (y : Uuid) (w w' : World) : Prop where
  new : w.db.executions.get y = none
  replacement : ∃ r, w'.db.executions.get y = some r ∧ r.workflowId = c.workflowId ∧
    IsReplacement r c.id
  superseded : Superseded c.id w'
  others : ∀ i, i ≠ y → i ≠ c.id → w'.db.executions.get i = w.db.executions.get i

namespace Replaced

variable {c : Execution} {y : Uuid}

theorem kept (h : Replaced c y w w') (he : Stores e w) (hid : e.id ≠ c.id) :
    Stores e w' := by
  show w'.db.executions.get e.id = some e
  rw [h.others e.id _ hid, he]
  intro heq
  have hnew := h.new
  rw [← heq, he] at hnew
  cases hnew

/-- Where nothing was, nothing is but the new row. -/
theorem none (h : Replaced c y w w') (hc : Stores c w) {i : Uuid}
    (hi : w.db.executions.get i = .none) (hne : i ≠ y) : w'.db.executions.get i = .none := by
  rw [h.others i hne, hi]
  rintro rfl
  rw [hc] at hi
  cases hi

/-- No row disappears. -/
theorem none_before (h : Replaced c y w w') {i : Uuid} (hi : w'.db.executions.get i = .none) :
    w.db.executions.get i = .none := by
  by_cases hy : i = y
  · rw [hy]
    exact h.new
  · rw [← h.others i hy, hi]
    rintro rfl
    obtain ⟨e, he, -⟩ := h.superseded
    rw [he] at hi
    cases hi

end Replaced

/-- The registry can create a replacement of `c`. -/
def RegistryConfig.Accepts (cfg : RegistryConfig) (c : Execution) : Prop :=
  ∃ workflow adapter, cfg.engine.workflow c.workflowId = some workflow ∧
    cfg.adapterFor workflow c.runtimeAdapterId = .ok adapter

variable {c : Execution}

theorem FreshExecutionIds.of_replaced {n : ℕ} (h : FreshExecutionIds env w) (hc : Stores c w)
    (hn : n = w.uuidsDrawn) (hr : Replaced c (env.uuid n) w w') (hwaits : w'.db.waits = w.db.waits)
    (hd : n < w'.uuidsDrawn) :
    FreshExecutionIds env w' := by
  subst hn
  constructor
  · intro k hk
    have hold : w.db.executions.get (env.uuid k) = none := h.executions k (by omega)
    rw [hr.others (env.uuid k) _ _, hold]
    · intro heq
      have := env.uuid_injective heq
      omega
    · intro heq
      rw [heq, hc] at hold
      cases hold
  · intro k hk i row hi
    rw [hwaits] at hi
    exact h.waits k (by omega) i row hi

theorem wp_replaceCandidate {change : RevisionChange} {Q : Uuid → Host → Prop}
    {E : RuntimeException → Host → Prop} (hfresh : FreshExecutionIds env w)
    (haccepts : cfg.Accepts c) (hrow : Stores c w) (hactive : c.status.isActive)
    (hcontainer : ∀ i, c.container = some i → d.find i ≠ none) (hok : d.Answers denv 3)
    (hQ : ∀ y w' d', Replaced c y w w' → FreshExecutionIds env w' →
      d.Kept (c.container = some ·) 3 d' → Q y (w', d')) :
    (replaceCandidate cfg change c).wp (hostHandler env denv) Q E (w, d) := by
  obtain ⟨workflow, adapter, hworkflow, hadapter⟩ := haccepts
  rw [replaceCandidate]
  apply wp_lift_bind
  apply wp_createExecution hworkflow hadapter
  intro r w₁ hid hworkflowId hcreated hstored h₁ hdrawn
  have hnew : w.db.executions.get r.id = none := by
    rw [hid]
    exact hfresh.executions _ le_rfl
  have hne : c.id ≠ r.id := by
    intro heq
    rw [← heq, hrow] at hnew
    cases hnew
  apply wp_lift_bind
  apply wp_snapshot
  intro p w₂ h₂
  have hwaits : NoWaits r.id w₂ := by
    intro i row hi
    rw [h₂.waits, h₁.waits] at hi
    rw [hid]
    exact hfresh.waits _ le_rfl i row hi
  apply wp_lift_bind
  apply wp_startReplacement (e := c) hcreated hwaits
  intro r' w₃ hid' hworkflow' hreplaces hstored' h₃
  have h₁₃ : OthersKept r.id w w₃ := (h₁.trans (.of_sameStore h₂)).trans h₃
  have hrow₃ : Stores c w₃ := (h₁₃.others c.id hne).trans hrow
  rw [wp_bind]
  apply wp_replaceOutdatedExecution hrow₃ hactive hcontainer hok
  intro w' d' hsuperseded h₄ hd'
  apply wp_of_done
  have hreplaced : Replaced c r.id w w' := by
    refine ⟨hnew, ⟨r', ?_, hworkflow'.trans hworkflowId, hreplaces⟩, hsuperseded, ?_⟩
    · rw [h₄.others r.id hne.symm, ← hid']
      exact hstored'
    · intro i hi hi'
      rw [h₄.others i hi', h₁₃.others i hi]
  apply hQ r.id w' d' hreplaced _ hd'
  have hreplaced' : Replaced c (env.uuid w.uuidsDrawn) w w' := hid ▸ hreplaced
  apply hfresh.of_replaced hrow rfl hreplaced'
  · exact h₄.waits.trans h₁₃.waits
  · exact lt_of_lt_of_le hdrawn (((h₂.drawn.trans h₃.drawn)).trans h₄.drawn)

/-! ### All candidates -/

/-- The candidates are replaced one after the other. -/
inductive ReplacedAll : List Execution → World → World → Prop
  | nil (w : World) : ReplacedAll [] w w
  | cons {c : Execution} {rest : List Execution} {y : Uuid} {w₁ w₂ w₃ : World} :
      Replaced c y w₁ w₂ → ReplacedAll rest w₂ w₃ → ReplacedAll (c :: rest) w₁ w₃

/-- The daemon knows the containers of all candidates, and no two share one. -/
structure ContainersKnown (d : Docker) (cs : List Execution) : Prop where
  known : ∀ c ∈ cs, ∀ i, c.container = some i → d.find i ≠ none
  distinct : cs.Pairwise fun c c' => ∀ i, c.container = some i → c'.container ≠ some i

theorem wp_replaceCandidates {change : RevisionChange} {cs : List Execution}
    {Q : List Uuid → Host → Prop} {E : RuntimeException → Host → Prop}
    (hfresh : FreshExecutionIds env w) (haccepts : ∀ c ∈ cs, cfg.Accepts c)
    (hrows : ∀ c ∈ cs, Stores c w ∧ c.status.isActive) (hids : cs.Pairwise (·.id ≠ ·.id))
    (hcontainers : ContainersKnown d cs) (hok : d.Answers denv (3 * cs.length))
    (hQ : ∀ ys w' d', ReplacedAll cs w w' → FreshExecutionIds env w' → Q ys (w', d')) :
    (replaceCandidates cfg change cs).wp (hostHandler env denv) Q E (w, d) := by
  induction cs generalizing w d Q with
  | nil => exact wp_of_done (hQ [] w d (.nil w) hfresh)
  | cons c rest ih =>
    obtain ⟨hrow, hactive⟩ := hrows c mem_cons_self
    obtain ⟨hid, hids⟩ := List.pairwise_cons.mp hids
    obtain ⟨hdistinct, hpairs⟩ := List.pairwise_cons.mp hcontainers.distinct
    rw [length_cons] at hok
    rw [replaceCandidates, wp_bind]
    apply wp_replaceCandidate hfresh (haccepts c mem_cons_self) hrow hactive
    · exact hcontainers.known c mem_cons_self
    · exact fun k hk hk' => hok k hk (by omega)
    · intro y w₁ d₁ hreplaced hfresh₁ hd₁
      have hlower := hd₁.commands
      have hupper := hd₁.bound
      rw [wp_bind]
      apply ih hfresh₁
      · exact fun c' hc' => haccepts c' (mem_cons_of_mem _ hc')
      · intro c' hc'
        obtain ⟨hrow', hactive'⟩ := hrows c' (mem_cons_of_mem _ hc')
        exact ⟨hreplaced.kept hrow' (hid c' hc').symm, hactive'⟩
      · exact hids
      · refine ⟨fun c' hc' i hi => ?_, hpairs⟩
        rw [hd₁.find i fun hc => hdistinct c' hc' i hc hi]
        exact hcontainers.known c' (mem_cons_of_mem _ hc') i hi
      · exact fun k hk hk' => hok k (by omega) (by omega)
      · intro ys w' d' hall hfresh'
        apply wp_of_done
        exact hQ (y :: ys) w' d' (.cons hreplaced hall) hfresh'

namespace ReplacedAll

variable {cs : List Execution}

/-- A row that was there and is no candidate's is as it was. -/
theorem others (h : ReplacedAll cs w w') {i : Uuid} (hi : w.db.executions.get i ≠ none)
    (hcs : ∀ c ∈ cs, i ≠ c.id) : w'.db.executions.get i = w.db.executions.get i := by
  induction h with
  | nil w => rfl
  | @cons c rest y w₁ w₂ w₃ hfirst _ ih =>
    have hstep : w₂.db.executions.get i = w₁.db.executions.get i := by
      apply hfirst.others i
      · rintro rfl
        exact hi hfirst.new
      · exact hcs c mem_cons_self
    rw [ih (hstep ▸ hi) fun c' hc' => hcs c' (mem_cons_of_mem _ hc'), hstep]

/-- The row a first candidate got is left alone by the others. -/
theorem others_new {rest : List Execution} {y : Uuid} {w₁ w₂ w₃ : World}
    (hfirst : Replaced c y w₁ w₂) (hrest : ReplacedAll rest w₂ w₃)
    (hrows : ∀ c' ∈ rest, Stores c' w₁) :
    w₃.db.executions.get y = w₂.db.executions.get y := by
  apply hrest.others
  · obtain ⟨r, hr, -⟩ := hfirst.replacement
    rw [hr]
    exact Option.some_ne_none r
  · intro c' hc' heq
    have hnew := hfirst.new
    rw [heq, hrows c' hc'] at hnew
    cases hnew

/-- A row that was not there replaces a candidate of the same workflow. -/
theorem new (h : ReplacedAll cs w w') (hrows : ∀ c ∈ cs, Stores c w)
    (hids : cs.Pairwise (·.id ≠ ·.id)) {y : Uuid} (hy : w.db.executions.get y = none)
    (hr : w'.db.executions.get y = some r) :
    ∃ c ∈ cs, r.workflowId = c.workflowId ∧ IsReplacement r c.id := by
  induction h with
  | nil w =>
    rw [hy] at hr
    cases hr
  | @cons c rest z w₁ w₂ w₃ hfirst hrest ih =>
    obtain ⟨hid, hids⟩ := List.pairwise_cons.mp hids
    obtain ⟨hrow, hrows⟩ := List.forall_mem_cons.mp hrows
    by_cases hyz : y = z
    · subst hyz
      obtain ⟨r', hr', hworkflow, hreplaces⟩ := hfirst.replacement
      rw [others_new hfirst hrest hrows, hr'] at hr
      obtain rfl : r' = r := Option.some.inj hr
      exact ⟨c, mem_cons_self, hworkflow, hreplaces⟩
    · have hkept : ∀ c' ∈ rest, Stores c' w₂ := fun c' hc' =>
        hfirst.kept (hrows c' hc') (hid c' hc').symm
      obtain ⟨c', hc', hreplaces⟩ := ih hkept hids (hfirst.none hrow hy hyz) hr
      exact ⟨c', mem_cons_of_mem _ hc', hreplaces⟩

end ReplacedAll

/-- The row `y` is new, and replaces `x`. -/
def NewReplacement (x : Uuid) (w w' : World) (y : Uuid) : Prop :=
  w.db.executions.get y = none ∧ ∃ r, w'.db.executions.get y = some r ∧ IsReplacement r x

/-- `e` is superseded by exactly one new execution, of the same workflow. -/
structure SupersededOnce (e : Execution) (w w' : World) : Prop where
  superseded : Superseded e.id w'
  once : ∃! y, NewReplacement e.id w w' y
  workflow : ∀ y r, w.db.executions.get y = none → w'.db.executions.get y = some r →
    IsReplacement r e.id → r.workflowId = e.workflowId

theorem IsReplacement.unique {x y : Uuid} (h : IsReplacement r x) (h' : IsReplacement r y) :
    x = y :=
  Option.some.inj (h.replaces.symm.trans h'.replaces)

/-- **Every candidate is superseded exactly once.** -/
theorem ReplacedAll.supersededOnce {cs : List Execution} (h : ReplacedAll cs w w')
    (hrows : ∀ c ∈ cs, Stores c w) (hids : cs.Pairwise (·.id ≠ ·.id)) (he : e ∈ cs) :
    SupersededOnce e w w' := by
  have hworkflow : ∀ y r, w.db.executions.get y = none → w'.db.executions.get y = some r →
      IsReplacement r e.id → r.workflowId = e.workflowId := by
    intro y r hy hr hreplaces
    obtain ⟨c, hc, hsame, hreplaces'⟩ := h.new hrows hids hy hr
    have hid : e.id = c.id := hreplaces.unique hreplaces'
    have hrow : w.db.executions.get e.id = some c := hid ▸ hrows c hc
    obtain rfl : e = c := Option.some.inj ((hrows e he).symm.trans hrow)
    exact hsame
  suffices hboth : Superseded e.id w' ∧ ∃! y, NewReplacement e.id w w' y from
    ⟨hboth.1, hboth.2, hworkflow⟩
  clear hworkflow
  induction h with
  | nil w => cases he
  | @cons c rest z w₁ w₂ w₃ hfirst hrest ih =>
    obtain ⟨hid, hpairs⟩ := List.pairwise_cons.mp hids
    obtain ⟨hrow, hrows⟩ := List.forall_mem_cons.mp hrows
    have hkept : ∀ c' ∈ rest, Stores c' w₂ := fun c' hc' =>
      hfirst.kept (hrows c' hc') (hid c' hc').symm
    obtain ⟨r, hr, -, hreplaces⟩ := hfirst.replacement
    rw [← others_new hfirst hrest hrows] at hr
    rcases List.mem_cons.mp he with rfl | he
    · constructor
      · obtain ⟨e', he', hsuperseded⟩ := hfirst.superseded
        refine ⟨e', ?_, hsuperseded⟩
        rw [hrest.others, he']
        · rw [he']
          exact Option.some_ne_none e'
        · exact hid
      · refine ⟨z, ⟨hfirst.new, r, hr, hreplaces⟩, ?_⟩
        rintro y ⟨hy, r', hr', hreplaces'⟩
        -- a second new row would replace one of the other candidates
        by_contra hyz
        obtain ⟨c', hc', -, hother⟩ :=
          hrest.new hkept hpairs (hfirst.none hrow hy hyz) hr'
        exact hid c' hc' (hreplaces'.unique hother)
    · obtain ⟨hsuperseded, y, ⟨hy, hyr⟩, hunique⟩ := ih hkept hpairs he
      refine ⟨hsuperseded, y, ⟨hfirst.none_before hy, hyr⟩, ?_⟩
      rintro y' ⟨hy', r', hr', hreplaces'⟩
      apply hunique y'
      refine ⟨hfirst.none hrow hy' ?_, r', hr', hreplaces'⟩
      rintro rfl
      obtain rfl : r = r' := Option.some.inj (hr.symm.trans hr')
      exact hid e he (hreplaces.unique hreplaces')

/-! ### Calls -/

/-- The executions a call takes up, in its order. -/
def RevisionChange.candidates (change : RevisionChange) (db : Database) : List Execution :=
  (db.executions.selectOrdered (fun e => e.status.isActive) Execution.newestFirst).filter
    change.selects

theorem mem_candidates {change : RevisionChange} :
    c ∈ change.candidates w.db ↔ Stores c w ∧ c.workflowId = change.workflowId ∧
      c.status.isActive ∧ c.restartReason ≠ some workflowRevisionSuperseded := by
  rw [RevisionChange.candidates, mem_filter, mem_selectOrdered]
  simp only [RevisionChange.selects, Bool.and_eq_true, decide_eq_true_eq, Stores]
  tauto

theorem pairwise_candidates (change : RevisionChange) (db : Database) :
    (change.candidates db).Pairwise (·.id ≠ ·.id) := by
  have hnodup := db.executions.nodup_keys_selectOrdered (fun e => e.status.isActive)
    Execution.newestFirst
  exact (List.pairwise_map.mp hnodup).filter _

/-- The execution `x` is being replaced: an execution that was created to replace it is
stored. -/
def BeingReplaced (x : Uuid) (w : World) : Prop :=
  ∃ y r, w.db.executions.get y = some r ∧ IsReplacement r x

/-- An active execution of the workflow that is not being replaced. -/
structure Outdated (workflowId : String) (w : World) (e : Execution) : Prop where
  stored : Stores e w
  workflow : e.workflowId = workflowId
  active : e.status.isActive
  notReplaced : ¬ BeingReplaced e.id w

/-- One call, with the host before and after it and what it returned. -/
structure RevisionCall where
  cfg : RegistryConfig
  change : RevisionChange
  before : Host
  after : Host
  result : Except RuntimeException (List Uuid)

namespace RevisionCall

/-- Every outdated execution has been superseded by exactly one new execution. -/
def Complete (call : RevisionCall) : Prop :=
  ∀ e, Outdated call.change.workflowId call.before.1 e →
    SupersededOnce e call.before.1 call.after.1

/-- No outdated execution carries the reason with which replacements are created. -/
def Unmarked (call : RevisionCall) : Prop :=
  ∀ e, Outdated call.change.workflowId call.before.1 e →
    e.restartReason ≠ some workflowRevisionSuperseded

/-- Nothing outside keeps the call from its end: the registry can create every
replacement, and the daemon knows the containers and answers. -/
structure Answered (denv : DockerEnvironment) (call : RevisionCall) : Prop where
  accepts : ∀ c ∈ call.change.candidates call.before.1.db, call.cfg.Accepts c
  containers : ContainersKnown call.before.2 (call.change.candidates call.before.1.db)
  answers : call.before.2.Answers denv (3 * (call.change.candidates call.before.1.db).length)

end RevisionCall

/-- The call that `cfg` and `change` make on a host. -/
def makeCall (env : Environment) (denv : DockerEnvironment) (cfg : RegistryConfig)
    (change : RevisionChange) (h : Host) : RevisionCall where
  cfg := cfg
  change := change
  before := h
  after := ((replaceActiveExecutions cfg change).run (hostHandler env denv) h).2
  result := ((replaceActiveExecutions cfg change).run (hostHandler env denv) h).1

/-- Calls for successive revisions, with anything in between that takes no identifier
before it is drawn. -/
inductive RevisionRun (env : Environment) (denv : DockerEnvironment) (start : Host) :
    List RevisionCall → Host → Prop
  | start : RevisionRun env denv start [] start
  | call {calls : List RevisionCall} {h : Host} (cfg : RegistryConfig) (change : RevisionChange) :
      RevisionRun env denv start calls h →
        RevisionRun env denv start (calls ++ [makeCall env denv cfg change h])
          (makeCall env denv cfg change h).after
  | elsewhere {calls : List RevisionCall} {h h' : Host} :
      RevisionRun env denv start calls h → FreshExecutionIds env h'.1 →
        RevisionRun env denv start calls h'

section Calls

variable {cfg : RegistryConfig} {change : RevisionChange} {h : Host}

/-- A call that nothing keeps from its end replaces its candidates, and no one else. -/
theorem makeCall_spec (hfresh : FreshExecutionIds env h.1)
    (hanswered : (makeCall env denv cfg change h).Answered denv) :
    (∃ ids, (makeCall env denv cfg change h).result = .ok ids) ∧
      ReplacedAll (change.candidates h.1.db) h.1 (makeCall env denv cfg change h).after.1 ∧
      FreshExecutionIds env (makeCall env denv cfg change h).after.1 := by
  have hwp : (replaceActiveExecutions cfg change).wp (hostHandler env denv)
      (fun _ h' => ReplacedAll (change.candidates h.1.db) h.1 h'.1 ∧ FreshExecutionIds env h'.1)
      (fun _ _ => False) h := by
    rw [replaceActiveExecutions]
    apply wp_lift_query
    apply wp_replaceCandidates (w := h.1) hfresh hanswered.accepts
    · intro c hc
      obtain ⟨hstored, -, hactive, -⟩ := mem_candidates.mp hc
      exact ⟨hstored, hactive⟩
    · exact pairwise_candidates change h.1.db
    · exact hanswered.containers
    · exact hanswered.answers
    · exact fun _ _ _ hall hfresh' => ⟨hall, hfresh'⟩
  obtain ⟨hok, herror⟩ := (wp_iff_run _ _).mp hwp
  rcases hrun : (replaceActiveExecutions cfg change).run (hostHandler env denv) h with
    ⟨exc | ids, h'⟩
  · exact (herror exc h' hrun).elim
  · have hspec := hok ids h' hrun
    simp only [makeCall, hrun]
    exact ⟨⟨ids, rfl⟩, hspec⟩

/-- A call is complete exactly when no outdated execution carries the reason. -/
theorem makeCall_complete (hfresh : FreshExecutionIds env h.1)
    (hanswered : (makeCall env denv cfg change h).Answered denv) :
    (makeCall env denv cfg change h).Complete ↔ (makeCall env denv cfg change h).Unmarked := by
  obtain ⟨-, hall, -⟩ := makeCall_spec hfresh hanswered
  have hrows : ∀ c ∈ change.candidates h.1.db, Stores c h.1 := fun c hc =>
    (mem_candidates.mp hc).1
  have hids := pairwise_candidates change h.1.db
  constructor
  · intro hcomplete e he hmarked
    obtain ⟨y, ⟨hy, r, hr, hreplaces⟩, -⟩ := (hcomplete e he).once
    -- a new row replaces a candidate, and `e` is none
    obtain ⟨c, hc, -, hreplaces'⟩ := hall.new hrows hids hy hr
    have hrow : h.1.db.executions.get e.id = some c := hreplaces.unique hreplaces' ▸ hrows c hc
    obtain rfl : e = c := Option.some.inj (he.stored.symm.trans hrow)
    exact (mem_candidates.mp hc).2.2.2 hmarked
  · intro hunmarked e he
    apply hall.supersededOnce hrows hids
    exact mem_candidates.mpr ⟨he.stored, he.workflow, he.active, hunmarked e he⟩

end Calls

/-- **Revision replacement is complete** in a run of calls that nothing keeps from their
end, exactly at the calls that find no outdated execution marked. -/
theorem revisionReplacement_complete {start h : Host} {calls : List RevisionCall}
    (hfresh : FreshExecutionIds env start.1) (hrun : RevisionRun env denv start calls h)
    (hanswered : ∀ call ∈ calls, call.Answered denv) :
    ∀ call ∈ calls, (∃ ids, call.result = .ok ids) ∧ (call.Complete ↔ call.Unmarked) := by
  suffices hboth : FreshExecutionIds env h.1 ∧ ∀ call ∈ calls,
      (∃ ids, call.result = .ok ids) ∧ (call.Complete ↔ call.Unmarked) from hboth.2
  induction hrun with
  | start => exact ⟨hfresh, fun call hcall => nomatch hcall⟩
  | @call calls h cfg change _ ih =>
    obtain ⟨hfirst, hlast⟩ := List.forall_mem_append.mp hanswered
    obtain ⟨hfresh', hcalls⟩ := ih hfirst
    have hlast' := hlast _ mem_cons_self
    obtain ⟨hresult, -, hafter⟩ := makeCall_spec hfresh' hlast'
    refine ⟨hafter, List.forall_mem_append.mpr ⟨hcalls, fun call hcall => ?_⟩⟩
    rw [List.mem_singleton.mp hcall]
    exact ⟨hresult, makeCall_complete hfresh' hlast'⟩
  | elsewhere _ hfresh' ih => exact ⟨hfresh', (ih hanswered).2⟩

/-! ### Two revisions of one workflow -/

namespace TwoRevisions

def outdated : Execution := { id := 0, workflowId := "w", status := .running }

def world : World where
  db := { executions := empty.save outdated }
  uuidsDrawn := 1

def registry : RegistryConfig where
  engine := { EngineConfig.bare with
    workflow := fun _ => some { id := "w", name := "w", entrypoint := "n" } }

def change (revision : ℤ) : RevisionChange where
  workflowId := "w"
  previousRevision := some revision
  replacementRevision := revision + 1

def first : RevisionCall := makeCall .silent .reliable registry (change 1) (world, {})

def second : RevisionCall := makeCall .silent .reliable registry (change 2) first.after

theorem fresh : FreshExecutionIds .silent world := by
  constructor
  · intro n hn
    have hne : n ≠ 0 := Nat.one_le_iff_ne_zero.mp hn
    exact get_save_ne (r := outdated) hne
  · intro n _ i row hi
    cases hi

theorem run : RevisionRun .silent .reliable (world, {}) [first, second] second.after := by
  have hfirst : RevisionRun .silent .reliable (world, {}) [first] first.after :=
    .call registry (change 1) .start
  exact .call registry (change 2) hfirst

theorem eq_outdated (h : Stores c world) : c = outdated := by
  have hget : world.db.executions.get c.id = if c.id = 0 then some outdated else none :=
    get_save _ outdated c.id
  rw [h] at hget
  split at hget
  · exact Option.some.inj hget
  · cases hget

theorem answered_first : first.Answered .reliable := by
  have hmem : ∀ c ∈ (change 1).candidates world.db, c = outdated := fun c hc =>
    eq_outdated (mem_candidates.mp hc).1
  refine ⟨fun c hc => ?_, ⟨fun c hc i hi => ?_, ?_⟩, fun _ _ _ => rfl⟩
  · rw [hmem c hc]
    exact ⟨_, "native", rfl, by rfl⟩
  · rw [hmem c hc] at hi
    cases hi
  · refine pairwise_of_forall_mem_list fun c hc _ _ i hi => ?_
    rw [hmem c hc] at hi
    cases hi

theorem answered_second : second.Answered .reliable := by
  have hnone : (change 2).candidates first.after.1.db = [] := by
    apply List.isEmpty_iff.mp
    decide +kernel
  refine ⟨?_, ⟨?_, ?_⟩, fun _ _ _ => rfl⟩
  · show ∀ c ∈ (change 2).candidates first.after.1.db, _
    rw [hnone]
    exact fun c hc => nomatch hc
  · show ∀ c ∈ (change 2).candidates first.after.1.db, _
    rw [hnone]
    exact fun c hc => nomatch hc
  · show ((change 2).candidates first.after.1.db).Pairwise _
    rw [hnone]
    exact .nil

end TwoRevisions

open TwoRevisions

/-- Both calls end, and the second one is complete only if it finds no replacement. -/
theorem revisionReplacement_complete_two :
    ((∃ ids, first.result = .ok ids) ∧ (first.Complete ↔ first.Unmarked)) ∧
      (∃ ids, second.result = .ok ids) ∧ (second.Complete ↔ second.Unmarked) := by
  have hcalls := revisionReplacement_complete fresh run (by
    rintro call (_ | ⟨_, _ | ⟨_, hcall⟩⟩)
    · exact answered_first
    · exact answered_second
    · cases hcall)
  exact ⟨hcalls first mem_cons_self,
    hcalls second (mem_cons_of_mem _ mem_cons_self)⟩

/-- The second revision leaves the replacement that the first one queued. -/
theorem replacement_left_active :
    ¬ (∀ (env : Environment) (denv : DockerEnvironment) (start h : Host)
        (calls : List RevisionCall), FreshExecutionIds env start.1 →
        RevisionRun env denv start calls h → ∀ call ∈ calls, call.Complete) := by
  intro h
  have hcomplete : second.Complete := by
    apply h .silent .reliable (world, {}) second.after [first, second] fresh run
    simp
  have hcolumns : (first.after.1.db.executions.get 1).map
      (fun r => (r.status, r.workflowId)) = some (.queued, "w") := by decide +kernel
  obtain ⟨r, hr, hsame⟩ := Option.map_eq_some_iff.mp hcolumns
  obtain ⟨hstatus, hworkflow⟩ := Prod.mk.inj hsame
  have hid : r.id = 1 := key_of_get hr
  have houtdated : Outdated "w" first.after.1 r := by
    have hstored : Stores r first.after.1 := by
      show first.after.1.db.executions.get r.id = some r
      rw [hid]
      exact hr
    refine ⟨hstored, hworkflow, by rw [hstatus]; rfl, ?_⟩
    rintro ⟨y, r', hr', hreplaces⟩
    have hnone : first.after.1.db.executions.select
        (fun e => e.replacementOfExecutionId = some 1) = [] := by
      apply List.isEmpty_iff.mp
      decide +kernel
    have hmem : r' ∈ first.after.1.db.executions.select
        (fun e => e.replacementOfExecutionId = some 1) := by
      refine mem_select.mpr ⟨?_, ?_⟩
      · obtain rfl := key_of_get hr'
        exact hr'
      · simp [hreplaces.replaces, hid]
    rw [hnone] at hmem
    cases hmem
  obtain ⟨e, he, -, hcancelled⟩ := (hcomplete r houtdated).superseded
  have hafter : (second.after.1.db.executions.get 1).map (·.status) = some .queued := by
    decide +kernel
  rw [hid] at he
  rw [he] at hafter
  rcases hcancelled with hs | hs
  · simp [hs] at hafter
  · simp [hs] at hafter

end OpenAgency
