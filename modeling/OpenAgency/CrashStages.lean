/-
CrashStages.lean

What `create_wait` and `resolve_wait` have written when they are stopped.  Each write
moves the execution and its waits to a further stage: `create_wait` stores the wait and
then suspends the execution on it; `resolve_wait` claims the wait, then wakes the
execution, and `control_plane.resume` then queues it.  The events between these writes
change neither record.
-/
import OpenAgency.WaitCalls

namespace OpenAgency

open Interaction Relational Program RuntimeOp Table

/-! ### Stages -/

/-- The execution `x` and the wait table. -/
structure StoredAs (x : Uuid) (e : Execution) (t : ExecutionWaitTable) (w : World) : Prop where
  execution : w.db.executions.get x = some e
  waits : w.db.waits = t

variable {t : ExecutionWaitTable} {e : Execution}

theorem StoredAs.of_sameRecords {x : Uuid} {w w' : World} (h : StoredAs x e t w)
    (hw : SameRecords w w') : StoredAs x e t w' :=
  ⟨by rw [hw.executions]; exact h.execution, hw.waits.trans h.waits⟩

theorem StoredAs.of_db {x : Uuid} {w w' : World} (h : StoredAs x e t w) (hw : w'.db = w.db) :
    StoredAs x e t w' :=
  ⟨by rw [hw]; exact h.execution, by rw [hw]; exact h.waits⟩

/-- Saving the execution moves it to the next stage. -/
theorem StoredAs.save {x : Uuid} {w : World} (h : StoredAs x e t w) (e' : Execution)
    (hx : e'.id = x) :
    StoredAs x e' t { w with db.executions := w.db.executions.save e' } :=
  ⟨by rw [get_save, if_pos hx.symm], h.waits⟩

variable {env : Environment} {w : World} {x : Uuid} {e : Execution} {t : ExecutionWaitTable}

/-! ### Resuming -/

theorem hydrateStatePosition_reads (st : NativeExecutionState) :
    (hydrateStatePosition st).Reads isWrite := by
  refine ⟨rfl, fun current _ => ?_⟩
  show Program.Within _ _ (if current.sequence ≠ 0 || current.lastEventId.isSome then _ else _)
  split
  · trivial
  · refine ⟨rfl, fun events _ => ?_⟩
    simp only [bind_eq_bind, done_bind]
    rcases events.getLast? with - | last
    · trivial
    · exact ⟨rfl, fun _ _ => trivial⟩

theorem requireExecutionAndState_reads (x : Uuid) : (requireExecutionAndState x).Reads isWrite := by
  refine ⟨rfl, fun row _ => ?_⟩
  rcases row with - | e
  · trivial
  · refine ⟨rfl, fun st _ => ?_⟩
    show Program.Within _ _ (hydrateStatePosition st >>= fun _ => pure (e, st))
    exact .bind (hydrateStatePosition_reads st) fun _ => trivial

theorem resolveAdapterForExecution_reads (x : Uuid) :
    (resolveAdapterForExecution x).Reads isWrite := by
  refine ⟨rfl, fun row _ => ?_⟩
  rcases row with - | e
  · trivial
  · show Program.Within _ _ (if e.runtimeAdapterId ≠ "native" then _ else _)
    split <;> trivial

theorem rejectUnresolvedWait_reads (x : Uuid) : (rejectUnresolvedWait x).Reads isWrite := by
  refine .bind (selectExecutionWaits_reads _) fun pending => ?_
  rcases pending with - | ⟨wait, rest⟩ <;> trivial

/-- No wait of the execution is pending. -/
def NonePending (t : ExecutionWaitTable) (x : Uuid) : Prop :=
  ∀ row, t.get row.id = some row → row.wait.executionId = x → row.wait.status ≠ .pending

theorem wp_rejectUnresolvedWait (hs : SoundWaits w.db) (hnone : NonePending w.db.waits x)
    {Q : Unit → World → Prop} {E : RuntimeException → World → Prop} (hQ : Q () w) :
    (rejectUnresolvedWait x).wp (handler env) Q E w := by
  rw [rejectUnresolvedWait, wp_bind, listPendingWaits, wp_selectExecutionWaits hs]
  rcases hlist : (WaitQuery.ofExecution x (some .pending)).waits w.db with - | ⟨wait, rest⟩
  · exact wp_of_done hQ
  · obtain ⟨row, hrow, rfl, hx, hp⟩ := mem_waits_pending.mp (hlist ▸ List.mem_cons_self : wait ∈ _)
    exact absurd hp (hnone row hrow hx)

theorem rejectTerminalExecutionReplay_ok (h : e.status.isTerminal = false) :
    rejectTerminalExecutionReplay e = .ok () := by
  rw [rejectTerminalExecutionReplay, if_neg (by simp [h])]

section Resume

variable {n : ℕ} {C : ℕ → World → Prop} {Q : Execution → ℕ → World → Prop}
  {E : RuntimeException → ℕ → World → Prop}

/-- The engine's `resume_execution` queues the execution and appends an event. -/
theorem wpc_resumeExecution (h : StoredAs x e t w) (hlive : e.status.isTerminal = false)
    (hbefore : ∀ w', StoredAs x e t w' → C n w')
    (hafter : ∀ w', StoredAs x { e with status := .queued } t w' → C (n + 1) w')
    (hQ : ∀ w', StoredAs x { e with status := .queued } t w' →
      Q { e with status := .queued } (n + 2) w') :
    (resumeExecution x).wpc (handler env) isWrite C Q E n w := by
  rw [resumeExecution, wpc_bind]
  refine wpc_of_reads (requireExecutionAndState_reads x)
    (wp_requireExecutionAndState h.execution fun st w' hst hw' => ?_)
  have h' : StoredAs x e t w' := h.of_sameRecords hw'
  have hid : e.id = x := key_of_get h.execution
  simp only [rejectTerminalExecutionReplay_ok hlive]
  show Program.wpc _ _ _ _ _
    (process _ >>= fun _ => updateExecution _ >>= fun _ => OpenAgency.emit st _ >>= _) n w'
  rw [wpc_process, wpc_updateExecution, wpc_bind]
  have hsaved := h'.save { e with status := .queued } hid
  refine ⟨hbefore _ ⟨h'.execution, h'.waits⟩, wpc_emit ?_ ?_ ?_⟩
  · intro w'' hdb
    exact hafter w'' (hsaved.of_db hdb)
  · intro event w'' hw''
    exact wpc_of_done (hQ w'' (hsaved.of_sameRecords ⟨hw''.1, hw''.2, hw''.3⟩))
  · intro hnone
    rw [hst] at hnone
    exact absurd (hsaved.execution.symm.trans hnone) (by simp)

/-- A live execution that waits for nothing may be started. -/
theorem wpc_rejectReplay {β : Type} {f : Unit → Coroutine β} {Q : β → ℕ → World → Prop}
    (hs : SoundWaits w.db) (h : StoredAs x e t w) (hlive : e.status.isTerminal = false)
    (hnone : NonePending t x) (hf : (f ()).wpc (handler env) isWrite C Q E n w) :
    ((ofExcept (rejectTerminalExecutionReplay e) : Coroutine Unit) >>= fun _ =>
      rejectUnresolvedWait x >>= f).wpc (handler env) isWrite C Q E n w := by
  rw [rejectTerminalExecutionReplay_ok hlive]
  show Program.wpc _ _ _ _ _ (rejectUnresolvedWait x >>= _) n w
  rw [wpc_bind]
  exact wpc_of_reads (rejectUnresolvedWait_reads x)
    (wp_rejectUnresolvedWait hs (h.waits ▸ hnone) hf)

/-- `queue_start` saves the execution as queued. -/
theorem wpc_queueStart (hs : SoundWaits w.db) (h : StoredAs x e t w)
    (hlive : e.status.isTerminal = false) (hnone : NonePending t x)
    (hbefore : ∀ w', StoredAs x e t w' → C n w')
    (hQ : ∀ w', StoredAs x { e with status := .queued } t w' →
      Q { e with status := .queued } (n + 1) w') :
    (queueStart x).wpc (handler env) isWrite C Q E n w := by
  have hid : e.id = x := key_of_get h.execution
  rw [queueStart, wpc_getExecution, h.execution]
  apply wpc_rejectReplay hs h hlive hnone
  rw [wpc_updateExecution, wpc_process]
  have hsaved := h.save { e with status := .queued } hid
  exact ⟨hbefore w h, wpc_of_done (hQ _ ⟨hsaved.execution, hsaved.waits⟩)⟩

/-- `control_plane.resume` of a native execution without a pending wait: until its first
write nothing has changed, and from then on the execution is queued. -/
theorem wpc_resume (hs : SoundWaits w.db) (h : StoredAs x e t w)
    (hlive : e.status.isTerminal = false) (hnative : e.runtimeAdapterId = "native")
    (hnone : NonePending t x) (hbefore : ∀ w', StoredAs x e t w' → C n w')
    (hafter : ∀ m w', n < m → StoredAs x { e with status := .queued } t w' → C m w')
    (hQ : ∀ a m w', n < m → StoredAs x { e with status := .queued } t w' → Q a m w') :
    (resume x).wpc (handler env) isWrite C Q E n w := by
  rw [resume, wpc_getExecution, h.execution]
  apply wpc_rejectReplay hs h hlive hnone
  rw [wpc_bind]
  refine wpc_of_reads (resolveAdapterForExecution_reads x)
    (wp_resolveAdapterForExecution h.execution (fun _ => ?_) fun hn => absurd hnative hn)
  rw [wpc_bind]
  refine wpc_resumeExecution h hlive hbefore (fun w' => hafter (n + 1) w' (by omega))
    fun w' h' => ?_
  show Program.wpc _ _ _ _ _ (queueStart x >>= _) _ w'
  rw [wpc_bind]
  have hs' : SoundWaits w'.db := soundWaits_of_waits_eq hs (h'.waits.trans h.waits.symm)
  refine wpc_queueStart hs' h' rfl hnone (fun w'' => hafter (n + 2) w'' (by omega))
    fun w'' h'' => ?_
  exact wpc_of_done (hQ _ (n + 3) w'' (by omega) h'')

end Resume

/-! ### Saving an execution with an event -/

/-- The execution is saved, and then an event of it appended. -/
theorem wpc_saveAndEmit {β : Type} {n : ℕ} {C : ℕ → World → Prop} {Q : β → ℕ → World → Prop}
    {E : RuntimeException → ℕ → World → Prop} {e' : Execution} {workflowId : String}
    {eventType : ExecutionEventType} {f : Unit → Coroutine β} (h : StoredAs x e t w)
    (hx : e'.id = x) (hbefore : C n w) (hafter : ∀ w', StoredAs x e' t w' → C (n + 1) w')
    (hf : ∀ w', StoredAs x e' t w' → (f ()).wpc (handler env) isWrite C Q E (n + 2) w') :
    (updateExecution e' >>= fun _ => emitFromLog x workflowId eventType >>= f).wpc (handler env)
      isWrite C Q E n w := by
  have hsaved := h.save e' hx
  rw [wpc_updateExecution, wpc_bind]
  refine ⟨hbefore, wpc_emitFromLog ?_ ?_ ?_⟩
  · exact fun w' hdb => hafter w' (hsaved.of_db hdb)
  · exact fun w' hw' => hf w' (hsaved.of_sameRecords hw')
  · intro hnone
    exact absurd (hsaved.execution.symm.trans hnone) (by simp)

/-! ### Stages of `create_wait` -/

namespace CreateWaitRequest

variable {r : CreateWaitRequest} {db : Database}

/-- The wait is stored if its key and its identifier are new. -/
theorem AsksStore.exists_insert (h : r.AsksStore db e) (hs : SoundWaits db)
    (hkey : ∀ row, ¬ StoredUnder db r.executionId r.key row) {id : Uuid}
    (hid : db.waits.get id = none) (now : Time) :
    ∃ t, db.waits.insert (.ofWait (r.wait e id now)) = some t := by
  rcases hins : db.waits.insert (.ofWait (r.wait e id now)) with - | t
  · have hrejects := ExecutionWaitTable.insert_eq_none.mp hins
    rw [ExecutionWaitTable.rejects, Bool.or_eq_true] at hrejects
    rcases hrejects with hsome | hconflict
    · have hnone : db.waits.get (ExecutionWaitORM.ofWait (r.wait e id now)).id = none := hid
      simp [hnone] at hsome
    · obtain ⟨row, hmem⟩ := List.exists_mem_of_ne_nil _ (by simpa using hconflict)
      obtain ⟨hrow, hc⟩ := mem_select.mp hmem
      simp only [ExecutionWaitORM.conflicts, Bool.and_eq_true, Bool.or_eq_true,
        decide_eq_true_eq] at hc
      obtain ⟨hx, hk | ⟨-, hslot⟩⟩ := hc
      · exact absurd ⟨hrow, hx.symm, hk.symm⟩ (hkey row)
      · -- the active slot of the execution is free
        have hfree : row.activeSlot = none := by
          rw [(hs row.id row hrow).slot, if_neg (h.none_pending row hrow hx.symm)]
        rw [hfree] at hslot
        cases hslot
  · exact ⟨t, rfl⟩

/-- The execution and the waits after `k` writes of a call that creates `wait`. -/
def Stage (r : CreateWaitRequest) (db : Database) (e : Execution) (wait : ExecutionWait)
    (t : ExecutionWaitTable) : ℕ → World → Prop
  | 0, w => w.db = db
  | 1, w => StoredAs r.executionId e t w
  | _, w => StoredAs r.executionId (e.suspendOn r.kind wait) t w

end CreateWaitRequest

section Create

variable {r : CreateWaitRequest} {db : Database}

/-- A call that stores a new wait writes the wait, the execution and an event. -/
theorem wpc_storeWait_new (hs : SoundWaits w.db) (hr : r.AsksStore w.db e) {id : Uuid}
    {now : Time} (ht : w.db.waits.insert (.ofWait (r.wait e id now)) = some t) :
    (storeWait r e (r.wait e id now)).wpc (handler env) isWrite
      (r.Stage w.db e (r.wait e id now) t) (fun _ m w' =>
        m = 3 ∧ StoredAs r.executionId (e.suspendOn r.kind (r.wait e id now)) t w')
      (fun _ _ _ => False) 0 w := by
  have hx : e.id = r.executionId := key_of_get hr.execution
  rw [storeWait, wpc_bind, wpc_attempt]
  refine wpc_createExecutionWait hs (hr.valid id now) rfl rfl ?_ ?_ ?_
  · intro t' ht'
    cases ht.symm.trans ht'
    have h : StoredAs r.executionId e t { w with db := { w.db with waits := t } } :=
      ⟨hr.execution, rfl⟩
    show Program.wpc _ _ _ _ _ (updateExecution _ >>= fun _ => emitFromLog e.id _ _ >>= _) _ _
    rw [hx]
    refine wpc_saveAndEmit h hx h (fun w' h' => h') fun w' h' => ?_
    exact wpc_of_done ⟨rfl, h'⟩
  · intro row hrow
    cases ht.symm.trans hrow.insert_eq_none
  · intro hnone
    cases ht.symm.trans hnone

/-- A call whose key is used suspends the execution on the wait that is stored. -/
theorem wpc_storeWait_old (hs : SoundWaits w.db) (hr : r.AsksStore w.db e)
    {row : ExecutionWaitORM} (hrow : StoredUnder w.db r.executionId r.key row) (id : Uuid)
    (now : Time) :
    (storeWait r e (r.wait e id now)).wpc (handler env) isWrite
      (fun _ w' => StoredAs r.executionId e w.db.waits w' ∨
        StoredAs r.executionId (e.suspendOn r.kind row.wait) w.db.waits w')
      (fun _ _ => StoredAs r.executionId (e.suspendOn r.kind row.wait) w.db.waits)
      (fun _ _ _ => False) 0 w := by
  have hx : e.id = r.executionId := key_of_get hr.execution
  have h : StoredAs r.executionId e w.db.waits w := ⟨hr.execution, rfl⟩
  rw [storeWait, wpc_bind, wpc_attempt]
  refine wpc_createExecutionWait hs (hr.valid id now) rfl (.inl h) ?_ ?_ ?_
  · intro t ht
    have hnone : w.db.waits.insert (.ofWait (r.wait e id now)) = none := hrow.insert_eq_none
    cases hnone.symm.trans ht
  · intro row' hrow'
    obtain rfl := hrow.unique hrow'
    show Program.wpc _ _ _ _ _ (updateExecution _ >>= fun _ => emitFromLog e.id _ _ >>= _) _ _
    rw [hx]
    refine wpc_saveAndEmit h hx (.inl h) (fun w' h' => .inr h') fun w' h' => ?_
    exact wpc_of_done h'
  · intro _ hnone
    exact absurd hrow (hnone row)

end Create

/-! ### Stages of `resolve_wait` -/

namespace ResolveWaitRequest

/-- The execution after `k` writes of a call that claims its wait. -/
def wokenStage (r : ResolveWaitRequest) (e : Execution) (resolved : ExecutionWait) :
    ℕ → Execution
  | 0 | 1 => e
  | 2 | 3 => e.wakeFrom resolved
  | _ =>
    if r.shouldResume then { e.wakeFrom resolved with status := .queued }
    else e.wakeFrom resolved

/-- The execution and the waits after `k` writes. -/
def Stage (r : ResolveWaitRequest) (db : Database) (e : Execution) (resolved : ExecutionWait)
    (t : ExecutionWaitTable) (k : ℕ) (w : World) : Prop :=
  if k = 0 then w.db = db else StoredAs r.executionId (r.wokenStage e resolved k) t w

variable {r : ResolveWaitRequest} {row row' : ExecutionWaitORM}

theorem Claims.row_eq {db : Database} (h : r.Claims db e row) (h' : r.Names db row') : row' = row :=
  Option.some.inj (h'.stored.symm.trans h.stored)

theorem Claims.execution_eq {db : Database} {e' : Execution} (h : r.Claims db e row)
    (h' : r.Claims db e' row') : e' = e :=
  Option.some.inj (h'.execution.symm.trans h.execution)

theorem wokenStage_last {resolved : ExecutionWait} {k : ℕ} (h : 4 ≤ k) :
    r.wokenStage e resolved k = r.wokenStage e resolved 4 := by
  obtain ⟨k, rfl⟩ := Nat.exists_eq_add_of_le' h
  rfl

end ResolveWaitRequest

section Resolve

variable {r : ResolveWaitRequest} {row : ExecutionWaitORM} {resolved : ExecutionWait}

/-- A call that claims its wait writes the wait, the execution and an event before it
resumes. -/
theorem wpc_claimWait_stage (hs : SoundWaits w.db) (hr : r.Claims w.db e row)
    (hresolved : resolved = row.wait.resolve r.resolution (env.clock w.clockReads))
    (ht : t = (w.db.waits.updatePending r.waitId r.resolution (env.clock w.clockReads)).2) :
    (claimWait r).wpc (handler env) isWrite (fun m w' => m < 3 ∧ r.Stage w.db e resolved t m w')
      (fun claim m w' => m = 3 ∧ claim.2 = some e ∧ r.Stage w.db e resolved t m w')
      (fun _ _ _ => False) 0 w := by
  subst hresolved
  refine wpc_claimWait hs (fun w' h => ⟨by decide, h⟩) ?_ ?_ ?_
  · exact fun h => absurd hr (h e row)
  · intro row' hrow'
    obtain rfl := hr.row_eq hrow'.toNames
    exact absurd hr.pending hrow'.resolved
  · intro e' row' t' w' hr' hinto hsound hdb
    obtain rfl := hr.row_eq hr'.toNames
    obtain rfl := hr.execution_eq hr'
    obtain rfl : t = t' := ht.trans hinto.table.symm
    have hx : e'.id = r.executionId := key_of_get hr.execution
    have h : StoredAs r.executionId e' t w' := ⟨by rw [hdb]; exact hr.execution, by rw [hdb]⟩
    rw [wakeExecution, ← bind_done (emitFromLog _ _ _), hx]
    refine wpc_saveAndEmit h hx ⟨by decide, h⟩ (fun w'' h'' => ⟨by decide, h''⟩)
      fun w'' h'' => ?_
    exact wpc_of_done ⟨rfl, rfl, h''⟩

theorem soundWaits_stage {w' : World} (hs : SoundWaits w.db) (hr : r.Claims w.db e row)
    {now : Time} (h : w'.db.waits = (w.db.waits.updatePending r.waitId r.resolution now).2) :
    SoundWaits w'.db := by
  intro i row' hrow'
  rw [h] at hrow'
  rcases w.db.waits.updatePending_cases r.waitId r.resolution now with
    ⟨old, hold, -, -, hself, hothers⟩ | ⟨hp, -⟩
  · by_cases hi : i = r.waitId
    · subst hi
      rw [hself] at hrow'
      cases hrow'
      exact (hs _ old hold).resolve now hr.terminal hr.fits.1 hr.fits.2
    · rw [hothers i hi] at hrow'
      exact hs i row' hrow'
  · exact absurd hr.pending (hp row hr.stored)

/-- No other wait of the execution is pending. -/
theorem nonePending_stage (hs : SoundWaits w.db) (hr : r.Claims w.db e row) {now : Time}
    (ht : t = (w.db.waits.updatePending r.waitId r.resolution now).2) :
    NonePending t r.executionId := by
  intro row' hrow' hx hp
  rw [ht] at hrow'
  rcases w.db.waits.updatePending_cases r.waitId r.resolution now with
    ⟨old, hold, -, -, hself, hothers⟩ | ⟨hnone, -⟩
  · by_cases hi : row'.id = r.waitId
    · rw [hi, hself] at hrow'
      cases hrow'
      exact ExecutionWaitStatus.isTerminal_iff.mp hr.terminal hp
    · rw [hothers _ hi] at hrow'
      exact hi ((hs _ row' hrow').eq_of_pending (hs _ row hr.stored) hrow' hr.stored
        (hx.trans hr.of_execution.symm) hp hr.pending)
  · exact hnone row hr.stored hr.pending

/-- What follows the claim queues the execution, where the call asks for that. -/
theorem wpc_resumeWoken_stage (hs : SoundWaits w.db) (hr : r.Claims w.db e row) {now : Time}
    (ht : t = (w.db.waits.updatePending r.waitId r.resolution now).2) {w' : World}
    (h : r.Stage w.db e resolved t 3 w') (wait : ExecutionWait) :
    (resumeWoken r (wait, some e)).wpc (handler env) isWrite (r.Stage w.db e resolved t)
      (fun _ m w'' => ∀ k, m ≤ k → r.Stage w.db e resolved t k w'') (fun _ _ _ => False) 3 w' := by
  have h' : StoredAs r.executionId (e.wakeFrom resolved) t w' := h
  rw [resumeWoken, wpc_ite]
  split
  next hresume =>
    have hx : e.id = r.executionId := key_of_get hr.execution
    have hstage : ∀ m w'', 3 < m → StoredAs r.executionId
        { e.wakeFrom resolved with status := .queued } t w'' →
        r.Stage w.db e resolved t m w'' := by
      intro m w'' hm hw''
      rw [ResolveWaitRequest.Stage, if_neg (by omega),
        ResolveWaitRequest.wokenStage_last (by omega)]
      simpa [ResolveWaitRequest.wokenStage, hresume] using hw''
    rw [wpc_bind, hx]
    refine wpc_resume (soundWaits_stage hs hr (h'.waits.trans ht)) h' rfl (hr.native hresume)
      (nonePending_stage hs hr ht) (fun w'' hw'' => hw'') hstage fun a m w'' hm hw'' => ?_
    exact wpc_of_done fun k hk => hstage k w'' (by omega) hw''
  next hresume =>
    refine wpc_of_done fun k hk => ?_
    rw [ResolveWaitRequest.Stage, if_neg (by omega)]
    rcases hk.eq_or_lt with rfl | hk
    · exact h'
    · rw [ResolveWaitRequest.wokenStage_last hk]
      simpa [ResolveWaitRequest.wokenStage, hresume] using h'

end Resolve

end OpenAgency
