/-
WaitCalls.lean

What one call of `create_wait` and of `resolve_wait` does on a sound wait table.  A call
is refused, or it answers a record that is there already, or it gets as far as writing:
`create_wait` asks the store for a new wait, `resolve_wait` claims the pending one.
Which of these happens depends on the store only, and each is named here by what it
needs of the store; the rules of the two calls then have one premise for each.
-/
import OpenAgency.ExecutionWaits
import OpenAgency.WaitStore

namespace OpenAgency

open Interaction Relational Program RuntimeOp ExecutionWait

variable {env : Environment} {w : World}

/-! ### Creating -/

namespace CreateWaitRequest

variable (r : CreateWaitRequest) (db : Database) (e : Execution)

/-- The call passes the checks it makes on the execution and on its own arguments. -/
structure Accepted : Prop where
  execution : db.executions.get r.executionId = some e
  source : e.status.isWaitCreationSource
  key : r.key ≠ ""
  deadline : (r.wakeAt.any fun wake => r.deadlineAt.any (· < wake)) = false

/-- The call gets as far as asking the store for a wait. -/
structure AsksStore : Prop extends r.Accepted db e where
  none_pending : ∀ row, db.waits.get row.id = some row → row.wait.executionId = r.executionId →
    row.wait.status ≠ .pending
  valid : ∀ id now, (r.wait e id now).Valid

/-- The call finds the pending wait it would create. -/
structure FindsPending : Prop extends r.Accepted db e where
  pending : ∃ row, StoredUnder db r.executionId r.key row ∧ row.wait.status = .pending

variable {r db e}

theorem AsksStore.not_findsPending (h : r.AsksStore db e) : ¬ r.FindsPending db e := by
  rintro ⟨-, row, hrow, hp⟩
  exact h.none_pending row hrow.1 hrow.2.1 hp

end CreateWaitRequest

section Creating

variable {r : CreateWaitRequest} {e : Execution} {n : ℕ} {C : ℕ → World → Prop}
  {Q : ExecutionWait × Bool → ℕ → World → Prop} {E : RuntimeException → ℕ → World → Prop}

/-- After its checks the call looks for a pending wait of the execution, of which there is
at most one. -/
theorem wpc_createAcceptedWait (hs : SoundWaits w.db) (hr : r.Accepted w.db e) (now : Time)
    (hrefused : ¬ r.AsksStore w.db e → ¬ r.FindsPending w.db e →
      ∀ exc w', w'.db = w.db → E exc n w')
    (hfound : r.FindsPending w.db e → ∀ existing, Q (existing, false) n w)
    (hask : r.AsksStore w.db e → (storeWait r e (r.wait e (env.uuid w.uuidsDrawn) now)).wpc
      (handler env) isWrite C Q E n { w with uuidsDrawn := w.uuidsDrawn + 1 }) :
    (createAcceptedWait r e now).wpc (handler env) isWrite C Q E n w := by
  rw [createAcceptedWait, wpc_bind]
  refine wpc_of_reads (selectExecutionWaits_reads _) ?_
  rw [listPendingWaits, wp_selectExecutionWaits hs]
  rcases hlist : (WaitQuery.ofExecution r.executionId (some .pending)).waits w.db
    with - | ⟨existing, rest⟩
  · have hnone : ∀ row, w.db.waits.get row.id = some row →
        row.wait.executionId = r.executionId → row.wait.status ≠ .pending := by
      intro row hrow hx hp
      have hmem := mem_waits_pending.mpr ⟨row, hrow, rfl, hx, hp⟩
      simp [hlist] at hmem
    show Program.wpc _ _ _ _ _ (createFreshWait r e now) n w
    rw [createFreshWait, wpc_uuid4]
    rcases hval : (r.wait e (env.uuid w.uuidsDrawn) now).validateLifecycle with exc | wait
    · refine wpc_of_raise (hrefused ?_ ?_ _ _ rfl)
      · intro h
        rw [validateLifecycle_ok (h.valid _ _)] at hval
        cases hval
      · rintro ⟨-, row, hrow, hp⟩
        exact hnone row hrow.1 hrow.2.1 hp
    · obtain ⟨hvalid, hwait⟩ := valid_of_validateLifecycle hval
      rw [fillResolvedAt_of_pending rfl] at hwait
      subst hwait
      exact hask ⟨hr, hnone, fun _ _ => hvalid⟩
  · obtain ⟨row, hrow, hwait, hx, hp⟩ :=
      mem_waits_pending.mp (hlist ▸ List.mem_cons_self : existing ∈ _)
    subst hwait
    show Program.wpc _ _ _ _ _ (if row.wait.idempotencyKey = r.key then _ else _) n w
    rw [wpc_ite]
    split
    next hkey => exact wpc_of_done (hfound ⟨hr, row, ⟨hrow, hx, hkey⟩, hp⟩ _)
    next hkey =>
      refine wpc_of_raise (hrefused ?_ ?_ _ _ rfl)
      · exact fun h => h.none_pending row hrow hx hp
      · rintro ⟨-, row', ⟨hrow', hx', hkey'⟩, hp'⟩
        have hid := (hs _ row hrow).eq_of_pending (hs _ row' hrow') hrow hrow'
          (hx.trans hx'.symm) hp hp'
        rw [hid] at hrow
        cases hrow.symm.trans hrow'
        exact hkey hkey'

/-- `create_wait` is refused, finds the wait, or asks the store. -/
theorem wpc_createWait (hs : SoundWaits w.db)
    (hrefused : (∀ e, ¬ r.AsksStore w.db e) → (∀ e, ¬ r.FindsPending w.db e) →
      ∀ exc w', w'.db = w.db → E exc n w')
    (hfound : ∀ e, r.FindsPending w.db e → ∀ existing w', w'.db = w.db → Q (existing, false) n w')
    (hask : ∀ e w', r.AsksStore w.db e → w'.db = w.db →
      (storeWait r e (r.wait e (env.uuid w.uuidsDrawn) (env.clock w.clockReads))).wpc
        (handler env) isWrite C Q E n w') :
    (createWait r).wpc (handler env) isWrite C Q E n w := by
  have hrefused' : (∀ e, ¬ r.Accepted w.db e) → ∀ exc w', w'.db = w.db → E exc n w' :=
    fun h => hrefused (fun e he => h e he.toAccepted) (fun e he => h e he.toAccepted)
  rw [createWait, wpc_getExecution]
  rcases he : w.db.executions.get r.executionId with - | e
  · refine wpc_of_raise (hrefused' (fun e h => ?_) _ _ rfl)
    cases he.symm.trans h.execution
  · show Program.wpc _ _ _ _ _ (if !e.status.isWaitCreationSource then _ else _) n w
    rw [wpc_ite]
    split
    next hsource =>
      refine wpc_of_raise (hrefused' (fun e' h => ?_) _ _ rfl)
      cases he.symm.trans h.execution
      simp [h.source] at hsource
    next hsource =>
      rw [wpc_ite]
      split
      next hkey => exact wpc_of_raise (hrefused' (fun _ h => h.key hkey) _ _ rfl)
      next hkey =>
        rw [wpc_utcNow, wpc_ite]
        split
        next hdeadline =>
          refine wpc_of_raise (hrefused' (fun _ h => ?_) _ _ rfl)
          simp [h.deadline] at hdeadline
        next hdeadline =>
          have hr : r.Accepted w.db e :=
            ⟨he, by simpa using hsource, hkey, by simpa using hdeadline⟩
          have hsame : ∀ e', r.Accepted w.db e' → e' = e := fun e' h =>
            Option.some.inj (h.execution.symm.trans he)
          refine wpc_createAcceptedWait (w := { w with clockReads := w.clockReads + 1 })
            hs hr _ (fun ha hf => ?_) (fun hf existing => hfound e hf existing _ rfl)
            (fun ha => hask e _ ha rfl)
          refine hrefused (fun e' h => ?_) (fun e' h => ?_)
          · exact ha (hsame e' h.toAccepted ▸ h)
          · exact hf (hsame e' h.toAccepted ▸ h)

end Creating

/-! ### Resolving -/

namespace ResolveWaitRequest

variable (r : ResolveWaitRequest) (db : Database)

/-- The checks of `resolve_wait` and of the store on the arguments. -/
structure Acceptable : Prop where
  terminal : r.status.isTerminal
  key : r.key ≠ ""
  fits : r.resolution.Fits

/-- The wait of the call is stored in this row. -/
structure Names (row : ExecutionWaitORM) : Prop where
  stored : db.waits.get r.waitId = some row
  of_execution : row.wait.executionId = r.executionId

/-- The call claims the pending wait in `row` and wakes `e`. -/
structure Claims (e : Execution) (row : ExecutionWaitORM) : Prop
    extends r.Acceptable, r.Names db row where
  pending : row.wait.status = .pending
  execution : db.executions.get r.executionId = some e
  suspended : e.isSuspendedOn row.wait
  native : r.shouldResume → e.runtimeAdapterId = "native"

/-- The call finds the wait in `row` resolved under its own key. -/
structure FindsResolved (row : ExecutionWaitORM) : Prop
    extends r.Acceptable, r.Names db row where
  resolved : row.wait.status ≠ .pending
  same_key : row.wait.resolutionKey = some r.key

end ResolveWaitRequest

section Resolving

variable {r : ResolveWaitRequest} {C : ℕ → World → Prop}

variable {E : RuntimeException → World → Prop}

/-- A wait that is read in a sound table. -/
theorem wp_getWait (hs : SoundWaits w.db) {x i : Uuid} {Q : ExecutionWait → World → Prop}
    (hQ : ∀ row, w.db.waits.get i = some row → row.wait.executionId = x → Q row.wait w)
    (hE : (∀ row, w.db.waits.get i = some row → row.wait.executionId ≠ x) → ∀ e, E e w) :
    (getWait x i).wp (handler env) Q E w := by
  rw [getWait, wp_bind, wp_getExecutionWait hs]
  rcases hrow : w.db.waits.get i with - | row
  · exact wp_of_raise (hE (fun row h => by cases hrow.symm.trans h) _)
  · show Program.wp _ _ _ (if row.wait.executionId ≠ x then _ else _) w
    rw [wp_ite]
    split
    next hx =>
      refine wp_of_raise (hE (fun row' h => ?_) _)
      cases hrow.symm.trans h
      exact hx
    next hx => exact wp_of_done (hQ row hrow (not_not.mp hx))

theorem getWait_reads (x i : Uuid) : (getWait x i).Reads isWrite := by
  refine .bind (getExecutionWait_reads i) fun wait => ?_
  rcases wait with - | wait
  · trivial
  · show Program.Within _ _ (if wait.executionId ≠ x then _ else _)
    split <;> trivial

/-- A wake passes its check only on an execution that is suspended on the wait. -/
theorem wp_checkSuspended {wait : ExecutionWait} {Q : Execution → World → Prop}
    (hQ : ∀ e, w.db.executions.get r.executionId = some e → e.isSuspendedOn wait →
      (r.shouldResume → e.runtimeAdapterId = "native") → Q e w)
    (hE : (∀ e, w.db.executions.get r.executionId = some e → e.isSuspendedOn wait →
      ¬ (r.shouldResume → e.runtimeAdapterId = "native")) → ∀ exc, E exc w) :
    (checkSuspended r wait).wp (handler env) Q E w := by
  rw [checkSuspended, wp_getExecution]
  rcases hrow : w.db.executions.get r.executionId with - | e
  · exact wp_of_raise (hE (fun e h => by cases hrow.symm.trans h) _)
  · show Program.wp _ _ _ (if !e.isSuspendedOn wait then _ else _) w
    rw [wp_ite]
    split
    next hsus =>
      refine wp_of_raise (hE (fun e' h hsus' => ?_) _)
      cases hrow.symm.trans h
      simp [hsus'] at hsus
    next hsus =>
      rw [wp_ite]
      split
      next hnative =>
        refine wp_of_raise (hE (fun e' h _ hn => ?_) _)
        cases hrow.symm.trans h
        simp only [Bool.and_eq_true, decide_eq_true_eq] at hnative
        exact hnative.2 (hn hnative.1)
      next hnative =>
        refine wp_of_done (hQ e hrow (by simpa using hsus) fun hr => ?_)
        by_contra hn
        exact hnative (by simp [hr, hn])

theorem wp_suspendedExecution {wait : ExecutionWait} {Q : Option Execution → World → Prop}
    (hpending : wait.status = .pending → ∀ e, w.db.executions.get r.executionId = some e →
      e.isSuspendedOn wait → (r.shouldResume → e.runtimeAdapterId = "native") → Q (some e) w)
    (hdone : wait.status ≠ .pending → Q none w)
    (hE : wait.status = .pending → (∀ e, w.db.executions.get r.executionId = some e →
      e.isSuspendedOn wait → ¬ (r.shouldResume → e.runtimeAdapterId = "native")) → ∀ exc, E exc w) :
    (suspendedExecution r wait).wp (handler env) Q E w := by
  rw [suspendedExecution, wp_ite]
  split
  next hp =>
    rw [wp_bind]
    exact wp_checkSuspended (fun e he hsus hn => wp_of_done (hpending hp e he hsus hn)) (hE hp)
  next hp => exact wp_of_done (hdone hp)

theorem suspendedExecution_reads (r : ResolveWaitRequest) (wait : ExecutionWait) :
    (suspendedExecution r wait).Reads isWrite := by
  rw [suspendedExecution]
  split
  · refine .bind (f := fun e => pure (some e)) ⟨rfl, fun e _ => ?_⟩ fun _ => trivial
    rcases e with - | e
    · trivial
    · show Program.Within _ _ (if !e.isSuspendedOn wait then _ else _)
      split
      · trivial
      · split <;> trivial
  · trivial

/-- `resolve_wait` is refused, finds the wait resolved, or claims it and wakes the
execution. -/
theorem wpc_claimWait (hs : SoundWaits w.db)
    {Q : ExecutionWait × Option Execution → ℕ → World → Prop}
    {E : RuntimeException → ℕ → World → Prop} (hC : ∀ w', w'.db = w.db → C 0 w')
    (hrefused : (∀ e row, ¬ r.Claims w.db e row) → (∀ row, ¬ r.FindsResolved w.db row) →
      ∀ exc m w', w'.db = w.db → E exc m w')
    (hfound : ∀ row, r.FindsResolved w.db row → ∀ m w', w'.db = w.db → Q (row.wait, none) m w')
    (hclaim : ∀ e row t w', r.Claims w.db e row →
      ResolvedInto w.db.waits t r.waitId row r.resolution (env.clock w.clockReads) →
      (row.resolve r.resolution (env.clock w.clockReads)).Sound →
      w'.db = { w.db with waits := t } →
      (wakeExecution e (row.wait.resolve r.resolution (env.clock w.clockReads))).wpc (handler env)
        isWrite C
        (fun _ => Q (row.wait.resolve r.resolution (env.clock w.clockReads), some e)) E 1 w') :
    (claimWait r).wpc (handler env) isWrite C Q E 0 w := by
  have hunacceptable : ¬ r.Acceptable → ∀ exc m w', w'.db = w.db → E exc m w' := fun h =>
    hrefused (fun e row hr => h hr.toAcceptable) (fun row hr => h hr.toAcceptable)
  rw [claimWait, wpc_ite]
  split
  next hterminal =>
    refine wpc_of_raise (hunacceptable (fun h => ?_) _ _ _ rfl)
    simp [h.terminal] at hterminal
  next hterminal =>
    have ht : r.resolution.status.isTerminal := by
      show r.status.isTerminal
      simpa using hterminal
    rw [wpc_ite]
    split
    next hkey => exact wpc_of_raise (hunacceptable (fun h => h.key hkey) _ _ _ rfl)
    next hkey =>
      rw [wpc_bind]
      refine wpc_of_reads (getWait_reads _ _) (wp_getWait hs (fun row hrow hx => ?_)
        fun hnone exc => hrefused (fun e row h => hnone row h.stored h.of_execution)
          (fun row h => hnone row h.stored h.of_execution) _ _ _ rfl)
      have hid : row.wait.id = r.waitId := Table.key_of_get (t := w.db.waits.rows) hrow
      have hsame : ∀ row', r.Names w.db row' → row' = row := fun row' h =>
        Option.some.inj (h.stored.symm.trans hrow)
      have hlong : ¬ r.resolution.Fits → ∀ exc m w', w'.db = w.db → E exc m w' :=
        fun hfit => hunacceptable fun h => hfit h.fits
      rw [wpc_bind, hid]
      refine wpc_of_reads (suspendedExecution_reads _ _) (wp_suspendedExecution
        (fun hp e he hsus hnative => ?_) (fun hp => ?_) fun hp hnone exc => ?_)
      · -- the wait is pending and its execution suspended on it
        rw [wpc_bind]
        refine wpc_resolveExecutionWait hs ht (hC _ rfl) ?_ ?_ ?_ (fun h exc => hlong h _ _ _ rfl)
        · intro hfit row' t hinto hsound
          obtain rfl : row = row' := Option.some.inj (hrow.symm.trans hinto.before)
          show Program.wpc _ _ _ _ _ (wakeExecution e _ >>= _) _ _
          rw [wpc_bind]
          have hr : r.Claims w.db e row := ⟨⟨ht, hkey, hfit⟩, ⟨hrow, hx⟩, hp, he, hsus, hnative⟩
          exact wpc_mono (hclaim e row t _ hr hinto hsound rfl) (fun _ _ h => h)
            (fun _ _ _ h => wpc_of_done h) (fun _ _ _ h => h)
        · intro _ row' hrow' hne
          obtain rfl : row = row' := Option.some.inj (hrow.symm.trans hrow')
          exact absurd hp hne
        · intro hnone
          simp [hnone] at hrow
      · -- the wait has been resolved before
        rw [wpc_bind]
        refine wpc_resolveExecutionWait hs ht (hC _ rfl) ?_ ?_ ?_ (fun h exc => hlong h _ _ _ rfl)
        · intro _ row' t hinto _
          obtain rfl : row = row' := Option.some.inj (hrow.symm.trans hinto.before)
          exact absurd hinto.pending hp
        · intro hfit row' hrow' hne
          obtain rfl : row = row' := Option.some.inj (hrow.symm.trans hrow')
          by_cases hsamekey : row.wait.resolutionKey = some r.key
          · rw [if_pos (by exact hsamekey)]
            exact wpc_of_done (hfound row ⟨⟨ht, hkey, hfit⟩, ⟨hrow, hx⟩, hne, hsamekey⟩ _ _ rfl)
          · rw [if_neg (by exact hsamekey)]
            have hrefused' : ∀ exc m w', w'.db = w.db → E exc m w' := by
              refine hrefused (fun e row' h => ?_) (fun row' h => ?_)
              · obtain rfl := hsame row' h.toNames
                exact hp h.pending
              · obtain rfl := hsame row' h.toNames
                exact hsamekey h.same_key
            show Program.wpc _ _ _ _ _ (getWait r.executionId r.waitId >>= _) _ _
            rw [wpc_bind]
            refine wpc_of_reads (getWait_reads _ _) (wp_getWait
              (w := { w with clockReads := w.clockReads + 1 }) hs (fun _ _ _ => ?_)
              fun _ exc => hrefused' _ _ _ rfl)
            exact wpc_of_raise (hrefused' _ _ _ rfl)
        · intro hnone
          simp [hnone] at hrow
      · refine hrefused (fun e row' h => ?_) (fun row' h => ?_) _ _ _ rfl
        · obtain rfl := hsame row' h.toNames
          exact hnone e h.execution h.suspended h.native
        · obtain rfl := hsame row' h.toNames
          exact h.resolved hp

end Resolving

end OpenAgency
