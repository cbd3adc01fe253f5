/-
CallbackRetries.lean

Retries of a failed step.  A failed callback is granted a retry, and the dispatcher resumes
its execution, where the retry policy in force allows more attempts than the checkpoint of
the step counts:

    attempts = checkpoint["retry"]["attempts"] + 1 ≤ max_retries

The count stands in the checkpoint, and every callback of another kind writes a checkpoint
without it.  So the limit holds of the histories in which no such callback finds an attempt
counted (`retries_le`), and a step that reports progress between two failures is granted
one retry more than its policy allows (`progress_grantsAnother`).
-/
import OpenAgency.Lib.History
import OpenAgency.SubAgentCallbacks

namespace OpenAgency

open Interaction Relational Dict Json
open Program (bind_done within_ofExcept wp_done wp_inl wp_inl_bind wp_mono wp_of_done wp_of_raise wp_seq
  wp_then)

/-- What sub-agents have reported on an execution. -/
def reportsOf (x : Uuid) (w : World) : Option Json :=
  (w.db.executions.get x).map (·.metadata.runtimeCallbacks)

/-- The retry policy stored for a step. -/
def storedRetryPolicy (reports : Json) (stepId : String) : Dict Json :=
  let stepPolicy := (reports.dictAt "retry_policies").bind fun policies =>
    (policies.get? stepId).bind asDict?
  (stepPolicy <|> reports.dictAt "retry_policy").getD []

/-! ### Histories of callbacks -/

inductive CallbackEvent where
  /-- A callback is recorded. -/
  | callback (kind : CallbackKind) (callback : SubAgentCallbackPayload)
  /-- Any other code runs. -/
  | elsewhere (f : World → World)

/-- What a callback answers, and the notifications it has sent. -/
abbrev CallbackAnswer := Except RuntimeException CallbackReceipt × List CallbackOp

def serveCallback (cfg : CallbackConfig) (env : Environment) :
    CallbackEvent → World → Option CallbackAnswer × World
  | .callback kind callback, w =>
    let outcome := (record cfg kind callback).run (callbackHandler env) (w, [])
    (some (outcome.1, outcome.2.2), outcome.2.1)
  | .elsewhere f, w => (none, f w)

def CallbackOp.isResume : CallbackOp → Bool
  | dispatch .resume _ => true
  | _ => false

/-- A failed callback of a step that had its execution resumed. -/
def grantsRetry (x : Uuid) (stepId : String) : CallbackEvent × Option CallbackAnswer → Bool
  | (.callback .failed callback, some (_, sent)) =>
    callback.runId = x && callback.stepId = stepId && sent.any CallbackOp.isResume
  | _ => false

/-! ### When the count is kept -/

/-- The checkpoint of a step counts no failed attempt. -/
def NoAttempt (reports : Json) (stepId : String) : Prop :=
  ∀ attempts, retryAttempts reports stepId = .ok attempts → attempts = 0

/-- A callback of a step that does not complete it, does not drop a count of failed attempts
and brings no retry policy above the limit `N`. -/
structure KeepsCount (N : ℕ) (reports : Json) (kind : CallbackKind)
    (callback : SubAgentCallbackPayload) : Prop where
  uncompleted : kind ≠ .completed
  other : kind ≠ .failed → NoAttempt reports callback.stepId
  policy : kind = .failed →
    ∀ policy limit, callback.payload.get? "retry_policy" = some (.obj policy) →
      maxRetries policy = .ok limit → limit ≤ N ∧ (limit ≤ 0 → NoAttempt reports callback.stepId)

/-- The condition on an event, in the world it finds: a callback of the step that is not
answered by a stored receipt keeps the count, and other code leaves the reports alone. -/
def KeepsRetries (x : Uuid) (stepId : String) (N : ℕ) (w : World) : CallbackEvent → Prop
  | .callback kind callback => callback.runId = x → callback.stepId = stepId →
      ∀ reports, reportsOf x w = some reports →
        storedReceipt reports callback.idempotencyKey = none → KeepsCount N reports kind callback
  | .elsewhere f => reportsOf x (f w) = reportsOf x w

/-- The limit of a step is `N`, and its checkpoint counts the `granted` retries at least. -/
structure CountsRetries (stepId : String) (N : ℕ) (granted : ℕ) (reports : Json) : Prop where
  limit : maxRetries (storedRetryPolicy reports stepId) = .ok N
  counted : ∀ attempts, retryAttempts reports stepId = .ok attempts → granted ≤ attempts
  unreadable : (∀ attempts, retryAttempts reports stepId ≠ .ok attempts) → granted = 0
  within : granted ≤ N

/-! ### Reports -/

section Reports

variable {reports : Json} {stepId : String}

theorem Json.get?_of_toDict {value : Json} {d : Dict Json} (h : value.toDict = .ok d)
    (k : String) : d.get? k = value.get? k := by
  cases value with
  | obj fields =>
    cases h
    rfl
  | _ =>
    simp only [toDict] at h
    split at h
    · cases h
    · cases h
      rfl

/-- The checkpoint of a step, where the checkpoints are read the way they are copied. -/
theorem checkpointOf_of_toDict {d checkpoints : Dict Json} (h : reports.toDict = .ok d)
    (hc : (d.getJson "checkpoints").toDict = .ok checkpoints) :
    checkpointOf reports stepId = (checkpoints.get? stepId).bind asDict? := by
  have hget : checkpoints.get? stepId = (d.getJson "checkpoints").get? stepId :=
    get?_of_toDict hc stepId
  rw [hget, getJson, get?_of_toDict h, checkpointOf, dictAt]
  rcases reports.get? "checkpoints" with - | value
  · rfl
  · cases value <;> rfl

variable {callback : SubAgentCallbackPayload} {kind : CallbackKind} {event : RecordedEvent}
  {entry updated : Dict Json} {receipt : CallbackReceipt} {now : Time}

/-- **What a callback changes of the reports**: the checkpoint of its step, and nothing that
the retry policies are read from. -/
theorem reportsWith_ok
    (h : reportsWith reports callback kind event entry receipt now = .ok updated) :
    (∀ k ∈ ["retry_policies", "retry_policy"], updated.get? k = reports.get? k) ∧
      ∀ stepId, checkpointOf (.obj updated) stepId =
        if stepId = callback.stepId then some entry else checkpointOf reports stepId := by
  obtain ⟨d, hd, h⟩ := bind_eq_ok.mp h
  obtain ⟨checkpoints, hc, h⟩ := bind_eq_ok.mp h
  have hupdated : updated.get? "checkpoints" =
      some (.obj (checkpoints.set callback.stepId (.obj entry))) ∧
      ∀ k ∈ ["retry_policies", "retry_policy"], updated.get? k = d.get? k := by
    split at h
    · cases h
      refine ⟨?_, fun k hk => ?_⟩
      · rw [get?_set_ne (by decide), get?_set_ne (by decide),
          get?_set_ne (by decide), get?_set_self]
      · simp only [List.mem_cons, List.not_mem_nil, or_false] at hk
        rcases hk with rfl | rfl <;> simp [get?_set_ne]
    · obtain ⟨idempotency, -, h⟩ := bind_eq_ok.mp h
      cases h
      refine ⟨?_, fun k hk => ?_⟩
      · rw [get?_set_ne (by decide), get?_set_ne (by decide),
          get?_set_ne (by decide), get?_set_ne (by decide), get?_set_self]
      · simp only [List.mem_cons, List.not_mem_nil, or_false] at hk
        rcases hk with rfl | rfl <;> simp [get?_set_ne]
  refine ⟨fun k hk => (hupdated.2 k hk).trans (get?_of_toDict hd k), fun stepId => ?_⟩
  have hread : checkpointOf (.obj updated) stepId =
      ((checkpoints.set callback.stepId (.obj entry)).get? stepId).bind asDict? := by
    have hdict : (obj updated).get? "checkpoints" =
        some (.obj (checkpoints.set callback.stepId (.obj entry))) := hupdated.1
    rw [checkpointOf, dictAt, hdict]
    rfl
  rw [hread]
  split
  next hstep =>
    rw [hstep, get?_set_self]
    rfl
  next hstep => rw [get?_set_ne hstep, checkpointOf_of_toDict hd hc]

theorem storedRetryPolicy_congr {reports' : Json}
    (h : ∀ k ∈ ["retry_policies", "retry_policy"], reports'.get? k = reports.get? k) :
    storedRetryPolicy reports' stepId = storedRetryPolicy reports stepId := by
  simp only [storedRetryPolicy, dictAt, h "retry_policies" (by decide),
    h "retry_policy" (by decide)]

theorem retryAttempts_congr {reports' : Json}
    (h : checkpointOf reports' stepId = checkpointOf reports stepId) :
    retryAttempts reports' stepId = retryAttempts reports stepId := by
  rw [retryAttempts, retryAttempts, h]

end Reports

/-! ### The count of a new checkpoint -/

section Checkpoint

variable {callback : SubAgentCallbackPayload}

theorem Dict.mem_restrict {d : Dict Json} {keys : List String} {p : String × Json}
    (h : p ∈ d.restrict keys) : p.1 ∈ keys := by
  obtain ⟨k, hk, hp⟩ := List.mem_filterMap.mp h
  obtain ⟨v, -, rfl⟩ := Option.map_eq_some_iff.mp hp
  exact hk

/-- A structured status says nothing about retries. -/
theorem checkpointStatusUpdate_ne_retry (statusUpdate : Option (Dict Json)) :
    ∀ p ∈ checkpointStatusUpdate statusUpdate, p.1 ≠ "retry" := by
  intro p hp
  rcases statusUpdate with - | normalized
  · cases hp
  · simp only [checkpointStatusUpdate, List.cons_append, List.mem_cons, List.mem_append,
      Option.mem_toList, Option.map_eq_some_iff] at hp
    rcases hp with rfl | ⟨v, -, rfl⟩ | hp
    · show "status_update" ≠ "retry"
      decide
    · show "subagent_status" ≠ "retry"
      decide
    · have hkey : p.1 ∈ statusDetailFields := mem_restrict hp
      intro h
      rw [h] at hkey
      exact absurd hkey (by decide)

theorem checkpoint_retry (kind : CallbackKind) (source status : String) (event : RecordedEvent)
    (previous retry : Option (Dict Json)) (ready : List String) :
    (checkpoint callback kind source status event previous retry ready).get? "retry" =
      retry.map .obj := by
  have hrecovered : ∀ d : Dict Json, ∀ recovery, (d.set "supervisor_recovery" recovery).get?
      "retry" = d.get? "retry" := fun d recovery => get?_set_ne (by decide)
  have hready : ∀ d : Dict Json, ∀ steps, (d.set "ready_dependent_step_ids" steps).get?
      "retry" = d.get? "retry" := fun d steps => get?_set_ne (by decide)
  have hretried : ∀ d : Dict Json, d.get? "retry" = none →
      (retry.elim d fun state => d.set "retry" (.obj state)).get? "retry" = retry.map .obj := by
    intro d hd
    rcases retry with - | state
    · exact hd
    · exact get?_set_self d "retry" _
  simp only [checkpoint]
  split
  · rw [hrecovered]
    apply hretried
    rw [get?_union_of_notMem _ _ (checkpointStatusUpdate_ne_retry _)]
    rfl
  · rw [hready, hrecovered]
    apply hretried
    rw [get?_union_of_notMem _ _ (checkpointStatusUpdate_ne_retry _)]
    rfl

/-- The attempts a checkpoint counts are those of its `retry` entry. -/
theorem retryAttempts_of_checkpoint {reports : Json} {stepId : String} {entry : Dict Json}
    (h : checkpointOf reports stepId = some entry) {retry : Option (Dict Json)}
    (hretry : entry.get? "retry" = retry.map .obj) :
    retryAttempts reports stepId =
      (((retry.getD []).getJson "attempts").orElse (.num 0)).toInt := by
  simp only [retryAttempts, h, Option.bind_some, hretry]
  rcases retry with - | state <;> rfl

end Checkpoint

/-! ### What a callback leaves -/

/-- The reports that a callback leaves, and the status of its checkpoint. -/
structure CheckpointLeft (kind : CallbackKind) (callback : SubAgentCallbackPayload)
    (reports : Json) (status : String) (updated : Dict Json) : Prop where
  policies : ∀ k ∈ ["retry_policies", "retry_policy"], updated.get? k = reports.get? k
  others : ∀ stepId, stepId ≠ callback.stepId →
    checkpointOf (.obj updated) stepId = checkpointOf reports stepId
  entry : ∃ retry entry,
    statusAfterRetryPolicy reports callback kind.checkpointStatus = .ok (status, retry) ∧
      checkpointOf (.obj updated) callback.stepId = some entry ∧
      entry.get? "retry" = retry.map .obj

/-- The operation overwrites no execution. -/
def SparesExecutions : RuntimeOp → Prop
  | .db (.updateExecution _) => False
  | _ => True

/-- The coroutine overwrites no execution. -/
abbrev KeepsExecutions {α : Type} (p : Coroutine α) : Prop :=
  p.Within (fun _ _ => True) SparesExecutions

namespace KeepsExecutions

theorem wp {env : Environment} {α : Type} {p : Coroutine α} (h : KeepsExecutions p) (w : World) :
    p.wp (handler env) (fun _ w' => w'.db.executions = w.db.executions)
      (fun _ w' => w'.db.executions = w.db.executions) w := by
  refine Program.Within.invariant (fun o w' hw' ho => ⟨trivial, ?_⟩) h rfl
  cases o with
  | db o =>
    refine (DbOp.exec_executions (fun e he => ?_) _).trans hw'
    subst he
    exact ho
  | proc | ext | utcNow | uuid4 => exact hw'

theorem query {o : DbOp} (h : SparesExecutions (.db o)) : KeepsExecutions (OpenAgency.query o) :=
  ⟨h, fun _ _ => trivial⟩

theorem ofExcept {α : Type} (r : Except RuntimeException α) :
    KeepsExecutions (Program.ofExcept r : Coroutine α) := within_ofExcept r

theorem uuid4 : KeepsExecutions OpenAgency.uuid4 := ⟨trivial, fun _ _ => trivial⟩

theorem utcNow : KeepsExecutions OpenAgency.utcNow := ⟨trivial, fun _ _ => trivial⟩

theorem createExecutionWait (wait : ExecutionWait) :
    KeepsExecutions (OpenAgency.createExecutionWait wait) := by
  refine ⟨trivial, fun inserted _ => ?_⟩
  rcases inserted with e | -
  · refine ⟨trivial, fun existing _ => ?_⟩
    rcases existing with - | existing
    · exact within_ofExcept (.error e)
    · exact within_ofExcept existing.toWait
  · exact within_ofExcept (ExecutionWaitORM.ofWait wait).toWait

/-- A wait that is built and stored. -/
theorem storeWait (build : Uuid → Time → Time → Except RuntimeException ExecutionWait) :
    KeepsExecutions (do
      let id ← OpenAgency.uuid4
      let createdAt ← OpenAgency.utcNow
      let updatedAt ← OpenAgency.utcNow
      let wait ← Program.ofExcept (build id createdAt updatedAt)
      let created ← OpenAgency.createExecutionWait wait
      return some created) := by
  refine .bind uuid4 fun id => .bind utcNow fun createdAt => .bind utcNow fun updatedAt => ?_
  refine .bind (within_ofExcept _) fun wait => ?_
  exact .bind (createExecutionWait wait) fun _ => trivial

theorem createDurableWait (execution : Execution) (callback : SubAgentCallbackPayload)
    (eventId : Uuid) (status : String) (payload : Dict Json) (source : String) :
    KeepsExecutions
      (OpenAgency.createDurableWait execution callback eventId status payload source) := by
  rw [OpenAgency.createDurableWait]
  split
  · trivial
  · exact storeWait _

theorem appendEvent (st : NativeExecutionState) (eventType : ExecutionEventType)
    (labels : EventLabels) : KeepsExecutions (OpenAgency.appendEvent st eventType labels) := by
  rw [OpenAgency.appendEvent]
  refine ⟨trivial, fun id _ => ⟨trivial, fun now _ => ⟨trivial, fun saved _ => ?_⟩⟩⟩
  exact within_ofExcept saved

theorem emitExecutionWaiting (execution : Execution) (parentEventId : Uuid)
    (wait : Option ExecutionWait) :
    KeepsExecutions (OpenAgency.emitExecutionWaiting execution parentEventId wait) := by
  rcases wait with - | wait
  · trivial
  · rw [OpenAgency.emitExecutionWaiting]
    apply (query (o := .listEvents execution.id) trivial).bind
    intro events
    exact (appendEvent _ _ _).bind fun _ => trivial

end KeepsExecutions

section Runs

variable {cfg : CallbackConfig} {env : Environment} {x : Uuid} {kind : CallbackKind}
  {callback : SubAgentCallbackPayload} {w : World}

/-- The world after a callback on the execution `e`: its reports are `updated`. -/
def ReportsSaved (e : Execution) (updated : Dict Json) (w w' : World) : Prop :=
  ∀ x, reportsOf x w' = if x = e.id then some (.obj updated) else reportsOf x w

theorem reportsOf_congr {w' : World} (h : w'.db.executions = w.db.executions) (x : Uuid) :
    reportsOf x w' = reportsOf x w := by
  rw [reportsOf, reportsOf, h]

theorem reportsSaved_of_save {e e' : Execution} {updated : Dict Json} {w₁ w₂ : World}
    (h₁ : w₁.db.executions = w.db.executions) (h₂ : w₂.db.executions = w₁.db.executions.save e')
    (hid : e'.id = e.id) (hreports : e'.metadata.runtimeCallbacks = .obj updated) :
    ReportsSaved e updated w w₂ := by
  intro y
  rw [reportsOf, h₂, h₁, Table.get_save, hid]
  split
  · rw [Option.map_some, hreports]
  · rfl

/-- **A callback without a receipt**: it writes the reports with its checkpoint, or fails
before or after it has. -/
theorem wp_writeCheckpoint (e : Execution) :
    (writeCheckpoint cfg kind callback e).wp (handler env)
      (fun recorded w' => ∃ updated,
        CheckpointLeft kind callback e.metadata.runtimeCallbacks recorded.checkpointStatus
          updated ∧ ReportsSaved e updated w w')
      (fun _ w' => (∀ x, reportsOf x w' = reportsOf x w) ∨ ∃ status updated,
        CheckpointLeft kind callback e.metadata.runtimeCallbacks status updated ∧
          ReportsSaved e updated w w') w := by
  rw [writeCheckpoint, Program.wp_bind]
  rcases hstatus : statusAfterRetryPolicy e.metadata.runtimeCallbacks callback
    kind.checkpointStatus with exc | ⟨status, retry⟩
  · exact wp_of_raise (.inl fun _ => rfl)
  · apply wp_of_done
    rw [wp_uuid4, wp_utcNow]
    refine wp_then ((KeepsExecutions.query (o := .saveEvent _) trivial).wp _)
      (fun saved w₁ h₁ => ?_) (fun _ w₁ h₁ => .inl (reportsOf_congr h₁))
    refine wp_then ((KeepsExecutions.ofExcept saved).wp w₁) (fun _ w₂ h₂ => ?_)
      (fun _ w₂ h₂ => .inl (reportsOf_congr (h₂.trans h₁)))
    refine wp_then ((KeepsExecutions.createDurableWait ..).wp w₂) (fun wait w₃ h₃ => ?_)
      (fun _ w₃ h₃ => .inl (reportsOf_congr (h₃.trans (h₂.trans h₁))))
    refine wp_then ((KeepsExecutions.ofExcept _).wp w₃) (fun ready w₄ h₄ => ?_)
      (fun _ w₄ h₄ => .inl (reportsOf_congr (h₄.trans (h₃.trans (h₂.trans h₁)))))
    have hkept : w₄.db.executions = w.db.executions := h₄.trans (h₃.trans (h₂.trans h₁))
    rw [wp_utcNow, Program.wp_bind]
    rcases hupdated : reportsWith e.metadata.runtimeCallbacks callback kind _ _ _ _ with
      exc | updated
    · exact wp_of_raise (.inl (reportsOf_congr hkept))
    · apply wp_of_done
      obtain ⟨hpolicies, hcheckpoints⟩ := reportsWith_ok hupdated
      have hleft : CheckpointLeft kind callback e.metadata.runtimeCallbacks status updated :=
        { policies := hpolicies
          others := fun stepId hne => (hcheckpoints stepId).trans (if_neg hne)
          entry := ⟨retry, _, hstatus, (hcheckpoints _).trans (if_pos rfl),
            checkpoint_retry ..⟩ }
      rw [wp_updateExecution]
      apply wp_then ((KeepsExecutions.emitExecutionWaiting ..).wp _)
      · intro _ w₅ h₅
        exact wp_of_done ⟨updated, hleft, reportsSaved_of_save hkept h₅ rfl rfl⟩
      · intro _ w₅ h₅
        exact .inr ⟨status, updated, hleft, reportsSaved_of_save hkept h₅ rfl rfl⟩

/-! ### What a call leaves -/

/-- What one callback leaves of the reports of `x` and of the notifications: it has written
nothing and resumed nothing, or it has written its checkpoint and, if it has failed, resumed
only where it queued a retry. -/
inductive CallbackOutcome (x : Uuid) (kind : CallbackKind) (callback : SubAgentCallbackPayload)
    (w : World) : CallbackState → Prop
  | unwritten {w' : World} {sent : List CallbackOp} (hkept : reportsOf x w' = reportsOf x w)
      (hsent : sent.any CallbackOp.isResume = false) : CallbackOutcome x kind callback w (w', sent)
  | written {w' : World} {sent : List CallbackOp} {reports : Json} {status : String}
      {updated : Dict Json} (hreports : reportsOf callback.runId w = some reports)
      (hfresh : storedReceipt reports callback.idempotencyKey = none)
      (hleft : CheckpointLeft kind callback reports status updated)
      (hsaved : reportsOf x w' = if x = callback.runId then some (.obj updated) else reportsOf x w)
      (hsent : kind = .failed → sent.any CallbackOp.isResume → status = "retry_queued") :
      CallbackOutcome x kind callback w (w', sent)

/-- The dispatcher does not write the reports of `x`. -/
def KeepsReports (cfg : CallbackConfig) (env : Environment) (x : Uuid) : Prop :=
  ∀ action runId w,
    reportsOf x ((cfg.dispatcher action runId).run (handler env) w).2 = reportsOf x w

theorem wp_notifyDispatcher (hdispatcher : KeepsReports cfg env x) {runId : Uuid} {status : String}
    {I : CallbackState → Prop} {s : CallbackState} (hs : I s)
    (hnotify : ∀ action w', kind.shouldDispatch status → reportsOf x w' = reportsOf x s.1 →
      I (w', s.2 ++ [.dispatch action runId])) :
    (notifyDispatcher cfg kind runId status).wp (callbackHandler env) (fun _ => I) (fun _ => I)
      s := by
  rw [notifyDispatcher]
  split
  · exact wp_of_done hs
  next action haction =>
    split
    next hdispatch =>
      rw [notify, Program.wp_performRight_bind, wp_inl]
      rw [Program.wp_state (I := fun w' => I (w', _))]
      exact hnotify action _ hdispatch (hdispatcher action runId s.1)
    · exact wp_of_done hs

/-- A webhook resumes nothing. -/
theorem CallbackOutcome.send {w' : World} {sent : List CallbackOp}
    (h : CallbackOutcome x kind callback w (w', sent)) (webhook : OutboundWebhook) :
    CallbackOutcome x kind callback w (w', sent ++ [.send webhook]) := by
  have hany : (sent ++ [CallbackOp.send webhook]).any CallbackOp.isResume =
      sent.any CallbackOp.isResume := by
    simp [CallbackOp.isResume]
  cases h with
  | unwritten hkept hsent => exact .unwritten hkept (hany.trans hsent)
  | written hreports hfresh hleft hsaved hsent =>
    exact .written hreports hfresh hleft hsaved (by rwa [hany])

theorem wp_notifyOutboundWebhook (recorded : Recorded) {s : CallbackState}
    (hs : CallbackOutcome x kind callback w s) :
    (notifyOutboundWebhook cfg kind callback recorded).wp (callbackHandler env)
      (fun _ => CallbackOutcome x kind callback w) (fun _ => CallbackOutcome x kind callback w)
      s := by
  rw [notifyOutboundWebhook]
  split
  · exact wp_of_done hs
  · rw [notify, ← bind_done (Program.performRight _), Program.wp_performRight_bind]
    exact wp_of_done (hs.send _)

theorem wp_recordFresh (hdispatcher : KeepsReports cfg env x) {e : Execution}
    (hstored : w.db.executions.get callback.runId = some e)
    (hfresh : storedReceipt e.metadata.runtimeCallbacks callback.idempotencyKey = none) :
    (recordFresh cfg kind callback e).wp (callbackHandler env)
      (fun _ => CallbackOutcome x kind callback w) (fun _ => CallbackOutcome x kind callback w)
      (w, []) := by
  have hid : e.id = callback.runId := Table.key_of_get hstored
  have hreports : reportsOf callback.runId w = some e.metadata.runtimeCallbacks := by
    rw [reportsOf, hstored]
    rfl
  rw [recordFresh, wp_inl_bind]
  refine wp_mono (wp_writeCheckpoint e) (fun recorded w' h => ?_) (fun exc w' h => ?_)
  · obtain ⟨updated, hleft, hsaved⟩ := h
    have hx := hid ▸ hsaved x
    refine wp_seq (wp_notifyDispatcher (I := CallbackOutcome x kind callback w) hdispatcher
      (.written hreports hfresh hleft hx nofun) ?_) fun _ s hs => ?_
    · intro action w'' hdispatch hkept
      refine .written hreports hfresh hleft (hkept.trans hx) fun hfailed _ => ?_
      subst hfailed
      exact of_decide_eq_true hdispatch
    · exact wp_seq (wp_notifyOutboundWebhook recorded hs) fun _ _ h => wp_of_done h
  · rcases h with hkept | ⟨status, updated, hleft, hsaved⟩
    · exact .unwritten (hkept x) rfl
    · exact .written hreports hfresh hleft (hid ▸ hsaved x) nofun

/-- **What one callback leaves**, whichever way it ends. -/
theorem record_outcome (hdispatcher : KeepsReports cfg env x) (w : World) :
    CallbackOutcome x kind callback w
      ((record cfg kind callback).run (callbackHandler env) (w, [])).2 := by
  rw [← Program.wp_state (I := CallbackOutcome x kind callback w), record, wp_inl_bind]
  rw [← bind_done (getExecution callback.runId), wp_getExecution, wp_done]
  rcases hstored : w.db.executions.get callback.runId with - | e
  · exact wp_of_raise (.unwritten rfl rfl)
  · dsimp only
    rcases hfresh : storedReceipt e.metadata.runtimeCallbacks callback.idempotencyKey with
      - | stored
    · exact wp_recordFresh hdispatcher hstored hfresh
    · -- a replay reads the clock and validates what it has found
      dsimp only
      rw [existingReceipt, wp_inl_bind, ← bind_done utcNow, wp_utcNow,
        wp_done]
      rcases CallbackReceipt.validate cfg (env.clock w.clockReads) stored with exc | receipt
      · exact wp_of_raise (.unwritten rfl rfl)
      · exact wp_of_done (.unwritten rfl rfl)

end Runs

/-! ### The count over a history -/

section History

variable {cfg : CallbackConfig} {env : Environment} {x : Uuid} {stepId : String} {N granted : ℕ}
  {kind : CallbackKind} {callback : SubAgentCallbackPayload} {reports : Json} {status : String}
  {updated : Dict Json}

/-- A policy that a failed callback is under: its own, if it brings one. -/
theorem retryPolicyFor_eq (reports : Json) (callback : SubAgentCallbackPayload) :
    (∃ policy, callback.payload.get? "retry_policy" = some (.obj policy) ∧
        retryPolicyFor reports callback = policy) ∨
      retryPolicyFor reports callback = storedRetryPolicy reports callback.stepId := by
  rw [retryPolicyFor]
  split
  next policy hpolicy => exact .inl ⟨policy, hpolicy, rfl⟩
  · exact .inr rfl

/-- The limit a failed callback is under is at most that of the step, and one that allows no
retry is found where no attempt is counted. -/
theorem KeepsCount.limit_le (h : KeepsCount N reports .failed callback)
    (hlimit : maxRetries (storedRetryPolicy reports callback.stepId) = .ok N) {limit : ℤ}
    (hmax : maxRetries (retryPolicyFor reports callback) = .ok limit) :
    limit ≤ N ∧ (limit ≤ 0 → NoAttempt reports callback.stepId ∨ N = 0) := by
  rcases retryPolicyFor_eq reports callback with ⟨policy, hpolicy, heq⟩ | heq
  · obtain ⟨hle, hnone⟩ := h.policy rfl policy limit hpolicy (heq ▸ hmax)
    exact ⟨hle, fun h => .inl (hnone h)⟩
  · rw [heq, hlimit] at hmax
    cases hmax
    exact ⟨le_refl _, fun h => .inr (by omega)⟩

/-- The attempts that a new checkpoint counts. -/
theorem CheckpointLeft.attempts (h : CheckpointLeft kind callback reports status updated) :
    ∃ retry, statusAfterRetryPolicy reports callback kind.checkpointStatus = .ok (status, retry) ∧
      retryAttempts (.obj updated) callback.stepId =
        (((retry.getD []).getJson "attempts").orElse (.num 0)).toInt := by
  obtain ⟨retry, entry, hstatus, hentry, hretry⟩ := h.entry
  exact ⟨retry, hstatus, retryAttempts_of_checkpoint hentry hretry⟩

theorem CheckpointLeft.limit (h : CheckpointLeft kind callback reports status updated)
    (hlimit : maxRetries (storedRetryPolicy reports stepId) = .ok N) :
    maxRetries (storedRetryPolicy (.obj updated) stepId) = .ok N := by
  have hpolicies : ∀ k ∈ ["retry_policies", "retry_policy"],
      (obj updated).get? k = reports.get? k := h.policies
  rw [storedRetryPolicy_congr hpolicies, hlimit]

/-- A callback of another step. -/
theorem CountsRetries.otherStep (h : CountsRetries stepId N granted reports)
    (hleft : CheckpointLeft kind callback reports status updated) (hne : stepId ≠ callback.stepId) :
    CountsRetries stepId N granted (.obj updated) := by
  have hattempts := retryAttempts_congr (hleft.others stepId hne)
  exact ⟨hleft.limit h.limit, hattempts ▸ h.counted, hattempts ▸ h.unreadable, h.within⟩

/-- A failed callback: without retries its checkpoint counts nothing, and otherwise one
attempt more than the last. -/
theorem statusAfterRetryPolicy_failed {retry : Option (Dict Json)}
    (h : statusAfterRetryPolicy reports callback "failed" = .ok (status, retry)) :
    ∃ limit, maxRetries (retryPolicyFor reports callback) = .ok limit ∧
      ((limit ≤ 0 ∧ status = "failed" ∧ retry = none) ∨
        ∃ attempts, retryAttempts reports callback.stepId = .ok attempts ∧
          retry = some (retryState callback (attempts + 1) limit) ∧
          (status = "retry_queued" → attempts + 1 ≤ limit)) := by
  rw [statusAfterRetryPolicy, if_neg (by decide)] at h
  obtain ⟨limit, hmax, h⟩ := bind_eq_ok.mp h
  refine ⟨limit, hmax, ?_⟩
  split at h
  next hnone =>
    cases h
    exact .inl ⟨hnone, rfl, rfl⟩
  · obtain ⟨attempts, hcount, h⟩ := bind_eq_ok.mp h
    cases h
    refine .inr ⟨attempts, hcount, rfl, fun hqueued => ?_⟩
    by_contra hmore
    rw [if_neg hmore] at hqueued
    exact absurd hqueued (by decide)

/-- Where no attempt is counted, no retry has been granted. -/
theorem CountsRetries.granted_eq_zero (h : CountsRetries stepId N granted reports)
    (hnone : NoAttempt reports stepId) : granted = 0 := by
  rcases hattempts : retryAttempts reports stepId with exc | attempts
  · exact h.unreadable fun attempts heq => by rw [hattempts] at heq; cases heq
  · have hle := h.counted attempts hattempts
    rw [hnone attempts hattempts] at hle
    exact Nat.le_zero.mp (by exact_mod_cast hle)

/-- A checkpoint without a count, where no retry has been granted. -/
theorem CountsRetries.restart (h : CountsRetries stepId N granted reports) (hzero : granted = 0)
    (hlimit : maxRetries (storedRetryPolicy (.obj updated) stepId) = .ok N)
    (hattempts : retryAttempts (.obj updated) stepId = .ok 0) :
    CountsRetries stepId N granted (.obj updated) := by
  refine ⟨hlimit, fun attempts heq => ?_, fun _ => hzero, h.within⟩
  rw [hattempts] at heq
  cases heq
  exact_mod_cast hzero.le

/-- **A callback of the step**: a retry that it is granted is counted, and is within the
limit. -/
theorem CountsRetries.sameStep (h : CountsRetries callback.stepId N granted reports)
    (hkeeps : KeepsCount N reports kind callback)
    (hleft : CheckpointLeft kind callback reports status updated) :
    CountsRetries callback.stepId N
      (granted + if kind = .failed ∧ status = "retry_queued" then 1 else 0) (.obj updated) := by
  have hlimit := hleft.limit h.limit
  obtain ⟨retry, hstatus, hattempts⟩ := hleft.attempts
  by_cases hfailed : kind = .failed
  · subst hfailed
    obtain ⟨limit, hmax, hcase⟩ := statusAfterRetryPolicy_failed hstatus
    obtain ⟨hle, hzero⟩ := hkeeps.limit_le h.limit hmax
    rcases hcase with ⟨hnone, rfl, rfl⟩ | ⟨attempts, hcount, rfl, hqueued⟩
    · rw [if_neg (by decide)]
      refine h.restart ?_ hlimit hattempts
      rcases hzero hnone with hno | rfl
      · exact h.granted_eq_zero hno
      · exact Nat.le_zero.mp h.within
    · have hgranted := h.counted attempts hcount
      have hwithin := h.within
      have hcounts : retryAttempts (.obj updated) callback.stepId = .ok (attempts + 1) :=
        hattempts.trans (toInt_num_orElse (attempts + 1))
      refine ⟨hlimit, fun attempts' heq => ?_, fun hunreadable => ?_, ?_⟩
      · rw [hcounts] at heq
        cases heq
        split <;> push_cast <;> omega
      · exact absurd hcounts (hunreadable _)
      · split
        next hand =>
          have hfits := hqueued hand.2
          omega
        · exact hwithin
  · rw [if_neg fun hand => hfailed hand.1]
    have hnone := h.granted_eq_zero (hkeeps.other hfailed)
    refine h.restart hnone hlimit ?_
    have hother : kind.checkpointStatus ≠ "failed" := by
      cases kind with
      | failed => exact absurd rfl hfailed
      | _ => decide
    rw [statusAfterRetryPolicy, if_pos hother] at hstatus
    cases hstatus
    exact hattempts

theorem CountsRetries.mono {fewer : ℕ} (h : CountsRetries stepId N granted reports)
    (hle : fewer ≤ granted) : CountsRetries stepId N fewer reports where
  limit := h.limit
  counted attempts heq := le_trans (by exact_mod_cast hle) (h.counted attempts heq)
  unreadable hne := Nat.le_zero.mp (h.unreadable hne ▸ hle)
  within := hle.trans h.within

theorem grantsRetry_iff {receipt : Except RuntimeException CallbackReceipt}
    {sent : List CallbackOp} :
    grantsRetry x stepId (.callback kind callback, some (receipt, sent)) ↔
      kind = .failed ∧ callback.runId = x ∧ callback.stepId = stepId ∧
        sent.any CallbackOp.isResume := by
  cases kind with
  | failed => simp [grantsRetry, and_assoc]
  | _ => simp [grantsRetry]

/-- One callback keeps the count. -/
theorem CountsRetries.outcome {w : World} {s : CallbackState}
    (receipt : Except RuntimeException CallbackReceipt) (hreports : reportsOf x w = some reports)
    (h : CountsRetries stepId N granted reports)
    (hkeeps : KeepsRetries x stepId N w (.callback kind callback))
    (houtcome : CallbackOutcome x kind callback w s) :
    ∃ reports', reportsOf x s.1 = some reports' ∧ CountsRetries stepId N
      (granted + if grantsRetry x stepId (.callback kind callback, some (receipt, s.2))
        then 1 else 0) reports' := by
  cases houtcome with
  | unwritten hkept hsent =>
    refine ⟨reports, hkept.trans hreports, ?_⟩
    rw [if_neg fun hgrants => ?_]
    · exact h
    · exact absurd ((grantsRetry_iff.mp hgrants).2.2.2) (by simp [hsent])
  | @written w' sent reports₁ status updated hreports₁ hfresh hleft hsaved hsent =>
    by_cases hx : x = callback.runId
    · subst hx
      cases hreports.symm.trans hreports₁
      refine ⟨.obj updated, hsaved.trans (if_pos rfl), ?_⟩
      by_cases hstep : stepId = callback.stepId
      · subst hstep
        have hcounted := h.sameStep (hkeeps rfl rfl reports hreports hfresh) hleft
        refine hcounted.mono (Nat.add_le_add_left ?_ granted)
        by_cases hgrants : grantsRetry callback.runId callback.stepId
          (.callback kind callback, some (receipt, sent))
        · obtain ⟨hfailed, -, -, hresumed⟩ := grantsRetry_iff.mp hgrants
          rw [if_pos hgrants, if_pos ⟨hfailed, hsent hfailed hresumed⟩]
        · rw [if_neg hgrants]
          exact Nat.zero_le _
      · rw [if_neg fun hgrants => hstep (grantsRetry_iff.mp hgrants).2.2.1.symm]
        exact h.otherStep hleft hstep
    · refine ⟨reports, (hsaved.trans (if_neg hx)).trans hreports, ?_⟩
      rw [if_neg fun hgrants => hx (grantsRetry_iff.mp hgrants).2.1.symm]
      exact h

/-- One event keeps the count. -/
theorem CountsRetries.event {w : World} {i : CallbackEvent} (hdispatcher : KeepsReports cfg env x)
    (hreports : reportsOf x w = some reports) (h : CountsRetries stepId N granted reports)
    (hkeeps : KeepsRetries x stepId N w i) :
    ∃ reports', reportsOf x (serveCallback cfg env i w).2 = some reports' ∧
      CountsRetries stepId N
        (granted + if grantsRetry x stepId (i, (serveCallback cfg env i w).1) then 1 else 0)
        reports' := by
  cases i with
  | elsewhere f => exact ⟨reports, hkeeps.trans hreports, h⟩
  | callback kind callback => exact h.outcome _ hreports hkeeps (record_outcome hdispatcher w)

/-- **Retries are bounded**: in a history of any callbacks and any other code, that starts
where the policy of the step allows `N` retries and in which no callback of the step drops
the count, completes the step or raises the limit, at most `N` failed callbacks of the step
are granted a retry. -/
theorem retries_le {w w' : World} {h : List (CallbackEvent × Option CallbackAnswer)}
    (hdispatcher : KeepsReports cfg env x) (hreports : reportsOf x w = some reports)
    (hlimit : maxRetries (storedRetryPolicy reports stepId) = .ok N)
    (hstart : ∀ attempts, retryAttempts reports stepId = .ok attempts → 0 ≤ attempts)
    (hserves : Serves (serveCallback cfg env) (KeepsRetries x stepId N) w h w') :
    h.countP (grantsRetry x stepId) ≤ N := by
  have hcounts : ∃ reports', reportsOf x w' = some reports' ∧
      CountsRetries stepId N (h.countP (grantsRetry x stepId)) reports' := by
    refine hserves.invariant (I := fun h w => ∃ reports, reportsOf x w = some reports ∧
      CountsRetries stepId N (h.countP (grantsRetry x stepId)) reports) ?_ ?_
    · exact ⟨reports, hreports, hlimit, hstart, fun _ => rfl, Nat.zero_le N⟩
    · rintro h t i ⟨reports, hreports, hcounts⟩ hkeeps
      rw [List.countP_append, List.countP_singleton]
      exact hcounts.event hdispatcher hreports hkeeps
  obtain ⟨reports', -, hcounts⟩ := hcounts
  exact hcounts.within

end History

/-! ### A report between two failures -/

namespace RetriedStep

/-- A step may be retried once. -/
def reports : Json := .obj [("retry_policy", .obj [("max_retries", .num 1)])]

def world : World where
  db.executions := Table.empty.save {
    id := 1
    workflowId := "deploy"
    runtimeAdapterId := "native"
    createdAt := 0
    metadata.runtimeCallbacks := reports }

def payload : SubAgentCallbackPayload := { runId := 1, stepId := "build", agentId := "builder" }

/-- A callback of the step. -/
def report (kind : CallbackKind) : CallbackEvent := .callback kind payload

/-- Callbacks of the step, none of which completes it. -/
def Uncompleted (_ : World) : CallbackEvent → Prop
  | .callback kind callback => callback.runId = 1 ∧ callback.stepId = "build" ∧ kind ≠ .completed
  | .elsewhere _ => False

abbrev serve : CallbackEvent → World → Option CallbackAnswer × World :=
  serveCallback {} .silent

/-- Failures on their own keep the count. -/
theorem keepsRetries_failed (w : World) : KeepsRetries 1 "build" 1 w (report .failed) := by
  intro _ _ reports _ _
  exact ⟨by decide, fun h => absurd rfl h, fun _ policy limit h => by cases h⟩

end RetriedStep

open RetriedStep in
theorem retries_le_twoFailures :
    [(report .failed, (serve (report .failed) world).1),
      (report .failed, (serve (report .failed) (serve (report .failed) world).2).1)].countP
        (grantsRetry 1 "build") ≤ 1 := by
  have hdispatcher : KeepsReports {} .silent 1 := fun _ _ _ => rfl
  have hreports : reportsOf 1 world = some reports := rfl
  apply retries_le hdispatcher hreports
  · rfl
  · intro attempts h
    cases h
    exact le_refl 0
  · exact .call (.call .start (keepsRetries_failed _)) (keepsRetries_failed _)

open RetriedStep in
/-- A step that may be retried once fails, reports progress and fails again: it is granted
two retries. -/
theorem progress_grantsAnother :
    reportsOf 1 world = some reports ∧ maxRetries (storedRetryPolicy reports "build") = .ok 1 ∧
      ¬ ∀ h w', Serves serve Uncompleted world h w' → h.countP (grantsRetry 1 "build") ≤ 1 := by
  refine ⟨rfl, rfl, fun hall => ?_⟩
  have hfailed : ∀ w, Uncompleted w (report .failed) := fun _ => ⟨rfl, rfl, by decide⟩
  have hprogress : ∀ w, Uncompleted w (report .progress) := fun _ => ⟨rfl, rfl, by decide⟩
  have hle := hall _ _ (.call (.call (.call .start (hfailed world)) (hprogress _)) (hfailed _))
  revert hle
  decide +kernel

end OpenAgency
