/-
FireProtocol.lean

How far a coroutine of the scheduler has come with a fire.  Its phase records the last
reading of the clock, the claim it holds and whether it has written an execution under
it, and how far `trigger_now` is: which schedule it loaded, whether the concurrency check
let it through, the identifier it drew for the execution, and whether the execution's row
has been written and read back.

`fireProtocol` says which operations a phase allows: an execution is only written under
the identifier drawn for it and with the trigger of the schedule that is being fired, and
only the claim that is held is marked.  Every coroutine of the scheduler follows it,
whichever of its operations fail.
-/
import OpenAgency.Lib.Protocol
import OpenAgency.Scheduler

namespace OpenAgency

open Relational Interaction Program RuntimeOp Json

/-! ### Phases -/

/-- A claim that was acquired, and until when. -/
structure FireLease where
  scheduleId : String
  fireAt : Time
  expiresAt : Time
  deriving DecidableEq

/-- How far `trigger_now` has come. -/
inductive FireStage where
  | idle
  | loaded (d : ScheduleDefinition)
  | checked (d : ScheduleDefinition)
  | drawn (d : ScheduleDefinition) (id : Uuid)
  | written (d : ScheduleDefinition) (id : Uuid)
  | linked (d : ScheduleDefinition) (id : Uuid)

structure FirePhase where
  reading : Option Time := none
  lease : Option FireLease := none
  /-- An execution was written since the claim was acquired, or writing one failed. -/
  wrote : Bool := false
  stage : FireStage := .idle

namespace FireStage

/-- Executions were listed: the check lets the trigger through if there are few enough. -/
def afterListing (active : List Execution) : FireStage → FireStage
  | loaded d =>
    if ((active.filter (isOfSchedule d.id)).length : ℤ) < d.maxConcurrentExecutions then checked d
    else loaded d
  | stage => stage

/-- An identifier was drawn. -/
def afterDraw (id : Uuid) : FireStage → FireStage
  | checked d => drawn d id
  | stage => stage

/-- An execution was written, or writing it failed. -/
def afterWrite : FireStage → FireStage
  | drawn d id => written d id
  | linked d _ => loaded d
  | stage => stage

/-- The row of an execution was read. -/
def afterRead (x : Uuid) : FireStage → FireStage
  | written d id => if x = id then linked d id else written d id
  | stage => stage

end FireStage

namespace FirePhase

/-- A claim was acquired. -/
def acquire (φ : FirePhase) (lease : FireLease) : FirePhase :=
  { φ with lease := some lease, wrote := false, stage := .idle }

/-- The claim was marked, or marking it failed. -/
def giveUp (φ : FirePhase) : FirePhase := { φ with lease := none, stage := .idle }

/-- The phase after an operation of the runtime and its answer. -/
def afterRuntime (φ : FirePhase) : (o : RuntimeOp) → Except RuntimeException o.Ret → FirePhase
  | .utcNow, .ok t => { φ with reading := some t }
  | .uuid4, .ok id => { φ with stage := φ.stage.afterDraw id }
  | .db (.listExecutions _), .ok active => { φ with stage := φ.stage.afterListing active }
  | .db (.updateExecution _), _ => { φ with wrote := true, stage := φ.stage.afterWrite }
  | .db (.getExecution x), .ok (some _) => { φ with stage := φ.stage.afterRead x }
  | _, _ => φ

/-- The phase after an operation on the repositories and its answer. -/
def afterSchedules (φ : FirePhase) : (o : ScheduleOp) → Except RuntimeException o.Ret → FirePhase
  | .getSchedule _, .ok (some d) => { φ with stage := .loaded d }
  | .insertFireClaim c, .ok true => φ.acquire ⟨c.scheduleId, c.scheduledFireAt, c.leaseExpiresAt⟩
  | .takeOverFireClaim scheduleId fireAt _ _ leaseExpiresAt, .ok true =>
    φ.acquire ⟨scheduleId, fireAt, leaseExpiresAt⟩
  | .acquireFireClaim c _, .ok true => φ.acquire ⟨c.scheduleId, c.scheduledFireAt, c.leaseExpiresAt⟩
  | .markFireClaim _ _ _ _ _ _, _ => φ.giveUp
  | _, _ => φ

def next (φ : FirePhase) : Event SchedulerSig → FirePhase
  | ⟨.inl o, r⟩ => φ.afterRuntime o r
  | ⟨.inr o, r⟩ => φ.afterSchedules o r

end FirePhase

/-! ### The protocol -/

/-- The execution was created for a fire. -/
def FiresFor (e : Execution) (scheduleId : String) (fireAt : Time) : Prop :=
  isOfSchedule scheduleId e ∧
    e.metadata.trigger.string? "scheduled_fire_at" = some (isoformat fireAt)

instance (e : Execution) (scheduleId : String) (fireAt : Time) :
    Decidable (FiresFor e scheduleId fireAt) := inferInstanceAs (Decidable (_ ∧ _))

namespace FirePhase

/-- The trigger of the execution is that of the fire in progress. -/
structure Triggers (φ : FirePhase) (d : ScheduleDefinition) (e : Execution) : Prop where
  ofSchedule : isOfSchedule d.id e
  fireAt : e.metadata.trigger.string? "scheduled_fire_at" = φ.lease.map (isoformat ·.fireAt)
  lease : ∀ lease, φ.lease = some lease → lease.scheduleId = d.id

theorem Triggers.congr {φ φ' : FirePhase} {d : ScheduleDefinition} {e e' : Execution}
    (h : φ.Triggers d e) (hlease : φ'.lease = φ.lease)
    (htrigger : e'.metadata.trigger = e.metadata.trigger) : φ'.Triggers d e' := by
  refine ⟨?_, ?_, fun lease hl => h.lease lease (hlease.symm.trans hl)⟩
  · rw [isOfSchedule, htrigger]
    exact h.ofSchedule
  · rw [htrigger, hlease]
    exact h.fireAt

/-- No execution was written under the claim. -/
def Unwritten (φ : FirePhase) : Prop := φ.lease.isSome → φ.wrote = false

/-- The executions a phase may write: the new one under its identifier, and the one read
back from its row. -/
def MayWrite (φ : FirePhase) (d : ScheduleDefinition) (e : Execution) : Prop :=
  φ.Triggers d e ∧
    ((φ.stage = .drawn d e.id ∧ e.status = .created ∧ φ.Unwritten) ∨ φ.stage = .linked d e.id)

end FirePhase

section Protocol

-- the schedules whose rows, claims and executions are written, and what rows of schedules keep to
variable (touches : String → Prop) (keeps : ScheduleDefinition → Prop)

/-- The operations of the runtime a phase allows. -/
def FirePhase.allowsRuntime (φ : FirePhase) : RuntimeOp → Prop
  | .db (.updateExecution e) => ∃ d, touches d.id ∧ φ.MayWrite d e
  | .db (.saveEvent _) => True
  | .db (.listExecutions statusIn) => statusIn = ExecutionStatus.isActive
  | .db o => o.isWrite = false
  | .ext _ => False
  | _ => True

/-- The operations on the repositories a phase allows. -/
def FirePhase.allowsSchedules (cfg : SchedulerConfig) (φ : FirePhase) : ScheduleOp → Prop
  | .createSchedule _ d | .saveSchedule d => touches d.id ∧ keeps d
  | .insertFireClaim c =>
    touches c.scheduleId ∧ c.claimedBy = cfg.schedulerId ∧ c.status = .claimed
  | .takeOverFireClaim scheduleId _ claimedBy now _ =>
    touches scheduleId ∧ claimedBy = cfg.schedulerId ∧ φ.reading = some now
  | .acquireFireClaim c now => cfg.repository = .inMemory ∧ touches c.scheduleId ∧
      c.claimedBy = cfg.schedulerId ∧ c.status = .claimed ∧ φ.reading = some now
  | .markFireClaim repository scheduleId fireAt claimedBy _ now => repository = cfg.repository ∧
      touches scheduleId ∧ claimedBy = cfg.schedulerId ∧ φ.reading = some now ∧
      ∃ lease, φ.lease = some lease ∧ lease.scheduleId = scheduleId ∧ lease.fireAt = fireAt
  | _ => True

/-- The answers a phase expects: a schedule under the identifier it was asked for, and in
its own execution's row the trigger it wrote. -/
def FirePhase.expects (φ : FirePhase) : (o : SchedulerSig.Op) → SchedulerSig.Ret o → Prop
  | .inr (.getSchedule id), .ok (some d) => d.id = id ∧ keeps d
  | .inl (.db (.getExecution x)), .ok (some e) =>
    ∀ d, φ.stage = .written d x → e.id = x ∧ φ.Triggers d e
  | _, _ => True

/-- The protocol of a fire. -/
def fireProtocol : Protocol SchedulerSig SchedulerConfig FirePhase where
  start := {}
  next := FirePhase.next
  allowed cfg φ o := Sum.elim (φ.allowsRuntime touches) (φ.allowsSchedules touches keeps cfg) o
  answers := FirePhase.expects keeps

end Protocol

section Follows

variable {touches : String → Prop} {keeps : ScheduleDefinition → Prop} {cfg : SchedulerConfig}
  {φ : FirePhase}

/-- A coroutine of the scheduler follows the protocol. -/
abbrev Fires (touches : String → Prop) (keeps : ScheduleDefinition → Prop) (cfg : SchedulerConfig)
    {α : Type} (Q : α → FirePhase → Prop) (E : RuntimeException → FirePhase → Prop)
    (p : Scheduling α) (φ : FirePhase) : Prop :=
  p.Follows (fireProtocol touches keeps) cfg Q E φ

variable {α β : Type} {E : RuntimeException → FirePhase → Prop}

/-! ### Single operations -/

theorem onRuntime_bind (p : Coroutine α) (f : α → Coroutine β) :
    onRuntime (p >>= f) = onRuntime p >>= fun a => onRuntime (f a) := by
  rw [onRuntime, Program.inl_bind, Program.fallibly_bind]
  rfl

theorem fires_onRuntime_bind {p : Coroutine α} {f : α → Coroutine β} {Q : β → FirePhase → Prop}
    (h : Fires touches keeps cfg (fun a φ' => Fires touches keeps cfg Q E (onRuntime (f a)) φ') E
      (onRuntime p) φ) : Fires touches keeps cfg Q E (onRuntime (p >>= f)) φ := by
  rw [onRuntime_bind]
  exact follows_bind h

variable {o : RuntimeOp} {Q : α → FirePhase → Prop}

theorem fires_onRuntime {k : o.Ret → Coroutine α} (ho : φ.allowsRuntime touches o)
    (hk : ∀ r, φ.expects keeps (.inl o) (.ok r) →
      Fires touches keeps cfg Q E (onRuntime (k r)) (φ.afterRuntime o (.ok r)))
    (hE : ∀ e, E e (φ.afterRuntime o (.error e))) :
    Fires touches keeps cfg Q E (onRuntime (Program.call (S := RuntimeSig) o k)) φ :=
  follows_fallibly_call (S := SchedulerOps) (o := .inl o) ho hk hE

theorem fires_perform {Q : o.Ret → FirePhase → Prop} (ho : φ.allowsRuntime touches o)
    (hQ : ∀ r, φ.expects keeps (.inl o) (.ok r) → Q r (φ.afterRuntime o (.ok r)))
    (hE : ∀ e, E e (φ.afterRuntime o (.error e))) :
    Fires touches keeps cfg Q E (onRuntime (Program.perform (S := RuntimeSig) o)) φ :=
  fires_onRuntime ho (fun r hr => follows_done (hQ r hr)) hE

theorem fires_onSchedules {o : ScheduleOp} {Q : o.Ret → FirePhase → Prop}
    (ho : φ.allowsSchedules touches keeps cfg o)
    (hQ : ∀ r, φ.expects keeps (.inr o) (.ok r) → Q r (φ.afterSchedules o (.ok r)))
    (hE : ∀ e, E e (φ.afterSchedules o (.error e))) :
    Fires touches keeps cfg Q E (onSchedules o) φ :=
  follows_fallibly_call (S := SchedulerOps) (o := .inr o) ho (fun r hr => follows_done (hQ r hr)) hE

theorem fires_ofExcept (r : Except RuntimeException α) (hQ : ∀ a, r = .ok a → Q a φ)
    (hE : ∀ e, E e φ) :
    Fires touches keeps cfg Q E (Program.ofExcept r) φ := by
  rcases r with e | a
  · exact follows_raise (hE e)
  · exact follows_done (hQ a rfl)

/-! ### Coroutines that leave a fire where it is -/

/-- The operations that leave a fire where it is, unless it is about to draw an identifier. -/
def RuntimeOp.isQuiet : RuntimeOp → Prop
  | .db (.updateExecution _) | .db (.getExecution _) | .db (.listExecutions _) => False
  | .db (.saveEvent _) => True
  | .db o => o.isWrite = false
  | .ext _ => False
  | _ => True

/-- Only the clock has been read. -/
structure FirePhase.Same (φ φ' : FirePhase) : Prop where
  lease : φ'.lease = φ.lease
  wrote : φ'.wrote = φ.wrote
  stage : φ'.stage = φ.stage

theorem FirePhase.Same.refl (φ : FirePhase) : φ.Same φ := ⟨rfl, rfl, rfl⟩

theorem FirePhase.Same.trans {φ φ' φ'' : FirePhase} (h : φ.Same φ') (h' : φ'.Same φ'') :
    φ.Same φ'' := ⟨h'.lease.trans h.lease, h'.wrote.trans h.wrote, h'.stage.trans h.stage⟩

theorem FirePhase.Unwritten.congr {φ φ' : FirePhase} (h : φ.Unwritten)
    (hlease : φ'.lease = φ.lease) (hwrote : φ'.wrote = φ.wrote) : φ'.Unwritten := by
  intro hl
  rw [hwrote]
  apply h
  rw [← hlease]
  exact hl

theorem FirePhase.same_afterRuntime (ho : o.isQuiet) (hstage : ∀ d, φ.stage ≠ .checked d)
    (r : Except RuntimeException o.Ret) :
    φ.allowsRuntime touches o ∧ φ.Same (φ.afterRuntime o r) := by
  cases o with
  | db q =>
    cases q with
    | updateExecution e => cases ho
    | getExecution x => cases ho
    | listExecutions s => cases ho
    | saveEvent e => exact ⟨trivial, by cases r <;> exact ⟨rfl, rfl, rfl⟩⟩
    | _ => exact ⟨ho, by cases r <;> exact ⟨rfl, rfl, rfl⟩⟩
  | proc q => exact ⟨trivial, by cases r <;> exact ⟨rfl, rfl, rfl⟩⟩
  | ext q => cases ho
  | utcNow => exact ⟨trivial, by cases r <;> exact ⟨rfl, rfl, rfl⟩⟩
  | uuid4 =>
    refine ⟨trivial, ?_⟩
    rcases r with e | id
    · exact ⟨rfl, rfl, rfl⟩
    · refine ⟨rfl, rfl, ?_⟩
      show φ.stage.afterDraw id = φ.stage
      rcases h : φ.stage with - | d | d | d | d | d
      case checked => exact absurd h (hstage d)
      all_goals rfl

/-- A quiet coroutine. -/
theorem fires_quiet {p : Coroutine α} (hp : p.Within (fun _ _ => True) isQuiet)
    (hstage : ∀ d, φ.stage ≠ .checked d) :
    Fires touches keeps cfg (fun _ => φ.Same) (fun _ => φ.Same) (onRuntime p) φ := by
  suffices h : ∀ ψ : FirePhase, φ.Same ψ →
      Fires touches keeps cfg (fun _ => φ.Same) (fun _ => φ.Same) (onRuntime p) ψ from h φ (.refl φ)
  induction p with
  | done a => exact fun ψ hψ => follows_done hψ
  | raise e => exact fun ψ hψ => follows_raise hψ
  | call o k ih =>
    intro ψ hψ
    have hstageψ : ∀ d, ψ.stage ≠ .checked d := fun d h => hstage d (hψ.stage.symm.trans h)
    have hsame : ∀ r, ψ.allowsRuntime touches o ∧ ψ.Same (ψ.afterRuntime o r) :=
      fun r => FirePhase.same_afterRuntime hp.1 hstageψ r
    apply fires_onRuntime
    · exact (hsame (.error ⟨.valueError, ""⟩)).1
    · intro r _
      exact ih r (hp.2 r trivial) _ (hψ.trans (hsame (.ok r)).2)
    · exact fun e => hψ.trans (hsame (.error e)).2

theorem within_appendEvent (st : NativeExecutionState) (eventType : ExecutionEventType)
    (labels : EventLabels) :
    (appendEvent st eventType labels).Within (fun _ _ => True) isQuiet := by
  refine ⟨trivial, fun _ _ => ⟨trivial, fun _ _ => ⟨trivial, fun r _ => ?_⟩⟩⟩
  exact within_ofExcept r

theorem within_emit (st : NativeExecutionState) (eventType : ExecutionEventType)
    (labels : EventLabels) :
    (emit st eventType labels).Within (fun _ _ => True) isQuiet := by
  refine ⟨trivial, fun _ _ => ⟨trivial, fun current _ => ?_⟩⟩
  refine (within_appendEvent current eventType labels).bind fun saved => ?_
  exact ⟨trivial, fun _ _ => trivial⟩

theorem within_rejectUnresolvedWait (x : Uuid) :
    (rejectUnresolvedWait x).Within (fun _ _ => True) isQuiet := by
  refine Program.Within.bind (p := listPendingWaits x) ?_ fun waits => ?_
  · exact ⟨rfl, fun r _ => within_ofExcept _⟩
  · rcases waits with - | ⟨wait, waits⟩ <;> trivial

/-! ### Creating and queueing the execution -/

variable {d : ScheduleDefinition}

variable {e : Execution}

/-- Writing an execution leaves the claim. -/
theorem fires_updateExecution (htouches : touches d.id) (hwrite : φ.MayWrite d e)
    {Q : Unit → FirePhase → Prop} (hQ : Q () { φ with wrote := true, stage := φ.stage.afterWrite })
    (hE : ∀ exc, E exc { φ with wrote := true, stage := φ.stage.afterWrite }) :
    Fires touches keeps cfg Q E (onRuntime (updateExecution e)) φ :=
  fires_perform (o := .db (.updateExecution e)) ⟨d, htouches, hwrite⟩ (fun _ _ => hQ) hE

theorem fires_prepareExecution (htouches : touches d.id) (hstage : φ.stage = .drawn d e.id)
    (hunwritten : φ.Unwritten) (hstatus : e.status = .created) (htriggers : φ.Triggers d e)
    (adapter : String) :
    Fires touches keeps cfg
      (fun _ φ' => φ'.lease = φ.lease ∧ φ'.wrote = true ∧ φ'.stage = .written d e.id)
      (fun _ φ' => φ'.lease = φ.lease) (onRuntime (prepareExecution adapter e)) φ := by
  -- whichever adapter it is: the row is written, then an event is emitted
  have hwritten : ∀ {p : Coroutine Unit} (_ : p.Within (fun _ _ => True) isQuiet)
      (ψ : FirePhase), φ.Same ψ →
      Fires touches keeps cfg
        (fun _ φ' => φ'.lease = φ.lease ∧ φ'.wrote = true ∧ φ'.stage = .written d e.id)
        (fun _ φ' => φ'.lease = φ.lease) (onRuntime (updateExecution e >>= fun _ => p)) ψ := by
    intro p hp ψ hψ
    have hstageψ : ψ.stage = .drawn d e.id := hψ.stage.trans hstage
    have hafter : ψ.stage.afterWrite = .written d e.id := by rw [hstageψ]; rfl
    apply fires_onRuntime_bind
    apply fires_updateExecution htouches
    · exact ⟨htriggers.congr hψ.lease rfl, .inl ⟨hstageψ, hstatus, hunwritten.congr hψ.lease hψ.wrote⟩⟩
    · rw [hafter]
      apply (fires_quiet hp fun d' (h : FireStage.written d e.id = .checked d') => nomatch h).mono
      · exact fun _ φ' hφ' => ⟨hφ'.lease.trans hψ.lease, hφ'.wrote, hφ'.stage⟩
      · exact fun _ φ' hφ' => hφ'.lease.trans hψ.lease
    · exact fun _ => hψ.lease
  unfold prepareExecution
  split
  · apply fires_onRuntime (o := .proc (.state e.id e.workflowId)) trivial
    · intro st _
      refine hwritten (p := emit st .executionCreated >>= fun _ => pure ()) ?_ _ ⟨rfl, rfl, rfl⟩
      exact (within_emit st .executionCreated {}).bind fun _ => trivial
    · exact fun _ => rfl
  · refine hwritten (p := emitHeld _ .executionCreated >>= fun _ => pure ()) ?_ _ ⟨rfl, rfl, rfl⟩
    exact Program.Within.bind ((within_appendEvent _ _ _).bind fun _ => trivial) fun _ => trivial

/-- **Creating the execution of a fire** writes one row, under a fresh identifier. -/
theorem fires_createExecution {registry : RegistryConfig} {workflowId : String}
    {input : InputPayload} {trigger : Json} {adapterId goalId : Option String}
    (htouches : touches d.id) (hstage : φ.stage = .checked d) (hunwritten : φ.Unwritten)
    (htriggers : ∀ e : Execution, e.metadata.trigger = trigger → φ.Triggers d e) :
    Fires touches keeps cfg
      (fun e φ' => φ'.lease = φ.lease ∧ φ'.wrote = true ∧ φ'.stage = .written d e.id)
      (fun _ φ' => φ'.lease = φ.lease)
      (onRuntime (createExecution registry workflowId input trigger adapterId goalId)) φ := by
  unfold createExecution
  split
  · exact follows_raise rfl
  next workflow _ =>
    apply fires_onRuntime_bind
    rcases registry.resolveAdapterForWorkflow workflow (normalizedRuntimeAdapterId adapterId) with
      exc | adapter
    · exact follows_raise rfl
    · apply follows_done
      apply fires_onRuntime_bind
      apply fires_perform (o := .uuid4) trivial
      · intro id _
        have hdrawn : (φ.stage.afterDraw id) = .drawn d id := by rw [hstage]; rfl
        apply fires_onRuntime_bind
        apply fires_perform (o := .utcNow) trivial
        · intro now _
          apply fires_onRuntime_bind
          refine (fires_prepareExecution htouches ?_ ?_ ?_ ?_ adapter).mono
            (fun _ φ' hφ' => follows_done hφ') fun _ φ' hφ' => hφ'
          · exact hdrawn
          · exact hunwritten
          · rfl
          · exact (htriggers _ rfl).congr rfl rfl
        · exact fun _ => rfl
      · exact fun _ => rfl

/-- Queueing the execution writes the row that it read back. -/
theorem fires_queueStart {id : Uuid} (htouches : touches d.id) (hstage : φ.stage = .written d id) :
    Fires touches keeps cfg (fun _ φ' => φ'.lease = φ.lease ∧ φ'.wrote = true)
      (fun _ φ' => φ'.lease = φ.lease) (onRuntime (queueStart id)) φ := by
  apply fires_onRuntime_bind
  apply fires_perform (o := .db (.getExecution id)) rfl
  · intro r hr
    rcases r with - | e
    · exact follows_raise rfl
    · obtain ⟨hid, htriggers⟩ := hr d hstage
      have hlinked : φ.stage.afterRead id = .linked d id := by
        rw [hstage]
        exact if_pos rfl
      apply fires_onRuntime_bind
      rcases rejectTerminalExecutionReplay e with exc | -
      · exact follows_raise rfl
      · apply follows_done
        apply fires_onRuntime_bind
        have hquiet := within_rejectUnresolvedWait id
        have hnot : ∀ d', φ.stage.afterRead id ≠ .checked d' := fun d' h => by
          rw [hlinked] at h
          cases h
        refine (fires_quiet hquiet hnot).mono ?_ fun _ ψ hψ => hψ.lease
        intro _ ψ hψ
        have hψlinked : ψ.stage = .linked d e.id := (hψ.stage.trans hlinked).trans (by rw [hid])
        apply fires_onRuntime_bind
        apply fires_updateExecution (d := d) htouches
        · exact ⟨htriggers.congr hψ.lease rfl, .inr hψlinked⟩
        · apply fires_onRuntime_bind
          apply fires_perform (o := .proc (.createTask id)) trivial
          · exact fun _ _ => follows_done ⟨hψ.lease, rfl⟩
          · exact fun _ => hψ.lease
        · exact fun _ => hψ.lease
  · exact fun _ => rfl

theorem fires_linkExecutionToGoal (goal : GoalDefinition) (executionId : Uuid) :
    Fires touches keeps cfg (fun _ => φ.Same) (fun _ => φ.Same)
      (linkExecutionToGoal goal executionId) φ := by
  unfold linkExecutionToGoal
  split
  · exact follows_done (.refl φ)
  · apply follows_bind
    apply fires_perform (o := .utcNow) trivial
    · intro now _
      apply fires_onSchedules (o := .saveGoal _) trivial
      · exact fun _ _ => ⟨rfl, rfl, rfl⟩
      · exact fun _ => ⟨rfl, rfl, rfl⟩
    · exact fun _ => ⟨rfl, rfl, rfl⟩

/-! ### The trigger of a fire -/

theorem string?_trigger_scheduleId (fire : Fire) (schedule : ScheduleDefinition)
    (goalId : Option String) :
    (fire.trigger schedule goalId).string? "schedule_id" = some schedule.id := by
  simp [Fire.trigger, string?, get?, asStr?, List.lookup_cons]

theorem string?_trigger_scheduledFireAt (fire : Fire) (schedule : ScheduleDefinition)
    (goalId : Option String) :
    (fire.trigger schedule goalId).string? "scheduled_fire_at"
      = fire.scheduledFireAt.map isoformat := by
  obtain ⟨source, fireAt, payload⟩ := fire
  rcases fireAt with - | t <;> rcases payload with - | payload <;> rcases goalId with - | goalId <;>
    simp only [Fire.trigger] <;> split <;>
    simp [string?, get?, asStr?, List.lookup_cons]

/-! ### Firing -/

/-- The claim that goes with a fire is held: none for a fire without an instant. -/
def FirePhase.Holds (φ : FirePhase) (scheduleId : String) : Option Time → Prop
  | none => φ.lease = none
  | some t => ∃ lease, φ.lease = some lease ∧ lease.scheduleId = scheduleId ∧ lease.fireAt = t

variable {scheduleId : String}

variable {fireAt : Option Time}

theorem FirePhase.Holds.congr {φ φ' : FirePhase} (h : φ.Holds scheduleId fireAt)
    (hlease : φ'.lease = φ.lease) : φ'.Holds scheduleId fireAt := by
  rcases fireAt with - | t
  · exact hlease.trans h
  · obtain ⟨lease, hl, hkey⟩ := h
    exact ⟨lease, hlease.trans hl, hkey⟩

variable {fire : Fire}

variable {goalId : Option String}

theorem FirePhase.Holds.triggers (h : φ.Holds d.id fire.scheduledFireAt)
    (he : e.metadata.trigger = fire.trigger d goalId) :
    φ.Triggers d e := by
  have hschedule : isOfSchedule d.id e := by
    rw [isOfSchedule, he, string?_trigger_scheduleId]
    exact decide_eq_true rfl
  refine ⟨hschedule, ?_, fun lease hlease => ?_⟩
  · rw [he, string?_trigger_scheduledFireAt]
    rcases ht : fire.scheduledFireAt with - | t
    · rw [ht] at h
      rw [show φ.lease = none from h]
      rfl
    · rw [ht] at h
      obtain ⟨lease, hlease, -, hfireAt⟩ := h
      rw [hlease, ← hfireAt]
      rfl
  · rcases ht : fire.scheduledFireAt with - | t
    · rw [ht] at h
      exact nomatch hlease.symm.trans h
    · rw [ht] at h
      obtain ⟨lease', hlease', hid, -⟩ := h
      obtain rfl : lease = lease' := Option.some.inj (hlease.symm.trans hlease')
      exact hid

/-- The check lets the trigger through. -/
theorem fires_assertConcurrency (hstage : φ.stage = .loaded d) :
    Fires touches keeps cfg
      (fun _ φ' => φ'.lease = φ.lease ∧ φ'.wrote = φ.wrote ∧ φ'.stage = .checked d)
      (fun _ φ' => φ'.lease = φ.lease) (assertConcurrency d) φ := by
  apply follows_bind
  apply fires_perform (o := .db (.listExecutions ExecutionStatus.isActive)) rfl
  · intro active _
    have hafter : φ.stage.afterListing active =
        if ((active.filter (isOfSchedule d.id)).length : ℤ) < d.maxConcurrentExecutions then
          .checked d else .loaded d := by rw [hstage]; rfl
    show Fires touches keeps cfg _ _ (if d.maxConcurrentExecutions
      ≤ ((active.filter (isOfSchedule d.id)).length : ℤ) then _ else _) _
    split
    · exact follows_raise rfl
    next hfew =>
      refine follows_done ⟨rfl, rfl, ?_⟩
      exact hafter.trans (if_pos (not_le.mp hfew))
  · exact fun _ => rfl

theorem fires_createFireExecution (goal : Option GoalDefinition) (htouches : touches d.id)
    (hstage : φ.stage = .loaded d) (hholds : φ.Holds d.id fire.scheduledFireAt)
    (hunwritten : φ.Unwritten) :
    Fires touches keeps cfg (fun _ φ' => φ'.lease = φ.lease ∧ φ'.wrote = true)
      (fun _ φ' => φ'.lease = φ.lease) (createFireExecution cfg d fire goal) φ := by
  apply follows_bind
  refine (fires_assertConcurrency hstage).mono ?_ fun _ ψ hψ => hψ
  intro _ φ₁ ⟨hlease₁, hwrote₁, hstage₁⟩
  apply follows_bind
  have hholds₁ := hholds.congr hlease₁
  have hunwritten₁ : φ₁.Unwritten := hunwritten.congr hlease₁ hwrote₁
  refine (fires_createExecution htouches hstage₁ hunwritten₁ fun e he => hholds₁.triggers he).mono ?_
    fun _ ψ hψ => hψ.trans hlease₁
  intro e φ₂ ⟨hlease₂, hwrote₂, hstage₂⟩
  -- the goal is linked, then the execution is queued
  have hqueue : ∀ ψ : FirePhase, φ₂.Same ψ → Fires touches keeps cfg
      (fun _ φ' => φ'.lease = φ.lease ∧ φ'.wrote = true) (fun _ φ' => φ'.lease = φ.lease)
      (do
        if cfg.executionStarter then
          let _ ← onRuntime (queueStart e.id)
        return e) ψ := by
    intro ψ hψ
    have hleaseψ : ψ.lease = φ.lease := (hψ.lease.trans hlease₂).trans hlease₁
    split
    · apply follows_bind
      refine (fires_queueStart htouches (hψ.stage.trans hstage₂)).mono ?_
        fun _ χ hχ => hχ.trans hleaseψ
      exact fun _ χ hχ => follows_done ⟨hχ.1.trans hleaseψ, hχ.2⟩
    · exact follows_done ⟨hleaseψ, hψ.wrote.trans hwrote₂⟩
  rcases goal with - | goal
  · exact hqueue φ₂ (.refl φ₂)
  · apply follows_bind
    refine (fires_linkExecutionToGoal goal e.id).mono (fun _ ψ hψ => hqueue ψ hψ) ?_
    exact fun _ ψ hψ => (hψ.lease.trans hlease₂).trans hlease₁

/-- What is left of the claim when a fire ends, with or without an error. -/
def FirePhase.Unclaimed (fireAt : Option Time) (φ : FirePhase) : Prop :=
  fireAt = none → φ.lease = none

theorem FirePhase.Holds.unclaimed (h : φ.Holds scheduleId fireAt) : φ.Unclaimed fireAt := by
  rintro rfl
  exact h

/-- Marking the claim gives it up. -/
theorem fires_markFire {executionId : Option Uuid} (htouches : touches scheduleId)
    (hholds : φ.Holds scheduleId fireAt) :
    Fires touches keeps cfg (fun _ => FirePhase.Unclaimed fireAt)
      (fun _ => FirePhase.Unclaimed fireAt) (markFire cfg scheduleId executionId fireAt) φ := by
  rcases fireAt with - | t
  · exact follows_done hholds.unclaimed
  · apply follows_bind
    apply fires_perform (o := .utcNow) trivial
    · intro now _
      apply fires_onSchedules (o := .markFireClaim _ _ _ _ _ _)
      · exact ⟨rfl, htouches, rfl, rfl, hholds⟩
      · exact fun _ _ => nofun
      · exact fun _ => nofun
    · exact fun _ => nofun

/-- Any phase: a repository's `update` writes the schedule it read. -/
theorem fires_updateSchedule {patch : SchedulePatch} (htouches : touches scheduleId)
    (hkeeps : ∀ d d' : ScheduleDefinition, keeps d →
      d'.toScheduleFields = patch.merge d.toScheduleFields → keeps d') :
    Fires touches keeps cfg (fun _ φ' => φ'.lease = φ.lease) (fun _ φ' => φ'.lease = φ.lease)
      (updateSchedule scheduleId patch) φ := by
  apply follows_bind
  apply fires_onSchedules (o := .getSchedule scheduleId) trivial
  · intro r hr
    rcases r with - | d
    · exact follows_done rfl
    · obtain ⟨rfl, hkept⟩ := hr
      apply follows_bind
      apply fires_ofExcept
      · intro merged hmerged
        have hfields := ScheduleDefinition.toScheduleFields_of_validate hmerged
        have hid : merged.id = d.id := by rw [hfields]; rfl
        apply follows_bind
        apply fires_onSchedules (o := .saveSchedule merged)
        · exact ⟨by rw [hid]; exact htouches, hkeeps d merged hkept hfields⟩
        · exact fun _ _ => follows_done rfl
        · exact fun _ => rfl
      · exact fun _ => rfl
  · exact fun _ => rfl

/-- What rows of schedules keep to does not depend on when they fire, on their metadata or
on whether they are enabled. -/
def FiringKeeps (keeps : ScheduleDefinition → Prop) : Prop :=
  ∀ d d' : ScheduleDefinition, keeps d → d'.id = d.id →
    d'.maxConcurrentExecutions = d.maxConcurrentExecutions → keeps d'

/-- The updates that come with a fire leave the limit on executions alone. -/
theorem fires_updateFired {patch : SchedulePatch} (hkeeps : FiringKeeps keeps)
    (htouches : touches scheduleId) (hpatch : patch.maxConcurrentExecutions = none) :
    Fires touches keeps cfg (fun _ φ' => φ'.lease = φ.lease) (fun _ φ' => φ'.lease = φ.lease)
      (updateSchedule scheduleId patch) φ := by
  apply fires_updateSchedule htouches
  intro d d' hd hd'
  apply hkeeps d d' hd
  · rw [hd']
    rfl
  · rw [hd']
    show patch.maxConcurrentExecutions.getD _ = _
    rw [hpatch]
    rfl

theorem fires_releaseFire (hkeeps : FiringKeeps keeps) (htouches : touches d.id)
    (hholds : φ.Holds d.id fire.scheduledFireAt) (e : RuntimeException)
    {Q : Execution → FirePhase → Prop} :
    Fires touches keeps cfg Q (fun _ => FirePhase.Unclaimed fire.scheduledFireAt)
      (releaseFire cfg d fire e) φ := by
  apply follows_bind
  refine (fires_markFire htouches hholds).mono ?_ fun _ ψ hψ => hψ
  intro _ ψ hψ
  split
  · apply follows_bind
    refine (fires_updateFired hkeeps htouches rfl).mono ?_ ?_
    · exact fun _ χ hχ => follows_raise fun h => hχ.trans (hψ h)
    · exact fun _ χ hχ h => hχ.trans (hψ h)
  · exact follows_raise hψ

theorem fires_maybeWakeGoalSupervisor :
    Fires touches keeps cfg (fun _ φ' => φ'.lease = φ.lease) (fun _ φ' => φ'.lease = φ.lease)
      (maybeWakeGoalSupervisor cfg d goalId) φ := by
  unfold maybeWakeGoalSupervisor
  split
  · exact follows_done rfl
  · split
    · exact follows_done rfl
    · simp only
      split
      · exact follows_done rfl
      · apply follows_bind
        apply fires_onSchedules (o := .wakeGoalSupervisor _) trivial
        · exact fun r _ => fires_ofExcept r (fun _ _ => rfl) fun _ => rfl
        · exact fun _ => rfl

theorem fires_completeFire {now : Time} {executionId : Uuid} (hkeeps : FiringKeeps keeps)
    (htouches : touches d.id) (hholds : φ.Holds d.id fire.scheduledFireAt) :
    Fires touches keeps cfg (fun _ => FirePhase.Unclaimed fire.scheduledFireAt)
      (fun _ => FirePhase.Unclaimed fire.scheduledFireAt)
      (completeFire cfg d fire now executionId goalId) φ := by
  apply follows_bind
  refine (fires_markFire htouches hholds).mono ?_ fun _ ψ hψ => hψ
  intro _ φ₁ h₁
  apply follows_bind
  apply fires_ofExcept
  · intro fired _
    apply follows_bind
    apply fires_ofExcept
    · intro next _
      apply follows_bind
      refine (fires_updateFired hkeeps htouches rfl).mono ?_ ?_
      · intro _ φ₂ h₂
        apply follows_bind
        refine fires_maybeWakeGoalSupervisor.mono ?_ ?_
        · intro _ φ₃ h₃
          have hend : φ₃.Unclaimed fire.scheduledFireAt := fun h => (h₃.trans h₂).trans (h₁ h)
          apply follows_bind
          apply fires_onSchedules (o := .getSchedule d.id) trivial
          · intro r _
            rcases r with - | stored
            · exact follows_done hend
            · exact follows_done hend
          · exact fun _ => hend
        · exact fun _ ψ hψ h => (hψ.trans h₂).trans (h₁ h)
      · exact fun _ ψ hψ h => hψ.trans (h₁ h)
    · exact fun _ => h₁
  · exact fun _ => h₁

/-- Resolving the goal of a fire leaves the fire where it is. -/
theorem fires_resolveScheduleGoal {now : Time} (hstage : φ.stage = .loaded d) :
    Fires touches keeps cfg (fun _ => φ.Same) (fun _ => φ.Same)
      (resolveScheduleGoal cfg d fireAt now) φ := by
  unfold resolveScheduleGoal
  split
  · exact follows_done (.refl φ)
  · split
    · exact follows_raise (.refl φ)
    · split
      · exact follows_done (.refl φ)
      · split
        · exact follows_raise (.refl φ)
        · apply follows_bind
          apply fires_onSchedules (o := .getGoal _) trivial
          · intro r _
            rcases r with - | goal
            · exact follows_raise ⟨rfl, rfl, rfl⟩
            · exact follows_done ⟨rfl, rfl, rfl⟩
          · exact fun _ => ⟨rfl, rfl, rfl⟩
      · apply follows_bind
        apply fires_perform (o := .uuid4) trivial
        · intro id _
          have hdraw : φ.stage.afterDraw id = φ.stage := by rw [hstage]; rfl
          apply follows_bind
          apply fires_perform (o := .utcNow) trivial
          · intro createdAt _
            apply follows_bind
            apply fires_perform (o := .utcNow) trivial
            · intro updatedAt _
              apply follows_bind
              apply fires_ofExcept
              · exact fun _ _ => follows_done ⟨rfl, rfl, hdraw⟩
              · exact fun _ => ⟨rfl, rfl, hdraw⟩
            · exact fun _ => ⟨rfl, rfl, hdraw⟩
          · exact fun _ => ⟨rfl, rfl, hdraw⟩
        · exact fun _ => ⟨rfl, rfl, rfl⟩

/-- **Firing one schedule** follows the protocol, with the claim it was given. -/
theorem fires_triggerNow (hkeeps : FiringKeeps keeps) (htouches : touches scheduleId)
    (hholds : φ.Holds scheduleId fire.scheduledFireAt) (hunwritten : φ.Unwritten) :
    Fires touches keeps cfg (fun _ => FirePhase.Unclaimed fire.scheduledFireAt)
      (fun _ => FirePhase.Unclaimed fire.scheduledFireAt) (triggerNow cfg scheduleId fire) φ := by
  apply follows_bind
  apply fires_onSchedules (o := .getSchedule scheduleId) trivial
  · intro r hr
    rcases r with - | d
    · exact follows_raise hholds.unclaimed
    · obtain ⟨rfl, -⟩ := hr
      apply follows_bind
      apply fires_perform (o := .utcNow) trivial
      · intro now _
        apply follows_bind
        refine (fires_resolveScheduleGoal (φ := FirePhase.afterRuntime _ .utcNow (.ok now))
          rfl).mono ?_ ?_
        · intro goal φ₁ h₁
          have hholds₁ : φ₁.Holds d.id fire.scheduledFireAt := hholds.congr h₁.lease
          apply follows_bind
          apply follows_bind
          apply follows_attempt
          have hunwritten₁ : φ₁.Unwritten := hunwritten.congr h₁.lease h₁.wrote
          refine (fires_createFireExecution goal htouches h₁.stage hholds₁ hunwritten₁).mono ?_ ?_
          · intro e φ₂ ⟨h₂, _⟩
            exact follows_done (fires_completeFire hkeeps htouches (hholds₁.congr h₂))
          · intro e φ₂ h₂
            exact fires_releaseFire hkeeps htouches (hholds₁.congr h₂) e
        · exact fun _ ψ hψ => (hholds.congr hψ.lease).unclaimed
      · exact fun _ => hholds.unclaimed
  · exact fun _ => hholds.unclaimed

theorem fires_fireIsolated (hkeeps : FiringKeeps keeps) (htouches : touches scheduleId)
    (hholds : φ.Holds scheduleId fire.scheduledFireAt) (hunwritten : φ.Unwritten) :
    Fires touches keeps cfg (fun _ => FirePhase.Unclaimed fire.scheduledFireAt) E
      (fireIsolated cfg scheduleId fire) φ := by
  apply follows_bind
  apply follows_attempt
  refine (fires_triggerNow hkeeps htouches hholds hunwritten).mono ?_ ?_
  · exact fun _ ψ hψ => follows_done hψ
  · exact fun _ ψ hψ => follows_done hψ

/-- An acquired claim is held. -/
theorem fires_acquireFireClaim {fireAt : Time} (htouches : touches scheduleId) :
    Fires touches keeps cfg
      (fun (acquired : Bool) φ' => acquired = true → φ'.Holds scheduleId (some fireAt) ∧ φ'.Unwritten)
      (fun _ _ => True) (acquireFireClaim cfg scheduleId fireAt) φ := by
  apply follows_bind
  apply fires_perform (o := .utcNow) trivial
  · intro now _
    apply follows_bind
    apply fires_perform (o := .uuid4) trivial
    · intro id _
      simp only
      split
      · apply fires_onSchedules (o := .acquireFireClaim _ now)
        next hrepository => exact ⟨hrepository, htouches, rfl, rfl, rfl⟩
        · intro r _ (hr : r = true)
          subst hr
          exact ⟨⟨_, rfl, rfl, rfl⟩, fun _ => rfl⟩
        · exact fun _ => trivial
      · apply follows_bind
        apply fires_onSchedules (o := .insertFireClaim _)
        · exact ⟨htouches, rfl, rfl⟩
        · intro r _
          rcases r with - | -
          · apply fires_onSchedules (o := .takeOverFireClaim _ _ _ _ _)
            · exact ⟨htouches, rfl, rfl⟩
            · intro r _ (hr : r = true)
              subst hr
              exact ⟨⟨_, rfl, rfl, rfl⟩, fun _ => rfl⟩
            · exact fun _ => trivial
          · exact follows_done fun _ => ⟨⟨_, rfl, rfl, rfl⟩, fun _ => rfl⟩
        · exact fun _ => trivial
    · exact fun _ => trivial
  · exact fun _ => trivial

theorem fires_runDueSchedule {now : Time} (hkeeps : FiringKeeps keeps) (htouches : touches d.id) :
    Fires touches keeps cfg (fun _ _ => True) (fun _ _ => True) (runDueSchedule cfg now d) φ := by
  apply follows_bind
  apply fires_ofExcept
  · intro computation _
    split
    · exact follows_done trivial
    · apply follows_bind
      refine (fires_acquireFireClaim htouches).mono ?_ fun _ _ h => h
      intro acquired ψ hψ
      rcases acquired with - | -
      · exact follows_done trivial
      · exact (fires_fireIsolated hkeeps htouches (hψ rfl).1 (hψ rfl).2).mono
          (fun _ _ _ => trivial) fun _ _ h => h
  · exact fun _ => trivial

/-- The pass over the due schedules follows the protocol. -/
theorem fires_runDueSchedules (hkeeps : FiringKeeps keeps) (htouches : ∀ id, touches id) :
    Fires touches keeps cfg (fun _ _ => True) (fun _ _ => True) (runDueSchedules cfg) φ := by
  apply follows_bind
  apply fires_perform (o := .utcNow) trivial
  · intro now _
    apply follows_bind
    apply fires_onSchedules (o := .listSchedules _) trivial
    · intro schedules _
      exact follows_collect (I := fun _ => True)
        (fun d _ _ _ => fires_runDueSchedule hkeeps (htouches d.id)) trivial
    · exact fun _ => trivial
  · exact fun _ => trivial

/-- So does dispatching an event. -/
theorem fires_dispatchEvent {eventType : String} {payload : Json} {source : String}
    (hkeeps : FiringKeeps keeps) (htouches : ∀ id, touches id) (hlease : φ.lease = none) :
    Fires touches keeps cfg (fun _ _ => True) (fun _ _ => True)
      (dispatchEvent cfg eventType payload source) φ := by
  unfold dispatchEvent
  simp only
  split
  · exact follows_raise trivial
  · apply follows_bind
    apply fires_perform (o := .utcNow) trivial
    · intro now _
      apply follows_bind
      apply fires_onSchedules (o := .listSchedules _) trivial
      · intro schedules _
        refine (follows_collect (I := fun φ' => φ'.lease = none)
          (E := fun _ _ => True) ?_ hlease).mono (fun _ _ _ => trivial) fun _ _ h => h
        intro d _ ψ hψ
        split
        · apply (fires_fireIsolated hkeeps (htouches d.id) ?_ ?_).mono (fun _ _ h => h rfl)
            fun _ _ h => h
          · exact hψ
          · intro hl
            rw [hψ] at hl
            cases hl
        · exact follows_done hψ
      · exact fun _ => trivial
    · exact fun _ => trivial

end Follows

end OpenAgency
