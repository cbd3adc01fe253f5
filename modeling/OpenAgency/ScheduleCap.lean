/-
ScheduleCap.lean

The limit on the executions of a schedule that are active at once.  `trigger_now` counts
them, and creates and queues one more in later steps.  A process that has counted too few
of them to stop, and has not queued its own yet, leaves room for one; the limit holds if
no other process counts while there is such a process, however often any of the steps
fails.
-/
import OpenAgency.ScheduleCalls

namespace OpenAgency

open Relational Interaction TriggerCall FireStage ExecutionStatus

/-! ### The limit of a schedule -/

/-- What the rows of the schedule with `d`'s identifier keep to. -/
def SameCap (d d' : ScheduleDefinition) : Prop :=
  d'.id = d.id → d'.maxConcurrentExecutions = d.maxConcurrentExecutions

/-- The phases of calls that fire schedules. -/
def triggerProtocol (d : ScheduleDefinition) : Protocol SchedulerSig TriggerCall FirePhase :=
  (fireProtocol (fun _ => True) (SameCap d)).relabel config

theorem follows_triggerCall (d : ScheduleDefinition) (call : TriggerCall) :
    call.code.Follows (triggerProtocol d) call (fun _ _ => True) (fun _ _ => True)
      (triggerProtocol d).start := by
  have hkeeps : FiringKeeps (SameCap d) := by
    intro d₁ d₂ h₁ hid hmax hid₂
    exact hmax.trans (h₁ (hid.symm.trans hid₂))
  exact (Program.follows_relabel config).mpr (fires_triggerCall hkeeps call)

/-! ### Counting -/

/-- The active executions that a schedule created. -/
def activeExecutions (w : World) (scheduleId : String) : List Execution :=
  w.db.executions.select fun e => e.status.isActive && isOfSchedule scheduleId e

/-- What `trigger_now` counts. -/
theorem length_filter_listExecutions (w : World) (scheduleId : String) :
    (((DbOp.listExecutions isActive).exec w.db).1.filter
      (isOfSchedule scheduleId)).length = (activeExecutions w scheduleId).length := by
  have hperm := (List.perm_insertionSort (fun a b => Execution.newestFirst a b = true)
    (w.db.executions.select fun e => e.status.isActive)).filter (isOfSchedule scheduleId)
  have hfilter : (w.db.executions.select fun e => e.status.isActive).filter
      (isOfSchedule scheduleId) = activeExecutions w scheduleId := by
    rw [activeExecutions, Table.select, Table.select, List.filter_filter]
    refine List.filter_congr fun e _ => ?_
    exact Bool.and_comm _ _
  rw [← hfilter]
  exact hperm.length_eq

/-- The schedule of a process that has counted and not queued its execution yet. -/
def FireStage.window : FireStage → Option String
  | idle | loaded _ => none
  | checked d | drawn d _ | written d _ | linked d _ => some d.id

/-- No other process has counted the executions of the schedule and is yet to queue its
own. -/
def Alone (scheduleId : String) (ps : List (TriggerCall × Option FirePhase)) (i : ℕ) : Bool :=
  (ps.eraseIdx i).all fun p => p.2.all (·.stage.window ≠ some scheduleId)

variable {ps : List (TriggerCall × Option FirePhase)}

theorem window_ne_of_alone {scheduleId : String} {i j : ℕ} (h : Alone scheduleId ps i) (hij : j ≠ i)
    {call : TriggerCall} {ψ : FirePhase} (hj : ps[j]? = some (call, some ψ)) :
    ψ.stage.window ≠ some scheduleId := by
  have hmem : (call, some ψ) ∈ ps.eraseIdx i := List.mem_eraseIdx_iff_getElem?.mpr ⟨j, hij, hj⟩
  have hall := List.all_eq_true.mp h _ hmem
  simpa using hall

/-- The executions of the schedule are only counted by a process that is alone. -/
def CountsAlone (scheduleId : String) (ps : List (TriggerCall × Option FirePhase)) (i : ℕ) :
    SchedulerOps.Op → Bool
  | .inl (.db (.listExecutions _)) =>
    match ps[i]? with
    | some (_, some φ) =>
      φ.stage.schedule.all (·.id ≠ scheduleId) || Alone scheduleId ps i
    | _ => true
  | _ => true

/-! ### Invariant -/

variable {env : Environment} {wake : ℕ → Except RuntimeException Unit} {d : ScheduleDefinition}
  {alone : Prop}
  {w w' : World} {φ φ' ψ : FirePhase}

/-- A process in its window has room for one more. -/
def HasRoom (d : ScheduleDefinition) (w : World) (φ : FirePhase) : Prop :=
  φ.stage.window = some d.id → ((activeExecutions w d.id).length : ℤ) < d.maxConcurrentExecutions

/-- What a step of one process leaves of the limit: either there are no more active
executions than before, and the process is in its window only if it was or if it has
counted alone, or it was in its window and has left it. -/
inductive CapStep (d : ScheduleDefinition) (alone : Prop) (w w' : World) (φ φ' : FirePhase) :
    Prop where
  | fewer (hfewer : (activeExecutions w' d.id).length ≤ (activeExecutions w d.id).length)
      (hwindow : φ'.stage.window = some d.id → φ.stage.window = some d.id)
  | counted (halone : alone) (hsame : w'.db.executions = w.db.executions)
      (hfew : ((activeExecutions w d.id).length : ℤ) < d.maxConcurrentExecutions)
  | queued (hmore : (activeExecutions w' d.id).length ≤ (activeExecutions w d.id).length + 1)
      (hwindow : φ.stage.window = some d.id) (hleft : φ'.stage.window = none)

theorem capStep_write {d' : ScheduleDefinition} {e : Execution} (hwrite : φ.MayWrite d' e)
    (hw' : w' = w ∨ w' = { w with db.executions := w.db.executions.save e }) :
    CapStep d alone w w' φ { φ with wrote := true, stage := φ.stage.afterWrite } := by
  have hwindow : φ.stage.afterWrite.window = some d.id → φ.stage.window = some d.id := by
    intro hafter
    rcases hwrite.afterWrite_cases with ⟨hstage, -, hwritten⟩ | ⟨-, hloaded⟩
    · rw [hwritten] at hafter
      rw [hstage]
      exact hafter
    · exact nomatch (congrArg window hloaded).symm.trans hafter
  rcases hw' with rfl | rfl
  · exact .fewer le_rfl hwindow
  · rcases hwrite.afterWrite_cases with ⟨-, hcreated, -⟩ | ⟨hstage, hloaded⟩
    · -- the new execution is not active yet
      refine .fewer (Table.length_select_save_le ?_) hwindow
      rw [hcreated]
      rfl
    · by_cases hid : d'.id = d.id
      · refine .queued (Table.length_select_save_le_succ _ _ e) ?_ (congrArg window hloaded)
        rw [hstage, ← hid]
        rfl
      · refine .fewer (Table.length_select_save_le ?_) hwindow
        rw [Bool.and_eq_false_iff]
        refine .inr (Bool.eq_false_iff.mpr fun hof => ?_)
        exact hid (isOfSchedule_unique hwrite.1.ofSchedule hof)

theorem capStep_runtime {o : RuntimeOp} (howner : FireOwner env (SameCap d) w φ)
    (hallowed : φ.allowsRuntime (fun _ => True) o)
    (halone : ∀ statusIn, o = .db (.listExecutions statusIn) → ∀ d', φ.stage = .loaded d' →
      d'.id = d.id → alone) {r : Except RuntimeException o.Ret}
    (hout : Outcome (handler env o w).1 w (handler env o w).2 r w') :
    CapStep d alone w w' φ (φ.afterRuntime o r) := by
  by_cases hwrites : ∃ e, o = .db (.updateExecution e)
  · obtain ⟨e, rfl⟩ := hwrites
    obtain ⟨d', -, hwrite⟩ := hallowed
    have hstep : CapStep d alone w w' φ { φ with wrote := true, stage := φ.stage.afterWrite } :=
      capStep_write hwrite hout.state
    rcases r with exc | _ <;> exact hstep
  have hwrites : ∀ e, o ≠ .db (.updateExecution e) := fun e he => hwrites ⟨e, he⟩
  have hexecutions : w'.db.executions = w.db.executions := by
    rcases hout.state with rfl | rfl
    · rfl
    · exact (ticks_handler hwrites).executions
  have hfewer : (activeExecutions w' d.id).length ≤ (activeExecutions w d.id).length := by
    rw [activeExecutions, hexecutions]
    exact le_rfl
  rcases r with exc | a
  · rw [FirePhase.afterRuntime_error hwrites]
    exact .fewer hfewer id
  obtain ⟨rfl, -⟩ := hout.ok
  rcases o with q | q | q | - | -
  · cases q with
    | updateExecution e => exact absurd rfl (hwrites e)
    | getExecution x =>
      rcases hrow : (handler env (.db (.getExecution x)) w).1 with - | e
      · exact .fewer hfewer id
      · refine .fewer hfewer fun hwindow => ?_
        have hafter : (φ.stage.afterRead x).window = some d.id := hwindow
        rcases φ.stage.afterRead_cases x with hsame | ⟨d', hwritten, hlinked⟩
        · rw [hsame] at hafter
          exact hafter
        · rw [hlinked] at hafter
          rw [hwritten]
          exact hafter
    | listExecutions statusIn =>
      obtain rfl : statusIn = isActive := hallowed
      have hcount := length_filter_listExecutions w d.id
      rcases φ.stage.afterListing_cases (handler env (.db (.listExecutions isActive)) w).1 with
        hsame | ⟨d', hloaded, hchecked, hfew⟩
      · refine .fewer hfewer fun hwindow => ?_
        rw [← hsame]
        exact hwindow
      · by_cases hid : d'.id = d.id
        · have hmax := howner.kept d' (by rw [hloaded]; rfl) hid
          rw [hid, hmax] at hfew
          refine .counted (halone _ rfl d' hloaded hid) hexecutions ?_
          rw [← hcount]
          exact hfew
        · refine .fewer hfewer fun hwindow => absurd ?_ hid
          have hafter : (checked d').window = some d.id := by
            rw [← hchecked]
            exact hwindow
          exact Option.some.inj hafter
    | _ => exact .fewer hfewer id
  · exact .fewer hfewer id
  · cases hallowed
  · exact .fewer hfewer id
  · refine .fewer hfewer fun hwindow => ?_
    have hafter : (φ.stage.afterDraw (env.uuid w.uuidsDrawn)).window = some d.id := hwindow
    rcases φ.stage.afterDraw_cases (env.uuid w.uuidsDrawn) with hsame | ⟨d', hchecked, hdraw⟩
    · rw [hsame] at hafter
      exact hafter
    · rw [hdraw] at hafter
      rw [hchecked]
      exact hafter

/-- An operation on the repositories leaves the executions alone and opens no window. -/
theorem capStep_schedules {o : ScheduleOp} {r : Except RuntimeException o.Ret} :
    CapStep d alone w w φ (φ.afterSchedules o r) := by
  have hclosed : ∀ φ' : FirePhase, φ'.stage.window = none → CapStep d alone w w φ φ' :=
    fun φ' hnone => .fewer le_rfl fun hwindow => nomatch hnone.symm.trans hwindow
  cases o with
  | getSchedule scheduleId =>
    rcases r with e | - | d'
    · exact .fewer le_rfl id
    · exact .fewer le_rfl id
    · exact hclosed _ rfl
  | insertFireClaim c =>
    rcases r with e | - | -
    · exact .fewer le_rfl id
    · exact .fewer le_rfl id
    · exact hclosed _ rfl
  | takeOverFireClaim scheduleId fireAt claimedBy now leaseExpiresAt =>
    rcases r with e | - | -
    · exact .fewer le_rfl id
    · exact .fewer le_rfl id
    · exact hclosed _ rfl
  | acquireFireClaim c now =>
    rcases r with e | - | -
    · exact .fewer le_rfl id
    · exact .fewer le_rfl id
    · exact hclosed _ rfl
  | markFireClaim repository scheduleId fireAt claimedBy executionId now =>
    rcases r with e | -
    · exact hclosed _ rfl
    · exact hclosed _ rfl
  | _ =>
    rcases r with e | a
    · exact .fewer le_rfl id
    · exact .fewer le_rfl id

/-! ### Runs -/

/-- The limit holds, and one process at most is in its window, with room for one more. -/
abbrev CapInvariant (d : ScheduleDefinition) :
    SchedulerState × ℕ → List (TriggerCall × Option FirePhase) → Prop :=
  Pool.Joint (fun s => ((activeExecutions s.1.1 d.id).length : ℤ) ≤ d.maxConcurrentExecutions)
    (fun s _ φ => HasRoom d s.1.1 φ)
    fun _ φ ψ => ¬ (φ.stage.window = some d.id ∧ ψ.stage.window = some d.id)

/-- Every allowed operation keeps the invariant if it counts alone. -/
theorem CapInvariant.step {faults : ℕ → Fault RuntimeException} {s : SchedulerState × ℕ} {i : ℕ}
    {call : TriggerCall} {o : SchedulerOps.Op} (h : CapInvariant d s ps)
    (hi : ps[i]? = some (call, some φ)) (howner : FireOwner env (SameCap d) s.1.1 φ)
    (halone : CountsAlone d.id ps i o) (hallowed : (triggerProtocol d).allowed call φ o) :
    CapInvariant d ((schedulerOpsHandler env wake).faulty faults o s).2
      (ps.set i (call, some (φ.next
        ⟨o, ((schedulerOpsHandler env wake).faulty faults o s).1⟩))) := by
  have hout := Outcome.of_faulty (schedulerOpsHandler env wake) faults o s
  have hroom := h.one i call φ hi
  have hstep : CapStep d (Alone d.id ps i) s.1.1 ((schedulerOpsHandler env wake).faulty faults o s).2.1.1 φ
      (φ.next ⟨o, ((schedulerOpsHandler env wake).faulty faults o s).1⟩) := by
    rcases o with o | o
    · refine capStep_runtime howner hallowed ?_ (hout.map Prod.fst)
      rintro statusIn rfl d' hloaded hid
      simpa [CountsAlone, hi, hloaded, schedule, hid] using halone
    · rcases hout.state with hs | hs
      · rw [hs]
        exact capStep_schedules
      · rw [hs]
        exact capStep_schedules
  have hfewer : (activeExecutions ((schedulerOpsHandler env wake).faulty faults o s).2.1.1 d.id).length
        ≤ (activeExecutions s.1.1 d.id).length →
      ∀ ψ, HasRoom d s.1.1 ψ →
        HasRoom d ((schedulerOpsHandler env wake).faulty faults o s).2.1.1 ψ := by
    intro hle ψ hψ hwindow
    have hlt := hψ hwindow
    omega
  have hlimit := h.shared
  rcases hstep with ⟨hle, hwindow⟩ | ⟨halone', hsame, hfew⟩ | ⟨hmore, hwindow, hleft⟩
  · refine Pool.Joint.step h hi ?_ ?_ ?_ fun _ _ h => h
    · show ((activeExecutions _ d.id).length : ℤ) ≤ _
      omega
    · intro hin
      exact hfewer hle φ hroom (hwindow hin)
    · intro _ _ ψ _ _ hψ hpair hpair'
      exact ⟨hfewer hle ψ hψ, fun ⟨hin, hψin⟩ => hpair ⟨hwindow hin, hψin⟩,
        fun ⟨hψin, hin⟩ => hpair' ⟨hψin, hwindow hin⟩⟩
  · -- the process that counted is the only one in its window
    have hsame : activeExecutions ((schedulerOpsHandler env wake).faulty faults o s).2.1.1 d.id
        = activeExecutions s.1.1 d.id := by
      unfold activeExecutions
      rw [hsame]
    refine Pool.Joint.step h hi ?_ ?_ ?_ fun _ _ h => h
    · rw [hsame]
      exact hlimit
    · intro _
      rw [hsame]
      exact hfew
    · intro j _ ψ hji hj hψ _ _
      have hout := window_ne_of_alone halone' hji hj
      exact ⟨hfewer (congrArg List.length hsame).le ψ hψ, fun ⟨_, hψin⟩ => hout hψin, fun ⟨hψin, _⟩ => hout hψin⟩
  · -- the process that leaves its window was the only one in it
    have hlt := hroom hwindow
    refine Pool.Joint.step h hi ?_ ?_ ?_ fun _ _ h => h
    · show ((activeExecutions _ d.id).length : ℤ) ≤ _
      omega
    · intro hin
      exact nomatch hleft.symm.trans hin
    · intro _ _ ψ _ _ _ hpair _
      have hnot : (φ.next ⟨o, ((schedulerOpsHandler env wake).faulty faults o s).1⟩).stage.window
          ≠ some d.id := fun hin => nomatch hleft.symm.trans hin
      exact ⟨fun hψin => absurd ⟨hwindow, hψin⟩ hpair, fun ⟨hin, _⟩ => hnot hin,
        fun ⟨_, hin⟩ => hnot hin⟩

/-- **The limit on active executions.**  Whatever calls fire schedules, in any order of
their steps and whichever of them fail, a schedule never has more active executions than
its `max_concurrent_executions`, as long as they are counted by one process at a time,
until it has queued its own. -/
theorem length_activeExecutions_le {env : Environment}
    {wake : ℕ → Except RuntimeException Unit} {faults : ℕ → Fault RuntimeException}
    {s : SchedulerState} {d : ScheduleDefinition}
    {q : Pool SchedulerSig TriggerCall (SchedulerState × ℕ) RuntimeException
      (List ScheduledJobResult)} (hvacant : UndrawnVacant env s.1)
    (hd : s.2.schedules.get d.id = some d)
    (hlimit : ((activeExecutions s.1 d.id).length : ℤ) ≤ d.maxConcurrentExecutions)
    (h : Pool.Runs code ((schedulerOpsHandler env wake).faulty faults)
      (Pool.Phased (triggerProtocol d) fun _ ps i o => CountsAlone d.id ps i o)
      ⟨(s, 0), [], []⟩ q) :
    ((activeExecutions q.shared.1.1 d.id).length : ℤ) ≤ d.maxConcurrentExecutions := by
  suffices hinv : Ownership env (SameCap d) TriggerCall q.shared (q.phases (triggerProtocol d)) ∧
      CapInvariant d q.shared (q.phases (triggerProtocol d)) from hinv.2.shared
  have hkept : SchedulesKept (SameCap d) s.2 := by
    intro id d' hget hid
    obtain rfl : d'.id = id := Catalog.key_of_get (c := s.2.schedules) hget
    rw [hid, hd] at hget
    rw [Option.some.inj hget]
  have howns : Ownership env (SameCap d) TriggerCall (s, 0) [] := .nil ⟨hvacant, hkept⟩
  have hcap : CapInvariant d (s, 0) [] := .nil hlimit
  refine Pool.Runs.follows (J := fun s ps => Ownership env (SameCap d) TriggerCall s ps ∧
    CapInvariant d s ps) (follows_triggerCall d) ?_ ?_ ?_ ⟨howns, hcap⟩ h
  · rintro s ps call ⟨howns, hinv⟩
    refine ⟨howns.start call, Pool.Joint.start hinv (fun hin => nomatch hin) fun ψ => ?_⟩
    exact ⟨fun ⟨hin, _⟩ => (nomatch hin), fun ⟨_, hin⟩ => (nomatch hin)⟩
  · rintro s ps i call ⟨howns, hinv⟩
    exact ⟨howns.stop i call, hinv.stop i call⟩
  · rintro s ps i call φ o ⟨howns, hinv⟩ hi halone hallowed
    obtain ⟨hanswers, howns'⟩ := howns.step hi hallowed
    exact ⟨hanswers, howns', hinv.step hi (howns.one i call φ hi) halone hallowed⟩

namespace EveryMinute

/-- Two callers fire the schedule by hand, and each performs operations as the list says. -/
def byHand (turns : List ℕ) : List (Act TriggerCall) :=
  [.start (.manual (config "first") "s" "manual" none),
    .start (.manual (config "second") "s" "manual" none)] ++ turns.map .step

theorem stored : state.2.schedules.get schedule.id = some schedule :=
  Catalog.get_put_self (Catalog.empty) schedule

theorem limit : ((activeExecutions state.1 schedule.id).length : ℤ)
    ≤ schedule.maxConcurrentExecutions := by decide

end EveryMinute

open EveryMinute

/-- The second caller starts when the first one has ended, and is turned away. -/
theorem length_activeExecutions_le_two :
    ∃ q, Pool.Runs code ((schedulerOpsHandler .silent fun _ => .ok ()).faulty
        fun _ => .none)
      (Pool.Phased (triggerProtocol schedule) fun _ ps i o => CountsAlone "s" ps i o)
      ⟨(state, 0), [], []⟩ q ∧
      (activeExecutions q.shared.1.1 "s").length = 1 ∧
      ((activeExecutions q.shared.1.1 "s").length : ℤ) ≤ 1 := by
  have hlength : ((Pool.nextsPhased (triggerProtocol schedule) code
    ((schedulerOpsHandler .silent fun _ => .ok ()).faulty fun _ => .none)
    (fun _ ps i o => CountsAlone "s" ps i o) ⟨(state, 0), [], []⟩
    (byHand (List.replicate 20 0 ++ List.replicate 3 1))).map
    fun q => (activeExecutions q.shared.1.1 "s").length) = some 1 := by decide +kernel
  obtain ⟨q, hq, hone⟩ := Option.map_eq_some_iff.mp hlength
  have hruns := Pool.runs_of_nextsPhased hq
  exact ⟨q, hruns, hone, length_activeExecutions_le undrawnVacant stored limit hruns⟩

/-- Both callers count before either has queued its execution. -/
theorem two_active :
    ¬ ∀ (env : Environment) (wake : ℕ → Except RuntimeException Unit)
      (faults : ℕ → Fault RuntimeException) (s : SchedulerState) (d : ScheduleDefinition)
      (q : Pool SchedulerSig TriggerCall (SchedulerState × ℕ) RuntimeException
        (List ScheduledJobResult)), UndrawnVacant env s.1 → s.2.schedules.get d.id = some d →
      ((activeExecutions s.1 d.id).length : ℤ) ≤ d.maxConcurrentExecutions →
      Pool.Runs code ((schedulerOpsHandler env wake).faulty faults)
        (fun _ _ => True) ⟨(s, 0), [], []⟩ q →
      ((activeExecutions q.shared.1.1 d.id).length : ℤ) ≤ d.maxConcurrentExecutions := by
  intro hall
  have hlength : ((Pool.nexts code
    ((schedulerOpsHandler .silent fun _ => .ok ()).faulty fun _ => .none) ⟨(state, 0), [], []⟩
    (byHand (List.replicate 3 0 ++ List.replicate 3 1 ++ List.replicate 17 0 ++
      List.replicate 17 1))).map
    fun q => (activeExecutions q.shared.1.1 "s").length) = some 2 := by decide +kernel
  obtain ⟨q, hq, htwo⟩ := Option.map_eq_some_iff.mp hlength
  have hone := hall .silent (fun _ => .ok ()) (fun _ => .none) state schedule q undrawnVacant
    stored limit (Pool.runs_of_nexts hq)
  have htwo' : (activeExecutions q.shared.1.1 schedule.id).length = 2 := htwo
  rw [htwo'] at hone
  exact absurd hone (by decide)

end OpenAgency
