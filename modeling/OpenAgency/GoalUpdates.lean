/-
GoalUpdates.lean

Calls that update one goal at the same time.  Every one of them reads the goal for its
change, reads it once more for the merge, and writes the whole record back, so what is
saved of the fields a call does not change is what it has read of them
(`GoalUpdate.readBy`).

Nothing is lost as long as each save finds in the store what the call has read
(`Current`): then the stored goal holds the evidence, the executions and the decisions of
all calls that have returned, and the plan of one of those that planned
(`goalUpdates_kept`).  Without it a call may undo what another has written, also in a
field it does not change (`goalUpdates_lost`).
-/
import OpenAgency.GoalWrites
import OpenAgency.Lib.Stages

namespace OpenAgency

open Relational Interaction List Dict GoalService GoalStore

/-! ### The calls -/

/-- A call that updates a goal. -/
inductive GoalUpdate where
  | attachEvidence (evidence : List (Dict Json))
  | linkExecution (executionId : Uuid)
  | recordSupervisorDecision (decision : Json) (actor : Option String)
  | planGoal (plan : Option (Dict Json)) (reason : String) (actor : Option String)
  | replanGoal (plan : Option (Dict Json)) (reason : String) (actor : Option String)

namespace GoalUpdate

def code (cfg : GoalConfig) (goalId : String) : GoalUpdate → GoalRun GoalDefinition
  | attachEvidence evidence => GoalService.attachEvidence goalId evidence
  | linkExecution executionId => GoalService.linkExecution goalId executionId
  | recordSupervisorDecision decision actor =>
    GoalService.recordSupervisorDecision cfg goalId decision actor
  | planGoal plan reason actor => GoalService.planGoal cfg goalId plan reason actor
  | replanGoal plan reason actor => GoalService.replanGoal cfg goalId plan reason actor

/-- The patches a call may merge, given the goal it has read for them. -/
def Patches (cfg : GoalConfig) : GoalUpdate → GoalDefinition → GoalPatch → Prop
  | attachEvidence evidence, g, p => p = { evidence := some (some (g.evidence ++ evidence)) }
  | linkExecution executionId, g, p => p = {
      executionIds := some (some
        (if executionId ∈ g.executionIds then g.executionIds
          else g.executionIds ++ [executionId])) }
  | recordSupervisorDecision decision actor, g, p => ∃ fields now metadata,
      decision = .obj fields ∧
      metadataWithDecision cfg g.id g.metadata fields actor now = .ok metadata ∧
      p = { metadata := some (some metadata) }
  | planGoal plan reason actor, g, p | replanGoal plan reason actor, g, p =>
    ∃ version plannedAt now status metadata,
      planned cfg g.toGoalFields plan reason actor version plannedAt now = .ok metadata ∧
      p = { status := some (some status), metadata := some (some metadata) }

/-- What a call has read of each field when it saves: the field it changes comes from the
first reading, the others from the second one. -/
def readBy (first second : GoalFields) : GoalUpdate → GoalFields
  | attachEvidence _ => { second with evidence := first.evidence }
  | linkExecution _ => { second with executionIds := first.executionIds }
  | recordSupervisorDecision _ _ | planGoal _ _ _ | replanGoal _ _ _ =>
    { second with metadata := first.metadata }

/-- The call plans. -/
def plans : GoalUpdate → Bool
  | planGoal _ _ _ | replanGoal _ _ _ => true
  | _ => false

/-- `p` is the plan of the call, made for the goal as it was at some time. -/
def IsPlan (cfg : GoalConfig) (p : Dict Json) : GoalUpdate → Prop
  | planGoal plan reason actor | replanGoal plan reason actor =>
    ∃ goal version now, normalizePlan cfg goal plan reason actor version now = .ok p
  | _ => False

end GoalUpdate

/-! ### Decisions and plans in the metadata -/

variable {α : Type}

/-- The last `n` items are kept whether or not the items before them were. -/
theorem takeLast_append_of_eq {n : ℕ} {a b : List α} (h : takeLast n a = takeLast n b)
    (more : List α) :
    takeLast n (a ++ more) = takeLast n (b ++ more) := by
  have hcut : ∀ l : List α, takeLast n (l ++ more) = takeLast n (takeLast n l ++ more) := by
    intro l
    have hlen : (l ++ more).length - n = (l.length - n) + ((takeLast n l ++ more).length - n) := by
      simp only [takeLast, length_append, length_drop]
      omega
    have hsplit : l ++ more = l.take (l.length - n) ++ (takeLast n l ++ more) := by
      rw [← append_assoc, takeLast, take_append_drop]
    have htake : (l.take (l.length - n)).length = l.length - n := by
      rw [length_take]
      omega
    rw [takeLast, hlen, hsplit, ← drop_drop, drop_append_of_le_length (le_of_eq htake.symm),
      drop_of_length_le (le_of_eq htake)]
    rfl
  rw [hcut a, hcut b, h]

theorem takeLast_takeLast (n : ℕ) (l : List α) : takeLast n (takeLast n l) = takeLast n l := by
  unfold takeLast
  rw [drop_drop, length_drop]
  congr 1
  omega

theorem dictItems_dicts (items : List (Dict Json)) : (dicts items).dictItems = .ok items := by
  show Except.ok ((items.map Json.obj).filterMap Json.asDict?) = .ok items
  rw [filterMap_map]
  exact congrArg Except.ok (filterMap_some)

/-- The decisions that are recorded in the metadata. -/
def supervisorDecisions (cfg : GoalConfig) (metadata : Dict Json) : List (Dict Json) :=
  match cfg.toDict (metadata.getJson "main_agent_monitoring") with
  | .error _ => []
  | .ok monitoring =>
    match dictItems monitoring "supervisor_decisions" with
    | .error _ => []
    | .ok decisions => decisions

/-- The two places where the metadata hold the active plan. -/
def activePlans (metadata : Dict Json) : Json × Json :=
  (metadata.getJson "active_plan",
    match metadata.getJson "goal_planning" with
    | .obj planning => getJson planning "active_plan"
    | _ => .null)

section Metadata

variable {cfg : GoalConfig} {metadata metadata' : Dict Json}

theorem supervisorDecisions_congr (h : metadata'.getJson "main_agent_monitoring" =
    metadata.getJson "main_agent_monitoring") :
    supervisorDecisions cfg metadata' = supervisorDecisions cfg metadata := by
  rw [supervisorDecisions, h, supervisorDecisions]

/-- Recording a decision puts it after the others, and leaves the plan. -/
theorem metadataWithDecision_spec {goalId : String} {decision : Dict Json}
    {actor : Option String} {now : Time}
    (h : metadataWithDecision cfg goalId metadata decision actor now = .ok metadata') :
    (∃ record : Dict Json, record.get? "decision" = some (.obj decision) ∧
      supervisorDecisions cfg metadata' =
        takeLast 50 (supervisorDecisions cfg metadata ++ [record])) ∧
      activePlans metadata' = activePlans metadata := by
  obtain ⟨monitoring, hmonitoring, h⟩ := bind_eq_ok.mp h
  obtain ⟨decisions, hdecisions, h⟩ := bind_eq_ok.mp h
  obtain rfl := Except.ok.inj h
  have hold : supervisorDecisions cfg metadata = decisions := by
    simp only [supervisorDecisions, hmonitoring, hdecisions]
  refine ⟨⟨decisionRecord cfg goalId decision actor decisions now, rfl, ?_⟩, ?_⟩
  · rw [hold, supervisorDecisions, getJson_set_self, GoalConfig.toDict_obj]
    simp only [dictItems]
    rw [get?_set_ne (by decide), get?_set_self, Option.getD_some, dictItems_dicts]
  · rw [activePlans, getJson_set_ne (by decide), getJson_set_ne (by decide), activePlans]

/-- Planning replaces the plan, and leaves the decisions. -/
theorem planned_spec {goal : GoalFields} {plan : Option (Dict Json)} {reason : String}
    {actor : Option String} {version : ℤ} {plannedAt now : Time}
    (h : planned cfg goal plan reason actor version plannedAt now = .ok metadata') :
    supervisorDecisions cfg metadata' = supervisorDecisions cfg goal.metadata ∧
      ∃ p, normalizePlan cfg goal plan reason actor version plannedAt = .ok p ∧
        activePlans metadata' = (.obj p, .obj p) := by
  obtain ⟨p, hp, h⟩ := bind_eq_ok.mp h
  obtain ⟨planning, -, h⟩ := bind_eq_ok.mp h
  obtain ⟨history, -, h⟩ := bind_eq_ok.mp h
  obtain rfl := Except.ok.inj h
  refine ⟨supervisorDecisions_congr ?_, p, hp, ?_⟩
  · rw [getJson_set_ne (by decide), getJson_set_ne (by decide)]
  · rw [activePlans, getJson_set_ne (by decide), getJson_set_self,
      getJson_set_self]
    simp only
    rw [getJson_set_ne (by decide), getJson_set_ne (by decide),
      getJson_set_ne (by decide), getJson_set_ne (by decide), getJson_set_self]

end Metadata

/-! ### What a save adds to what was read -/

namespace GoalUpdate

variable (cfg : GoalConfig)

/-- The record of the decision in the goal a call has saved. -/
def recordIn (saved : GoalFields) : GoalUpdate → Option (Dict Json)
  | recordSupervisorDecision _ _ => (supervisorDecisions cfg saved.metadata).getLast?
  | _ => none

/-- The goal `saved` is the goal `read` with the change of the call. -/
structure Adds (call : GoalUpdate) (read saved : GoalFields) : Prop where
  id : saved.id = read.id
  kept : read.evidence ⊆ saved.evidence ∧ read.executionIds ⊆ saved.executionIds
  evidence : ∀ evidence, call = attachEvidence evidence → evidence ⊆ saved.evidence
  execution : ∀ executionId, call = linkExecution executionId → executionId ∈ saved.executionIds
  decision : ∀ decision actor, call = recordSupervisorDecision decision actor →
    ∃ record, call.recordIn cfg saved = some record ∧ record.get? "decision" = some decision
  decisions : takeLast 50 (supervisorDecisions cfg saved.metadata) =
    takeLast 50 (supervisorDecisions cfg read.metadata ++ (call.recordIn cfg saved).toList)
  noPlan : call.plans = false → activePlans saved.metadata = activePlans read.metadata
  plan : call.plans = true → ∃ p, call.IsPlan cfg p ∧ activePlans saved.metadata = (.obj p, .obj p)

section Adds

variable {cfg : GoalConfig} {first second g : GoalDefinition}

theorem adds_attachEvidence {evidence : List (Dict Json)}
    (hyields : GoalPatch.Yields { evidence := some (some (first.evidence ++ evidence)) }
      second.toGoalFields g) :
    (attachEvidence evidence).Adds cfg
      ((attachEvidence evidence).readBy first.toGoalFields second.toGoalFields)
      g.toGoalFields := by
  have hevidence : first.evidence ++ evidence = g.evidence := Except.ok.inj hyields.evidence
  have hids : second.executionIds = g.executionIds := Except.ok.inj hyields.executionIds
  have hmetadata : second.metadata = g.metadata := Except.ok.inj hyields.metadata
  refine ⟨hyields.id, ⟨?_, ?_⟩, ?_, nofun, nofun, ?_, fun _ => ?_, nofun⟩
  · rw [← hevidence]
    exact subset_append_left _ _
  · rw [← hids]
    exact List.Subset.refl _
  · rintro _ ⟨⟩
    rw [← hevidence]
    exact subset_append_right _ _
  · rw [← hmetadata]
    simp only [readBy, recordIn, Option.toList_none, append_nil]
  · rw [← hmetadata]
    rfl

theorem adds_linkExecution {executionId : Uuid}
    (hyields : GoalPatch.Yields {
        executionIds := some (some
          (if executionId ∈ first.executionIds then first.executionIds
            else first.executionIds ++ [executionId])) } second.toGoalFields g) :
    (linkExecution executionId).Adds cfg
      ((linkExecution executionId).readBy first.toGoalFields second.toGoalFields)
      g.toGoalFields := by
  have hevidence : second.evidence = g.evidence := Except.ok.inj hyields.evidence
  have hids : (if executionId ∈ first.executionIds then first.executionIds
      else first.executionIds ++ [executionId]) = g.executionIds :=
    Except.ok.inj hyields.executionIds
  have hmetadata : second.metadata = g.metadata := Except.ok.inj hyields.metadata
  refine ⟨hyields.id, ⟨?_, ?_⟩, nofun, ?_, nofun, ?_, fun _ => ?_, nofun⟩
  · rw [← hevidence]
    exact List.Subset.refl _
  · rw [← hids]
    split
    · exact List.Subset.refl _
    · exact subset_append_left _ _
  · rintro _ ⟨⟩
    rw [← hids]
    split
    next hmem => exact hmem
    · exact mem_append_right _ (mem_singleton_self _)
  · rw [← hmetadata]
    simp only [readBy, recordIn, Option.toList_none, append_nil]
  · rw [← hmetadata]
    rfl

theorem adds_recordSupervisorDecision {fields metadata : Dict Json} {actor : Option String}
    {now : Time}
    (h : metadataWithDecision cfg first.id first.metadata fields actor now = .ok metadata)
    (hyields : GoalPatch.Yields { metadata := some (some metadata) } second.toGoalFields g) :
    (recordSupervisorDecision (.obj fields) actor).Adds cfg
      ((recordSupervisorDecision (.obj fields) actor).readBy first.toGoalFields
        second.toGoalFields) g.toGoalFields := by
  have hevidence : second.evidence = g.evidence := Except.ok.inj hyields.evidence
  have hids : second.executionIds = g.executionIds := Except.ok.inj hyields.executionIds
  obtain rfl : metadata = g.metadata := Except.ok.inj hyields.metadata
  obtain ⟨⟨record, hrecord, hdecisions⟩, hplans⟩ := metadataWithDecision_spec h
  have hlast : recordIn cfg g.toGoalFields (recordSupervisorDecision (.obj fields) actor) =
      some record := by
    rw [recordIn, hdecisions, takeLast, List.getLast?_drop, List.getLast?_concat, if_neg]
    rw [length_append, length_singleton]
    omega
  refine ⟨hyields.id, ⟨?_, ?_⟩, nofun, nofun, ?_, ?_, fun _ => hplans, nofun⟩
  · rw [← hevidence]
    exact List.Subset.refl _
  · rw [← hids]
    exact List.Subset.refl _
  · rintro _ _ ⟨⟩
    exact ⟨record, hlast, hrecord⟩
  · rw [hlast, hdecisions, takeLast_takeLast]
    rfl

variable {call : GoalUpdate}

/-- The two calls that plan differ in nothing but the plan and the status they write. -/
theorem adds_planned {status : GoalStatus} {metadata p : Dict Json} (hplans : call.plans = true)
    (hp : call.IsPlan cfg p)
    (hdecisions : supervisorDecisions cfg metadata = supervisorDecisions cfg first.metadata)
    (hactive : activePlans metadata = (.obj p, .obj p))
    (hyields : GoalPatch.Yields { status := some (some status), metadata := some (some metadata) }
      second.toGoalFields g) :
    call.Adds cfg (call.readBy first.toGoalFields second.toGoalFields) g.toGoalFields := by
  have hevidence : second.evidence = g.evidence := Except.ok.inj hyields.evidence
  have hids : second.executionIds = g.executionIds := Except.ok.inj hyields.executionIds
  obtain rfl : metadata = g.metadata := Except.ok.inj hyields.metadata
  have hread : call.readBy first.toGoalFields second.toGoalFields =
      { second.toGoalFields with metadata := first.metadata } := by
    cases call <;> first | rfl | cases hplans
  have hrecord : call.recordIn cfg g.toGoalFields = none := by
    cases call <;> first | rfl | cases hplans
  refine ⟨?_, ⟨?_, ?_⟩, ?_, ?_, ?_, ?_, ?_, fun _ => ⟨p, hp, hactive⟩⟩
  · rw [hread]
    exact hyields.id
  · rw [hread, ← hevidence]
    exact List.Subset.refl _
  · rw [hread, ← hids]
    exact List.Subset.refl _
  · rintro _ rfl
    cases hplans
  · rintro _ rfl
    cases hplans
  · rintro _ _ rfl
    cases hplans
  · rw [hread, hrecord, hdecisions, Option.toList_none, append_nil]
  · intro hnot
    rw [hplans] at hnot
    cases hnot

/-- **What a call saves** is what it has read, with its change. -/
theorem adds_of_patches {p : GoalPatch} (hpatch : call.Patches cfg first p)
    (hyields : p.Yields second.toGoalFields g) :
    call.Adds cfg (call.readBy first.toGoalFields second.toGoalFields) g.toGoalFields := by
  cases call with
  | attachEvidence evidence =>
    obtain rfl := hpatch
    exact adds_attachEvidence hyields
  | linkExecution executionId =>
    obtain rfl := hpatch
    exact adds_linkExecution hyields
  | recordSupervisorDecision decision actor =>
    obtain ⟨fields, now, metadata, rfl, hmetadata, rfl⟩ := hpatch
    exact adds_recordSupervisorDecision hmetadata hyields
  | planGoal plan reason actor =>
    obtain ⟨version, plannedAt, now, status, metadata, hmetadata, rfl⟩ := hpatch
    obtain ⟨hdecisions, q, hq, hactive⟩ := planned_spec hmetadata
    exact adds_planned rfl ⟨_, _, _, hq⟩ hdecisions hactive hyields
  | replanGoal plan reason actor =>
    obtain ⟨version, plannedAt, now, status, metadata, hmetadata, rfl⟩ := hpatch
    obtain ⟨hdecisions, q, hq, hactive⟩ := planned_spec hmetadata
    exact adds_planned rfl ⟨_, _, _, hq⟩ hdecisions hactive hyields

/-- The time a row keeps has no part in it. -/
theorem Adds.row {read : GoalFields} {repository : GoalRepository} {s : GoalStore}
    (h : call.Adds cfg read g.toGoalFields) :
    call.Adds cfg read (s.row repository g).toGoalFields := by
  rcases row_cases repository s g with hrow | ⟨t, hrow⟩
  · rw [hrow]
    exact h
  · rw [hrow]
    exact ⟨h.id, h.kept, h.evidence, h.execution, h.decision, h.decisions, h.noPlan, h.plan⟩

end Adds

end GoalUpdate

/-! ### How far a call is -/

structure GoalStage where
  reads : List GoalDefinition := []
  saved : Option GoalDefinition := none

namespace GoalStage

/-- The stage after an operation on the repository and its answer. -/
def afterGoals (φ : GoalStage) : (o : GoalOp) → o.Ret → GoalStage
  | .getGoal _, some goal => { φ with reads := φ.reads ++ [goal] }
  | .saveGoal _, .ok goal => { φ with saved := some goal }
  | _, _ => φ

def next (φ : GoalStage) : Event GoalSig → GoalStage
  | ⟨.inl _, _⟩ => φ
  | ⟨.inr o, r⟩ => φ.afterGoals o r

end GoalStage

/-- A call reads its goal and saves it once, with one of its patches merged into what the
second reading gave. -/
def goalProtocol (cfg : GoalConfig) (goalId : String) : Protocol GoalSig GoalUpdate GoalStage where
  start := {}
  next := GoalStage.next
  allowed := fun call φ o =>
    match o with
    | .inl _ => φ.saved = none
    | .inr (.getGoal id) => φ.saved = none ∧ id = goalId
    | .inr (.saveGoal g) => φ.saved = none ∧ ∃ first second p, φ.reads = [first, second] ∧
        call.Patches cfg first p ∧ p.Yields second.toGoalFields g
    | .inr _ => False
  answers := fun _ _ _ => True

section Follows

variable {cfg : GoalConfig} {goalId : String} {call : GoalUpdate} {φ : GoalStage}

variable (cfg goalId) in
/-- From `φ` on the program keeps to the protocol, and returns what it has saved. -/
abbrev Updates (call : GoalUpdate) (p : GoalRun GoalDefinition) (φ : GoalStage) : Prop :=
  p.Follows (goalProtocol cfg goalId) call (fun g φ' => φ'.saved = some g)
    (fun _ φ' => φ'.saved = none) φ

theorem updates_raise {cls : ExceptionClass} {message : String} (hφ : φ.saved = none) :
    Updates cfg goalId call (raiseGoal cls message) φ := Program.follows_raise hφ

variable {f : α → GoalRun GoalDefinition}

theorem updates_runtime {p : Coroutine α} (hφ : φ.saved = none)
    (h : ∀ a, Updates cfg goalId call (f a) φ) :
    Updates cfg goalId call (inRuntime p >>= f) φ :=
  Program.follows_inl_bind (P := goalProtocol cfg goalId) (fun _ => hφ) (fun _ _ => rfl)
    (fun _ => hφ) p h

theorem updates_ofExcept {r : Except RuntimeException α} (hφ : φ.saved = none)
    (h : ∀ a, r = .ok a → Updates cfg goalId call (f a) φ) :
    Updates cfg goalId call (Program.ofExcept r >>= f) φ :=
  Program.follows_ofExcept_bind (fun _ => hφ) h

theorem updates_getGoal {f : GoalDefinition → GoalRun GoalDefinition} (hφ : φ.saved = none)
    (h : ∀ goal, Updates cfg goalId call (f goal) { φ with reads := φ.reads ++ [goal] }) :
    Updates cfg goalId call (getGoal goalId >>= f) φ := by
  rw [getGoal, Program.bind_assoc]
  refine Program.follows_call ⟨hφ, rfl⟩ fun r _ => ?_
  rcases r with - | goal
  · exact Program.follows_raise hφ
  · exact h goal

theorem updates_ensureNotTerminal {goal : GoalDefinition} {f : Unit → GoalRun GoalDefinition}
    (hφ : φ.saved = none) (h : Updates cfg goalId call (f ()) φ) :
    Updates cfg goalId call (ensureNotTerminal goal >>= f) φ := by
  unfold ensureNotTerminal
  split
  · exact Program.follows_raise hφ
  · exact h

/-- The merge: the goal is read once more, and saved. -/
theorem updates_updateGoal {first : GoalDefinition} {p : GoalPatch}
    (hpatch : call.Patches cfg first p) :
    Updates cfg goalId call (updateGoal goalId p) { reads := [first] } := by
  refine updates_getGoal rfl fun second => ?_
  refine updates_runtime rfl fun now => ?_
  refine updates_ofExcept rfl fun merged hmerged => ?_
  refine updates_runtime rfl fun settledAt => ?_
  refine updates_ofExcept rfl fun g hvalid => ?_
  refine Program.follows_call
    ⟨rfl, first, second, p, rfl, hpatch, ⟨merged, now, settledAt, hmerged, hvalid⟩⟩ fun r _ => ?_
  rcases r with e | saved
  · exact Program.follows_raise rfl
  · exact Program.follows_done rfl

/-- Every call follows the protocol. -/
theorem updates_code (call : GoalUpdate) : Updates cfg goalId call (call.code cfg goalId) {} := by
  cases call with
  | attachEvidence evidence =>
    simp only [GoalUpdate.code, GoalService.attachEvidence]
    split
    · exact updates_raise rfl
    · exact updates_getGoal rfl fun goal => updates_updateGoal rfl
  | linkExecution executionId =>
    exact updates_getGoal rfl fun goal => updates_updateGoal rfl
  | recordSupervisorDecision decision actor =>
    simp only [GoalUpdate.code, GoalService.recordSupervisorDecision]
    split
    next field fields =>
      refine updates_getGoal rfl fun goal => ?_
      refine updates_runtime rfl fun now => ?_
      refine updates_ofExcept rfl fun metadata hmetadata => ?_
      exact updates_updateGoal ⟨field :: fields, now, metadata, rfl, hmetadata, rfl⟩
    · exact updates_raise rfl
  | planGoal plan reason actor =>
    refine updates_getGoal rfl fun goal => ?_
    refine updates_ensureNotTerminal rfl ?_
    split
    · exact updates_raise rfl
    · refine updates_runtime rfl fun plannedAt => ?_
      refine updates_runtime rfl fun now => ?_
      refine updates_ofExcept rfl fun metadata hmetadata => ?_
      exact updates_updateGoal ⟨0, plannedAt, now, _, metadata, hmetadata, rfl⟩
  | replanGoal plan reason actor =>
    simp only [GoalUpdate.code, GoalService.replanGoal]
    split
    · exact updates_raise rfl
    · refine updates_getGoal rfl fun goal => ?_
      refine updates_ensureNotTerminal rfl ?_
      refine updates_ofExcept rfl fun version _ => ?_
      refine updates_runtime rfl fun plannedAt => ?_
      refine updates_runtime rfl fun now => ?_
      refine updates_ofExcept rfl fun metadata hmetadata => ?_
      exact updates_updateGoal ⟨version, plannedAt, now, _, metadata, hmetadata, rfl⟩

end Follows

/-! ### Nothing is lost -/

/-- What a call has read is what is stored, as far as saving it could undo something: no
evidence, execution or decision is missing in it, nor the plan, unless the call replaces
it. -/
structure Current (cfg : GoalConfig) (call : GoalUpdate) (read stored : GoalFields) : Prop where
  evidence : stored.evidence ⊆ read.evidence
  executions : stored.executionIds ⊆ read.executionIds
  decisions : takeLast 50 (supervisorDecisions cfg stored.metadata) =
    takeLast 50 (supervisorDecisions cfg read.metadata)
  plan : call.plans = false → activePlans stored.metadata = activePlans read.metadata

/-- The condition on the operations: whoever saves has read what is stored. -/
def SavesCurrent (cfg : GoalConfig) (goalId : String) (s : GoalState)
    (ps : List (GoalUpdate × GoalStage)) (i : ℕ) : GoalSig.Op → Prop
  | .inr (.saveGoal _) => ∀ call first second saved stored,
      ps[i]? = some (call, ⟨[first, second], saved⟩) → s.2.goals.get goalId = some stored →
        Current cfg call (call.readBy first.toGoalFields second.toGoalFields) stored.toGoalFields
  | _ => True

/-- The record of a decision, if the call has returned. -/
def recordOf (cfg : GoalConfig) (outcome : GoalUpdate × Option GoalDefinition) :
    Option (Dict Json) :=
  outcome.2.bind fun g => outcome.1.recordIn cfg g.toGoalFields

/-- The stored goal has everything that the calls which returned have added to `initial`. -/
structure Contains (cfg : GoalConfig) (initial stored : GoalFields)
    (outcomes : List (GoalUpdate × Option GoalDefinition)) : Prop where
  evidence : ∀ evidence g, (.attachEvidence evidence, some g) ∈ outcomes →
    evidence ⊆ stored.evidence
  executions : ∀ executionId g, (.linkExecution executionId, some g) ∈ outcomes →
    executionId ∈ stored.executionIds
  /-- Of the recorded decisions, in some order after the first ones, the last fifty. -/
  decisions : ∃ recorded : List (Dict Json), recorded.Perm (outcomes.filterMap (recordOf cfg)) ∧
    takeLast 50 (supervisorDecisions cfg stored.metadata) =
      takeLast 50 (supervisorDecisions cfg initial.metadata ++ recorded)
  recorded : ∀ decision actor g, (.recordSupervisorDecision decision actor, some g) ∈ outcomes →
    ∃ record, recordOf cfg (.recordSupervisorDecision decision actor, some g) = some record ∧
      record.get? "decision" = some decision
  plan : (∃ call g, (call, some g) ∈ outcomes ∧ call.plans = true) →
    ∃ call g p, (call, some g) ∈ outcomes ∧ call.IsPlan cfg p ∧
      activePlans stored.metadata = (.obj p, .obj p)

section Outcomes

variable {α β : Type} {l : List α} {i : ℕ} {a b x : α}

theorem mem_set_of_ne (hi : l[i]? = some a) (hx : x ∈ l) (hne : x ≠ a) : x ∈ l.set i b := by
  obtain ⟨j, hj⟩ := mem_iff_getElem?.mp hx
  refine mem_iff_getElem?.mpr ⟨j, ?_⟩
  rw [List.getElem?_set, if_neg, hj]
  rintro rfl
  exact hne (Option.some.inj (hj.symm.trans hi))

theorem filterMap_set_perm {f : α → Option β} (hi : l[i]? = some a) (hnone : f a = none) :
    ((l.set i b).filterMap f).Perm (l.filterMap f ++ (f b).toList) := by
  induction l generalizing i with
  | nil => cases hi
  | cons c l ih =>
    cases i with
    | zero =>
      obtain rfl : c = a := Option.some.inj hi
      rw [set_cons_zero, filterMap_cons_none hnone]
      cases hb : f b with
      | none => simp [filterMap_cons_none hb]
      | some record =>
        rw [filterMap_cons_some hb]
        exact (perm_append_singleton _ _).symm
    | succ i =>
      rw [set_cons_succ]
      cases hc : f c with
      | none =>
        rw [filterMap_cons_none hc, filterMap_cons_none hc]
        exact ih hi
      | some record =>
        rw [filterMap_cons_some hc, filterMap_cons_some hc]
        exact (ih hi).cons record

end Outcomes

namespace Contains

variable {cfg : GoalConfig} {initial stored : GoalFields}
  {outcomes : List (GoalUpdate × Option GoalDefinition)}

theorem nil (cfg : GoalConfig) (initial : GoalFields) : Contains cfg initial initial [] := by
  refine ⟨fun _ _ hc => ?_, fun _ _ hc => ?_, ⟨[], .nil, ?_⟩, fun _ _ _ hc => ?_, ?_⟩
  · exact absurd hc not_mem_nil
  · exact absurd hc not_mem_nil
  · rw [append_nil]
  · exact absurd hc not_mem_nil
  · rintro ⟨call, g, hmem, -⟩
    cases hmem

/-- A call that has not returned adds nothing. -/
theorem start (h : Contains cfg initial stored outcomes) (call : GoalUpdate) :
    Contains cfg initial stored (outcomes ++ [(call, none)]) := by
  have hmem : ∀ {c : GoalUpdate} {g : GoalDefinition},
      (c, some g) ∈ outcomes ++ [(call, none)] → (c, some g) ∈ outcomes := by
    intro c g hc
    rcases List.mem_append.mp hc with hc | hc
    · exact hc
    · cases List.mem_singleton.mp hc
  obtain ⟨recorded, hperm, hdecisions⟩ := h.decisions
  refine ⟨fun evidence g hc => h.evidence evidence g (hmem hc),
    fun executionId g hc => h.executions executionId g (hmem hc), ⟨recorded, ?_, hdecisions⟩,
    fun decision actor g hc => h.recorded decision actor g (hmem hc), ?_⟩
  · rw [filterMap_append]
    simpa [recordOf] using hperm
  · rintro ⟨c, g, hc, hplans⟩
    obtain ⟨c', g', p, hc', hp⟩ := h.plan ⟨c, g, hmem hc, hplans⟩
    exact ⟨c', g', p, mem_append_left _ hc', hp⟩

/-- **A save keeps what is stored** if the call has read it, and adds its own. -/
theorem save (h : Contains cfg initial stored outcomes) {i : ℕ} {call : GoalUpdate}
    (hi : outcomes[i]? = some (call, none)) {read : GoalFields} {g : GoalDefinition}
    (hadds : call.Adds cfg read g.toGoalFields) (hcurrent : Current cfg call read stored) :
    Contains cfg initial g.toGoalFields (outcomes.set i (call, some g)) := by
  have hmem : ∀ {x : GoalUpdate × Option GoalDefinition}, x ∈ outcomes.set i (call, some g) →
      x ∈ outcomes ∨ x = (call, some g) := mem_or_eq_of_mem_set
  refine ⟨?_, ?_, ?_, ?_, ?_⟩
  · intro evidence g' hc
    rcases hmem hc with hc | heq
    · have hstored := h.evidence evidence g' hc
      exact fun e he => hadds.kept.1 (hcurrent.evidence (hstored he))
    · exact hadds.evidence evidence (congrArg Prod.fst heq).symm
  · intro executionId g' hc
    rcases hmem hc with hc | heq
    · exact hadds.kept.2 (hcurrent.executions (h.executions executionId g' hc))
    · exact hadds.execution executionId (congrArg Prod.fst heq).symm
  · obtain ⟨recorded, hperm, hdecisions⟩ := h.decisions
    refine ⟨recorded ++ (call.recordIn cfg g.toGoalFields).toList, ?_, ?_⟩
    · have hset : ((outcomes.set i (call, some g)).filterMap (recordOf cfg)).Perm
          (outcomes.filterMap (recordOf cfg) ++ (recordOf cfg (call, some g)).toList) :=
        filterMap_set_perm hi rfl
      exact (hperm.append_right _).trans hset.symm
    · rw [hadds.decisions, ← append_assoc]
      exact takeLast_append_of_eq (hcurrent.decisions.symm.trans hdecisions) _
  · intro decision actor g' hc
    rcases hmem hc with hc | heq
    · exact h.recorded decision actor g' hc
    · obtain ⟨rfl, hg⟩ := Prod.mk.inj heq
      obtain rfl := Option.some.inj hg
      exact hadds.decision decision actor rfl
  · rintro ⟨c, g', hc, hplans⟩
    rcases hown : call.plans with - | -
    · have hc' : (c, some g') ∈ outcomes := by
        rcases hmem hc with hc | heq
        · exact hc
        · obtain rfl := (Prod.mk.inj heq).1
          cases hplans.symm.trans hown
      obtain ⟨c₁, g₁, p, hc₁, hp, hactive⟩ := h.plan ⟨c, g', hc', hplans⟩
      refine ⟨c₁, g₁, p, mem_set_of_ne hi hc₁ ?_, hp, ?_⟩
      · rintro ⟨⟩
      · rw [hadds.noPlan hown, ← hcurrent.plan hown, hactive]
    · obtain ⟨p, hp, hactive⟩ := hadds.plan hown
      refine ⟨call, g, p, ?_, hp, hactive⟩
      exact mem_set (List.getElem?_eq_some_iff.mp hi).1 _

end Contains

/-! ### Every run -/

/-- Calls have read their own goal, and the stored one has what those that saved have
added. -/
structure UpdatesKept (cfg : GoalConfig) (goalId : String) (initial : GoalFields) (s : GoalState)
    (ps : List (GoalUpdate × GoalStage)) : Prop where
  reads : ∀ call φ, (call, φ) ∈ ps → ∀ goal ∈ φ.reads, goal.id = goalId
  contains : ∃ stored, s.2.goals.get goalId = some stored ∧
    Contains cfg initial stored.toGoalFields (ps.map fun p => (p.1, p.2.saved))

namespace UpdatesKept

variable {cfg : GoalConfig} {goalId : String} {initial : GoalFields} {s s' : GoalState}
  {ps : List (GoalUpdate × GoalStage)} {i : ℕ} {call : GoalUpdate} {φ φ' : GoalStage}

theorem start (h : UpdatesKept cfg goalId initial s ps) (call : GoalUpdate) :
    UpdatesKept cfg goalId initial s (ps ++ [(call, ({} : GoalStage))]) := by
  obtain ⟨stored, hget, hcontains⟩ := h.contains
  refine ⟨fun c ψ hc goal hgoal => ?_, stored, hget, ?_⟩
  · rcases List.mem_append.mp hc with hc | hc
    · exact h.reads c ψ hc goal hgoal
    · cases List.mem_singleton.mp hc
      cases hgoal
  · rw [map_append]
    exact hcontains.start call

/-- A step that saves nothing. -/
theorem step (h : UpdatesKept cfg goalId initial s ps) (hi : ps[i]? = some (call, φ))
    (hgoals : s'.2.goals = s.2.goals) (hreads : ∀ goal ∈ φ'.reads, goal.id = goalId)
    (hsaved : φ'.saved = φ.saved) :
    UpdatesKept cfg goalId initial s' (ps.set i (call, φ')) := by
  obtain ⟨stored, hget, hcontains⟩ := h.contains
  refine ⟨fun c ψ hc goal hgoal => ?_, stored, ?_, ?_⟩
  · rcases mem_or_eq_of_mem_set hc with hc | heq
    · exact h.reads c ψ hc goal hgoal
    · obtain ⟨rfl, rfl⟩ := Prod.mk.inj heq
      exact hreads goal hgoal
  · rw [hgoals]
    exact hget
  · obtain ⟨hlt, heq⟩ := List.getElem?_eq_some_iff.mp hi
    have hsame : (ps.map fun p => (p.1, p.2.saved)).set i (call, φ'.saved) =
        ps.map fun p => (p.1, p.2.saved) := by
      have hlt' : i < (ps.map fun p => (p.1, p.2.saved)).length := by
        rw [length_map]
        exact hlt
      have hself : (ps.map fun p => (p.1, p.2.saved))[i] = (call, φ'.saved) := by
        rw [getElem_map, heq, hsaved]
      rw [← hself]
      exact set_getElem_self hlt'
    rw [map_set, hsame]
    exact hcontains

/-- A save by a call that has read what is stored. -/
theorem save {repository : GoalRepository} (h : UpdatesKept cfg goalId initial s ps)
    {first second g : GoalDefinition} (hi : ps[i]? = some (call, ⟨[first, second], none⟩))
    {p : GoalPatch} (hpatch : call.Patches cfg first p)
    (hyields : p.Yields second.toGoalFields g)
    (hcurrent : ∀ stored, s.2.goals.get goalId = some stored →
      Current cfg call (call.readBy first.toGoalFields second.toGoalFields) stored.toGoalFields)
    (hs' : s'.2 = s.2.put (s.2.row repository g)) :
    UpdatesKept cfg goalId initial s'
      (ps.set i (call, ⟨[first, second], some (s.2.row repository g)⟩)) := by
  obtain ⟨stored, hget, hcontains⟩ := h.contains
  have hreads := h.reads call _ (mem_of_getElem? hi)
  have hid : (s.2.row repository g).id = goalId := by
    rw [id_row, hyields.id]
    exact hreads second (by simp)
  refine ⟨fun c ψ hc goal hgoal => ?_, s.2.row repository g, ?_, ?_⟩
  · rcases mem_or_eq_of_mem_set hc with hc | heq
    · exact h.reads c ψ hc goal hgoal
    · obtain ⟨rfl, rfl⟩ := Prod.mk.inj heq
      exact hreads goal hgoal
  · rw [hs', get_put, if_pos hid.symm]
  · rw [map_set]
    refine hcontains.save ?_ (GoalUpdate.adds_of_patches hpatch hyields).row (hcurrent stored hget)
    rw [List.getElem?_map, hi]
    rfl

end UpdatesKept

section Runs

variable {cfg : GoalConfig} {env : Environment} {repository : GoalRepository}
  {memory : ℕ → Except RuntimeException String} {goalId : String}

/-- **One operation** keeps what has been added. -/
theorem updatesKept_step {initial : GoalFields} (s : GoalState)
    (ps : List (GoalUpdate × GoalStage)) (i : ℕ) (call : GoalUpdate) (φ : GoalStage)
    (o : GoalSig.Op) (h : UpdatesKept cfg goalId initial s ps) (hi : ps[i]? = some (call, φ))
    (hcond : SavesCurrent cfg goalId s ps i o) (ho : (goalProtocol cfg goalId).allowed call φ o) :
    (goalProtocol cfg goalId).answers φ o (goalHandler env repository memory o s).1 ∧
    UpdatesKept cfg goalId initial (goalHandler env repository memory o s).2
      (ps.set i (call,
        (goalProtocol cfg goalId).next φ ⟨o, (goalHandler env repository memory o s).1⟩)) := by
  refine ⟨trivial, ?_⟩
  have hreads := h.reads call φ (mem_of_getElem? hi)
  rcases o with o | o
  · exact h.step hi rfl hreads rfl
  · cases o with
    | getGoal id =>
      obtain ⟨-, rfl⟩ := ho
      have hanswer : goalHandler env repository memory (.inr (.getGoal id)) s =
        (s.2.get repository id, s) := rfl
      rw [hanswer]
      rcases hget : s.2.get repository id with - | goal
      · exact h.step hi rfl hreads rfl
      · refine h.step hi rfl (fun g hg => ?_) rfl
        rcases List.mem_append.mp hg with hg | hg
        · exact hreads g hg
        · obtain rfl := List.mem_singleton.mp hg
          exact id_of_get (get_eq_some hget)
    | saveGoal g =>
      obtain ⟨hsaved, first, second, p, hφ, hpatch, hyields⟩ := ho
      obtain ⟨reads, saved⟩ := φ
      obtain rfl : reads = [first, second] := hφ
      obtain rfl : saved = none := hsaved
      have hanswer : goalHandler env repository memory (.inr (.saveGoal g)) s =
        ((s.2.save repository g).1, s.1, (s.2.save repository g).2) := rfl
      rw [hanswer]
      unfold save
      split
      · exact h.step hi rfl hreads rfl
      · exact h.save hi hpatch hyields (fun stored => hcond call first second none stored hi) rfl
    | listGoals => exact ho.elim
    | createGoal g => exact ho.elim
    | storeSummary g actor reason supersedes => exact ho.elim

/-- What a call has returned is what it has saved. -/
theorem returned_eq_saved {call : GoalUpdate} {past : List (Event GoalSig)}
    {rest : GoalRun GoalDefinition} {φ : GoalStage} (h : Updates cfg goalId call rest φ) :
    Proc.returned ⟨call, past, rest⟩ = φ.saved := by
  cases rest with
  | done g => exact (Program.follows_done_iff.mp h).symm
  | raise e => exact (Program.follows_raise_iff.mp h).symm
  | call o k =>
    have ho := (Program.follows_call_iff.mp h).1
    have hsaved : φ.saved = none := by
      rcases o with o | o
      · exact ho
      · cases o with
        | getGoal id => exact ho.1
        | saveGoal g => exact ho.1
        | listGoals => exact ho.elim
        | createGoal g => exact ho.elim
        | storeSummary g actor reason supersedes => exact ho.elim
    exact hsaved.symm

/-- **Goal updates are not lost** in a run in which every save finds in the store what the
call has read. -/
theorem goalUpdates_kept {s : GoalState} {initial : GoalDefinition}
    (hinitial : s.2.goals.get goalId = some initial)
    {q : Pool GoalSig GoalUpdate GoalState RuntimeException GoalDefinition}
    (hrun : Pool.Runs (GoalUpdate.code cfg goalId) (goalHandler env repository memory)
      (Pool.Staged (goalProtocol cfg goalId) (SavesCurrent cfg goalId)) ⟨s, [], []⟩ q) :
    ∃ stored, q.shared.2.goals.get goalId = some stored ∧
      Contains cfg initial.toGoalFields stored.toGoalFields
        (q.procs.map fun p => (p.label, p.returned)) := by
  have hnil : UpdatesKept cfg goalId initial.toGoalFields s [] :=
    ⟨fun _ _ hc => absurd hc not_mem_nil, initial, hinitial, .nil cfg _⟩
  have hstart : ∀ s ps call, UpdatesKept cfg goalId initial.toGoalFields s ps →
      UpdatesKept cfg goalId initial.toGoalFields s
        (ps ++ [(call, (goalProtocol cfg goalId).start)]) := fun _ _ call h => h.start call
  have hcode : ∀ call : GoalUpdate, Updates cfg goalId call (call.code cfg goalId) {} :=
    updates_code
  obtain ⟨hkept, hprocs⟩ := Pool.Runs.staged hcode hstart updatesKept_step hnil hrun
  obtain ⟨stored, hget, hcontains⟩ := hkept.contains
  have houtcomes : (q.procs.map fun p => (p.label, p.returned)) =
      (q.stages (goalProtocol cfg goalId)).map fun p => (p.1, p.2.saved) := by
    rw [Pool.stages, map_map]
    refine map_congr_left fun p hp => ?_
    exact congrArg (Prod.mk p.label) (returned_eq_saved (hprocs p hp))
  rw [houtcomes]
  exact ⟨stored, hget, hcontains⟩

end Runs

/-! ### Two calls -/

/-- A goal nothing has been done for. -/
def openGoal : GoalDefinition where
  id := "g"
  objective := "report"
  createdAt := 0
  updatedAt := 0
  described := report_described
  settled := unsettled_created

def openGoals : GoalState := ({}, ({} : GoalStore).put openGoal)

abbrev UpdatePool := Pool GoalSig GoalUpdate GoalState RuntimeException GoalDefinition

/-- An execution is linked to the goal and evidence is attached to it, and the two calls
take their steps in this order. -/
def twoUpdates (steps : List ℕ) : List (Act GoalUpdate) :=
  .start (.linkExecution 7) :: .start (.attachEvidence [[("kind", .str "log")]]) :: steps.map .step

/-- A check that is enough as long as no evidence and no metadata are stored. -/
def checkCurrent (q : UpdatePool) (i : ℕ) : GoalSig.Op → Bool
  | .inr (.saveGoal _) =>
    match (q.stages (goalProtocol .plain "g"))[i]?, q.shared.2.goals.get "g" with
    | some (call, ⟨[first, second], _⟩), some stored =>
      let read := call.readBy first.toGoalFields second.toGoalFields
      stored.evidence.isEmpty && stored.executionIds.all (· ∈ read.executionIds) &&
        stored.metadata.isEmpty && read.metadata.isEmpty
    | _, _ => true
  | _ => true

theorem savesCurrent_of_check (q : UpdatePool) (i : ℕ) (o : GoalSig.Op) (h : checkCurrent q i o) :
    SavesCurrent .plain "g" q.shared (q.stages (goalProtocol .plain "g")) i o := by
  rcases o with o | o
  · trivial
  · cases o with
    | saveGoal g =>
      intro call first second saved stored hi hget
      simp only [checkCurrent, hi, hget, Bool.and_eq_true, List.isEmpty_iff] at h
      obtain ⟨⟨⟨hevidence, hids⟩, hstored⟩, hread⟩ := h
      refine ⟨?_, ?_, ?_, fun _ => ?_⟩
      · rw [hevidence]
        exact List.nil_subset _
      · exact fun id hid => by simpa using List.all_eq_true.mp hids id hid
      · rw [hstored, hread]
      · rw [hstored, hread]
    | _ => trivial

/-- One call after the other. -/
theorem goalUpdates_kept_serial :
    ∃ q : UpdatePool, q.procs.map (·.returned.isSome) = [true, true] ∧
      ∃ stored, q.shared.2.goals.get "g" = some stored ∧
        Contains .plain openGoal.toGoalFields stored.toGoalFields
          (q.procs.map fun p => (p.label, p.returned)) := by
  have hserial : (Pool.nextsWhere (GoalUpdate.code .plain "g")
      (goalHandler .silent .sql fun _ => .ok "m") checkCurrent ⟨openGoals, [], []⟩
      (twoUpdates [0, 0, 0, 0, 0, 1, 1, 1, 1, 1])).map
        (fun q => q.procs.map (·.returned.isSome)) = some [true, true] := by decide +kernel
  obtain ⟨q, hq, hreturned⟩ := Option.map_eq_some_iff.mp hserial
  exact ⟨q, hreturned, goalUpdates_kept rfl (Pool.runs_of_nextsWhere savesCurrent_of_check hq)⟩

/-- The execution a process has linked. -/
def linkedBy (p : Proc GoalSig GoalUpdate RuntimeException GoalDefinition) : Option Uuid :=
  match p.label, p.returned with
  | .linkExecution executionId, some _ => some executionId
  | _, _ => none

theorem linked_of_head {procs : List (Proc GoalSig GoalUpdate RuntimeException GoalDefinition)}
    {executionId : Uuid} (h : procs.head?.bind linkedBy = some executionId) :
    ∃ g, (.linkExecution executionId, some g) ∈ procs.map fun p => (p.label, p.returned) := by
  obtain ⟨p, hp, hlinked⟩ := Option.bind_eq_some_iff.mp h
  unfold linkedBy at hlinked
  split at hlinked
  next id g hlabel hreturned =>
    obtain rfl := Option.some.inj hlinked
    refine ⟨g, List.mem_map.mpr ⟨p, mem_of_mem_head? hp, ?_⟩⟩
    rw [hlabel, hreturned]
  · cases hlinked

/-- The execution is linked between the reading and the writing of the other call, which
does not know it. -/
theorem goalUpdates_lost :
    ¬ ∀ (cfg : GoalConfig) (env : Environment) (repository : GoalRepository)
      (memory : ℕ → Except RuntimeException String) (goalId : String) (s : GoalState)
      (initial : GoalDefinition) (q : UpdatePool),
      s.2.goals.get goalId = some initial →
      Pool.Runs (GoalUpdate.code cfg goalId) (goalHandler env repository memory)
        (fun _ _ => True) ⟨s, [], []⟩ q →
      (∀ p ∈ q.procs, p.returned.isSome) →
        ∃ stored, q.shared.2.goals.get goalId = some stored ∧
          Contains cfg initial.toGoalFields stored.toGoalFields
            (q.procs.map fun p => (p.label, p.returned)) := by
  intro hall
  have hrun : (Pool.nexts (GoalUpdate.code .plain "g")
      (goalHandler .silent .sql fun _ => .ok "m") ⟨openGoals, [], []⟩
      (twoUpdates [1, 1, 1, 1, 0, 0, 0, 0, 0, 1])).map
        (fun q => (q.procs.all (·.returned.isSome), q.procs.head?.bind linkedBy,
          (q.shared.2.goals.get "g").map (·.executionIds))) =
      some (true, some 7, some []) := by decide +kernel
  obtain ⟨q, hq, hfacts⟩ := Option.map_eq_some_iff.mp hrun
  obtain ⟨hreturned, hfacts⟩ := Prod.mk.inj hfacts
  obtain ⟨hlinked, hids⟩ := Prod.mk.inj hfacts
  obtain ⟨stored, hget, hcontains⟩ := hall .plain .silent .sql (fun _ => .ok "m") "g" openGoals
    openGoal q rfl (Pool.runs_of_nexts hq) (List.all_eq_true.mp hreturned)
  obtain ⟨g, hmem⟩ := linked_of_head hlinked
  have hin : 7 ∈ stored.executionIds := hcontains.executions 7 g hmem
  rw [hget] at hids
  obtain hnone : stored.executionIds = [] := Option.some.inj hids
  rw [hnone] at hin
  cases hin

end OpenAgency
