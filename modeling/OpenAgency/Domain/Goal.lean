/-
Domain/Goal.lean

Goals, what validation asks of them, and the patches that are merged into them.

A payload or a patch is what validation reads out of the caller's dict: one with a key or a
value of another type is refused before anything is read or written, and is left out.
-/
import OpenAgency.Domain.Basic

namespace OpenAgency

inductive GoalStatus where
  | created
  | planning
  | active
  | waitingForInput
  | waitingForApproval
  | paused
  | completed
  | failed
  | cancelled
  | abandoned
  deriving DecidableEq

namespace GoalStatus

def value : GoalStatus → String
  | created => "created"
  | planning => "planning"
  | active => "active"
  | waitingForInput => "waiting_for_input"
  | waitingForApproval => "waiting_for_approval"
  | paused => "paused"
  | completed => "completed"
  | failed => "failed"
  | cancelled => "cancelled"
  | abandoned => "abandoned"

/-- Membership in `TERMINAL_GOAL_STATUSES`. -/
def isTerminal : GoalStatus → Bool
  | completed | failed | cancelled | abandoned => true
  | _ => false

/-- Membership in `ACTIVE_GOAL_STATUSES`. -/
def isActive : GoalStatus → Bool
  | created | planning | active | waitingForInput | waitingForApproval | paused => true
  | _ => false

end GoalStatus

structure GoalFields where
  id : String
  objective : String
  status : GoalStatus := .created
  priority : String := "normal"
  ownerActor : Option String := none
  parentGoalId : Option String := none
  successCriteria : List (Dict Json) := []
  constraints : Dict Json := []
  executionIds : List Uuid := []
  evidence : List (Dict Json) := []
  evaluation : Option (Dict Json) := none
  deadlineAt : Option Time := none
  completedAt : Option Time := none
  createdAt : Time
  updatedAt : Time
  metadata : Dict Json := []

/-- A validated goal: it has an objective, and it was completed at some time just if its
status is terminal. -/
structure GoalDefinition extends GoalFields where
  described : strip objective ≠ ""
  settled : completedAt.isSome = status.isTerminal

/-- The objective of the sample goals. -/
theorem report_described : strip "report" ≠ "" := by decide +kernel

theorem unsettled_created : (none : Option Time).isSome = GoalStatus.created.isTerminal := rfl

theorem settled_completed (t : Time) : (some t).isSome = GoalStatus.completed.isTerminal := rfl

namespace GoalDefinition

/-- `validate_goal`, which sets a missing `completed_at` of a terminal goal to `now`. -/
def validate (f : GoalFields) (now : Time) : Except RuntimeException GoalDefinition :=
  if hobjective : strip f.objective ≠ "" then
    match hc : f.completedAt, ht : f.status.isTerminal with
    | none, true =>
      .ok ⟨{ f with completedAt := some now }, hobjective, by simp [ht]⟩
    | none, false => .ok ⟨f, hobjective, by simp [hc, ht]⟩
    | some _, true => .ok ⟨f, hobjective, by simp [hc, ht]⟩
    | some _, false =>
      .error ⟨.validationError, "completed_at can only be set on a terminal goal"⟩
  else .error ⟨.validationError, "Goal objective is required"⟩

/-- Validation accepts a goal as it is, or sets when it was completed. -/
theorem validate_cases {f : GoalFields} {now : Time} {g : GoalDefinition}
    (h : validate f now = .ok g) :
    g.toGoalFields = f ∨ f.completedAt = none ∧ f.status.isTerminal ∧
      g.toGoalFields = { f with completedAt := some now } := by
  unfold validate at h
  split at h
  · split at h
    next hc ht =>
      cases h
      exact .inr ⟨hc, ht, rfl⟩
    · cases h
      exact .inl rfl
    · cases h
      exact .inl rfl
    · cases h
  · cases h

end GoalDefinition

/-! ### Patches -/

/-- The keys of a patch: missing, or set to a value, which may be `None`. -/
structure GoalPatch where
  objective : Option (Option String) := none
  status : Option (Option GoalStatus) := none
  priority : Option (Option String) := none
  ownerActor : Option (Option String) := none
  parentGoalId : Option (Option String) := none
  successCriteria : Option (Option (List (Dict Json))) := none
  constraints : Option (Option (Dict Json)) := none
  executionIds : Option (Option (List Uuid)) := none
  evidence : Option (Option (List (Dict Json))) := none
  evaluation : Option (Option (Dict Json)) := none
  deadlineAt : Option (Option Time) := none
  completedAt : Option (Option Time) := none
  metadata : Option (Option (Dict Json)) := none

/-- A key that may not be `None`: its value in the patch, or else the current one. -/
def patchedKey {α : Type} (patch : Option (Option α)) (current : α) : Except RuntimeException α :=
  match patch with
  | none => .ok current
  | some (some value) => .ok value
  | some none => .error ⟨.validationError, "Input should not be null"⟩

@[simp] theorem patchedKey_none {α : Type} (current : α) : patchedKey none current = .ok current :=
  rfl

@[simp] theorem patchedKey_some {α : Type} (value current : α) :
    patchedKey (some (some value)) current = .ok value := rfl

theorem patchedKey_keeps {α : Type} {patch : Option (Option α)} {current value : α}
    (hpatch : patchedKey patch current = .ok value)
    (hkeeps : patch = none ∨ patch = some (some current)) : value = current := by
  rcases hkeeps with rfl | rfl
  · exact (Except.ok.inj hpatch).symm
  · exact (Except.ok.inj hpatch).symm

/-- `{**current.model_dump(), **patch, "updated_at": now}`, as far as it has the right types. -/
def GoalPatch.merge (p : GoalPatch) (f : GoalFields) (now : Time) :
    Except RuntimeException GoalFields := do
  let objective ← patchedKey p.objective f.objective
  let status ← patchedKey p.status f.status
  let priority ← patchedKey p.priority f.priority
  let successCriteria ← patchedKey p.successCriteria f.successCriteria
  let constraints ← patchedKey p.constraints f.constraints
  let executionIds ← patchedKey p.executionIds f.executionIds
  let evidence ← patchedKey p.evidence f.evidence
  let metadata ← patchedKey p.metadata f.metadata
  return {
    id := f.id
    objective := objective
    status := status
    priority := priority
    ownerActor := p.ownerActor.getD f.ownerActor
    parentGoalId := p.parentGoalId.getD f.parentGoalId
    successCriteria := successCriteria
    constraints := constraints
    executionIds := executionIds
    evidence := evidence
    evaluation := p.evaluation.getD f.evaluation
    deadlineAt := p.deadlineAt.getD f.deadlineAt
    completedAt := p.completedAt.getD f.completedAt
    createdAt := f.createdAt
    updatedAt := now
    metadata := metadata }

/-! ### What a merge leaves -/

/-- The goal that a patch leaves of `f` once it is validated. -/
structure GoalPatch.Yields (p : GoalPatch) (f : GoalFields) (g : GoalDefinition) : Prop where
  yields : ∃ merged now settledAt, p.merge f now = .ok merged ∧
    GoalDefinition.validate merged settledAt = .ok g

namespace GoalPatch.Yields

variable {p : GoalPatch} {f : GoalFields} {g : GoalDefinition}

/-- Key by key, what a patch leaves; only `completed_at` may be set by the validation. -/
theorem keys (h : p.Yields f g) : g.id = f.id ∧ patchedKey p.status f.status = .ok g.status ∧
    patchedKey p.priority f.priority = .ok g.priority ∧
    patchedKey p.successCriteria f.successCriteria = .ok g.successCriteria ∧
    patchedKey p.constraints f.constraints = .ok g.constraints ∧
    patchedKey p.executionIds f.executionIds = .ok g.executionIds ∧
    patchedKey p.evidence f.evidence = .ok g.evidence ∧
    patchedKey p.metadata f.metadata = .ok g.metadata ∧
    g.evaluation = p.evaluation.getD f.evaluation ∧
    (g.completedAt = p.completedAt.getD f.completedAt ∨
      p.completedAt.getD f.completedAt = none ∧ g.status.isTerminal) := by
  obtain ⟨merged, now, settledAt, hmerge, hvalid⟩ := h
  obtain ⟨objective, -, hmerge⟩ := bind_eq_ok.mp hmerge
  obtain ⟨status, hstatus, hmerge⟩ := bind_eq_ok.mp hmerge
  obtain ⟨priority, hpriority, hmerge⟩ := bind_eq_ok.mp hmerge
  obtain ⟨successCriteria, hcriteria, hmerge⟩ := bind_eq_ok.mp hmerge
  obtain ⟨constraints, hconstraints, hmerge⟩ := bind_eq_ok.mp hmerge
  obtain ⟨executionIds, hids, hmerge⟩ := bind_eq_ok.mp hmerge
  obtain ⟨evidence, hevidence, hmerge⟩ := bind_eq_ok.mp hmerge
  obtain ⟨metadata, hmetadata, hmerge⟩ := bind_eq_ok.mp hmerge
  obtain rfl := Except.ok.inj hmerge
  rcases GoalDefinition.validate_cases hvalid with hg | ⟨hnone, hterminal, hg⟩
  · rw [hg]
    exact ⟨rfl, hstatus, hpriority, hcriteria, hconstraints, hids, hevidence, hmetadata, rfl,
      .inl rfl⟩
  · rw [hg]
    exact ⟨rfl, hstatus, hpriority, hcriteria, hconstraints, hids, hevidence, hmetadata, rfl,
      .inr ⟨hnone, hterminal⟩⟩

theorem id (h : p.Yields f g) : g.id = f.id := h.keys.1

theorem status (h : p.Yields f g) : patchedKey p.status f.status = .ok g.status := h.keys.2.1

theorem priority (h : p.Yields f g) : patchedKey p.priority f.priority = .ok g.priority :=
  h.keys.2.2.1

theorem successCriteria (h : p.Yields f g) :
    patchedKey p.successCriteria f.successCriteria = .ok g.successCriteria := h.keys.2.2.2.1

theorem constraints (h : p.Yields f g) :
    patchedKey p.constraints f.constraints = .ok g.constraints := h.keys.2.2.2.2.1

theorem executionIds (h : p.Yields f g) :
    patchedKey p.executionIds f.executionIds = .ok g.executionIds := h.keys.2.2.2.2.2.1

theorem evidence (h : p.Yields f g) : patchedKey p.evidence f.evidence = .ok g.evidence :=
  h.keys.2.2.2.2.2.2.1

theorem metadata (h : p.Yields f g) : patchedKey p.metadata f.metadata = .ok g.metadata :=
  h.keys.2.2.2.2.2.2.2.1

theorem evaluation (h : p.Yields f g) : g.evaluation = p.evaluation.getD f.evaluation :=
  h.keys.2.2.2.2.2.2.2.2.1

theorem completedAt (h : p.Yields f g) : g.completedAt = p.completedAt.getD f.completedAt ∨
    p.completedAt.getD f.completedAt = none ∧ g.status.isTerminal := h.keys.2.2.2.2.2.2.2.2.2

end GoalPatch.Yields

end OpenAgency
