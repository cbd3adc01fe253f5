/-
TerminalGoals.lean

Goals that are completed, failed or cancelled.

Most operations refuse a terminal goal or leave alone what its record says of its end.
`update_goal`, `attach_evidence` and `evaluate_goal` do neither: the first takes any
patch, the second adds evidence and the third stores a new evaluation.  Where they keep off
these goals, so does every history of calls (`terminalGoals_frozen`).
-/
import OpenAgency.GoalWrites

namespace OpenAgency

open Relational Interaction GoalStore

/-! ### What must stay of a terminal goal -/

/-- Membership in the statuses of a goal that has ended for good. -/
def GoalStatus.isConcluded : GoalStatus → Bool
  | completed | failed | cancelled => true
  | _ => false

theorem GoalStatus.isTerminal_of_isConcluded {status : GoalStatus} (h : status.isConcluded) :
    status.isTerminal := by
  cases status <;> first | rfl | cases h

theorem GoalDefinition.completedAt_isSome {g : GoalDefinition} (h : g.status.isConcluded) :
    g.completedAt.isSome := g.settled.trans (GoalStatus.isTerminal_of_isConcluded h)

/-- The record of how the goal ended is the same. -/
structure SameRecord (g g' : GoalFields) : Prop where
  status : g'.status = g.status
  evidence : g'.evidence = g.evidence
  evaluation : g'.evaluation = g.evaluation
  successCriteria : g'.successCriteria = g.successCriteria
  completedAt : g'.completedAt = g.completedAt

namespace SameRecord

variable {g g' g'' : GoalFields}

theorem refl (g : GoalFields) : SameRecord g g := ⟨rfl, rfl, rfl, rfl, rfl⟩

theorem trans (h : SameRecord g g') (h' : SameRecord g' g'') : SameRecord g g'' :=
  ⟨h'.status.trans h.status, h'.evidence.trans h.evidence, h'.evaluation.trans h.evaluation,
    h'.successCriteria.trans h.successCriteria, h'.completedAt.trans h.completedAt⟩

theorem row {repository : GoalRepository} {s : GoalStore} {f : GoalFields} {g : GoalDefinition}
    (h : SameRecord f g.toGoalFields) : SameRecord f (s.row repository g).toGoalFields := by
  rcases row_cases repository s g with hrow | ⟨t, hrow⟩
  · rwa [hrow]
  · rw [hrow]
    exact ⟨h.status, h.evidence, h.evaluation, h.successCriteria, h.completedAt⟩

end SameRecord

/-- The patch sets nothing of the record to another value. -/
structure GoalPatch.Keeps (p : GoalPatch) (f : GoalFields) : Prop where
  status : p.status = none ∨ p.status = some (some f.status)
  evidence : p.evidence = none ∨ p.evidence = some (some f.evidence)
  evaluation : p.evaluation = none ∨ p.evaluation = some f.evaluation
  successCriteria : p.successCriteria = none ∨ p.successCriteria = some (some f.successCriteria)
  completedAt : p.completedAt = none ∨ p.completedAt = some f.completedAt

/-- A patch that keeps the record of a completed goal leaves it. -/
theorem GoalPatch.Keeps.same {p : GoalPatch} {f : GoalFields} {g : GoalDefinition}
    (h : p.Keeps f) (hyields : p.Yields f g) (hcompleted : f.completedAt.isSome) :
    SameRecord f g.toGoalFields := by
  have hevaluation : p.evaluation.getD f.evaluation = f.evaluation := by
    rcases h.evaluation with he | he <;> rw [he] <;> rfl
  have hcompletedAt : p.completedAt.getD f.completedAt = f.completedAt := by
    rcases h.completedAt with hc | hc <;> rw [hc] <;> rfl
  refine ⟨patchedKey_keeps hyields.status h.status, patchedKey_keeps hyields.evidence h.evidence,
    hyields.evaluation.trans hevaluation, patchedKey_keeps hyields.successCriteria h.successCriteria,
    ?_⟩
  rcases hyields.completedAt with hc | ⟨hc, -⟩
  · exact hc.trans hcompletedAt
  · rw [← hcompletedAt, hc] at hcompleted
    cases hcompleted

theorem GoalPatch.keeps_metadata (f : GoalFields) (metadata : Dict Json) :
    GoalPatch.Keeps { metadata := some (some metadata) } f :=
  ⟨.inl rfl, .inl rfl, .inl rfl, .inl rfl, .inl rfl⟩

/-! ### Calls that keep off terminal goals -/

section Frozen

variable {cfg : GoalConfig} {env : Environment} {repository : GoalRepository}
  {memory : ℕ → Except RuntimeException String}

/-- No goal comes of the patch: its values are refused, or its row. -/
def GoalStore.Refuses (repository : GoalRepository) (s : GoalStore) (p : GoalPatch)
    (f : GoalFields) : Prop := ∀ g, p.Yields f g → s.orphans repository g = true

variable (cfg env repository) in
/-- The call keeps off the terminal goal `goal`: it does not create a goal over it, patch
its record, attach evidence to it or store an evaluation of it. -/
def SparesGoal (s : GoalState) (goal : GoalDefinition) : GoalCall → Prop
  | .createGoal payload =>
    repository = .inMemory → payload.id.getD (toString (env.uuid s.1.uuidsDrawn)) ≠ goal.id
  | .updateGoal id patch => id = goal.id →
      patch.Keeps goal.toGoalFields ∨ s.2.Refuses repository patch goal.toGoalFields
  | .attachEvidence id evidence => id = goal.id → evidence = []
  | .evaluateGoal id evidence persist => id = goal.id → persist = false ∨
      ∃ c ∈ goal.successCriteria, ∃ e ∈ goal.evidence ++ evidence, ¬ GoalEvaluator.Readable cfg c e
  | _ => True

variable (cfg env repository) in
/-- The call keeps off every goal that has ended for good. -/
def SparesConcluded (s : GoalState) (call : GoalCall) : Prop :=
  ∀ goal : GoalDefinition, s.2.goals.get goal.id = some goal → goal.status.isConcluded →
    SparesGoal cfg env repository s goal call

variable {goal : GoalDefinition}

/-- A note leaves the record of every goal. -/
theorem GoalNote.same {s s' : GoalStore} (hnote : GoalNote repository s s') {id : String}
    (hget : s.goals.get id = some goal) (hconcluded : goal.status.isConcluded) :
    ∃ goal', s'.goals.get id = some goal' ∧ SameRecord goal.toGoalFields goal'.toGoalFields := by
  cases hnote with
  | metadata id' old g metadata hold hyields =>
    rw [get_put, id_row, hyields.id]
    by_cases hid : id = old.id
    · obtain rfl := id_of_get (get_eq_some hold)
      obtain rfl : old = goal := by
        rw [hid, get_eq_some hold] at hget
        exact Option.some.inj hget
      rw [if_pos hid]
      refine ⟨_, rfl, SameRecord.row ?_⟩
      exact (GoalPatch.keeps_metadata _ _).same hyields
        (GoalDefinition.completedAt_isSome hconcluded)
    · rw [if_neg hid]
      exact ⟨goal, hget, .refl _⟩
  | summary => exact ⟨goal, hget, .refl _⟩

variable {call : GoalCall} {s : GoalState}

/-- The patches of a call that keeps off a terminal goal keep its record. -/
theorem keeps_of_patches {goal g : GoalDefinition} {p : GoalPatch}
    (hspares : SparesGoal cfg env repository s goal call) (hconcluded : goal.status.isConcluded)
    (hid : call.goalId = some goal.id) (hpatch : call.Patches cfg goal p)
    (hyields : p.Yields goal.toGoalFields g) (hkept : s.2.orphans repository g = false) :
    p.Keeps goal.toGoalFields := by
  have hterminal := GoalStatus.isTerminal_of_isConcluded hconcluded
  -- an operation that refuses terminal goals has no patch here
  have hnot : goal.status.isTerminal = false → p.Keeps goal.toGoalFields := by
    intro h
    rw [hterminal] at h
    cases h
  cases call with
  | createGoal payload => exact hpatch.elim
  | updateGoal id patch =>
    obtain rfl : p = patch := hpatch
    rcases hspares (Option.some.inj hid) with hkeeps | hrefused
    · exact hkeeps
    · rw [hrefused g hyields] at hkept
      cases hkept
  | attachEvidence id evidence => exact absurd (hspares (Option.some.inj hid)) hpatch.1
  | evaluateGoal id evidence persist =>
    obtain ⟨hpersist, checkedAt, e, he, -⟩ := hpatch
    rcases hspares (Option.some.inj hid) with hnot | ⟨c, hc, r, hr, hunreadable⟩
    · rw [hpersist] at hnot
      cases hnot
    · -- the evaluation raises
      rcases GoalEvaluator.criterionResults_cases cfg (goal.evidence ++ evidence) 0
        goal.successCriteria with ⟨hreadable, -⟩ | ⟨-, exc, hexc⟩
      · exact absurd (hreadable c hc r hr) hunreadable
      · rw [GoalEvaluator.evaluate, hexc] at he
        cases he
  | planGoal id plan reason actor => exact hnot hpatch.1
  | replanGoal id plan reason actor => exact hnot hpatch.1
  | recordSupervisorDecision id decision actor => exact hpatch.elim
  | storeGoalSummaryMemory id actor reason => exact hpatch.elim
  | pauseGoal id => exact hnot hpatch.1
  | resumeGoal id => exact hnot hpatch.1
  | cancelGoal id reason => exact hnot hpatch.1
  | completeGoal id evidence evaluation => exact hnot hpatch.1
  | linkExecution id executionId =>
    obtain ⟨ids, rfl⟩ := hpatch
    exact ⟨.inl rfl, .inl rfl, .inl rfl, .inl rfl, .inl rfl⟩
  | applyOperatorAction id payload actor => exact hnot hpatch.1

/-- The write of a call that keeps off a terminal goal leaves its record. -/
theorem GoalWrite.same {s' : GoalStore}
    (hwrite : GoalWrite cfg repository (env.uuid s.1.uuidsDrawn) call s.2 s')
    (hspares : SparesConcluded cfg env repository s call) {id : String}
    (hget : s.2.goals.get id = some goal) (hconcluded : goal.status.isConcluded) :
    ∃ goal', s'.goals.get id = some goal' ∧ SameRecord goal.toGoalFields goal'.toGoalFields := by
  obtain rfl := id_of_get hget
  have hspares := hspares goal hget hconcluded
  cases hwrite with
  | create payload hcall f g hdefaults hyields _ hcreate =>
    subst hcall
    obtain ⟨createdAt, updatedAt, rfl⟩ := hdefaults
    unfold GoalStore.create at hcreate
    split at hcreate
    · cases (Prod.mk.inj hcreate).1
    next hfresh =>
    split at hcreate
    · cases (Prod.mk.inj hcreate).1
    · obtain rfl := (Prod.mk.inj hcreate).2
      have hne : goal.id ≠ g.id := by
        intro heq
        cases repository with
        | sql =>
          refine hfresh ?_
          rw [← heq, hget]
          rfl
        | inMemory => exact hspares rfl (hyields.id.symm.trans heq.symm)
      refine ⟨goal, ?_, .refl _⟩
      rw [get_put, if_neg hne]
      exact hget
  | merge id' old g p hold hid hpatch hyields hkept =>
    rw [get_put, id_row, hyields.id]
    by_cases heq : goal.id = old.id
    · obtain rfl := id_of_get (get_eq_some hold)
      obtain rfl : old = goal := by
        rw [heq, get_eq_some hold] at hget
        exact Option.some.inj hget
      rw [if_pos heq]
      refine ⟨_, rfl, SameRecord.row ?_⟩
      exact (keeps_of_patches hspares hconcluded hid hpatch hyields hkept).same hyields
        (GoalDefinition.completedAt_isSome hconcluded)
    · rw [if_neg heq]
      exact ⟨goal, hget, .refl _⟩

/-- **One call** leaves the record of the terminal goals it keeps off. -/
theorem goalStep_same (hspares : SparesConcluded cfg env repository s call) {id : String}
    (hget : s.2.goals.get id = some goal) (hconcluded : goal.status.isConcluded) :
    ∃ goal', (goalStep cfg env repository memory call s).2.2.goals.get id = some goal' ∧
      SameRecord goal.toGoalFields goal'.toGoalFields := by
  obtain ⟨m, hwrite, hnotes⟩ : GoalEffect cfg repository (env.uuid s.1.uuidsDrawn) call s.2
      (goalStep cfg env repository memory call s).2.2 := effect_code call s
  have hm : ∃ goal', m.goals.get id = some goal' ∧
      SameRecord goal.toGoalFields goal'.toGoalFields := by
    rcases hwrite with rfl | hwrite
    · exact ⟨goal, hget, .refl _⟩
    · exact hwrite.same hspares hget hconcluded
  generalize (goalStep cfg env repository memory call s).2.2 = s' at hnotes
  induction hnotes with
  | refl => exact hm
  | tail _ hnote ih =>
    obtain ⟨goal₁, hget₁, hsame₁⟩ := ih
    obtain ⟨goal₂, hget₂, hsame₂⟩ := hnote.same hget₁ (by rwa [hsame₁.status])
    exact ⟨goal₂, hget₂, hsame₁.trans hsame₂⟩

/-- **Terminal goals are frozen** along every history of calls that keep off them. -/
theorem terminalGoals_frozen {s₀ s : GoalState}
    {h : List (GoalCall × Except RuntimeException Unit)}
    (hserves : Serves (goalStep cfg env repository memory) (SparesConcluded cfg env repository)
      s₀ h s) {id : String} {goal : GoalDefinition} (hget : s₀.2.goals.get id = some goal)
    (hconcluded : goal.status.isConcluded) :
    ∃ goal', s.2.goals.get id = some goal' ∧ SameRecord goal.toGoalFields goal'.toGoalFields := by
  refine hserves.invariant (I := fun _ s => ∃ goal', s.2.goals.get id = some goal' ∧
    SameRecord goal.toGoalFields goal'.toGoalFields) ⟨goal, hget, .refl _⟩ ?_
  rintro h t call ⟨goal₁, hget₁, hsame₁⟩ hspares
  obtain ⟨goal₂, hget₂, hsame₂⟩ := goalStep_same hspares hget₁ (by rwa [hsame₁.status])
  exact ⟨goal₂, hget₂, hsame₁.trans hsame₂⟩

end Frozen

/-! ### A completed goal -/

/-- A goal that has been completed with one record of evidence. -/
def completedGoal : GoalDefinition where
  id := "g"
  objective := "report"
  status := .completed
  evidence := [[("kind", .str "report")]]
  completedAt := some 0
  createdAt := 0
  updatedAt := 0
  described := report_described
  settled := settled_completed 0

def completedGoals : GoalState := ({}, ({} : GoalStore).put completedGoal)

/-- An execution is linked to a completed goal. -/
theorem terminalGoals_frozen_link :
    ∃ s : GoalState, (∃ goal, s.2.goals.get "g" = some goal ∧ goal.executionIds = [7]) ∧
      ∃ goal', s.2.goals.get "g" = some goal' ∧
        SameRecord completedGoal.toGoalFields goal'.toGoalFields := by
  have hspares : SparesConcluded .plain .silent .sql completedGoals (.linkExecution "g" 7) :=
    fun _ _ _ => trivial
  refine ⟨(goalStep .plain .silent .sql (fun _ => .ok "m") (.linkExecution "g" 7)
    completedGoals).2, ⟨_, rfl, rfl⟩, ?_⟩
  exact terminalGoals_frozen (.call .start hspares) rfl rfl

/-- Evidence is attached to the completed goal. -/
theorem terminalGoals_change :
    ¬ ∀ (cfg : GoalConfig) (env : Environment) (repository : GoalRepository)
      (memory : ℕ → Except RuntimeException String) (call : GoalCall) (s : GoalState) (id : String)
      (goal : GoalDefinition), s.2.goals.get id = some goal → goal.status.isConcluded →
        (∃ e, (goalStep cfg env repository memory call s).1 = .error e) ∨
        ∃ goal', (goalStep cfg env repository memory call s).2.2.goals.get id = some goal' ∧
          SameRecord goal.toGoalFields goal'.toGoalFields := by
  intro hall
  rcases hall .plain .silent .sql (fun _ => .ok "m")
    (.attachEvidence "g" [[("kind", .str "note")]]) completedGoals "g" completedGoal rfl rfl with
    ⟨e, he⟩ | ⟨goal', hget', hsame⟩
  · cases he
  · obtain rfl := Option.some.inj hget'
    exact absurd (congrArg List.length hsame.evidence) (by decide)

end OpenAgency
