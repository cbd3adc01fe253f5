/-
CompletionGate.lean

The gate in front of a completion: a completed goal has evidence that the evaluator finds
sufficient, and a high-risk one was reviewed when it was completed.

Only `complete_goal` asks for this.  `create_goal` and `update_goal` write any record the
validation accepts, and `attach_evidence` can add evidence that cannot be evaluated; where
these write no completed goal that the gate would refuse, every history of calls keeps
the gate (`completionGate_kept`).  Whether a review was there when a goal was completed is
kept beside the store, since the record does not tell.
-/
import OpenAgency.GoalWrites

namespace OpenAgency

open Relational Interaction GoalStore GoalEvaluator

/-! ### The gate -/

/-- The goal may stand as completed, where `authorised` says whether an independent review
was there when it was completed. -/
structure Gated (cfg : GoalConfig) (authorised : Bool) (goal : GoalFields) : Prop where
  evidence : goal.evidence ≠ []
  sufficient : ∀ now, ∃ e, evaluate cfg goal goal.evidence now = .ok e ∧ e.sufficient = true
  reviewed : (completionReviewRequirement cfg goal).required = true → authorised = true

/-- The fields that the gate looks at. -/
structure SameGate (f g : GoalFields) : Prop where
  status : g.status = f.status
  evidence : g.evidence = f.evidence
  successCriteria : g.successCriteria = f.successCriteria
  constraints : g.constraints = f.constraints
  priority : g.priority = f.priority
  evaluation : g.evaluation = f.evaluation

section Gate

variable {cfg : GoalConfig} {authorised : Bool} {f g : GoalFields}

theorem gated_iff : Gated cfg authorised f ↔
    GoalEvaluator.Sufficient cfg f.successCriteria f.evidence ∧
      ((completionReviewRequirement cfg f).required = true → authorised = true) := by
  constructor
  · intro h
    exact ⟨evaluate_sufficient_iff.mp (h.sufficient 0), h.reviewed⟩
  · rintro ⟨hsufficient, hreviewed⟩
    exact ⟨hsufficient.nonempty, fun now => evaluate_sufficient_iff.mpr hsufficient,
      hreviewed⟩

/-- A review is required for the constraints, the priority and the criteria of a goal. -/
theorem completionReviewRequirement_congr (hconstraints : g.constraints = f.constraints)
    (hpriority : g.priority = f.priority) (hcriteria : g.successCriteria = f.successCriteria) :
    completionReviewRequirement cfg g = completionReviewRequirement cfg f := by
  simp only [completionReviewRequirement, hconstraints, hpriority, hcriteria]

theorem Gated.congr (h : Gated cfg authorised f) (hsame : SameGate f g) :
    Gated cfg authorised g := by
  obtain ⟨hsufficient, hreviewed⟩ := gated_iff.mp h
  refine gated_iff.mpr ⟨?_, ?_⟩
  · rw [hsame.successCriteria, hsame.evidence]
    exact hsufficient
  · rw [completionReviewRequirement_congr hsame.constraints hsame.priority hsame.successCriteria]
    exact hreviewed

/-- Evidence that can be read may be added to a completed goal. -/
theorem Gated.append (h : Gated cfg authorised f) {more : List (Dict Json)}
    (hmore : ∀ c ∈ f.successCriteria, ∀ e ∈ more, GoalEvaluator.Readable cfg c e)
    (hevidence : g.evidence = f.evidence ++ more) (hcriteria : g.successCriteria = f.successCriteria)
    (hconstraints : g.constraints = f.constraints) (hpriority : g.priority = f.priority) :
    Gated cfg authorised g := by
  obtain ⟨hsufficient, hreviewed⟩ := gated_iff.mp h
  refine gated_iff.mpr ⟨?_, ?_⟩
  · rw [hcriteria, hevidence]
    exact hsufficient.append hmore
  · rw [completionReviewRequirement_congr hconstraints hpriority hcriteria]
    exact hreviewed

namespace SameGate

theorem refl (f : GoalFields) : SameGate f f := ⟨rfl, rfl, rfl, rfl, rfl, rfl⟩

theorem row {repository : GoalRepository} {s : GoalStore} (g : GoalDefinition) :
    SameGate g.toGoalFields (s.row repository g).toGoalFields := by
  rcases row_cases repository s g with hrow | ⟨t, hrow⟩
  · rw [hrow]
    exact .refl _
  · rw [hrow]
    exact ⟨rfl, rfl, rfl, rfl, rfl, rfl⟩

end SameGate

/-- What `complete_goal` finds sufficient passes the gate. -/
theorem gated_of_completionEvaluation {goal : GoalFields} {evidence : List (Dict Json)}
    {evaluation : Option (Dict Json)} {checkedAt : Time} {result : GoalEvaluation}
    (hresult : GoalService.completionEvaluation cfg goal evidence evaluation checkedAt = .ok result)
    (hsufficient : result.sufficient = true) (hevidence : g.evidence = evidence)
    (hcriteria : g.successCriteria = goal.successCriteria)
    (hconstraints : g.constraints = goal.constraints) (hpriority : g.priority = goal.priority) :
    Gated cfg (hasIndependentCompletionAuthority cfg goal evidence evaluation) g := by
  obtain ⟨e, he, hcompletion⟩ := bind_eq_ok.mp hresult
  refine gated_iff.mpr ⟨?_, ?_⟩
  · rw [hcriteria, hevidence]
    refine evaluate_sufficient_iff.mp ⟨e, he, ?_⟩
    -- the review can only take sufficiency away
    simp only at hcompletion
    split at hcompletion
    · split at hcompletion
      · obtain rfl := Except.ok.inj hcompletion
        exact hsufficient
      · obtain rfl := Except.ok.inj hcompletion
        cases hsufficient
    · obtain rfl := Except.ok.inj hcompletion
      exact hsufficient
  · rw [completionReviewRequirement_congr hconstraints hpriority hcriteria]
    intro hrequired
    by_contra hauthority
    simp only [hrequired, if_true, Bool.not_eq_true _ |>.mp hauthority, Bool.false_eq_true,
      if_false] at hcompletion
    obtain rfl := Except.ok.inj hcompletion
    cases hsufficient

end Gate

/-! ### Calls that keep the gate -/

/-- The store, and for each goal whether an independent review was there when it was
completed. -/
abbrev GateState := GoalState × (String → Bool)

section Calls

variable {cfg : GoalConfig} {env : Environment} {repository : GoalRepository}
  {memory : ℕ → Except RuntimeException String}

variable (cfg) in
/-- Whether an independent review is there when a call completes a goal: `complete_goal`
looks for one in the goal it found, with the evidence and the evaluation it was given. -/
def completionAuthority (call : GoalCall) (before : Option GoalDefinition) (after : GoalFields) :
    Bool :=
  match call, before with
  | .completeGoal _ evidence evaluation, some goal =>
    hasIndependentCompletionAuthority cfg goal.toGoalFields (goal.evidence ++ evidence) evaluation
  | _, _ => hasIndependentCompletionAuthority cfg after after.evidence none

variable (cfg) in
/-- The same for the goal that the call leaves, which may have been completed before. -/
def authorityAfter (s : GateState) (call : GoalCall) (id : String) (after : GoalFields) : Bool :=
  if after.status = .completed ∧ (s.1.2.goals.get id).all (·.status ≠ .completed) then
    completionAuthority cfg call (s.1.2.goals.get id) after
  else s.2 id

variable (cfg env repository memory) in
/-- A call, made when no other is going on. -/
def gateStep (call : GoalCall) (s : GateState) : Except RuntimeException Unit × GateState :=
  let r := goalStep cfg env repository memory call s.1
  (r.1, r.2, fun id =>
    match r.2.2.goals.get id with
    | some after => authorityAfter cfg s call id after.toGoalFields
    | none => s.2 id)

/-- Completed goals have passed the gate. -/
def AllGated (cfg : GoalConfig) (s : GateState) : Prop :=
  ∀ id (goal : GoalDefinition), s.1.2.goals.get id = some goal → goal.status = .completed →
    Gated cfg (s.2 id) goal.toGoalFields

variable (cfg env repository) in
/-- The call writes no completed goal that the gate would refuse: it creates none, it patches
none into the store, and it attaches no evidence that cannot be read to one. -/
def KeepsGate (s : GateState) (call : GoalCall) : Prop :=
  match call with
  | .createGoal payload => ∀ createdAt updatedAt g s',
      payload.toGoalPatch.Yields {
        id := payload.id.getD (toString (env.uuid s.1.1.uuidsDrawn)), objective := ""
        createdAt := createdAt, updatedAt := updatedAt } g →
      s.1.2.create repository g = (.ok g, s') → g.status = .completed →
      Gated cfg (authorityAfter cfg s call g.id g.toGoalFields) g.toGoalFields
  | .updateGoal id patch => ∀ goal g, s.1.2.get repository id = some goal →
      patch.Yields goal.toGoalFields g → s.1.2.orphans repository g = false →
      g.status = .completed → Gated cfg (authorityAfter cfg s call id g.toGoalFields) g.toGoalFields
  | .attachEvidence id evidence => ∀ goal, s.1.2.get repository id = some goal →
      goal.status = .completed → ∀ c ∈ goal.successCriteria, ∀ e ∈ evidence,
        GoalEvaluator.Readable cfg c e
  | _ => True

variable {s : GateState} {call : GoalCall}

theorem authorityAfter_congr {id : String} {f g : GoalFields} (hsame : SameGate f g) :
    authorityAfter cfg s call id g = authorityAfter cfg s call id f := by
  have hauthority : completionAuthority cfg call (s.1.2.goals.get id) g =
      completionAuthority cfg call (s.1.2.goals.get id) f := by
    have hrecord : hasIndependentCompletionAuthority cfg g g.evidence none =
        hasIndependentCompletionAuthority cfg f f.evidence none := by
      simp only [hasIndependentCompletionAuthority, hsame.evidence, hsame.evaluation]
    cases call with
    | completeGoal id' evidence evaluation =>
      rcases s.1.2.goals.get id with - | goal
      · exact hrecord
      · rfl
    | _ => exact hrecord
  simp only [authorityAfter, hsame.status, hauthority]

/-- A goal that was completed before the call keeps what is known of its review. -/
theorem authorityAfter_of_completed {id : String} {goal : GoalDefinition} {after : GoalFields}
    (hget : s.1.2.goals.get id = some goal) (hcompleted : goal.status = .completed) :
    authorityAfter cfg s call id after = s.2 id := by
  simp [authorityAfter, hget, hcompleted]

/-- The gate holds of the goals of a store in the course of a call. -/
def GatedAfter (cfg : GoalConfig) (s : GateState) (call : GoalCall) (s' : GoalStore) : Prop :=
  ∀ id (goal : GoalDefinition), s'.goals.get id = some goal → goal.status = .completed →
    Gated cfg (authorityAfter cfg s call id goal.toGoalFields) goal.toGoalFields

/-- Before the call. -/
theorem AllGated.gatedAfter (h : AllGated cfg s) (call : GoalCall) :
    GatedAfter cfg s call s.1.2 := by
  intro id goal hget hcompleted
  rw [authorityAfter_of_completed hget hcompleted]
  exact h id goal hget hcompleted

variable {g : GoalDefinition}

variable {s' : GoalStore}

/-- Writing one row: only its gate is at stake. -/
theorem GatedAfter.put (h : GatedAfter cfg s call s')
    (hg : g.status = .completed →
      Gated cfg (authorityAfter cfg s call g.id g.toGoalFields) g.toGoalFields) :
    GatedAfter cfg s call (s'.put g) := by
  intro id goal hget hcompleted
  rw [get_put] at hget
  split at hget
  next hid =>
    obtain rfl := Option.some.inj hget
    rw [hid]
    exact hg hcompleted
  · exact h id goal hget hcompleted

theorem GatedAfter.put_row (h : GatedAfter cfg s call s')
    (hg : g.status = .completed →
      Gated cfg (authorityAfter cfg s call g.id g.toGoalFields) g.toGoalFields) :
    GatedAfter cfg s call (s'.put (s'.row repository g)) := by
  have hrow : SameGate g.toGoalFields (s'.row repository g).toGoalFields := .row g
  refine h.put fun hcompleted => ?_
  rw [id_row, authorityAfter_congr hrow]
  exact (hg (hrow.status.symm.trans hcompleted)).congr hrow

variable {p : GoalPatch}

/-- A patch that does not touch what the gate looks at. -/
theorem sameGate_of_yields {f : GoalFields} (hyields : p.Yields f g) (hstatus : p.status = none)
    (hevidence : p.evidence = none) (hcriteria : p.successCriteria = none)
    (hconstraints : p.constraints = none) (hpriority : p.priority = none)
    (hevaluation : p.evaluation = none) :
    SameGate f g.toGoalFields := by
  refine ⟨patchedKey_keeps hyields.status (.inl hstatus),
    patchedKey_keeps hyields.evidence (.inl hevidence),
    patchedKey_keeps hyields.successCriteria (.inl hcriteria),
    patchedKey_keeps hyields.constraints (.inl hconstraints),
    patchedKey_keeps hyields.priority (.inl hpriority), ?_⟩
  rw [hyields.evaluation, hevaluation]
  rfl

theorem GoalNote.gatedAfter {s₁ s' : GoalStore} (hnote : GoalNote repository s₁ s')
    (h : GatedAfter cfg s call s₁) :
    GatedAfter cfg s call s' := by
  cases hnote with
  | metadata id old g metadata hold hyields =>
    have hsame := sameGate_of_yields hyields rfl rfl rfl rfl rfl rfl
    refine h.put_row fun hcompleted => ?_
    have hget := get_eq_some hold
    obtain rfl := id_of_get hget
    rw [hyields.id, authorityAfter_congr hsame]
    exact (h _ old hget (hsame.status.symm.trans hcompleted)).congr hsame
  | summary => exact h

/-- A goal that is not terminal is not completed by a patch that sets no status, or another
one. -/
theorem not_completed_of_yields {f : GoalFields} (hyields : p.Yields f g)
    (hterminal : f.status.isTerminal = false)
    (hstatus : p.status = none ∨ ∃ status, p.status = some (some status) ∧ status ≠ .completed) :
    g.status ≠ .completed := by
  intro hcompleted
  have hkey := hyields.status
  rcases hstatus with hnone | ⟨status, hsome, hne⟩
  · rw [hnone, patchedKey_none] at hkey
    rw [Except.ok.inj hkey, hcompleted] at hterminal
    cases hterminal
  · rw [hsome, patchedKey_some] at hkey
    exact hne ((Except.ok.inj hkey).trans hcompleted)

/-- A patch of a call that keeps the gate yields a goal that passes it, if it is completed. -/
theorem gated_of_patches {id : String} {goal g : GoalDefinition} (hgated : AllGated cfg s)
    (hkeeps : KeepsGate cfg env repository s call) (hget : s.1.2.get repository id = some goal)
    (hid : call.goalId = some id) (hpatch : call.Patches cfg goal p)
    (hyields : p.Yields goal.toGoalFields g) (hkept : s.1.2.orphans repository g = false)
    (hcompleted : g.status = .completed) :
    Gated cfg (authorityAfter cfg s call id g.toGoalFields) g.toGoalFields := by
  have hstored := get_eq_some hget
  -- a patch that leaves the status alone finds the goal completed
  have hbefore : p.status = none → goal.status = .completed := fun hnone =>
    (patchedKey_keeps hyields.status (.inl hnone)).symm.trans hcompleted
  have hnot : goal.status.isTerminal = false →
      (p.status = none ∨ ∃ status, p.status = some (some status) ∧ status ≠ .completed) →
      Gated cfg (authorityAfter cfg s call id g.toGoalFields) g.toGoalFields :=
    fun hterminal hstatus => absurd hcompleted (not_completed_of_yields hyields hterminal hstatus)
  cases call with
  | createGoal payload => exact hpatch.elim
  | updateGoal id' patch =>
    obtain rfl : p = patch := hpatch
    obtain rfl : id' = id := Option.some.inj hid
    exact hkeeps goal g hget hyields hkept hcompleted
  | attachEvidence id' evidence =>
    obtain ⟨-, rfl⟩ := hpatch
    obtain rfl : id' = id := Option.some.inj hid
    have hgoal := hbefore rfl
    rw [authorityAfter_of_completed hstored hgoal]
    refine (hgated _ goal hstored hgoal).append (hkeeps goal hget hgoal) ?_ ?_ ?_ ?_
    · exact (Except.ok.inj hyields.evidence).symm
    · exact patchedKey_keeps hyields.successCriteria (.inl rfl)
    · exact patchedKey_keeps hyields.constraints (.inl rfl)
    · exact patchedKey_keeps hyields.priority (.inl rfl)
  | evaluateGoal id' evidence persist =>
    obtain ⟨-, checkedAt, e, -, rfl⟩ := hpatch
    have hgoal := hbefore rfl
    rw [authorityAfter_of_completed hstored hgoal]
    obtain ⟨hsufficient, hreviewed⟩ := gated_iff.mp (hgated _ goal hstored hgoal)
    refine gated_iff.mpr ⟨?_, ?_⟩
    · rw [patchedKey_keeps hyields.successCriteria (.inl rfl),
        patchedKey_keeps hyields.evidence (.inl rfl)]
      exact hsufficient
    · rw [completionReviewRequirement_congr (patchedKey_keeps hyields.constraints (.inl rfl))
        (patchedKey_keeps hyields.priority (.inl rfl))
        (patchedKey_keeps hyields.successCriteria (.inl rfl))]
      exact hreviewed
  | planGoal id' plan reason actor =>
    obtain ⟨hterminal, status, metadata, hstatus, rfl⟩ := hpatch
    refine hnot hterminal (.inr ⟨status, rfl, fun h => ?_⟩)
    rw [h] at hstatus
    cases hstatus
  | replanGoal id' plan reason actor =>
    obtain ⟨hterminal, status, metadata, hstatus, rfl⟩ := hpatch
    refine hnot hterminal (.inr ⟨status, rfl, fun h => ?_⟩)
    rw [h] at hstatus
    cases hstatus
  | recordSupervisorDecision id' decision actor => exact hpatch.elim
  | storeGoalSummaryMemory id' actor reason => exact hpatch.elim
  | pauseGoal id' =>
    obtain ⟨hterminal, rfl⟩ := hpatch
    exact hnot hterminal (.inr ⟨_, rfl, by decide⟩)
  | resumeGoal id' =>
    obtain ⟨hterminal, rfl⟩ := hpatch
    exact hnot hterminal (.inr ⟨_, rfl, by decide⟩)
  | cancelGoal id' reason =>
    obtain ⟨hterminal, now, metadata, rfl⟩ := hpatch
    exact hnot hterminal (.inr ⟨_, rfl, by decide⟩)
  | completeGoal id' evidence evaluation =>
    obtain ⟨hterminal, checkedAt, result, hresult, ⟨hsufficient, now, rfl⟩ | rfl⟩ := hpatch
    · -- the review was looked for in the goal as it was found
      have hauthority : authorityAfter cfg s (.completeGoal id' evidence evaluation) id
          g.toGoalFields = hasIndependentCompletionAuthority cfg goal.toGoalFields
            (goal.evidence ++ evidence) evaluation := by
        have hopen : goal.status ≠ .completed := by
          intro h
          rw [h] at hterminal
          cases hterminal
        simp [authorityAfter, completionAuthority, hstored, hcompleted, hopen]
      rw [hauthority]
      refine gated_of_completionEvaluation hresult hsufficient ?_ ?_ ?_ ?_
      · exact (Except.ok.inj hyields.evidence).symm
      · exact patchedKey_keeps hyields.successCriteria (.inl rfl)
      · exact patchedKey_keeps hyields.constraints (.inl rfl)
      · exact patchedKey_keeps hyields.priority (.inl rfl)
    · exact hnot hterminal (.inl rfl)
  | linkExecution id' executionId =>
    obtain ⟨ids, rfl⟩ := hpatch
    have hgoal := hbefore rfl
    have hsame := sameGate_of_yields hyields rfl rfl rfl rfl rfl rfl
    rw [authorityAfter_of_completed hstored hgoal]
    exact (hgated _ goal hstored hgoal).congr hsame
  | applyOperatorAction id' payload actor =>
    obtain ⟨hterminal, rfl | rfl | ⟨now, metadata, rfl⟩ | ⟨constraints, rfl⟩ | ⟨criteria, rfl⟩ |
      ⟨owner, rfl⟩⟩ := hpatch
    · exact hnot hterminal (.inr ⟨_, rfl, by decide⟩)
    · exact hnot hterminal (.inr ⟨_, rfl, by decide⟩)
    · exact hnot hterminal (.inr ⟨_, rfl, by decide⟩)
    · exact hnot hterminal (.inl rfl)
    · exact hnot hterminal (.inl rfl)
    · exact hnot hterminal (.inl rfl)

/-- The write of a call that keeps the gate. -/
theorem GoalWrite.gatedAfter
    (hwrite : GoalWrite cfg repository (env.uuid s.1.1.uuidsDrawn) call s.1.2 s')
    (hgated : AllGated cfg s) (hkeeps : KeepsGate cfg env repository s call) :
    GatedAfter cfg s call s' := by
  cases hwrite with
  | create payload hcall f g hdefaults hyields _ hcreate =>
    subst hcall
    obtain ⟨createdAt, updatedAt, rfl⟩ := hdefaults
    have hnew := hkeeps createdAt updatedAt g s' hyields hcreate
    unfold GoalStore.create at hcreate
    split at hcreate
    · cases (Prod.mk.inj hcreate).1
    split at hcreate
    · cases (Prod.mk.inj hcreate).1
    · obtain rfl := (Prod.mk.inj hcreate).2
      exact (hgated.gatedAfter _).put hnew
  | merge id goal g p hget hid hpatch hyields hkept =>
    refine (hgated.gatedAfter call).put_row fun hcompleted => ?_
    obtain rfl := id_of_get (get_eq_some hget)
    rw [hyields.id]
    exact gated_of_patches hgated hkeeps hget hid hpatch hyields hkept hcompleted

/-- **One call** that keeps the gate. -/
theorem gateStep_gated (hgated : AllGated cfg s) (hkeeps : KeepsGate cfg env repository s call) :
    AllGated cfg (gateStep cfg env repository memory call s).2 := by
  obtain ⟨m, hwrite, hnotes⟩ : GoalEffect cfg repository (env.uuid s.1.1.uuidsDrawn) call s.1.2
      (goalStep cfg env repository memory call s.1).2.2 := effect_code call s.1
  have hm : GatedAfter cfg s call m := by
    rcases hwrite with rfl | hwrite
    · exact hgated.gatedAfter call
    · exact hwrite.gatedAfter hgated hkeeps
  have hafter : GatedAfter cfg s call (goalStep cfg env repository memory call s.1).2.2 := by
    generalize (goalStep cfg env repository memory call s.1).2.2 = s' at hnotes
    induction hnotes with
    | refl => exact hm
    | tail _ hnote ih => exact hnote.gatedAfter ih
  intro id goal hget hcompleted
  have hauthority : (gateStep cfg env repository memory call s).2.2 id =
      authorityAfter cfg s call id goal.toGoalFields := by
    show (match (goalStep cfg env repository memory call s.1).2.2.goals.get id with
      | some after => authorityAfter cfg s call id after.toGoalFields
      | none => s.2 id) = _
    rw [show (goalStep cfg env repository memory call s.1).2.2.goals.get id = some goal from hget]
  rw [hauthority]
  exact hafter id goal hget hcompleted

/-- **Completed goals have passed the gate** in every state that a history of calls leads to,
where the calls that do not ask for it keep it. -/
theorem completionGate_kept {s₀ s : GateState}
    {h : List (GoalCall × Except RuntimeException Unit)} (hgated : AllGated cfg s₀)
    (hserves : Serves (gateStep cfg env repository memory) (KeepsGate cfg env repository)
      s₀ h s) : AllGated cfg s :=
  hserves.invariant (I := fun _ s => AllGated cfg s) hgated fun _ _ _ hgated hkeeps =>
    gateStep_gated hgated hkeeps

end Calls

/-! ### A goal with a criterion -/

/-- A goal that asks for a report. -/
def reportGoal : GoalPayload where
  id := some "g"
  objective := some (some "report")
  successCriteria := some (some [[("kind", .str "report")]])

/-- The goal is created, and completed with a report. -/
theorem completionGate_kept_report :
    ∃ s : GateState, (∃ goal, s.1.2.goals.get "g" = some goal ∧ goal.status = .completed) ∧
      AllGated .plain s := by
  have hcreate : KeepsGate .plain .silent .sql (({}, {}), fun _ => false)
      (.createGoal reportGoal) := by
    intro createdAt updatedAt g s' hyields _ hcompleted
    have hstatus : GoalStatus.created = g.status := Except.ok.inj hyields.status
    rw [hcompleted] at hstatus
    cases hstatus
  have hcreated : Serves (gateStep .plain .silent .sql fun _ => .ok "m")
      (KeepsGate .plain .silent .sql) (({}, {}), fun _ => false) _ _ := .call .start hcreate
  have hcomplete : KeepsGate .plain .silent .sql
      (gateStep .plain .silent .sql (fun _ => .ok "m") (.createGoal reportGoal)
        (({}, {}), fun _ => false)).2
      (.completeGoal "g" [[("kind", .str "report")]] none) := trivial
  have hserves := Serves.call hcreated hcomplete
  refine ⟨_, ?_, completionGate_kept ?_ hserves⟩
  · exact ⟨_, rfl, by decide +kernel⟩
  · exact fun id goal hget => nomatch hget

/-- The goal is patched to be completed, without evidence. -/
theorem completionGate_passed :
    ¬ ∀ (cfg : GoalConfig) (env : Environment) (repository : GoalRepository)
      (memory : ℕ → Except RuntimeException String) (h : List (GoalCall × Except RuntimeException Unit))
      (s : GateState), Serves (gateStep cfg env repository memory) (fun _ _ => True)
        (({}, {}), fun _ => false) h s → AllGated cfg s := by
  intro hall
  have hgated := hall .plain .silent .sql (fun _ => .ok "m") _ _
    (.call (.call .start trivial (i := .createGoal reportGoal)) trivial
      (i := .updateGoal "g" { status := some (some .completed) }))
  exact absurd rfl (hgated "g" _ rfl rfl).evidence

end OpenAgency
