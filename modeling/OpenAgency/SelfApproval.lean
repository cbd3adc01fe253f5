/-
SelfApproval.lean

High-risk goals that only workers vouch for.

`complete_goal` asks for an independent review of a high-risk goal: a record of a review, with
no worker as its actor.  A review whose worker is also its actor does not count
(`completeGoal_selfSigned`).  A review without an actor does, also where a worker has
produced it, and so does a record that only sets `final_approval` (`completeGoal_unsigned`).
-/
import OpenAgency.CompletionGate

namespace OpenAgency

open Relational Interaction Program GoalService GoalStore

section Records

variable (cfg : GoalConfig)

/-- The record has the kind of a final approval, the role of a reviewer or the flag of an
independent review. -/
def CarriesReview (item : Dict Json) : Prop :=
  cfg.lowerText item ["kind", "type"] ∈ finalApprovalEvidenceKinds ∨
  cfg.lowerText item ["reviewer_role", "evaluator_role", "authority_role", "approved_by_role"] ∈
    independentReviewerRoles ∨
  (item.getJson "independent_review").isTrue = true ∨
  (item.getJson "independent_completion_review").isTrue = true

/-- A worker has produced the record, and no one else approves or reviews in it. -/
def WorkerRecord (item : Dict Json) : Prop :=
  workerCompletionAuthorities [item] ≠ [] ∧
    (completionAuthorityActor cfg item = "" ∨
      completionAuthorityActor cfg item ∈ workerCompletionAuthorities [item])

/-- The worker that has produced the record also approves or reviews in it. -/
def SelfSigned (item : Dict Json) : Prop :=
  WorkerRecord cfg item ∧ completionAuthorityActor cfg item ≠ ""

end Records

section Authority

variable {cfg : GoalConfig} {goal : GoalFields} {evidence : List (Dict Json)}

theorem mem_workerCompletionAuthorities {item : Dict Json} {actor : String} (hitem : item ∈ evidence)
    (hactor : actor ∈ workerCompletionAuthorities [item]) :
    actor ∈ workerCompletionAuthorities evidence := by
  unfold workerCompletionAuthorities at hactor ⊢
  rw [List.flatMap_singleton] at hactor
  exact List.mem_flatMap.mpr ⟨item, hitem, hactor⟩

/-- Reviews that their workers have signed give no authority. -/
theorem hasIndependentCompletionAuthority_selfSigned
    (hevaluation : goal.evaluation.toList.filter (!·.isEmpty) = [])
    (hsigned : ∀ item ∈ evidence, isIndependentReview cfg item = true → SelfSigned cfg item) :
    hasIndependentCompletionAuthority cfg goal evidence none = false := by
  unfold hasIndependentCompletionAuthority
  dsimp only
  rw [hevaluation, Option.toList_none, List.append_nil, List.append_nil, List.any_eq_false]
  intro item hitem hcounts
  obtain ⟨hreview, hactor⟩ := Bool.and_eq_true_iff.mp hcounts
  obtain ⟨⟨-, hempty | hworker⟩, hnamed⟩ := hsigned item hitem hreview
  · exact hnamed hempty
  · have hknown := mem_workerCompletionAuthorities hitem hworker
    rcases Bool.or_eq_true_iff.mp hactor with hempty | hother
    · exact hnamed (of_decide_eq_true hempty)
    · exact of_decide_eq_true hother hknown

/-- Without authority the evaluation asks for the review. -/
theorem completionEvaluation_unauthorised {evaluation : Option (Dict Json)} {checkedAt : Time}
    {result : GoalEvaluation} (hrequired : (completionReviewRequirement cfg goal).required = true)
    (hauthority : hasIndependentCompletionAuthority cfg goal evidence evaluation = false)
    (hresult : completionEvaluation cfg goal evidence evaluation checkedAt = .ok result) :
    result.sufficient = false := by
  obtain ⟨e, -, hresult⟩ := bind_eq_ok.mp hresult
  simp only [hrequired, if_true, hauthority, Bool.false_eq_true, if_false] at hresult
  obtain rfl := Except.ok.inj hresult
  rfl

end Authority

section Calls

variable {cfg : GoalConfig} {env : Environment} {repository : GoalRepository}
  {memory : ℕ → Except RuntimeException String} {goalId : String} {goal : GoalDefinition}
  {evidence : List (Dict Json)}

/-- The status under which a goal is stored. -/
def statusOf (s : GoalState) (goalId : String) : Option GoalStatus :=
  (s.2.goals.get goalId).map fun goal => goal.status

/-- A merge that names no status leaves it. -/
theorem statusOf_put_row {s : GoalState} {w : World} {g : GoalDefinition} {p : GoalPatch}
    (hget : s.2.get repository goalId = some goal) (hyields : p.Yields goal.toGoalFields g)
    (hstatus : p.status = none) :
    statusOf (w, s.2.put (s.2.row repository g)) goalId = statusOf s goalId := by
  have hstored := get_eq_some hget
  have hid : (s.2.row repository g).id = goalId := by
    rw [id_row, hyields.id, id_of_get hstored]
  have hkept : (s.2.row repository g).status = goal.status :=
    (SameGate.row g).status.trans (patchedKey_keeps hyields.status (.inl hstatus))
  unfold statusOf
  rw [get_put, if_pos hid.symm, hstored, Option.map_some, Option.map_some, hkept]

/-- **Without authority** a completion raises, and the status of the goal stays. -/
theorem wp_completeGoal_unauthorised {evaluation : Option (Dict Json)} {s : GoalState}
    (hget : s.2.get repository goalId = some goal)
    (hrequired : (completionReviewRequirement cfg goal.toGoalFields).required = true)
    (hauthority : hasIndependentCompletionAuthority cfg goal.toGoalFields
      (goal.evidence ++ evidence) evaluation = false) :
    (completeGoal cfg goalId evidence evaluation >>= fun _ =>
      (pure () : GoalRun Unit)).wp (goalHandler env repository memory) (fun _ _ => False)
      (fun _ s' => statusOf s' goalId = statusOf s goalId) s := by
  simp only [completeGoal, bind_assoc]
  refine wp_getGoal (fun _ _ => rfl) fun goal' hget' => ?_
  obtain rfl : goal = goal' := Option.some.inj (hget.symm.trans hget')
  refine wp_ensureNotTerminal (fun _ _ => rfl) fun _ => ?_
  refine wp_goalClock fun checkedAt w => ?_
  refine wp_goalExcept (fun _ _ => rfl) fun result hresult => ?_
  rw [if_neg (Bool.eq_false_iff.mp (completionEvaluation_unauthorised hrequired hauthority hresult)),
    bind_assoc]
  refine wp_updateGoal (fun _ _ _ => rfl) fun goal' g w hget' hyields _ => ?_
  have hkept := statusOf_put_row (w := w) hget' hyields rfl
  split
  · exact wp_of_raise hkept
  · exact wp_of_raise hkept

/-- **No self-approval**: where each review in the evidence of a high-risk goal is signed by
its own worker, `complete_goal` raises and the goal keeps its status. -/
theorem completeGoal_selfSigned {s : GoalState} (hget : s.2.get repository goalId = some goal)
    (hrequired : (completionReviewRequirement cfg goal.toGoalFields).required = true)
    (hevaluation : goal.evaluation = none ∨ goal.evaluation = some [])
    (hsigned : ∀ item ∈ goal.evidence ++ evidence,
      isIndependentReview cfg item = true → SelfSigned cfg item) :
    (∃ e, (goalStep cfg env repository memory (.completeGoal goalId evidence none) s).1 =
        .error e) ∧
      statusOf (goalStep cfg env repository memory (.completeGoal goalId evidence none) s).2 goalId =
        statusOf s goalId := by
  have hnone : goal.evaluation.toList.filter (!·.isEmpty) = [] := by
    rcases hevaluation with h | h
    · rw [h]
      rfl
    · rw [h]
      rfl
  have hauthority := hasIndependentCompletionAuthority_selfSigned hnone hsigned
  have hcall : (completeGoal cfg goalId evidence none >>= fun _ =>
      (pure () : GoalRun Unit)).wp (goalHandler env repository memory) (fun _ _ => False)
      (fun _ s' => statusOf s' goalId = statusOf s goalId) s :=
    wp_completeGoal_unauthorised hget hrequired hauthority
  obtain ⟨hok, herror⟩ := (wp_iff_run _ _).mp hcall
  rcases hr : goalStep cfg env repository memory (.completeGoal goalId evidence none) s with
    ⟨e | u, s'⟩
  · exact ⟨⟨e, rfl⟩, herror e s' hr⟩
  · exact (hok u s' hr).elim

end Calls

/-! ### A high-risk goal -/

/-- A high-risk goal that asks for a report. -/
def riskyGoal : GoalDefinition where
  id := "g"
  objective := "report"
  priority := "high"
  successCriteria := [[("kind", .str "report")]]
  createdAt := 0
  updatedAt := 0
  described := report_described
  settled := unsettled_created

def riskyGoals : GoalState := ({}, ({} : GoalStore).put riskyGoal)

/-- A report, and the record `approval` of its approval. -/
def reportWith (approval : Dict Json) : List (Dict Json) :=
  [[("kind", .str "report"), ("agent_id", .str "w")], approval]

/-- The worker approves its own report. -/
theorem completeGoal_selfSigned_worker :
    statusOf (goalStep .plain .silent .sql (fun _ => .ok "m") (.completeGoal "g" (reportWith
      [("kind", .str "final_approval"), ("status", .str "approved"), ("approved_by", .str "w"),
        ("agent_id", .str "w")]) none) riskyGoals).2 "g" = some .created := by
  have hsigned : ∀ item ∈ riskyGoal.evidence ++ reportWith [("kind", .str "final_approval"),
      ("status", .str "approved"), ("approved_by", .str "w"), ("agent_id", .str "w")],
      isIndependentReview .plain item = true → SelfSigned .plain item := by
    intro item hitem hreview
    rcases List.mem_pair.mp hitem with rfl | rfl
    · exact absurd hreview (by decide +kernel)
    · exact ⟨⟨by decide +kernel, .inr (by decide +kernel)⟩, by decide +kernel⟩
  have hfound : riskyGoals.2.get .sql "g" = some riskyGoal := rfl
  exact (completeGoal_selfSigned hfound (by decide +kernel) (.inl rfl) hsigned).2

/-- Where the records that are `counted` are `signed`, a high-risk goal is not completed. -/
def NoSelfApproval (counted signed : GoalConfig → Dict Json → Prop) : Prop :=
  ∀ (cfg : GoalConfig) (env : Environment) (repository : GoalRepository)
    (memory : ℕ → Except RuntimeException String) (goalId : String) (goal : GoalDefinition)
    (evidence : List (Dict Json)) (s : GoalState), s.2.get repository goalId = some goal →
    (completionReviewRequirement cfg goal.toGoalFields).required = true →
    (goal.evaluation = none ∨ goal.evaluation = some []) →
    (∀ item ∈ goal.evidence ++ evidence, counted cfg item → signed cfg item) →
    (∃ e, (goalStep cfg env repository memory (.completeGoal goalId evidence none) s).1 =
        .error e) ∧
      (statusOf s goalId ≠ some .completed → statusOf (goalStep cfg env repository memory
        (.completeGoal goalId evidence none) s).2 goalId ≠ some .completed)

/-- A worker's approval without an actor completes the goal, and so does a record that only
has the flag of a final approval. -/
theorem completeGoal_unsigned :
    ¬ NoSelfApproval CarriesReview WorkerRecord ∧
      ¬ NoSelfApproval (fun cfg item => isIndependentReview cfg item = true) WorkerRecord ∧
      ¬ NoSelfApproval CarriesReview SelfSigned := by
  have hunsigned : ∀ counted, ¬ NoSelfApproval counted WorkerRecord := by
    intro counted hall
    have hcompleted := (hall .plain .silent .sql (fun _ => .ok "m") "g" riskyGoal (reportWith
      [("kind", .str "final_approval"), ("status", .str "approved"), ("agent_id", .str "w")])
      riskyGoals rfl (by decide +kernel) (.inl rfl) ?_).2
    · exact hcompleted (by decide +kernel) (by decide +kernel)
    · intro item hitem _
      rcases List.mem_pair.mp hitem with rfl | rfl
      · exact ⟨by decide +kernel, .inl (by decide +kernel)⟩
      · exact ⟨by decide +kernel, .inl (by decide +kernel)⟩
  refine ⟨hunsigned _, hunsigned _, fun hall => ?_⟩
  have hcompleted := (hall .plain .silent .sql (fun _ => .ok "m") "g" riskyGoal (reportWith
    [("final_approval", .bool true)]) riskyGoals rfl (by decide +kernel) (.inl rfl) ?_).2
  · exact hcompleted (by decide +kernel) (by decide +kernel)
  · intro item hitem hcarries
    rcases List.mem_pair.mp hitem with rfl | rfl
    · rcases hcarries with h | h | h | h <;> exact absurd h (by decide +kernel)
    · rcases hcarries with h | h | h | h <;> exact absurd h (by decide +kernel)

end OpenAgency
