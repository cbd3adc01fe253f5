/-
GoalEvaluator.lean

What decides whether a goal may be completed: `GoalEvaluator`, which matches the success
criteria against the evidence, and the review that a high-risk goal needs besides.

A criterion is matched by its kind or by a reference to one of its identifiers.
References are collected in a Python set, so one that is a list or a dict makes the
evaluation raise.  Evidence whose references can be hashed never takes a match away
(`Sufficient.append`).
-/
import Mathlib.Data.List.Sort
import OpenAgency.Domain.Goal

namespace OpenAgency

open Json

/-- The parts of Python's texts and dicts that are not spelled out here. -/
structure GoalConfig where
  /-- `str(value)` of a value that is not a string. -/
  repr : Json → String
  /-- `str.lower`. -/
  lower : String → String
  /-- `dict(value)` of a true value that is not a dict, where it may raise. -/
  dictOf : Json → Except RuntimeException (Dict Json)

/-- Texts as they are where every value is a string in lower case. -/
def GoalConfig.plain : GoalConfig where
  repr _ := ""
  lower := id
  dictOf _ := .error ⟨.typeError, "object is not iterable"⟩

namespace GoalConfig

variable (cfg : GoalConfig)

/-- `str(value)`. -/
def pyStr : Json → String
  | .str s => s
  | value => cfg.repr value

/-- `str(value or "")` for the first true value under `keys`. -/
def text (d : Dict Json) (keys : List String) : String :=
  cfg.pyStr (((keys.map d.getJson).find? truthy).getD (.str ""))

/-- The same, stripped and lowered. -/
def lowerText (d : Dict Json) (keys : List String) : String := cfg.lower (strip (cfg.text d keys))

end GoalConfig

/-! ### Matching criteria -/

/-- `isinstance(value, str | int | float | bool)`. -/
def Json.isScalar : Json → Bool
  | str _ | num _ | bool _ => true
  | _ => false

/-- A value that can stand in a set. -/
def Json.isHashable : Json → Bool
  | arr _ | obj _ => false
  | _ => true

/-- `candidates.add(value)`. -/
def addCandidate (candidates : List Json) (value : Json) : Except RuntimeException (List Json) :=
  if value.isHashable then
    .ok (if candidates.any (eq value) then candidates else candidates ++ [value])
  else .error ⟨.typeError, "unhashable type"⟩

namespace GoalEvaluator

variable (cfg : GoalConfig)

/-- The keys a criterion may be identified by. -/
def criterionKeys : List String := ["id", "criterion_id", "key", "name"]

/-- The identifiers of a criterion. -/
def criterionIds (criterion : Dict Json) : List String :=
  ((criterionKeys.map criterion.getJson).filter fun value => value.truthy && value.isScalar).map
    cfg.pyStr

/-- `_criterion_id`. -/
def criterionId (criterion : Dict Json) (index : ℕ) : String :=
  match (criterionKeys.map criterion.getJson).find? truthy with
  | some value => cfg.pyStr value
  | none => s!"criterion-{index + 1}"

/-- What a piece of evidence refers to, as it is added to the set. -/
def references (evidence : Dict Json) : List Json :=
  ["criterion_id", "success_criterion_id", "satisfies_criterion_id"].map evidence.getJson ++
  (match evidence.getJson "satisfies" with
    | .arr items => items
    | value => if value.truthy then [value] else []) ++
  match evidence.getJson "criteria_ids" with
    | .arr items => items
    | _ => []

/-- `_evidence_references_criterion`. -/
def evidenceReferencesCriterion (evidence : Dict Json) (ids : List String) :
    Except RuntimeException Bool :=
  if ids.isEmpty then .ok false
  else do
    let candidates ← (references evidence).foldlM addCandidate []
    return (candidates.filter truthy).any fun item => cfg.pyStr item ∈ ids

/-- The evidence matches by reference or by kind. -/
def evidenceMatches (criterion evidence : Dict Json) : Except RuntimeException Bool := do
  let referenced ← evidenceReferencesCriterion cfg evidence (criterionIds cfg criterion)
  let kind := cfg.lowerText criterion ["kind", "type"]
  return referenced || (kind ≠ "" && cfg.lowerText evidence ["kind", "type"] = kind)

/-- `_matching_evidence`. -/
def matchingEvidence (criterion : Dict Json) :
    List (Dict Json) → Except RuntimeException (List (Dict Json))
  | [] => .ok []
  | evidence :: rest => do
    let hit ← evidenceMatches cfg criterion evidence
    let found ← matchingEvidence criterion rest
    return if hit then evidence :: found else found

/-- What the evaluation says of one criterion. -/
structure CriterionResult where
  criterionId : String
  criterion : Dict Json
  evidence : List (Dict Json)

/-- The results of the criteria, counted from `index`. -/
def criterionResults (records : List (Dict Json)) :
    ℕ → List (Dict Json) → Except RuntimeException (List CriterionResult)
  | _, [] => .ok []
  | index, criterion :: rest => do
    let found ← matchingEvidence cfg criterion records
    let results ← criterionResults records (index + 1) rest
    return ⟨criterionId cfg criterion index, criterion, found⟩ :: results

/-- A record of `missing_evidence`. -/
structure MissingEvidence where
  criterionId : String
  criterion : Dict Json
  reason : String

/-- The criteria without evidence, and the evidence that is missing altogether. -/
def missingEvidence (results : List CriterionResult) (records : List (Dict Json)) :
    List MissingEvidence :=
  (results.filter (·.evidence.isEmpty)).map (fun result => {
    criterionId := result.criterionId
    criterion := result.criterion
    reason := "No evidence matched this success criterion by criterion id or kind/type." }) ++
  if records.isEmpty then
    [{ criterionId := "completion_evidence"
       criterion := [("kind", .str "evidence"),
         ("description", .str "At least one completion evidence record")]
       reason := "Goal completion requires at least one evidence record." }]
  else []

end GoalEvaluator

/-! ### The review of high-risk goals -/

/-- `HIGH_RISK_GOAL_LEVELS`. -/
def highRiskGoalLevels : List String := ["high", "critical", "unsafe"]

/-- `FINAL_APPROVAL_EVIDENCE_KINDS`. -/
def finalApprovalEvidenceKinds : List String :=
  ["approval", "final_approval", "human_approval", "operator_approval"]

/-- `INDEPENDENT_REVIEWER_ROLES`. -/
def independentReviewerRoles : List String :=
  ["human", "operator", "main_agent", "evaluation_agent", "supervisor", "reviewer"]

/-- `HIGH_RISK_APPROVAL_ACTIONS`. -/
def highRiskApprovalActions : List String :=
  ["delete", "destructive_action", "external_write", "physical_world_action", "purchase",
    "shell_side_effect", "tool_definition_mutation", "workflow_definition_mutation"]

/-- `sorted(set(items))`. -/
def sortedSet (items : List String) : List String := items.dedup.insertionSort (· ≤ ·)

structure CompletionReviewRequirement where
  required : Bool
  finalApprovalRequired : Bool
  riskValues : List String
  approvalRequiredActions : List String
  highRiskSuccessCriteriaIds : List String
  description : String :=
    "High-risk goals require independent completion review or explicit final approval before " ++
      "completion."
  reason : String :=
    "Completion evidence is sufficient, but the goal is high risk and does not include " ++
      "independent review or final approval evidence."

section Review

variable (cfg : GoalConfig)

/-- A criterion that makes its goal high-risk. -/
def isRiskyCriterion (criterion : Dict Json) : Bool :=
  cfg.lowerText criterion ["risk", "risk_level"] ∈ highRiskGoalLevels ||
    (criterion.getJson "high_risk").isTrue

/-- `_completion_review_requirement`. -/
def completionReviewRequirement (goal : GoalFields) : CompletionReviewRequirement :=
  let constraints := goal.constraints
  let approvalPolicy := ((constraints.getJson "approval_policy").asDict?).getD []
  let approvalRequiredActions := [constraints, approvalPolicy].flatMap fun (source : Dict Json) =>
    match source.getJson "approval_required_actions" with
    | .arr items => (items.filter truthy).map cfg.pyStr
    | _ => []
  let riskValues := ((["risk", "risk_level", "riskLevel"].map constraints.getJson ++
      [str goal.priority]).filter truthy).map fun value =>
    cfg.lower (strip (cfg.pyStr value))
  let riskyCriteria := goal.successCriteria.filter (isRiskyCriterion cfg)
  let finalApprovalRequired := [constraints, approvalPolicy].any fun (source : Dict Json) =>
    ["final_approval_required", "human_final_approval_required",
      "require_human_final_approval"].any fun key => (source.getJson key).isTrue
  { required :=
      riskValues.any (· ∈ highRiskGoalLevels) ||
      approvalRequiredActions.any (· ∈ highRiskApprovalActions) ||
      !riskyCriteria.isEmpty || finalApprovalRequired
    finalApprovalRequired := finalApprovalRequired
    riskValues := sortedSet riskValues
    approvalRequiredActions := sortedSet approvalRequiredActions
    highRiskSuccessCriteriaIds := riskyCriteria.map fun criterion =>
      cfg.pyStr (((["id", "criterion_id", "kind"].map criterion.getJson).find? truthy).getD
        (.str "criterion")) }

/-- `_worker_completion_authorities`. -/
def workerCompletionAuthorities (evidence : List (Dict Json)) : List String :=
  evidence.flatMap fun (item : Dict Json) =>
    ["agent_id", "worker_agent_id", "produced_by", "created_by", "declared_by",
      "source_agent_id"].filterMap fun key =>
        ((item.getJson key).asStr?.map strip).filter (· ≠ "")

/-- `_is_final_approval_record`. -/
def isFinalApprovalRecord (item : Dict Json) : Bool :=
  (cfg.lowerText item ["kind", "type"] ∈ finalApprovalEvidenceKinds &&
    cfg.lowerText item ["status", "approval_status"] ∉
      ["", "rejected", "denied", "cancelled", "pending"]) ||
  (item.getJson "final_approval").isTrue || (item.getJson "human_final_approval").isTrue

/-- `_completion_authority_actor`. -/
def completionAuthorityActor (item : Dict Json) : String :=
  strip (cfg.text item ["reviewer_actor", "evaluator_actor", "approved_by", "reviewed_by", "actor"])

/-- The record comes from a review of the kinds that count. -/
def isIndependentReview (item : Dict Json) : Bool :=
  isFinalApprovalRecord cfg item ||
  cfg.lowerText item ["reviewer_role", "evaluator_role", "authority_role", "approved_by_role"] ∈
    independentReviewerRoles ||
  (item.getJson "independent_review").isTrue || (item.getJson "independent_completion_review").isTrue

/-- `_has_independent_completion_authority`: a review that no worker signed. -/
def hasIndependentCompletionAuthority (goal : GoalFields) (evidence : List (Dict Json))
    (evaluation : Option (Dict Json)) : Bool :=
  let candidates := evidence ++ evaluation.toList ++ goal.evaluation.toList.filter (!·.isEmpty)
  candidates.any fun item =>
    isIndependentReview cfg item &&
      (completionAuthorityActor cfg item = "" ||
        completionAuthorityActor cfg item ∉ workerCompletionAuthorities evidence)

end Review

/-! ### The evaluation -/

inductive EvaluationStatus where
  | sufficient
  | missingEvidence
  | completionReviewRequired
  deriving DecidableEq

def EvaluationStatus.value : EvaluationStatus → String
  | sufficient => "sufficient"
  | missingEvidence => "missing_evidence"
  | completionReviewRequired => "completion_review_required"

/-- The result of an evaluation; `complete_goal` adds what reviewers say. -/
structure GoalEvaluation where
  status : EvaluationStatus
  sufficient : Bool
  confidence : String
  checkedAt : Time
  criteriaCount : ℕ
  evidenceCount : ℕ
  criteriaResults : List GoalEvaluator.CriterionResult
  missingEvidence : List GoalEvaluator.MissingEvidence
  rationale : String
  reviewerEvaluation : Option (Dict Json) := none
  completionReview : Option (CompletionReviewRequirement × Bool) := none

namespace GoalEvaluator

variable (cfg : GoalConfig)

/-- `evaluate`. -/
def evaluate (goal : GoalFields) (evidence : List (Dict Json)) (checkedAt : Time) :
    Except RuntimeException GoalEvaluation := do
  let results ← criterionResults cfg evidence 0 goal.successCriteria
  let missing := missingEvidence results evidence
  let sufficient := !evidence.isEmpty && missing.isEmpty
  let structured := !goal.successCriteria.isEmpty
  return {
    status := if sufficient then .sufficient else .missingEvidence
    sufficient := sufficient
    confidence := if sufficient && structured then "high" else if sufficient then "medium" else "low"
    checkedAt := checkedAt
    criteriaCount := goal.successCriteria.length
    evidenceCount := evidence.length
    criteriaResults := results
    missingEvidence := missing
    rationale :=
      if sufficient && structured then "All success criteria have matching evidence."
      else if sufficient then
        "Completion evidence is present and no structured success criteria were defined."
      else "Goal cannot be completed until missing evidence is supplied." }

end GoalEvaluator

/-- `model_dump` of a completion review. -/
def CompletionReviewRequirement.dump (r : CompletionReviewRequirement) (satisfied : Bool) :
    Dict Json :=
  [("required", .bool r.required), ("final_approval_required", .bool r.finalApprovalRequired),
    ("risk_values", .strs r.riskValues),
    ("approval_required_actions", .strs r.approvalRequiredActions),
    ("high_risk_success_criteria_ids", .strs r.highRiskSuccessCriteriaIds),
    ("description", .str r.description), ("reason", .str r.reason), ("satisfied", .bool satisfied)]

/-- The dict that is stored. -/
def GoalEvaluation.dump (cfg : GoalConfig) (e : GoalEvaluation) : Dict Json :=
  [("status", .str e.status.value), ("sufficient", .bool e.sufficient),
    ("confidence", .str e.confidence), ("checked_at", .str (isoformat e.checkedAt)),
    ("criteria_count", .nat e.criteriaCount), ("evidence_count", .nat e.evidenceCount),
    ("criteria_results", .arr (e.criteriaResults.map fun result => .obj [
      ("criterion_id", .str result.criterionId), ("criterion", .obj result.criterion),
      ("satisfied", .bool (!result.evidence.isEmpty)),
      ("evidence_ids", .strs (result.evidence.map fun item =>
        cfg.text item ["id", "artifact_id", "execution_id"])),
      ("evidence", .arr (result.evidence.map .obj))])),
    ("missing_evidence", .arr (e.missingEvidence.map fun missing => .obj [
      ("criterion_id", .str missing.criterionId), ("criterion", .obj missing.criterion),
      ("reason", .str missing.reason)])),
    ("rationale", .str e.rationale)] ++
  (e.reviewerEvaluation.toList.map fun evaluation => ("reviewer_evaluation", .obj evaluation)) ++
  e.completionReview.toList.map fun review => ("completion_review", .obj (review.1.dump review.2))

/-! ### When the evidence is sufficient -/

namespace GoalEvaluator

section Sufficient

variable {cfg : GoalConfig} {criterion evidence : Dict Json}

theorem foldlM_addCandidate (values candidates : List Json) :
    (∃ found, values.foldlM addCandidate candidates = .ok found) ↔ ∀ v ∈ values, v.isHashable := by
  induction values generalizing candidates with
  | nil => exact ⟨fun _ v hv => absurd hv List.not_mem_nil, fun _ => ⟨candidates, rfl⟩⟩
  | cons v values ih =>
    rw [List.foldlM_cons, List.forall_mem_cons]
    rcases hv : v.isHashable with - | -
    · have herror : addCandidate candidates v = .error ⟨.typeError, "unhashable type"⟩ := by
        simp [addCandidate, hv]
      rw [herror]
      exact ⟨fun ⟨_, hfound⟩ => (nomatch hfound), fun h => (nomatch h.1)⟩
    · have hadd : addCandidate candidates v =
          .ok (if candidates.any (eq v) then candidates else candidates ++ [v]) := by
        simp [addCandidate, hv]
      rw [hadd]
      exact (ih _).trans ⟨fun h => ⟨rfl, h⟩, fun h => h.2⟩

variable (cfg) in
/-- Looking for references to the criterion in the evidence does not raise. -/
def Readable (criterion evidence : Dict Json) : Prop :=
  criterionIds cfg criterion ≠ [] → ∀ v ∈ references evidence, v.isHashable

variable (cfg) in
/-- The evidence is found for the criterion. -/
def hits (criterion evidence : Dict Json) : Bool :=
  match evidenceMatches cfg criterion evidence with
  | .ok hit => hit
  | .error _ => false

/-- Evidence that can be read is compared with the criterion; other evidence raises. -/
theorem evidenceMatches_cases (cfg : GoalConfig) (criterion evidence : Dict Json) :
    (Readable cfg criterion evidence ∧
      evidenceMatches cfg criterion evidence = .ok (hits cfg criterion evidence)) ∨
    (¬ Readable cfg criterion evidence ∧ ∃ e, evidenceMatches cfg criterion evidence = .error e) := by
  have hreferences : Readable cfg criterion evidence ↔
      ∃ b, evidenceReferencesCriterion cfg evidence (criterionIds cfg criterion) = .ok b := by
    rcases hids : criterionIds cfg criterion with - | ⟨id, ids⟩
    · exact ⟨fun _ => ⟨false, rfl⟩, fun _ h => absurd hids h⟩
    · have hiff := foldlM_addCandidate (references evidence) []
      have hreadable : Readable cfg criterion evidence ↔ ∀ v ∈ references evidence, v.isHashable :=
        ⟨fun h => h (by simp [hids]), fun h _ => h⟩
      rw [hreadable, ← hiff]
      rcases hfold : (references evidence).foldlM addCandidate [] with e | found
      · simp [evidenceReferencesCriterion, hfold]
      · simp [evidenceReferencesCriterion, hfold]
  rcases hr : evidenceReferencesCriterion cfg evidence (criterionIds cfg criterion) with e | b
  · refine .inr ⟨fun h => ?_, e, by simp [evidenceMatches, hr]⟩
    obtain ⟨b, hb⟩ := hreferences.mp h
    cases hr.symm.trans hb
  · refine .inl ⟨hreferences.mpr ⟨b, hr⟩, ?_⟩
    simp [hits, evidenceMatches, hr]

/-- What is found for a criterion is the evidence that matches it, where all of it can be
read. -/
theorem matchingEvidence_cases (cfg : GoalConfig) (criterion : Dict Json)
    (records : List (Dict Json)) :
    ((∀ e ∈ records, Readable cfg criterion e) ∧
      matchingEvidence cfg criterion records = .ok (records.filter (hits cfg criterion))) ∨
    (¬ (∀ e ∈ records, Readable cfg criterion e) ∧
      ∃ e, matchingEvidence cfg criterion records = .error e) := by
  induction records with
  | nil => exact .inl ⟨fun e he => absurd he List.not_mem_nil, rfl⟩
  | cons evidence rest ih =>
    rw [List.forall_mem_cons, matchingEvidence]
    rcases evidenceMatches_cases cfg criterion evidence with ⟨hread, hhit⟩ | ⟨hread, e, herror⟩
    · rw [hhit]
      rcases ih with ⟨hrest, hfound⟩ | ⟨hrest, e, herror⟩
      · refine .inl ⟨⟨hread, hrest⟩, ?_⟩
        rw [hfound, List.filter_cons]
        rfl
      · rw [herror]
        exact .inr ⟨fun h => hrest h.2, e, rfl⟩
    · rw [herror]
      exact .inr ⟨fun h => hread h.1, e, rfl⟩

/-- The results of criteria, where all the evidence can be read. -/
theorem criterionResults_cases (cfg : GoalConfig) (records : List (Dict Json)) (index : ℕ)
    (criteria : List (Dict Json)) :
    ((∀ c ∈ criteria, ∀ e ∈ records, Readable cfg c e) ∧
      ∃ results, criterionResults cfg records index criteria = .ok results ∧
        results.map CriterionResult.evidence = criteria.map fun c => records.filter (hits cfg c)) ∨
    (¬ (∀ c ∈ criteria, ∀ e ∈ records, Readable cfg c e) ∧
      ∃ e, criterionResults cfg records index criteria = .error e) := by
  induction criteria generalizing index with
  | nil => exact .inl ⟨fun c hc => absurd hc List.not_mem_nil, [], rfl, rfl⟩
  | cons criterion rest ih =>
    rw [List.forall_mem_cons, criterionResults]
    rcases matchingEvidence_cases cfg criterion records with ⟨hread, hfound⟩ | ⟨hread, e, herror⟩
    · rw [hfound]
      rcases ih (index + 1) with ⟨hrest, results, hresults, hmap⟩ | ⟨hrest, e, herror⟩
      · let result : CriterionResult :=
          ⟨criterionId cfg criterion index, criterion, records.filter (hits cfg criterion)⟩
        refine .inl ⟨⟨hread, hrest⟩, result :: results, ?_, ?_⟩
        · rw [hresults]
          rfl
        · rw [List.map_cons, List.map_cons, hmap]
      · rw [herror]
        exact .inr ⟨fun h => hrest h.2, e, rfl⟩
    · rw [herror]
      exact .inr ⟨fun h => hread h.1, e, rfl⟩

variable (cfg) in
/-- There is evidence, and every criterion is matched by some of it. -/
structure Sufficient (criteria records : List (Dict Json)) : Prop where
  nonempty : records ≠ []
  readable : ∀ c ∈ criteria, ∀ e ∈ records, Readable cfg c e
  matched : ∀ c ∈ criteria, ∃ e ∈ records, hits cfg c e

/-- **The evaluator finds the evidence sufficient** just if it is. -/
theorem evaluate_sufficient_iff {goal : GoalFields} {records : List (Dict Json)} {now : Time} :
    (∃ e, evaluate cfg goal records now = .ok e ∧ e.sufficient) ↔
      Sufficient cfg goal.successCriteria records := by
  unfold evaluate
  rcases criterionResults_cases cfg records 0 goal.successCriteria with
    ⟨hread, results, hresults, hmap⟩ | ⟨hread, e, herror⟩
  · rw [hresults]
    have hmatched : (∀ r ∈ results, r.evidence ≠ []) ↔
        ∀ c ∈ goal.successCriteria, ∃ e ∈ records, hits cfg c e := by
      calc (∀ r ∈ results, r.evidence ≠ [])
          ↔ ∀ found ∈ results.map CriterionResult.evidence, found ≠ [] := by
            rw [List.forall_mem_map]
        _ ↔ ∀ c ∈ goal.successCriteria, records.filter (hits cfg c) ≠ [] := by
            rw [hmap, List.forall_mem_map]
        _ ↔ ∀ c ∈ goal.successCriteria, ∃ e ∈ records, hits cfg c e := by
            simp
    have hsufficient : (!records.isEmpty && (missingEvidence results records).isEmpty) = true ↔
        records ≠ [] ∧ ∀ r ∈ results, r.evidence ≠ [] := by
      rcases records with - | ⟨e, es⟩
      · simp
      · simp [missingEvidence]
    constructor
    · rintro ⟨e, he, hs⟩
      obtain rfl := Except.ok.inj he
      obtain ⟨hne, hall⟩ := hsufficient.mp hs
      exact ⟨hne, hread, hmatched.mp hall⟩
    · rintro ⟨hne, -, hall⟩
      exact ⟨_, rfl, hsufficient.mpr ⟨hne, hmatched.mpr hall⟩⟩
  · rw [herror]
    exact ⟨fun ⟨e, he, _⟩ => (nomatch he), fun h => absurd h.readable hread⟩

/-- Evidence that can be read may be added. -/
theorem Sufficient.append {criteria records more : List (Dict Json)}
    (h : Sufficient cfg criteria records)
    (hmore : ∀ c ∈ criteria, ∀ e ∈ more, Readable cfg c e) :
    Sufficient cfg criteria (records ++ more) where
  nonempty := by
    simp [h.nonempty]
  readable c hc e he := by
    rcases List.mem_append.mp he with he | he
    · exact h.readable c hc e he
    · exact hmore c hc e he
  matched c hc := by
    obtain ⟨e, he, hhit⟩ := h.matched c hc
    exact ⟨e, List.mem_append_left _ he, hhit⟩

end Sufficient

end GoalEvaluator

end OpenAgency
