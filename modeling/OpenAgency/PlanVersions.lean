/-
PlanVersions.lean

Runs of `plan_goal` and `replan_goal` on one goal, and the versions of the plans they make.

`replan_goal` counts on from the active plan, `plan_goal` always starts with version 1.  Both
put the plan they replace into the history.  As long as `plan_goal` finds no active plan, the
plans of a goal are numbered in the order in which they were made (`Numbered`), and the history
has the last twenty of those that were replaced.
-/
import OpenAgency.GoalUpdates

namespace OpenAgency

open Relational Interaction Program Dict GoalStore

/-! ### Plans in the metadata -/

section Planning

variable (cfg : GoalConfig) (metadata : Dict Json)

/-- The plan that a goal follows. -/
def activePlan : Option (Dict Json) :=
  match cfg.toDict (metadata.getJson "goal_planning") with
  | .error _ => none
  | .ok planning => (getJson planning "active_plan").asDict?

/-- The plans that were replaced. -/
def planHistory : List (Dict Json) :=
  match cfg.toDict (metadata.getJson "goal_planning") with
  | .error _ => []
  | .ok planning =>
    match dictItems planning "plan_history" with
    | .error _ => []
    | .ok history => history

end Planning

/-- The version of a plan. -/
def planVersion (plan : Dict Json) : ℚ :=
  match plan.getJson "version" with
  | .num version => version
  | _ => 0

/-- The planning record of the metadata: the active plan and the history. -/
structure HasPlanning (cfg : GoalConfig) (metadata : Dict Json) (active : Option (Dict Json))
    (history : List (Dict Json)) : Prop where
  record : ∃ planning, cfg.toDict (metadata.getJson "goal_planning") = .ok planning ∧
    (getJson planning "active_plan").asDict? = active ∧
    dictItems planning "plan_history" = .ok history ∧
    (active = none ∨ metadata.getJson "goal_planning" = .obj planning)

theorem Json.obj_of_asDict? {value : Json} {fields : Dict Json}
    (h : value.asDict? = some fields) : value = .obj fields := by
  cases value with
  | obj d => exact congrArg Json.obj (Option.some.inj h)
  | _ => cases h

section Metadata

variable {cfg : GoalConfig} {metadata metadata' plan : Dict Json} {active : Option (Dict Json)}
  {history : List (Dict Json)}

theorem HasPlanning.activePlan_eq (h : HasPlanning cfg metadata active history) :
    activePlan cfg metadata = active := by
  obtain ⟨planning, hplanning, hactive, -, -⟩ := h.record
  rw [activePlan, hplanning]
  exact hactive

theorem HasPlanning.planHistory_eq (h : HasPlanning cfg metadata active history) :
    planHistory cfg metadata = history := by
  obtain ⟨planning, hplanning, -, hhistory, -⟩ := h.record
  rw [planHistory, hplanning]
  dsimp only
  rw [hhistory]

/-- A new plan replaces the active one, which goes into the history. -/
theorem HasPlanning.metadataWithPlan {reason : String} {actor : Option String} {now : Time}
    (h : HasPlanning cfg metadata active history)
    (hplan : metadataWithPlan cfg metadata plan reason actor now = .ok metadata') :
    HasPlanning cfg metadata' (some plan) (takeLast 20 (history ++ active.toList)) := by
  obtain ⟨planning, hplanning, hactive, hhistory, -⟩ := h.record
  obtain ⟨planning', hplanning', hplan⟩ := bind_eq_ok.mp hplan
  obtain rfl := Except.ok.inj (hplanning.symm.trans hplanning')
  obtain ⟨history', hhistory', hplan⟩ := bind_eq_ok.mp hplan
  obtain rfl := Except.ok.inj (hhistory.symm.trans hhistory')
  obtain rfl := Except.ok.inj hplan
  refine ⟨⟨_, (congrArg cfg.toDict (getJson_set_self _ _ _)).trans (cfg.toDict_obj _), ?_, ?_,
    .inr (getJson_set_self _ _ _)⟩⟩
  · rw [getJson_set_ne (by decide), getJson_set_ne (by decide),
      getJson_set_ne (by decide), getJson_set_ne (by decide), getJson_set_self]
    rfl
  · rw [dictItems, get?_set_ne (by decide), get?_set_ne (by decide),
      get?_set_ne (by decide), get?_set_self, Option.getD_some, dictItems_dicts, hactive]

/-- `replan_goal` counts on from the active plan. -/
theorem HasPlanning.previousPlanVersion (h : HasPlanning cfg metadata active history) :
    previousPlanVersion metadata =
      (active.elim (.ok 0) fun plan => ((plan.getJson "version").orElse (.num 0)).toInt) := by
  obtain ⟨planning, hplanning, hactive, -, hplain⟩ := h.record
  unfold OpenAgency.previousPlanVersion
  rcases hdict : (metadata.getJson "goal_planning").asDict? with - | fields
  · -- what is no dict has no active plan
    rcases hplain with rfl | hplain
    · rfl
    · rw [hplain] at hdict
      cases hdict
  · rw [Json.obj_of_asDict? hdict, GoalConfig.toDict_obj] at hplanning
    obtain rfl := Except.ok.inj hplanning
    dsimp only
    rw [hactive]
    rcases active with - | plan
    · rfl
    · rfl

theorem planVersion_normalizePlan {goal : GoalFields} {source : Option (Dict Json)}
    {reason : String} {actor : Option String} {version : ℤ} {now : Time}
    (h : normalizePlan cfg goal source reason actor version now = .ok plan) :
    plan.getJson "version" = .num ((version + 1 : ℤ) : ℚ) := by
  unfold normalizePlan at h
  dsimp only at h
  split at h
  · obtain ⟨steps, -, h⟩ := bind_eq_ok.mp h
    obtain rfl := Except.ok.inj h
    rfl
  · cases h

end Metadata

/-! ### Calls -/

/-- A call that plans. -/
inductive PlanningCall where
  | planGoal (plan : Option (Dict Json)) (reason : String) (actor : Option String)
  | replanGoal (plan : Option (Dict Json)) (reason : String) (actor : Option String)

namespace PlanningCall

/-- The call on the goal `goalId`. -/
def on (goalId : String) : PlanningCall → GoalCall
  | planGoal plan reason actor => .planGoal goalId plan reason actor
  | replanGoal plan reason actor => .replanGoal goalId plan reason actor

/-- The version that the call counts on from. -/
def CountsFrom (metadata : Dict Json) (version : ℤ) : PlanningCall → Prop
  | planGoal _ _ _ => version = 0
  | replanGoal _ _ _ => previousPlanVersion metadata = .ok version

/-- `plan_goal` finds no active plan, or does not get as far as a plan. -/
def Fresh (cfg : GoalConfig) (goal : GoalDefinition) : PlanningCall → Prop
  | planGoal plan reason actor => activePlan cfg goal.metadata = none ∨
      goal.status.isTerminal = true ∨
      (goal.successCriteria.isEmpty && !explicitCompletionCondition goal.toGoalFields) = true ∨
      ∀ now p, normalizePlan cfg goal.toGoalFields plan reason actor 0 now ≠ .ok p
  | replanGoal _ _ _ => True

end PlanningCall

section Step

variable {cfg : GoalConfig} {env : Environment} {repository : GoalRepository}
  {memory : ℕ → Except RuntimeException String} {goalId : String} {call : PlanningCall}
  {s : GoalState}

/-- The call has found `goal` and left `g`, with the new plan `p`. -/
structure Makes (cfg : GoalConfig) (call : PlanningCall) (goal g : GoalDefinition)
    (p : Dict Json) : Prop where
  version : ∃ version : ℤ, call.CountsFrom goal.metadata version ∧
    p.getJson "version" = .num ((version + 1 : ℤ) : ℚ)
  metadata : ∃ reason actor now,
    metadataWithPlan cfg goal.metadata p reason actor now = .ok g.metadata
  fresh : ∀ plan reason actor, call = .planGoal plan reason actor → call.Fresh cfg goal →
    activePlan cfg goal.metadata = none

/-- The goal that is merged keeps its place, with the new metadata. -/
theorem get_put_row {goal g : GoalDefinition} {p : GoalPatch} {metadata : Dict Json}
    (hget : s.2.get repository goalId = some goal) (hyields : p.Yields goal.toGoalFields g)
    (hmetadata : p.metadata = some (some metadata)) :
    ∃ g', (s.2.put (s.2.row repository g)).goals.get goalId = some g' ∧ g'.metadata = metadata := by
  have hid : (s.2.row repository g).id = goalId := by
    rw [id_row, hyields.id, id_of_get (get_eq_some hget)]
  have hkept : metadata = g.metadata := by
    have hpatched := hyields.metadata
    rw [hmetadata] at hpatched
    exact Except.ok.inj hpatched
  refine ⟨s.2.row repository g, ?_, ?_⟩
  · rw [get_put, if_pos hid.symm]
  · rw [hkept]
    rcases row_cases repository s.2 g with hrow | ⟨t, hrow⟩
    · rw [hrow]
    · rw [hrow]

/-- The end of both calls: the plan is merged into the goal. -/
theorem wp_merge_plan {goal : GoalDefinition} {status : GoalStatus} {metadata p : Dict Json}
    {w : World} (hget : s.2.get repository goalId = some goal)
    (hmakes : ∀ g : GoalDefinition, g.metadata = metadata → Makes cfg call goal g p) :
    (GoalService.updateGoal goalId
      { status := some (some status), metadata := some (some metadata) } >>=
        fun _ => (pure () : GoalRun Unit)).wp (goalHandler env repository memory)
      (fun _ s' => ∃ goal g p, s.2.goals.get goalId = some goal ∧
        s'.2.goals.get goalId = some g ∧ Makes cfg call goal g p)
      (fun _ s' => s'.2 = s.2) (w, s.2) := by
  refine wp_updateGoal (fun _ _ _ => rfl) fun goal' g w' hget' hyields _ => ?_
  obtain rfl : goal = goal' := Option.some.inj (hget.symm.trans hget')
  obtain ⟨g', hg', hmetadata⟩ := get_put_row hget hyields rfl
  exact wp_of_done ⟨goal, g', p, get_eq_some hget, hg', hmakes g' hmetadata⟩

/-- **What one call does**: it leaves the goals as they were, or makes a plan. -/
theorem wp_planningCall (call : PlanningCall) (s : GoalState) :
    ((call.on goalId).code cfg).wp (goalHandler env repository memory)
      (fun _ s' => ∃ goal g p, s.2.goals.get goalId = some goal ∧
        s'.2.goals.get goalId = some g ∧ Makes cfg call goal g p)
      (fun _ s' => s'.2 = s.2) s := by
  cases call with
  | planGoal plan reason actor =>
    simp only [PlanningCall.on, GoalCall.code, GoalService.planGoal, Program.bind_assoc]
    refine wp_getGoal (fun _ _ => rfl) fun goal hget => ?_
    refine wp_ensureNotTerminal (fun _ _ => rfl) fun hactive => ?_
    split
    · exact wp_of_raise rfl
    next hdescribed =>
      rw [Program.bind_assoc]
      refine wp_goalClock fun plannedAt w => ?_
      rw [Program.bind_assoc]
      refine wp_goalClock fun now w => ?_
      rw [Program.bind_assoc]
      refine wp_goalExcept (fun _ _ => rfl) fun metadata hplanned => ?_
      obtain ⟨p, hp, hmetadata⟩ := bind_eq_ok.mp hplanned
      refine wp_merge_plan (p := p) hget fun g hg => ?_
      refine ⟨⟨0, rfl, planVersion_normalizePlan hp⟩, ⟨reason, actor, now, ?_⟩, ?_⟩
      · rw [hg]
        exact hmetadata
      · rintro _ _ _ ⟨⟩ hfresh
        rcases hfresh with hnone | hterminal | hnothing | hinvalid
        · exact hnone
        · rw [hactive] at hterminal
          cases hterminal
        · exact absurd hnothing hdescribed
        · exact absurd hp (hinvalid plannedAt p)
  | replanGoal plan reason actor =>
    simp only [PlanningCall.on, GoalCall.code, GoalService.replanGoal]
    split
    · exact wp_of_raise rfl
    · simp only [Program.bind_assoc]
      refine wp_getGoal (fun _ _ => rfl) fun goal hget => ?_
      refine wp_ensureNotTerminal (fun _ _ => rfl) fun _ => ?_
      refine wp_goalExcept (fun _ _ => rfl) fun version hversion => ?_
      refine wp_goalClock fun plannedAt w => ?_
      refine wp_goalClock fun now w => ?_
      refine wp_goalExcept (fun _ _ => rfl) fun metadata hplanned => ?_
      obtain ⟨p, hp, hmetadata⟩ := bind_eq_ok.mp hplanned
      refine wp_merge_plan (p := p) hget fun g hg => ?_
      refine ⟨⟨version, hversion, planVersion_normalizePlan hp⟩, ⟨reason, actor, now, ?_⟩, ?_⟩
      · rw [hg]
        exact hmetadata
      · rintro _ _ _ ⟨⟩

end Step

/-! ### Runs -/

/-- The plans that were made are numbered in order, and the record has the last one and those
that it has replaced. -/
structure Numbered (cfg : GoalConfig) (made : List (Dict Json)) (metadata : Dict Json) : Prop where
  planning : HasPlanning cfg metadata made.getLast? (takeLast 20 made.dropLast)
  versions : ∀ (i : ℕ) (p : Dict Json), made[i]? = some p →
    p.getJson "version" = .num ((i + 1 : ℤ) : ℚ)

section Numbered

variable {cfg : GoalConfig} {made : List (Dict Json)} {metadata : Dict Json}
  {goal g : GoalDefinition} {call : PlanningCall} {p : Dict Json}

/-- The version that a call counts on from is the number of plans so far. -/
theorem Numbered.countsFrom {version : ℤ} (h : Numbered cfg made goal.metadata)
    (hcounts : call.CountsFrom goal.metadata version) (hfresh : ∀ plan reason actor,
      call = .planGoal plan reason actor → activePlan cfg goal.metadata = none) :
    version = made.length := by
  rcases List.eq_nil_or_concat made with rfl | ⟨earlier, last, rfl⟩
  · cases call with
    | planGoal plan reason actor => exact hcounts
    | replanGoal plan reason actor =>
      have hnone := h.planning.previousPlanVersion
      exact Except.ok.inj (hcounts.symm.trans hnone)
  · rw [List.concat_eq_append] at h ⊢
    have hlast : (earlier ++ [last]).getLast? = some last := List.getLast?_concat
    cases call with
    | planGoal plan reason actor =>
      have hnone := hfresh plan reason actor rfl
      rw [h.planning.activePlan_eq, hlast] at hnone
      cases hnone
    | replanGoal plan reason actor =>
      have hprevious := h.planning.previousPlanVersion
      have hversion : last.getJson "version" = .num ((earlier.length + 1 : ℤ) : ℚ) :=
        h.versions earlier.length last List.getElem?_concat_length
      rw [hlast, Option.elim_some, hversion, Json.toInt_num_orElse] at hprevious
      rw [Except.ok.inj (hcounts.symm.trans hprevious), List.length_append,
        List.length_singleton]
      exact (Nat.cast_succ _).symm

/-- **One plan** more. -/
theorem Numbered.makes (h : Numbered cfg made goal.metadata) (hmakes : Makes cfg call goal g p)
    (hfresh : call.Fresh cfg goal) : Numbered cfg (made ++ [p]) g.metadata := by
  obtain ⟨version, hcounts, hversion⟩ := hmakes.version
  obtain ⟨reason, actor, now, hmetadata⟩ := hmakes.metadata
  have hlength := h.countsFrom hcounts fun plan reason actor hcall =>
    hmakes.fresh plan reason actor hcall hfresh
  constructor
  · have hplanning := h.planning.metadataWithPlan hmetadata
    have hhistory : takeLast 20 (takeLast 20 made.dropLast ++ made.getLast?.toList) =
        takeLast 20 made := by
      rw [takeLast_append_of_eq (takeLast_takeLast 20 made.dropLast)]
      rcases List.eq_nil_or_concat made with rfl | ⟨earlier, last, rfl⟩
      · rfl
      · rw [List.concat_eq_append, List.dropLast_concat, List.getLast?_concat]
        rfl
    rw [hhistory] at hplanning
    rw [List.getLast?_concat, List.dropLast_concat]
    exact hplanning
  · intro i q hq
    rcases Nat.lt_or_ge i made.length with hi | hi
    · rw [List.getElem?_append_left hi] at hq
      exact h.versions i q hq
    · rw [List.getElem?_append_right hi, List.getElem?_singleton] at hq
      split at hq
      next hzero =>
        obtain rfl := Option.some.inj hq
        obtain rfl : i = made.length := by omega
        rw [hversion, hlength]
      · cases hq

end Numbered

/-- The goals, and the plans that were made so far. -/
abbrev PlanState := GoalState × List (Dict Json)

section Calls

variable (cfg : GoalConfig) (env : Environment) (repository : GoalRepository)
  (memory : ℕ → Except RuntimeException String) (goalId : String)

/-- A call on the goal `goalId`.  A call that does not raise has made the plan that is active
after it. -/
def planStep (call : PlanningCall) (s : PlanState) : Except RuntimeException Unit × PlanState :=
  let r := goalStep cfg env repository memory (call.on goalId) s.1
  (r.1, r.2, match r.1 with
    | .ok _ => s.2 ++ ((r.2.2.goals.get goalId).bind fun goal =>
      activePlan cfg goal.metadata).toList
    | .error _ => s.2)

/-- The call is `Fresh` for the goal that it finds. -/
def FreshCall (s : PlanState) (call : PlanningCall) : Prop :=
  ∀ goal, s.1.2.goals.get goalId = some goal → call.Fresh cfg goal

/-- The plans of a goal, `made` in this order: the active one has the greatest version, no two
have the same, and the history has the last twenty that were replaced. -/
structure PlansVersioned (metadata : Dict Json) (made : List (Dict Json)) : Prop where
  active : activePlan cfg metadata = made.getLast?
  history : planHistory cfg metadata = takeLast 20 made.dropLast
  greatest : ∀ plan ∈ planHistory cfg metadata, ∀ new, activePlan cfg metadata = some new →
    planVersion plan < planVersion new
  distinct : made.Pairwise fun p q => planVersion p ≠ planVersion q

end Calls

section Calls

variable {cfg : GoalConfig} {env : Environment} {repository : GoalRepository}
  {memory : ℕ → Except RuntimeException String} {goalId : String}

theorem Numbered.planVersion_eq {made : List (Dict Json)} {metadata : Dict Json}
    (h : Numbered cfg made metadata) {i : ℕ} {plan : Dict Json} (hplan : made[i]? = some plan) :
    planVersion plan = i + 1 := by
  rw [planVersion, h.versions i plan hplan]
  push_cast
  rfl

/-- Plans that are numbered have the versions of the claim. -/
theorem Numbered.plansVersioned {made : List (Dict Json)} {metadata : Dict Json}
    (h : Numbered cfg made metadata) : PlansVersioned cfg metadata made := by
  refine ⟨h.planning.activePlan_eq, h.planning.planHistory_eq, ?_, ?_⟩
  · intro plan hplan new hnew
    rw [h.planning.planHistory_eq] at hplan
    rw [h.planning.activePlan_eq] at hnew
    obtain ⟨i, hi, hget⟩ := List.mem_iff_getElem.mp (List.mem_of_mem_drop hplan)
    rw [List.length_dropLast] at hi
    have hplanned : made[i]? = some plan := by
      rw [← hget, List.getElem_dropLast, List.getElem?_eq_getElem]
    rw [List.getLast?_eq_getElem?] at hnew
    rw [h.planVersion_eq hplanned, h.planVersion_eq hnew]
    have hlt : i < made.length - 1 := hi
    exact_mod_cast Nat.succ_lt_succ hlt
  · rw [List.pairwise_iff_getElem]
    intro i j hi hj hlt heq
    rw [h.planVersion_eq (List.getElem?_eq_getElem hi),
      h.planVersion_eq (List.getElem?_eq_getElem hj)] at heq
    have hij : i = j := by exact_mod_cast add_right_cancel heq
    omega

/-- The plans of the goal `goalId` are numbered. -/
def NumberedPlans (cfg : GoalConfig) (goalId : String) (s : PlanState) : Prop :=
  ∃ goal, s.1.2.goals.get goalId = some goal ∧ Numbered cfg s.2 goal.metadata

/-- One call keeps the plans numbered. -/
theorem NumberedPlans.planStep {s : PlanState} {call : PlanningCall}
    (h : NumberedPlans cfg goalId s) (hfresh : FreshCall cfg goalId s call) :
    NumberedPlans cfg goalId (planStep cfg env repository memory goalId call s).2 := by
  obtain ⟨goal, hget, hnumbered⟩ := h
  have hcall : ((call.on goalId).code cfg).wp (goalHandler env repository memory)
      (fun _ s' => ∃ goal g p, s.1.2.goals.get goalId = some goal ∧
        s'.2.goals.get goalId = some g ∧ Makes cfg call goal g p)
      (fun _ s' => s'.2 = s.1.2) s.1 := wp_planningCall call s.1
  obtain ⟨hok, herror⟩ := (wp_iff_run _ _).mp hcall
  rcases hr : goalStep cfg env repository memory (call.on goalId) s.1 with ⟨e | u, s'⟩
  · have hkept := herror e s' hr
    have hstep : (OpenAgency.planStep cfg env repository memory goalId call s).2 = (s', s.2) := by
      rw [OpenAgency.planStep, hr]
    rw [hstep]
    exact ⟨goal, by rw [hkept]; exact hget, hnumbered⟩
  · obtain ⟨goal', g, p, hget', hget'', hmakes⟩ := hok u s' hr
    obtain rfl := Option.some.inj (hget.symm.trans hget')
    have hmade := hnumbered.makes hmakes (hfresh goal hget)
    have hactive : activePlan cfg g.metadata = some p := by
      rw [hmade.planning.activePlan_eq, List.getLast?_concat]
    have hstep : (OpenAgency.planStep cfg env repository memory goalId call s).2 =
        (s', s.2 ++ [p]) := by
      rw [OpenAgency.planStep, hr]
      dsimp only
      rw [hget'', Option.bind_some, hactive]
      rfl
    rw [hstep]
    exact ⟨g, hget'', hmade⟩

/-- **Plan versions**: on a goal that had no plan, in any order of `plan_goal` and
`replan_goal` where `plan_goal` makes no plan beside an active one, the active plan has a
greater version than the plans of the history, no two plans share a version, and the history
has the last twenty plans that were replaced. -/
theorem planVersions {s₀ s : GoalState} {made : List (Dict Json)} {goal : GoalDefinition}
    {h : List (PlanningCall × Except RuntimeException Unit)}
    (hget : s₀.2.goals.get goalId = some goal) (hunplanned : HasPlanning cfg goal.metadata none [])
    (hserves : Serves (planStep cfg env repository memory goalId) (FreshCall cfg goalId)
      (s₀, []) h (s, made)) :
    ∃ goal', s.2.goals.get goalId = some goal' ∧ PlansVersioned cfg goal'.metadata made := by
  have hstart : NumberedPlans cfg goalId (s₀, []) :=
    ⟨goal, hget, hunplanned, fun i p hp => by cases hp⟩
  obtain ⟨goal', hget', hnumbered⟩ := hserves.invariant
    (I := fun _ s => NumberedPlans cfg goalId s) hstart fun _ _ _ hs hfresh => hs.planStep hfresh
  exact ⟨goal', hget', hnumbered.plansVersioned⟩

end Calls

/-! ### A goal that asks for a report -/

/-- A goal without a plan. -/
def unplannedGoal : GoalDefinition where
  id := "g"
  objective := "report"
  successCriteria := [[("kind", .str "report")]]
  createdAt := 0
  updatedAt := 0
  described := report_described
  settled := unsettled_created

def unplannedGoals : GoalState := ({}, ({} : GoalStore).put unplannedGoal)

theorem unplannedGoal_hasPlanning : HasPlanning .plain unplannedGoal.metadata none [] :=
  ⟨⟨[], rfl, rfl, rfl, .inl rfl⟩⟩

/-- A goal is planned and then replanned. -/
theorem planVersions_replan :
    ∃ (s : GoalState) (made : List (Dict Json)), made.map planVersion = [1, 2] ∧
      ∃ goal' : GoalDefinition, s.2.goals.get "g" = some goal' ∧
        PlansVersioned .plain goal'.metadata made := by
  have hplan : FreshCall .plain "g" (unplannedGoals, []) (.planGoal none "initial_plan" none) := by
    intro goal hget
    obtain rfl := Option.some.inj hget
    exact .inl rfl
  have hplanned : Serves (planStep .plain .silent .sql (fun _ => .ok "m") "g")
      (FreshCall .plain "g") (unplannedGoals, []) _ _ := .call .start hplan
  have hreplan : FreshCall .plain "g" (planStep .plain .silent .sql (fun _ => .ok "m") "g"
      (.planGoal none "initial_plan" none) (unplannedGoals, [])).2
      (.replanGoal none "blocked" none) := fun _ _ => trivial
  have hreplanned := hplanned.call hreplan
  exact ⟨_, _, rfl, planVersions rfl unplannedGoal_hasPlanning hreplanned⟩

/-- A goal is planned twice: both plans have version 1. -/
theorem planVersions_plan_plan :
    ¬ ∀ (cfg : GoalConfig) (env : Environment) (repository : GoalRepository)
      (memory : ℕ → Except RuntimeException String) (goalId : String) (s₀ s : GoalState)
      (made : List (Dict Json)) (goal : GoalDefinition)
      (h : List (PlanningCall × Except RuntimeException Unit)),
      s₀.2.goals.get goalId = some goal → HasPlanning cfg goal.metadata none [] →
      Serves (planStep cfg env repository memory goalId) (fun _ _ => True) (s₀, []) h (s, made) →
      ∃ goal', s.2.goals.get goalId = some goal' ∧ PlansVersioned cfg goal'.metadata made := by
  intro hall
  have hplanned : Serves (planStep .plain .silent .sql (fun _ => .ok "m") "g")
      (fun _ _ => True) (unplannedGoals, []) _ _ :=
    .call .start trivial (i := .planGoal none "initial_plan" none)
  have htwice := hplanned.call (i := .planGoal none "initial_plan" none) trivial
  obtain ⟨_, _, hversioned⟩ := hall _ _ _ _ _ _ _ _ _ _ rfl unplannedGoal_hasPlanning htwice
  have hdistinct := List.pairwise_iff_getElem.mp hversioned.distinct 0 1 (by decide +kernel)
    (by decide +kernel) (by decide)
  exact hdistinct rfl

end OpenAgency
