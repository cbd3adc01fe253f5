/-
GoalLinks.lean

Whether the links between goals and executions agree after a run of
`GoalStartupReconciler`, and whether a second run finds nothing to repair.

They do just if each execution alone is `Repairable` (`goalLinks_converge_iff`).  Both
passes go by the copies that were read first, so an execution that more than one goal
claims is given to one of them and stays in the list of the others, and the second pass
may undo what the first one has repaired.
-/
import OpenAgency.GoalLinkWrites

namespace OpenAgency

open Relational Interaction GoalStartupReconciler List GoalStore Finished Table

/-! ### Executions that can be repaired -/

/-- An active goal that lists the execution. -/
def Lists (goals : List GoalDefinition) (e : Execution) (g : GoalDefinition) : Prop :=
  g ∈ goals ∧ g.status.isActive = true ∧ e.id ∈ g.executionIds

/-- The one active goal that lists the execution. -/
def OnlyLister (goals : List GoalDefinition) (e : Execution) (g : GoalDefinition) : Prop :=
  ∀ g', Lists goals e g' ↔ g' = g

/-- The identifier of the goal, which is stripped where an execution names it, is not read
as that of another goal. -/
def NamesItself (goals : List GoalDefinition) (g : GoalDefinition) : Prop :=
  strip g.id = "" ∨ strip g.id = g.id ∨ ∀ h ∈ goals, h.id ≠ strip g.id

/-- No two claims on the execution disagree: by the goals that list it, by the goal it
names and by its own link. -/
def Repairable (goals : List GoalDefinition) (e : Execution) : Prop :=
  match executionGoalHint e with
  | none =>
    (∀ g ∈ goals, g.status.isActive = true → e.id ∉ g.executionIds ∧ e.goalId ≠ some g.id) ∨
      ∃ g, OnlyLister goals e g ∧ (e.goalId ≠ some g.id → NamesItself goals g)
  | some goalId =>
    match goals.find? (·.id = goalId) with
    | none => ∀ g ∈ goals, g.status.isActive = true →
        (e.id ∈ g.executionIds ↔ e.goalId = some g.id)
    | some h =>
      (∀ g, Lists goals e g → g = h) ∨
        e.goalId = some h.id ∧ h.status.isActive = false ∧
          ∃ g, OnlyLister goals e g ∧ NamesItself goals g

/-! ### The last write of an execution -/

section LastWrite

variable {goals : List GoalDefinition} {executions : List Execution} {e e' : Execution}

theorem executionGoalHint_linkTo (e : Execution) (goalId : String) (r : Dict Json) :
    executionGoalHint (linkTo e goalId r) = named (.str goalId) := by
  have hset : ∀ value : Json, (value.setKey "goal_id" (.str goalId)).get? "goal_id" =
      some (.str goalId) := by
    intro value
    cases value with
    | obj fields => exact Dict.get?_set_self fields "goal_id" (Json.str goalId)
    | _ => rfl
  simp only [executionGoalHint, linkTo, hset, Option.getD_some, Json.ofOption, Option.elim_some]
  rcases hnamed : named (.str goalId) with - | name
  · simp [hnamed]
  · simp [hnamed]

/-- A name that an execution gives is stripped. -/
theorem strip_of_hint {goalId : String} (h : executionGoalHint e = some goalId) :
    strip goalId = goalId ∧ goalId ≠ "" := by
  obtain ⟨value, -, hnamed⟩ := exists_of_findSome?_eq_some h
  obtain ⟨s, -, hs⟩ := Option.bind_eq_some_iff.mp hnamed
  split at hs
  · cases hs
  next hne =>
    obtain rfl := Option.some.inj hs
    exact ⟨strip_strip s, hne⟩

/-- The first pass writes an execution for the goals that list it without being linked. -/
theorem lastWrite_goalWrites_eq_none (hdistinct : Distinct executions) (he : e ∈ executions) :
    lastWrite (goalWrites executions (goals.filter (·.status.isActive))) e = none ↔
      ∀ g, Lists goals e g → e.goalId = some g.id := by
  rw [lastWrite_eq_none]
  constructor
  · rintro hnone g ⟨hg, hactive, hid⟩
    by_contra hgoal
    refine hnone (e, some g.id) (List.mem_flatMap.mpr ⟨g, ?_, ?_⟩) rfl
    · exact List.mem_filter.mpr ⟨hg, hactive⟩
    · exact (mem_referenceWrites hdistinct).mpr ⟨he, hid, hgoal, rfl⟩
  · intro hall p hp hid
    obtain ⟨g, hg, hp⟩ := List.mem_flatMap.mp hp
    obtain ⟨hmem, hactive⟩ := List.mem_filter.mp hg
    obtain ⟨hpe, hpid, hgoal, -⟩ := (mem_referenceWrites hdistinct).mp hp
    obtain rfl := hdistinct _ hpe _ he hid
    exact hgoal (hall g ⟨hmem, hactive, hpid⟩)

theorem lists_of_lastWrite (hdistinct : Distinct executions) (he : e ∈ executions)
    {t : Option String}
    (h : lastWrite (goalWrites executions (goals.filter (·.status.isActive))) e = some t) :
    ∃ g, Lists goals e g ∧ e.goalId ≠ some g.id ∧ t = some g.id := by
  obtain ⟨p, hp, hid, rfl⟩ := mem_of_lastWrite h
  obtain ⟨g, hg, hp⟩ := List.mem_flatMap.mp hp
  obtain ⟨hmem, hactive⟩ := List.mem_filter.mp hg
  obtain ⟨hpe, hpid, hgoal, ht⟩ := (mem_referenceWrites hdistinct).mp hp
  obtain rfl := hdistinct _ hpe _ he hid
  exact ⟨g, ⟨hmem, hactive, hpid⟩, hgoal, ht⟩

theorem mem_hintWrites {p : LinkWrite} (hp : p ∈ hintWrites goals e) :
    p.1 = e ∧ hintWrites goals e = [p] := by
  unfold hintWrites at hp ⊢
  split at hp
  · cases hp
  · split at hp
    · obtain rfl := List.mem_singleton.mp hp
      exact ⟨rfl, rfl⟩
    · split at hp
      next hne =>
        obtain rfl := List.mem_singleton.mp hp
        exact ⟨rfl, if_pos hne⟩
      · cases hp

/-- The second pass writes last. -/
theorem lastWrite_linkWrites (hdistinct : Distinct executions) (he : e ∈ executions) :
    lastWrite (linkWrites goals executions) e =
      ((hintWrites goals e).head?.map (·.2)).or
        (lastWrite (goalWrites executions (goals.filter (·.status.isActive))) e) := by
  rw [linkWrites, lastWrite_append]
  congr 1
  rcases hhints : hintWrites goals e with - | ⟨p, rest⟩
  · rw [lastWrite_eq_none.mpr]
    · rfl
    · intro p hp hid
      obtain ⟨e', he', hp⟩ := List.mem_flatMap.mp hp
      obtain ⟨rfl, -⟩ := mem_hintWrites hp
      obtain rfl := hdistinct _ he' _ he hid
      rw [hhints] at hp
      cases hp
  · have hp : p ∈ hintWrites goals e := by
      rw [hhints]
      exact mem_cons_self
    rcases hlast : lastWrite (executions.flatMap (hintWrites goals)) e with - | t
    · have hne := lastWrite_eq_none.mp hlast p (List.mem_flatMap.mpr ⟨e, he, hp⟩)
      rw [(mem_hintWrites hp).1] at hne
      exact absurd rfl hne
    · obtain ⟨p', hp', hid, rfl⟩ := mem_of_lastWrite hlast
      obtain ⟨e', he', hp'⟩ := List.mem_flatMap.mp hp'
      obtain ⟨rfl, -⟩ := mem_hintWrites hp'
      obtain rfl := hdistinct _ he' _ he hid
      have hone := (mem_hintWrites hp').2
      rw [hhints] at hone
      rw [(List.cons.inj hone).1]
      rfl

end LastWrite

/-! ### One execution -/

/-- The row `e'` is linked to just the active goals that list the execution now. -/
def Agrees (goals : List GoalDefinition) (e e' : Execution) : Prop :=
  ∀ g ∈ goals, g.status.isActive = true →
    ((e.id ∈ g.executionIds ∨ executionGoalHint e = some g.id) ↔ e'.goalId = some g.id)

/-- The goal that the row `e'` names lists the execution now, and the row is linked to it. -/
def HintKept (goals : List GoalDefinition) (e e' : Execution) : Prop :=
  ∀ h ∈ goals, executionGoalHint e' = some h.id →
    e'.goalId = some h.id ∧ (e.id ∈ h.executionIds ∨ executionGoalHint e = some h.id)

section One

variable {goals : List GoalDefinition} {executions : List Execution} {e e' : Execution}
  {s₀ : GoalStore}

/-- A row that the first pass has linked names its goal, unless another goal has the name. -/
theorem hintKept_linkTo {g : GoalDefinition} (hlists : Lists goals e g) (hstored : Stored goals s₀)
    (r : Dict Json) : HintKept goals e (linkTo e g.id r) ↔ NamesItself goals g := by
  have hnamed : executionGoalHint (linkTo e g.id r) =
      if strip g.id = "" then none else some (strip g.id) := executionGoalHint_linkTo e g.id r
  constructor
  · intro hkept
    by_cases hblank : strip g.id = ""
    · exact .inl hblank
    by_cases hother : ∃ h ∈ goals, h.id = strip g.id
    · obtain ⟨h, hh, hid⟩ := hother
      have hlinked := (hkept h hh (by rw [hnamed, if_neg hblank, hid])).1
      have hself : g.id = h.id := Option.some.inj hlinked
      exact .inr (.inl (hid.symm.trans hself.symm))
    · exact .inr (.inr fun h hh hid => hother ⟨h, hh, hid⟩)
  · intro hnames h hh hhint
    rw [hnamed] at hhint
    split at hhint
    · cases hhint
    next hblank =>
      have hid : strip g.id = h.id := Option.some.inj hhint
      rcases hnames with hblank' | hself | hnone
      · exact absurd hblank' hblank
      · obtain rfl := hstored.inj hlists.1 hh (hself.symm.trans hid)
        exact ⟨rfl, .inl hlists.2.2⟩
      · exact absurd hid.symm (hnone h hh)

/-- Only one goal lists an execution that agrees with the row the first pass left. -/
theorem onlyLister_of_agrees {g : GoalDefinition} (hlists : Lists goals e g)
    (hstored : Stored goals s₀) (hagrees : Agrees goals e e') (hgoal : e'.goalId = some g.id) :
    OnlyLister goals e g := by
  refine fun g' => ⟨fun ⟨hg', hactive, hin⟩ => ?_, fun heq => heq ▸ hlists⟩
  have hlinked := (hagrees g' hg' hactive).mp (.inl hin)
  exact hstored.inj hg' hlists.1 (Option.some.inj (hlinked.symm.trans hgoal))

/-- An execution that names no goal. -/
theorem repairable_iff_of_none (hdistinct : Distinct executions) (he : e ∈ executions)
    (hstored : Stored goals s₀) (hhint : executionGoalHint e = none)
    (hwritten : Written e (lastWrite (linkWrites goals executions) e) e') :
    Agrees goals e e' ∧ HintKept goals e e' ↔ Repairable goals e := by
  have hwrites : hintWrites goals e = [] := by simp only [hintWrites, hhint]
  rw [lastWrite_linkWrites hdistinct he, hwrites] at hwritten
  simp only [Repairable, hhint]
  rcases hlast : lastWrite (goalWrites executions (goals.filter (·.status.isActive))) e with - | t
  · rw [hlast] at hwritten
    obtain rfl : e' = e := by cases hwritten; rfl
    have hlinked := (lastWrite_goalWrites_eq_none hdistinct he).mp hlast
    have hkept : HintKept goals e' e' := by
      intro h _ hh
      rw [hhint] at hh
      cases hh
    constructor
    · rintro ⟨hagrees, -⟩
      by_cases hlisted : ∃ g, Lists goals e' g
      · obtain ⟨g, hlists⟩ := hlisted
        have hgoal := hlinked g hlists
        exact .inr ⟨g, onlyLister_of_agrees hlists hstored hagrees hgoal, fun hne => absurd hgoal hne⟩
      · refine .inl fun g hg hactive => ?_
        have hnot : e'.id ∉ g.executionIds := fun hin => hlisted ⟨g, hg, hactive, hin⟩
        refine ⟨hnot, fun hgoal => ?_⟩
        rcases (hagrees g hg hactive).mpr hgoal with hin | hh
        · exact hnot hin
        · rw [hhint] at hh
          cases hh
    · rintro (hnone | ⟨g, honly, -⟩)
      · refine ⟨fun g hg hactive => ?_, hkept⟩
        obtain ⟨hnot, hgoal⟩ := hnone g hg hactive
        simp [hnot, hgoal, hhint]
      · refine ⟨fun g' hg' hactive => ?_, hkept⟩
        have hlists : Lists goals e' g := (honly g).mpr rfl
        rw [hlinked g hlists, hhint]
        constructor
        · rintro (hin | hh)
          · rw [(honly g').mp ⟨hg', hactive, hin⟩]
          · cases hh
        · intro hid
          rw [← hstored.inj hlists.1 hg' (Option.some.inj hid)]
          exact .inl hlists.2.2
  · obtain ⟨g, hlists, hgoal, rfl⟩ := lists_of_lastWrite hdistinct he hlast
    rw [hlast] at hwritten
    obtain ⟨r, rfl⟩ : ∃ r, e' = linkTo e g.id r := by cases hwritten; exact ⟨_, rfl⟩
    rw [hintKept_linkTo hlists hstored]
    constructor
    · rintro ⟨hagrees, hnames⟩
      exact .inr ⟨g, onlyLister_of_agrees hlists hstored hagrees rfl, fun _ => hnames⟩
    · rintro (hnone | ⟨g', honly, hnames⟩)
      · exact absurd hlists.2.2 (hnone g hlists.1 hlists.2.1).1
      · obtain rfl := (honly g).mp hlists
        refine ⟨fun g' hg' hactive => ?_, hnames hgoal⟩
        rw [hhint]
        constructor
        · rintro (hin | hh)
          · rw [(honly g').mp ⟨hg', hactive, hin⟩]
            rfl
          · cases hh
        · intro hid
          rw [← hstored.inj hlists.1 hg' (Option.some.inj hid)]
          exact .inl hlists.2.2

/-- An execution that names a goal which is not listed. -/
theorem repairable_iff_of_unknown (hdistinct : Distinct executions) (he : e ∈ executions)
    {goalId : String} (hhint : executionGoalHint e = some goalId)
    (hfind : goals.find? (·.id = goalId) = none)
    (hwritten : Written e (lastWrite (linkWrites goals executions) e) e') :
    Agrees goals e e' ∧ HintKept goals e e' ↔ Repairable goals e := by
  have hunknown : ∀ g ∈ goals, executionGoalHint e ≠ some g.id := by
    intro g hg hh
    rw [hhint] at hh
    have hne := List.find?_eq_none.mp hfind g hg
    simp [Option.some.inj hh] at hne
  have hwrites : hintWrites goals e = [(e, none)] := by simp only [hintWrites, hhint, hfind]
  rw [lastWrite_linkWrites hdistinct he, hwrites] at hwritten
  obtain ⟨r, rfl⟩ : ∃ r, e' = flagAs e r := by cases hwritten; exact ⟨_, rfl⟩
  simp only [Repairable, hhint, hfind]
  constructor
  · rintro ⟨hagrees, -⟩ g hg hactive
    rw [← show (flagAs e r).goalId = e.goalId from rfl, ← hagrees g hg hactive]
    exact (or_iff_left (hunknown g hg)).symm
  · intro hall
    refine ⟨fun g hg hactive => ?_, fun h hh hh' => absurd hh' (hunknown h hh)⟩
    exact (or_iff_left (hunknown g hg)).trans (hall g hg hactive)

/-- An execution that names the goal `h`. -/
theorem repairable_iff_of_known (hdistinct : Distinct executions) (he : e ∈ executions)
    (hstored : Stored goals s₀) {h : GoalDefinition} (hh : h ∈ goals)
    (hhint : executionGoalHint e = some h.id)
    (hwritten : Written e (lastWrite (linkWrites goals executions) e) e') :
    Agrees goals e e' ∧ HintKept goals e e' ↔ Repairable goals e := by
  have hfind := hstored.find? hh
  simp only [Repairable, hhint, hfind]
  rw [lastWrite_linkWrites hdistinct he] at hwritten
  -- the goals that list the execution when only `h` may do so before the run
  have hagrees_iff : e'.goalId = some h.id →
      (Agrees goals e e' ↔ ∀ g, Lists goals e g → g = h) := by
    intro hgoal
    constructor
    · rintro hagrees g ⟨hg, hactive, hin⟩
      have hlinked := (hagrees g hg hactive).mp (.inl hin)
      exact hstored.inj hg hh (Option.some.inj (hlinked.symm.trans hgoal))
    · intro hall g hg hactive
      rw [hgoal, hhint]
      refine ⟨?_, .inr⟩
      rintro (hin | hid)
      · rw [hall g ⟨hg, hactive, hin⟩]
      · exact hid
  by_cases hlinked : e.goalId = some h.id
  · have hwrites : hintWrites goals e = [] := by
      simp only [hintWrites, hhint, hfind, hlinked, ne_eq, not_true_eq_false, if_false]
    rw [hwrites] at hwritten
    rcases hlast : lastWrite (goalWrites executions (goals.filter (·.status.isActive))) e with - | t
    · rw [hlast] at hwritten
      obtain rfl : e' = e := by cases hwritten; rfl
      have hall : ∀ g, Lists goals e' g → g = h := by
        intro g hlists
        have hgoal := (lastWrite_goalWrites_eq_none hdistinct he).mp hlast g hlists
        exact hstored.inj hlists.1 hh (Option.some.inj (hgoal.symm.trans hlinked))
      refine ⟨fun _ => .inl hall, fun _ => ⟨(hagrees_iff hlinked).mpr hall, ?_⟩⟩
      intro h' _ hhint'
      have hid : h.id = h'.id := Option.some.inj (hhint.symm.trans hhint')
      exact ⟨hlinked.trans (congrArg some hid), .inr hhint'⟩
    · obtain ⟨g, hlists, hgoal, rfl⟩ := lists_of_lastWrite hdistinct he hlast
      rw [hlast] at hwritten
      obtain ⟨r, rfl⟩ : ∃ r, e' = linkTo e g.id r := by cases hwritten; exact ⟨_, rfl⟩
      have hne : g ≠ h := by
        rintro rfl
        exact hgoal hlinked
      rw [hintKept_linkTo hlists hstored]
      constructor
      · rintro ⟨hagrees, hnames⟩
        refine .inr ⟨hlinked, ?_, g, onlyLister_of_agrees hlists hstored hagrees rfl, hnames⟩
        rw [← Bool.not_eq_true]
        intro hactive
        have hid := (hagrees h hh hactive).mp (.inr hhint)
        exact hne (hstored.inj hlists.1 hh (Option.some.inj hid))
      · rintro (hall | ⟨-, hinactive, g', honly, hnames⟩)
        · exact absurd (hall g hlists) hne
        · obtain rfl := (honly g).mp hlists
          refine ⟨fun g' hg' hactive => ?_, hnames⟩
          constructor
          · rintro (hin | hhint')
            · rw [(honly g').mp ⟨hg', hactive, hin⟩]
              rfl
            · have hid : h.id = g'.id := Option.some.inj (hhint.symm.trans hhint')
              rw [← hstored.inj hh hg' hid, hinactive] at hactive
              cases hactive
          · intro hid
            rw [← hstored.inj hlists.1 hg' (Option.some.inj hid)]
            exact .inl hlists.2.2
  · have hwrites : hintWrites goals e = [(e, some h.id)] := by
      simp only [hintWrites, hhint, hfind, ne_eq, hlinked, not_false_eq_true, if_true]
    rw [hwrites] at hwritten
    obtain ⟨r, rfl⟩ : ∃ r, e' = linkTo e h.id r := by cases hwritten; exact ⟨_, rfl⟩
    rw [hagrees_iff rfl]
    constructor
    · exact fun h => .inl h.1
    · rintro (hall | ⟨hgoal, -⟩)
      · refine ⟨hall, fun h' hh' hhint' => ?_⟩
        obtain ⟨hstrip, hblank⟩ := strip_of_hint hhint
        have hnamed : executionGoalHint (linkTo e h.id r) = some h.id := by
          rw [executionGoalHint_linkTo]
          simp only [named, Json.asStr?, Option.bind_some, hstrip, if_neg hblank]
        have hid : h.id = h'.id := Option.some.inj (hnamed.symm.trans hhint')
        exact ⟨congrArg some hid, .inr (hhint.trans (congrArg some hid))⟩
      · exact absurd hgoal hlinked

/-- **One execution** agrees with the goals after a run, and names the goal it is linked
to, just if it could be repaired. -/
theorem repairable_iff (hdistinct : Distinct executions) (he : e ∈ executions)
    (hstored : Stored goals s₀)
    (hwritten : Written e (lastWrite (linkWrites goals executions) e) e') :
    Agrees goals e e' ∧ HintKept goals e e' ↔ Repairable goals e := by
  rcases hhint : executionGoalHint e with - | goalId
  · exact repairable_iff_of_none hdistinct he hstored hhint hwritten
  rcases hfind : goals.find? (·.id = goalId) with - | h
  · exact repairable_iff_of_unknown hdistinct he hhint hfind hwritten
  · have hid : h.id = goalId := by simpa using List.find?_some hfind
    rw [← hid] at hhint
    exact repairable_iff_of_known hdistinct he hstored (mem_of_find?_eq_some hfind) hhint hwritten

end One

/-! ### The state after a run -/

/-- For every active goal and every execution, the goal lists the execution just if the
execution is linked to it. -/
def LinksAgree (s : GoalState) : Prop :=
  ∀ id goal x e, s.2.goals.get id = some goal → goal.status.isActive = true →
    s.1.db.executions.get x = some e → (e.id ∈ goal.executionIds ↔ e.goalId = some goal.id)

/-- The links of goals and executions are the same. -/
structure SameLinks (s s' : GoalState) : Prop where
  goals : ∀ id, (s'.2.goals.get id).map (·.executionIds) = (s.2.goals.get id).map (·.executionIds)
  executions : ∀ x, (s'.1.db.executions.get x).map (·.goalId) =
    (s.1.db.executions.get x).map (·.goalId)

section Finished

variable {cfg : GoalConfig} {env : Environment} {repository : GoalRepository}
  {memory : ℕ → Except RuntimeException String} {s s' : GoalState}
  {report : GoalStartupReconciliationReport}

variable {g : GoalDefinition}

theorem isHidden_of_isActive (hactive : g.status.isActive = true) :
    isHidden repository g = false := by
  have hne : g.status ≠ .abandoned := by
    intro heq
    rw [heq] at hactive
    cases hactive
  simp [isHidden, hne]

theorem isHidden_congr {g g' : GoalDefinition} (h : g'.status = g.status) :
    isHidden repository g' = isHidden repository g := by
  rw [isHidden, h, isHidden]

/-- Each execution's row after the run. -/
theorem Finished.execution (h : Finished repository s report s') {e : Execution}
    (he : e ∈ listedExecutions s.1) :
    ∃ e', s'.1.db.executions.get e.id = some e' ∧
      Written e (lastWrite (linkWrites (s.2.list repository) (listedExecutions s.1)) e) e' := by
  obtain ⟨found, hprogress, -, -⟩ := h.progress
  exact hprogress.rows.row e he

/-- The executions after the run are those from before it. -/
theorem Finished.execution_of_get (h : Finished repository s report s') {x : Uuid}
    {e' : Execution} (hget : s'.1.db.executions.get x = some e') :
    ∃ e ∈ listedExecutions s.1, e.id = x ∧
      Written e (lastWrite (linkWrites (s.2.list repository) (listedExecutions s.1)) e) e' := by
  obtain ⟨found, hprogress, -, -⟩ := h.progress
  obtain ⟨e, he, rfl⟩ := hprogress.rows.only x e' hget
  obtain ⟨e'', hget', hwritten⟩ := hprogress.rows.row e he
  obtain rfl := Option.some.inj (hget'.symm.trans hget)
  exact ⟨e, he, rfl, hwritten⟩

/-- A goal lists the executions it did, and those that name it. -/
theorem Finished.goal (h : Finished repository s report s') (hg : g ∈ s.2.list repository) :
    ∃ g', s'.2.goals.get g.id = some g' ∧ g'.status = g.status ∧ g'.parentGoalId = g.parentGoalId ∧
      (∀ x, x ∈ g'.executionIds ↔ x ∈ g.executionIds ∨
        ∃ e ∈ listedExecutions s.1, e.id = x ∧ executionGoalHint e = some g.id) ∧
      (report.repairedGoalExecutionLinks = 0 → g'.executionIds = g.executionIds) ∧
      (g.status.isActive = true → missingReferences (listedExecutions s.1) g.executionIds ≠ [] →
        s.2.orphans repository g = false ∧
          ∃ d, g'.metadata.getJson "goal_startup_reconciliation" = .obj d) := by
  obtain ⟨found, hprogress, hreport, -⟩ := h.progress
  obtain ⟨g', -, hget, hrec⟩ := hprogress.known g hg
  refine ⟨g', hget, hrec.status, hrec.parent, hrec.listed, ?_, fun hactive => ?_⟩
  · rw [hreport]
    exact hrec.same
  · exact hrec.noted (List.mem_filter.mpr ⟨hg, hactive⟩)

/-- A goal that is not listed is as it was. -/
theorem Finished.other (h : Finished repository s report s') {id : String}
    (hid : ∀ g ∈ s.2.list repository, g.id ≠ id) : s'.2.goals.get id = s.2.goals.get id := by
  obtain ⟨found, hprogress, -, -⟩ := h.progress
  exact (hprogress.other id hid).2

/-- The goals that are listed after the run are those from before it. -/
theorem Finished.mem_list (h : Finished repository s report s') {g' : GoalDefinition}
    (hg' : g' ∈ s'.2.list repository) :
    ∃ g ∈ s.2.list repository, g.id = g'.id ∧ s'.2.goals.get g.id = some g' := by
  obtain ⟨hget, hvisible⟩ := GoalStore.mem_list.mp hg'
  by_cases hin : ∃ g ∈ s.2.list repository, g.id = g'.id
  · obtain ⟨g, hg, hid⟩ := hin
    exact ⟨g, hg, hid, by rw [hid]; exact hget⟩
  · have hsame := h.other fun g hg hid => hin ⟨g, hg, hid⟩
    refine absurd ⟨g', ?_, rfl⟩ hin
    exact GoalStore.mem_list.mpr ⟨hsame.symm.trans hget, hvisible⟩

/-- With one goal for each identifier, an execution is added by its own name only. -/
theorem Finished.listed_iff {e : Execution} (he : e ∈ listedExecutions s.1) :
    (e.id ∈ g.executionIds ∨
      ∃ e₁ ∈ listedExecutions s.1, e₁.id = e.id ∧ executionGoalHint e₁ = some g.id) ↔
    (e.id ∈ g.executionIds ∨ executionGoalHint e = some g.id) := by
  refine or_congr_right ⟨?_, fun hhint => ⟨e, he, rfl, hhint⟩⟩
  rintro ⟨e₁, he₁, hid, hhint⟩
  obtain rfl := distinct_listedExecutions s.1 e₁ he₁ e he hid
  exact hhint

/-- The links agree after the run just if the row of every execution agrees. -/
theorem Finished.linksAgree_iff (h : Finished repository s report s') :
    LinksAgree s' ↔ ∀ e ∈ listedExecutions s.1, ∀ e', s'.1.db.executions.get e.id = some e' →
      Agrees (s.2.list repository) e e' := by
  constructor
  · intro hagree e he e' hget g hg hactive
    obtain ⟨g', hget', hstatus, -, hlisted, -⟩ := h.goal hg
    have hboth := hagree g.id g' e.id e' hget' (by rw [hstatus]; exact hactive) hget
    rw [key_of_get hget, hlisted, listed_iff he, id_of_get hget'] at hboth
    exact hboth
  · intro hall id g' x e' hget' hactive hget
    obtain ⟨e, he, rfl, -⟩ := h.execution_of_get hget
    obtain rfl := id_of_get hget'
    have hlist : g' ∈ s'.2.list repository :=
      GoalStore.mem_list.mpr ⟨hget', isHidden_of_isActive hactive⟩
    obtain ⟨g, hg, hid, hgetg⟩ := h.mem_list hlist
    obtain ⟨g'', hget'', hstatus, -, hlisted, -⟩ := h.goal hg
    obtain rfl : g' = g'' := Option.some.inj (hgetg.symm.trans hget'')
    rw [key_of_get hget, hlisted, listed_iff he, ← hid]
    exact hall e he e' hget g hg (by rw [← hstatus]; exact hactive)

/-- Every goal that an execution names lists it, and the execution is linked to it. -/
def HintsSettled (repository : GoalRepository) (s : GoalState) : Prop :=
  ∀ e ∈ listedExecutions s.1, ∀ h ∈ s.2.list repository, executionGoalHint e = some h.id →
    e.goalId = some h.id ∧ e.id ∈ h.executionIds

theorem Finished.hintsSettled_iff (h : Finished repository s report s') :
    HintsSettled repository s' ↔ ∀ e ∈ listedExecutions s.1, ∀ e',
      s'.1.db.executions.get e.id = some e' → HintKept (s.2.list repository) e e' := by
  constructor
  · intro hsettled e he e' hget g hg hhint
    obtain ⟨g', hget', hstatus, -, hlisted, -⟩ := h.goal hg
    have hid : g'.id = g.id := id_of_get hget'
    have hlist : g' ∈ s'.2.list repository := by
      refine GoalStore.mem_list.mpr ⟨by rw [hid]; exact hget', ?_⟩
      rw [isHidden_congr hstatus]
      exact (GoalStore.mem_list.mp hg).2
    have hid' : e'.id = e.id := key_of_get hget
    have he' : e' ∈ listedExecutions s'.1 := mem_listedExecutions.mpr (by rw [hid']; exact hget)
    obtain ⟨hgoal, hin⟩ := hsettled e' he' g' hlist (by rw [hid]; exact hhint)
    rw [hid', hlisted, listed_iff he] at hin
    exact ⟨by rw [← hid]; exact hgoal, hin⟩
  · intro hall e' he' g' hg' hhint
    obtain ⟨e, he, hide, -⟩ := h.execution_of_get (mem_listedExecutions.mp he')
    obtain ⟨g, hg, hid, hgetg⟩ := h.mem_list hg'
    obtain ⟨g'', hget'', -, -, hlisted, -⟩ := h.goal hg
    obtain rfl : g' = g'' := Option.some.inj (hgetg.symm.trans hget'')
    rw [← hid] at hhint ⊢
    rw [← hide, hlisted, listed_iff he]
    refine hall e he e' ?_ g hg hhint
    rw [hide]
    exact mem_listedExecutions.mp he'

theorem Finished.orphans_eq (h : Finished repository s report s') {g g' : GoalDefinition}
    (hid : g'.id = g.id) (hparent : g'.parentGoalId = g.parentGoalId) :
    s'.2.orphans repository g' = s.2.orphans repository g := by
  obtain ⟨found, hprogress, -, -⟩ := h.progress
  exact hprogress.orphans_eq stored_list hid hparent

/-! ### A second run -/

/-- A second run returns, repairs nothing, and leaves the links as they are. -/
def Settled (cfg : GoalConfig) (env : Environment) (repository : GoalRepository)
    (memory : ℕ → Except RuntimeException String) (s : GoalState) : Prop :=
  ∃ report s', (GoalStartupReconciler.reconcileOnce cfg).run (goalHandler env repository memory) s =
      (.ok report, s') ∧
    report.repairedGoalExecutionLinks = 0 ∧ report.repairedExecutionGoalLinks = 0 ∧
    SameLinks s s'

/-- Where links agree and hints are settled, there is nothing to link. -/
theorem unlinked_of_settled (hagree : LinksAgree s) (hsettled : HintsSettled repository s)
    {p : LinkWrite} (hp : p ∈ linkWrites (s.2.list repository) (listedExecutions s.1)) :
    p.1 ∈ listedExecutions s.1 ∧ p.2 = none ∧
      ∃ goalId, executionGoalHint p.1 = some goalId ∧
        (s.2.list repository).find? (·.id = goalId) = none := by
  rcases List.mem_append.mp hp with hp | hp
  · obtain ⟨g, hg, hp⟩ := List.mem_flatMap.mp hp
    obtain ⟨hmem, hactive⟩ := List.mem_filter.mp hg
    obtain ⟨hpe, hpid, hgoal, -⟩ := (mem_referenceWrites (distinct_listedExecutions s.1)).mp hp
    refine absurd ?_ hgoal
    exact (hagree g.id g p.1.id p.1 (stored_list g hmem) hactive (mem_listedExecutions.mp hpe)).mp
      hpid
  · obtain ⟨e, he, hp⟩ := List.mem_flatMap.mp hp
    obtain ⟨rfl, hone⟩ := mem_hintWrites hp
    unfold hintWrites at hp
    split at hp
    · cases hp
    next goalId hhint =>
    split at hp
    next hfind =>
      exact ⟨he, congrArg Prod.snd (List.mem_singleton.mp hp), goalId, hhint, hfind⟩
    next g hfind =>
    split at hp
    next hne =>
      have hg := mem_of_find?_eq_some hfind
      have hid : g.id = goalId := by simpa using List.find?_some hfind
      exact absurd (hsettled p.1 he g hg (by rw [hid]; exact hhint)).1 hne
    · cases hp

/-- Nothing that a second run has to save is in its way. -/
theorem Finished.not_blocked (h : Finished repository s report s') (hagree : LinksAgree s')
    (hsettled : HintsSettled repository s') :
    ¬ Blocked cfg repository s'.2 (s'.2.list repository) (listedExecutions s'.1) := by
  rintro (⟨g', hg', hsaved, hfails⟩ | ⟨p, hp, x, hfails⟩ | ⟨e, he, g', hg', hhint, hnew, -⟩)
  · obtain ⟨hmem, hactive⟩ := List.mem_filter.mp hg'
    have hnone : referenceWrites (listedExecutions s'.1) g'.id g'.executionIds = [] := by
      refine List.eq_nil_iff_forall_not_mem.mpr fun p hp => ?_
      have hall : p ∈ linkWrites (s'.2.list repository) (listedExecutions s'.1) :=
        mem_append_left _ (List.mem_flatMap.mpr ⟨g', hg', hp⟩)
      have hunlinked := (unlinked_of_settled hagree hsettled hall).2.1
      rw [((mem_referenceWrites (distinct_listedExecutions s'.1)).mp hp).2.2.2] at hunlinked
      cases hunlinked
    have hmissing := hsaved.resolve_right fun hne => hne hnone
    obtain ⟨g, hg, hid, hgetg⟩ := h.mem_list hmem
    obtain ⟨g'', hget'', hstatus, hparent, hlisted, -, hnoted⟩ := h.goal hg
    obtain rfl : g' = g'' := Option.some.inj (hgetg.symm.trans hget'')
    -- an execution that is missing now was listed, and missing, before
    have hmissing' : missingReferences (listedExecutions s.1) g.executionIds ≠ [] := by
      obtain ⟨x, hx⟩ := exists_mem_of_ne_nil _ hmissing
      obtain ⟨hxin, hxnone⟩ := List.mem_filter.mp hx
      have hgone : ∀ e ∈ listedExecutions s.1, e.id ≠ x := by
        rintro e he rfl
        obtain ⟨e', hget, -⟩ := h.execution he
        have hid' : e'.id = e.id := key_of_get hget
        have he' : e' ∈ listedExecutions s'.1 := mem_listedExecutions.mpr (by rw [hid']; exact hget)
        rw [Option.isNone_iff_eq_none, List.find?_eq_none] at hxnone
        exact hxnone e' he' (by simpa using hid')
      have hxold : x ∈ g.executionIds := by
        refine ((hlisted x).mp hxin).resolve_right ?_
        rintro ⟨e, he, hex, -⟩
        exact hgone e he hex
      refine ne_nil_of_mem (List.mem_filter.mpr ⟨hxold, ?_⟩)
      rw [Option.isNone_iff_eq_none, List.find?_eq_none]
      exact fun e he => by simpa using hgone e he
    obtain ⟨horphans, d, hd⟩ := hnoted (by rw [← hstatus]; exact hactive) hmissing'
    rcases hfails with ⟨x, hx⟩ | hfails
    · rw [hd, GoalConfig.toDict_obj] at hx
      cases hx
    · rw [h.orphans_eq (id_of_get hget'') hparent, horphans] at hfails
      cases hfails
  · obtain ⟨hpe, -, goalId, hhint, hfind⟩ := unlinked_of_settled hagree hsettled hp
    obtain ⟨e, he, -, hwritten⟩ := h.execution_of_get (mem_listedExecutions.mp hpe)
    rw [lastWrite_linkWrites (distinct_listedExecutions s.1) he] at hwritten
    generalize hlast : ((hintWrites (s.2.list repository) e).head?.map (·.2)).or
      (lastWrite (goalWrites (listedExecutions s.1)
        ((s.2.list repository).filter (·.status.isActive))) e) = last at hwritten
    generalize p.1 = row at hfails hhint hwritten
    cases hwritten with
    | untouched =>
      -- then the first run would have flagged it
      have hunknown : (s.2.list repository).find? (·.id = goalId) = none := by
        rw [List.find?_eq_none] at hfind ⊢
        intro g hg hid
        obtain ⟨g', hget', hstatus, -⟩ := h.goal hg
        have hid' : g'.id = g.id := id_of_get hget'
        refine hfind g' (GoalStore.mem_list.mpr ⟨by rw [hid']; exact hget', ?_⟩) (by rw [hid']; exact hid)
        rw [isHidden_congr hstatus]
        exact (GoalStore.mem_list.mp hg).2
      have hwrites : hintWrites (s.2.list repository) e = [(e, none)] := by
        simp only [hintWrites, hhint, hunknown]
      rw [hwrites] at hlast
      cases hlast
    | flagged r =>
      rw [flagAs, GoalConfig.toDict_obj] at hfails
      cases hfails
    | linked goalId r =>
      rw [linkTo, GoalConfig.toDict_obj] at hfails
      cases hfails
  · exact hnew (hsettled e he g' hg' hhint).2

/-- Whatever a run leaves, a second one repairs nothing just if hints are settled. -/
theorem Finished.settled_iff (h : Finished repository s report s') (hagree : LinksAgree s') :
    Settled cfg env repository memory s' ↔ HintsSettled repository s' := by
  obtain ⟨hok, herror⟩ := (Program.wp_iff_run _ _).mp (wp_goalReconcileOnce cfg env repository memory s')
  constructor
  · rintro ⟨report₂, s₂, hrun, hgoalLinks, hexecutionLinks, -⟩ e he g hg hhint
    obtain ⟨found, hprogress, hadds, hlinks⟩ := (hok report₂ s₂ hrun).progress
    rw [hgoalLinks] at hadds
    rw [hexecutionLinks, hprogress.links] at hlinks
    refine ⟨?_, hprogress.added.mp hadds.symm e he g hg hhint⟩
    by_contra hne
    have hwrite : (e, some g.id) ∈ linkWrites (s'.2.list repository) (listedExecutions s'.1) := by
      refine mem_append_right _ (List.mem_flatMap.mpr ⟨e, he, ?_⟩)
      have hfind := stored_list.find? hg
      simp only [hintWrites, hhint, hfind, ne_eq, hne, not_false_eq_true, if_true,
        mem_singleton]
    have hnil := eq_nil_of_length_eq_zero hlinks.symm
    have hin : (e, some g.id) ∈ (linkWrites (s'.2.list repository)
        (listedExecutions s'.1)).filter (·.2.isSome) := List.mem_filter.mpr ⟨hwrite, rfl⟩
    rw [hnil] at hin
    cases hin
  · intro hsettled
    rcases hrun : (GoalStartupReconciler.reconcileOnce cfg).run (goalHandler env repository memory)
      s' with ⟨x | report₂, s₂⟩
    · exact absurd (herror x s₂ hrun) (h.not_blocked hagree hsettled)
    have hfinished := hok report₂ s₂ hrun
    obtain ⟨found, hprogress, hadds, hlinks⟩ := hfinished.progress
    have hzero : report₂.repairedGoalExecutionLinks = 0 := by
      rw [hadds, hprogress.added]
      exact fun e he g hg hhint => (hsettled e he g hg hhint).2
    refine ⟨report₂, s₂, hrun, hzero, ?_, fun id => ?_, fun x => ?_⟩
    · rw [hlinks, hprogress.links, List.filter_eq_nil_iff.mpr]
      · rfl
      · intro p hp
        rw [(unlinked_of_settled hagree hsettled hp).2.1]
        simp
    · by_cases hin : ∃ g ∈ s'.2.list repository, g.id = id
      · obtain ⟨g, hg, rfl⟩ := hin
        obtain ⟨g', hget', -, -, -, hsame, -⟩ := hfinished.goal hg
        rw [hget', stored_list g hg, Option.map_some, Option.map_some, hsame hzero]
      · rw [hfinished.other fun g hg hid => hin ⟨g, hg, hid⟩]
    · rcases hget : s₂.1.db.executions.get x with - | e'
      · rcases hget' : s'.1.db.executions.get x with - | e
        · rfl
        · have hid : e.id = x := key_of_get hget'
          subst hid
          obtain ⟨e'', hget'', -⟩ := hfinished.execution (mem_listedExecutions.mpr hget')
          rw [hget] at hget''
          cases hget''
      · obtain ⟨e, he, rfl, hwritten⟩ := hfinished.execution_of_get hget
        rw [mem_listedExecutions.mp he, Option.map_some, Option.map_some]
        refine congrArg some ?_
        generalize hlast : lastWrite (linkWrites (s'.2.list repository) (listedExecutions s'.1)) e =
          last at hwritten
        cases hwritten with
        | untouched => rfl
        | flagged r => rfl
        | linked goalId r =>
          obtain ⟨p, hp, -, ht⟩ := mem_of_lastWrite hlast
          rw [(unlinked_of_settled hagree hsettled hp).2.1] at ht
          cases ht

/-- **Goal links converge** in a run just if no two claims on any execution disagree. -/
theorem goalLinks_converge_iff
    (hrun : (GoalStartupReconciler.reconcileOnce cfg).run (goalHandler env repository memory) s =
      (.ok report, s')) :
    (LinksAgree s' ∧ Settled cfg env repository memory s') ↔
      ∀ e ∈ listedExecutions s.1, Repairable (s.2.list repository) e := by
  obtain ⟨hok, -⟩ := (Program.wp_iff_run _ _).mp (wp_goalReconcileOnce cfg env repository memory s)
  have h := hok report s' hrun
  have hone : ∀ e ∈ listedExecutions s.1, ∀ e', s'.1.db.executions.get e.id = some e' →
      (Agrees (s.2.list repository) e e' ∧ HintKept (s.2.list repository) e e' ↔
        Repairable (s.2.list repository) e) := by
    intro e he e' hget
    obtain ⟨e'', hget'', hwritten⟩ := h.execution he
    obtain rfl := Option.some.inj (hget''.symm.trans hget)
    exact repairable_iff (distinct_listedExecutions s.1) he stored_list hwritten
  constructor
  · rintro ⟨hagree, hsettled⟩ e he
    obtain ⟨e', hget, -⟩ := h.execution he
    have hhints := h.hintsSettled_iff.mp ((h.settled_iff hagree).mp hsettled)
    exact (hone e he e' hget).mp ⟨h.linksAgree_iff.mp hagree e he e' hget, hhints e he e' hget⟩
  · intro hall
    have hagree : LinksAgree s' := h.linksAgree_iff.mpr fun e he e' hget =>
      ((hone e he e' hget).mpr (hall e he)).1
    refine ⟨hagree, (h.settled_iff hagree).mpr (h.hintsSettled_iff.mpr fun e he e' hget => ?_)⟩
    exact ((hone e he e' hget).mpr (hall e he)).2

end Finished

/-! ### One execution and the goals that list it -/

/-- An active goal that lists the execution `7`. -/
def listingGoal (id : String) : GoalDefinition where
  id := id
  objective := "report"
  executionIds := [7]
  createdAt := 0
  updatedAt := 0
  described := report_described
  settled := unsettled_created

/-- The execution `7`, which is linked to no goal, and goals that list it. -/
def listingGoals (ids : List String) : GoalState :=
  ({ db := { executions := empty.save { id := 7, workflowId := "w" } } },
    { goals := (ids.map listingGoal).foldl Catalog.put .empty })

/-- The only goal that lists the execution is written into it. -/
theorem goalLinks_converge_single :
    ∃ report s', (GoalStartupReconciler.reconcileOnce .plain).run
      (goalHandler .silent .inMemory fun _ => .ok "m")
        (listingGoals ["g"]) = (.ok report, s') ∧
      (LinksAgree s' ∧ Settled .plain .silent .inMemory (fun _ => .ok "m") s') := by
  have hok : ((GoalStartupReconciler.reconcileOnce .plain).run
      (goalHandler .silent .inMemory fun _ => .ok "m")
      (listingGoals ["g"])).1.isOk = true := by decide +kernel
  rcases hrun : (GoalStartupReconciler.reconcileOnce .plain).run
      (goalHandler .silent .inMemory fun _ => .ok "m")
    (listingGoals ["g"]) with ⟨x | report, s'⟩
  · rw [hrun] at hok
    cases hok
  refine ⟨report, s', rfl, (goalLinks_converge_iff hrun).mpr fun e he => ?_⟩
  have hone : listedExecutions (listingGoals ["g"]).1 = [{ id := 7, workflowId := "w" }] := rfl
  rw [hone] at he
  obtain rfl := List.mem_singleton.mp he
  have hgoals : (listingGoals ["g"]).2.list .inMemory = [listingGoal "g"] := rfl
  rw [hgoals]
  refine .inr ⟨listingGoal "g", fun g' => ⟨fun hlists => List.mem_singleton.mp hlists.1, ?_⟩, ?_⟩
  · rintro rfl
    exact ⟨mem_singleton_self _, rfl, mem_singleton_self 7⟩
  · exact fun _ => .inr (.inl (by decide +kernel))

/-- Of two goals that list the execution, the second one gets it, and the first one keeps
it in its list. -/
theorem goalLinks_converge_not :
    ¬ ∀ (cfg : GoalConfig) (env : Environment) (repository : GoalRepository)
      (memory : ℕ → Except RuntimeException String) (s s' : GoalState)
      (report : GoalStartupReconciliationReport),
      (GoalStartupReconciler.reconcileOnce cfg).run (goalHandler env repository memory) s =
        (.ok report, s') →
        LinksAgree s' ∧ Settled cfg env repository memory s' := by
  intro hall
  have hlinks : (fun r : Except RuntimeException GoalStartupReconciliationReport × GoalState =>
      (r.1.isOk, (r.2.1.db.executions.get 7).map (·.goalId),
        (r.2.2.goals.get "a").map fun g => (g.status, g.executionIds)))
      ((GoalStartupReconciler.reconcileOnce .plain).run
      (goalHandler .silent .inMemory fun _ => .ok "m")
        (listingGoals ["a", "b"])) = (true, some (some "b"), some (.created, [7])) := by
    decide +kernel
  rcases hrun : (GoalStartupReconciler.reconcileOnce .plain).run
      (goalHandler .silent .inMemory fun _ => .ok "m")
    (listingGoals ["a", "b"]) with ⟨x | report, s'⟩
  · rw [hrun] at hlinks
    cases (Prod.mk.inj hlinks).1
  rw [hrun] at hlinks
  obtain ⟨-, hlinks⟩ := Prod.mk.inj hlinks
  obtain ⟨hexecution, hgoal⟩ := Prod.mk.inj hlinks
  obtain ⟨e, he, hlinked⟩ := Option.map_eq_some_iff.mp hexecution
  obtain ⟨g, hg, hfields⟩ := Option.map_eq_some_iff.mp hgoal
  obtain ⟨hstatus, hids⟩ := Prod.mk.inj hfields
  have hagree := (hall _ _ _ _ _ s' report hrun).1 "a" g 7 e hg (by rw [hstatus]; rfl) he
  rw [key_of_get he, hids, hlinked, id_of_get hg] at hagree
  have hsame := hagree.mp (mem_singleton_self 7)
  exact absurd hsame (by decide)

end OpenAgency
