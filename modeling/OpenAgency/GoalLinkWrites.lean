/-
GoalLinkWrites.lean

What a run of `GoalStartupReconciler` writes.  The executions it saves form a list of
writes which depends on nothing but the two lists it reads (`linkWrites`): first one write
for each execution that an active goal lists and that does not point back, then at most
one for each execution, by the goal it names.  Every write starts from the listed copy, so
the row of an execution is what its last write left (`Written`, `Rows`).

`wp_goalReconcileOnce` says this of the whole run, with what becomes of the goals and when
the repairs are counted as none.
-/
import OpenAgency.GoalReconciler
import OpenAgency.GoalWrites

namespace OpenAgency

open Relational Interaction GoalStartupReconciler Program List GoalStore

/-! ### Writes of executions -/

/-- An execution is saved from the copy `e`: linked to a goal, or only flagged. -/
abbrev LinkWrite := Execution × Option String

/-- The row of an execution by its last write. -/
inductive Written (e : Execution) : Option (Option String) → Execution → Prop
  | untouched : Written e none e
  | flagged (reconciliation : Dict Json) : Written e (some none) (flagAs e reconciliation)
  | linked (goalId : String) (reconciliation : Dict Json) :
      Written e (some (some goalId)) (linkTo e goalId reconciliation)

theorem Written.id {e row : Execution} {t : Option (Option String)} (h : Written e t row) :
    row.id = e.id := by
  cases h with
  | untouched => rfl
  | flagged => rfl
  | linked => rfl

/-- The last write of an execution. -/
def lastWrite (writes : List LinkWrite) (e : Execution) : Option (Option String) :=
  ((writes.filter (·.1.id = e.id)).getLast?).map (·.2)

section LastWrite

variable {writes : List LinkWrite} {e : Execution}

theorem lastWrite_append (more : List LinkWrite) :
    lastWrite (writes ++ more) e = (lastWrite more e).or (lastWrite writes e) := by
  simp only [lastWrite, filter_append, List.getLast?_append]
  cases (more.filter (·.1.id = e.id)).getLast? <;> rfl

theorem lastWrite_eq_none : lastWrite writes e = none ↔ ∀ p ∈ writes, p.1.id ≠ e.id := by
  simp [lastWrite]

theorem mem_of_lastWrite {t : Option String} (h : lastWrite writes e = some t) :
    ∃ p ∈ writes, p.1.id = e.id ∧ p.2 = t := by
  obtain ⟨p, hp, rfl⟩ := Option.map_eq_some_iff.mp h
  obtain ⟨hmem, hid⟩ := List.mem_filter.mp (mem_of_getLast? hp)
  exact ⟨p, hmem, by simpa using hid, rfl⟩

end LastWrite

/-- No two executions of the list have the same identifier. -/
def Distinct (executions : List Execution) : Prop :=
  ∀ e ∈ executions, ∀ e' ∈ executions, e.id = e'.id → e = e'

/-- The rows are those of the listed executions after the writes. -/
structure Rows (executions : List Execution) (writes : List LinkWrite) (w : World) : Prop where
  row : ∀ e ∈ executions, ∃ row, w.db.executions.get e.id = some row ∧
    Written e (lastWrite writes e) row
  only : ∀ id row, w.db.executions.get id = some row → ∃ e ∈ executions, e.id = id

namespace Rows

variable {executions : List Execution} {writes : List LinkWrite} {w w' : World}

theorem congr (h : Rows executions writes w) (heq : w'.db.executions = w.db.executions) :
    Rows executions writes w' := by
  refine ⟨fun e he => ?_, fun id row => ?_⟩
  · rw [heq]
    exact h.row e he
  · rw [heq]
    exact h.only id row

theorem write (h : Rows executions writes w) (hdistinct : Distinct executions) {e row : Execution}
    (he : e ∈ executions) {t : Option String} (hrow : Written e (some t) row)
    (heq : w'.db.executions = w.db.executions.save row) :
    Rows executions (writes ++ [(e, t)]) w' := by
  refine ⟨fun e' he' => ?_, fun id row' hget => ?_⟩
  · rw [heq, Table.get_save, hrow.id, lastWrite_append]
    by_cases hid : e'.id = e.id
    · obtain rfl := hdistinct e' he' e he hid
      have hlast : lastWrite [(e', t)] e' = some t := by simp [lastWrite]
      rw [if_pos rfl, hlast]
      exact ⟨row, rfl, hrow⟩
    · have hlast : lastWrite [(e, t)] e' = none :=
        lastWrite_eq_none.mpr (by simpa using Ne.symm hid)
      rw [if_neg hid, hlast]
      exact h.row e' he'
  · rw [heq, Table.get_save, hrow.id] at hget
    split at hget
    next hid => exact ⟨e, he, hid.symm⟩
    · exact h.only id row' hget

end Rows

/-! ### The writes of a run -/

/-- The writes for the executions that a goal lists. -/
def referenceWrites (executions : List Execution) (goalId : String) : List Uuid → List LinkWrite
  | [] => []
  | executionId :: rest =>
    match executions.find? (·.id = executionId) with
    | none => referenceWrites executions goalId rest
    | some e =>
      if e.goalId ≠ some goalId then
        (e, some goalId) :: referenceWrites executions goalId rest
      else referenceWrites executions goalId rest

/-- The executions a goal lists that do not exist. -/
def missingReferences (executions : List Execution) (ids : List Uuid) : List Uuid :=
  ids.filter fun id => (executions.find? (·.id = id)).isNone

/-- The write for the goal that an execution names. -/
def hintWrites (goals : List GoalDefinition) (e : Execution) : List LinkWrite :=
  match executionGoalHint e with
  | none => []
  | some goalId =>
    match goals.find? (·.id = goalId) with
    | none => [(e, none)]
    | some goal => if e.goalId ≠ some goal.id then [(e, some goal.id)] else []

/-- The writes of the first pass. -/
def goalWrites (executions : List Execution) (goals : List GoalDefinition) : List LinkWrite :=
  goals.flatMap fun goal => referenceWrites executions goal.id goal.executionIds

/-- All writes of a run. -/
def linkWrites (goals : List GoalDefinition) (executions : List Execution) : List LinkWrite :=
  goalWrites executions (goals.filter (·.status.isActive)) ++ executions.flatMap (hintWrites goals)

variable {goalId : String}

theorem mem_referenceWrites {executions : List Execution} {p : LinkWrite} {ids : List Uuid}
    (hdistinct : Distinct executions) :
    p ∈ referenceWrites executions goalId ids ↔
      p.1 ∈ executions ∧ p.1.id ∈ ids ∧ p.1.goalId ≠ some goalId ∧ p.2 = some goalId := by
  induction ids with
  | nil => simp [referenceWrites]
  | cons id ids ih =>
    rcases hfind : executions.find? (·.id = id) with - | e
    · simp only [referenceWrites, hfind, ih, mem_cons]
      rw [List.find?_eq_none] at hfind
      refine ⟨fun ⟨hp, hid, h⟩ => ⟨hp, .inr hid, h⟩, fun ⟨hp, hid, h⟩ => ⟨hp, ?_, h⟩⟩
      refine hid.resolve_left fun heq => ?_
      exact hfind p.1 hp (by simpa using heq)
    · have he : e ∈ executions := mem_of_find?_eq_some hfind
      have hid : e.id = id := by simpa using List.find?_some hfind
      have hsame : ∀ x ∈ executions, x.id = id → x = e := fun x hx hxid =>
        hdistinct x hx e he (hxid.trans hid.symm)
      simp only [referenceWrites, hfind]
      split
      next hne =>
        rw [mem_cons, ih, mem_cons]
        constructor
        · rintro (rfl | ⟨hp, hpid, h⟩)
          · exact ⟨he, .inl hid, hne, rfl⟩
          · exact ⟨hp, .inr hpid, h⟩
        · rintro ⟨hp, hpid | hpid, hgoal, ht⟩
          · exact .inl (Prod.ext (hsame p.1 hp hpid) ht)
          · exact .inr ⟨hp, hpid, hgoal, ht⟩
      next heq =>
        rw [ih, mem_cons]
        refine ⟨fun ⟨hp, hpid, h⟩ => ⟨hp, .inr hpid, h⟩, fun ⟨hp, hpid, hgoal, ht⟩ => ?_⟩
        refine ⟨hp, hpid.resolve_left fun hpid => ?_, hgoal, ht⟩
        rw [hsame p.1 hp hpid] at hgoal
        exact heq hgoal

/-! ### Single steps of a run -/

section Steps

variable {cfg : GoalConfig} {env : Environment} {executions : List Execution}
  {writes : List LinkWrite} {w : World} {e : Execution}

/-- Saving the execution would raise. -/
def Unreadable (cfg : GoalConfig) (e : Execution) : Prop :=
  ∃ x, cfg.toDict e.metadata.goalStartupReconciliation = .error x

theorem wp_saveExecutionGoalLink {goalId reason : String} (hrows : Rows executions writes w)
    (hdistinct : Distinct executions) (he : e ∈ executions) :
    (saveExecutionGoalLink cfg e goalId reason).wp (handler env)
      (fun _ w' => Rows executions (writes ++ [(e, some goalId)]) w')
      (fun _ _ => Unreadable cfg e) w := by
  unfold saveExecutionGoalLink
  rcases hdict : cfg.toDict e.metadata.goalStartupReconciliation with x | reconciliation
  · exact wp_of_raise ⟨x, hdict⟩
  · refine (wp_utcNow _).mpr ((wp_utcNow _).mpr ?_)
    refine wp_of_perform (S := RuntimeSig) (o := .db (.updateExecution _)) ?_
    exact hrows.write hdistinct he (.linked goalId _) rfl

theorem wp_flagOrphanedExecutionGoalReference (hrows : Rows executions writes w)
    (hdistinct : Distinct executions) (he : e ∈ executions) :
    (flagOrphanedExecutionGoalReference cfg e goalId).wp (handler env)
      (fun _ w' => Rows executions (writes ++ [(e, none)]) w')
      (fun _ _ => Unreadable cfg e) w := by
  unfold flagOrphanedExecutionGoalReference
  rcases hdict : cfg.toDict e.metadata.goalStartupReconciliation with x | reconciliation
  · exact wp_of_raise ⟨x, hdict⟩
  · refine (wp_utcNow _).mpr ((wp_utcNow _).mpr ?_)
    refine wp_of_perform (S := RuntimeSig) (o := .db (.updateExecution _)) ?_
    exact hrows.write hdistinct he (.flagged _) rfl

/-- An event of an execution that exists can be recorded. -/
theorem wp_recordReconciliationEvent {E : RuntimeException → World → Prop}
    (hrows : Rows executions writes w) (he : e ∈ executions) :
    (recordReconciliationEvent e).wp (handler env) (fun _ w' => Rows executions writes w') E w := by
  obtain ⟨row, hrow, -⟩ := hrows.row e he
  refine (wp_uuid4 _).mpr ((wp_utcNow _).mpr ((wp_query _ _).mpr ?_))
  simp only [DbOp.exec, hrow]
  exact wp_of_done (hrows.congr rfl)

/-- The first pass over the executions of one goal. -/
theorem wp_checkReferences (hdistinct : Distinct executions) (ids : List Uuid)
    (hrows : Rows executions writes w) :
    (checkReferences cfg executions goalId ids).wp (handler env)
      (fun r w' => Rows executions (writes ++ referenceWrites executions goalId ids) w' ∧
        r.1 = missingReferences executions ids ∧
        r.2.length = (referenceWrites executions goalId ids).length)
      (fun _ _ => ∃ p ∈ referenceWrites executions goalId ids, Unreadable cfg p.1) w := by
  induction ids generalizing writes w with
  | nil =>
    refine wp_of_done ⟨?_, rfl, rfl⟩
    rw [referenceWrites, append_nil]
    exact hrows
  | cons id ids ih =>
    rcases hfind : executions.find? (·.id = id) with - | e
    · simp only [checkReferences, referenceWrites, missingReferences, filter_cons, hfind,
        Option.isNone_none, if_true]
      refine wp_seq (ih hrows) fun r w' ⟨hrows', hmissing, hlength⟩ => ?_
      refine wp_of_done ⟨hrows', ?_, hlength⟩
      exact congrArg (List.cons id) hmissing
    · have he : e ∈ executions := mem_of_find?_eq_some hfind
      simp only [checkReferences, referenceWrites, missingReferences, filter_cons, hfind,
        Option.isNone_some, Bool.false_eq_true, if_false]
      split
      · refine wp_then (wp_saveExecutionGoalLink hrows hdistinct he)
          (fun _ w' hrows' => ?_) fun _ _ h => ⟨_, mem_cons_self, h⟩
        refine wp_seq (wp_recordReconciliationEvent hrows' he)
          fun _ w' hrows' => ?_
        refine wp_then (ih hrows') (fun r w' ⟨hrows', hmissing, hlength⟩ => ?_) ?_
        · refine wp_of_done ⟨?_, hmissing, congrArg Nat.succ hlength⟩
          rw [append_assoc] at hrows'
          exact hrows'
        · exact fun _ _ ⟨p, hp, h⟩ => ⟨p, mem_cons_of_mem _ hp, h⟩
      · exact ih hrows

end Steps

/-! ### The goals during a run -/

/-- Goals by their identifier. -/
abbrev GoalsById := Catalog (fun g : GoalDefinition => g.id)

theorem GoalsById.get_put (c : GoalsById) (g : GoalDefinition) (id : String) :
    Catalog.get (c.put g) id = if id = g.id then some g else c.get id := Catalog.get_put c g id

/-- The goals are those of the store, as they are there. -/
def Stored (goals : List GoalDefinition) (s : GoalStore) : Prop :=
  ∀ g ∈ goals, s.goals.get g.id = some g

variable {goals : List GoalDefinition}

variable {g g' : GoalDefinition} {s : GoalStore}

theorem Stored.inj (h : Stored goals s) (hg : g ∈ goals) (hg' : g' ∈ goals) (hid : g.id = g'.id) :
    g = g' := by
  have hget := h g hg
  rw [hid, h g' hg'] at hget
  exact (Option.some.inj hget).symm

variable {g : GoalDefinition}

theorem Stored.find? (h : Stored goals s) (hg : g ∈ goals) :
    goals.find? (·.id = g.id) = some g := by
  rcases hfind : goals.find? (·.id = g.id) with - | g'
  · rw [List.find?_eq_none] at hfind
    exact absurd (hfind g hg) (by simp)
  · have hid : g'.id = g.id := by simpa using List.find?_some hfind
    rw [hfind, h.inj (mem_of_find?_eq_some hfind) hg hid]

/-- The dict that is made of the list finds every goal of it. -/
theorem get_foldl_put (h : Stored goals s) (c : GoalsById) :
    (∀ g ∈ goals, (goals.foldl Catalog.put c).get g.id = some g) ∧
      ∀ id, (∀ g ∈ goals, g.id ≠ id) → (goals.foldl Catalog.put c).get id = c.get id := by
  induction goals generalizing c with
  | nil => exact ⟨fun _ hg => absurd hg not_mem_nil, fun _ _ => rfl⟩
  | cons g goals ih =>
    obtain ⟨hmem, hother⟩ := ih (fun g' hg' => h g' (mem_cons_of_mem _ hg')) (c.put g)
    refine ⟨fun g' hg' => ?_, fun id hid => ?_⟩
    · by_cases hin : ∃ g₁ ∈ goals, g₁.id = g'.id
      · obtain ⟨g₁, hg₁, hid⟩ := hin
        obtain rfl := h.inj (mem_cons_of_mem _ hg₁) hg' hid
        exact hmem g₁ hg₁
      · obtain rfl : g' = g := by
          refine (List.mem_cons.mp hg').resolve_right fun hg' => hin ⟨g', hg', rfl⟩
        rw [foldl_cons, hother _ fun g₁ hg₁ hid => hin ⟨g₁, hg₁, hid⟩, GoalsById.get_put,
          if_pos rfl]
    · rw [foldl_cons, hother id fun g₁ hg₁ => hid g₁ (mem_cons_of_mem _ hg₁),
        GoalsById.get_put, if_neg (Ne.symm (hid g mem_cons_self))]

section Progress

variable (repository : GoalRepository) (s₀ : GoalStore) (goals : List GoalDefinition)
  (executions : List Execution)

/-- What has become of the goal `g` once the goals `checked` and the executions `named` have
been dealt with. -/
structure Reconciled (checked : List GoalDefinition) (named : List Execution) (found : Findings)
    (g g' : GoalDefinition) : Prop where
  status : g'.status = g.status
  parent : g'.parentGoalId = g.parentGoalId
  listed : ∀ id, id ∈ g'.executionIds ↔
    id ∈ g.executionIds ∨ ∃ e ∈ named, e.id = id ∧ executionGoalHint e = some g.id
  same : found.repairedGoalExecutionLinks = 0 → g'.executionIds = g.executionIds
  noted : g ∈ checked → missingReferences executions g.executionIds ≠ [] →
    s₀.orphans repository g = false ∧
      ∃ d, g'.metadata.getJson "goal_startup_reconciliation" = .obj d

/-- How far a run has come: its writes, its counters, and the goals as it knows them and as
they are stored. -/
structure Progress (writes : List LinkWrite) (checked : List GoalDefinition)
    (named : List Execution) (found : Findings) (s : GoalState) : Prop where
  rows : Rows executions writes s.1
  links : found.repairedExecutionGoalLinks = (writes.filter (·.2.isSome)).length
  known : ∀ g ∈ goals, ∃ g', found.goalsById.get g.id = some g' ∧
    s.2.goals.get g.id = some g' ∧ Reconciled repository s₀ executions checked named found g g'
  other : ∀ id, (∀ g ∈ goals, g.id ≠ id) →
    found.goalsById.get id = none ∧ s.2.goals.get id = s₀.goals.get id
  added : found.repairedGoalExecutionLinks = 0 ↔
    ∀ e ∈ named, ∀ g ∈ goals, executionGoalHint e = some g.id → e.id ∈ g.executionIds

end Progress

namespace Progress

variable {repository : GoalRepository} {s₀ : GoalStore} {goals : List GoalDefinition}
  {executions : List Execution} {writes : List LinkWrite} {checked : List GoalDefinition}
  {named : List Execution} {found found' : Findings} {s s' : GoalState}

/-- Whether a parent is missing does not change during a run. -/
theorem orphans_eq (h : Progress repository s₀ goals executions writes checked named found s)
    (hstored : Stored goals s₀) (hid : g'.id = g.id) (hparent : g'.parentGoalId = g.parentGoalId) :
    s.2.orphans repository g' = s₀.orphans repository g := by
  have hnone : ∀ parent, (s.2.goals.get parent).isNone = (s₀.goals.get parent).isNone := by
    intro parent
    by_cases hin : ∃ g ∈ goals, g.id = parent
    · obtain ⟨g, hg, rfl⟩ := hin
      obtain ⟨g', -, hget, -⟩ := h.known g hg
      rw [hget, hstored g hg]
      rfl
    · rw [(h.other parent fun g hg hid => hin ⟨g, hg, hid⟩).2]
  simp only [orphans, hparent, hid, hnone]

/-- A write of an execution, which is counted if it links it. -/
theorem write (h : Progress repository s₀ goals executions writes checked named found s)
    {more : List LinkWrite} {w : World} (hrows : Rows executions (writes ++ more) w)
    (hfound : found'.goalsById = found.goalsById ∧
      found'.repairedGoalExecutionLinks = found.repairedGoalExecutionLinks)
    (hlinks : found'.repairedExecutionGoalLinks =
      found.repairedExecutionGoalLinks + (more.filter (·.2.isSome)).length) :
    Progress repository s₀ goals executions (writes ++ more) checked named found' (w, s.2) := by
  obtain ⟨hgoals, hadded⟩ := hfound
  refine ⟨hrows, ?_, fun g hg => ?_, fun id hid => ?_, ?_⟩
  · rw [hlinks, h.links, filter_append, length_append]
  · obtain ⟨g', hknown, hget, hrec⟩ := h.known g hg
    refine ⟨g', by rw [hgoals]; exact hknown, hget, hrec.status, hrec.parent, hrec.listed, ?_,
      hrec.noted⟩
    rw [hadded]
    exact hrec.same
  · rw [hgoals]
    exact h.other id hid
  · rw [hadded]
    exact h.added

/-- A goal is saved with other metadata, in the first pass. -/
theorem note (h : Progress repository s₀ goals executions writes checked [] found s)
    (hstored : Stored goals s₀) (hg : g ∈ goals)
    (hkept : g'.id = g.id ∧ g'.status = g.status ∧ g'.parentGoalId = g.parentGoalId ∧
      g'.executionIds = g.executionIds)
    (hnoted : s₀.orphans repository g = false ∧
      ∃ d, g'.metadata.getJson "goal_startup_reconciliation" = .obj d) :
    Progress repository s₀ goals executions writes (checked ++ [g]) []
      { found with goalsById := found.goalsById.put g' } (s.1, s.2.put g') := by
  obtain ⟨hid, hstatus, hparent, hids⟩ := hkept
  refine ⟨h.rows, h.links, fun g₁ hg₁ => ?_, fun id hid' => ?_, h.added⟩
  · by_cases heq : g₁.id = g.id
    · obtain rfl := hstored.inj hg₁ hg heq
      refine ⟨g', ?_, ?_, hstatus, hparent, fun id => ?_, fun _ => hids, fun _ _ => hnoted⟩
      · exact (GoalsById.get_put found.goalsById g' g₁.id).trans (if_pos hid.symm)
      · rw [get_put, if_pos hid.symm]
      · rw [hids]
        simp
    · obtain ⟨g₁', hknown, hget, hrec⟩ := h.known g₁ hg₁
      have hne : g₁.id ≠ g'.id := fun hid' => heq (hid'.trans hid)
      refine ⟨g₁', ?_, ?_, hrec.status, hrec.parent, hrec.listed, hrec.same, fun hmem => ?_⟩
      · exact (GoalsById.get_put found.goalsById g' g₁.id).trans ((if_neg hne).trans hknown)
      · rw [get_put, if_neg hne]
        exact hget
      · rcases List.mem_append.mp hmem with hmem | hmem
        · exact hrec.noted hmem
        · rw [List.mem_singleton.mp hmem] at heq
          exact absurd rfl heq
  · have hne : id ≠ g'.id := fun heq => hid' g hg (hid.symm.trans heq.symm)
    obtain ⟨hknown, hget⟩ := h.other id hid'
    refine ⟨?_, ?_⟩
    · exact (GoalsById.get_put found.goalsById g' id).trans ((if_neg hne).trans hknown)
    · rw [get_put, if_neg hne]
      exact hget

/-- A goal whose executions all exist is left as it is in the first pass. -/
theorem pass (h : Progress repository s₀ goals executions writes checked [] found s)
    (hnone : missingReferences executions g.executionIds = []) :
    Progress repository s₀ goals executions writes (checked ++ [g]) [] found s := by
  refine ⟨h.rows, h.links, fun g₁ hg₁ => ?_, h.other, h.added⟩
  obtain ⟨g', hknown, hget, hrec⟩ := h.known g₁ hg₁
  refine ⟨g', hknown, hget, hrec.status, hrec.parent, hrec.listed, hrec.same, ?_⟩
  intro hmem hmissing
  rcases List.mem_append.mp hmem with hmem | hmem
  · exact hrec.noted hmem hmissing
  · rw [List.mem_singleton.mp hmem] at hmissing
    exact absurd hnone hmissing

/-- An execution that no goal is named by, or which the goal it names lists already. -/
theorem skip (h : Progress repository s₀ goals executions writes checked named found s)
    {e : Execution} (hlisted : ∀ g ∈ goals, executionGoalHint e = some g.id →
      ∀ g', found.goalsById.get g.id = some g' → e.id ∈ g'.executionIds) :
    Progress repository s₀ goals executions writes checked (named ++ [e]) found s := by
  refine ⟨h.rows, h.links, fun g hg => ?_, h.other, ?_⟩
  · obtain ⟨g', hknown, hget, hrec⟩ := h.known g hg
    refine ⟨g', hknown, hget, hrec.status, hrec.parent, fun id => ?_, hrec.same, hrec.noted⟩
    rw [hrec.listed id]
    constructor
    · rintro (hid | ⟨e', he', hid⟩)
      · exact .inl hid
      · exact .inr ⟨e', mem_append_left _ he', hid⟩
    · rintro (hid | ⟨e', he', hid, hhint⟩)
      · exact .inl hid
      · rcases List.mem_append.mp he' with he' | he'
        · exact .inr ⟨e', he', hid, hhint⟩
        · obtain rfl := List.mem_singleton.mp he'
          obtain rfl := hid
          exact (hrec.listed e'.id).mp (hlisted g hg hhint g' hknown)
  · rw [h.added]
    constructor
    · intro hall e' he' g hg hhint
      rcases List.mem_append.mp he' with he' | he'
      · exact hall e' he' g hg hhint
      · obtain rfl := List.mem_singleton.mp he'
        obtain ⟨g', hknown, -, hrec⟩ := h.known g hg
        have hin := hlisted g hg hhint g' hknown
        rwa [hrec.same (h.added.mpr hall)] at hin
    · exact fun hall e' he' => hall e' (mem_append_left _ he')

/-- An execution is added to the goal it names. -/
theorem add (h : Progress repository s₀ goals executions writes checked named found s)
    (hstored : Stored goals s₀) {e : Execution} {g g' g'' : GoalDefinition} (hg : g ∈ goals)
    (hhint : executionGoalHint e = some g.id) (hknown : found.goalsById.get g.id = some g')
    (hnew : e.id ∉ g'.executionIds)
    (hkept : g''.id = g'.id ∧ g''.status = g'.status ∧ g''.parentGoalId = g'.parentGoalId ∧
      g''.executionIds = g'.executionIds ++ [e.id] ∧ g''.metadata = g'.metadata) :
    Progress repository s₀ goals executions writes checked (named ++ [e])
      { found with
        goalsById := found.goalsById.put g''
        repairedGoalExecutionLinks := found.repairedGoalExecutionLinks + 1 }
      (s.1, s.2.put g'') := by
  obtain ⟨hid'', hstatus, hparent, hids, hmetadata⟩ := hkept
  obtain ⟨g₁, hknown₁, hget, hrec⟩ := h.known g hg
  obtain rfl : g₁ = g' := Option.some.inj (hknown₁.symm.trans hknown)
  have hid : g''.id = g.id := hid''.trans (id_of_get hget)
  refine ⟨h.rows, h.links, fun g₂ hg₂ => ?_, fun id hid' => ?_, ?_⟩
  · by_cases heq : g₂.id = g.id
    · obtain rfl := hstored.inj hg₂ hg heq
      refine ⟨g'', ?_, ?_, hstatus.trans hrec.status, hparent.trans hrec.parent, fun id => ?_,
        fun hzero => absurd hzero (Nat.succ_ne_zero _), ?_⟩
      · exact (GoalsById.get_put found.goalsById g'' g₂.id).trans (if_pos hid.symm)
      · rw [get_put, if_pos hid.symm]
      · rw [hids, mem_append, hrec.listed id, mem_singleton, or_assoc]
        refine or_congr_right ⟨?_, ?_⟩
        · rintro (⟨e', he', hid⟩ | rfl)
          · exact ⟨e', mem_append_left _ he', hid⟩
          · exact ⟨e, mem_append_right _ (mem_singleton_self e), rfl, hhint⟩
        · rintro ⟨e', he', hid, hhint'⟩
          rcases List.mem_append.mp he' with he' | he'
          · exact .inl ⟨e', he', hid, hhint'⟩
          · obtain rfl := List.mem_singleton.mp he'
            exact .inr hid.symm
      · rw [hmetadata]
        exact hrec.noted
    · obtain ⟨g₂', hknown₂, hget₂, hrec₂⟩ := h.known g₂ hg₂
      have hne : g₂.id ≠ g''.id := fun hid' => heq (hid'.trans hid)
      refine ⟨g₂', ?_, ?_, hrec₂.status, hrec₂.parent, fun id => ?_,
        fun hzero => absurd hzero (Nat.succ_ne_zero _), hrec₂.noted⟩
      · exact (GoalsById.get_put found.goalsById g'' g₂.id).trans ((if_neg hne).trans hknown₂)
      · rw [get_put, if_neg hne]
        exact hget₂
      · rw [hrec₂.listed id]
        refine or_congr_right ⟨?_, ?_⟩
        · exact fun ⟨e', he', h'⟩ => ⟨e', mem_append_left _ he', h'⟩
        · rintro ⟨e', he', hid', hhint'⟩
          rcases List.mem_append.mp he' with he' | he'
          · exact ⟨e', he', hid', hhint'⟩
          · obtain rfl := List.mem_singleton.mp he'
            exact absurd (Option.some.inj (hhint'.symm.trans hhint)) heq
  · have hne : id ≠ g''.id := fun heq => hid' g hg (hid.symm.trans heq.symm)
    obtain ⟨hknown', hget'⟩ := h.other id hid'
    refine ⟨?_, ?_⟩
    · exact (GoalsById.get_put found.goalsById g'' id).trans ((if_neg hne).trans hknown')
    · rw [get_put, if_neg hne]
      exact hget'
  · constructor
    · exact fun hzero => absurd hzero (Nat.succ_ne_zero _)
    · intro hall
      have hin := hall e (mem_append_right _ (mem_singleton_self e)) g hg hhint
      exact absurd ((hrec.listed e.id).mpr (.inl hin)) hnew

end Progress

/-! ### The run -/

/-- Why a run may raise: something it has to save cannot be saved. -/
inductive Blocked (cfg : GoalConfig) (repository : GoalRepository) (s₀ : GoalStore)
    (goals : List GoalDefinition) (executions : List Execution) : Prop
  | goal (g : GoalDefinition) (hg : g ∈ goals.filter (·.status.isActive))
      (hsaved : missingReferences executions g.executionIds ≠ [] ∨
        referenceWrites executions g.id g.executionIds ≠ [])
      (hfails : (∃ x, cfg.toDict (g.metadata.getJson "goal_startup_reconciliation") = .error x) ∨
        s₀.orphans repository g = true)
  | execution (p : LinkWrite) (hp : p ∈ linkWrites goals executions) (hfails : Unreadable cfg p.1)
  | add (e : Execution) (he : e ∈ executions) (g : GoalDefinition) (hg : g ∈ goals)
      (hhint : executionGoalHint e = some g.id) (hnew : e.id ∉ g.executionIds)
      (hfails : s₀.orphans repository g = true)

section Run

variable {cfg : GoalConfig} {env : Environment} {repository : GoalRepository}
  {memory : ℕ → Except RuntimeException String} {s₀ : GoalStore} {goals : List GoalDefinition}
  {executions : List Execution} {writes : List LinkWrite} {checked : List GoalDefinition}
  {named : List Execution} {found : Findings} {s : GoalState} {now : Time}

/-- Saving a goal fails only if its parent is missing. -/
theorem wp_saveGoal {β : Type} {f : GoalDefinition → GoalRun β} {Q : β → GoalState → Prop}
    {E : RuntimeException → GoalState → Prop}
    (hfails : s.2.orphans repository g = true → ∀ x, E x s)
    (h : s.2.orphans repository g = false →
      (f (s.2.row repository g)).wp (goalHandler env repository memory) Q E (s.1, s.2.put (s.2.row
      repository g))) :
    (onGoals (.saveGoal g) >>= fun saved => Program.ofExcept saved >>= f).wp
      (goalHandler env repository memory) Q E s := by
  refine (wp_performRight_bind (S := RuntimeSig) (T := GoalRepositorySig)
    (H := handler env) (G := fun o s => o.exec repository memory s) (.saveGoal g) _ s).mpr ?_
  show (Program.ofExcept (s.2.save repository g).1 >>= f).wp (goalHandler env repository memory)
    Q E (s.1, (s.2.save repository g).2)
  unfold save
  split
  next horphans => exact wp_of_raise (hfails horphans _)
  next hkept => exact h (by simpa using hkept)

/-- The fields of a goal that its row keeps. -/
theorem GoalStore.row_kept (repository : GoalRepository) (s : GoalStore) (g : GoalDefinition) :
    (s.row repository g).id = g.id ∧ (s.row repository g).status = g.status ∧
      (s.row repository g).parentGoalId = g.parentGoalId ∧
      (s.row repository g).executionIds = g.executionIds ∧
      (s.row repository g).metadata = g.metadata := by
  rcases row_cases repository s g with hrow | ⟨t, hrow⟩
  · rw [hrow]
    exact ⟨rfl, rfl, rfl, rfl, rfl⟩
  · rw [hrow]
    exact ⟨rfl, rfl, rfl, rfl, rfl⟩

theorem wp_firstPass (hdistinct : Distinct executions) (hstored : Stored goals s₀)
    (h : Progress repository s₀ goals executions writes checked [] found s)
    (hg : g ∈ goals.filter (·.status.isActive)) :
    (reconcileGoal cfg executions now found g).wp (goalHandler env repository memory)
      (Progress repository s₀ goals executions
        (writes ++ referenceWrites executions g.id g.executionIds) (checked ++ [g]) [])
      (fun _ _ => Blocked cfg repository s₀ goals executions) s := by
  have hmem : g ∈ goals := mem_of_mem_filter hg
  unfold reconcileGoal
  refine (wp_inl_bind _ _ s).mpr ?_
  refine wp_mono (wp_checkReferences hdistinct g.executionIds h.rows) ?_ ?_
  · rintro ⟨missing, repaired⟩ w ⟨hrows, hmissing, hlength⟩
    obtain rfl : missing = missingReferences executions g.executionIds := hmissing
    replace hlength : repaired.length =
      (referenceWrites executions g.id g.executionIds).length := hlength
    -- what the pass has written so far, before the goal itself is saved
    have hwritten : ∀ found' : Findings, found'.goalsById = found.goalsById →
        found'.repairedGoalExecutionLinks = found.repairedGoalExecutionLinks →
        found'.repairedExecutionGoalLinks = found.repairedExecutionGoalLinks + repaired.length →
        Progress repository s₀ goals executions
          (writes ++ referenceWrites executions g.id g.executionIds) checked [] found' (w, s.2) := by
      intro found' hgoals hadds hlinks
      refine h.write hrows ⟨hgoals, hadds⟩ ?_
      rw [hlinks, hlength, List.filter_eq_self.mpr]
      intro p hp
      rw [((mem_referenceWrites hdistinct).mp hp).2.2.2]
      rfl
    show Program.wp _ _ _ (if _ then _ else _) _
    split
    next hempty =>
      simp only [Bool.and_eq_true, List.isEmpty_iff] at hempty
      refine wp_of_done ((hwritten found rfl rfl ?_).pass hempty.1)
      rw [hempty.2]
      rfl
    next hnonempty =>
      have hsaved : missingReferences executions g.executionIds ≠ [] ∨
          referenceWrites executions g.id g.executionIds ≠ [] := by
        by_contra hnot
        rw [not_or, not_not, not_not] at hnot
        have hnil : repaired = [] := eq_nil_of_length_eq_zero (by rw [hlength, hnot.2]; rfl)
        refine hnonempty ?_
        rw [hnot.1, hnil]
        rfl
      simp only [recordGoalReconciliation, Program.bind_assoc]
      rcases hdict : cfg.toDict (g.metadata.getJson "goal_startup_reconciliation") with x | d
      · exact wp_of_raise (.goal g hg hsaved (.inl ⟨x, hdict⟩))
      have horphans_eq : ∀ g' : GoalDefinition, g'.id = g.id → g'.parentGoalId = g.parentGoalId →
          s.2.orphans repository g' = s₀.orphans repository g :=
        fun g' => h.orphans_eq hstored
      refine wp_saveGoal (fun horphans _ => ?_) fun hkept => ?_
      · exact .goal g hg hsaved (.inr ((horphans_eq _ rfl rfl).symm.trans horphans))
      · refine wp_of_done (Progress.note (hwritten { found with
          repairedExecutionGoalLinks := found.repairedExecutionGoalLinks + repaired.length
          orphanedGoalExecutionReferences := found.orphanedGoalExecutionReferences +
            (missingReferences executions g.executionIds).length
          findings := _ } rfl rfl rfl) hstored hmem ?_ ?_)
        · obtain ⟨hid, hstatus, hparent, hids, -⟩ := row_kept repository s.2 _
          exact ⟨hid, hstatus, hparent, hids⟩
        · refine ⟨(horphans_eq _ rfl rfl).symm.trans hkept, ?_⟩
          rw [(row_kept repository s.2 _).2.2.2.2]
          exact ⟨_, Dict.getJson_set_self _ _ _⟩
  · rintro x w ⟨p, hp, hfails⟩
    refine .execution p (mem_append_left _ ?_) hfails
    exact List.mem_flatMap.mpr ⟨g, hg, hp⟩

variable {e : Execution}

theorem wp_addReference (hstored : Stored goals s₀)
    (h : Progress repository s₀ goals executions writes checked named found s) (he : e ∈ executions)
    (hg : g ∈ goals) (hhint : executionGoalHint e = some g.id)
    (hknown : found.goalsById.get g.id = some g') :
    (addReference e g' now found).wp (goalHandler env repository memory)
      (fun found' s' => Progress repository s₀ goals executions writes checked (named ++ [e])
        found' s')
      (fun _ _ => Blocked cfg repository s₀ goals executions) s := by
  obtain ⟨g₁, hknown₁, hget, hrec⟩ := h.known g hg
  obtain rfl : g₁ = g' := Option.some.inj (hknown₁.symm.trans hknown)
  unfold addReference
  split
  next hin =>
    refine wp_of_done (h.skip fun g₂ hg₂ hhint₂ g₂' hknown₂ => ?_)
    obtain rfl := hstored.inj hg₂ hg (Option.some.inj (hhint₂.symm.trans hhint))
    obtain rfl := Option.some.inj (hknown₂.symm.trans hknown)
    exact hin
  next hnew =>
    have horphans_eq : ∀ g' : GoalDefinition, g'.id = g₁.id → g'.parentGoalId = g₁.parentGoalId →
        s.2.orphans repository g' = s₀.orphans repository g := fun g' hid hparent =>
      h.orphans_eq hstored (hid.trans (id_of_get hget)) (hparent.trans hrec.parent)
    refine wp_saveGoal (fun horphans _ => ?_) fun hkept => ?_
    · refine .add e he g hg hhint (fun hin => hnew ?_)
        ((horphans_eq _ rfl rfl).symm.trans horphans)
      exact (hrec.listed e.id).mpr (.inl hin)
    · exact wp_of_done (h.add hstored hg hhint hknown hnew (row_kept repository s.2 _))

/-- The second pass, for one execution. -/
theorem wp_secondPass (hdistinct : Distinct executions) (hstored : Stored goals s₀)
    (h : Progress repository s₀ goals executions writes checked named found s)
    (he : e ∈ executions) :
    (GoalStartupReconciler.reconcileExecution cfg now found e).wp (goalHandler env repository memory)
      (Progress repository s₀ goals executions (writes ++ hintWrites goals e) checked
        (named ++ [e]))
      (fun _ _ => Blocked cfg repository s₀ goals executions) s := by
  have hblocked : ∀ p ∈ hintWrites goals e, Unreadable cfg p.1 →
      Blocked cfg repository s₀ goals executions := fun p hp hfails =>
    .execution p (mem_append_right _ (List.mem_flatMap.mpr ⟨e, he, hp⟩)) hfails
  unfold GoalStartupReconciler.reconcileExecution
  rcases hhint : executionGoalHint e with - | goalId
  · have hnone : hintWrites goals e = [] := by simp only [hintWrites, hhint]
    rw [hnone, append_nil]
    refine wp_of_done (h.skip fun g _ hg => ?_)
    rw [hhint] at hg
    cases hg
  rcases hfind : goals.find? (·.id = goalId) with - | g
  · have hunknown : ∀ g ∈ goals, g.id ≠ goalId := by
      simpa using List.find?_eq_none.mp hfind
    have hwrites : hintWrites goals e = [(e, none)] := by simp only [hintWrites, hhint, hfind]
    simp only [(h.other goalId hunknown).1]
    rw [hwrites] at hblocked ⊢
    refine (wp_inl_bind _ _ s).mpr ?_
    refine wp_mono (wp_flagOrphanedExecutionGoalReference h.rows hdistinct he)
      (fun _ w hrows => ?_) fun _ _ hfails => hblocked _ (mem_singleton_self _) hfails
    refine (wp_inl_bind _ _ (w, s.2)).mpr ?_
    refine wp_mono (wp_recordReconciliationEvent hrows he) (fun _ w hrows => ?_)
      fun _ _ hfails => hfails
    refine wp_of_done (Progress.skip (h.write hrows ?_ ?_) fun g hg hg' => ?_)
    · exact ⟨rfl, rfl⟩
    · rfl
    · exact absurd (Option.some.inj (hg'.symm.trans hhint)) (hunknown g hg)
  · have hg : g ∈ goals := mem_of_find?_eq_some hfind
    obtain rfl : g.id = goalId := by simpa using List.find?_some hfind
    obtain ⟨g', hknown, hget, -⟩ := h.known g hg
    have hid : g'.id = g.id := id_of_get hget
    simp only [hknown]
    refine wp_then (wp_addReference hstored h he hg hhint hknown)
      (fun found' s' h' => ?_) fun _ _ hfails => hfails
    rw [hid]
    by_cases hlinked : e.goalId ≠ some g.id
    · have hwrites : hintWrites goals e = [(e, some g.id)] := by
        simp only [hintWrites, hhint, hfind, if_pos hlinked]
      rw [if_pos hlinked]
      rw [hwrites] at hblocked ⊢
      refine (wp_inl_bind _ _ s').mpr ?_
      refine wp_mono (wp_saveExecutionGoalLink h'.rows hdistinct he)
        (fun _ w hrows => ?_) fun _ _ hfails => hblocked _ (mem_singleton_self _) hfails
      refine (wp_inl_bind _ _ (w, s'.2)).mpr ?_
      refine wp_mono (wp_recordReconciliationEvent hrows he) (fun _ w hrows => ?_)
        fun _ _ hfails => hfails
      exact wp_of_done (h'.write hrows ⟨rfl, rfl⟩ rfl)
    · have hwrites : hintWrites goals e = [] := by
        simp only [hintWrites, hhint, hfind, if_neg hlinked]
      rw [if_neg hlinked, hwrites, append_nil]
      exact wp_of_done h'

/-- The goals that `list` answers are those that are not hidden. -/
theorem GoalStore.mem_list :
    g ∈ s₀.list repository ↔ s₀.goals.get g.id = some g ∧ isHidden repository g = false := by
  have hget : g ∈ s₀.goals.items ↔ s₀.goals.get g.id = some g :=
    ⟨fun h => Catalog.get_of_mem h, fun h => Catalog.mem_of_get h⟩
  cases repository with
  | sql =>
    rw [list, (perm_insertionSort _ _).mem_iff, mem_filter, hget]
    simp
  | inMemory =>
    rw [list, hget]
    simp [isHidden]

theorem stored_list : Stored (s₀.list repository) s₀ := fun _ hg => (mem_list.mp hg).1

/-- The executions that `list_executions` answers. -/
def listedExecutions (w : World) : List Execution :=
  w.db.executions.selectOrdered (fun _ => true) Execution.newestFirst

theorem mem_listedExecutions {w : World} :
    e ∈ listedExecutions w ↔ w.db.executions.get e.id = some e := by
  simp [listedExecutions, Table.mem_selectOrdered]

theorem distinct_listedExecutions (w : World) : Distinct (listedExecutions w) := by
  intro e he e' he' hid
  rw [mem_listedExecutions] at he he'
  rw [hid, he'] at he
  exact (Option.some.inj he).symm

theorem rows_listedExecutions (w : World) : Rows (listedExecutions w) [] w := by
  refine ⟨fun e he => ⟨e, mem_listedExecutions.mp he, .untouched⟩, fun id row hget => ?_⟩
  have hid : row.id = id := Table.key_of_get hget
  subst hid
  exact ⟨row, mem_listedExecutions.mpr hget, rfl⟩

/-- What is left after a run that started in `s`. -/
structure Finished (repository : GoalRepository) (s : GoalState)
    (report : GoalStartupReconciliationReport) (s' : GoalState) : Prop where
  progress : ∃ found : Findings,
    Progress repository s.2 (s.2.list repository) (listedExecutions s.1)
      (linkWrites (s.2.list repository) (listedExecutions s.1))
      ((s.2.list repository).filter (·.status.isActive)) (listedExecutions s.1) found s' ∧
    report.repairedGoalExecutionLinks = found.repairedGoalExecutionLinks ∧
    report.repairedExecutionGoalLinks = found.repairedExecutionGoalLinks

variable (cfg env repository memory) in
/-- **The run** performs its writes, unless it is blocked. -/
theorem wp_goalReconcileOnce (s : GoalState) :
    (GoalStartupReconciler.reconcileOnce cfg).wp (goalHandler env repository memory)
      (Finished repository s)
      (fun _ _ => Blocked cfg repository s.2 (s.2.list repository) (listedExecutions s.1)) s := by
  obtain ⟨w, s₀⟩ := s
  have hstored : Stored (s₀.list repository) s₀ := stored_list
  have hdistinct := distinct_listedExecutions w
  unfold GoalStartupReconciler.reconcileOnce
  refine (wp_inl_bind _ _ _).mpr ?_
  refine wp_of_perform (S := RuntimeSig) (o := .utcNow) ?_
  refine (wp_performRight_bind (S := RuntimeSig) (T := GoalRepositorySig)
    (H := handler env) (G := fun o s => o.exec repository memory s) .listGoals _ _).mpr ?_
  refine (wp_inl_bind _ _ _).mpr ?_
  refine wp_of_perform (S := RuntimeSig) (o := .db (.listExecutions fun _ => true)) ?_
  obtain ⟨hmem, hother⟩ := get_foldl_put hstored .empty
  have hstart : Progress repository s₀ (s₀.list repository) (listedExecutions w) [] [] []
      { goalsById := (s₀.list repository).foldl Catalog.put .empty }
      ({ w with clockReads := w.clockReads + 1 }, s₀) := by
    refine ⟨(rows_listedExecutions w).congr rfl, rfl, fun g hg => ?_, fun id hid => ?_, by simp⟩
    · exact ⟨g, hmem g hg, hstored g hg, rfl, rfl, by simp, fun _ => rfl,
        fun hin => absurd hin not_mem_nil⟩
    · exact ⟨hother id hid, rfl⟩
  -- both lists are as they were read, and the rest goes over them
  show Program.wp _ _ _ (((s₀.list repository).filter (·.status.isActive)).foldlM
    (reconcileGoal cfg (listedExecutions w) (env.clock w.clockReads)) _ >>= fun found =>
      (listedExecutions w).foldlM
        (GoalStartupReconciler.reconcileExecution cfg (env.clock w.clockReads)) found >>= _) _
  refine wp_seq (wp_foldlM (I := fun checked found s =>
    Progress repository s₀ (s₀.list repository) (listedExecutions w)
      (goalWrites (listedExecutions w) checked) checked [] found s) ?_ hstart) ?_
  · intro checked g rest found s hactive h
    have hg : g ∈ (s₀.list repository).filter (·.status.isActive) := by
      rw [hactive]
      exact mem_append_right _ mem_cons_self
    have hmore : goalWrites (listedExecutions w) (checked ++ [g]) =
        goalWrites (listedExecutions w) checked ++
          referenceWrites (listedExecutions w) g.id g.executionIds := by
      rw [goalWrites, flatMap_append, flatMap_singleton, goalWrites]
    rw [hmore]
    exact wp_firstPass hdistinct hstored h hg
  · intro found s hchecked
    refine wp_seq (wp_foldlM (I := fun named found s =>
      Progress repository s₀ (s₀.list repository) (listedExecutions w)
        (goalWrites (listedExecutions w) ((s₀.list repository).filter (·.status.isActive)) ++
          named.flatMap (hintWrites (s₀.list repository)))
        ((s₀.list repository).filter (·.status.isActive)) named found s) ?_ ?_) ?_
    · intro named e rest found s hlisted h
      have he : e ∈ listedExecutions w := by
        rw [hlisted]
        exact mem_append_right _ mem_cons_self
      rw [flatMap_append, flatMap_singleton, ← append_assoc]
      exact wp_secondPass hdistinct hstored h he
    · rw [flatMap_nil, append_nil]
      exact hchecked
    · exact fun found s h => wp_of_done ⟨found, h, rfl, rfl⟩

end Run

end OpenAgency
