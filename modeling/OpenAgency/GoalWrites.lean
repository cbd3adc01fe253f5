/-
GoalWrites.lean

What a call of the goal service writes when nothing else happens meanwhile: a goal it
creates, or one patch it merges into its goal, and after that notes in the metadata
(`effect_code`).  `GoalCall.Patches` lists the patches of each call.
-/
import OpenAgency.Goals
import OpenAgency.Lib.History

namespace OpenAgency

open Relational Interaction Program GoalService GoalStore

/-! ### The goals of a store -/

section Store

variable {repository : GoalRepository} {s : GoalStore}

theorem GoalStore.get_eq_some {id : String} {goal : GoalDefinition}
    (h : s.get repository id = some goal) : s.goals.get id = some goal :=
  (Option.filter_eq_some_iff.mp h).1

theorem GoalStore.id_of_get {id : String} {goal : GoalDefinition}
    (h : s.goals.get id = some goal) : goal.id = id :=
  @Catalog.key_of_get String GoalDefinition _ (fun g : GoalDefinition => g.id) s.goals id goal h

theorem GoalStore.row_cases (repository : GoalRepository) (s : GoalStore) (g : GoalDefinition) :
    s.row repository g = g ∨ ∃ t, s.row repository g = { g with createdAt := t } := by
  unfold row
  split
  · exact .inr ⟨_, rfl⟩
  · exact .inl rfl

theorem GoalStore.get_put (g : GoalDefinition) (id : String) :
    (s.put g).goals.get id = if id = g.id then some g else s.goals.get id :=
  Catalog.get_put s.goals g id

@[simp] theorem GoalStore.id_row (g : GoalDefinition) : (s.row repository g).id = g.id := by
  rcases row_cases repository s g with h | ⟨t, h⟩ <;> rw [h]

end Store

/-! ### The patches of a call -/

/-- The patches a call may merge into the goal `g` it finds. -/
def GoalCall.Patches (cfg : GoalConfig) : GoalCall → GoalDefinition → GoalPatch → Prop
  | createGoal _, _, _ | recordSupervisorDecision _ _ _, _, _
  | storeGoalSummaryMemory _ _ _, _, _ => False
  | updateGoal _ patch, _, p => p = patch
  | attachEvidence _ evidence, g, p =>
    evidence ≠ [] ∧ p = { evidence := some (some (g.evidence ++ evidence)) }
  | evaluateGoal _ evidence persist, g, p => persist = true ∧ ∃ checkedAt e,
      GoalEvaluator.evaluate cfg g.toGoalFields (g.evidence ++ evidence) checkedAt = .ok e ∧
      p = { evaluation := some (some (e.dump cfg)) }
  | planGoal _ _ _ _, g, p | replanGoal _ _ _ _, g, p => g.status.isTerminal = false ∧
      ∃ status metadata, status.isTerminal = false ∧
        p = { status := some (some status), metadata := some (some metadata) }
  | pauseGoal _, g, p => g.status.isTerminal = false ∧ p = { status := some (some .paused) }
  | resumeGoal _, g, p => g.status.isTerminal = false ∧ p = { status := some (some .active) }
  | cancelGoal _ _, g, p => g.status.isTerminal = false ∧ ∃ now metadata, p = {
      status := some (some .cancelled)
      completedAt := some (some now)
      metadata := some (some metadata) }
  | completeGoal _ evidence evaluation, g, p => g.status.isTerminal = false ∧
      ∃ checkedAt result, completionEvaluation cfg g.toGoalFields
        (g.evidence ++ evidence) evaluation checkedAt = .ok result ∧
      ((result.sufficient = true ∧ ∃ now, p = {
          status := some (some .completed)
          completedAt := some (some now)
          evidence := some (some (g.evidence ++ evidence))
          evaluation := some (some (result.dump cfg)) }) ∨
        p = {
          evidence := some (some (g.evidence ++ evidence))
          evaluation := some (some (result.dump cfg)) })
  | linkExecution _ _, _, p => ∃ ids, p = { executionIds := some (some ids) }
  | applyOperatorAction _ _ _, g, p =>
    g.status.isTerminal = false ∧
      (p = { status := some (some .paused) } ∨ p = { status := some (some .active) } ∨
        (∃ now metadata, p = {
          status := some (some .cancelled)
          completedAt := some (some now)
          metadata := some (some metadata) }) ∨
        (∃ constraints, p = { constraints := some (some constraints) }) ∨
        (∃ criteria, p = { successCriteria := some (some criteria) }) ∨
        ∃ owner, p = { ownerActor := some (some owner) })

/-- The goal a call is about. -/
def GoalCall.goalId : GoalCall → Option String
  | createGoal _ => none
  | updateGoal id _ | attachEvidence id _ | evaluateGoal id _ _ | planGoal id _ _ _
  | replanGoal id _ _ _ | recordSupervisorDecision id _ _ | storeGoalSummaryMemory id _ _
  | pauseGoal id | resumeGoal id | cancelGoal id _ | completeGoal id _ _ | linkExecution id _
  | applyOperatorAction id _ _ => some id

/-- One write of a call: the goal it creates, under a given or the drawn identifier, or the
merge of one of its patches. -/
inductive GoalWrite (cfg : GoalConfig) (repository : GoalRepository) (drawn : Uuid)
    (call : GoalCall) (s : GoalStore) : GoalStore → Prop
  | create (payload : GoalPayload) (hcall : call = .createGoal payload) (f : GoalFields)
      (g : GoalDefinition)
      (hdefaults : ∃ createdAt updatedAt, f = {
        id := payload.id.getD (toString drawn), objective := ""
        createdAt := createdAt, updatedAt := updatedAt })
      (hyields : payload.toGoalPatch.Yields f g) (s' : GoalStore)
      (hcreate : s.create repository g = (.ok g, s')) : GoalWrite cfg repository drawn call s s'
  | merge (id : String) (goal g : GoalDefinition) (p : GoalPatch)
      (hget : s.get repository id = some goal) (hid : call.goalId = some id)
      (hpatch : call.Patches cfg goal p) (hyields : p.Yields goal.toGoalFields g)
      (hkept : s.orphans repository g = false) :
      GoalWrite cfg repository drawn call s (s.put (s.row repository g))

/-- A note: something written into the metadata of a goal, or a summary of one. -/
inductive GoalNote (repository : GoalRepository) (s : GoalStore) : GoalStore → Prop
  | metadata (id : String) (goal g : GoalDefinition) (metadata : Dict Json)
      (hget : s.get repository id = some goal)
      (hyields : GoalPatch.Yields { metadata := some (some metadata) } goal.toGoalFields g) :
      GoalNote repository s (s.put (s.row repository g))
  | summary : GoalNote repository s { s with summaries := s.summaries + 1 }

/-- What a call does: nothing or one write, and then notes. -/
def GoalEffect (cfg : GoalConfig) (repository : GoalRepository) (drawn : Uuid) (call : GoalCall)
    (s s' : GoalStore) : Prop :=
  ∃ m, (m = s ∨ GoalWrite cfg repository drawn call s m) ∧
    Relation.ReflTransGen (GoalNote repository) m s'

/-! ### Rules for the steps of a call -/

section Rules

variable {env : Environment} {repository : GoalRepository}
  {memory : ℕ → Except RuntimeException String} {β : Type} {P : GoalStore → Prop} {s : GoalState}

/-- Why a patch is not merged into the goal. -/
inductive UpdateFails (repository : GoalRepository) (s : GoalStore) (id : String)
    (p : GoalPatch) : Prop
  | missing (hget : s.get repository id = none)
  | merge (goal : GoalDefinition) (now : Time) (e : RuntimeException)
      (hget : s.get repository id = some goal)
      (hmerge : p.merge goal.toGoalFields now = .error e)
  | invalid (goal : GoalDefinition) (now : Time) (merged : GoalFields) (settledAt : Time)
      (e : RuntimeException) (hget : s.get repository id = some goal)
      (hmerge : p.merge goal.toGoalFields now = .ok merged)
      (hvalid : GoalDefinition.validate merged settledAt = .error e)
  | orphan (goal g : GoalDefinition) (hget : s.get repository id = some goal)
      (hyields : p.Yields goal.toGoalFields g) (horphan : s.orphans repository g = true)

section Wp

variable {Q : β → GoalState → Prop} {E : RuntimeException → GoalState → Prop}

/-- A coroutine of the runtime leaves the goals alone. -/
theorem wp_inRuntime {α : Type} (p : Coroutine α) {f : α → GoalRun β} (hE : ∀ e w, E e (w, s.2))
    (h : ∀ a w, (f a).wp (goalHandler env repository memory) Q E (w, s.2)) :
    (inRuntime p >>= f).wp (goalHandler env repository memory) Q E s := by
  refine (wp_inl_bind p f s).mpr ?_
  exact wp_of_all h hE s.1

/-- The clock does not fail. -/
theorem wp_goalClock {f : Time → GoalRun β}
    (h : ∀ now w, (f now).wp (goalHandler env repository memory) Q E (w, s.2)) :
    (inRuntime utcNow >>= f).wp (goalHandler env repository memory) Q E s := by
  refine (wp_inl_bind utcNow f s).mpr ?_
  exact wp_of_perform (S := RuntimeSig) (o := .utcNow) (h _ _)

theorem wp_goalExcept {α : Type} {r : Except RuntimeException α} {f : α → GoalRun β}
    (hE : ∀ e, r = .error e → E e s)
    (h : ∀ a, r = .ok a → (f a).wp (goalHandler env repository memory) Q E s) :
    (ofExcept r >>= f).wp (goalHandler env repository memory) Q E s := by
  rcases r with e | a
  · exact wp_of_raise (hE e rfl)
  · exact h a rfl

theorem wp_onGoals (o : GoalOp) {f : o.Ret → GoalRun β}
    (h : (f (o.exec repository memory s.2).1).wp (goalHandler env repository memory) Q E
      (s.1, (o.exec repository memory s.2).2)) :
    (onGoals o >>= f).wp (goalHandler env repository memory) Q E s :=
  (wp_performRight_bind (S := RuntimeSig) (T := GoalRepositorySig) (H := handler env)
    (G := fun o s => o.exec repository memory s) o f s).mpr h

theorem wp_getGoal {id : String} {f : GoalDefinition → GoalRun β}
    (hE : s.2.get repository id = none → ∀ e, E e s)
    (h : ∀ goal, s.2.get repository id = some goal →
      (f goal).wp (goalHandler env repository memory) Q E s) :
    (getGoal id >>= f).wp (goalHandler env repository memory) Q E s := by
  rw [getGoal, bind_assoc]
  refine wp_onGoals (.getGoal id) ?_
  have hexec : (GoalOp.getGoal id).exec repository memory s.2 = (s.2.get repository id, s.2) := rfl
  rw [hexec]
  rcases hget : s.2.get repository id with - | goal
  · exact wp_of_raise (hE hget _)
  · exact h goal hget

theorem wp_ensureNotTerminal {goal : GoalDefinition} {f : Unit → GoalRun β}
    (hE : goal.status.isTerminal = true → ∀ e, E e s)
    (h : goal.status.isTerminal = false → (f ()).wp (goalHandler env repository memory) Q E s) :
    (ensureNotTerminal goal >>= f).wp (goalHandler env repository memory) Q E s := by
  unfold ensureNotTerminal
  split
  next hterminal => exact wp_of_raise (hE hterminal _)
  next hnot => exact h (by simpa using hnot)

/-- Merging a patch writes what it yields of the stored goal, or nothing. -/
theorem wp_updateGoal {id : String} {p : GoalPatch} {f : GoalDefinition → GoalRun β}
    (hE : UpdateFails repository s.2 id p → ∀ e w, E e (w, s.2))
    (h : ∀ goal g w, s.2.get repository id = some goal → p.Yields goal.toGoalFields g →
      s.2.orphans repository g = false →
        (f (s.2.row repository g)).wp (goalHandler env repository memory) Q E
          (w, s.2.put (s.2.row repository g))) :
    (updateGoal id p >>= f).wp (goalHandler env repository memory) Q E s := by
  simp only [updateGoal, bind_assoc]
  refine wp_getGoal (fun hget e => hE (.missing hget) e s.1) fun goal hget => ?_
  refine wp_goalClock fun now w => ?_
  refine wp_goalExcept (fun e hmerge => hE (.merge goal now e hget hmerge) e w)
    fun merged hmerged => ?_
  refine wp_goalClock fun settledAt w => ?_
  refine wp_goalExcept (fun e hvalid =>
    hE (.invalid goal now merged settledAt e hget hmerged hvalid) e w) fun g hvalid => ?_
  refine wp_onGoals (.saveGoal g) ?_
  show (ofExcept (s.2.save repository g).1 >>= f).wp (goalHandler env repository memory) Q E
    (w, (s.2.save repository g).2)
  have hyields : p.Yields goal.toGoalFields g := ⟨merged, now, settledAt, hmerged, hvalid⟩
  unfold save
  split
  next horphan => exact wp_of_raise (hE (.orphan goal g hget hyields horphan) _ w)
  next hkept => exact h goal g w hget hyields (by simpa using hkept)

end Wp

/-- Whichever way the program stops, `P` holds of the goals. -/
def Ends (env : Environment) (repository : GoalRepository)
    (memory : ℕ → Except RuntimeException String) (P : GoalStore → Prop) (p : GoalRun β)
    (s : GoalState) : Prop :=
  p.wp (goalHandler env repository memory) (fun _ s' => P s'.2) (fun _ s' => P s'.2) s

theorem ends_done (hP : P s.2) (b : β) :
    Ends env repository memory P (done b : GoalRun β) s := wp_of_done hP

theorem ends_raise (hP : P s.2) (cls : ExceptionClass) (message : String) :
    Ends env repository memory P (raiseGoal cls message : GoalRun β) s := wp_of_raise hP

theorem ends_runtime {α : Type} (p : Coroutine α) {f : α → GoalRun β} (hP : P s.2)
    (h : ∀ a w, Ends env repository memory P (f a) (w, s.2)) :
    Ends env repository memory P (inRuntime p >>= f) s := wp_inRuntime p (fun _ _ => hP) h

theorem ends_ofExcept {α : Type} {r : Except RuntimeException α} {f : α → GoalRun β} (hP : P s.2)
    (h : ∀ a, r = .ok a → Ends env repository memory P (f a) s) :
    Ends env repository memory P (ofExcept r >>= f) s := wp_goalExcept (fun _ _ => hP) h

theorem ends_onGoals (o : GoalOp) {f : o.Ret → GoalRun β}
    (h : Ends env repository memory P (f (o.exec repository memory s.2).1)
      (s.1, (o.exec repository memory s.2).2)) :
    Ends env repository memory P (onGoals o >>= f) s := wp_onGoals o h

theorem ends_getGoal {id : String} {f : GoalDefinition → GoalRun β} (hP : P s.2)
    (h : ∀ goal, s.2.get repository id = some goal → Ends env repository memory P (f goal) s) :
    Ends env repository memory P (getGoal id >>= f) s := wp_getGoal (fun _ _ => hP) h

theorem ends_ensureNotTerminal {goal : GoalDefinition} {f : Unit → GoalRun β} (hP : P s.2)
    (h : goal.status.isTerminal = false → Ends env repository memory P (f ()) s) :
    Ends env repository memory P (ensureNotTerminal goal >>= f) s :=
  wp_ensureNotTerminal (fun _ _ => hP) h

/-- Merging a patch writes what it yields of the stored goal, or nothing. -/
theorem ends_updateGoal {id : String} {p : GoalPatch} {f : GoalDefinition → GoalRun β} (hP : P s.2)
    (h : ∀ goal g w, s.2.get repository id = some goal → p.Yields goal.toGoalFields g →
      s.2.orphans repository g = false → Ends env repository memory P (f (s.2.row repository g))
        (w, s.2.put (s.2.row repository g))) :
    Ends env repository memory P (updateGoal id p >>= f) s :=
  wp_updateGoal (fun _ _ _ => hP) h

end Rules

/-! ### Every call -/

section Calls

variable {cfg : GoalConfig} {env : Environment} {repository : GoalRepository}
  {memory : ℕ → Except RuntimeException String} {drawn : Uuid} {call : GoalCall} {β : Type}
  {s₀ s' : GoalStore} {w : World}

theorem GoalEffect.refl : GoalEffect cfg repository drawn call s₀ s₀ := ⟨s₀, .inl rfl, .refl⟩

theorem GoalEffect.write (h : GoalWrite cfg repository drawn call s₀ s') :
    GoalEffect cfg repository drawn call s₀ s' := ⟨s', .inr h, .refl⟩

theorem GoalEffect.note {s₁ : GoalStore} (h : GoalEffect cfg repository drawn call s₀ s₁)
    (hnote : GoalNote repository s₁ s') : GoalEffect cfg repository drawn call s₀ s' := by
  obtain ⟨m, hwrite, hnotes⟩ := h
  exact ⟨m, hwrite, hnotes.tail hnote⟩

variable (env repository memory) in
/-- Whichever way the program stops, the goals are as the call may leave them. -/
abbrev EndsCall (cfg : GoalConfig) (drawn : Uuid) (call : GoalCall) (s₀ : GoalStore) {β : Type}
    (p : GoalRun β) (s : GoalState) : Prop :=
  Ends env repository memory (GoalEffect cfg repository drawn call s₀) p s

theorem forall_of_eq_some {α : Type} {P : α → Prop} {o : Option α} {a : α} (ho : o = some a)
    (h : P a) : ∀ b, o = some b → P b := by
  rintro b hb
  obtain rfl := Option.some.inj (ho.symm.trans hb)
  exact h

/-- The patch of a call is merged, and the rest of the call goes on from there. -/
theorem ends_merge {id : String} {p : GoalPatch} {f : GoalDefinition → GoalRun β}
    (hid : call.goalId = some id)
    (hpatch : ∀ goal, s₀.get repository id = some goal → call.Patches cfg goal p)
    (h : ∀ g w s', GoalEffect cfg repository drawn call s₀ s' →
      EndsCall env repository memory cfg drawn call s₀ (f g) (w, s')) :
    EndsCall env repository memory cfg drawn call s₀ (updateGoal id p >>= f) (w, s₀) := by
  refine ends_updateGoal .refl fun goal g w hget hyields hkept => ?_
  exact h _ w _ (.write (.merge id goal g p hget hid (hpatch goal hget) hyields hkept))

/-- The patch is the last thing a call does. -/
theorem ends_merge_last {id : String} {p : GoalPatch} {b : β} (hid : call.goalId = some id)
    (hpatch : ∀ goal, s₀.get repository id = some goal → call.Patches cfg goal p) :
    EndsCall env repository memory cfg drawn call s₀
      (updateGoal id p >>= fun _ => done b) (w, s₀) :=
  ends_merge hid hpatch fun _ _ _ h => ends_done h b

/-- A note is the last thing a call does. -/
theorem ends_note_last {id : String} {metadata : Dict Json} {b : β}
    (heffect : GoalEffect cfg repository drawn call s₀ s') :
    EndsCall env repository memory cfg drawn call s₀
      (updateGoal id { metadata := some (some metadata) } >>= fun _ =>
        done b) (w, s') := by
  refine ends_updateGoal heffect fun goal g w hget hyields _ => ?_
  exact ends_done (heffect.note (.metadata id goal g metadata hget hyields)) b

/-- A patch that depends on the goal as it was read, by an operation that refuses terminal
goals. -/
theorem ends_ensured_merge {id : String} {p : GoalDefinition → GoalPatch}
    {f : GoalDefinition → GoalRun β} (hid : call.goalId = some id)
    (hpatch : ∀ goal : GoalDefinition, goal.status.isTerminal = false →
      call.Patches cfg goal (p goal))
    (h : ∀ g w s', GoalEffect cfg repository drawn call s₀ s' →
      EndsCall env repository memory cfg drawn call s₀ (f g) (w, s')) :
    EndsCall env repository memory cfg drawn call s₀
      ((do
        let goal ← getGoal id
        ensureNotTerminal goal
        updateGoal id (p goal)) >>= f) (w, s₀) := by
  rw [bind_assoc]
  refine ends_getGoal .refl fun goal hget => ?_
  rw [bind_assoc]
  refine ends_ensureNotTerminal .refl fun hterminal => ?_
  exact ends_merge hid (forall_of_eq_some hget (hpatch goal hterminal)) h

theorem ends_createGoal (payload : GoalPayload) (w : World) (s₀ : GoalStore) :
    EndsCall env repository memory cfg (env.uuid w.uuidsDrawn) (.createGoal payload) s₀
      (createGoal payload >>= fun _ => done ()) (w, s₀) := by
  simp only [createGoal, bind_assoc]
  refine (wp_inl_bind uuid4 _ (w, s₀)).mpr ?_
  refine wp_of_perform (S := RuntimeSig) (o := .uuid4) ?_
  refine ends_runtime _ .refl fun createdAt w => ?_
  refine ends_runtime _ .refl fun updatedAt w => ?_
  refine ends_ofExcept .refl fun fields hfields => ?_
  refine ends_runtime _ .refl fun settledAt w => ?_
  refine ends_ofExcept .refl fun g hvalid => ?_
  refine ends_onGoals (.createGoal g) ?_
  show EndsCall env repository memory cfg _ _ s₀
    (ofExcept (s₀.create repository g).1 >>= fun _ => done ())
    (w, (s₀.create repository g).2)
  have hcases : (∃ e, s₀.create repository g = (.error e, s₀)) ∨
      s₀.create repository g = (.ok g, s₀.put g) := by
    unfold create
    split
    · exact .inl ⟨_, rfl⟩
    · split
      · exact .inl ⟨_, rfl⟩
      · exact .inr rfl
  rcases hcases with ⟨e, he⟩ | hok
  · rw [he]
    exact wp_of_raise .refl
  · rw [hok]
    refine ends_done (.write ?_) ()
    exact .create payload rfl _ g ⟨_, _, rfl⟩ ⟨fields, _, settledAt, hfields, hvalid⟩ _ hok

theorem ends_attachEvidence (id : String) (evidence : List (Dict Json)) :
    EndsCall env repository memory cfg drawn (.attachEvidence id evidence) s₀
      (attachEvidence id evidence >>= fun _ => done ()) (w, s₀) := by
  unfold attachEvidence
  split
  · exact ends_raise .refl _ _
  next hne =>
    rw [bind_assoc]
    refine ends_getGoal .refl fun goal hget => ?_
    refine ends_merge_last rfl (forall_of_eq_some hget ⟨fun h => hne ?_, rfl⟩)
    rw [h]
    rfl

theorem ends_evaluateGoal (id : String) (evidence : List (Dict Json)) (persist : Bool) :
    EndsCall env repository memory cfg drawn (.evaluateGoal id evidence persist) s₀
      (evaluateGoal cfg id evidence persist >>= fun _ => done ()) (w, s₀) := by
  simp only [evaluateGoal, bind_assoc]
  refine ends_getGoal .refl fun goal hget => ?_
  refine ends_runtime _ .refl fun checkedAt w => ?_
  refine ends_ofExcept .refl fun e he => ?_
  rcases persist with - | -
  · exact ends_done .refl ()
  · simp only [if_true, bind_assoc]
    exact ends_merge_last rfl (forall_of_eq_some hget ⟨rfl, checkedAt, e, he, rfl⟩)

theorem ends_planGoal (id : String) (plan : Option (Dict Json)) (reason : String)
    (actor : Option String) :
    EndsCall env repository memory cfg drawn (.planGoal id plan reason actor) s₀
      (planGoal cfg id plan reason actor >>= fun _ => done ()) (w, s₀) := by
  simp only [planGoal, bind_assoc]
  refine ends_getGoal .refl fun goal hget => ?_
  refine ends_ensureNotTerminal .refl fun hterminal => ?_
  split
  · exact ends_raise .refl _ _
  · simp only [bind_assoc]
    refine ends_runtime _ .refl fun plannedAt w => ?_
    refine ends_runtime _ .refl fun now w => ?_
    refine ends_ofExcept .refl fun metadata _ => ?_
    refine ends_merge_last rfl (forall_of_eq_some hget ⟨hterminal, _, metadata, ?_, rfl⟩)
    split
    · rfl
    · exact hterminal

theorem ends_replanGoal (id : String) (plan : Option (Dict Json)) (reason : String)
    (actor : Option String) :
    EndsCall env repository memory cfg drawn (.replanGoal id plan reason actor) s₀
      (replanGoal cfg id plan reason actor >>= fun _ => done ()) (w, s₀) := by
  unfold replanGoal
  split
  · exact ends_raise .refl _ _
  · simp only [bind_assoc]
    refine ends_getGoal .refl fun goal hget => ?_
    refine ends_ensureNotTerminal .refl fun hterminal => ?_
    refine ends_ofExcept .refl fun version _ => ?_
    refine ends_runtime _ .refl fun plannedAt w => ?_
    refine ends_runtime _ .refl fun now w => ?_
    refine ends_ofExcept .refl fun metadata _ => ?_
    exact ends_merge_last rfl (forall_of_eq_some hget ⟨hterminal, _, metadata, rfl, rfl⟩)

theorem ends_recordSupervisorDecision (id : String) (decision : Json) (actor : Option String) :
    EndsCall env repository memory cfg drawn (.recordSupervisorDecision id decision actor) s₀
      (recordSupervisorDecision cfg id decision actor >>= fun _ => done ())
      (w, s₀) := by
  unfold recordSupervisorDecision
  split
  · simp only [bind_assoc]
    refine ends_getGoal .refl fun goal hget => ?_
    refine ends_runtime _ .refl fun now w => ?_
    refine ends_ofExcept .refl fun metadata _ => ?_
    exact ends_note_last .refl
  · exact ends_raise .refl _ _

theorem ends_storeGoalSummaryMemory (id : String) (actor : Option String) (reason : String) :
    EndsCall env repository memory cfg drawn (.storeGoalSummaryMemory id actor reason) s₀
      (storeGoalSummaryMemory cfg id actor reason >>= fun _ => done ())
      (w, s₀) := by
  simp only [storeGoalSummaryMemory, bind_assoc]
  refine ends_getGoal .refl fun goal hget => ?_
  refine ends_ofExcept .refl fun goalMemory _ => ?_
  refine ends_onGoals (.storeSummary _ _ _ _) ?_
  have heffect : GoalEffect cfg repository drawn (.storeGoalSummaryMemory id actor reason) s₀
      { s₀ with summaries := s₀.summaries + 1 } := .note .refl .summary
  refine ends_ofExcept heffect fun memoryId _ => ?_
  refine ends_runtime _ heffect fun now w => ?_
  exact ends_note_last heffect

theorem ends_resumeGoal {id : String} {f : GoalDefinition → GoalRun β} (hid : call.goalId = some id)
    (hpatch : ∀ goal : GoalDefinition, goal.status.isTerminal = false →
      call.Patches cfg goal { status := some (some .active) })
    (h : ∀ g w s', GoalEffect cfg repository drawn call s₀ s' →
      EndsCall env repository memory cfg drawn call s₀ (f g) (w, s')) :
    EndsCall env repository memory cfg drawn call s₀ (resumeGoal id >>= f) (w, s₀) := by
  simp only [resumeGoal, bind_assoc]
  refine ends_getGoal .refl fun goal hget => ?_
  split
  · exact ends_raise .refl _ _
  next hpaused =>
    refine ends_merge hid (forall_of_eq_some hget (hpatch goal ?_)) h
    rw [not_not.mp hpaused]
    rfl

theorem ends_cancelGoal {id : String} {reason : Json} {f : GoalDefinition → GoalRun β}
    (hid : call.goalId = some id)
    (hpatch : ∀ goal : GoalDefinition, goal.status.isTerminal = false → ∀ now metadata,
      call.Patches cfg goal {
        status := some (some .cancelled)
        completedAt := some (some now)
        metadata := some (some metadata) })
    (h : ∀ g w s', GoalEffect cfg repository drawn call s₀ s' →
      EndsCall env repository memory cfg drawn call s₀ (f g) (w, s')) :
    EndsCall env repository memory cfg drawn call s₀ (cancelGoal id reason >>= f) (w, s₀) := by
  simp only [cancelGoal, bind_assoc]
  refine ends_getGoal .refl fun goal hget => ?_
  refine ends_ensureNotTerminal .refl fun hterminal => ?_
  refine ends_runtime _ .refl fun now w => ?_
  exact ends_merge hid (forall_of_eq_some hget (hpatch goal hterminal now _)) h

theorem ends_completeGoal (id : String) (evidence : List (Dict Json))
    (evaluation : Option (Dict Json)) :
    EndsCall env repository memory cfg drawn (.completeGoal id evidence evaluation) s₀
      (completeGoal cfg id evidence evaluation >>= fun _ => done ())
      (w, s₀) := by
  simp only [completeGoal, bind_assoc]
  refine ends_getGoal .refl fun goal hget => ?_
  refine ends_ensureNotTerminal .refl fun hterminal => ?_
  refine ends_runtime _ .refl fun checkedAt w => ?_
  refine ends_ofExcept .refl fun result hresult => ?_
  split
  next hsufficient =>
    simp only [bind_assoc]
    refine ends_runtime _ .refl fun now w => ?_
    refine ends_merge_last rfl (forall_of_eq_some hget ?_)
    exact ⟨hterminal, checkedAt, result, hresult, .inl ⟨hsufficient, now, rfl⟩⟩
  · simp only [bind_assoc]
    refine ends_merge rfl (forall_of_eq_some hget ?_) fun g w s' heffect => ?_
    · exact ⟨hterminal, checkedAt, result, hresult, .inr rfl⟩
    · split
      · exact ends_raise heffect _ _
      · exact ends_raise heffect _ _

theorem ends_linkExecution (id : String) (executionId : Uuid) :
    EndsCall env repository memory cfg drawn (.linkExecution id executionId) s₀
      (linkExecution id executionId >>= fun _ => done ()) (w, s₀) := by
  simp only [linkExecution, bind_assoc]
  refine ends_getGoal .refl fun goal hget => ?_
  exact ends_merge_last rfl fun _ _ => ⟨_, rfl⟩

/-- Recording an operator action is a note. -/
theorem ends_recordOperatorAction {goal : GoalDefinition} {action : String}
    {payload : Dict Json} {actor : Option String}
    (heffect : GoalEffect cfg repository drawn call s₀ s') :
    EndsCall env repository memory cfg drawn call s₀
      (recordOperatorAction cfg goal action payload actor >>= fun _ =>
        done ()) (w, s') := by
  simp only [recordOperatorAction, bind_assoc]
  refine ends_runtime _ heffect fun now w => ?_
  refine ends_ofExcept heffect fun metadata _ => ?_
  exact ends_note_last heffect

/-- The change an operator asks for is one patch of a goal that is not terminal. -/
theorem ends_operatorChange {id action : String} {payload : Dict Json} {actor : Option String}
    {f : GoalDefinition → GoalRun β}
    (h : ∀ g w s', GoalEffect cfg repository drawn (.applyOperatorAction id payload actor) s₀ s' →
      EndsCall env repository memory cfg drawn (.applyOperatorAction id payload actor) s₀ (f g)
        (w, s')) :
    EndsCall env repository memory cfg drawn (.applyOperatorAction id payload actor) s₀
      (operatorChange cfg id action payload >>= f) (w, s₀) := by
  unfold operatorChange
  split
  · exact ends_raise .refl _ _
  split
  · exact ends_ensured_merge rfl (fun goal ht => ⟨ht, .inl rfl⟩) h
  split
  · exact ends_resumeGoal rfl (fun goal ht => ⟨ht, .inr (.inl rfl)⟩) h
  split
  · refine ends_cancelGoal rfl (fun goal ht now metadata => ⟨ht, ?_⟩) h
    exact .inr (.inr (.inl ⟨now, metadata, rfl⟩))
  split
  · simp only [adjustGoalAutonomy]
    split
    · exact ends_raise .refl _ _
    · refine ends_ensured_merge rfl (fun goal ht => ⟨ht, ?_⟩) h
      exact .inr (.inr (.inr (.inl ⟨_, rfl⟩)))
  split
  · unfold updateGoalSuccessCriteria
    split
    · split
      · exact ends_raise .refl _ _
      · refine ends_ensured_merge rfl (fun goal ht => ⟨ht, ?_⟩) h
        exact .inr (.inr (.inr (.inr (.inl ⟨_, rfl⟩))))
    · exact ends_raise .refl _ _
  split
  · simp only [reassignGoal]
    split
    · exact ends_raise .refl _ _
    · refine ends_ensured_merge rfl (fun goal ht => ⟨ht, ?_⟩) h
      exact .inr (.inr (.inr (.inr (.inr ⟨_, rfl⟩))))
  · exact ends_raise .refl _ _

theorem ends_code (call : GoalCall) (w : World) (s₀ : GoalStore) :
    EndsCall env repository memory cfg (env.uuid w.uuidsDrawn) call s₀ (call.code cfg) (w, s₀) := by
  cases call with
  | createGoal payload => exact ends_createGoal payload w s₀
  | updateGoal id patch => exact ends_merge_last rfl fun _ _ => rfl
  | attachEvidence id evidence => exact ends_attachEvidence id evidence
  | evaluateGoal id evidence persist => exact ends_evaluateGoal id evidence persist
  | planGoal id plan reason actor => exact ends_planGoal id plan reason actor
  | replanGoal id plan reason actor => exact ends_replanGoal id plan reason actor
  | recordSupervisorDecision id decision actor =>
    exact ends_recordSupervisorDecision id decision actor
  | storeGoalSummaryMemory id actor reason => exact ends_storeGoalSummaryMemory id actor reason
  | pauseGoal id =>
    exact ends_ensured_merge rfl (fun goal ht => ⟨ht, rfl⟩) fun _ _ _ h => ends_done h ()
  | resumeGoal id =>
    exact ends_resumeGoal rfl (fun goal ht => ⟨ht, rfl⟩) fun _ _ _ h => ends_done h ()
  | cancelGoal id reason =>
    refine ends_cancelGoal rfl (fun goal ht now metadata => ⟨ht, now, metadata, rfl⟩) ?_
    exact fun _ _ _ h => ends_done h ()
  | completeGoal id evidence evaluation => exact ends_completeGoal id evidence evaluation
  | linkExecution id executionId => exact ends_linkExecution id executionId
  | applyOperatorAction id payload actor =>
    simp only [GoalCall.code, applyOperatorAction, bind_assoc]
    refine ends_operatorChange fun updated w s' heffect => ?_
    split
    · exact ends_recordOperatorAction heffect
    · rw [bind_assoc]
      refine ends_getGoal heffect fun current _ => ?_
      exact ends_recordOperatorAction heffect

variable (cfg env repository memory) in
/-- A call, made when no other is going on. -/
def goalStep (call : GoalCall) (s : GoalState) : Except RuntimeException Unit × GoalState :=
  (call.code cfg).run (goalHandler env repository memory) s

/-- **What a call does** to the goals, however it ends. -/
theorem effect_code (call : GoalCall) (s : GoalState) :
    GoalEffect cfg repository (env.uuid s.1.uuidsDrawn) call s.2
      (goalStep cfg env repository memory call s).2.2 := by
  have hends : EndsCall env repository memory cfg (env.uuid s.1.uuidsDrawn) call s.2
      (call.code cfg) s := ends_code call s.1 s.2
  exact Program.wp_state.mp hends

end Calls

end OpenAgency
