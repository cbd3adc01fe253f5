/-
ScheduleSpellings.lean

Patches of a schedule under outdated names.  `ScheduleDefinition` accepts six keys next to
the names of its fields, and a payload that creates a schedule may use either.  A patch is
merged into the dumped schedule first, which has every field under its own name, and only
then normalised; so an outdated name finds its field taken.

`patchSchedule_sameSpelling_iff` says when such a patch does what the patch under the names
of the fields would have done.
-/
import OpenAgency.ScheduleLoop

namespace OpenAgency

open Relational Interaction Program ScheduleFields ScheduleDefinition Dict

namespace SchedulePatch

/-! ### Normalisation -/

/-- `current.model_dump(mode="json")`. -/
def dump (f : ScheduleFields) : SchedulePatch where
  name := some f.name
  workflowId := some f.workflowId
  enabled := some f.enabled
  triggerType := some f.triggerType
  triggerConfig := some f.triggerConfig
  inputTemplate := some f.inputTemplate
  runtimeAdapterOverride := some f.runtimeAdapterOverride
  maxConcurrentExecutions := some f.maxConcurrentExecutions
  timezone := some f.timezone
  nextFireAt := some f.nextFireAt
  lastFireAt := some f.lastFireAt
  metadata := some f.metadata

/-- `{**d, **p}`. -/
def union (d p : SchedulePatch) : SchedulePatch where
  name := p.name <|> d.name
  workflowId := p.workflowId <|> d.workflowId
  enabled := p.enabled <|> d.enabled
  triggerType := p.triggerType <|> d.triggerType
  scheduleType := p.scheduleType <|> d.scheduleType
  triggerConfig := p.triggerConfig <|> d.triggerConfig
  cron := p.cron <|> d.cron
  intervalSeconds := p.intervalSeconds <|> d.intervalSeconds
  inputTemplate := p.inputTemplate <|> d.inputTemplate
  runtimeAdapterOverride := p.runtimeAdapterOverride <|> d.runtimeAdapterOverride
  maxConcurrentExecutions := p.maxConcurrentExecutions <|> d.maxConcurrentExecutions
  timezone := p.timezone <|> d.timezone
  nextFireAt := p.nextFireAt <|> d.nextFireAt
  lastFireAt := p.lastFireAt <|> d.lastFireAt
  metadata := p.metadata <|> d.metadata
  inputPayload := p.inputPayload <|> d.inputPayload
  runtimeAdapterId := p.runtimeAdapterId <|> d.runtimeAdapterId
  nextRunAt := p.nextRunAt <|> d.nextRunAt

/-- A trigger configuration with what the patch says of it under outdated names. -/
def fillConfig (p : SchedulePatch) (config : Dict Json) : Dict Json :=
  (config.setdefault "cron" p.cron).setdefault "interval_seconds" p.intervalSeconds

/-- `normalize_schedule_fields`. -/
def normalizeScheduleFields (data : SchedulePatch) : SchedulePatch :=
  { data with
    triggerType := some (data.triggerType.getD (data.scheduleType.getD .manual))
    triggerConfig := some (data.fillConfig (data.triggerConfig.getD []))
    inputTemplate := data.inputTemplate <|> data.inputPayload
    runtimeAdapterOverride := data.runtimeAdapterOverride <|> data.runtimeAdapterId
    nextFireAt := data.nextFireAt <|> data.nextRunAt
    scheduleType := none
    cron := none
    intervalSeconds := none
    runtimeAdapterId := none
    inputPayload := none
    nextRunAt := none }

/-- The fields that normalised data give a schedule. -/
def fields (data : SchedulePatch) (id : String) : ScheduleFields where
  id := id
  name := data.name.getD ""
  workflowId := data.workflowId.getD ""
  enabled := data.enabled.getD true
  triggerType := data.triggerType.getD .manual
  triggerConfig := data.triggerConfig.getD []
  inputTemplate := data.inputTemplate.getD []
  runtimeAdapterOverride := data.runtimeAdapterOverride.getD none
  maxConcurrentExecutions := data.maxConcurrentExecutions.getD 1
  timezone := data.timezone.getD "UTC"
  nextFireAt := data.nextFireAt.getD none
  lastFireAt := data.lastFireAt.getD none
  metadata := data.metadata.getD []

variable {f : ScheduleFields} {p : SchedulePatch}

theorem getD_or_some {α : Type} (o : Option α) (a b : α) : (o <|> some a).getD b = o.getD a := by
  cases o <;> rfl

/-- **Merging normalises over a dump**, which has every field under its own name. -/
theorem fields_normalize_union (f : ScheduleFields) (p : SchedulePatch) :
    (((dump f).union p).normalizeScheduleFields).fields f.id = p.merge f := by
  have hnone : ∀ {α : Type} (o : Option α), (o <|> none) = o := fun o => by cases o <;> rfl
  have hover : ∀ {α : Type} (o o' : Option α) (a b : α),
      ((o <|> some a) <|> o').getD b = o.getD a := fun o o' a b => by cases o <;> rfl
  simp only [fields, normalizeScheduleFields, union, dump, merge, fillConfig, getD_or_some,
    hnone, hover, Option.getD_some]

/-- The patch says something of the configuration under an outdated name. -/
def fills (p : SchedulePatch) : Bool := p.cron.any (!·.isNull) || p.intervalSeconds.any (!·.isNull)

/-- The same patch under the names of the fields, read as creation reads it. -/
def canonical (p : SchedulePatch) : SchedulePatch :=
  { p with
    triggerType := p.triggerType <|> p.scheduleType
    triggerConfig := if p.fills then some (p.fillConfig (p.triggerConfig.getD [])) else p.triggerConfig
    inputTemplate := p.inputTemplate <|> p.inputPayload
    runtimeAdapterOverride := p.runtimeAdapterOverride <|> p.runtimeAdapterId
    nextFireAt := p.nextFireAt <|> p.nextRunAt
    scheduleType := none
    cron := none
    intervalSeconds := none
    runtimeAdapterId := none
    inputPayload := none
    nextRunAt := none }

theorem setdefault_of_not_any {config : Dict Json} {k : String} {v : Option Json}
    (h : v.any (!·.isNull) = false) : config.setdefault k v = config := by
  rcases v with - | v
  · rfl
  · have hnull : v.isNull = true := by simpa using h
    simp [setdefault, Option.filter, hnull]

theorem fillConfig_of_not_fills (h : p.fills = false) (config : Dict Json) :
    p.fillConfig config = config := by
  obtain ⟨hcron, hinterval⟩ := Bool.or_eq_false_iff.mp h
  rw [fillConfig, setdefault_of_not_any hcron, setdefault_of_not_any hinterval]

theorem fillConfig_canonical (config : Dict Json) : p.canonical.fillConfig config = config := rfl

/-- **Creation reads both spellings alike.** -/
theorem normalize_canonical (p : SchedulePatch) :
    p.canonical.normalizeScheduleFields = p.normalizeScheduleFields := by
  have hconfig : p.canonical.fillConfig (p.canonical.triggerConfig.getD []) =
      p.fillConfig (p.triggerConfig.getD []) := by
    rw [fillConfig_canonical]
    rcases hfills : p.fills with - | -
    · simp only [canonical, hfills, Bool.false_eq_true, if_false]
      exact (fillConfig_of_not_fills hfills _).symm
    · simp only [canonical, hfills, if_true, Option.getD_some]
  have htype : p.canonical.triggerType.getD (p.canonical.scheduleType.getD .manual) =
      p.triggerType.getD (p.scheduleType.getD .manual) := by
    simp only [canonical]
    cases p.triggerType <;> rfl
  have hor : ∀ {α : Type} (o : Option α), (o <|> none) = o := fun o => by cases o <;> rfl
  simp only [normalizeScheduleFields, hconfig, htype]
  simp only [canonical, hor]

/-! ### What a patch stores -/

/-- The patch after `patch_schedule` has set the next fire in it. -/
def rescheduled (zoneInfo : String → ZoneLookup) (now : Time) (current : ScheduleDefinition)
    (p : SchedulePatch) : Except RuntimeException SchedulePatch :=
  match p.nextFireAt with
  | some _ => .ok p
  | none => do
    let candidate ← validate (p.merge current.toScheduleFields)
    if !candidate.enabled then .ok { p with nextFireAt := some none }
    else if p.reschedules then
      let computation ← computeNextFire zoneInfo candidate.toScheduleFields now
      .ok { p with nextFireAt := some computation.nextFireAt }
    else .ok p

/-- The schedule that `patch_schedule` stores over `current`. -/
def stored (zoneInfo : String → ZoneLookup) (now : Time) (current : ScheduleDefinition)
    (p : SchedulePatch) : Except RuntimeException ScheduleDefinition :=
  p.rescheduled zoneInfo now current >>= fun p =>
    validate (p.merge current.toScheduleFields)

/-- The schedules after a patch. -/
def storedIn (schedules : Catalog (fun d : ScheduleDefinition => d.id)) :
    Except RuntimeException ScheduleDefinition → Catalog (fun d : ScheduleDefinition => d.id)
  | .ok d => schedules.put d
  | .error _ => schedules

end SchedulePatch

section Run

open SchedulePatch

variable {env : Environment} {wake : ℕ → Except RuntimeException Unit} {cfg : SchedulerConfig}
  {s : SchedulerState} {id : String} {current : ScheduleDefinition} {p : SchedulePatch}

theorem run_ofExcept {α : Type} (x : Except RuntimeException α) (s : SchedulerState) :
    (Program.ofExcept x : Scheduling α).run (reliableHandler env wake) s = (x, s) := by
  cases x <;> rfl

/-- Updating a schedule that is there validates the merge and stores it. -/
theorem run_updateSchedule (h : s.2.schedules.get id = some current) :
    (updateSchedule id p).run (reliableHandler env wake) s =
      ((validate (p.merge current.toScheduleFields)).map some, s.1,
        { s.2 with
          schedules := storedIn s.2.schedules
            (validate (p.merge current.toScheduleFields)) }) := by
  have hget : (ScheduleOp.getSchedule id).exec wake s.2 = (some current, s.2) := by
    rw [← h]
    rfl
  unfold updateSchedule
  rw [run_bind, run_onSchedules, hget]
  show (Program.ofExcept _ >>= _ : Scheduling _).run _ _ = _
  rw [run_bind, run_ofExcept]
  rcases validate (p.merge current.toScheduleFields) with e | merged
  · rfl
  · rfl

theorem run_reschedule (current : ScheduleDefinition) (p : SchedulePatch) :
    ∃ w, (reschedule cfg current p).run (reliableHandler env wake) s =
      (p.rescheduled cfg.zoneInfo (env.clock s.1.clockReads) current, w, s.2) := by
  unfold reschedule rescheduled
  rcases p.nextFireAt with - | next
  · show ∃ w, (Program.ofExcept _ >>= _ : Scheduling _).run _ _ = _
    rw [run_bind, run_ofExcept]
    rcases validate (p.merge current.toScheduleFields) with e | candidate
    · exact ⟨s.1, rfl⟩
    · show ∃ w, (if !candidate.enabled then _ else _ : Scheduling _).run _ _ =
        ((if !candidate.enabled then _ else _ : Except _ _), _)
      rcases candidate.enabled with - | -
      · exact ⟨s.1, rfl⟩
      rcases p.reschedules with - | -
      · exact ⟨s.1, rfl⟩
      · show ∃ w, (onRuntime utcNow >>= _ : Scheduling _).run _ _ = (computeNextFire _ _ _ >>= _, w, s.2)
        rw [run_bind, run_onRuntime]
        refine ⟨{ s.1 with clockReads := s.1.clockReads + 1 }, ?_⟩
        show (Program.ofExcept (computeNextFire _ _ (env.clock s.1.clockReads)) >>= _ :
          Scheduling _).run _ _ = _
        rw [run_bind, run_ofExcept]
        rcases computeNextFire cfg.zoneInfo candidate.toScheduleFields
          (env.clock s.1.clockReads) with e | computation
        · rfl
        · rfl
  · exact ⟨s.1, rfl⟩

/-- **What `patch_schedule` does** to a schedule that is there. -/
theorem run_patchSchedule (h : s.2.schedules.get id = some current) :
    ∃ w, (patchSchedule cfg id p).run (reliableHandler env wake) s =
      ((stored cfg.zoneInfo (env.clock s.1.clockReads) current p).map some, w,
        { s.2 with
          schedules := storedIn s.2.schedules
            (stored cfg.zoneInfo (env.clock s.1.clockReads) current p) }) := by
  have hget : (ScheduleOp.getSchedule id).exec wake s.2 = (some current, s.2) := by
    rw [← h]
    rfl
  obtain ⟨w, hw⟩ : ∃ w, (reschedule cfg current p).run (reliableHandler env wake) s =
      (p.rescheduled cfg.zoneInfo (env.clock s.1.clockReads) current, w, s.2) :=
    run_reschedule current p
  refine ⟨w, ?_⟩
  unfold patchSchedule
  rw [run_bind, run_onSchedules, hget]
  show (reschedule cfg current p >>= fun patch => updateSchedule id patch).run _ _ = _
  rw [run_bind, hw, stored]
  rcases p.rescheduled cfg.zoneInfo (env.clock s.1.clockReads) current with e | p'
  · rfl
  · exact run_updateSchedule (s := (w, s.2)) h

end Run

/-! ### The same schedule -/

/-- Schedules that differ at most in the order in which their dictionaries were written. -/
structure ScheduleFields.Same (f g : ScheduleFields) : Prop where
  others : { f with triggerConfig := [], inputTemplate := [] } =
    { g with triggerConfig := [], inputTemplate := [] }
  triggerConfig : ∀ k, f.triggerConfig.get? k = g.triggerConfig.get? k
  inputTemplate : ∀ k, f.inputTemplate.get? k = g.inputTemplate.get? k

namespace ScheduleFields.Same

variable {f g : ScheduleFields} {zoneInfo : String → ZoneLookup} {now : Time}

theorem enabled (h : f.Same g) : f.enabled = g.enabled :=
  (congrArg ScheduleFields.enabled h.others :)

theorem triggerType (h : f.Same g) : f.triggerType = g.triggerType :=
  (congrArg ScheduleFields.triggerType h.others :)

theorem nextFireAt (h : f.Same g) : f.nextFireAt = g.nextFireAt :=
  (congrArg ScheduleFields.nextFireAt h.others :)

/-- Validation looks at the entries of the configuration only. -/
theorem problem (h : f.Same g) : f.problem = g.problem := by
  have hmax : f.maxConcurrentExecutions = g.maxConcurrentExecutions :=
    (congrArg maxConcurrentExecutions h.others :)
  have hjson : ∀ k, f.triggerConfig.getJson k = g.triggerConfig.getJson k := fun k =>
    congrArg (·.getD .null) (h.triggerConfig k)
  simp only [ScheduleFields.problem, h.triggerType, hjson, hmax]

/-- So does the computation of the next fire. -/
theorem computeNextFire (h : f.Same g) :
    OpenAgency.computeNextFire zoneInfo f now = OpenAgency.computeNextFire zoneInfo g now := by
  have hlast : f.lastFireAt = g.lastFireAt := (congrArg lastFireAt h.others :)
  have hzone : f.timezone = g.timezone := (congrArg timezone h.others :)
  simp only [OpenAgency.computeNextFire, h.enabled, h.triggerType, h.triggerConfig, h.nextFireAt,
    hlast, hzone]

theorem withNextFireAt (h : f.Same g) (t : Option Datetime) :
    ({ f with nextFireAt := t } : ScheduleFields).Same { g with nextFireAt := t } where
  others := (congrArg (fun f : ScheduleFields => { f with nextFireAt := t }) h.others :)
  triggerConfig := h.triggerConfig
  inputTemplate := h.inputTemplate

end ScheduleFields.Same

namespace SchedulePatch

variable {f : ScheduleFields} {p : SchedulePatch} {zoneInfo : String → ZoneLookup} {now : Time}
  {current : ScheduleDefinition}

theorem get?_setdefault (d : Dict Json) (k k' : String) (v : Option Json) :
    (d.setdefault k v).get? k' =
      (d.get? k').or (if k' = k then v.filter (!·.isNull) else none) := by
  have hfilled : ∀ w, (if (d.get? k).isSome then d else d.set k w).get? k' =
      (d.get? k').or (if k' = k then some w else none) := by
    intro w
    by_cases hk : k' = k
    · subst hk
      rcases hd : d.get? k' with - | w'
      · simp
      · simp [hd]
    · rcases hd : (d.get? k).isSome with - | -
      · simp [hk, get?_set_ne hk]
      · simp [hk]
  rcases v with - | w
  · simp [setdefault]
  · rcases hnull : w.isNull with - | -
    · simpa [setdefault, Option.filter, hnull] using hfilled w
    · simp [setdefault, Option.filter, hnull]

/-- What stands in the configuration stays, what the patch says fills in. -/
theorem get?_fillConfig (config : Dict Json) (k : String) :
    (p.fillConfig config).get? k = (config.get? k).or ((p.fillConfig []).get? k) := by
  simp only [fillConfig, get?_setdefault, get?_nil, Option.none_or, Option.or_assoc]

/-! ### The names that agree -/

/-- Each outdated name of the patch stands beside the name of its field, or says what the
schedule says already. -/
structure NamesAgree (f : ScheduleFields) (p : SchedulePatch) : Prop where
  scheduleType : p.triggerType = none → ∀ t, p.scheduleType = some t → t = f.triggerType
  config : p.triggerConfig = none → p.fills →
    ∀ k v, f.triggerConfig.get? k = some v → (p.fillConfig []).get? k = some v
  inputPayload : p.inputTemplate = none → ∀ d, p.inputPayload = some d →
    ∀ k, f.inputTemplate.get? k = d.get? k
  runtimeAdapterId : p.runtimeAdapterOverride = none → ∀ a, p.runtimeAdapterId = some a →
    a = f.runtimeAdapterOverride

/-- **When the merges are the same**, the next fire aside. -/
theorem merge_same_iff :
    ({ p.merge f with nextFireAt := none } : ScheduleFields).Same
      { p.canonical.merge f with nextFireAt := none } ↔ p.NamesAgree f := by
  constructor
  · intro h
    refine ⟨?_, ?_, ?_, ?_⟩
    · intro hnone t ht
      have htype := h.triggerType
      simp only [merge, canonical, hnone, ht] at htype
      exact htype.symm
    · intro hnone hfills k v hv
      have hconfig := h.triggerConfig k
      simp only [merge, canonical, hnone, hfills, if_true] at hconfig
      have hleft := get?_fillConfig (p := p) f.triggerConfig k
      rw [hv, Option.some_or] at hleft
      exact hconfig.symm.trans hleft
    · intro hnone d hd k
      have htemplate := h.inputTemplate k
      simp only [merge, canonical, hnone, hd] at htemplate
      exact htemplate
    · intro hnone a ha
      have hadapter : (p.merge f).runtimeAdapterOverride =
          (p.canonical.merge f).runtimeAdapterOverride :=
        (congrArg ScheduleFields.runtimeAdapterOverride h.others :)
      simp only [merge, canonical, hnone, ha] at hadapter
      exact hadapter.symm
  · intro h
    have htype : (p.merge f).triggerType = (p.canonical.merge f).triggerType := by
      simp only [merge, canonical]
      rcases hnone : p.triggerType with - | t
      · rcases ht : p.scheduleType with - | t
        · rfl
        · exact (h.scheduleType hnone t ht).symm
      · rfl
    have hadapter : (p.merge f).runtimeAdapterOverride =
        (p.canonical.merge f).runtimeAdapterOverride := by
      simp only [merge, canonical]
      rcases hnone : p.runtimeAdapterOverride with - | a
      · rcases ha : p.runtimeAdapterId with - | a
        · rfl
        · exact (h.runtimeAdapterId hnone a ha).symm
      · rfl
    refine ⟨?_, ?_, ?_⟩
    · simp only [merge] at htype hadapter ⊢
      simp only [htype, hadapter]
      rfl
    · intro k
      show (p.fillConfig (p.triggerConfig.getD f.triggerConfig)).get? k =
        (p.canonical.fillConfig (p.canonical.triggerConfig.getD f.triggerConfig)).get? k
      rw [fillConfig_canonical]
      rcases hfills : p.fills with - | -
      · rw [fillConfig_of_not_fills hfills, canonical, if_neg (by simp [hfills])]
      · rw [canonical, if_pos hfills, Option.getD_some]
        rcases hnone : p.triggerConfig with - | config
        · -- every stored entry is one that the patch gives itself
          show (p.fillConfig f.triggerConfig).get? k = (p.fillConfig []).get? k
          rw [get?_fillConfig]
          rcases hv : f.triggerConfig.get? k with - | v
          · rfl
          · exact (h.config hnone hfills k v hv).symm
        · rfl
    · intro k
      simp only [merge, canonical]
      rcases hnone : p.inputTemplate with - | d
      · rcases hd : p.inputPayload with - | d
        · rfl
        · exact h.inputPayload hnone d hd k
      · rfl

end SchedulePatch

namespace SchedulePatch

variable {p : SchedulePatch} {zoneInfo : String → ZoneLookup} {now : Time}
  {current : ScheduleDefinition}

/-! ### The next fire -/

/-- The next fire of a schedule that a patch which does not set it has led to. -/
def nextFire (zoneInfo : String → ZoneLookup) (now : Time) (p : SchedulePatch)
    (candidate : ScheduleFields) : Except RuntimeException (Option Datetime) :=
  if !candidate.enabled then .ok none
  else if p.reschedules then (computeNextFire zoneInfo candidate now).map (·.nextFireAt)
  else .ok candidate.nextFireAt

theorem nextFire_congr {f g : ScheduleFields} (h : f.Same g) :
    p.nextFire zoneInfo now f = p.nextFire zoneInfo now g := by
  simp only [nextFire, h.enabled, h.nextFireAt, h.computeNextFire]

/-- The next fire that is stored with a patch. -/
def settledFire (zoneInfo : String → ZoneLookup) (now : Time) (f : ScheduleFields)
    (p : SchedulePatch) : Except RuntimeException (Option Datetime) :=
  match p.nextFireAt with
  | some t => .ok t
  | none => p.nextFire zoneInfo now (p.merge f)

variable {f : ScheduleFields}

theorem validate_ok_iff {d : ScheduleDefinition} :
    validate f = .ok d ↔ f.problem = none ∧ d.toScheduleFields = f := by
  constructor
  · intro h
    have hd := toScheduleFields_of_validate h
    exact ⟨hd ▸ d.valid, hd⟩
  · rintro ⟨-, rfl⟩
    exact validate_self d

/-- Where the patch does not say the next fire, it is settled for the valid merge. -/
theorem rescheduled_of_none (hnone : p.nextFireAt = none)
    (hvalid : (p.merge current.toScheduleFields).problem = none) :
    (p.rescheduled zoneInfo now current >>= fun p' =>
        validate (p'.merge current.toScheduleFields)) =
      p.nextFire zoneInfo now (p.merge current.toScheduleFields) >>= fun t =>
        validate { p.merge current.toScheduleFields with nextFireAt := t } := by
  have hcandidate : validate (p.merge current.toScheduleFields) =
      .ok ⟨p.merge current.toScheduleFields, hvalid⟩ := validate_ok_iff.mpr ⟨hvalid, rfl⟩
  simp only [rescheduled, hnone, hcandidate, nextFire]
  show ((if !(p.merge current.toScheduleFields).enabled then _ else _ : Except _ _) >>= _) =
    ((if !(p.merge current.toScheduleFields).enabled then _ else _ : Except _ _) >>= _)
  by_cases hdisabled : (!(p.merge current.toScheduleFields).enabled) = true
  · rw [if_pos hdisabled, if_pos hdisabled]
    rfl
  · rw [if_neg hdisabled, if_neg hdisabled]
    by_cases hreschedules : p.reschedules = true
    · rw [if_pos hreschedules, if_pos hreschedules]
      rcases computeNextFire zoneInfo (p.merge current.toScheduleFields) now with e | computation
      · rfl
      · rfl
    · rw [if_neg hreschedules, if_neg hreschedules]
      rfl

/-- **What is stored**: the merge, if it is valid, with the next fire that belongs to it. -/
theorem stored_ok_iff {d : ScheduleDefinition} :
    p.stored zoneInfo now current = .ok d ↔ (p.merge current.toScheduleFields).problem = none ∧
      ∃ t, p.settledFire zoneInfo now current.toScheduleFields = .ok t ∧
        d.toScheduleFields = { p.merge current.toScheduleFields with nextFireAt := t } := by
  have hproblem : ∀ t, ({ p.merge current.toScheduleFields with nextFireAt := t } :
      ScheduleFields).problem = (p.merge current.toScheduleFields).problem := fun t =>
    problem_congr rfl rfl rfl
  rcases hnext : p.nextFireAt with - | t
  · by_cases hvalid : (p.merge current.toScheduleFields).problem = none
    · rw [stored, rescheduled_of_none hnext hvalid, bind_eq_ok]
      simp only [settledFire, hnext, validate_ok_iff, hproblem, hvalid, true_and]
    · constructor
      · intro h
        obtain ⟨p', hp', -⟩ := bind_eq_ok.mp h
        simp only [rescheduled, hnext] at hp'
        obtain ⟨candidate, hcandidate, -⟩ := bind_eq_ok.mp hp'
        exact absurd (validate_ok_iff.mp hcandidate).1 hvalid
      · rintro ⟨h, -⟩
        exact absurd h hvalid
  · have hstored : p.stored zoneInfo now current = validate (p.merge current.toScheduleFields) := by
      simp only [stored, rescheduled, hnext]
      rfl
    have hmerge : ({ p.merge current.toScheduleFields with nextFireAt := t } : ScheduleFields) =
        p.merge current.toScheduleFields := by
      simp only [merge, hnext, Option.getD_some]
    rw [hstored, validate_ok_iff]
    simp only [settledFire, hnext, Except.ok.injEq, exists_eq_left', hmerge]

/-- The patch is refused: the merge is not valid, or its next fire cannot be computed. -/
def Refused (zoneInfo : String → ZoneLookup) (now : Time) (f : ScheduleFields)
    (p : SchedulePatch) : Prop :=
  (p.merge f).problem ≠ none ∨ ∃ e, p.settledFire zoneInfo now f = .error e

/-- A patch does what it would do under the names of the fields: its names agree with the
schedule, and so does the next fire it says or sets; or it is refused either way. -/
def TakesEffect (zoneInfo : String → ZoneLookup) (now : Time) (f : ScheduleFields)
    (p : SchedulePatch) : Prop :=
  (p.NamesAgree f ∧ (p.nextFireAt = none →
    p.nextFire zoneInfo now (p.merge f) = match p.nextRunAt with
      | some t => .ok t
      | none => p.canonical.nextFire zoneInfo now (p.merge f))) ∨
  p.Refused zoneInfo now f ∧ p.canonical.Refused zoneInfo now f

theorem exists_stored_iff :
    (∃ d, p.stored zoneInfo now current = .ok d) ↔
      ¬ p.Refused zoneInfo now current.toScheduleFields := by
  constructor
  · rintro ⟨d, hd⟩ (hproblem | ⟨e, he⟩)
    · exact hproblem (stored_ok_iff.mp hd).1
    · obtain ⟨-, t, ht, -⟩ := stored_ok_iff.mp hd
      rw [he] at ht
      cases ht
  · intro h
    obtain ⟨hproblem, hsettled⟩ := not_or.mp h
    have hvalid : (p.merge current.toScheduleFields).problem = none := not_not.mp hproblem
    rcases ht : p.settledFire zoneInfo now current.toScheduleFields with e | t
    · exact absurd ⟨e, ht⟩ hsettled
    · have hwith : ({ p.merge current.toScheduleFields with nextFireAt := t } :
          ScheduleFields).problem = none :=
        (problem_congr rfl rfl rfl).trans hvalid
      exact ⟨⟨_, hwith⟩, stored_ok_iff.mpr ⟨hvalid, t, ht, rfl⟩⟩

/-- Names that agree give the same merge, the next fire aside. -/
theorem NamesAgree.merge_same (h : p.NamesAgree f) (t : Option Datetime) :
    ({ p.merge f with nextFireAt := t } : ScheduleFields).Same
      { p.canonical.merge f with nextFireAt := t } :=
  (merge_same_iff.mpr h).withNextFireAt t

/-- Where neither spelling says the next fire, the merges are the same. -/
theorem NamesAgree.merge_same_of_none (h : p.NamesAgree f) (hnone : p.nextFireAt = none)
    (hrun : p.nextRunAt = none) :
    (p.merge f).Same (p.canonical.merge f) := by
  have hmerge : ({ p.merge f with nextFireAt := f.nextFireAt } : ScheduleFields) = p.merge f := by
    simp only [merge, hnone, Option.getD_none]
  have hcanonical : ({ p.canonical.merge f with nextFireAt := f.nextFireAt } : ScheduleFields) =
      p.canonical.merge f := by
    simp only [merge, canonical, hnone, hrun]
    rfl
  rw [← hmerge, ← hcanonical]
  exact h.merge_same f.nextFireAt

/-- The next fire that is settled under the names of the fields. -/
theorem settledFire_canonical (h : p.NamesAgree f) (hnone : p.nextFireAt = none) :
    p.canonical.settledFire zoneInfo now f = match p.nextRunAt with
      | some t => .ok t
      | none => p.canonical.nextFire zoneInfo now (p.merge f) := by
  have hcanonical : p.canonical.nextFireAt = p.nextRunAt := by
    simp only [canonical, hnone]
    rfl
  unfold settledFire
  rw [hcanonical]
  rcases hrun : p.nextRunAt with - | t
  · exact (nextFire_congr (h.merge_same_of_none hnone hrun)).symm
  · rfl

/-- Both spellings are stored the same, or both are refused. -/
def SameStored : Except RuntimeException ScheduleDefinition →
    Except RuntimeException ScheduleDefinition → Prop
  | .ok d, .ok d' => d.toScheduleFields.Same d'.toScheduleFields
  | .error _, .error _ => True
  | _, _ => False

/-- **When both spellings of a patch are stored the same.** -/
theorem sameStored_iff :
    SameStored (p.stored zoneInfo now current) (p.canonical.stored zoneInfo now current) ↔
      p.TakesEffect zoneInfo now current.toScheduleFields := by
  have hrefused : ∀ {q : SchedulePatch} {e}, q.stored zoneInfo now current = .error e →
      q.Refused zoneInfo now current.toScheduleFields := by
    intro q e he
    by_contra hnot
    obtain ⟨d, hd⟩ := exists_stored_iff.mpr hnot
    rw [he] at hd
    cases hd
  constructor
  · intro h
    rcases hp : p.stored zoneInfo now current with e | d
    · rcases hc : p.canonical.stored zoneInfo now current with e' | d'
      · exact .inr ⟨hrefused hp, hrefused hc⟩
      · rw [hp, hc] at h
        exact h.elim
    · rcases hc : p.canonical.stored zoneInfo now current with e' | d'
      · rw [hp, hc] at h
        exact h.elim
      · rw [hp, hc] at h
        obtain ⟨-, t, ht, hd⟩ := stored_ok_iff.mp hp
        obtain ⟨-, t', ht', hd'⟩ := stored_ok_iff.mp hc
        have hsame : d.toScheduleFields.Same d'.toScheduleFields := h
        rw [hd, hd'] at hsame
        have hagree : p.NamesAgree current.toScheduleFields :=
          merge_same_iff.mp (hsame.withNextFireAt none)
        refine .inl ⟨hagree, fun hnone => ?_⟩
        rw [← settledFire_canonical hagree hnone, ht', ← show t = t' from hsame.nextFireAt, ← ht]
        simp only [settledFire, hnone]
  · rintro (⟨hagree, hnext⟩ | ⟨hp, hc⟩)
    · have hsettled : p.settledFire zoneInfo now current.toScheduleFields =
          p.canonical.settledFire zoneInfo now current.toScheduleFields := by
        rcases hnone : p.nextFireAt with - | t
        · rw [settledFire_canonical hagree hnone, ← hnext hnone]
          simp only [settledFire, hnone]
        · simp only [settledFire, canonical, hnone]
          rfl
      have hproblem : (p.merge current.toScheduleFields).problem =
          (p.canonical.merge current.toScheduleFields).problem :=
        ((problem_congr rfl rfl rfl).trans (hagree.merge_same none).problem).trans
          (problem_congr rfl rfl rfl)
      rcases hp : p.stored zoneInfo now current with e | d
      · rcases hc : p.canonical.stored zoneInfo now current with e' | d'
        · trivial
        · obtain ⟨hvalid, t, ht, -⟩ := stored_ok_iff.mp hc
          rcases hrefused hp with hinvalid | ⟨e, he⟩
          · exact absurd (hproblem.trans hvalid) hinvalid
          · rw [hsettled, ht] at he
            cases he
      · obtain ⟨hvalid, t, ht, hd⟩ := stored_ok_iff.mp hp
        have hcanonical : ({ p.canonical.merge current.toScheduleFields with nextFireAt := t } :
            ScheduleFields).problem = none :=
          (problem_congr rfl rfl rfl).trans (hproblem.symm.trans hvalid)
        rw [stored_ok_iff.mpr ⟨hproblem.symm.trans hvalid, t, hsettled.symm.trans ht,
          (rfl : (⟨_, hcanonical⟩ : ScheduleDefinition).toScheduleFields = _)⟩]
        show d.toScheduleFields.Same _
        rw [hd]
        exact hagree.merge_same t
    · rcases hp' : p.stored zoneInfo now current with e | d
      · rcases hc' : p.canonical.stored zoneInfo now current with e' | d'
        · trivial
        · exact absurd hc (exists_stored_iff.mp ⟨d', hc'⟩)
      · exact absurd hp (exists_stored_iff.mp ⟨d, hp'⟩)

end SchedulePatch

/-! ### Runs -/

section Runs

open SchedulePatch

variable {env : Environment} {wake : ℕ → Except RuntimeException Unit} {cfg : SchedulerConfig}
  {s : SchedulerState} {id : String} {current : ScheduleDefinition} {p : SchedulePatch}

/-- Both are the same schedule, or neither is there. -/
def SameEntry : Option ScheduleDefinition → Option ScheduleDefinition → Prop
  | some d, some d' => d.toScheduleFields.Same d'.toScheduleFields
  | none, none => True
  | _, _ => False

/-- Two calls answer the same schedule, or both raise, and leave the same schedules. -/
structure SameOutcome (r r' : Except RuntimeException (Option ScheduleDefinition) × SchedulerState) :
    Prop where
  answer : match r.1, r'.1 with
    | .ok d, .ok d' => SameEntry d d'
    | .error _, .error _ => True
    | _, _ => False
  schedules : ∀ id, SameEntry (r.2.2.schedules.get id) (r'.2.2.schedules.get id)

theorem SameEntry.refl (d : Option ScheduleDefinition) : SameEntry d d := by
  cases d with
  | none => trivial
  | some d => exact ⟨rfl, fun _ => rfl, fun _ => rfl⟩

/-- On a schedule that is there, what counts is what is stored. -/
theorem sameOutcome_iff_sameStored (h : s.2.schedules.get id = some current) :
    SameOutcome ((patchSchedule cfg id p).run (reliableHandler env wake) s)
        ((patchSchedule cfg id p.canonical).run (reliableHandler env wake) s) ↔
      SameStored (p.stored cfg.zoneInfo (env.clock s.1.clockReads) current)
        (p.canonical.stored cfg.zoneInfo (env.clock s.1.clockReads) current) := by
  obtain ⟨w, hw⟩ : ∃ w, (patchSchedule cfg id p).run (reliableHandler env wake) s = _ :=
    run_patchSchedule h
  obtain ⟨w', hw'⟩ : ∃ w, (patchSchedule cfg id p.canonical).run (reliableHandler env wake) s = _ :=
    run_patchSchedule h
  rw [hw, hw']
  have hid : ∀ {q : SchedulePatch} {d}, q.stored cfg.zoneInfo (env.clock s.1.clockReads) current =
      .ok d → d.id = current.id := by
    intro q d hd
    obtain ⟨-, t, -, hfields⟩ := stored_ok_iff.mp hd
    exact (congrArg ScheduleFields.id hfields :)
  rcases hp : p.stored cfg.zoneInfo (env.clock s.1.clockReads) current with e | d
  · rcases hc : p.canonical.stored cfg.zoneInfo (env.clock s.1.clockReads) current with e' | d'
    · exact ⟨fun _ => trivial, fun _ => ⟨trivial, fun _ => SameEntry.refl _⟩⟩
    · exact ⟨fun h => h.answer, fun h => h.elim⟩
  · rcases hc : p.canonical.stored cfg.zoneInfo (env.clock s.1.clockReads) current with e' | d'
    · exact ⟨fun h => h.answer, fun h => h.elim⟩
    · constructor
      · intro h
        exact h.answer
      · intro h
        refine ⟨h, fun k => ?_⟩
        show SameEntry ((s.2.schedules.put d).get k) ((s.2.schedules.put d').get k)
        rw [Catalog.get_put, Catalog.get_put, hid hp, hid hc]
        by_cases hk : k = current.id
        · rw [if_pos hk, if_pos hk]
          exact h
        · rw [if_neg hk, if_neg hk]
          exact SameEntry.refl _

theorem run_patchSchedule_missing (h : s.2.schedules.get id = none) :
    (patchSchedule cfg id p).run (reliableHandler env wake) s = (.ok none, s) := by
  have hget : (ScheduleOp.getSchedule id).exec wake s.2 = (none, s.2) := by
    rw [← h]
    rfl
  unfold patchSchedule
  rw [run_bind, run_onSchedules, hget]
  rfl

/-- **When a patch under outdated names does what it says.** -/
theorem patchSchedule_sameSpelling_iff :
    SameOutcome ((patchSchedule cfg id p).run (reliableHandler env wake) s)
        ((patchSchedule cfg id p.canonical).run (reliableHandler env wake) s) ↔
      ∀ current, s.2.schedules.get id = some current →
        p.TakesEffect cfg.zoneInfo (env.clock s.1.clockReads) current.toScheduleFields := by
  rcases h : s.2.schedules.get id with - | current
  · rw [run_patchSchedule_missing h, run_patchSchedule_missing h]
    constructor
    · rintro - current hcurrent
      cases hcurrent
    · rintro -
      exact ⟨trivial, fun _ => SameEntry.refl _⟩
  · rw [sameOutcome_iff_sameStored h, sameStored_iff]
    constructor
    · intro heffect current' hcurrent
      cases hcurrent
      exact heffect
    · intro heffect
      exact heffect current rfl

open BadSchedule in
/-- **An interval that is not taken over.**  The schedule keeps firing every minute. -/
theorem intervalAlias_ignored :
    ¬ SameOutcome
      ((patchSchedule config "b" { intervalSeconds := some (.num 3600) }).run
        (reliableHandler .silent fun _ => .ok ()) state)
      ((patchSchedule config "b"
          (SchedulePatch.canonical { intervalSeconds := some (.num 3600) })).run
        (reliableHandler .silent fun _ => .ok ()) state) := by
  have hget : state.2.schedules.get "b" = some due := rfl
  rw [sameOutcome_iff_sameStored hget, sameStored_iff]
  rintro (⟨hagree, -⟩ | ⟨hinvalid | ⟨e, he⟩, -⟩)
  · have hentry := hagree.config rfl rfl "interval_seconds" (.num 60) rfl
    have hnum : (60 : ℚ) = 3600 := by
      injection (Option.some.inj hentry).symm
    norm_num at hnum
  · exact hinvalid rfl
  · cases he

end Runs

end OpenAgency
