/-
FireOwnership.lean

Whose execution is whose.  A process draws the identifier of the execution it creates,
so no other process writes that execution: its row is empty until it is created, and
what a process reads back is what it wrote.  This is what the protocol of a fire
expects of answers, and it holds in every pool of schedulers whichever operations fail
(`Ownership.step`), so that what follows is left with the invariants of its own.
-/
import OpenAgency.FireProtocol

namespace OpenAgency

open Relational Interaction ScheduleOp

/-! ### What an operation may do -/

/-- What an operation that may fail does: it answers and has its effect, or fails before
its effect or after it. -/
def Outcome {ρ σ : Type} (r₀ : ρ) (s s₁ : σ) (r : Except RuntimeException ρ) (s' : σ) : Prop :=
  (r = .ok r₀ ∧ s' = s₁) ∨ ∃ e, r = .error e ∧ (s' = s ∨ s' = s₁)

namespace Outcome

variable {ρ σ τ : Type} {r₀ a : ρ} {s s₁ s' : σ} {r : Except RuntimeException ρ}

theorem state (h : Outcome r₀ s s₁ r s') : s' = s ∨ s' = s₁ := by
  rcases h with ⟨-, h⟩ | ⟨_, -, h⟩
  · exact .inr h
  · exact h

theorem ok (h : Outcome r₀ s s₁ (.ok a) s') : a = r₀ ∧ s' = s₁ := by
  rcases h with ⟨hr, hs⟩ | ⟨_, hr, -⟩
  · exact ⟨Except.ok.inj hr, hs⟩
  · cases hr

/-- The outcome on a part of the state. -/
theorem map (h : Outcome r₀ s s₁ r s') (f : σ → τ) : Outcome r₀ (f s) (f s₁) r (f s') := by
  rcases h with ⟨hr, rfl⟩ | ⟨e, hr, rfl | rfl⟩
  · exact .inl ⟨hr, rfl⟩
  · exact .inr ⟨e, hr, .inl rfl⟩
  · exact .inr ⟨e, hr, .inr rfl⟩

/-- What an operation does when the schedule of faults decides whether it fails. -/
theorem of_faulty {S : Signature} (H : Handler S σ) (faults : ℕ → Fault RuntimeException)
    (o : S.Op) (s : σ × ℕ) :
    Outcome (H o s.1).1 s.1 (H o s.1).2 (H.faulty faults o s).1 (H.faulty faults o s).2.1 := by
  rcases Handler.faulty_cases H faults o s with h | ⟨e, he, hs⟩ | ⟨e, he, hs⟩
  · exact .inl h
  · exact .inr ⟨e, he, .inl hs⟩
  · exact .inr ⟨e, he, .inr hs⟩

end Outcome

/-! ### Stages -/

namespace FireStage

/-- The identifier a process drew for its execution. -/
def owned : FireStage → Option Uuid
  | drawn _ id | written _ id | linked _ id => some id
  | _ => none

/-- The schedule that is being fired. -/
def schedule : FireStage → Option ScheduleDefinition
  | idle => none
  | loaded d | checked d | drawn d _ | written d _ | linked d _ => some d

/-- Listing executions changes nothing that is owned. -/
theorem afterListing_cases (active : List Execution) (stage : FireStage) :
    stage.afterListing active = stage ∨
      ∃ d, stage = loaded d ∧ stage.afterListing active = checked d ∧
        ((active.filter (isOfSchedule d.id)).length : ℤ) < d.maxConcurrentExecutions := by
  cases stage with
  | loaded d =>
    simp only [afterListing]
    split
    next hfew => exact .inr ⟨d, rfl, rfl, hfew⟩
    · exact .inl rfl
  | _ => exact .inl rfl

/-- Nothing changes unless the identifier of an execution was drawn. -/
theorem afterDraw_cases (id : Uuid) (stage : FireStage) :
    stage.afterDraw id = stage ∨ ∃ d, stage = checked d ∧ stage.afterDraw id = drawn d id := by
  cases stage with
  | checked d => exact .inr ⟨d, rfl, rfl⟩
  | _ => exact .inl rfl

theorem afterRead_cases (x : Uuid) (stage : FireStage) :
    stage.afterRead x = stage ∨ ∃ d, stage = written d x ∧ stage.afterRead x = linked d x := by
  cases stage with
  | written d id =>
    by_cases hx : x = id
    · subst hx
      exact .inr ⟨d, rfl, if_pos rfl⟩
    · exact .inl (if_neg hx)
  | _ => exact .inl rfl

end FireStage

variable {d : ScheduleDefinition} {e : Execution}

/-- The identifier of an execution that may be written is the writer's; what it owns
afterwards it owned before. -/
theorem FirePhase.MayWrite.afterWrite_cases {φ : FirePhase} (h : φ.MayWrite d e) :
    (φ.stage = .drawn d e.id ∧ e.status = .created ∧ φ.stage.afterWrite = .written d e.id) ∨
      (φ.stage = .linked d e.id ∧ φ.stage.afterWrite = .loaded d) := by
  rcases h.2 with ⟨hstage, hcreated, -⟩ | hstage
  · exact .inl ⟨hstage, hcreated, by rw [hstage]; rfl⟩
  · exact .inr ⟨hstage, by rw [hstage]; rfl⟩

theorem FirePhase.MayWrite.owned {φ : FirePhase} (h : φ.MayWrite d e) :
    φ.stage.owned = some e.id := by
  rcases h.2 with ⟨hstage, -⟩ | hstage <;> rw [hstage] <;> rfl

/-! ### Ownership -/

/-- One schedule at most created an execution. -/
theorem isOfSchedule_unique {scheduleId scheduleId' : String} (h : isOfSchedule scheduleId e)
    (h' : isOfSchedule scheduleId' e) : scheduleId = scheduleId' :=
  Option.some.inj ((of_decide_eq_true h).symm.trans (of_decide_eq_true h'))

section Ownership

variable {env : Environment} {keeps : ScheduleDefinition → Prop}

/-- No execution has an identifier that is still to be drawn. -/
def UndrawnVacant (env : Environment) (w : World) : Prop :=
  ∀ n, w.uuidsDrawn ≤ n → w.db.executions.get (env.uuid n) = none

/-- What the executions have to do with a process. -/
structure FireOwner (env : Environment) (keeps : ScheduleDefinition → Prop) (w : World)
    (φ : FirePhase) : Prop where
  drawn : ∀ id, φ.stage.owned = some id → ∃ n < w.uuidsDrawn, env.uuid n = id
  vacant : ∀ d id, φ.stage = .drawn d id → w.db.executions.get id = none
  triggers : ∀ d id e, φ.stage = .written d id ∨ φ.stage = .linked d id →
    w.db.executions.get id = some e → φ.Triggers d e
  stored : ∀ d id, φ.stage = .linked d id → (w.db.executions.get id).isSome
  kept : ∀ d, φ.stage.schedule = some d → keeps d

/-- Two processes own different executions. -/
def FirePhase.Apart (φ ψ : FirePhase) : Prop :=
  ∀ id, φ.stage.owned = some id → ψ.stage.owned ≠ some id

theorem FirePhase.Apart.symm {φ ψ : FirePhase} (h : φ.Apart ψ) : ψ.Apart φ :=
  fun id hψ hφ => h id hφ hψ

/-- Only the clock was read and identifiers were drawn. -/
structure Ticks (w w' : World) : Prop where
  executions : w'.db.executions = w.db.executions
  clockReads : w.clockReads ≤ w'.clockReads
  uuidsDrawn : w.uuidsDrawn ≤ w'.uuidsDrawn

theorem Ticks.refl (w : World) : Ticks w w := ⟨rfl, le_rfl, le_rfl⟩

variable {o : RuntimeOp}

theorem ticks_handler {w : World} (ho : ∀ e, o ≠ .db (.updateExecution e)) :
    Ticks w (handler env o w).2 := by
  cases o with
  | db q => exact ⟨DbOp.exec_executions (fun e h => ho e (congrArg _ h)) _, le_rfl, le_rfl⟩
  | proc q => exact ⟨rfl, le_rfl, le_rfl⟩
  | ext q => exact ⟨rfl, le_rfl, le_rfl⟩
  | utcNow => exact ⟨rfl, Nat.le_succ _, le_rfl⟩
  | uuid4 => exact ⟨rfl, le_rfl, Nat.le_succ _⟩

variable {w w' : World} {φ φ' ψ : FirePhase}

namespace FireOwner

theorem of_ticks (h : FireOwner env keeps w φ) (ht : Ticks w w') : FireOwner env keeps w' φ where
  drawn id hid := by
    obtain ⟨n, hn, hu⟩ := h.drawn id hid
    exact ⟨n, lt_of_lt_of_le hn ht.uuidsDrawn, hu⟩
  vacant d id hd := by
    rw [ht.executions]
    exact h.vacant d id hd
  triggers d id e hd he := by
    rw [ht.executions] at he
    exact h.triggers d id e hd he
  stored d id hd := by
    rw [ht.executions]
    exact h.stored d id hd
  kept := h.kept

/-- A process that owns nothing. -/
theorem unowned (howned : φ.stage.owned = none) (hkept : ∀ d, φ.stage.schedule = some d → keeps d) :
    FireOwner env keeps w φ where
  drawn id hid := nomatch howned.symm.trans hid
  vacant d id hd := by
    rw [hd] at howned
    cases howned
  triggers d id e hd := by
    rcases hd with hd | hd
    · rw [hd] at howned
      cases howned
    · rw [hd] at howned
      cases howned
  stored d id hd := by
    rw [hd] at howned
    cases howned
  kept := hkept

/-- The clock and the claim play no role. -/
theorem same (h : FireOwner env keeps w φ) (hφ : φ.Same φ') : FireOwner env keeps w φ' where
  drawn id hid := h.drawn id (hφ.stage ▸ hid)
  vacant d id hd := h.vacant d id (hφ.stage.symm.trans hd)
  triggers d id e hd he := by
    rw [hφ.stage] at hd
    exact (h.triggers d id e hd he).congr hφ.lease rfl
  stored d id hd := h.stored d id (hφ.stage.symm.trans hd)
  kept d hd := h.kept d (hφ.stage ▸ hd)

theorem afterListing (h : FireOwner env keeps w φ) (active : List Execution) :
    FireOwner env keeps w { φ with stage := φ.stage.afterListing active } := by
  rcases φ.stage.afterListing_cases active with hsame | ⟨d, hloaded, hchecked, -⟩
  · rw [hsame]
    exact h
  · rw [hchecked]
    exact unowned rfl fun d' hd' => h.kept d' (by rw [hloaded]; exact hd')

theorem afterDraw (h : FireOwner env keeps w φ) {id : Uuid}
    (hdrawn : ∃ n < w.uuidsDrawn, env.uuid n = id) (hvacant : w.db.executions.get id = none) :
    FireOwner env keeps w { φ with stage := φ.stage.afterDraw id } := by
  rcases φ.stage.afterDraw_cases id with hsame | ⟨d, hchecked, hdraw⟩
  · rw [hsame]
    exact h
  · rw [hdraw]
    exact {
      drawn := fun id' hid => by
        obtain rfl : id = id' := Option.some.inj hid
        exact hdrawn
      vacant := fun d' id' hd => by
        obtain ⟨-, rfl⟩ : d = d' ∧ id = id' := FireStage.drawn.inj hd
        exact hvacant
      triggers := fun _ _ _ hd => by rcases hd with hd | hd <;> cases hd
      stored := fun _ _ hd => nomatch hd
      kept := fun d' hd' => h.kept d' (by rw [hchecked]; exact hd') }

/-- The execution that a process reads back is the one it wrote. -/
theorem afterRead (h : FireOwner env keeps w φ) {x : Uuid} (hrow : w.db.executions.get x = some e) :
    FireOwner env keeps w { φ with stage := φ.stage.afterRead x } := by
  rcases φ.stage.afterRead_cases x with hsame | ⟨d, hwritten, hlinked⟩
  · rw [hsame]
    exact h
  · rw [hlinked]
    exact {
      drawn := fun id hid => by
        obtain rfl : x = id := Option.some.inj hid
        exact h.drawn x (by rw [hwritten]; rfl)
      vacant := fun _ _ hd => nomatch hd
      triggers := fun d' id e' hd he' => by
        obtain ⟨rfl, rfl⟩ : d = d' ∧ x = id := by
          rcases hd with hd | hd
          · cases hd
          · exact FireStage.linked.inj hd
        exact (h.triggers d x e' (.inl hwritten) he').congr rfl rfl
      stored := fun d' id hd => by
        obtain ⟨rfl, rfl⟩ : d = d' ∧ x = id := FireStage.linked.inj hd
        exact Option.isSome_of_eq_some hrow
      kept := fun d' hd' => h.kept d' (by rw [hwritten]; exact hd') }

end FireOwner

/-! ### Steps -/

/-- What a step of one process, from the phase `φ` to `φ'`, leaves of ownership. -/
structure OwnerStep (env : Environment) (keeps : ScheduleDefinition → Prop) (w w' : World)
    (φ φ' : FirePhase) : Prop where
  vacant : UndrawnVacant env w'
  owner : FireOwner env keeps w' φ'
  others : ∀ ψ, FireOwner env keeps w ψ → φ.Apart ψ → FireOwner env keeps w' ψ ∧ φ'.Apart ψ

/-- A step that writes no execution: what is owned now was owned before, or is new. -/
theorem OwnerStep.of_ticks (h : UndrawnVacant env w) (ht : Ticks w w')
    (howner : FireOwner env keeps w' φ')
    (howned : ∀ id, φ'.stage.owned = some id →
      φ.stage.owned = some id ∨ ∀ n < w.uuidsDrawn, env.uuid n ≠ id) :
    OwnerStep env keeps w w' φ φ' where
  vacant n hn := by
    rw [ht.executions]
    exact h n (ht.uuidsDrawn.trans hn)
  owner := howner
  others ψ hψ hapart := by
    refine ⟨hψ.of_ticks ht, fun id hφ hψid => ?_⟩
    rcases howned id hφ with hid | hid
    · exact hapart id hid hψid
    · obtain ⟨n, hn, hu⟩ := hψ.drawn id hψid
      exact hid n hn hu

/-- A step that leaves the stage alone. -/
theorem OwnerStep.same (h : UndrawnVacant env w) (howner : FireOwner env keeps w φ)
    (ht : Ticks w w') (hφ : φ.Same φ') : OwnerStep env keeps w w' φ φ' :=
  .of_ticks h ht ((howner.of_ticks ht).same hφ) fun _ hid => .inl (hφ.stage ▸ hid)

/-- Writing an execution, with its effect or without. -/
theorem ownerStep_write (h : UndrawnVacant env w) (howner : FireOwner env keeps w φ)
    (hwrite : φ.MayWrite d e)
    (hw' : w' = w ∨ w' = { w with db.executions := w.db.executions.save e }) :
    OwnerStep env keeps w w' φ { φ with wrote := true, stage := φ.stage.afterWrite } := by
  have hdrawn := howner.drawn e.id hwrite.owned
  have hget : ∀ {id : Uuid}, id ≠ e.id → w'.db.executions.get id = w.db.executions.get id := by
    intro id hne
    rcases hw' with rfl | rfl
    · rfl
    · exact Table.get_save_ne hne
  have huuids : w'.uuidsDrawn = w.uuidsDrawn := by rcases hw' with rfl | rfl <;> rfl
  have howned : ∀ id, φ.stage.afterWrite.owned = some id → φ.stage.owned = some id := by
    intro id hid
    rcases hwrite.afterWrite_cases with ⟨hstage, -, hafter⟩ | ⟨-, hafter⟩
    · rw [hafter] at hid
      rw [hstage]
      exact hid
    · exact nomatch (congrArg FireStage.owned hafter).symm.trans hid
  refine ⟨fun n hn => ?_, ?_, fun ψ hψ hapart => ⟨?_, fun id hid => hapart id (howned id hid)⟩⟩
  · rw [huuids] at hn
    rw [hget]
    · exact h n hn
    · intro he
      obtain ⟨m, hm, hu⟩ := hdrawn
      have := env.uuid_injective (hu.trans he.symm)
      omega
  · rcases hwrite.afterWrite_cases with ⟨hstage, -, hafter⟩ | ⟨hstage, hafter⟩
    · rw [hafter]
      exact {
        drawn := fun id hid => by
          rw [huuids]
          exact howner.drawn id (howned id (by rw [hafter]; exact hid))
        vacant := fun _ _ hd => nomatch hd
        triggers := fun d' id e₁ hd he₁ => by
          obtain ⟨rfl, rfl⟩ : d = d' ∧ e.id = id := by
            rcases hd with hd | hd
            · exact FireStage.written.inj hd
            · cases hd
          rcases hw' with rfl | rfl
          · -- the write failed before its effect, and there was nothing before
            exact nomatch (howner.vacant d e.id hstage).symm.trans he₁
          · obtain rfl := Option.some.inj ((Table.get_save_self _ e).symm.trans he₁)
            exact hwrite.1.congr rfl rfl
        stored := fun _ _ hd => nomatch hd
        kept := fun d' hd' => howner.kept d' (by rw [hstage]; exact hd') }
    · rw [hafter]
      exact .unowned rfl fun d' hd' => howner.kept d' (by rw [hstage]; exact hd')
  · have hne : ∀ {id : Uuid}, ψ.stage.owned = some id → id ≠ e.id := by
      rintro id hid rfl
      exact hapart _ hwrite.owned hid
    exact {
      drawn := fun id hid => by
        rw [huuids]
        exact hψ.drawn id hid
      vacant := fun d' id hd => by
        rw [hget (hne (by rw [hd]; rfl))]
        exact hψ.vacant d' id hd
      triggers := fun d' id e₁ hd he₁ => by
        rw [hget (hne (by rcases hd with hd | hd <;> rw [hd] <;> rfl))] at he₁
        exact hψ.triggers d' id e₁ hd he₁
      stored := fun d' id hd => by
        rw [hget (hne (by rw [hd]; rfl))]
        exact hψ.stored d' id hd
      kept := hψ.kept }

variable {touches : String → Prop} {cfg : SchedulerConfig}

/-- A failure leaves the phase alone, unless it was that of a write. -/
theorem FirePhase.afterRuntime_error (ho : ∀ e, o ≠ .db (.updateExecution e))
    (exc : RuntimeException) : φ.afterRuntime o (.error exc) = φ := by
  rcases o with q | q | q | - | -
  · cases q with
    | updateExecution e => exact absurd rfl (ho e)
    | _ => rfl
  all_goals rfl

/-- A step of the runtime. -/
theorem ownerStep_runtime (h : UndrawnVacant env w) (howner : FireOwner env keeps w φ)
    (hallowed : φ.allowsRuntime touches o) {r : Except RuntimeException o.Ret}
    (hout : Outcome (handler env o w).1 w (handler env o w).2 r w') :
    φ.expects keeps (.inl o) r ∧ OwnerStep env keeps w w' φ (φ.afterRuntime o r) := by
  by_cases hwrites : ∃ e, o = .db (.updateExecution e)
  · obtain ⟨e, rfl⟩ := hwrites
    obtain ⟨d, -, hwrite⟩ := hallowed
    have hstep := ownerStep_write h howner hwrite hout.state
    refine ⟨trivial, ?_⟩
    rcases r with exc | _ <;> exact hstep
  have hwrites : ∀ e, o ≠ .db (.updateExecution e) := fun e he => hwrites ⟨e, he⟩
  have ht : Ticks w w' := by
    rcases hout.state with rfl | rfl
    · exact .refl w'
    · exact ticks_handler hwrites
  rcases r with exc | a
  · rw [FirePhase.afterRuntime_error hwrites]
    refine ⟨?_, .same h howner ht (.refl φ)⟩
    rcases o with q | q | q | - | -
    · cases q <;> trivial
    all_goals trivial
  obtain ⟨rfl, rfl⟩ := hout.ok
  have howner' := howner.of_ticks ht
  rcases o with q | q | q | - | -
  · cases q with
    | updateExecution e => exact absurd rfl (hwrites e)
    | getExecution x =>
      rcases hrow : w.db.executions.get x with - | e
      · have hanswer : (handler env (.db (.getExecution x)) w).1 = none := hrow
        rw [hanswer]
        exact ⟨trivial, .same h howner ht (.refl φ)⟩
      · have hanswer : (handler env (.db (.getExecution x)) w).1 = some e := hrow
        rw [hanswer]
        refine ⟨fun d hd => ⟨Table.key_of_get hrow, ?_⟩, .of_ticks h ht ?_ fun id hid => .inl ?_⟩
        · exact howner.triggers d x e (.inl hd) hrow
        · exact howner'.afterRead (e := e) hrow
        · -- nothing else is owned after the execution was read back
          have hafter : (φ.stage.afterRead x).owned = some id := hid
          rcases φ.stage.afterRead_cases x with hsame | ⟨d, hwritten, hlinked⟩
          · rw [hsame] at hafter
            exact hafter
          · rw [hlinked] at hafter
            rw [hwritten]
            exact hafter
    | listExecutions p =>
      refine ⟨trivial, .of_ticks h ht (howner'.afterListing _) fun id hid => .inl ?_⟩
      have hafter : (φ.stage.afterListing (handler env (.db (.listExecutions p)) w).1).owned
          = some id := hid
      rcases φ.stage.afterListing_cases (handler env (.db (.listExecutions p)) w).1 with
        hsame | ⟨d, -, hchecked, -⟩
      · rw [hsame] at hafter
        exact hafter
      · exact nomatch (congrArg FireStage.owned hchecked).symm.trans hafter
    | _ => exact ⟨trivial, .same h howner ht (.refl φ)⟩
  · exact ⟨trivial, .same h howner ht (.refl φ)⟩
  · cases hallowed
  · exact ⟨trivial, .same h howner ht ⟨rfl, rfl, rfl⟩⟩
  · -- a fresh identifier
    have hnew : ∃ n < w.uuidsDrawn + 1, env.uuid n = env.uuid w.uuidsDrawn :=
      ⟨w.uuidsDrawn, Nat.lt_succ_self _, rfl⟩
    refine ⟨trivial, .of_ticks h ht (howner'.afterDraw hnew (h w.uuidsDrawn le_rfl)) ?_⟩
    intro id hid
    have hafter : (φ.stage.afterDraw (env.uuid w.uuidsDrawn)).owned = some id := hid
    rcases φ.stage.afterDraw_cases (env.uuid w.uuidsDrawn) with hsame | ⟨d, -, hdraw⟩
    · rw [hsame] at hafter
      exact .inl hafter
    · rw [hdraw] at hafter
      refine .inr fun n hn hu => ?_
      have := env.uuid_injective (hu.trans (Option.some.inj hafter).symm)
      omega

/-! ### The repositories -/

/-- What rows of schedules keep to. -/
def SchedulesKept (keeps : ScheduleDefinition → Prop) (s : ScheduleStore) : Prop :=
  ∀ id d, s.schedules.get id = some d → keeps d

theorem schedulesKept_put {s : ScheduleStore} (h : SchedulesKept keeps s) (hd : keeps d) :
    SchedulesKept keeps { s with schedules := s.schedules.put d } := by
  intro id d' hget
  rw [Catalog.get_put] at hget
  split at hget
  · obtain rfl := Option.some.inj hget
    exact hd
  · exact h id d' hget

variable {wake : ℕ → Except RuntimeException Unit} {s s' : ScheduleStore}

theorem schedulesKept_exec {o : ScheduleOp} (h : SchedulesKept keeps s)
    (hallowed : φ.allowsSchedules touches keeps cfg o) : SchedulesKept keeps (o.exec wake s).2 := by
  cases o with
  | createSchedule repository d =>
    simp only [exec]
    split
    · exact h
    · exact schedulesKept_put h hallowed.2
  | saveSchedule d => exact schedulesKept_put h hallowed.2
  | listSchedules repository => cases repository <;> exact h
  | insertFireClaim c =>
    simp only [exec]
    split <;> exact h
  | acquireFireClaim c now =>
    simp only [exec]
    split <;> exact h
  | _ => exact h

/-- A step on the repositories: a process that loads a schedule, acquires a claim or gives
it up owns nothing, every other operation leaves it where it is. -/
theorem ownerStep_schedules {w : World} {o : ScheduleOp} (h : UndrawnVacant env w)
    (hkept : SchedulesKept keeps s) (howner : FireOwner env keeps w φ)
    {r : Except RuntimeException o.Ret}
    (hout : Outcome (o.exec wake s).1 s (o.exec wake s).2 r s') :
    φ.expects keeps (.inr o) r ∧ OwnerStep env keeps w w φ (φ.afterSchedules o r) := by
  have hsame : OwnerStep env keeps w w φ φ := .same h howner (.refl w) (.refl φ)
  have hidle : ∀ φ' : FirePhase, φ'.stage = .idle → OwnerStep env keeps w w φ φ' := by
    intro φ' hφ'
    have hnone : φ'.stage.owned = none := by
      rw [hφ']
      rfl
    refine .of_ticks h (.refl w) (.unowned hnone ?_) fun id hid => nomatch hnone.symm.trans hid
    intro d hd
    rw [hφ'] at hd
    cases hd
  cases o with
  | getSchedule id =>
    rcases r with e | d
    · exact ⟨trivial, hsame⟩
    · obtain ⟨rfl, -⟩ := hout.ok
      rcases hget : s.schedules.get id with - | d
      · have hanswer : ((getSchedule id).exec wake s).1 = none := hget
        rw [hanswer]
        exact ⟨trivial, hsame⟩
      · have hanswer : ((getSchedule id).exec wake s).1 = some d := hget
        rw [hanswer]
        refine ⟨⟨Catalog.key_of_get (c := s.schedules) hget, hkept id d hget⟩, ?_⟩
        refine .of_ticks h (.refl w) (.unowned rfl fun d' hd' => ?_) fun _ hid => nomatch hid
        obtain rfl : d = d' := Option.some.inj hd'
        exact hkept id d hget
  | insertFireClaim c =>
    rcases r with e | - | -
    · exact ⟨trivial, hsame⟩
    · exact ⟨trivial, hsame⟩
    · exact ⟨trivial, hidle _ rfl⟩
  | takeOverFireClaim scheduleId fireAt claimedBy now leaseExpiresAt =>
    rcases r with e | - | -
    · exact ⟨trivial, hsame⟩
    · exact ⟨trivial, hsame⟩
    · exact ⟨trivial, hidle _ rfl⟩
  | acquireFireClaim c now =>
    rcases r with e | - | -
    · exact ⟨trivial, hsame⟩
    · exact ⟨trivial, hsame⟩
    · exact ⟨trivial, hidle _ rfl⟩
  | markFireClaim repository scheduleId fireAt claimedBy executionId now =>
    rcases r with e | -
    · exact ⟨trivial, hidle _ rfl⟩
    · exact ⟨trivial, hidle _ rfl⟩
  | _ =>
    rcases r with e | a
    · exact ⟨trivial, hsame⟩
    · exact ⟨trivial, hsame⟩

/-! ### Pools of schedulers -/

variable {L : Type}

/-- No execution is written by two processes, and schedules keep to `keeps`. -/
abbrev Ownership (env : Environment) (keeps : ScheduleDefinition → Prop) (L : Type) :
    SchedulerState × ℕ → List (L × Option FirePhase) → Prop :=
  Pool.Joint (fun s => UndrawnVacant env s.1.1 ∧ SchedulesKept keeps s.1.2)
    (fun s _ φ => FireOwner env keeps s.1.1 φ) fun _ φ ψ => φ.Apart ψ

theorem FireOwner.start (env : Environment) (keeps : ScheduleDefinition → Prop) (w : World) :
    FireOwner env keeps w {} := .unowned rfl fun _ hd => nomatch hd

theorem FirePhase.Apart.start (ψ : FirePhase) : FirePhase.Apart {} ψ := fun _ hid => nomatch hid

variable {ps : List (L × Option FirePhase)}

theorem Ownership.start {s : SchedulerState × ℕ} (h : Ownership env keeps L s ps) (l : L) :
    Ownership env keeps L s (ps ++ [(l, some ({} : FirePhase))]) :=
  Pool.Joint.start h (.start env keeps s.1.1) fun ψ => ⟨.start ψ, (FirePhase.Apart.start ψ).symm⟩

/-- **Ownership is kept by every allowed operation**, whether it fails or not, and gets the
answers the protocol expects. -/
theorem Ownership.step {faults : ℕ → Fault RuntimeException} {s : SchedulerState × ℕ} {i : ℕ}
    {l : L} {o : SchedulerOps.Op} (h : Ownership env keeps L s ps) (hi : ps[i]? = some (l, some φ))
    (hallowed : (fireProtocol touches keeps).allowed cfg φ o) :
    φ.expects keeps o ((schedulerOpsHandler env wake).faulty faults o s).1 ∧
      Ownership env keeps L ((schedulerOpsHandler env wake).faulty faults o s).2
        (ps.set i (l, some (φ.next ⟨o, ((schedulerOpsHandler env wake).faulty faults o s).1⟩))) := by
  have hout := Outcome.of_faulty (schedulerOpsHandler env wake) faults o s
  obtain ⟨hvacant, hkept⟩ := h.shared
  have howner := h.one i l φ hi
  have hstep : φ.expects keeps o ((schedulerOpsHandler env wake).faulty faults o s).1 ∧
      OwnerStep env keeps s.1.1 ((schedulerOpsHandler env wake).faulty faults o s).2.1.1 φ
        (φ.next ⟨o, ((schedulerOpsHandler env wake).faulty faults o s).1⟩) ∧
      SchedulesKept keeps ((schedulerOpsHandler env wake).faulty faults o s).2.1.2 := by
    rcases o with o | o
    · have hruntime : φ.allowsRuntime touches o := hallowed
      obtain ⟨hexpects, hstep⟩ := ownerStep_runtime hvacant howner hruntime (hout.map Prod.fst)
      refine ⟨hexpects, hstep, ?_⟩
      rcases hout.state with hs | hs
      · rw [hs]
        exact hkept
      · rw [hs]
        exact hkept
    · have hschedules : φ.allowsSchedules touches keeps cfg o := hallowed
      obtain ⟨hexpects, hstep⟩ := ownerStep_schedules hvacant hkept howner (hout.map Prod.snd)
      refine ⟨hexpects, ?_, ?_⟩
      · rcases hout.state with hs | hs
        · rw [hs]
          exact hstep
        · rw [hs]
          exact hstep
      · rcases hout.state with hs | hs
        · rw [hs]
          exact hkept
        · rw [hs]
          exact schedulesKept_exec hkept hschedules
  obtain ⟨hexpects, hstep, hkept'⟩ := hstep
  refine ⟨hexpects, Pool.Joint.step h hi ⟨hstep.vacant, hkept'⟩ hstep.owner ?_ fun _ _ h => h⟩
  intro _ _ ψ _ _ hψ hapart _
  obtain ⟨hψ', hapart'⟩ := hstep.others ψ hψ hapart
  exact ⟨hψ', hapart', hapart'.symm⟩

end Ownership

/-! ### One schedule -/

namespace EveryMinute

def registry : RegistryConfig where
  engine := { EngineConfig.bare with
    workflow := fun _ => some { id := "w", name := "w", entrypoint := "n" } }

def config (schedulerId : String) : SchedulerConfig :=
  { registry := registry, schedulerId := schedulerId }

/-- A schedule that is due at the first instant. -/
def schedule : ScheduleDefinition where
  id := "s"
  name := "every minute"
  workflowId := "w"
  triggerType := .interval
  triggerConfig := [("interval_seconds", .num 60)]
  nextFireAt := some (0 : Time)
  valid := by rfl

def state : SchedulerState := ({}, { schedules := Catalog.empty.put schedule })

theorem undrawnVacant : UndrawnVacant .silent state.1 := fun _ _ => rfl

end EveryMinute

end OpenAgency
