/-
ScheduleFires.lean

One execution for each fire of a schedule, with any number of schedulers over one SQL
repository and any of their steps failing.

A scheduler that acquired a claim holds it until its lease is over.  As long as the
leases of two processes run, they are for different fires; while the lease of a process
runs the claim's row has its lease, and until the process writes an execution there is
none for the fire.  Claims are never deleted, so an execution of a fire always has a row,
and only taking the row over lets another process fire again.
-/
import OpenAgency.FireOwnership

namespace OpenAgency

open Relational Interaction Table ScheduleOp ScheduleFireClaim

/-! ### Fires -/

theorem isoformat_injective : Function.Injective isoformat := by
  intro t t' h
  have hdigits : Nat.toDigits 10 t = Nat.toDigits 10 t' := by
    have hlist := congrArg String.toList h
    simpa [isoformat, Nat.repr] using hlist
  rw [← Nat.ofDigitChars_ten_toDigits (n := t), hdigits, Nat.ofDigitChars_ten_toDigits]

variable {scheduleId : String}

variable {d : ScheduleDefinition} {fireAt : Time} {e : Execution}

/-- The fire of a process that holds a claim is what its executions are created for. -/
theorem FirePhase.Triggers.firesFor_iff {φ : FirePhase} (h : φ.Triggers d e) :
    FiresFor e scheduleId fireAt ↔
      ∃ lease, φ.lease = some lease ∧ lease.scheduleId = scheduleId ∧ lease.fireAt = fireAt := by
  constructor
  · intro hfires
    have hat := h.fireAt.symm.trans hfires.2
    obtain ⟨lease, hlease, hiso⟩ := Option.map_eq_some_iff.mp hat
    refine ⟨lease, hlease, ?_, isoformat_injective hiso⟩
    have hid := (of_decide_eq_true h.ofSchedule).symm.trans (of_decide_eq_true hfires.1)
    exact (h.lease lease hlease).trans (Option.some.inj hid)
  · rintro ⟨lease, hlease, rfl, rfl⟩
    refine ⟨?_, ?_⟩
    · rw [h.lease lease hlease]
      exact h.ofSchedule
    · rw [h.fireAt, hlease]
      rfl

/-- The executions that were created for a fire. -/
def firedExecutions (w : World) (scheduleId : String) (fireAt : Time) : List Execution :=
  w.db.executions.select fun e => FiresFor e scheduleId fireAt

theorem mem_firedExecutions {w : World} :
    e ∈ firedExecutions w scheduleId fireAt ↔
      w.db.executions.get e.id = some e ∧ FiresFor e scheduleId fireAt := by
  rw [firedExecutions, mem_select, decide_eq_true_iff]

/-! ### Conditions on a run -/

namespace FireLease

def key (lease : FireLease) : String × Time := (lease.scheduleId, lease.fireAt)

/-- No reading of the clock has come to the end of the lease. -/
def runs (env : Environment) (w : World) (lease : FireLease) : Bool :=
  (List.range w.clockReads).all fun n => env.clock n < lease.expiresAt

theorem runs_iff {env : Environment} {w : World} {lease : FireLease} :
    lease.runs env w ↔ ∀ n < w.clockReads, env.clock n < lease.expiresAt := by
  simp [runs]

/-- A lease that runs ran before. -/
theorem runs_of_le {env : Environment} {w w' : World} {lease : FireLease}
    (hle : w.clockReads ≤ w'.clockReads) (h : lease.runs env w') : lease.runs env w :=
  runs_iff.mpr fun n hn => runs_iff.mp h n (lt_of_lt_of_le hn hle)

end FireLease

/-- No fire takes longer than its lease: a process writes an execution, or marks its claim,
while the lease of its claim runs. -/
def KeepsLease (env : Environment) (s : SchedulerState)
    (ps : List (SchedulerConfig × Option FirePhase)) (i : ℕ) : SchedulerOps.Op → Bool
  | .inl (.db (.updateExecution _)) | .inr (.markFireClaim _ _ _ _ _ _) =>
    match ps[i]? with
    | some (_, some φ) => φ.lease.all fun lease => lease.runs env s.1
    | _ => true
  | _ => true

/-- A claim is only taken over while there is no execution of its fire. -/
def TakesOverUnfired (s : SchedulerState) : SchedulerOps.Op → Bool
  | .inr (.takeOverFireClaim scheduleId fireAt _ now _) =>
    !(s.2.claims.get (scheduleId, fireAt)).any (·.isExpired now) ||
      (firedExecutions s.1 scheduleId fireAt).isEmpty
  | _ => true

/-! ### Invariants -/

variable {env : Environment} {wake : ℕ → Except RuntimeException Unit}

/-- Each fire has one execution at most, and a claim if it has one. -/
structure FireRecords (s : SchedulerState) : Prop where
  unique : ∀ scheduleId fireAt, ∀ e ∈ firedExecutions s.1 scheduleId fireAt,
    ∀ e' ∈ firedExecutions s.1 scheduleId fireAt, e.id = e'.id
  claimed : ∀ scheduleId fireAt, ∀ e ∈ firedExecutions s.1 scheduleId fireAt,
    (s.2.claims.get (scheduleId, fireAt)).isSome

/-- What clock and claims have to do with a process that is firing. -/
structure FireHolder (env : Environment) (s : SchedulerState) (φ : FirePhase) : Prop where
  reading : ∀ t, φ.reading = some t → ∃ n < s.1.clockReads, env.clock n = t
  row : ∀ lease, φ.lease = some lease → lease.runs env s.1 →
    ∃ row, s.2.claims.get lease.key = some row ∧ row.leaseExpiresAt = lease.expiresAt
  unfired : ∀ lease, φ.lease = some lease → φ.wrote = false → lease.runs env s.1 →
    firedExecutions s.1 lease.scheduleId lease.fireAt = []

/-- While the leases of two processes run, they are for different fires. -/
def FirePair (env : Environment) (s : SchedulerState) (φ ψ : FirePhase) : Prop :=
  ∀ lease lease', φ.lease = some lease → ψ.lease = some lease' →
    lease.runs env s.1 → lease'.runs env s.1 → lease.key ≠ lease'.key

variable {s s' : SchedulerState} {φ φ' ψ : FirePhase}

theorem FirePair.symm (h : FirePair env s φ ψ) : FirePair env s ψ φ :=
  fun lease lease' hl hl' hr hr' e => h lease' lease hl' hl hr' hr e.symm

theorem FirePair.mono (h : FirePair env s φ ψ) (hle : s.1.clockReads ≤ s'.1.clockReads)
    (hlease : φ'.lease = φ.lease) : FirePair env s' φ' ψ :=
  fun lease lease' hl hl' hr hr' => h lease lease' (hlease.symm.trans hl) hl'
    (FireLease.runs_of_le hle hr) (FireLease.runs_of_le hle hr')

/-- What a step of one process, from the phase `φ` to `φ'`, leaves of the invariants. -/
structure FireStep (env : Environment) (s s' : SchedulerState) (φ φ' : FirePhase) : Prop where
  records : FireRecords s'
  holder : FireHolder env s' φ'
  others : ∀ ψ, FireHolder env s ψ → FirePair env s φ ψ → FireHolder env s' ψ ∧ FirePair env s' φ' ψ
  clockReads : s.1.clockReads ≤ s'.1.clockReads

/-! ### Steps that write neither executions nor claims -/

theorem firedExecutions_of_ticks (ht : Ticks s.1 s'.1) (scheduleId : String) (fireAt : Time) :
    firedExecutions s'.1 scheduleId fireAt = firedExecutions s.1 scheduleId fireAt := by
  unfold firedExecutions
  rw [ht.executions]

theorem FireHolder.of_ticks (h : FireHolder env s φ) (ht : Ticks s.1 s'.1)
    (hclaims : s'.2.claims = s.2.claims) (hlease : φ'.lease = φ.lease) (hwrote : φ'.wrote = φ.wrote)
    (hreading : ∀ t, φ'.reading = some t →
      φ.reading = some t ∨ ∃ n < s'.1.clockReads, env.clock n = t) : FireHolder env s' φ' where
  reading t hr := by
    rcases hreading t hr with hr | hr
    · obtain ⟨n, hn, hclock⟩ := h.reading t hr
      exact ⟨n, lt_of_lt_of_le hn ht.clockReads, hclock⟩
    · exact hr
  row lease hl hr := by
    rw [hclaims]
    exact h.row lease (hlease.symm.trans hl) (FireLease.runs_of_le ht.clockReads hr)
  unfired lease hl hw hr := by
    rw [firedExecutions_of_ticks ht]
    exact h.unfired lease (hlease.symm.trans hl) (hwrote.symm.trans hw)
      (FireLease.runs_of_le ht.clockReads hr)

/-- A step that writes neither executions nor claims. -/
theorem FireStep.of_ticks (h : FireRecords s) (hholder : FireHolder env s φ)
    (ht : Ticks s.1 s'.1) (hclaims : s'.2.claims = s.2.claims) (hlease : φ'.lease = φ.lease)
    (hwrote : φ'.wrote = φ.wrote)
    (hreading : ∀ t, φ'.reading = some t →
      φ.reading = some t ∨ ∃ n < s'.1.clockReads, env.clock n = t) :
    FireStep env s s' φ φ' where
  records := by
    refine ⟨fun scheduleId fireAt => ?_, fun scheduleId fireAt => ?_⟩
    · rw [firedExecutions_of_ticks ht]
      exact h.unique scheduleId fireAt
    · rw [firedExecutions_of_ticks ht, hclaims]
      exact h.claimed scheduleId fireAt
  holder := hholder.of_ticks ht hclaims hlease hwrote hreading
  others ψ hψ hpair :=
    ⟨hψ.of_ticks ht hclaims rfl rfl fun _ hr => .inl hr, hpair.mono ht.clockReads hlease⟩
  clockReads := ht.clockReads

/-- A step that leaves the clock alone too. -/
theorem FireStep.same (h : FireRecords s) (hholder : FireHolder env s φ) (ht : Ticks s.1 s'.1)
    (hclaims : s'.2.claims = s.2.claims) (hlease : φ'.lease = φ.lease)
    (hwrote : φ'.wrote = φ.wrote) (hreading : φ'.reading = φ.reading) : FireStep env s s' φ φ' :=
  .of_ticks h hholder ht hclaims hlease hwrote fun _ hr => .inl (hreading.symm.trans hr)

/-! ### Writing an execution -/

/-- The state after an execution was written. -/
def writeExecution (s : SchedulerState) (e : Execution) : SchedulerState :=
  ({ s.1 with db.executions := s.1.db.executions.save e }, s.2)

theorem mem_firedExecutions_write {e e' : Execution}
    (h : e' ∈ firedExecutions (writeExecution s e).1 scheduleId fireAt) :
    (e' = e ∧ FiresFor e scheduleId fireAt) ∨ e' ∈ firedExecutions s.1 scheduleId fireAt := by
  obtain ⟨hget, hfires⟩ := mem_firedExecutions.mp h
  rw [writeExecution, get_save] at hget
  split at hget
  · obtain rfl := Option.some.inj hget
    exact .inl ⟨rfl, hfires⟩
  · exact .inr (mem_firedExecutions.mpr ⟨hget, hfires⟩)

variable {keeps : ScheduleDefinition → Prop}

/-- An execution that a process in time may write for a fire is the fire's only one. -/
theorem FireHolder.eq_of_mayWrite (hholder : FireHolder env s φ)
    (howner : FireOwner env keeps s.1 φ) (hwrite : φ.MayWrite d e)
    (hkeeps : ∀ lease, φ.lease = some lease → lease.runs env s.1) (hrecords : FireRecords s)
    (hfires : FiresFor e scheduleId fireAt) :
    (∀ e' ∈ firedExecutions s.1 scheduleId fireAt, e'.id = e.id) ∧
      (s.2.claims.get (scheduleId, fireAt)).isSome := by
  obtain ⟨htriggers, hstage⟩ := hwrite
  obtain ⟨lease, hlease, rfl, rfl⟩ := htriggers.firesFor_iff.mp hfires
  rcases hstage with ⟨-, -, hunwritten⟩ | hlinked
  · -- the new execution: there is none for the fire yet
    have hwrote := hunwritten (by rw [hlease]; rfl)
    have hnone := hholder.unfired lease hlease hwrote (hkeeps lease hlease)
    obtain ⟨row, hrow, -⟩ := hholder.row lease hlease (hkeeps lease hlease)
    refine ⟨fun e' he' => ?_, ?_⟩
    · rw [hnone] at he'
      cases he'
    · exact Option.isSome_of_eq_some hrow
  · -- the execution read back: the row it overwrites is one of the fire
    obtain ⟨e₀, he₀⟩ := Option.isSome_iff_exists.mp (howner.stored d e.id hlinked)
    have hid : e₀.id = e.id := key_of_get he₀
    have hfires₀ : FiresFor e₀ lease.scheduleId lease.fireAt :=
      (howner.triggers d e.id e₀ (.inr hlinked) he₀).firesFor_iff.mpr ⟨lease, hlease, rfl, rfl⟩
    have hmem : e₀ ∈ firedExecutions s.1 lease.scheduleId lease.fireAt :=
      mem_firedExecutions.mpr ⟨by rw [hid]; exact he₀, hfires₀⟩
    refine ⟨fun e' he' => ?_, hrecords.claimed _ _ e₀ hmem⟩
    exact (hrecords.unique _ _ e' he' e₀ hmem).trans hid

/-- Writing an execution, with its effect or without. -/
theorem fireStep_write (h : FireRecords s) (hholder : FireHolder env s φ)
    (howner : FireOwner env keeps s.1 φ) (hwrite : φ.MayWrite d e)
    (hkeeps : ∀ lease, φ.lease = some lease → lease.runs env s.1)
    (hs' : s' = s ∨ s' = writeExecution s e) :
    FireStep env s s' φ { φ with wrote := true, stage := φ.stage.afterWrite } := by
  have hmem : ∀ {scheduleId : String} {fireAt : Time} {e' : Execution},
      e' ∈ firedExecutions s'.1 scheduleId fireAt →
        (e' = e ∧ FiresFor e scheduleId fireAt) ∨ e' ∈ firedExecutions s.1 scheduleId fireAt := by
    intro scheduleId fireAt e' he'
    rcases hs' with rfl | rfl
    · exact .inr he'
    · exact mem_firedExecutions_write he'
  have hsame : s'.2 = s.2 ∧ s'.1.clockReads = s.1.clockReads := by
    rcases hs' with rfl | rfl <;> exact ⟨rfl, rfl⟩
  obtain ⟨hclaims, hclock⟩ := hsame
  have hruns : ∀ {lease : FireLease}, lease.runs env s'.1 → lease.runs env s.1 :=
    fun hr => FireLease.runs_of_le hclock.ge hr
  refine ⟨⟨?_, ?_⟩, ⟨?_, ?_, ?_⟩, ?_, hclock.ge⟩
  · -- the written execution is the only one of its fire
    intro scheduleId fireAt e₁ he₁ e₂ he₂
    rcases hmem he₁ with ⟨rfl, hf₁⟩ | he₁
    · rcases hmem he₂ with ⟨rfl, -⟩ | he₂
      · rfl
      · exact ((hholder.eq_of_mayWrite howner hwrite hkeeps h hf₁).1 e₂ he₂).symm
    · rcases hmem he₂ with ⟨rfl, hf₂⟩ | he₂
      · exact (hholder.eq_of_mayWrite howner hwrite hkeeps h hf₂).1 e₁ he₁
      · exact h.unique scheduleId fireAt e₁ he₁ e₂ he₂
  · intro scheduleId fireAt e₁ he₁
    rw [hclaims]
    rcases hmem he₁ with ⟨rfl, hf₁⟩ | he₁
    · exact (hholder.eq_of_mayWrite howner hwrite hkeeps h hf₁).2
    · exact h.claimed scheduleId fireAt e₁ he₁
  · intro t ht
    rw [hclock]
    exact hholder.reading t ht
  · intro lease hl hr
    rw [hclaims]
    exact hholder.row lease hl (hruns hr)
  · exact fun lease _ hw => nomatch hw
  · intro ψ hψ hpair
    refine ⟨⟨fun t ht => ?_, fun lease hl hr => ?_, fun lease hl hw hr => ?_⟩, ?_⟩
    · rw [hclock]
      exact hψ.reading t ht
    · rw [hclaims]
      exact hψ.row lease hl (hruns hr)
    · have hnone := hψ.unfired lease hl hw (hruns hr)
      rw [List.eq_nil_iff_forall_not_mem]
      intro e₁ he₁
      rcases hmem he₁ with ⟨rfl, hf⟩ | he₁
      · -- the writer's fire is another one
        obtain ⟨lease', hl', hid, hat⟩ := hwrite.1.firesFor_iff.mp hf
        refine hpair lease' lease hl' hl (hkeeps lease' hl') (hruns hr) ?_
        rw [FireLease.key, FireLease.key, hid, hat]
      · rw [hnone] at he₁
        cases he₁
    · exact hpair.mono hclock.ge rfl

/-! ### Claims -/

/-- The state with other claims. -/
def withClaims (s : SchedulerState) (claims : Table key) : SchedulerState :=
  (s.1, { s.2 with claims := claims })

section Claims

variable {claims : Table key} {key : String × Time}
  (hothers : ∀ k, k ≠ key → claims.get k = s.2.claims.get k)

include hothers

theorem FireRecords.of_claims (h : FireRecords s)
    (hsome : (s.2.claims.get key).isSome → (claims.get key).isSome) :
    FireRecords (withClaims s claims) := by
  refine ⟨h.unique, fun scheduleId fireAt e he => ?_⟩
  have hclaimed := h.claimed scheduleId fireAt e he
  show (claims.get (scheduleId, fireAt)).isSome
  by_cases hkey : (scheduleId, fireAt) = key
  · rw [hkey] at hclaimed ⊢
    exact hsome hclaimed
  · rw [hothers _ hkey]
    exact hclaimed

/-- A process whose running lease is for another fire. -/
theorem FireHolder.of_claims (h : FireHolder env s φ)
    (hne : ∀ lease, φ.lease = some lease → lease.runs env s.1 → lease.key ≠ key) :
    FireHolder env (withClaims s claims) φ where
  reading := h.reading
  row lease hl hr := by
    show ∃ row, claims.get lease.key = some row ∧ _
    rw [hothers _ (hne lease hl hr)]
    exact h.row lease hl hr
  unfired := h.unfired

/-- A step on a claim that no running lease is for. -/
theorem fireStep_claims (h : FireRecords s) (hholder : FireHolder env s φ)
    (hne : ∀ ψ, FireHolder env s ψ → ∀ lease, ψ.lease = some lease → lease.runs env s.1 →
      lease.key ≠ key)
    (hsome : (s.2.claims.get key).isSome → (claims.get key).isSome) :
    FireStep env s (withClaims s claims) φ φ where
  records := h.of_claims hothers hsome
  holder := hholder.of_claims hothers (hne φ hholder)
  others ψ hψ hpair := ⟨hψ.of_claims hothers (hne ψ hψ), hpair.mono le_rfl rfl⟩
  clockReads := le_rfl

/-- Acquiring a claim that no running lease is for, of a fire without an execution. -/
theorem fireStep_acquire (h : FireRecords s) (hholder : FireHolder env s φ)
    {lease : FireLease} (hkey : lease.key = key)
    (hne : ∀ ψ, FireHolder env s ψ → ∀ lease, ψ.lease = some lease → lease.runs env s.1 →
      lease.key ≠ key)
    (hrow : ∃ row, claims.get key = some row ∧ row.leaseExpiresAt = lease.expiresAt)
    (hunfired : firedExecutions s.1 lease.scheduleId lease.fireAt = []) :
    FireStep env s (withClaims s claims) φ (φ.acquire lease) where
  records := by
    obtain ⟨row, hrow, -⟩ := hrow
    exact h.of_claims hothers fun _ => Option.isSome_of_eq_some hrow
  holder := {
    reading := hholder.reading
    row := fun lease' hl _ => by
      obtain rfl := Option.some.inj hl
      rw [hkey]
      exact hrow
    unfired := fun lease' hl _ _ => by
      obtain rfl := Option.some.inj hl
      exact hunfired }
  others ψ hψ hpair := by
    refine ⟨hψ.of_claims hothers (hne ψ hψ), fun lease₁ lease₂ hl₁ hl₂ _ hr₂ hkeys => ?_⟩
    obtain rfl := Option.some.inj hl₁
    exact hne ψ hψ lease₂ hl₂ hr₂ (hkeys.symm.trans hkey)
  clockReads := le_rfl

/-- Giving up the claim of a running lease, whatever becomes of it. -/
theorem fireStep_giveUp (h : FireRecords s) (hholder : FireHolder env s φ)
    {lease : FireLease} (hlease : φ.lease = some lease) (hkey : lease.key = key)
    (hruns : lease.runs env s.1)
    (hsome : (s.2.claims.get key).isSome → (claims.get key).isSome) :
    FireStep env s (withClaims s claims) φ φ.giveUp where
  records := h.of_claims hothers hsome
  holder := {
    reading := hholder.reading
    row := fun _ hl => nomatch hl
    unfired := fun _ hl => nomatch hl }
  others ψ hψ hpair := by
    refine ⟨hψ.of_claims hothers fun lease' hl' hr' hk => ?_, fun _ _ hl => nomatch hl⟩
    exact hpair lease lease' hlease hl' hruns hr' (hkey.trans hk.symm)
  clockReads := le_rfl

end Claims

/-! ### Every step -/

variable {touches : String → Prop} {keeps : ScheduleDefinition → Prop} {cfg : SchedulerConfig}

/-- A step of the runtime. -/
theorem fireStep_runtime {o : RuntimeOp} (h : FireRecords s) (hholder : FireHolder env s φ)
    (howner : FireOwner env keeps s.1 φ) (hallowed : φ.allowsRuntime touches o)
    (hkeeps : ∀ e, o = .db (.updateExecution e) →
      ∀ lease, φ.lease = some lease → lease.runs env s.1)
    {r : Except RuntimeException o.Ret}
    (hout : Outcome (handler env o s.1).1 s ((handler env o s.1).2, s.2) r s') :
    FireStep env s s' φ (φ.afterRuntime o r) := by
  by_cases hwrites : ∃ e, o = .db (.updateExecution e)
  · obtain ⟨e, rfl⟩ := hwrites
    obtain ⟨d, -, hwrite⟩ := hallowed
    have hstep := fireStep_write h hholder howner hwrite (hkeeps e rfl) hout.state
    rcases r with exc | _ <;> exact hstep
  have hwrites : ∀ e, o ≠ .db (.updateExecution e) := fun e he => hwrites ⟨e, he⟩
  obtain ⟨ht, hclaims⟩ : Ticks s.1 s'.1 ∧ s'.2.claims = s.2.claims := by
    rcases hout.state with rfl | rfl
    · exact ⟨.refl s'.1, rfl⟩
    · exact ⟨ticks_handler hwrites, rfl⟩
  rcases o with q | q | q | - | -
  · cases q with
    | updateExecution e => exact absurd rfl (hwrites e)
    | getExecution x =>
      rcases r with exc | - | e
      all_goals exact .same h hholder ht hclaims rfl rfl rfl
    | _ =>
      rcases r with exc | a
      all_goals exact .same h hholder ht hclaims rfl rfl rfl
  · rcases r with exc | a
    all_goals exact .same h hholder ht hclaims rfl rfl rfl
  · cases hallowed
  · rcases r with exc | t
    · exact .same h hholder ht hclaims rfl rfl rfl
    · -- the clock's new reading
      obtain ⟨rfl, rfl⟩ := hout.ok
      refine .of_ticks h hholder ht hclaims rfl rfl fun t ht => .inr ?_
      exact ⟨s.1.clockReads, Nat.lt_succ_self _, Option.some.inj ht⟩
  · rcases r with exc | id
    all_goals exact .same h hholder ht hclaims rfl rfl rfl

/-- A claim that no row is there for: no lease is for it that runs, and no execution. -/
theorem FireHolder.lease_key_ne (hholder : FireHolder env s φ) {key : String × Time}
    (hrow : ∀ row, s.2.claims.get key = some row → ∃ n < s.1.clockReads,
      row.leaseExpiresAt ≤ env.clock n) (lease : FireLease) (hlease : φ.lease = some lease)
    (hruns : lease.runs env s.1) : lease.key ≠ key := by
  rintro rfl
  obtain ⟨row, hget, hexpires⟩ := hholder.row lease hlease hruns
  obtain ⟨n, hn, hle⟩ := hrow row hget
  have hlt := FireLease.runs_iff.mp hruns n hn
  rw [← hexpires] at hlt
  exact absurd hle (not_le.mpr hlt)

/-- A step on the repositories. -/
theorem fireStep_schedules {o : ScheduleOp} (h : FireRecords s) (hholder : FireHolder env s φ)
    (hrepository : cfg.repository = .sql)
    (hallowed : φ.allowsSchedules touches keeps cfg o)
    (hkeeps : ∀ r i t a e n, o = .markFireClaim r i t a e n →
      ∀ lease, φ.lease = some lease → lease.runs env s.1)
    (hunfired : TakesOverUnfired s (.inr o)) {r : Except RuntimeException o.Ret}
    (hout : Outcome (o.exec wake s.2).1 s (s.1, (o.exec wake s.2).2) r s') :
    FireStep env s s' φ (φ.afterSchedules o r) := by
  -- operations that leave the claims alone
  have hsame : ∀ φ' : FirePhase, φ'.lease = φ.lease → φ'.wrote = φ.wrote →
      φ'.reading = φ.reading → (o.exec wake s.2).2.claims = s.2.claims →
      FireStep env s s' φ φ' := by
    intro φ' hlease hwrote hreading hclaims
    rcases hout.state with rfl | rfl
    · exact .same h hholder (.refl _) rfl hlease hwrote hreading
    · exact .same h hholder (.refl _) hclaims hlease hwrote hreading
  have hsame' : s' = s → FireStep env s s' φ φ := by
    rintro rfl
    exact .same h hholder (.refl _) rfl rfl rfl rfl
  cases o with
  | getSchedule id =>
    rcases r with e | - | d
    all_goals exact hsame _ rfl rfl rfl rfl
  | insertFireClaim c =>
    rcases hrow : s.2.claims.get c.key with - | row
    · have hexec : (insertFireClaim c).exec wake s.2
          = (true, { s.2 with claims := s.2.claims.save c }) := by
        simp [ScheduleOp.exec, hrow]
      rw [hexec] at hout
      have hothers : ∀ k, k ≠ c.key → (s.2.claims.save c).get k = s.2.claims.get k :=
        fun _ => get_save_ne
      have hne : ∀ ψ, FireHolder env s ψ → ∀ lease, ψ.lease = some lease →
          lease.runs env s.1 → lease.key ≠ c.key := by
        intro ψ hψ
        apply hψ.lease_key_ne
        intro row hget
        cases hrow.symm.trans hget
      have hnew : (s.2.claims.save c).get c.key = some c := get_save_self _ c
      rcases hout with ⟨rfl, rfl⟩ | ⟨e, rfl, rfl | rfl⟩
      · refine fireStep_acquire hothers h hholder rfl hne ⟨c, hnew, rfl⟩ ?_
        -- a fire with an execution has a row
        rw [List.eq_nil_iff_forall_not_mem]
        intro e he
        have hclaimed := h.claimed c.scheduleId c.scheduledFireAt e he
        have hnone : s.2.claims.get (c.scheduleId, c.scheduledFireAt) = none := hrow
        rw [hnone] at hclaimed
        cases hclaimed
      · exact hsame' rfl
      · exact fireStep_claims hothers h hholder hne fun _ => Option.isSome_of_eq_some hnew
    · have hexec : (insertFireClaim c).exec wake s.2 = (false, s.2) := by
        simp [ScheduleOp.exec, hrow]
      rw [hexec] at hout
      rcases hout with ⟨rfl, rfl⟩ | ⟨e, rfl, rfl | rfl⟩
      all_goals exact hsame' rfl
  | takeOverFireClaim scheduleId fireAt claimedBy now leaseExpiresAt =>
    rcases updateIf_cases s.2.claims (scheduleId, fireAt) (·.isExpired now)
      (·.takenOver claimedBy leaseExpiresAt) with ⟨row, hrow, hexpired, hu⟩ | ⟨-, hu⟩
    · have hexec : (takeOverFireClaim scheduleId fireAt claimedBy now
          leaseExpiresAt).exec wake s.2 = (true, { s.2 with
            claims := s.2.claims.save (row.takenOver claimedBy leaseExpiresAt) }) := by
        simp [ScheduleOp.exec, hu]
      rw [hexec] at hout
      have hkey : (row.takenOver claimedBy leaseExpiresAt).key = (scheduleId, fireAt) := by
        rw [key_takenOver]
        exact key_of_get hrow
      have hothers : ∀ k, k ≠ (scheduleId, fireAt) →
          (s.2.claims.save (row.takenOver claimedBy leaseExpiresAt)).get k = s.2.claims.get k := by
        intro k hk
        rw [← hkey] at hk
        exact get_save_ne hk
      have hnew : (s.2.claims.save (row.takenOver claimedBy leaseExpiresAt)).get
          (scheduleId, fireAt) = some (row.takenOver claimedBy leaseExpiresAt) := by
        rw [← hkey]
        exact get_save_self _ _
      -- the lease that the row still has is over
      have hne : ∀ ψ, FireHolder env s ψ → ∀ lease, ψ.lease = some lease →
          lease.runs env s.1 → lease.key ≠ (scheduleId, fireAt) := by
        intro ψ hψ
        apply hψ.lease_key_ne
        intro row' hget
        obtain rfl := Option.some.inj (hrow.symm.trans hget)
        obtain ⟨n, hn, hclock⟩ := hholder.reading now hallowed.2.2
        refine ⟨n, hn, ?_⟩
        rw [hclock]
        simp only [isExpired, Bool.and_eq_true, decide_eq_true_eq] at hexpired
        exact hexpired.2
      rcases hout with ⟨rfl, rfl⟩ | ⟨e, rfl, rfl | rfl⟩
      · refine fireStep_acquire hothers h hholder rfl hne ⟨_, hnew, rfl⟩ ?_
        simpa [TakesOverUnfired, hrow, hexpired] using hunfired
      · exact hsame' rfl
      · exact fireStep_claims hothers h hholder hne fun _ => Option.isSome_of_eq_some hnew
    · have hexec : (takeOverFireClaim scheduleId fireAt claimedBy now
          leaseExpiresAt).exec wake s.2 = (false, s.2) := by
        simp [ScheduleOp.exec, hu]
      rw [hexec] at hout
      rcases hout with ⟨rfl, rfl⟩ | ⟨e, rfl, rfl | rfl⟩
      all_goals exact hsame' rfl
  | acquireFireClaim c now => exact absurd (hallowed.1.symm.trans hrepository) (by decide)
  | markFireClaim repository scheduleId fireAt claimedBy executionId now =>
    obtain ⟨-, -, -, -, lease, hlease, rfl, rfl⟩ := hallowed
    have hruns := hkeeps _ _ _ _ _ _ rfl lease hlease
    -- whatever becomes of the claim, its lease was running
    have hgive : ∀ claims : Table key, (∀ k, k ≠ lease.key → claims.get k = s.2.claims.get k) →
        ((s.2.claims.get lease.key).isSome → (claims.get lease.key).isSome) →
        s' = withClaims s claims → FireStep env s s' φ φ.giveUp := by
      rintro claims hothers hsome rfl
      exact fireStep_giveUp hothers h hholder hlease rfl hruns hsome
    rw [show φ.afterSchedules _ r = φ.giveUp by cases r <;> rfl]
    rcases hout.state with hs' | hs'
    · exact hgive s.2.claims (fun _ _ => rfl) id hs'
    · rcases updateIf_cases s.2.claims lease.key (·.isMarkableBy repository claimedBy)
        (·.marked executionId now) with ⟨row, hrow, -, hu⟩ | ⟨-, hu⟩
      · have hkey : (row.marked executionId now).key = lease.key := by
          rw [key_marked]
          exact key_of_get hrow
        refine hgive (s.2.claims.save (row.marked executionId now)) ?_ ?_ ?_
        · intro k hk
          rw [← hkey] at hk
          exact get_save_ne hk
        · intro _
          rw [← hkey, get_save_self]
          rfl
        · rw [hs', ScheduleOp.exec, show (lease.scheduleId, lease.fireAt) = lease.key from rfl, hu]
          rfl
      · refine hgive s.2.claims (fun _ _ => rfl) id ?_
        rw [hs', ScheduleOp.exec, show (lease.scheduleId, lease.fireAt) = lease.key from rfl, hu]
        rfl
  | listSchedules repository =>
    have hclaims : ((listSchedules repository).exec wake s.2).2.claims = s.2.claims := by
      cases repository <;> rfl
    rcases r with e | a
    all_goals exact hsame _ rfl rfl rfl hclaims
  | createSchedule repository d =>
    have hclaims : ((ScheduleOp.createSchedule repository d).exec wake s.2).2.claims
        = s.2.claims := by
      simp only [ScheduleOp.exec]
      split <;> rfl
    rcases r with e | a
    all_goals exact hsame _ rfl rfl rfl hclaims
  | _ =>
    rcases r with e | a
    all_goals exact hsame _ rfl rfl rfl rfl

/-! ### Runs -/

/-- A fire whose records are in order has one execution at most. -/
theorem FireRecords.length_le (h : FireRecords s) (scheduleId : String) (fireAt : Time) :
    (firedExecutions s.1 scheduleId fireAt).length ≤ 1 := by
  have hnodup := s.1.db.executions.nodup_keys_select fun e => FiresFor e scheduleId fireAt
  have hunique := h.unique scheduleId fireAt
  rw [firedExecutions] at hunique ⊢
  generalize s.1.db.executions.select (fun e => FiresFor e scheduleId fireAt) = es at hnodup hunique ⊢
  rcases es with - | ⟨e, - | ⟨e', es⟩⟩
  · simp
  · simp
  · have hids := hunique e (by simp) e' (by simp)
    simp [hids] at hnodup

/-- The scheduler over the SQL repository. -/
def SchedulerConfig.overSql (cfg : SchedulerConfig) : SchedulerConfig :=
  { cfg with repository := .sql }

/-- The phases of processes over the SQL repository. -/
def sqlFireProtocol : Protocol SchedulerSig SchedulerConfig FirePhase :=
  (fireProtocol (fun _ => True) (fun _ => True)).relabel SchedulerConfig.overSql

/-- What clock, claims and executions have to do with the processes in a pool. -/
abbrev FireInvariant (env : Environment) : SchedulerState × ℕ →
    List (SchedulerConfig × Option FirePhase) → Prop :=
  Pool.Joint (fun s => FireRecords s.1) (fun s _ φ => FireHolder env s.1 φ)
    fun s φ ψ => FirePair env s.1 φ ψ

theorem FireHolder.start (env : Environment) (s : SchedulerState) : FireHolder env s {} where
  reading _ h := nomatch h
  row _ h := nomatch h
  unfired _ h := nomatch h

theorem FirePair.start (env : Environment) (s : SchedulerState) (ψ : FirePhase) :
    FirePair env s {} ψ := fun _ _ hl => nomatch hl

/-- Every allowed operation keeps the invariant. -/
theorem FireInvariant.step {faults : ℕ → Fault RuntimeException} {s : SchedulerState × ℕ}
    {ps : List (SchedulerConfig × Option FirePhase)} {i : ℕ} {cfg : SchedulerConfig}
    {φ : FirePhase} {o : SchedulerOps.Op} (h : FireInvariant env s ps)
    (hi : ps[i]? = some (cfg, some φ)) (howner : FireOwner env keeps s.1.1 φ)
    (hkeeps : KeepsLease env s.1 ps i o) (hunfired : TakesOverUnfired s.1 o)
    (hallowed : (fireProtocol touches keeps).allowed cfg.overSql φ o) :
    FireInvariant env ((schedulerOpsHandler env wake).faulty faults o s).2
      (ps.set i (cfg, some (φ.next
        ⟨o, ((schedulerOpsHandler env wake).faulty faults o s).1⟩))) := by
  have hout := Outcome.of_faulty (schedulerOpsHandler env wake) faults o s
  have hholder := h.one i cfg φ hi
  have hruns : φ.lease.all (fun lease => lease.runs env s.1.1) →
      ∀ lease, φ.lease = some lease → lease.runs env s.1.1 := by
    intro hall lease hlease
    rw [hlease] at hall
    exact hall
  have hstep : FireStep env s.1 ((schedulerOpsHandler env wake).faulty faults o s).2.1 φ
      (φ.next ⟨o, ((schedulerOpsHandler env wake).faulty faults o s).1⟩) := by
    rcases o with o | o
    · have hruntime : φ.allowsRuntime touches o := hallowed
      refine fireStep_runtime h.shared hholder howner hruntime ?_ hout
      rintro e rfl
      simp only [KeepsLease, hi] at hkeeps
      exact hruns hkeeps
    · have hschedules : φ.allowsSchedules touches keeps cfg.overSql o := hallowed
      refine fireStep_schedules h.shared hholder rfl hschedules ?_ hunfired hout
      rintro r x t a e n rfl
      simp only [KeepsLease, hi] at hkeeps
      exact hruns hkeeps
  refine Pool.Joint.step h hi hstep.records hstep.holder ?_ fun ψ χ hpair => ?_
  · intro _ _ ψ _ _ hψ hpair _
    obtain ⟨hψ', hpair'⟩ := hstep.others ψ hψ hpair
    exact ⟨hψ', hpair', hpair'.symm⟩
  · exact hpair.mono hstep.clockReads rfl

/-- **One execution for each fire.**  However many schedulers pass over the due schedules
of one SQL repository, and whichever of their steps fail, each fire of a schedule has one
execution at most, as long as a process fires within its lease and claims are only taken
over from fires without an execution. -/
theorem length_firedExecutions_le {env : Environment} {wake : ℕ → Except RuntimeException Unit}
    {faults : ℕ → Fault RuntimeException} {s : SchedulerState}
    {q : Pool SchedulerSig SchedulerConfig (SchedulerState × ℕ) RuntimeException
      (List ScheduledJobResult)} (hvacant : UndrawnVacant env s.1) (hs : FireRecords s)
    (h : Pool.Runs (fun cfg : SchedulerConfig => runDueSchedules cfg.overSql)
      ((schedulerOpsHandler env wake).faulty faults)
      (Pool.Phased sqlFireProtocol fun s ps i o =>
        KeepsLease env s.1 ps i o && TakesOverUnfired s.1 o) ⟨(s, 0), [], []⟩ q)
    (scheduleId : String) (fireAt : Time) :
    (firedExecutions q.shared.1.1 scheduleId fireAt).length ≤ 1 := by
  suffices hinv : Ownership env (fun _ => True) SchedulerConfig q.shared (q.phases sqlFireProtocol) ∧
      FireInvariant env q.shared (q.phases sqlFireProtocol) from
    hinv.2.shared.length_le scheduleId fireAt
  refine Pool.Runs.follows (J := fun s ps => Ownership env (fun _ => True) SchedulerConfig s ps ∧
    FireInvariant env s ps) ?_ ?_ ?_ ?_ ⟨.nil ⟨hvacant, fun _ _ _ => trivial⟩, .nil hs⟩ h
  · intro cfg
    exact (Program.follows_relabel SchedulerConfig.overSql).mpr
      (fires_runDueSchedules (fun _ _ _ _ _ => trivial) fun _ => trivial)
  · rintro s ps cfg ⟨howns, hinv⟩
    refine ⟨howns.start cfg, Pool.Joint.start hinv (.start env s.1) fun ψ => ?_⟩
    exact ⟨.start env s.1 ψ, (FirePair.start env s.1 ψ).symm⟩
  · rintro s ps i cfg ⟨howns, hinv⟩
    exact ⟨howns.stop i cfg, hinv.stop i cfg⟩
  · rintro s ps i cfg φ o ⟨howns, hinv⟩ hi hcond hallowed
    obtain ⟨hkeeps, hunfired⟩ := Bool.and_eq_true_iff.mp hcond
    obtain ⟨hanswers, howns'⟩ := howns.step hi hallowed
    exact ⟨hanswers, howns', hinv.step hi (howns.one i cfg φ hi) hkeeps hunfired hallowed⟩

/-- No process holds a claim whose lease is over: no `trigger_now` takes longer than it. -/
def InTime (env : Environment) (s : SchedulerState)
    (ps : List (SchedulerConfig × Option FirePhase)) : Bool :=
  ps.all fun p => (p.2.bind FirePhase.lease).all fun lease => lease.runs env s.1

namespace EveryMinute

theorem fireRecords : FireRecords state where
  unique _ _ _ he := nomatch he
  claimed _ _ _ he := nomatch he

/-- The operation `n` fails before its effect. -/
def failing (n i : ℕ) : Fault RuntimeException :=
  if i = n then .before ⟨.runtimeError, "unavailable"⟩ else .none

/-- The first scheduler performs `n` operations, then the second one `m`. -/
def turns (n m : ℕ) : List (Act SchedulerConfig) :=
  [.start (config "first"), .start (config "second")] ++ List.replicate n (.step 0) ++
    List.replicate m (.step 1)

end EveryMinute

open EveryMinute

/-- The first scheduler fails to count executions and gives its claim back; the second one
takes it over and fires. -/
theorem length_firedExecutions_le_takenOver :
    ∃ q, Pool.Runs (fun cfg : SchedulerConfig => runDueSchedules cfg.overSql)
      ((schedulerOpsHandler .silent fun _ => .ok ()).faulty (failing 7))
      (Pool.Phased sqlFireProtocol fun s ps i o =>
        KeepsLease .silent s.1 ps i o && TakesOverUnfired s.1 o) ⟨(state, 0), [], []⟩ q ∧
      (firedExecutions q.shared.1.1 "s" 0).length = 1 ∧
      (firedExecutions q.shared.1.1 "s" 0).length ≤ 1 := by
  have hlength : ((Pool.nextsPhased sqlFireProtocol (fun cfg : SchedulerConfig =>
    runDueSchedules cfg.overSql) ((schedulerOpsHandler .silent fun _ => .ok ()).faulty (failing 7))
    (fun s ps i o => KeepsLease .silent s.1 ps i o && TakesOverUnfired s.1 o)
    ⟨(state, 0), [], []⟩ (turns 10 28)).map
    fun q => (firedExecutions q.shared.1.1 "s" 0).length) = some 1 := by decide +kernel
  obtain ⟨q, hq, hone⟩ := Option.map_eq_some_iff.mp hlength
  have hruns := Pool.runs_of_nextsPhased hq
  exact ⟨q, hruns, hone, length_firedExecutions_le undrawnVacant fireRecords hruns "s" 0⟩

/-- Starting the execution fails after it was created, the claim is given back, and the
second scheduler fires again, all within the lease. -/
theorem fired_twice :
    ¬ ∀ (env : Environment) (wake : ℕ → Except RuntimeException Unit)
      (faults : ℕ → Fault RuntimeException) (s : SchedulerState)
      (q : Pool SchedulerSig SchedulerConfig (SchedulerState × ℕ) RuntimeException
        (List ScheduledJobResult)), UndrawnVacant env s.1 → FireRecords s →
      Pool.Runs (fun cfg : SchedulerConfig => runDueSchedules cfg.overSql)
        ((schedulerOpsHandler env wake).faulty faults)
        (Pool.Phased sqlFireProtocol fun s ps _ _ => InTime env s.1 ps) ⟨(s, 0), [], []⟩ q →
      ∀ scheduleId fireAt, (firedExecutions q.shared.1.1 scheduleId fireAt).length ≤ 1 := by
  intro hall
  have hlength : ((Pool.nextsPhased sqlFireProtocol (fun cfg : SchedulerConfig =>
    runDueSchedules cfg.overSql) ((schedulerOpsHandler .silent fun _ => .ok ()).faulty
    (failing 17)) (fun s ps _ _ => InTime .silent s.1 ps) ⟨(state, 0), [], []⟩ (turns 20 28)).map
    fun q => (firedExecutions q.shared.1.1 "s" 0).length) = some 2 := by decide +kernel
  obtain ⟨q, hq, htwo⟩ := Option.map_eq_some_iff.mp hlength
  have hone := hall .silent (fun _ => .ok ()) (failing 17) state q undrawnVacant
    fireRecords (Pool.runs_of_nextsPhased hq) "s" 0
  rw [htwo] at hone
  exact absurd hone (by decide)

end OpenAgency
