/-
WaitLedger.lean

Resolving a wait is a claim: of any number of coroutines that resolve one
pending wait, in any interleaving, exactly one is told it claimed the wait, and
the row keeps that one's resolution for good.

A call passes through four phases: it has been called, it has read the clock, it
has issued its conditional update, it has returned.  The invariant says which
phases a call can be in before anybody has won (`none`) and after call `i` has
won with the wait `w` (`some (i, w)`).

The last part is the in-memory store's version of the same method and the
simulation between the two for calls made one after another.
-/
import OpenAgency.Lib.Pool
import OpenAgency.Store

namespace OpenAgency

open Interaction Relational Program Pool ExecutionWait Table DbOp

/-- A resolution as `resolve_wait` and its siblings pass it on: to a terminal
status, under a key and a name that fit their columns. -/
structure TerminalResolution extends ExecutionWait.Resolution where
  terminal : toResolution.status.isTerminal
  key_fits : toResolution.resolutionKey.length ≤ 255
  by_fits : fits255 toResolution.resolvedBy

namespace TerminalResolution

theorem not_tooLong (r : TerminalResolution) :
    (255 < r.resolutionKey.length || !fits255 r.resolvedBy) = false := by
  simp [r.by_fits, Nat.not_lt.mpr r.key_fits]

end TerminalResolution

namespace WaitLedger

/-- What one call of `resolve_execution_wait` answers. -/
abbrev Answer := Option ExecutionWait × Bool

/-- One call under way. -/
abbrev Call := Proc RuntimeSig TerminalResolution RuntimeException Answer

/-- The calls made on one wait, interleaved. -/
abbrev Calls := Pool RuntimeSig TerminalResolution World RuntimeException Answer

/-- The coroutine of one call. -/
def call (x : Uuid) (r : TerminalResolution) : Coroutine Answer :=
  resolveExecutionWait x r.toResolution

/-! ### Phases of a call -/

inductive Phase where
  | called
  | clocked (now : Time)
  | updated (rowcount : ℕ)
  | returned (answer : Answer)

/-- What a call still has to do in a phase. -/
def Phase.rest (x : Uuid) (r : TerminalResolution) : Phase → Coroutine Answer
  | called => call x r
  | clocked now =>
    query (.updatePendingExecutionWait x r.toResolution now) >>= readBackResolution x r.toResolution
  | updated rowcount => readBackResolution x r.toResolution (.ok rowcount)
  | returned answer => .done answer

/-- The answer of the call under `r`, once another call has claimed the wait as
`w`. -/
def loserAnswer (w : ExecutionWait) (r : TerminalResolution) : Answer :=
  if w.resolutionKey = some r.resolutionKey then (some w, false) else (none, false)

/-- The answer of call `j` under `r`, once call `i` has claimed the wait as `w`. -/
def answerOf (i : ℕ) (w : ExecutionWait) (j : ℕ) (r : TerminalResolution) : Answer :=
  if j = i then (some w, true) else loserAnswer w r

/-- The phases call `j` can be in, before and after somebody has won. -/
def Phase.Possible (j : ℕ) (r : TerminalResolution) : Option (ℕ × ExecutionWait) → Phase → Prop
  | none, called | none, clocked _ => True
  | none, updated _ | none, returned _ => False
  | some (i, _), called | some (i, _), clocked _ => j ≠ i
  | some (i, _), updated rowcount => rowcount = if j = i then 1 else 0
  | some (i, w), returned answer => answer = answerOf i w j r

/-- The row and every call agree with `winner`. -/
structure Agrees (x : Uuid) (row : ExecutionWaitORM) (winner : Option (ℕ × ExecutionWait))
    (q : Calls) : Prop where
  stored : match winner with
    | none => q.shared.db.waits.get x = some row
    | some (i, w) => q.shared.db.waits.get x = some ⟨w, none⟩ ∧
        ∃ p now, q.procs[i]? = some p ∧ w = row.wait.resolve p.label.toResolution now
  phases : ∀ (j : ℕ) (p : Call), q.procs[j]? = some p →
    ∃ phase : Phase, p.rest = phase.rest x p.label ∧ phase.Possible j p.label winner

variable {env : Environment} {x : Uuid} {row : ExecutionWaitORM}

/-! ### One step -/

section Step

variable {q : Calls} {j : ℕ} {l : TerminalResolution} {past : List (Event RuntimeSig)}
  {o : RuntimeOp} {k : o.Ret → Coroutine Answer}

/-- The labels of the processes do not change. -/
theorem label_afterStep (hj : q.procs[j]? = some ⟨l, past, .call o k⟩) {i : ℕ}
    {p : Call} (hi : q.procs[i]? = some p) :
    ∃ p', (afterStep (handler env) q j l past o k).procs[i]? = some p' ∧ p'.label = p.label := by
  by_cases hij : j = i
  · subst hij
    cases hi.symm.trans hj
    exact ⟨_, List.getElem?_set_self (List.getElem?_eq_some_iff.mp hj).1, rfl⟩
  · exact ⟨p, (List.getElem?_set_ne hij).trans hi, rfl⟩

/-- A call that moves to a possible phase without touching the row keeps the
agreement. -/
theorem Agrees.advance {winner : Option (ℕ × ExecutionWait)} (h : Agrees x row winner q)
    (hj : q.procs[j]? = some ⟨l, past, .call o k⟩)
    (hget : (handler env o q.shared).2.db.waits.get x = q.shared.db.waits.get x)
    (phase : Phase) (hrest : k (handler env o q.shared).1 = phase.rest x l)
    (hposs : phase.Possible j l winner) :
    Agrees x row winner (afterStep (handler env) q j l past o k) := by
  refine ⟨?_, fun i p hi => ?_⟩
  · have hstored := h.stored
    rcases winner with - | ⟨i, w⟩
    · exact hget.trans hstored
    · obtain ⟨hrow, p, now, hp, hw⟩ := hstored
      obtain ⟨p', hp', hl⟩ := label_afterStep hj hp
      exact ⟨hget.trans hrow, p', now, hp', hl ▸ hw⟩
  · by_cases hij : j = i
    · subst hij
      rw [afterStep, List.getElem?_set_self (List.getElem?_eq_some_iff.mp hj).1] at hi
      cases hi
      exact ⟨phase, hrest, hposs⟩
    · rw [afterStep, List.getElem?_set_ne hij] at hi
      exact h.phases i p hi

/-- The call whose update finds the row pending wins. -/
theorem Agrees.claim (h : Agrees x row none q) (now : Time)
    (hj : q.procs[j]? = some ⟨l, past, .call o k⟩)
    (hget : (handler env o q.shared).2.db.waits.get x = some (row.resolve l.toResolution now))
    (hrest : k (handler env o q.shared).1 = (Phase.updated 1).rest x l) :
    Agrees x row (some (j, row.wait.resolve l.toResolution now))
      (afterStep (handler env) q j l past o k) := by
  have hlt := (List.getElem?_eq_some_iff.mp hj).1
  refine ⟨⟨hget, _, now, List.getElem?_set_self hlt, rfl⟩, fun i p hi => ?_⟩
  by_cases hij : j = i
  · subst hij
    rw [afterStep, List.getElem?_set_self hlt] at hi
    cases hi
    exact ⟨.updated 1, hrest, by simp [Phase.Possible]⟩
  · rw [afterStep, List.getElem?_set_ne hij] at hi
    obtain ⟨phase, hr, hp⟩ := h.phases i p hi
    cases phase with
    | called => exact ⟨.called, hr, Ne.symm hij⟩
    | clocked t => exact ⟨.clocked t, hr, Ne.symm hij⟩
    | updated n => exact hp.elim
    | returned a => exact hp.elim

end Step

variable {winner : Option (ℕ × ExecutionWait)} {q : Calls}

/-- The update of call `j`: it wins if nobody has, and changes nothing
otherwise. -/
theorem Agrees.update (h : Agrees x row winner q) (hpend : row.wait.status = .pending)
    (r : ExecutionWait.Resolution) (now : Time) :
    (winner = none ∧ (q.shared.db.waits.updatePending x r now).1 = 1 ∧
      (q.shared.db.waits.updatePending x r now).2.get x = some (row.resolve r now)) ∨
    (winner ≠ none ∧ q.shared.db.waits.updatePending x r now = (0, q.shared.db.waits)) := by
  have hstored := h.stored
  rcases q.shared.db.waits.updatePending_cases x r now with
    ⟨old, hold, hp, hone, hself, -⟩ | ⟨hnone, e⟩
  · rcases winner with - | ⟨i, w⟩
    · obtain rfl : row = old := Option.some.inj (hstored.symm.trans hold)
      exact .inl ⟨rfl, hone, hself⟩
    · obtain ⟨hrow, p, t, -, hw⟩ := hstored
      obtain rfl := Option.some.inj (hrow.symm.trans hold)
      have hterm := ExecutionWaitStatus.isTerminal_iff.mp p.label.terminal
      exact absurd hp (hw ▸ hterm)
  · rcases winner with - | iw
    · exact absurd hpend (hnone row hstored)
    · exact .inr ⟨by simp, e⟩

/-- What a call reads back once somebody has won. -/
theorem readBackRow_phase {i j : ℕ} {w : ExecutionWait} {r : TerminalResolution}
    (hvalid : w.validateLifecycle = .ok w) :
    readBackRow r.toResolution (if j = i then 1 else 0) (some ⟨w, none⟩) =
      (Phase.returned (answerOf i w j r)).rest x r := by
  have hto : (⟨w, none⟩ : ExecutionWaitORM).toWait = .ok w := hvalid
  rw [readBackRow, hto, Program.ofExcept_ok, done_bind, Phase.rest, answerOf,
    loserAnswer]
  by_cases hij : j = i
  · simp [hij]
  · by_cases hk : w.resolutionKey = some r.resolutionKey <;> simp [hij, hk]

/-- A resolved wait reads back as it was written. -/
theorem validateLifecycle_resolve (hvalid : row.wait.Valid) (r : TerminalResolution) (now : Time) :
    (row.wait.resolve r.toResolution now).validateLifecycle =
      .ok (row.wait.resolve r.toResolution now) := by
  rw [validateLifecycle_ok (hvalid.resolve r.terminal r.key_fits r.by_fits)]
  exact congrArg Except.ok (fillResolvedAt_of_resolvedAt rfl)

/-- Every operation of every call keeps the agreement, and a winner stays the
winner. -/
theorem Agrees.step {j : ℕ} {l : TerminalResolution} {past : List (Event RuntimeSig)}
    {o : RuntimeOp} {k : o.Ret → Coroutine Answer} (hpend : row.wait.status = .pending)
    (hvalid : row.wait.Valid) (h : Agrees x row winner q)
    (hj : q.procs[j]? = some ⟨l, past, .call o k⟩) :
    ∃ winner', (winner = none ∨ winner' = winner) ∧
      Agrees x row winner' (afterStep (handler env) q j l past o k) := by
  obtain ⟨phase, hrest, hposs⟩ := h.phases j _ hj
  replace hrest : Program.call (S := RuntimeSig) o k = phase.rest x l := hrest
  cases phase with
  | called =>
    cases hrest
    refine ⟨winner, .inr rfl, h.advance hj rfl (.clocked (env.clock q.shared.clockReads)) rfl ?_⟩
    rcases winner with - | ⟨i, w⟩
    · trivial
    · exact hposs
  | clocked now =>
    cases hrest
    rcases h.update hpend l.toResolution now with ⟨rfl, hone, hget⟩ | ⟨hwin, e⟩
    · refine ⟨_, .inl rfl, h.claim now hj ?_ ?_⟩
      · simpa [exec, l.not_tooLong] using hget
      · simp [exec, l.not_tooLong, hone, Phase.rest]
    · refine ⟨winner, .inr rfl, h.advance hj ?_ (.updated 0) ?_ ?_⟩
      · simp [exec, l.not_tooLong, e]
      · simp [exec, l.not_tooLong, e, Phase.rest]
      · rcases winner with - | ⟨i, w⟩
        · exact absurd rfl hwin
        · have hij : j ≠ i := hposs
          simp [Phase.Possible, hij]
  | updated n =>
    rcases winner with - | ⟨i, w⟩
    · exact hposs.elim
    · obtain ⟨hrow, p, now, -, hw⟩ := h.stored
      cases hrest
      obtain rfl : n = if j = i then 1 else 0 := hposs
      refine ⟨_, .inr rfl, h.advance hj rfl (.returned (answerOf i w j l)) ?_ rfl⟩
      have hread := readBackRow_phase (x := x) (i := i) (j := j) (r := l)
        (hw ▸ validateLifecycle_resolve hvalid p.label now)
      rw [← hrow] at hread
      exact hread
  | returned a => cases hrest

/-! ### Whole runs -/

/-- Any number of calls, started at any time, in any interleaving. -/
abbrev Reaches (env : Environment) (x : Uuid) : Calls → Calls → Prop :=
  Pool.Runs (call x) (handler env) fun _ _ => True

theorem Agrees.start (h : Agrees x row winner q) (l : TerminalResolution) :
    Agrees x row winner { q with procs := q.procs ++ [⟨l, [], call x l⟩] } := by
  have hlt : ∀ {i p}, q.procs[i]? = some p → i < q.procs.length := fun hi =>
    (List.getElem?_eq_some_iff.mp hi).1
  refine ⟨?_, fun j p hj => ?_⟩
  · have hstored := h.stored
    rcases winner with - | ⟨i, w⟩
    · exact hstored
    · obtain ⟨hrow, p, now, hp, hw⟩ := hstored
      exact ⟨hrow, p, now, (List.getElem?_append_left (hlt hp)).trans hp, hw⟩
  · rcases lt_or_ge j q.procs.length with hj' | hj'
    · exact h.phases j p ((List.getElem?_append_left hj').symm.trans hj)
    · rw [List.getElem?_append_right hj'] at hj
      obtain ⟨hj0, rfl⟩ := List.getElem?_eq_some_iff.mp hj
      refine ⟨.called, by simp [Phase.rest], ?_⟩
      rcases winner with - | ⟨i, w⟩
      · trivial
      · obtain ⟨-, p, -, hp, -⟩ := h.stored
        have := hlt hp
        show j ≠ i
        omega

theorem Agrees.reaches (hpend : row.wait.status = .pending) (hvalid : row.wait.Valid) {q q' : Calls}
    (h : Agrees x row winner q) (hq : Reaches env x q q') :
    ∃ winner', (winner = none ∨ winner' = winner) ∧ Agrees x row winner' q' := by
  refine Pool.Runs.invariant
    (I := fun q => ∃ winner', (winner = none ∨ winner' = winner) ∧ Agrees x row winner' q)
    ?_ ?_ ⟨winner, .inr rfl, h⟩ hq
  · rintro q l ⟨w, hw, h⟩ -
    exact ⟨w, hw, h.start l⟩
  · rintro q i l past o k ⟨w, hw, h⟩ - hi
    obtain ⟨w', hw', h'⟩ := h.step hpend hvalid hi
    refine ⟨w', ?_, h'⟩
    rcases hw with hw | rfl
    · exact .inl hw
    · exact hw'

theorem agrees_init {w₀ : World} (hrow : w₀.db.waits.get x = some row) :
    Agrees x row none ⟨w₀, [], []⟩ :=
  ⟨hrow, fun j p hj => by simp at hj⟩

/-- The answer of process `i`, if it has returned. -/
def Answered (q : Calls) (i : ℕ) (a : Answer) : Prop :=
  ∃ p, q.procs[i]? = some p ∧ p.rest = .done a

/-- **Single claim.**  The calls have not touched the row and none has returned,
or exactly one call `i` has claimed it: the row holds that call's resolution now
and in every later state, call `i` is answered with the resolved wait and
`true`, and every other call with the same wait and `false` if its key is the
winner's, and with nothing otherwise.  No call raises, and once all have
returned exactly one of them has been told it claimed the wait. -/
structure SingleClaim (env : Environment) (x : Uuid) (row : ExecutionWaitORM) (q : Calls) :
    Prop where
  outcome : (q.shared.db.waits.get x = some row ∧ ∀ i a, ¬Answered q i a) ∨
    ∃ (i : ℕ) (p : Call) (now : Time), q.procs[i]? = some p ∧
      (∀ q', Reaches env x q q' →
        q'.shared.db.waits.get x = some (row.resolve p.label.toResolution now)) ∧
      (∀ a, Answered q i a → a = (some (row.wait.resolve p.label.toResolution now), true)) ∧
      ∀ (j : ℕ) (p' : Call) a, j ≠ i → q.procs[j]? = some p' → p'.rest = .done a →
        a = if p'.label.resolutionKey = p.label.resolutionKey then
          (some (row.wait.resolve p.label.toResolution now), false) else (none, false)
  total : ∀ (i : ℕ) (p : Call) e, q.procs[i]? = some p → p.rest ≠ .raise e
  unique : (∃ i a, Answered q i a) →
    (∀ (i : ℕ) (p : Call), q.procs[i]? = some p → ∃ a, p.rest = .done a) →
    ∃! i, ∃ w, Answered q i (w, true)

/-- The answer of a call that has returned is the one its phase allows. -/
theorem Agrees.answered (h : Agrees x row winner q) {j : ℕ} {p : Call} {a : Answer}
    (hj : q.procs[j]? = some p) (ha : p.rest = .done a) :
    ∃ i w, winner = some (i, w) ∧ a = answerOf i w j p.label := by
  obtain ⟨phase, hrest, hposs⟩ := h.phases j p hj
  rw [ha] at hrest
  cases phase with
  | called => cases hrest
  | clocked now => cases hrest
  | updated n => cases hrest
  | returned b =>
    cases hrest
    rcases winner with - | ⟨i, w⟩
    · exact hposs.elim
    · exact ⟨i, w, rfl, hposs⟩

theorem Agrees.not_raised (h : Agrees x row winner q) {j : ℕ} {p : Call} (hj : q.procs[j]? = some p)
    (e : RuntimeException) : p.rest ≠ .raise e := by
  intro he
  obtain ⟨phase, hrest, -⟩ := h.phases j p hj
  rw [he] at hrest
  cases phase <;> cases hrest

theorem Agrees.singleClaim (hpend : row.wait.status = .pending) (hvalid : row.wait.Valid)
    (h : Agrees x row winner q) :
    SingleClaim env x row q := by
  rcases winner with - | ⟨i, w⟩
  · have hnone : ∀ i a, ¬Answered q i a := by
      rintro i a ⟨p, hp, ha⟩
      obtain ⟨_, _, hw, -⟩ := h.answered hp ha
      cases hw
    exact {
      outcome := .inl ⟨h.stored, hnone⟩
      total := fun i p e hi => h.not_raised hi e
      unique := fun ⟨i, a, ha⟩ => absurd ha (hnone i a) }
  · obtain ⟨-, p, now, hp, hw⟩ := h.stored
    have hanswer : ∀ {j : ℕ} {p' : Call} {a}, q.procs[j]? = some p' → p'.rest = .done a →
        a = answerOf i w j p'.label := by
      intro j p' a hj ha
      obtain ⟨_, _, hw', ha'⟩ := h.answered hj ha
      cases hw'
      exact ha'
    refine ⟨.inr ⟨i, p, now, hp, fun q' hq' => ?_, ?_, ?_⟩, fun j p' e hj => h.not_raised hj e, ?_⟩
    · obtain ⟨winner', hsame, h'⟩ := h.reaches hpend hvalid hq'
      rcases hsame with hsame | rfl
      · cases hsame
      · rw [h'.stored.1, hw]
        rfl
    · rintro a ⟨p', hp', ha⟩
      rw [hanswer hp' ha, answerOf, if_pos rfl, hw]
    · intro j p' a hji hj ha
      rw [hanswer hj ha, answerOf, if_neg hji, loserAnswer, hw]
      simp only [resolve, Option.some.injEq]
      exact if_congr eq_comm rfl rfl
    · intro _ hall
      obtain ⟨a, ha⟩ := hall i p hp
      refine ⟨i, ⟨some w, p, hp, ?_⟩, ?_⟩
      · rw [ha, hanswer hp ha, answerOf, if_pos rfl]
      · rintro j ⟨w', p', hj, ha'⟩
        by_contra hji
        have := hanswer hj ha'
        rw [answerOf, if_neg hji, loserAnswer] at this
        split at this <;> cases this

/-- Every interleaving of calls on a pending wait is a single claim. -/
theorem singleClaim_of_reaches {w₀ : World} (hrow : w₀.db.waits.get x = some row)
    (hpend : row.wait.status = .pending) (hvalid : row.wait.Valid)
    (hq : Reaches env x ⟨w₀, [], []⟩ q) : SingleClaim env x row q := by
  obtain ⟨winner, -, h⟩ := (agrees_init hrow).reaches hpend hvalid hq
  exact h.singleClaim hpend hvalid

/-! ### The in-memory store -/

/-- `InMemoryExecutionStore._waits`. -/
abbrev InMemoryWaits := Table ExecutionWait.id

/-- `InMemoryExecutionStore.resolve_execution_wait`, called at `now`. -/
def resolveInMemory (waits : InMemoryWaits) (x : Uuid) (r : ExecutionWait.Resolution)
    (now : Time) : Answer × InMemoryWaits :=
  match waits.get x with
  | none => ((none, false), waits)
  | some wait =>
    if wait.status ≠ .pending then
      (if wait.resolutionKey = some r.resolutionKey then (some wait, false) else (none, false),
        waits)
    else ((some (wait.resolve r now), true), waits.save (wait.resolve r now))

/-- Calls to the SQL store, one after another. -/
def sqlCalls (env : Environment) :
    List (Uuid × ExecutionWait.Resolution) → World → List (Except RuntimeException Answer) × World
  | [], w => ([], w)
  | (x, r) :: calls, w =>
    let first := (resolveExecutionWait x r).run (handler env) w
    let rest := sqlCalls env calls first.2
    (first.1 :: rest.1, rest.2)

/-- The same calls to the in-memory store; call `k` is made at reading `n + k`
of the clock. -/
def memoryCalls (clock : ℕ → Time) :
    List (Uuid × ExecutionWait.Resolution) → ℕ → InMemoryWaits → List Answer × InMemoryWaits
  | [], _, waits => ([], waits)
  | (x, r) :: calls, n, waits =>
    let first := resolveInMemory waits x r (clock n)
    let rest := memoryCalls clock calls (n + 1) first.2
    (first.1 :: rest.1, rest.2)

/-- The two stores hold the same waits, and every row of the database can be
read back. -/
structure SameWaits (db : Database) (waits : InMemoryWaits) : Prop where
  same : ∀ x, (db.waits.get x).map ExecutionWaitORM.wait = waits.get x
  readable : ∀ x row, db.waits.get x = some row → row.toWait = .ok row.wait

/-- A call alone: the clock is read once, the update decides, the row is read
back. -/
theorem run_call_eq (w : World) (r : TerminalResolution) :
    let u := w.db.waits.updatePending x r.toResolution (env.clock w.clockReads)
    let w' : World := { w with clockReads := w.clockReads + 1, db := { w.db with waits := u.2 } }
    (call x r).run (handler env) w =
      (readBackRow r.toResolution u.1 (u.2.get x)).run (handler env) w' := by
  simp [call, resolveExecutionWait, exec, r.not_tooLong, readBackResolution]

/-- One call of the SQL store is one call of the in-memory store, at the moment
the SQL store reads the clock. -/
theorem SameWaits.resolve {w : World} {waits : InMemoryWaits} (h : SameWaits w.db waits)
    (env : Environment) (x : Uuid) (r : TerminalResolution) :
    ((call x r).run (handler env) w).1 =
        .ok (resolveInMemory waits x r.toResolution (env.clock w.clockReads)).1 ∧
      ((call x r).run (handler env) w).2.clockReads = w.clockReads + 1 ∧
      SameWaits ((call x r).run (handler env) w).2.db
        (resolveInMemory waits x r.toResolution (env.clock w.clockReads)).2 := by
  have hx := h.same x
  rw [run_call_eq]
  rcases w.db.waits.updatePending_cases x r.toResolution (env.clock w.clockReads) with
    ⟨row, hrow, hpend, hone, hself, hne⟩ | ⟨hnone, e⟩
  · -- the row is pending: both stores write the same resolution
    have hvalid := (valid_of_validateLifecycle (h.readable x row hrow)).1
    have hread : (row.resolve r.toResolution (env.clock w.clockReads)).toWait = .ok _ :=
      validateLifecycle_resolve hvalid r (env.clock w.clockReads)
    have hmem : resolveInMemory waits x r.toResolution (env.clock w.clockReads) =
        ((some (row.wait.resolve r.toResolution (env.clock w.clockReads)), true),
          waits.save (row.wait.resolve r.toResolution (env.clock w.clockReads))) := by
      rw [hrow] at hx
      simp [resolveInMemory, ← hx, hpend]
    have hid : (row.wait.resolve r.toResolution (env.clock w.clockReads)).id = x :=
      show row.id = x from key_of_get hrow
    simp only [hone, hself, readBackRow, hread, hmem, Program.ofExcept_ok, done_bind,
      if_true, Program.pure_eq_done, run_done, true_and]
    refine ⟨fun i => ?_, fun i row' hi => ?_⟩
    · by_cases hi : i = x
      · have hmine := get_save_self waits (row.wait.resolve r.toResolution (env.clock w.clockReads))
        rw [hid] at hmine
        rw [hi, hself, hmine]
        rfl
      · rw [hne i hi, h.same i]
        exact (get_save_ne (hid.symm ▸ hi)).symm
    · by_cases hix : i = x
      · subst hix
        cases hself.symm.trans hi
        exact hread
      · exact h.readable i row' ((hne i hix).symm.trans hi)
  · -- no pending row: neither store changes
    rw [e]
    rcases hrow : w.db.waits.get x with - | row
    · rw [hrow] at hx
      simp only [readBackRow, Program.pure_eq_done, run_done, resolveInMemory, ← hx,
        Option.map_none, true_and]
      exact h
    · rw [hrow] at hx
      have hread := h.readable x row hrow
      have hnp := hnone row hrow
      by_cases hk : row.wait.resolutionKey = some r.resolutionKey
      · simp only [readBackRow, hread, Program.ofExcept_ok, done_bind, hk, if_true,
          Nat.zero_ne_one, if_false, Program.pure_eq_done, run_done, resolveInMemory, ← hx,
          Option.map_some, hnp, ne_eq, not_false_eq_true, true_and]
        exact h
      · simp only [readBackRow, hread, Program.ofExcept_ok, done_bind, hk,
          Nat.zero_ne_one, if_false, Program.pure_eq_done, run_done, resolveInMemory, ← hx,
          Option.map_some, hnp, ne_eq, not_false_eq_true, if_true, true_and]
        exact h

/-- **The stores agree**: any sequence of calls to terminal statuses is answered
alike. -/
theorem SameWaits.calls {w : World} {waits : InMemoryWaits} (h : SameWaits w.db waits)
    (calls : List (Uuid × TerminalResolution)) :
    let requests := calls.map fun c => (c.1, c.2.toResolution)
    (sqlCalls env requests w).1 = (memoryCalls env.clock requests w.clockReads waits).1.map .ok ∧
      SameWaits (sqlCalls env requests w).2.db
        (memoryCalls env.clock requests w.clockReads waits).2 := by
  induction calls generalizing w waits with
  | nil => exact ⟨rfl, h⟩
  | cons c calls ih =>
    obtain ⟨x, r⟩ := c
    obtain ⟨hans, hclock, hsame⟩ := h.resolve env x r
    obtain ⟨ih₁, ih₂⟩ := ih hsame
    rw [hclock] at ih₁ ih₂
    refine ⟨?_, ih₂⟩
    simp only [List.map_cons, sqlCalls, memoryCalls]
    exact congrArg₂ List.cons hans ih₁

end WaitLedger

open WaitLedger

/-! ### The ledger -/

/-- Any set of concurrent calls on a pending wait, with terminal statuses and
keys that fit, is a single claim; and the SQL and the in-memory store answer
every sequence of such calls alike. -/
theorem resolveExecutionWait_claims_once (env : Environment) :
    (∀ (x : Uuid) (row : ExecutionWaitORM) (w₀ : World) (q : Calls),
      w₀.db.waits.get x = some row → row.wait.status = .pending → row.wait.Valid →
      Reaches env x ⟨w₀, [], []⟩ q → SingleClaim env x row q) ∧
    ∀ (w : World) (waits : InMemoryWaits) (calls : List (Uuid × TerminalResolution)),
      SameWaits w.db waits →
      let requests := calls.map fun c => (c.1, c.2.toResolution)
      (sqlCalls env requests w).1 = (memoryCalls env.clock requests w.clockReads waits).1.map .ok :=
  ⟨fun _ _ _ _ hrow hpend hvalid hq => singleClaim_of_reaches hrow hpend hvalid hq,
    fun _ _ calls h => (h.calls calls).1⟩

namespace WaitLedger

/-- A pending input wait. -/
def inputWait : ExecutionWait where
  id := 0
  executionId := 0
  kind := .input
  idempotencyKey := "form"
  createdAt := 0
  updatedAt := 0

/-- The world in which that wait is stored. -/
def inputWorld : World := { db := { waits := .singleton (.ofWait inputWait) } }

/-- Two keys that resolve it. -/
def answered (key : String) (h : key.length ≤ 255) : TerminalResolution where
  status := .resolved
  resolutionKey := key
  resolutionPayload := .obj []
  resolvedBy := none
  terminal := rfl
  key_fits := h
  by_fits := rfl

/-- The same wait in the in-memory store. -/
def inputMemory : InMemoryWaits := empty.save inputWait

theorem sameWaits_input : SameWaits inputWorld.db inputMemory where
  same x := by
    by_cases hx : x = 0
    · subst hx
      rfl
    · have hdb : inputWorld.db.waits.get x = none := get_save_ne hx
      have hmemory : inputMemory.get x = none := get_save_ne hx
      rw [hdb, hmemory]
      rfl
  readable x row hrow := by
    by_cases hx : x = 0
    · subst hx
      obtain rfl : ExecutionWaitORM.ofWait inputWait = row := Option.some.inj hrow
      rfl
    · have hdb : inputWorld.db.waits.get x = none := get_save_ne hx
      cases hdb.symm.trans hrow

/-- Two calls, the second of which updates first. -/
def twoCalls : List (Act TerminalResolution) :=
  [.start (answered "a" (by decide)), .start (answered "b" (by decide)), .step 0, .step 1,
    .step 1, .step 0, .step 0, .step 1]

end WaitLedger

theorem resolveExecutionWait_claims_once_two :
    let env := Environment.counting ExtOp.silent
    ((nexts (call 0) (handler env) ⟨inputWorld, [], []⟩ twoCalls).isSome ∧
      ∀ q, nexts (call 0) (handler env) ⟨inputWorld, [], []⟩ twoCalls = some q →
        SingleClaim env 0 (.ofWait inputWait) q) ∧
    (sqlCalls env [(0, (answered "a" (by decide)).toResolution)] inputWorld).1 =
      (memoryCalls env.clock [(0, (answered "a" (by decide)).toResolution)] 0
        inputMemory).1.map .ok :=
  ⟨⟨rfl, fun _ hq => (resolveExecutionWait_claims_once _).1 0 _ inputWorld _ rfl rfl (by decide)
      (runs_of_nexts hq)⟩,
    (resolveExecutionWait_claims_once _).2 inputWorld inputMemory
      [(0, answered "a" (by decide))] sameWaits_input⟩

/-- A key wider than its column raises, and the row stays as it is. -/
theorem resolveExecutionWait_wide {env : Environment} {x : Uuid} {w : World}
    {r : ExecutionWait.Resolution} (h : 255 < r.resolutionKey.length) :
    (resolveExecutionWait x r).run (handler env) w =
      (.error ⟨.dataError, "value too long for type character varying(255)"⟩,
        { w with clockReads := w.clockReads + 1 }) := by
  simp [resolveExecutionWait, readBackResolution, exec, h]

theorem length_ofList_replicate (n : ℕ) : (String.ofList (List.replicate n 'a')).length = n := by
  rw [String.length_ofList, List.length_replicate]

/-- A key one character wider than its column. -/
@[irreducible] def wideKey : String := String.ofList (List.replicate 256 'a')

theorem wideKey_wide : 255 < wideKey.length := by
  have hlen : wideKey.length = 256 := by
    unfold wideKey
    exact length_ofList_replicate 256
  omega

/-- A resolution to `pending`, or under a key wider than its column, is no claim:
the SQL store raises on the only call made, while the in-memory store tells
every such call that it claimed the wait. -/
theorem resolveExecutionWait_not_claimed :
    let env := Environment.counting ExtOp.silent
    let again : ExecutionWait.Resolution := ⟨.pending, "a", .obj [], none⟩
    let wide : ExecutionWait.Resolution := ⟨.resolved, wideKey, .obj [], none⟩
    (sqlCalls env [(0, again)] inputWorld).1 =
        [.error ⟨.validationError, "Pending execution waits cannot have resolved_at."⟩] ∧
      (memoryCalls id [(0, again), (0, again)] 0 inputMemory).1.map Prod.snd = [true, true] ∧
      (sqlCalls env [(0, wide)] inputWorld).1 =
        [.error ⟨.dataError, "value too long for type character varying(255)"⟩] ∧
      (memoryCalls id [(0, wide)] 0 inputMemory).1.map Prod.snd = [true] := by
  refine ⟨rfl, rfl, ?_, rfl⟩
  rw [sqlCalls, sqlCalls,
    resolveExecutionWait_wide (r := ⟨.resolved, wideKey, .obj [], none⟩) wideKey_wide]

end OpenAgency
