/-
Lib/Cooperative.lean

Tasks of one event loop.  A call runs until it has to wait or ends, and is resumed when what
it waits for has come or when it is cancelled; no other task runs in between.  So one turn of
a task is one function of the shared state, and what has to be kept is only what holds
between turns.

`Turns` says how calls take their turns, `EventLoop` is the shared state with all tasks, and
`Turns.Reaches` are the runs, with turns in any order.  `Reaches.invariant` is the induction.
-/
import Mathlib.Data.Nat.Notation
import Mathlib.Logic.Relation

namespace Interaction

/-- Why a waiting task is resumed. -/
inductive Wake where
  | value
  | cancelled
  deriving DecidableEq

/-- How calls of `C` take their turns: `W` are the points where a task waits or has ended,
`E` is what its environment answers in one turn. -/
structure Turns (C W σ E : Type) where
  callable : List (C × W) → C → Bool
  /-- The first turn of task `i`. -/
  begin : ℕ → C → E → σ → W × σ
  resumable : σ → ℕ → W → Wake → Bool
  resume : ℕ → C → W → Wake → E → σ → W × σ

structure EventLoop (C W σ : Type) where
  shared : σ
  tasks : List (C × W) := []

/-- The next turn of an event loop. -/
inductive Turn (C E : Type) where
  | call (c : C) (e : E)
  | wake (i : ℕ) (wake : Wake) (e : E)

namespace Turns

variable {C W σ E : Type} (T : Turns C W σ E)

/-- The event loop after a turn, if the turn is possible. -/
def next (q : EventLoop C W σ) : Turn C E → Option (EventLoop C W σ)
  | .call c e =>
    if T.callable q.tasks c then
      some ⟨(T.begin q.tasks.length c e q.shared).2,
        q.tasks ++ [(c, (T.begin q.tasks.length c e q.shared).1)]⟩
    else none
  | .wake i wake e =>
    match q.tasks[i]? with
    | some (c, w) =>
      if T.resumable q.shared i w wake then
        some ⟨(T.resume i c w wake e q.shared).2,
          q.tasks.set i (c, (T.resume i c w wake e q.shared).1)⟩
      else none
    | none => none

/-- The event loop after a list of turns. -/
def nexts : EventLoop C W σ → List (Turn C E) → Option (EventLoop C W σ)
  | q, [] => some q
  | q, t :: ts => (T.next q t).bind fun q' => nexts q' ts

/-- The runs, with turns in any order. -/
abbrev Reaches : EventLoop C W σ → EventLoop C W σ → Prop :=
  Relation.ReflTransGen fun q q' => ∃ t, T.next q t = some q'

variable {T}

variable {q q' : EventLoop C W σ}

/-- Everything a turn can do. -/
theorem next_cases {t : Turn C E} (h : T.next q t = some q') :
    (∃ c e, t = .call c e ∧ T.callable q.tasks c ∧
      q' = ⟨(T.begin q.tasks.length c e q.shared).2,
        q.tasks ++ [(c, (T.begin q.tasks.length c e q.shared).1)]⟩) ∨
    ∃ i c w wake e, t = .wake i wake e ∧ q.tasks[i]? = some (c, w) ∧ T.resumable q.shared i w wake ∧
      q' = ⟨(T.resume i c w wake e q.shared).2,
        q.tasks.set i (c, (T.resume i c w wake e q.shared).1)⟩ := by
  cases t with
  | call c e =>
    simp only [next] at h
    split at h
    next hcallable => exact .inl ⟨c, e, rfl, hcallable, (Option.some.inj h).symm⟩
    · cases h
  | wake i wake e =>
    rcases hi : q.tasks[i]? with - | ⟨c, w⟩
    · simp [next, hi] at h
    · simp only [next, hi] at h
      split at h
      · next hresumable =>
        exact .inr ⟨i, c, w, wake, e, rfl, hi, hresumable, (Option.some.inj h).symm⟩
      · cases h

theorem reaches_of_nexts {ts : List (Turn C E)} (h : T.nexts q ts = some q') : T.Reaches q q' := by
  induction ts generalizing q with
  | nil =>
    cases h
    exact .refl
  | cons t ts ih =>
    rcases hn : T.next q t with - | q₁
    · simp [nexts, hn] at h
    · simp only [nexts, hn, Option.bind_some] at h
      exact Relation.ReflTransGen.head ⟨t, hn⟩ (ih h)

/-- A turn of task `i` leaves the other tasks where they are. -/
structure Moves (i : ℕ) (c : C) (w : W) (ts ts' : List (C × W)) : Prop where
  self : ts'[i]? = some (c, w)
  other : ∀ j, j ≠ i → ts'[j]? = ts[j]?

theorem moves_append (ts : List (C × W)) (c : C) (w : W) :
    Moves ts.length c w ts (ts ++ [(c, w)]) where
  self := List.getElem?_concat_length
  other j hj := by
    rcases Nat.lt_or_gt_of_ne hj with hlt | hgt
    · exact List.getElem?_append_left hlt
    · rw [List.getElem?_eq_none (by simp; omega), List.getElem?_eq_none (Nat.le_of_lt hgt)]

theorem moves_set {ts : List (C × W)} {i : ℕ} {p : C × W} (hi : ts[i]? = some p) (c : C) (w : W) :
    Moves i c w ts (ts.set i (c, w)) where
  self := List.getElem?_set_self (List.getElem?_eq_some_iff.mp hi).1
  other _ hj := List.getElem?_set_ne (Ne.symm hj)

/-- **The invariant rule**: what every first turn and every later turn keeps holds in every
event loop that is reached. -/
theorem Reaches.invariant {J : σ → List (C × W) → Prop}
    (hbegin : ∀ s ts c e, J s ts → T.callable ts c →
      ∀ ts', Moves ts.length c (T.begin ts.length c e s).1 ts ts' →
      J (T.begin ts.length c e s).2 ts')
    (hresume : ∀ s ts i c w wake e, J s ts → ts[i]? = some (c, w) → T.resumable s i w wake →
      ∀ ts', Moves i c (T.resume i c w wake e s).1 ts ts' → J (T.resume i c w wake e s).2 ts')
    (hq : J q.shared q.tasks) (h : T.Reaches q q') :
    J q'.shared q'.tasks := by
  induction h with
  | refl => exact hq
  | tail _ hturn ih =>
    obtain ⟨t, hturn⟩ := hturn
    obtain ⟨c, e, -, hcallable, rfl⟩ | ⟨i, c, w, wake, e, -, hi, hresumable, rfl⟩ :=
      next_cases hturn
    · exact hbegin _ _ c e ih hcallable _ (moves_append _ _ _)
    · exact hresume _ _ i c w wake e ih hi hresumable _ (moves_set hi _ _)

end Turns

end Interaction
