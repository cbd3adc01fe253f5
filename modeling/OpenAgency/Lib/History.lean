/-
Lib/History.lean

Calls made one after the other.  A service answers a call in a state and leaves a
state; a history lists the calls made since a start, oldest first, each with its
answer.  `Serves step cond s h t` says that the calls of `h` lead from `s` to `t` and
that each of them met `cond` in the state it found.

What every call keeps holds at the end (`Serves.invariant`).
-/
import Mathlib.Data.Nat.Notation

namespace Interaction

variable {σ ι ο : Type}

/-- The histories of a service that answers a call `i` in the state `s` by `step i s`. -/
inductive Serves (step : ι → σ → ο × σ) (cond : σ → ι → Prop) (s : σ) :
    List (ι × ο) → σ → Prop
  | start : Serves step cond s [] s
  | call {h : List (ι × ο)} {t : σ} {i : ι} (hserves : Serves step cond s h t) (hcond : cond t i) :
      Serves step cond s (h ++ [(i, (step i t).1)]) (step i t).2

namespace Serves

variable {step : ι → σ → ο × σ} {cond : σ → ι → Prop} {s t : σ} {h : List (ι × ο)}

/-- **Induction on a history**: what each call that meets the condition keeps holds at
the end. -/
theorem invariant {I : List (ι × ο) → σ → Prop} (hstart : I [] s)
    (hcall : ∀ h t i, I h t → cond t i → I (h ++ [(i, (step i t).1)]) (step i t).2)
    (hserves : Serves step cond s h t) : I h t := by
  induction hserves with
  | start => exact hstart
  | call _ hcond ih => exact hcall _ _ _ ih hcond

theorem mono {cond' : σ → ι → Prop} (h' : ∀ t i, cond t i → cond' t i)
    (hserves : Serves step cond s h t) : Serves step cond' s h t := by
  induction hserves with
  | start => exact .start
  | call _ hcond ih => exact ih.call (h' _ _ hcond)

end Serves

end Interaction
