/-
Lib/Inputs.lean

Inputs taken one after the other.  `EveryInput P xs` says of each of them that `P` holds
of the inputs before it and of itself.  Two such properties agree on a whole sequence if
they agree at every step, as long as an invariant holds that the second one keeps.
-/
import Mathlib.Data.List.Induction

namespace Interaction

variable {α : Type*} {P Q : List α → α → Prop}

/-- Each input, after those before it. -/
def EveryInput (P : List α → α → Prop) (xs : List α) : Prop :=
  ∀ before x rest, xs = before ++ x :: rest → P before x

theorem everyInput_nil : EveryInput P [] := by
  intro before x rest h
  cases before <;> cases h

variable {xs : List α}

theorem everyInput_cons {x : α} :
    EveryInput P (x :: xs) ↔ P [] x ∧ EveryInput (fun before => P (x :: before)) xs := by
  constructor
  · intro h
    refine ⟨h [] x xs rfl, fun before y rest hsplit => ?_⟩
    apply h (x :: before) y rest
    rw [hsplit]
    rfl
  · rintro ⟨hx, hxs⟩ before y rest hsplit
    cases before with
    | nil =>
      cases hsplit
      exact hx
    | cons z before =>
      cases hsplit
      exact hxs before y rest rfl

theorem everyInput_append {x : α} : EveryInput P (xs ++ [x]) ↔ EveryInput P xs ∧ P xs x := by
  constructor
  · intro h
    refine ⟨fun before y rest hsplit => ?_, h xs x [] rfl⟩
    apply h before y (rest ++ [x])
    rw [hsplit, List.append_assoc, List.cons_append]
  · rintro ⟨hxs, hx⟩ before y rest hsplit
    rcases List.eq_nil_or_concat rest with rfl | ⟨rest, z, rfl⟩
    · obtain ⟨rfl, hyx⟩ := List.append_inj' hsplit rfl
      rw [← List.singleton_inj.mp hyx]
      exact hx
    · apply hxs before y rest
      rw [List.concat_eq_append, ← List.cons_append, ← List.append_assoc] at hsplit
      exact (List.append_inj' hsplit rfl).1

theorem everyInput_singleton {x : α} : EveryInput P [x] ↔ P [] x := by
  have happend : EveryInput P ([] ++ [x]) ↔ EveryInput P [] ∧ P [] x := everyInput_append
  rw [List.nil_append] at happend
  exact happend.trans (and_iff_right everyInput_nil)

/-- The input at one place, after those before that place. -/
theorem EveryInput.at (h : EveryInput P xs) {n : ℕ} {x : α} (hx : xs[n]? = some x) :
    P (xs.take n) x := by
  obtain ⟨hn, rfl⟩ := List.getElem?_eq_some_iff.mp hx
  apply h (xs.take n) xs[n] (xs.drop (n + 1))
  rw [List.getElem_cons_drop, List.take_append_drop]

end Interaction
