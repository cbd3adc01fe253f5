/-
Lib/Removal.lean

Lists from which the elements at some positions are taken out.  What a property says of an
element and of those before it survives the removal exactly if, of each element that stays,
it can still be seen on the positions that stay.
-/
import Mathlib.Algebra.BigOperators.Group.List.Basic
import Mathlib.Algebra.GroupWithZero.Nat
import OpenAgency.Lib.Inputs

namespace Removal

open Interaction List

variable {α : Type*} (gone : ℕ → Bool)

/-- The elements whose position, counted from `start`, is not gone. -/
def without (start : ℕ) (l : List α) : List α :=
  ((l.zipIdx start).filter fun p => !gone p.2).map Prod.fst

/-- The elements whose position is gone. -/
def removed (start : ℕ) (l : List α) : List α :=
  ((l.zipIdx start).filter fun p => gone p.2).map Prod.fst

variable {gone}

variable (gone) in
theorem without_append (start : ℕ) (l₁ l₂ : List α) :
    without gone start (l₁ ++ l₂) =
      without gone start l₁ ++ without gone (start + l₁.length) l₂ := by
  unfold without
  rw [zipIdx_append, filter_append, map_append, Nat.add_comm]

theorem without_singleton (start : ℕ) (x : α) :
    without gone start [x] = if gone start then [] else [x] := by
  unfold without
  cases h : gone start <;> simp [h]

variable {l : List α}

variable {start : ℕ}

theorem mem_without {x : α} :
    x ∈ without gone start l ↔ ∃ i, l[i]? = some x ∧ gone (start + i) = false := by
  unfold without
  constructor
  · intro h
    obtain ⟨⟨y, i⟩, hy, rfl⟩ := List.mem_map.mp h
    obtain ⟨hmem, hgone⟩ := List.mem_filter.mp hy
    obtain ⟨hle, hat⟩ := mk_mem_zipIdx_iff_le_and_getElem?_sub.mp hmem
    refine ⟨i - start, hat, ?_⟩
    rw [Nat.add_sub_cancel' hle]
    simpa using hgone
  · rintro ⟨i, hat, hgone⟩
    apply mem_map_of_mem (f := Prod.fst) (a := (x, start + i))
    apply List.mem_filter.mpr
    exact ⟨mk_add_mem_zipIdx_iff_getElem?.mpr hat, by simp [hgone]⟩

theorem mem_removed {x : α} :
    x ∈ removed gone start l ↔ ∃ i, l[i]? = some x ∧ gone (start + i) = true := by
  have hcomplement : removed gone start l = without (fun i => !gone i) start l := by
    simp only [removed, without, Bool.not_not]
  rw [hcomplement, mem_without]
  simp

/-- Where no position is gone nothing is taken out. -/
theorem without_eq_self (h : ∀ i < l.length, gone (start + i) = false) :
    without gone start l = l := by
  induction l using List.reverseRecOn with
  | nil => rfl
  | append_singleton l x ih =>
    have hl : without gone start l = l := by
      apply ih
      intro i hi
      apply h
      rw [length_append]
      omega
    have hx : gone (start + l.length) = false := h _ (by simp)
    rw [without_append, without_singleton, hl, hx]
    rfl

/-- What never stands at a position that is gone is kept in its order. -/
theorem filter_sublist_without {keep : α → Bool}
    (h : ∀ i x, l[i]? = some x → keep x = true → gone (start + i) = false) :
    (l.filter keep).Sublist (without gone start l) := by
  induction l using List.reverseRecOn with
  | nil => exact List.Sublist.refl _
  | append_singleton l x ih =>
    rw [filter_append, without_append, without_singleton]
    apply List.Sublist.append
    · apply ih
      intro i y hy
      obtain ⟨hi, -⟩ := List.getElem?_eq_some_iff.mp hy
      apply h
      rw [List.getElem?_append_left hi, hy]
    · cases hkeep : keep x with
      | false => simp [hkeep]
      | true => simp [hkeep, h l.length x (by simp) hkeep]

variable (gone) in
/-- A measure of the list is that of what stays and of what is taken out. -/
theorem sum_without_add_removed (f : α → ℕ) (start : ℕ) (l : List α) :
    ((without gone start l).map f).sum + ((removed gone start l).map f).sum = (l.map f).sum := by
  unfold without removed
  induction l generalizing start with
  | nil => rfl
  | cons x l ih =>
    have htail := ih (start + 1)
    cases h : gone start <;>
      simp only [zipIdx_cons, filter_cons, h, Bool.not_false, Bool.not_true, if_true,
        Bool.false_eq_true, if_false, map_cons, sum_cons] <;>
      omega

section Preceded

variable {Q : α → Prop} {R : α → α → Prop}

/-- Every element with `Q` comes after one that `R` relates to it. -/
def Preceded (Q : α → Prop) (R : α → α → Prop) : List α → Prop :=
  EveryInput fun before x => Q x → ∃ y ∈ before, R y x

theorem preceded_append {x : α} :
    Preceded Q R (l ++ [x]) ↔ Preceded Q R l ∧ (Q x → ∃ y ∈ l, R y x) :=
  everyInput_append

/-- Every element with `Q` that stays comes after one that stays and that `R` relates to it. -/
def StillPreceded (gone : ℕ → Bool) (Q : α → Prop) (R : α → α → Prop) (l : List α) : Prop :=
  ∀ i x, l[i]? = some x → gone i = false → Q x →
    ∃ j < i, ∃ y, l[j]? = some y ∧ gone j = false ∧ R y x

theorem stillPreceded_append {z : α} :
    StillPreceded gone Q R (l ++ [z]) ↔ StillPreceded gone Q R l ∧
      (gone l.length = false → Q z → ∃ y ∈ without gone 0 l, R y z) := by
  have hlast : (l ++ [z])[l.length]? = some z := List.getElem?_concat_length
  have hinit : ∀ {i}, i < l.length → (l ++ [z])[i]? = l[i]? := List.getElem?_append_left
  constructor
  · intro h
    refine ⟨fun i x hx hstays hQ => ?_, fun hstays hQ => ?_⟩
    · obtain ⟨hi, -⟩ := List.getElem?_eq_some_iff.mp hx
      obtain ⟨j, hj, y, hy, hrest⟩ := h i x (by rw [hinit hi, hx]) hstays hQ
      exact ⟨j, hj, y, by rw [← hinit (Nat.lt_trans hj hi), hy], hrest⟩
    · obtain ⟨j, hj, y, hy, hkept, hR⟩ := h l.length z hlast hstays hQ
      rw [hinit hj] at hy
      exact ⟨y, mem_without.mpr ⟨j, hy, by rwa [Nat.zero_add]⟩, hR⟩
  · rintro ⟨h, hz⟩ i x hx hstays hQ
    obtain ⟨hi, -⟩ := List.getElem?_eq_some_iff.mp hx
    rw [length_append, length_singleton] at hi
    rcases Nat.lt_succ_iff_lt_or_eq.mp hi with hlt | rfl
    · rw [hinit hlt] at hx
      obtain ⟨j, hj, y, hy, hrest⟩ := h i x hx hstays hQ
      exact ⟨j, hj, y, by rw [hinit (Nat.lt_trans hj hlt), hy], hrest⟩
    · rw [hlast] at hx
      cases hx
      obtain ⟨y, hy, hR⟩ := hz hstays hQ
      obtain ⟨j, hj, hkept⟩ := mem_without.mp hy
      obtain ⟨hlt, -⟩ := List.getElem?_eq_some_iff.mp hj
      rw [Nat.zero_add] at hkept
      exact ⟨j, hlt, y, by rw [hinit hlt, hj], hkept, hR⟩

/-- **Precedence after a removal** is precedence among what stays. -/
theorem preceded_without : Preceded Q R (without gone 0 l) ↔ StillPreceded gone Q R l := by
  induction l using List.reverseRecOn with
  | nil => exact iff_of_true everyInput_nil (fun i x h => by simp at h)
  | append_singleton l z ih =>
    rw [without_append, without_singleton, Nat.zero_add, stillPreceded_append, ← ih]
    cases hgone : gone l.length with
    | true => simp
    | false => simpa using preceded_append

theorem preceded_iff :
    Preceded Q R l ↔ ∀ (i : ℕ) (x : α), l[i]? = some x → Q x →
      ∃ j < i, ∃ y, l[j]? = some y ∧ R y x := by
  have hall : without (fun _ => false) 0 l = l := without_eq_self fun _ _ => rfl
  rw [← hall, preceded_without, hall]
  simp [StillPreceded]

/-- An element that neither needs a predecessor nor serves as one may stand anywhere. -/
theorem preceded_insert {l₁ l₂ : List α} {z : α} (hQ : ¬ Q z) (hR : ∀ x, ¬ R z x) :
    Preceded Q R (l₁ ++ z :: l₂) ↔ Preceded Q R (l₁ ++ l₂) := by
  induction l₂ using List.reverseRecOn with
  | nil =>
    rw [preceded_append, append_nil]
    exact and_iff_left fun h => absurd h hQ
  | append_singleton l x ih =>
    rw [← cons_append, ← append_assoc, ← append_assoc, preceded_append,
      preceded_append, ih]
    refine and_congr_right fun _ => imp_congr_right fun _ => exists_congr fun y => ?_
    simp only [mem_append, mem_cons]
    constructor
    · rintro ⟨hy | rfl | hy, hrel⟩
      · exact ⟨.inl hy, hrel⟩
      · exact absurd hrel (hR x)
      · exact ⟨.inr hy, hrel⟩
    · rintro ⟨hy | hy, hrel⟩
      · exact ⟨.inl hy, hrel⟩
      · exact ⟨.inr (.inr hy), hrel⟩

end Preceded

end Removal
