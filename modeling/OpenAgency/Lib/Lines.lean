/-
Lib/Lines.lean

Text in lines, and the first element of a list that has a name.  A block of lines, none of
them empty, ends at the first blank line of the text it heads.
-/
import Mathlib.Data.List.DropRight

namespace Lines

open List

/-- What follows the first blank line. -/
def afterBlankLine : List Char → List Char
  | [] => []
  | '\n' :: '\n' :: text => text
  | _ :: text => afterBlankLine text

theorem afterBlankLine_cons {c : Char} (h : c ≠ '\n') (text : List Char) :
    afterBlankLine (c :: text) = afterBlankLine text := by
  rw [afterBlankLine]
  exact fun _ hc => absurd hc h

/-- A line end before a line that is not empty. -/
theorem afterBlankLine_lineEnd {c : Char} (h : c ≠ '\n') (text : List Char) :
    afterBlankLine ('\n' :: c :: text) = afterBlankLine (c :: text) := by
  rw [afterBlankLine]
  rintro rest - hrest
  exact h (List.cons.inj hrest).1

theorem afterBlankLine_append {line : List Char} (h : '\n' ∉ line) (text : List Char) :
    afterBlankLine (line ++ text) = afterBlankLine text := by
  induction line with
  | nil => rfl
  | cons c line ih =>
    obtain ⟨hc, hline⟩ := not_or.mp (mt List.mem_cons.mpr h)
    rw [cons_append, afterBlankLine_cons (Ne.symm hc), ih hline]

/-- **A block of lines** ends at the first blank line. -/
theorem afterBlankLine_block {lines : List (List Char)}
    (h : ∀ line ∈ lines, line ≠ [] ∧ '\n' ∉ line) (text : List Char) :
    afterBlankLine (['\n'].intercalate lines ++ '\n' :: '\n' :: text) = text := by
  induction lines with
  | nil => rfl
  | cons line lines ih =>
    obtain ⟨⟨-, hline⟩, hlines⟩ := List.forall_mem_cons.mp h
    cases lines with
    | nil =>
      rw [intercalate_singleton, afterBlankLine_append hline]
      rfl
    | cons next lines =>
      obtain ⟨⟨hne, hnext⟩, -⟩ := List.forall_mem_cons.mp hlines
      obtain ⟨c, rest, rfl⟩ := exists_cons_of_ne_nil hne
      have hblock : ∃ more, ['\n'].intercalate ((c :: rest) :: lines) = c :: more := by
        cases lines with
        | nil => exact ⟨rest, intercalate_singleton⟩
        | cons last lines => exact ⟨_, by rw [intercalate_cons_cons]; rfl⟩
      obtain ⟨more, hmore⟩ := hblock
      have hc : c ≠ '\n' := fun hc => hnext (hc ▸ mem_cons_self)
      have hih := ih hlines
      rw [hmore] at hih
      rw [intercalate_cons_cons, hmore, append_assoc, append_assoc,
        afterBlankLine_append hline]
      exact (afterBlankLine_lineEnd hc _).trans hih

variable {α : Type*}

variable {p : α → Bool}

/-- Trimming at the end leaves a beginning whose last element stays. -/
theorem prefix_rdropWhile {front : List α} (hne : front ≠ []) (h : p (front.getLast hne) = false)
    (text : List α) :
    front <+: (front ++ text).rdropWhile p := by
  induction text using List.reverseRecOn with
  | nil =>
    have hself : front.rdropWhile p = front := List.rdropWhile_eq_self_iff.mpr fun _ => by simp [h]
    rw [append_nil]
    exact ⟨[], (append_nil front).trans hself.symm⟩
  | append_singleton text c ih =>
    rw [← append_assoc]
    cases hc : p c with
    | true => rwa [rdropWhile_concat_pos _ _ _ hc]
    | false =>
      rw [rdropWhile_concat_neg _ _ _ (by simp [hc]), append_assoc]
      exact prefix_append _ _

/-! ### The first element of a kind -/

/-- Change the first element that `p` holds of, and no other. -/
def modifyFirst (p : α → Bool) (f : α → α) : List α → List α
  | [] => []
  | x :: xs => if p x then f x :: xs else x :: modifyFirst p f xs

theorem modifyFirst_append {f : α → α} {before rest : List α} {x : α}
    (h : ∀ y ∈ before, p y = false) (hx : p x = true) :
    modifyFirst p f (before ++ x :: rest) = before ++ f x :: rest := by
  induction before with
  | nil => exact if_pos hx
  | cons y before ih =>
    obtain ⟨hy, hbefore⟩ := List.forall_mem_cons.mp h
    rw [cons_append, modifyFirst, if_neg (by simp [hy]), ih hbefore]
    rfl

theorem find?_append_cons {before rest : List α} {x : α} (h : ∀ y ∈ before, p y = false)
    (hx : p x = true) :
    (before ++ x :: rest).find? p = some x := by
  rw [List.find?_append, List.find?_eq_none.mpr (by simpa using h), Option.none_or,
    List.find?_cons_of_pos hx]

end Lines
