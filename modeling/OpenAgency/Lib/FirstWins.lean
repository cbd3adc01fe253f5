/-
Lib/FirstWins.lean

Stores that keep the first row of every key.  Adding a row whose key is there
leaves the store as it is, so what a list of rows leaves behind is decided by the
keys that were there and by the order of the list: `mem_addAll` says that
exactly the first row of each new key comes in.
-/
import Mathlib.Data.List.Basic

namespace FirstWins

variable {ρ κ : Type} [DecidableEq κ] (key : ρ → κ)

/-- Add a row, unless there is one with its key. -/
def add (rows : List ρ) (r : ρ) : List ρ :=
  if key r ∈ rows.map key then rows else rows ++ [r]

/-- Add rows one after the other. -/
def addAll (rows : List ρ) (news : List ρ) : List ρ := news.foldl (add key) rows

/-- The first of the new rows with its key, where no old row has that key. -/
def FirstNew (rows news : List ρ) (r : ρ) : Prop :=
  key r ∉ rows.map key ∧ ∃ before after, news = before ++ r :: after ∧ key r ∉ before.map key

variable {key} {rows news : List ρ} {r a : ρ}

theorem add_of_mem (h : key r ∈ rows.map key) : add key rows r = rows := if_pos h

theorem add_of_notMem (h : key r ∉ rows.map key) : add key rows r = rows ++ [r] := if_neg h

@[simp] theorem addAll_nil : addAll key rows [] = rows := rfl

@[simp] theorem addAll_cons : addAll key rows (a :: news) = addAll key (add key rows a) news := rfl

omit [DecidableEq κ] in
theorem not_firstNew_nil : ¬ FirstNew key rows [] r := by
  rintro ⟨-, before, after, h, -⟩
  simp at h

omit [DecidableEq κ] in
/-- The first new row is the head, or it comes first in the rest with a key of its own. -/
theorem firstNew_cons :
    FirstNew key rows (a :: news) r ↔
      key r ∉ rows.map key ∧ (r = a ∨ key r ≠ key a ∧ FirstNew key rows news r) := by
  constructor
  · rintro ⟨hnew, before, after, h, hbefore⟩
    refine ⟨hnew, ?_⟩
    rcases before with - | ⟨b, before⟩
    · obtain ⟨rfl, -⟩ := List.cons_eq_cons.mp h
      exact .inl rfl
    · obtain ⟨rfl, hnews⟩ := List.cons_eq_cons.mp h
      rw [List.map_cons, List.mem_cons, not_or] at hbefore
      exact .inr ⟨hbefore.1, hnew, before, after, hnews, hbefore.2⟩
  · rintro ⟨hnew, rfl | ⟨hne, -, before, after, h, hbefore⟩⟩
    · exact ⟨hnew, [], news, rfl, List.not_mem_nil⟩
    · refine ⟨hnew, a :: before, after, by rw [h, List.cons_append], ?_⟩
      rw [List.map_cons, List.mem_cons, not_or]
      exact ⟨hne, hbefore⟩

/-- **What is there after the new rows.**  The old rows and the first row of each new key. -/
theorem mem_addAll : r ∈ addAll key rows news ↔ r ∈ rows ∨ FirstNew key rows news r := by
  induction news generalizing rows with
  | nil => simp [not_firstNew_nil]
  | cons a news ih =>
    rw [addAll_cons, ih, firstNew_cons]
    by_cases h : key a ∈ rows.map key
    · rw [add_of_mem h]
      refine or_congr_right ⟨fun hr => ⟨hr.1, .inr ⟨?_, hr⟩⟩, ?_⟩
      · exact fun e => hr.1 (e ▸ h)
      · rintro ⟨hnew, rfl | ⟨-, hr⟩⟩
        · exact absurd h hnew
        · exact hr
    · rw [add_of_notMem h, List.mem_append, List.mem_singleton, or_assoc]
      refine or_congr_right ?_
      have hkeys : key r ∉ (rows ++ [a]).map key ↔ key r ∉ rows.map key ∧ key r ≠ key a := by
        simp [not_or]
      constructor
      · rintro (rfl | ⟨hnew, hr⟩)
        · exact ⟨h, .inl rfl⟩
        · obtain ⟨hnew, hne⟩ := hkeys.mp hnew
          exact ⟨hnew, .inr ⟨hne, hnew, hr⟩⟩
      · rintro ⟨hnew, rfl | ⟨hne, -, hr⟩⟩
        · exact .inl rfl
        · exact .inr ⟨hkeys.mpr ⟨hnew, hne⟩, hr⟩

theorem mem_addAll_of_mem (h : r ∈ rows) : r ∈ addAll key rows news := mem_addAll.mpr (.inl h)

/-- The key of every new row is there afterwards. -/
theorem key_mem_addAll (h : r ∈ news) : key r ∈ (addAll key rows news).map key := by
  induction news generalizing rows with
  | nil => exact absurd h List.not_mem_nil
  | cons a news ih =>
    rw [addAll_cons]
    rcases List.mem_cons.mp h with rfl | h
    · have hadd : key r ∈ (add key rows r).map key := by
        by_cases hr : key r ∈ rows.map key
        · rw [add_of_mem hr]
          exact hr
        · rw [add_of_notMem hr]
          simp
      obtain ⟨b, hb, he⟩ := List.mem_map.mp hadd
      exact List.mem_map.mpr ⟨b, mem_addAll_of_mem hb, he⟩
    · exact ih h

end FirstWins
