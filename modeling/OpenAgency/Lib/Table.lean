/-
Lib/Table.lean

Tables of a relational store.  A table holds rows under a primary key that is a
column of the row, so a row can only be stored under its own key and a key has
at most one row.  The rows are an association list without duplicate keys, whose
`lookup` and `insert` are the library's own.

`save` writes a whole row over whatever its key held, `updateIf` changes one row
if it meets a condition and answers how many rows it changed, and
`selectOrdered` is a selection with an order.
-/
import Mathlib.Data.List.AList
import Mathlib.Data.List.Perm.Subperm
import Mathlib.Data.List.Sort

namespace Relational

open List AList

variable {κ ρ : Type} [DecidableEq κ]

/-- Rows of type `ρ`, each stored under its own `key`. -/
structure Table (key : ρ → κ) where
  rows : AList fun _ : κ => ρ
  keyed : ∀ k r, rows.lookup k = some r → key r = k

namespace Table

variable {key : ρ → κ}

/-- The table without rows. -/
def empty : Table key := ⟨∅, fun k r h => by simp at h⟩

/-- The row under a key. -/
def get (t : Table key) (k : κ) : Option ρ := t.rows.lookup k

variable {t : Table key}

variable {r : ρ}

theorem key_of_get {k : κ} (h : t.get k = some r) : key r = k := t.keyed k r h

@[simp] theorem get_empty (k : κ) : (empty : Table key).get k = none := rfl

/-- Write a whole row over whatever its key held. -/
def save (t : Table key) (r : ρ) : Table key where
  rows := t.rows.insert (key r) r
  keyed k r' h := by
    by_cases hk : k = key r
    · subst hk
      rw [lookup_insert] at h
      exact Option.some.inj h ▸ rfl
    · rw [lookup_insert_ne hk] at h
      exact t.keyed k r' h

theorem get_save (t : Table key) (r : ρ) (k : κ) :
    (t.save r).get k = if k = key r then some r else t.get k := by
  by_cases hk : k = key r
  · subst hk
    rw [if_pos rfl]
    exact lookup_insert t.rows
  · rw [if_neg hk]
    exact lookup_insert_ne hk

@[simp] theorem get_save_self (t : Table key) (r : ρ) : (t.save r).get (key r) = some r := by
  simp [get_save]

theorem get_save_ne {k : κ} (h : k ≠ key r) : (t.save r).get k = t.get k := by
  simp [get_save, h]

/-! ### Conditional update -/

/-- `UPDATE … SET f WHERE key = k AND p`, with its row count. -/
def updateIf (t : Table key) (k : κ) (p : ρ → Bool) (f : ρ → ρ) : ℕ × Table key :=
  match t.get k with
  | some r => if p r then (1, t.save (f r)) else (0, t)
  | none => (0, t)

/-- A conditional update changes one row that meets the condition, or nothing. -/
theorem updateIf_cases (t : Table key) (k : κ) (p : ρ → Bool) (f : ρ → ρ) :
    (∃ r, t.get k = some r ∧ p r ∧ t.updateIf k p f = (1, t.save (f r))) ∨
    ((∀ r, t.get k = some r → p r = false) ∧ t.updateIf k p f = (0, t)) := by
  rcases h : t.get k with - | r
  · exact .inr ⟨by simp, by simp [updateIf, h]⟩
  · rcases hp : p r with - | -
    · exact .inr ⟨by simpa using hp, by simp [updateIf, h, hp]⟩
    · exact .inl ⟨r, rfl, hp, by simp [updateIf, h, hp]⟩

variable {p : ρ → Bool}

theorem updateIf_pos {k : κ} {f : ρ → ρ} (h : t.get k = some r) (hp : p r) :
    t.updateIf k p f = (1, t.save (f r)) := by
  simp [updateIf, h, hp]

theorem updateIf_neg {k : κ} {f : ρ → ρ} (h : ∀ r, t.get k = some r → p r = false) :
    t.updateIf k p f = (0, t) := by
  rcases updateIf_cases t k p f with ⟨r, hr, hp, -⟩ | ⟨-, e⟩
  · simp [h r hr] at hp
  · exact e

/-! ### Selection -/

/-- The rows that meet `p`. -/
def select (t : Table key) (p : ρ → Bool) : List ρ :=
  (t.rows.entries.map Sigma.snd).filter p

theorem mem_select : r ∈ t.select p ↔ t.get (key r) = some r ∧ p r := by
  rw [select, mem_filter, mem_map]
  refine and_congr_left fun _ => ⟨?_, fun h => ?_⟩
  · rintro ⟨⟨k, r⟩, hk, rfl⟩
    have h : t.get k = some r := mem_lookup_iff.mpr hk
    simpa [key_of_get h] using h
  · exact ⟨⟨key r, r⟩, mem_lookup_iff.mp h, rfl⟩

/-- `SELECT … WHERE p ORDER BY le`. -/
def selectOrdered (t : Table key) (p : ρ → Bool) (le : ρ → ρ → Bool) : List ρ :=
  (t.select p).insertionSort fun a b => le a b

theorem mem_selectOrdered {le : ρ → ρ → Bool} :
    r ∈ t.selectOrdered p le ↔ t.get (key r) = some r ∧ p r := by
  rw [selectOrdered, mem_insertionSort, mem_select]

/-! ### Keys of a selection -/

/-- A selection has no two rows under one key. -/
theorem nodup_keys_select (t : Table key) (p : ρ → Bool) : ((t.select p).map key).Nodup := by
  have hkeys : (t.rows.entries.map Sigma.snd).map key = t.rows.entries.map Sigma.fst := by
    rw [map_map]
    apply map_congr_left
    rintro ⟨k, r⟩ hk
    exact key_of_get (t := t) (mem_lookup_iff.mpr hk)
  have hnodup : ((t.rows.entries.map Sigma.snd).map key).Nodup := by
    rw [hkeys]
    exact t.rows.nodupKeys
  exact hnodup.sublist (List.filter_sublist.map key)

theorem nodup_keys_selectOrdered (t : Table key) (p : ρ → Bool) (le : ρ → ρ → Bool) :
    ((t.selectOrdered p le).map key).Nodup := by
  have hperm := (perm_insertionSort (fun a b => le a b = true) (t.select p)).map key
  exact hperm.nodup_iff.mpr (t.nodup_keys_select p)

/-- Rows that a column tells apart, ordered by it downwards. -/
theorem pairwise_selectOrdered_desc {β : Type} [LinearOrder β] (f : ρ → β)
    (hinj : ∀ r ∈ t.select p, ∀ r' ∈ t.select p, f r = f r' → key r = key r') :
    (t.selectOrdered p fun a b => decide (f b ≤ f a)).Pairwise fun a b => f b < f a := by
  have htotal : Std.Total fun a b : ρ => decide (f b ≤ f a) = true :=
    ⟨fun a b => by simpa using le_total (f b) (f a)⟩
  have htrans : IsTrans ρ fun a b => decide (f b ≤ f a) = true :=
    ⟨fun a b c hab hbc => by
      simp only [decide_eq_true_eq] at hab hbc ⊢
      exact hbc.trans hab⟩
  have hsorted := pairwise_insertionSort (fun a b : ρ => decide (f b ≤ f a) = true)
    (t.select p)
  have hkeys := List.pairwise_map.mp (t.nodup_keys_selectOrdered p fun a b => decide (f b ≤ f a))
  refine (List.Pairwise.and hsorted hkeys).imp_of_mem ?_
  rintro a b ha hb ⟨hle, hne⟩
  refine lt_of_le_of_ne (of_decide_eq_true hle) fun heq => hne ?_
  rw [mem_insertionSort] at ha hb
  exact hinj a ha b hb heq.symm

/-- The head of a selection that is ordered downwards is its greatest row. -/
theorem head?_selectOrdered_desc {β : Type} [LinearOrder β] (f : ρ → β)
    (hinj : ∀ r ∈ t.select p, ∀ r' ∈ t.select p, f r = f r' → key r = key r') :
    (t.selectOrdered p fun a b => decide (f b ≤ f a)).head? = some r ↔
      r ∈ t.select p ∧ ∀ r' ∈ t.select p, f r' ≤ f r := by
  have hpairs := pairwise_selectOrdered_desc f hinj
  have hmem : ∀ r', r' ∈ t.selectOrdered p (fun a b => decide (f b ≤ f a)) ↔ r' ∈ t.select p :=
    fun r' => mem_insertionSort _
  rcases hrows : t.selectOrdered p fun a b => decide (f b ≤ f a) with - | ⟨head, rest⟩
  · rw [hrows] at hmem
    constructor
    · intro h
      cases h
    · rintro ⟨hr, -⟩
      cases (hmem r).mpr hr
  · rw [hrows] at hpairs hmem
    have hgreatest : ∀ r' ∈ t.select p, f r' ≤ f head := by
      intro r' hr'
      rcases List.mem_cons.mp ((hmem r').mpr hr') with rfl | hrest
      · exact le_rfl
      · exact (rel_of_pairwise_cons hpairs hrest).le
    rw [List.head?_cons, Option.some.injEq]
    constructor
    · rintro rfl
      exact ⟨(hmem head).mp mem_cons_self, hgreatest⟩
    · rintro ⟨hr, hall⟩
      rcases List.mem_cons.mp ((hmem r).mpr hr) with rfl | hrest
      · rfl
      · have hlt := rel_of_pairwise_cons hpairs hrest
        have hhead := (hmem head).mp mem_cons_self
        exact absurd (hall head hhead) (not_le.mpr hlt)

/-! ### Counting rows -/

/-- Rows are counted by their keys. -/
theorem length_select_le {ks : List κ} (h : ∀ r, t.get (key r) = some r → p r → key r ∈ ks) :
    (t.select p).length ≤ ks.length := by
  have hsubset : (t.select p).map key ⊆ ks := by
    intro k hk
    obtain ⟨r, hr, rfl⟩ := List.mem_map.mp hk
    obtain ⟨hget, hp⟩ := mem_select.mp hr
    exact h r hget hp
  have hle := (subperm_of_subset (t.nodup_keys_select p) hsubset).length_le
  rwa [length_map] at hle

/-- A row that does not count, written over one that may. -/
theorem length_select_save_le (hr : p r = false) :
    ((t.save r).select p).length ≤ (t.select p).length := by
  have hlength : ((t.select p).map key).length = (t.select p).length := length_map key
  rw [← hlength]
  refine length_select_le fun r' hget hp => mem_map_of_mem (mem_select.mpr ⟨?_, hp⟩)
  rw [get_save] at hget
  split at hget
  · obtain rfl := Option.some.inj hget
    cases hr.symm.trans hp
  · exact hget

/-- One more row at most. -/
theorem length_select_save_le_succ (t : Table key) (p : ρ → Bool) (r : ρ) :
    ((t.save r).select p).length ≤ (t.select p).length + 1 := by
  have hlength : (key r :: (t.select p).map key).length = (t.select p).length + 1 := by simp
  rw [← hlength]
  refine length_select_le fun r' hget hp => ?_
  rw [get_save] at hget
  split at hget
  next hkey => exact List.mem_cons.mpr (.inl hkey)
  · exact mem_cons_of_mem _ (mem_map_of_mem (mem_select.mpr ⟨hget, hp⟩))

end Table

end Relational
