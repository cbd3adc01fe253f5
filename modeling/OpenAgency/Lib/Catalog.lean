/-
Lib/Catalog.lean

Dictionaries whose items carry their own key and keep the order in which their keys
first came: `put` overwrites an item in its place and adds a new one at the end.
-/
import Mathlib.Data.List.Sort

namespace Relational

open List

variable {κ ρ : Type} [DecidableEq κ]

/-- Items in order of insertion, no two under one key. -/
structure Catalog (key : ρ → κ) where
  items : List ρ
  nodup : (items.map key).Nodup

namespace Catalog

variable {key : ρ → κ}

def empty : Catalog key := ⟨[], nodup_nil⟩

/-- The item under a key. -/
def get (c : Catalog key) (k : κ) : Option ρ := c.items.find? (key · = k)

variable {c : Catalog key}

theorem key_of_get {k : κ} {r : ρ} (h : c.get k = some r) : key r = k := by
  simpa using List.find?_some h

theorem mem_of_get {k : κ} {r : ρ} (h : c.get k = some r) : r ∈ c.items := mem_of_find?_eq_some h

theorem get_of_mem {r : ρ} (h : r ∈ c.items) : c.get (key r) = some r := by
  have hsome : (c.get (key r)).isSome := by
    rw [get, List.find?_isSome]
    exact ⟨r, h, by simp⟩
  obtain ⟨r', hr'⟩ := Option.isSome_iff_exists.mp hsome
  rw [hr', inj_on_of_nodup_map c.nodup (mem_of_get hr') h (key_of_get hr')]

/-- Write an item over the one under its key, or at the end. -/
def putItem (key : ρ → κ) (r : ρ) : List ρ → List ρ
  | [] => [r]
  | r' :: rs => if key r' = key r then r :: rs else r' :: putItem key r rs

theorem map_putItem (r : ρ) (rs : List ρ) :
    (putItem key r rs).map key
      = if key r ∈ rs.map key then rs.map key else rs.map key ++ [key r] := by
  induction rs with
  | nil => rfl
  | cons r' rs ih =>
    by_cases h : key r' = key r
    · simp [putItem, h]
    · rw [putItem, if_neg h, map_cons, ih]
      by_cases hmem : key r ∈ rs.map key
      · rw [if_pos hmem, map_cons, if_pos (mem_cons_of_mem _ hmem)]
      · have hmem' : key r ∉ key r' :: rs.map key := by
          rw [mem_cons]
          exact not_or.mpr ⟨Ne.symm h, hmem⟩
        rw [if_neg hmem, map_cons, if_neg hmem', cons_append]

theorem find?_putItem (r : ρ) (rs : List ρ) (k : κ) :
    (putItem key r rs).find? (key · = k) = if k = key r then some r else rs.find? (key · = k) := by
  induction rs with
  | nil => by_cases h : k = key r <;> simp [putItem, h, eq_comm]
  | cons r' rs ih =>
    by_cases h : key r' = key r
    · by_cases hk : k = key r
      · simp [putItem, h, hk]
      · simp [putItem, h, hk, Ne.symm hk]
    · rw [putItem, if_neg h, List.find?_cons, ih, List.find?_cons]
      by_cases hk : k = key r
      · simp [hk, h]
      · simp [hk]

/-- Store an item under its key. -/
def put (c : Catalog key) (r : ρ) : Catalog key where
  items := putItem key r c.items
  nodup := by
    rw [map_putItem]
    by_cases h : key r ∈ c.items.map key
    · rw [if_pos h]
      exact c.nodup
    · rw [if_neg h]
      exact List.nodup_append.mpr ⟨c.nodup, nodup_singleton _,
        fun a ha b hb e => h (by simpa [List.mem_singleton.mp hb, e] using ha)⟩

theorem get_put (c : Catalog key) (r : ρ) (k : κ) :
    (c.put r).get k = if k = key r then some r else c.get k := find?_putItem r c.items k

@[simp] theorem get_put_self (c : Catalog key) (r : ρ) : (c.put r).get (key r) = some r := by
  rw [get_put, if_pos rfl]

theorem get_put_ne {r : ρ} {k : κ} (h : k ≠ key r) : (c.put r).get k = c.get k := by
  rw [get_put, if_neg h]

theorem get_eq_some {k : κ} {r : ρ} : c.get k = some r ↔ r ∈ c.items ∧ key r = k := by
  constructor
  · intro h
    exact ⟨mem_of_get h, key_of_get h⟩
  · rintro ⟨h, rfl⟩
    exact get_of_mem h

omit [DecidableEq κ] in
/-- Two items under one key are one item. -/
theorem eq_of_key {r r' : ρ} (h : r ∈ c.items) (h' : r' ∈ c.items) (hkey : key r = key r') :
    r = r' :=
  inj_on_of_nodup_map c.nodup h h' hkey

theorem mem_put {r r' : ρ} : r' ∈ (c.put r).items ↔ r' = r ∨ r' ∈ c.items ∧ key r' ≠ key r := by
  have hget : r' ∈ (c.put r).items ↔ (c.put r).get (key r') = some r' := ⟨get_of_mem, mem_of_get⟩
  rw [hget, get_put]
  by_cases h : key r' = key r
  · simp only [h, if_true, Option.some.injEq, ne_eq, not_true_eq_false, and_false, or_false]
    exact eq_comm
  · rw [if_neg h, get_eq_some]
    constructor
    · rintro ⟨hmem, -⟩
      exact .inr ⟨hmem, h⟩
    · rintro (rfl | ⟨hmem, -⟩)
      · exact absurd rfl h
      · exact ⟨hmem, rfl⟩

/-- Drop the item under a key. -/
def erase (c : Catalog key) (k : κ) : Catalog key where
  items := c.items.filter (key · ≠ k)
  nodup := (List.filter_sublist.map key).nodup c.nodup

theorem mem_erase {k : κ} {r : ρ} : r ∈ (c.erase k).items ↔ r ∈ c.items ∧ key r ≠ k := by
  simp [erase]

omit [DecidableEq κ] in
theorem perm_of_mem_iff {items : List ρ} (hnodup : items.Nodup)
    (h : ∀ r, r ∈ c.items ↔ r ∈ items) : c.items.Perm items :=
  (perm_ext_iff_of_nodup c.nodup.of_map hnodup).mpr h

theorem nodup_cons_erase (c : Catalog key) (r : ρ) : (r :: (c.erase (key r)).items).Nodup :=
  List.nodup_cons.mpr ⟨fun h => (mem_erase.mp h).2 rfl, (c.erase (key r)).nodup.of_map⟩

/-- What is stored stands beside the items under the other keys. -/
theorem perm_put (c : Catalog key) (r : ρ) :
    (c.put r).items.Perm (r :: (c.erase (key r)).items) := by
  refine perm_of_mem_iff (c.nodup_cons_erase r) fun r' => ?_
  rw [mem_put, mem_cons, mem_erase]

theorem perm_of_get {k : κ} {r : ρ} (h : c.get k = some r) :
    c.items.Perm (r :: (c.erase k).items) := by
  obtain ⟨hmem, rfl⟩ := get_eq_some.mp h
  refine perm_of_mem_iff (c.nodup_cons_erase r) fun r' => ?_
  rw [mem_cons, mem_erase]
  constructor
  · intro hr'
    by_cases hkey : key r' = key r
    · exact .inl (eq_of_key hr' hmem hkey)
    · exact .inr ⟨hr', hkey⟩
  · rintro (rfl | ⟨hr', -⟩)
    · exact hmem
    · exact hr'

theorem perm_put_of_notMem {r : ρ} (h : key r ∉ c.items.map key) :
    (c.put r).items.Perm (r :: c.items) := by
  have herase : (c.erase (key r)).items = c.items := List.filter_eq_self.mpr fun r' hr' => by
    have hne : key r' ≠ key r := fun e => h (e ▸ List.mem_map_of_mem hr')
    simpa using hne
  exact herase ▸ c.perm_put r

/-- Drop the items that fail a test. -/
def filter (c : Catalog key) (keep : ρ → Bool) : Catalog key where
  items := c.items.filter keep
  nodup := (List.filter_sublist.map key).nodup c.nodup

omit [DecidableEq κ] in
theorem mem_filter {keep : ρ → Bool} {r : ρ} :
    r ∈ (c.filter keep).items ↔ r ∈ c.items ∧ keep r := List.mem_filter

end Catalog

end Relational
