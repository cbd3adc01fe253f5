/-
Lib/Selection.lean

Choosing from a collection: order by a key, largest first; keep what a test accepts; take
the first few; keep the first item of each identity.

Two facts carry the rest.  What a test keeps of an ordered collection depends only on the
members the test accepts (`filter_sortDesc_congr`), so it may be looked at before or after
anything that respects the order.  But an item is not among the first `k` where `k` larger
ones are in the way, whatever they are (`not_mem_take_of_crowd`).
-/
import Mathlib.Data.List.Sort

namespace Selection

open List

variable {α κ : Type}

/-! ### Largest first -/

section Order

variable [LinearOrder κ] (key : α → κ)

/-- Order by a key, largest first. -/
def sortDesc (l : List α) : List α := l.insertionSort fun a b => key b ≤ key a

theorem perm_sortDesc (l : List α) : (sortDesc key l).Perm l := perm_insertionSort _ l

@[simp] theorem mem_sortDesc {l : List α} {a : α} : a ∈ sortDesc key l ↔ a ∈ l :=
  (perm_sortDesc key l).mem_iff

theorem pairwise_sortDesc (l : List α) : (sortDesc key l).Pairwise fun a b => key b ≤ key a := by
  have : Std.Total fun a b : α => key b ≤ key a := ⟨fun a b => le_total (key b) (key a)⟩
  have : IsTrans α fun a b => key b ≤ key a := ⟨fun _ _ _ hab hbc => hbc.trans hab⟩
  exact pairwise_insertionSort _ l

@[simp] theorem sortDesc_nil : sortDesc key [] = [] := rfl

@[simp] theorem sortDesc_singleton (a : α) : sortDesc key [a] = [a] := rfl

variable {key}

/-- **What a test keeps of an ordered collection depends on what it accepts only.** -/
theorem filter_sortDesc_congr {l l' : List α} (hl : l.Nodup) (hl' : l'.Nodup)
    (hkey : ∀ a ∈ l, ∀ b ∈ l, key a = key b → a = b) {p : α → Bool}
    (h : ∀ a, p a → (a ∈ l ↔ a ∈ l')) :
    (sortDesc key l).filter p = (sortDesc key l').filter p := by
  have hmem : ∀ a, a ∈ (sortDesc key l).filter p ↔ a ∈ (sortDesc key l').filter p := by
    intro a
    simp only [mem_filter, mem_sortDesc]
    exact and_congr_left fun hp => h a hp
  have hnodup : ∀ {k : List α}, k.Nodup → ((sortDesc key k).filter p).Nodup := fun hk =>
    ((perm_sortDesc key _).nodup_iff.mpr hk).filter p
  refine @List.Perm.eq_of_pairwise _ (fun a b => key b ≤ key a) _ _ ?_
    ((pairwise_sortDesc key l).filter p) ((pairwise_sortDesc key l').filter p)
    ((perm_ext_iff_of_nodup (hnodup hl) (hnodup hl')).mpr hmem)
  intro a b ha hb hba hab
  have ha' : a ∈ l := (mem_sortDesc key).mp (List.mem_filter.mp ha).1
  have hb' : b ∈ l := (mem_sortDesc key).mp (List.mem_filter.mp ((hmem b).mpr hb)).1
  exact hkey a ha' b hb' (le_antisymm hab hba)

/-- **Crowding out**: behind `k` larger items an item is not among the first `k`. -/
theorem not_mem_take_of_crowd {l : List α} (hsorted : l.Pairwise fun a b => key b ≤ key a)
    {a : α} {k : ℕ} (hcrowd : k ≤ (l.filter fun b => key a < key b).length) :
    a ∉ l.take k := by
  intro hmem
  obtain ⟨pre, post, hsplit⟩ := append_of_mem hmem
  have hl : l = pre ++ a :: (post ++ l.drop k) := by
    rw [← cons_append, ← append_assoc, ← hsplit, take_append_drop]
  have hpost : (a :: (post ++ l.drop k)).filter (fun b => key a < key b) = [] := by
    rw [hl, pairwise_append] at hsorted
    rw [filter_eq_nil_iff]
    intro b hb
    rcases List.mem_cons.mp hb with rfl | hb
    · simp
    · simpa using (List.pairwise_cons.mp hsorted.2.1).1 b hb
  have hfilter : (l.filter fun b => key a < key b) = pre.filter fun b => key a < key b := by
    conv_lhs => rw [hl]
    rw [filter_append, hpost, append_nil]
  have hlength : pre.length + 1 ≤ k := by
    have htake : (l.take k).length ≤ k := length_take_le k l
    rw [hsplit, length_append, length_cons] at htake
    omega
  rw [hfilter] at hcrowd
  have hpre := length_filter_le (fun b => decide (key a < key b)) pre
  omega

end Order

/-! ### The first of each identity -/

section Firsts

variable [DecidableEq κ] (key : α → κ)

/-- The first item of each identity that has not been seen. -/
def firsts (seen : List κ) : List α → List α
  | [] => []
  | a :: l => if key a ∈ seen then firsts seen l else a :: firsts (key a :: seen) l

variable {key}

variable {l : List α}

variable {seen : List κ}

theorem mem_of_mem_firsts {a : α} (h : a ∈ firsts key seen l) : a ∈ l := by
  induction l generalizing seen with
  | nil => exact h
  | cons b l ih =>
    unfold firsts at h
    split at h
    · exact mem_cons_of_mem _ (ih h)
    · rcases List.mem_cons.mp h with rfl | h
      · exact mem_cons_self
      · exact mem_cons_of_mem _ (ih h)

theorem firsts_of_all_seen (h : ∀ a ∈ l, key a ∈ seen) :
    firsts key seen l = [] := by
  induction l with
  | nil => rfl
  | cons b l ih =>
    rw [firsts, if_pos (h b mem_cons_self)]
    exact ih fun a ha => h a (mem_cons_of_mem _ ha)

/-- The first items of copies of one item. -/
theorem firsts_of_all_eq {a : α} (hall : ∀ b ∈ l, b = a) (hmem : a ∈ l) :
    firsts key [] l = [a] := by
  cases l with
  | nil => exact absurd hmem not_mem_nil
  | cons b l =>
    obtain rfl := hall b mem_cons_self
    rw [firsts, if_neg not_mem_nil, firsts_of_all_seen]
    intro c hc
    rw [hall c (mem_cons_of_mem _ hc)]
    exact mem_cons_self

theorem key_notMem_of_mem_firsts {a : α} (h : a ∈ firsts key seen l) : key a ∉ seen := by
  induction l generalizing seen with
  | nil => exact absurd h not_mem_nil
  | cons b l ih =>
    unfold firsts at h
    split at h
    · exact ih h
    next hb =>
      rcases List.mem_cons.mp h with rfl | h
      · exact hb
      · exact fun hseen => ih h (mem_cons_of_mem _ hseen)

theorem nodup_map_firsts (seen : List κ) (l : List α) : ((firsts key seen l).map key).Nodup := by
  induction l generalizing seen with
  | nil => exact nodup_nil
  | cons b l ih =>
    unfold firsts
    split
    · exact ih seen
    · rw [map_cons, nodup_cons]
      refine ⟨fun hb => ?_, ih _⟩
      obtain ⟨a, ha, hkey⟩ := List.mem_map.mp hb
      refine key_notMem_of_mem_firsts ha ?_
      rw [hkey]
      exact mem_cons_self

/-- Where no two items have one identity, only those that were seen are left out. -/
theorem firsts_eq_filter (hl : (l.map key).Nodup) (seen : List κ) :
    firsts key seen l = l.filter fun a => key a ∉ seen := by
  induction l generalizing seen with
  | nil => rfl
  | cons b l ih =>
    rw [map_cons, nodup_cons] at hl
    obtain ⟨hb, hl⟩ := hl
    unfold firsts
    split
    next hseen => rw [ih hl, filter_cons_of_neg (by simpa using hseen)]
    next hnew =>
      rw [ih hl, filter_cons_of_pos (by simpa using hnew)]
      refine congrArg (b :: ·) (filter_congr fun a ha => ?_)
      have hne : key a ≠ key b := fun hkey => hb (hkey ▸ mem_map_of_mem ha)
      simp [hne]

theorem filter_firsts_aux {p : α → Bool} {seen seen' : List κ}
    (hkey : ∀ a ∈ l, ∀ b ∈ l, key a = key b → a = b)
    (hseen : ∀ a ∈ l, p a → (key a ∈ seen ↔ key a ∈ seen')) :
    (firsts key seen l).filter p = firsts key seen' (l.filter p) := by
  induction l generalizing seen seen' with
  | nil => rfl
  | cons b l ih =>
    have hkey' : ∀ a ∈ l, ∀ c ∈ l, key a = key c → a = c := fun a ha c hc =>
      hkey a (mem_cons_of_mem _ ha) c (mem_cons_of_mem _ hc)
    have hseen' : ∀ a ∈ l, p a → (key a ∈ seen ↔ key a ∈ seen') := fun a ha =>
      hseen a (mem_cons_of_mem _ ha)
    by_cases hb : key b ∈ seen
    · rw [firsts, if_pos hb, ih hkey' hseen']
      by_cases hp : p b
      · rw [filter_cons_of_pos hp, firsts,
          if_pos ((hseen b mem_cons_self hp).mp hb)]
      · rw [filter_cons_of_neg hp]
    · rw [firsts, if_neg hb]
      by_cases hp : p b
      · rw [filter_cons_of_pos hp, filter_cons_of_pos hp, firsts,
          if_neg fun hb' => hb ((hseen b mem_cons_self hp).mpr hb')]
        congr 1
        refine ih hkey' fun a ha hpa => ?_
        simp only [mem_cons, hseen' a ha hpa]
      · rw [filter_cons_of_neg hp, filter_cons_of_neg hp]
        refine ih hkey' fun a ha hpa => ?_
        rw [mem_cons, hseen' a ha hpa, or_iff_right]
        intro heq
        rw [hkey a (mem_cons_of_mem _ ha) b mem_cons_self heq] at hpa
        exact hp hpa

/-- A test may be made before or after the first of each identity is kept. -/
theorem filter_firsts {p : α → Bool} (hkey : ∀ a ∈ l, ∀ b ∈ l, key a = key b → a = b) :
    (firsts key [] l).filter p = firsts key [] (l.filter p) :=
  filter_firsts_aux hkey fun _ _ _ => Iff.rfl

end Firsts

/-! ### A test after the first few -/

section Truncated

variable (p : α → Bool) (n : ℕ) (l : List α)

/-- No item that the test accepts lies behind the first `n`, or the test accepts all of
these. -/
def Uncrowded : Prop := (∀ a ∈ l.drop n, p a = false) ∨ ∀ a ∈ l.take n, p a = true

instance : Decidable (Uncrowded p n l) := inferInstanceAs (Decidable (_ ∨ _))

/-- What a test accepts of the first `n` items is as much as there could be, just if the
others do not crowd it out. -/
theorem length_filter_take_eq_iff :
    ((l.take n).filter p).length = min n (l.filter p).length ↔ Uncrowded p n l := by
  have hsplit : (l.filter p).length = ((l.take n).filter p).length + ((l.drop n).filter p).length := by
    rw [← length_append, ← filter_append, take_append_drop]
  have hle : ((l.take n).filter p).length ≤ (l.take n).length := length_filter_le _ _
  have htake : (l.take n).length = min n l.length := length_take
  have hdrop : (l.drop n).length = l.length - n := length_drop
  have hnone : ((l.drop n).filter p).length = 0 ↔ ∀ a ∈ l.drop n, p a = false := by
    simp [filter_eq_nil_iff]
  have hall : ((l.take n).filter p).length = (l.take n).length ↔ ∀ a ∈ l.take n, p a = true :=
    length_filter_eq_length_iff
  have hrest : ((l.drop n).filter p).length ≤ (l.drop n).length := length_filter_le _ _
  rw [Uncrowded, ← hnone, ← hall, hsplit]
  omega

end Truncated

end Selection
