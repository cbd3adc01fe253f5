/-
Lib/Acyclic.lean

Finite acyclic relations: induction along the edges, and orders in which every edge
points forward.
-/
import Mathlib.Order.WellFoundedSet

namespace Precedence

variable {V : Type*} {r : V → V → Prop}

/-- No path of edges leads back to where it starts. -/
def Acyclic (r : V → V → Prop) : Prop := ∀ v, ¬ Relation.TransGen r v v

/-- **Induction along the edges**: over finitely many vertices of an acyclic relation, what
holds of a vertex whenever it holds of the vertices with an edge to it holds of all. -/
theorem Acyclic.induction (h : Acyclic r) (vs : List V) {P : V → Prop}
    (step : ∀ v ∈ vs, (∀ u ∈ vs, r u v → P u) → P v) {v : V} (hv : v ∈ vs) : P v := by
  have hirrefl : IsStrictOrder V (Relation.TransGen r) := { irrefl := h }
  have hwf : {u | u ∈ vs}.WellFoundedOn (Relation.TransGen r) := vs.finite_toSet.wellFoundedOn
  refine hwf.induction hv ?_
  intro y hy ih
  apply step y hy
  intro u hu hedge
  exact ih u hu (Relation.TransGen.single hedge)

/-- `u` stands before `v` in the order. -/
def Before (order : List V) (u v : V) : Prop := [u, v].Sublist order

variable {u v : V}

theorem Before.append {order rest : List V} (h : Before order u v) : Before (order ++ rest) u v :=
  h.trans (List.sublist_append_left order rest)

theorem before_append {order : List V} (h : u ∈ order) : Before (order ++ [v]) u v :=
  (List.singleton_sublist.mpr h).append (List.Sublist.refl [v])

/-- Nothing stands before the first, which occurs once. -/
theorem not_before_head {rest : List V} (h : (v :: rest).Nodup) : ¬ Before (v :: rest) u v := by
  intro hbefore
  obtain ⟨hfresh, -⟩ := List.nodup_cons.mp h
  apply hfresh
  cases hbefore with
  | cons _ hrest => exact hrest.subset (by simp)
  | cons_cons _ hv => exact List.singleton_sublist.mp hv

/-- What stands before one of the first stands among them. -/
theorem Before.mem_front {front rest : List V} {u v w : V} (hnodup : (front ++ v :: rest).Nodup)
    (h : Before (front ++ v :: rest) u w) (hw : w ∈ front ++ [v]) : u ∈ front := by
  induction front with
  | nil =>
    obtain rfl : w = v := List.mem_singleton.mp hw
    exact absurd h (not_before_head hnodup)
  | cons a front ih =>
    obtain ⟨hfresh, hrest⟩ := List.nodup_cons.mp hnodup
    cases h with
    | cons _ hbefore =>
      have hmem : w ∈ front ++ v :: rest := hbefore.subset (by simp)
      have hne : w ≠ a := by
        rintro rfl
        exact hfresh hmem
      exact List.mem_cons_of_mem a (ih hrest hbefore ((List.mem_cons.mp hw).resolve_left hne))
    | cons_cons _ _ => exact List.mem_cons_self

/-- In an order along the edges, every path to an element starts before it. -/
theorem mem_front_of_path {front rest : List V} (hnodup : (front ++ v :: rest).Nodup)
    (hedges : ∀ a b, r a b → Before (front ++ v :: rest) a b) (h : Relation.TransGen r u v) :
    u ∈ front := by
  have hpath : ∀ w, w ∈ front ++ [v] → Relation.TransGen r u w → u ∈ front := by
    intro w hw hpath
    induction hpath with
    | single hedge => exact (hedges _ _ hedge).mem_front hnodup hw
    | tail _ hedge ih =>
      exact ih (List.mem_append_left [v] ((hedges _ _ hedge).mem_front hnodup hw))
  exact hpath v (List.mem_append_right front List.mem_cons_self) h

end Precedence
