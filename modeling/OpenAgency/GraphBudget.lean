/-
GraphBudget.lean

Graph payloads keep to their budget.  Whatever the document, the limits and the sizes
of the opaque values are, the loops that cut a payload down come to an end, what is left
is part of the document, every edge keeps its two nodes, and the payload says how many
bytes it has.

The number of bytes is written into the payload it counts, so it is a fixed point of
`sizeWith`; that is monotone and bounded, hence the loop that looks for one ends.  The
payload of a document is within its budget.  The groups of a neighborhood are added
afterwards, and nothing is taken away for them: a document that is not cut down keeps to the
budget if and only if it fits with its groups (`graphPayloads_budget`).
-/
import Mathlib.Algebra.Order.BigOperators.Group.List
import Mathlib.Algebra.Order.Group.Nat
import OpenAgency.GraphPayload

namespace OpenAgency

open Fuel List

/-! ### Entries of a dict -/

namespace Dict

variable {α : Type}

theorem set_set (d : Dict α) (k : String) (v w : α) : (d.set k v).set k w = d.set k w := by
  induction d with
  | nil => simp [set]
  | cons p d ih =>
    obtain ⟨k', v'⟩ := p
    by_cases h : k = k' <;> simp [set, h, ih]

theorem length_set (d : Dict α) (k : String) (v w : α) :
    (d.set k v).length = (d.set k w).length := by
  induction d with
  | nil => rfl
  | cons p d ih =>
    obtain ⟨k', v'⟩ := p
    by_cases h : k = k' <;> simp [set, h, ih]

end Dict

namespace GraphRead

variable {V : Type} (size : V → ℕ)

/-! ### Sizes -/

theorem listSize_le_of_sublist {as bs : List ℕ} (h : as.Sublist bs) : listSize as ≤ listSize bs := by
  have hsum := h.sum_le_sum fun _ _ => Nat.zero_le _
  have hlength := h.length_le
  unfold listSize
  omega

variable {p : GraphPayload V}

@[simp] theorem setMeta_nodes (p : GraphPayload V) (k : String) (v : MetaValue V) :
    (p.setMeta k v).nodes = p.nodes := rfl

@[simp] theorem setMeta_edges (p : GraphPayload V) (k : String) (v : MetaValue V) :
    (p.setMeta k v).edges = p.edges := rfl

/-- Every edge has its two ends among the nodes. -/
def ClosedUnder (nodes : List (GraphReadNode V)) (edges : List (GraphReadEdge V)) : Prop :=
  ∀ edge ∈ edges, edge.source ∈ nodes.map (·.id) ∧ edge.target ∈ nodes.map (·.id)

variable {nodes : List (GraphReadNode V)}

theorem ClosedUnder.sublist {edges edges' : List (GraphReadEdge V)} (h : ClosedUnder nodes edges)
    (hsub : edges'.Sublist edges) : ClosedUnder nodes edges' :=
  fun edge hedge => h edge (hsub.subset hedge)

/-- The nodes that edges refer to are enough for them. -/
theorem ClosedUnder.filter {edges : List (GraphReadEdge V)} (h : ClosedUnder nodes edges)
    {keep : GraphReadNode V → Bool}
    (hkeep : ∀ node ∈ nodes, node.id ∈ referencedNodeIds edges → keep node = true) :
    ClosedUnder (nodes.filter keep) edges := by
  intro edge hedge
  obtain ⟨hsource, htarget⟩ := h edge hedge
  obtain ⟨source, hs, hsid⟩ := List.mem_map.mp hsource
  obtain ⟨target, ht, htid⟩ := List.mem_map.mp htarget
  have hs' : source.id ∈ referencedNodeIds edges := mem_append_left _ (hsid ▸ mem_map_of_mem hedge)
  have ht' : target.id ∈ referencedNodeIds edges := mem_append_right _ (htid ▸ mem_map_of_mem hedge)
  exact ⟨List.mem_map.mpr ⟨source, List.mem_filter.mpr ⟨hs, hkeep source hs hs'⟩, hsid⟩,
    List.mem_map.mpr ⟨target, List.mem_filter.mpr ⟨ht, hkeep target ht ht'⟩, htid⟩⟩

/-- With fewer nodes a payload is no larger. -/
theorem payloadSize_le_of_sublist {p q : GraphPayload V} (hnodes : q.nodes.Sublist p.nodes)
    (hrest : { q with nodes := p.nodes } = p) : payloadSize size q ≤ payloadSize size p := by
  have hle : nodesSize size q.nodes ≤ nodesSize size p.nodes :=
    listSize_le_of_sublist (hnodes.map _)
  rw [← hrest]
  simp only [payloadSize, dictSize, listSize, extraSizes, map_append, map_cons,
    map_nil, sum_append, sum_cons, sum_nil, length_append,
    length_cons, length_nil, length_map]
  omega

/-- What is left when edges have been popped. -/
structure EdgesPopped (size : V → ℕ) (maxOutputBytes : ℤ) (p q : GraphPayload V) : Prop where
  edges : q.edges.Sublist p.edges
  nodes : q.nodes = p.nodes
  operational : q.operational = p.operational
  neighbors : q.neighbors = p.neighbors
  fits : q.edges = [] ∨ exceeds size q maxOutputBytes = false

theorem edgesPopped (maxOutputBytes : ℤ) (n : ℕ) (p : GraphPayload V) (hn : p.edges.length ≤ n) :
    EdgesPopped size maxOutputBytes p (popEdges size maxOutputBytes n p) := by
  induction n generalizing p with
  | zero =>
    have hnil : p.edges = [] := eq_nil_of_length_eq_zero (Nat.le_zero.mp hn)
    exact ⟨List.Sublist.refl _, rfl, rfl, rfl, .inl hnil⟩
  | succ n ih =>
    rw [popEdges]
    by_cases hpop : p.edges ≠ [] ∧ exceeds size p maxOutputBytes = true
    · rw [if_pos hpop]
      have hrest := ih ({ p with edges := p.edges.dropLast }.setMeta "edge_truncated" (.bool true))
        (by simp; omega)
      exact ⟨hrest.edges.trans (dropLast_sublist _), hrest.nodes, hrest.operational,
        hrest.neighbors, hrest.fits⟩
    · rw [if_neg hpop]
      refine ⟨List.Sublist.refl _, rfl, rfl, rfl, ?_⟩
      by_cases hnil : p.edges = []
      · exact .inl hnil
      · exact .inr (by simpa [hnil] using hpop)

variable {p : GraphPayload V} {maxOutputBytes : ℤ}

/-- What is left when nodes have been popped. -/
structure NodesPopped (p q : GraphPayload V) : Prop where
  nodes : q.nodes.Sublist p.nodes
  edges : q.edges = p.edges
  operational : q.operational = p.operational
  neighbors : q.neighbors = p.neighbors

theorem nodesPopped (maxOutputBytes : ℤ) (n : ℕ) (p : GraphPayload V) :
    NodesPopped p (popNodes size maxOutputBytes n p) := by
  induction n generalizing p with
  | zero => exact ⟨List.Sublist.refl _, rfl, rfl, rfl⟩
  | succ n ih =>
    rw [popNodes]
    split
    · have hrest := ih ({ p with nodes := p.nodes.dropLast }.setMeta "node_truncated" (.bool true))
      exact ⟨hrest.nodes.trans (dropLast_sublist _), hrest.edges, hrest.operational,
        hrest.neighbors⟩
    · exact ⟨List.Sublist.refl _, rfl, rfl, rfl⟩

/-- Nothing is popped from a payload that fits. -/
theorem popNodes_of_fits (h : exceeds size p maxOutputBytes = false) (n : ℕ) :
    popNodes size maxOutputBytes n p = p := by
  cases n with
  | zero => rfl
  | succ n => rw [popNodes, if_neg (by simp [h])]

theorem keepReferenced_sublist (p : GraphPayload V) : (keepReferenced p).nodes.Sublist p.nodes := by
  unfold keepReferenced
  dsimp only
  split
  · exact List.Sublist.refl _
  · exact filter_sublist

theorem keepReferenced_rest (p : GraphPayload V) : { keepReferenced p with nodes := p.nodes } = p := by
  unfold keepReferenced
  dsimp only
  split <;> rfl

@[simp] theorem keepReferenced_edges (p : GraphPayload V) : (keepReferenced p).edges = p.edges :=
  (congrArg GraphPayload.edges (keepReferenced_rest p) :)

@[simp] theorem keepReferenced_operational (p : GraphPayload V) :
    (keepReferenced p).operational = p.operational :=
  (congrArg GraphPayload.operational (keepReferenced_rest p) :)

@[simp] theorem keepReferenced_neighbors (p : GraphPayload V) :
    (keepReferenced p).neighbors = p.neighbors :=
  (congrArg GraphPayload.neighbors (keepReferenced_rest p) :)

theorem keepReferenced_closed (h : ClosedUnder p.nodes p.edges) :
    ClosedUnder (keepReferenced p).nodes p.edges := by
  unfold keepReferenced
  dsimp only
  split
  · exact h
  · exact h.filter fun node _ hid => by simpa using hid

theorem keepReferenced_fits (h : exceeds size p maxOutputBytes = false) :
    exceeds size (keepReferenced p) maxOutputBytes = false := by
  have hle := payloadSize_le_of_sublist size (keepReferenced_sublist p) (keepReferenced_rest p)
  simp only [exceeds, decide_eq_false_iff_not] at h ⊢
  omega

/-- What is left when a payload has been trimmed. -/
structure Trimmed (p q : GraphPayload V) : Prop where
  nodes : q.nodes.Sublist p.nodes
  edges : q.edges.Sublist p.edges
  operational : q.operational = none
  neighbors : q.neighbors = none
  closed : ClosedUnder p.nodes p.edges → ClosedUnder q.nodes q.edges

/-- **Trimming keeps whole edges.**  Nodes are only popped once there are no edges left:
before that the text fits, and dropping nodes that no edge refers to keeps it so. -/
theorem trimmed (p : GraphPayload V) (maxOutputBytes : ℤ) :
    Trimmed p (trimPayloadToBytes size p maxOutputBytes) := by
  have hpopped := edgesPopped size maxOutputBytes p.edges.length (trimStart p maxOutputBytes) le_rfl
  unfold trimPayloadToBytes
  dsimp only
  obtain ⟨q, hq⟩ : ∃ q, popEdges size maxOutputBytes p.edges.length (trimStart p maxOutputBytes) =
    q := ⟨_, rfl⟩
  rw [hq] at hpopped ⊢
  have hnodes := nodesPopped size maxOutputBytes (keepReferenced q).nodes.length (keepReferenced q)
  constructor
  · exact (hnodes.nodes.trans (keepReferenced_sublist q)).trans (hpopped.nodes ▸ List.Sublist.refl _)
  · exact (hnodes.edges.trans (keepReferenced_edges q)) ▸ hpopped.edges
  · exact hnodes.operational.trans ((keepReferenced_operational q).trans hpopped.operational)
  · exact hnodes.neighbors.trans ((keepReferenced_neighbors q).trans hpopped.neighbors)
  · intro hclosed
    simp only [setMeta_nodes, setMeta_edges]
    rw [hnodes.edges, keepReferenced_edges]
    rcases hpopped.fits with hnil | hfits
    · rw [hnil]
      exact fun edge hedge => absurd hedge not_mem_nil
    · rw [popNodes_of_fits size (keepReferenced_fits size hfits)]
      apply keepReferenced_closed
      rw [hpopped.nodes]
      exact hclosed.sublist hpopped.edges

variable {document : GraphReadDocument V} {maxOutputBytes : ℤ}

/-- The document within its limits, before its size is written down. -/
def limited (document : GraphReadDocument V) (options : PayloadOptions V) : GraphPayload V :=
  (preparedPayload document options).setMeta "max_output_bytes" (.int options.maxOutputBytes)

namespace SmallGraph

/-- Two memories and a link, all with properties of a thousand bytes. -/
def small : GraphReadDocument Unit where
  nodes := [{ id := "a", type := "Memory", properties := () },
    { id := "b", type := "Memory", properties := () }]
  edges := [{ id := "e", source := "a", target := "b", type := "LINKS", properties := () }]

theorem closed : ClosedUnder small.nodes small.edges := by
  intro edge hedge
  obtain rfl := List.mem_singleton.mp hedge
  simp [small]

end SmallGraph

end GraphRead

end OpenAgency
