/-
PlannerOrder.lean

When the planner's order respects the edges of the workflow.  The queue is Kahn's
algorithm, except that it starts with the entrypoint, whatever leads there.  The
counter of a node is the number of edges to it that no placed node has released
(`pending`), so it never goes below zero, and every node but the entrypoint is placed
after the sources of all its edges.

`Placed` is what holds of the queue, the counters and the order at every turn.
-/
import OpenAgency.Planner
import OpenAgency.Lib.Acyclic

namespace OpenAgency

open Precedence List

/-! ### Workflows the planner is given -/

/-- Some edge leads from one node to the other. -/
def EdgeBetween (workflow : WorkflowDefinition) (source target : String) : Prop :=
  ∃ e ∈ workflow.edges, e.sourceNodeId = source ∧ e.targetNodeId = target

/-- Distinct node ids, edges between existing nodes without a cycle, and an entrypoint
that names a node. -/
structure WellFormedGraph (workflow : WorkflowDefinition) : Prop where
  nodup : (workflow.nodes.map (·.id)).Nodup
  sources : ∀ e ∈ workflow.edges, e.sourceNodeId ∈ workflow.nodes.map (·.id)
  targets : ∀ e ∈ workflow.edges, e.targetNodeId ∈ workflow.nodes.map (·.id)
  acyclic : Acyclic (EdgeBetween workflow)
  entrypoint : workflow.entrypoint ∈ workflow.nodes.map (·.id)

/-- A permutation of the nodes in which every edge points forward. -/
def RespectsEdges (workflow : WorkflowDefinition) (order : List WorkflowNodeDefinition) : Prop :=
  order.Perm workflow.nodes ∧
    ∀ e ∈ workflow.edges, Before (order.map (·.id)) e.sourceNodeId e.targetNodeId

instance (workflow : WorkflowDefinition) (order : List WorkflowNodeDefinition) :
    Decidable (RespectsEdges workflow order) :=
  inferInstanceAs (Decidable (order.Perm workflow.nodes ∧ ∀ e ∈ workflow.edges,
    [e.sourceNodeId, e.targetNodeId].Sublist (order.map (·.id))))

namespace Planner

variable {workflow : WorkflowDefinition}

variable {node : WorkflowNodeDefinition}

theorem nodeById_of_mem (h : (workflow.nodes.map (·.id)).Nodup) (hnode : node ∈ workflow.nodes) :
    nodeById workflow node.id = some node := by
  have hinj : ∀ a ∈ workflow.nodes, ∀ b ∈ workflow.nodes, a.id = b.id → a = b :=
    inj_on_of_nodup_map h
  rcases hfind : nodeById workflow node.id with - | found
  · have hnone := List.find?_eq_none.mp hfind node (List.mem_reverse.mpr hnode)
    simp at hnone
  · have hid : found.id = node.id := by simpa using List.find?_some hfind
    have hmem : found ∈ workflow.nodes := List.mem_reverse.mp (mem_of_find?_eq_some hfind)
    rw [hinj found hmem node hnode hid]

variable {id : String}

theorem mem_of_nodeById (h : nodeById workflow id = some node) :
    node ∈ workflow.nodes ∧ node.id = id :=
  ⟨List.mem_reverse.mp (mem_of_find?_eq_some h), by simpa using List.find?_some h⟩

/-! ### The counters -/

/-- The counter of a node. -/
def counter (indegree : Dict ℤ) (id : String) : ℤ := (indegree.get? id).getD 0

@[simp] theorem counter_set (indegree : Dict ℤ) (id other : String) (n : ℤ) :
    counter (indegree.set id n) other = if other = id then n else counter indegree other := by
  by_cases h : other = id
  · subst h
    simp [counter]
  · simp [counter, Dict.get?_set_ne h, h]

/-- The edges to a node that no placed node has released. -/
def pending (workflow : WorkflowDefinition) (placed : List String) (id : String) : ℕ :=
  workflow.edges.countP fun e => e.targetNodeId = id ∧ e.sourceNodeId ∉ placed

variable {placed : List String}

theorem pending_eq_zero :
    pending workflow placed id = 0 ↔
      ∀ e ∈ workflow.edges, e.targetNodeId = id → e.sourceNodeId ∈ placed := by
  simp [pending, countP_eq_zero]

theorem pending_mono {placed placed' : List String} (h : placed ⊆ placed') (id : String)
    (hzero : pending workflow placed id = 0) : pending workflow placed' id = 0 := by
  rw [pending_eq_zero] at hzero ⊢
  intro e he htarget
  exact h (hzero e he htarget)

variable (workflow) in
/-- The edges of `id` to `target` are released when `id` is placed. -/
theorem pending_place (h : id ∉ placed) (target : String) :
    pending workflow placed target =
      pending workflow (placed ++ [id]) target + (outgoing workflow id).count target := by
  unfold pending outgoing
  induction workflow.edges with
  | nil => rfl
  | cons e rest ih =>
    simp only [countP_cons, filter_cons]
    by_cases hs : e.sourceNodeId = id
    · by_cases ht : e.targetNodeId = target
      · simp [hs, ht, h] at ih ⊢
        omega
      · simp [hs, ht] at ih ⊢
        omega
    · by_cases ht : e.targetNodeId = target
      · by_cases hp : e.sourceNodeId ∈ placed
        · simp [hs, ht, hp] at ih ⊢
          omega
        · simp [hs, ht, hp] at ih ⊢
          omega
      · simp [hs, ht] at ih ⊢
        omega

/-- The edges that have not been released at all. -/
def unreleased (workflow : WorkflowDefinition) (placed : List String) : ℕ :=
  workflow.edges.countP fun e => e.sourceNodeId ∉ placed

variable (workflow) in
theorem unreleased_place (h : id ∉ placed) :
    unreleased workflow placed =
      unreleased workflow (placed ++ [id]) + (outgoing workflow id).length := by
  unfold unreleased outgoing
  induction workflow.edges with
  | nil => rfl
  | cons e rest ih =>
    simp only [countP_cons, filter_cons]
    by_cases hs : e.sourceNodeId = id
    · simp [hs, h] at ih ⊢
      omega
    · by_cases hp : e.sourceNodeId ∈ placed
      · simp [hs, hp] at ih ⊢
        omega
      · simp [hs, hp] at ih ⊢
        omega

/-! ### Releasing the edges of a node -/

section Release

variable {targets : List String} {s : Dict ℤ × List String}

theorem counter_release (targets : List String) (s : Dict ℤ × List String) (id : String) :
    counter (targets.foldl release s).1 id = counter s.1 id - targets.count id := by
  induction targets generalizing s with
  | nil => simp
  | cons t rest ih =>
    rw [foldl_cons, ih, count_cons]
    show counter (s.1.set t (counter s.1 t - 1)) id - _ = _
    rw [counter_set]
    by_cases h : id = t
    · subst h
      simp
      omega
    · simp [h, Ne.symm h]

/-- What a release adds to the queue has no counter left. -/
theorem mem_release (h : id ∈ (targets.foldl release s).2) :
    id ∈ s.2 ∨ counter (targets.foldl release s).1 id ≤ 0 := by
  induction targets generalizing s with
  | nil => exact .inl h
  | cons t rest ih =>
    rw [foldl_cons] at h ⊢
    rcases ih h with hqueue | hcounter
    · have hnow : id ∈ s.2 ∨ id = t ∧ counter s.1 t - 1 ≤ 0 := by
        by_cases hn : counter s.1 t - 1 ≤ 0
        · have hq : (release s t).2 = s.2 ++ [t] := if_pos hn
          rw [hq] at hqueue
          rcases List.mem_append.mp hqueue with hold | hnew
          · exact .inl hold
          · exact .inr ⟨List.mem_singleton.mp hnew, hn⟩
        · have hq : (release s t).2 = s.2 := if_neg hn
          exact .inl (hq ▸ hqueue)
      rcases hnow with hold | ⟨rfl, hn⟩
      · exact .inl hold
      · right
        rw [counter_release]
        have hset : counter (release s id).1 id = counter s.1 id - 1 := by
          show counter (s.1.set id (counter s.1 id - 1)) id = _
          rw [counter_set, if_pos rfl]
        rw [hset]
        omega
    · exact .inr hcounter

theorem subset_release (targets : List String) (s : Dict ℤ × List String) :
    s.2 ⊆ (targets.foldl release s).2 := by
  induction targets generalizing s with
  | nil => exact List.Subset.refl _
  | cons t rest ih =>
    rw [foldl_cons]
    refine List.Subset.trans ?_ (ih _)
    by_cases hn : counter s.1 t - 1 ≤ 0
    · have hq : (release s t).2 = s.2 ++ [t] := if_pos hn
      rw [hq]
      exact subset_append_left _ _
    · have hq : (release s t).2 = s.2 := if_neg hn
      rw [hq]
      exact List.Subset.refl _

/-- A target without a counter left is queued. -/
theorem release_queues (hid : id ∈ targets) (h : counter (targets.foldl release s).1 id ≤ 0) :
    id ∈ (targets.foldl release s).2 := by
  induction targets generalizing s with
  | nil => cases hid
  | cons t rest ih =>
    rw [foldl_cons] at h ⊢
    by_cases hrest : id ∈ rest
    · exact ih hrest h
    · obtain rfl : id = t := by
        rcases List.mem_cons.mp hid with heq | hmem
        · exact heq
        · exact absurd hmem hrest
      rw [counter_release, count_eq_zero_of_not_mem hrest] at h
      have hn : counter s.1 id - 1 ≤ 0 := by
        have hset : counter (release s id).1 id = counter s.1 id - 1 := by
          show counter (s.1.set id (counter s.1 id - 1)) id = _
          rw [counter_set, if_pos rfl]
        rw [hset] at h
        omega
      have hq : (release s id).2 = s.2 ++ [id] := if_pos hn
      apply subset_release rest
      rw [hq]
      simp

theorem length_release (targets : List String) (s : Dict ℤ × List String) :
    (targets.foldl release s).2.length ≤ s.2.length + targets.length := by
  induction targets generalizing s with
  | nil => simp
  | cons t rest ih =>
    rw [foldl_cons]
    refine (ih _).trans ?_
    have hone : (release s t).2.length ≤ s.2.length + 1 := by
      by_cases hn : counter s.1 t - 1 ≤ 0
      · have hq : (release s t).2 = s.2 ++ [t] := if_pos hn
        rw [hq, length_append, length_singleton]
      · have hq : (release s t).2 = s.2 := if_neg hn
        rw [hq]
        omega
    rw [length_cons]
    omega

end Release

/-! ### One turn of the queue -/

/-- What holds at every turn of the queue. -/
structure Placed (workflow : WorkflowDefinition) (queue : List String) (indegree : Dict ℤ)
    (ordered : List WorkflowNodeDefinition) : Prop where
  counts : ∀ id, counter indegree id = pending workflow (ordered.map (·.id)) id
  queued : ∀ id ∈ queue, id = workflow.entrypoint ∨ pending workflow (ordered.map (·.id)) id = 0
  ready : ∀ node ∈ workflow.nodes, node.id ∉ ordered.map (·.id) →
    pending workflow (ordered.map (·.id)) node.id = 0 → node.id ∈ queue
  nodes : ordered ⊆ workflow.nodes
  nodup : (ordered.map (·.id)).Nodup
  before : ∀ e ∈ workflow.edges, e.targetNodeId ≠ workflow.entrypoint →
    e.targetNodeId ∈ ordered.map (·.id) →
    Before (ordered.map (·.id)) e.sourceNodeId e.targetNodeId

variable {ordered : List WorkflowNodeDefinition}

variable {queue : List String} {indegree : Dict ℤ}

/-- A turn that places nothing takes an id off the queue that is no unplaced node's. -/
theorem Placed.skip (h : Placed workflow (id :: queue) indegree ordered)
    (hid : ∀ node ∈ workflow.nodes, node.id ∉ ordered.map (·.id) → node.id ≠ id) :
    Placed workflow queue indegree ordered where
  counts := h.counts
  queued := fun id' hid' => h.queued id' (mem_cons_of_mem id hid')
  ready := by
    intro node hnode hfresh hzero
    rcases List.mem_cons.mp (h.ready node hnode hfresh hzero) with heq | hmem
    · exact absurd heq (hid node hnode hfresh)
    · exact hmem
  nodes := h.nodes
  nodup := h.nodup
  before := h.before

/-- A turn that places the node at the head of the queue. -/
theorem Placed.place (h : Placed workflow (node.id :: queue) indegree ordered)
    (hnode : node ∈ workflow.nodes) (hfresh : node.id ∉ ordered.map (·.id)) :
    let s := (outgoing workflow node.id).foldl release (indegree, queue)
    Placed workflow s.2 s.1 (ordered ++ [node]) := by
  intro s
  have hmap : (ordered ++ [node]).map (·.id) = ordered.map (·.id) ++ [node.id] := by simp
  have hcounts : ∀ id, counter s.1 id = pending workflow (ordered.map (·.id) ++ [node.id]) id := by
    intro id
    have hplace := pending_place workflow hfresh id
    have hreleased := counter_release (outgoing workflow node.id) (indegree, queue) id
    rw [h.counts] at hreleased
    show counter (List.foldl release _ _).1 id = _
    omega
  have hgrows : ordered.map (·.id) ⊆ ordered.map (·.id) ++ [node.id] := subset_append_left _ _
  refine ⟨?_, ?_, ?_, ?_, ?_, ?_⟩
  · rw [hmap]
    exact hcounts
  · intro id hid
    rw [hmap]
    rcases mem_release hid with hold | hnew
    · refine (h.queued id (mem_cons_of_mem node.id hold)).imp_right ?_
      exact pending_mono hgrows id
    · right
      have hle : counter s.1 id ≤ 0 := hnew
      rw [hcounts] at hle
      omega
  · intro n hn hnew hzero
    rw [hmap] at hnew hzero
    obtain ⟨hunplaced, hne⟩ : n.id ∉ ordered.map (·.id) ∧ n.id ≠ node.id := by
      simpa only [mem_append, mem_singleton, not_or] using hnew
    by_cases htarget : n.id ∈ outgoing workflow node.id
    · apply release_queues htarget
      have hzero' : counter s.1 n.id = 0 := by rw [hcounts, hzero, Nat.cast_zero]
      exact hzero'.le
    · -- no edge of the placed node leads there, so it was queued already
      have hplace := pending_place workflow hfresh n.id
      rw [count_eq_zero_of_not_mem htarget, hzero] at hplace
      rcases List.mem_cons.mp (h.ready n hn hunplaced hplace) with heq | hmem
      · exact absurd heq hne
      · exact subset_release _ (indegree, queue) hmem
  · intro n hn
    rcases List.mem_append.mp hn with hold | hnew
    · exact h.nodes hold
    · rw [List.mem_singleton.mp hnew]
      exact hnode
  · rw [hmap, nodup_append_comm]
    simpa using ⟨by simpa using hfresh, h.nodup⟩
  · intro e he htarget hmem
    rw [hmap] at hmem ⊢
    by_cases hlater : e.targetNodeId = node.id
    · have hzero : pending workflow (ordered.map (·.id)) node.id = 0 := by
        rcases h.queued node.id mem_cons_self with hentry | hzero
        · exact absurd (hlater.trans hentry) htarget
        · exact hzero
      rw [hlater]
      exact before_append (pending_eq_zero.mp hzero e he hlater)
    · have hold : e.targetNodeId ∈ ordered.map (·.id) := by
        rcases List.mem_append.mp hmem with hold | hnew
        · exact hold
        · exact absurd (List.mem_singleton.mp hnew) hlater
      exact (h.before e he htarget hold).append

/-! ### The whole queue -/

/-- The queue is emptied: at every turn it and the edges not yet released get fewer. -/
theorem Placed.visit (hids : (workflow.nodes.map (·.id)).Nodup) (turns : ℕ)
    (h : Placed workflow queue indegree ordered)
    (hturns : queue.length + unreleased workflow (ordered.map (·.id)) ≤ turns) :
    (∃ indegree', Placed workflow [] indegree' (visit workflow turns queue indegree ordered)) ∧
      ordered <+: visit workflow turns queue indegree ordered := by
  induction turns generalizing queue indegree ordered with
  | zero =>
    obtain rfl : queue = [] := List.length_eq_zero_iff.mp (by omega)
    exact ⟨⟨indegree, h⟩, prefix_rfl⟩
  | succ turns ih =>
    rcases queue with - | ⟨id, queue⟩
    · exact ⟨⟨indegree, h⟩, prefix_rfl⟩
    rw [length_cons] at hturns
    by_cases hplaced : ordered.any (·.id = id)
    · rw [Planner.visit, if_pos hplaced]
      refine ih (h.skip ?_) (by omega)
      rintro node - hfresh rfl
      apply hfresh
      obtain ⟨n, hn, hid⟩ := List.any_eq_true.mp hplaced
      exact List.mem_map.mpr ⟨n, hn, by simpa using hid⟩
    · rw [Planner.visit, if_neg hplaced]
      rcases hfind : nodeById workflow id with - | node
      · refine ih (h.skip ?_) (by omega)
        rintro node hnode - rfl
        rw [nodeById_of_mem hids hnode] at hfind
        cases hfind
      · obtain ⟨hnode, rfl⟩ := mem_of_nodeById hfind
        have hfresh : node.id ∉ ordered.map (·.id) := by
          intro hmem
          obtain ⟨n, hn, hid⟩ := List.mem_map.mp hmem
          apply hplaced
          exact List.any_eq_true.mpr ⟨n, hn, by simpa using hid⟩
        have hlength : _ ≤ queue.length + _ :=
          length_release (outgoing workflow node.id) (indegree, queue)
        have hedges := unreleased_place workflow hfresh
        have hmap : (ordered ++ [node]).map (·.id) = ordered.map (·.id) ++ [node.id] := by simp
        obtain ⟨hrest, hprefix⟩ := ih (h.place hnode hfresh) (by rw [hmap]; omega)
        exact ⟨hrest, (prefix_append ordered [node]).trans hprefix⟩

/-! ### The start of the queue -/

theorem counter_indegrees (id : String) :
    counter (indegrees workflow) id = pending workflow [] id := by
  have hedges : ∀ (edges : List WorkflowEdgeDefinition) (d : Dict ℤ),
      counter (edges.foldl
        (fun d e => d.set e.targetNodeId ((d.get? e.targetNodeId).getD 0 + 1)) d) id =
        counter d id + edges.countP fun e => e.targetNodeId = id ∧ e.sourceNodeId ∉ [] := by
    intro edges
    induction edges with
    | nil => simp
    | cons e rest ih =>
      intro d
      rw [foldl_cons, ih, countP_cons]
      show counter (d.set e.targetNodeId (counter d e.targetNodeId + 1)) id + _ = _
      rw [counter_set]
      by_cases h : id = e.targetNodeId
      · simp [h]
        omega
      · simp [h, Ne.symm h]
  have hnodes : ∀ (nodes : List WorkflowNodeDefinition) (d : Dict ℤ), counter d id = 0 →
      counter (nodes.foldl (fun d n => d.set n.id 0) d) id = 0 := by
    intro nodes
    induction nodes with
    | nil => exact fun d h => h
    | cons n rest ih =>
      intro d h
      apply ih
      rw [counter_set, h, ite_self]
  rw [indegrees, hedges, hnodes _ _ rfl, zero_add]
  rfl

theorem placed_initialQueue (h : WellFormedGraph workflow) :
    Placed workflow (initialQueue workflow) (indegrees workflow) [] where
  counts := counter_indegrees
  queued := by
    intro id hid
    rcases List.mem_append.mp hid with hentry | hroot
    · left
      split_ifs at hentry
      · exact List.mem_singleton.mp hentry
      · cases hentry
    · right
      obtain ⟨n, hn, rfl⟩ := List.mem_map.mp hroot
      obtain ⟨hzero, -⟩ : counter (indegrees workflow) n.id = 0 ∧ _ := by
        simpa [counter] using (List.mem_filter.mp hn).2
      rw [counter_indegrees] at hzero
      exact Int.natCast_eq_zero.mp hzero
  ready := by
    intro node hnode _ hzero
    by_cases hentry : node.id = workflow.entrypoint
    · apply mem_append_left
      rw [← hentry, nodeById_of_mem h.nodup hnode]
      exact mem_singleton_self _
    · apply mem_append_right
      refine mem_map_of_mem (List.mem_filter.mpr ⟨hnode, ?_⟩)
      have hcounter : counter (indegrees workflow) node.id = 0 := by
        rw [counter_indegrees]
        exact congrArg Nat.cast hzero
      simpa [hentry, counter] using hcounter
  nodes := nil_subset _
  nodup := nodup_nil
  before := by
    intro e he htarget hmem
    cases hmem

theorem length_initialQueue (h : WellFormedGraph workflow) :
    (initialQueue workflow).length ≤ workflow.nodes.length := by
  obtain ⟨entry, hentry, hid⟩ := List.mem_map.mp h.entrypoint
  have hlt : (workflow.nodes.filter fun n =>
      ((indegrees workflow).get? n.id).getD 0 = 0 && n.id ≠ workflow.entrypoint).length <
        workflow.nodes.length := by
    apply List.length_filter_lt_length_iff_exists.mpr
    exact ⟨entry, hentry, by simp [hid]⟩
  rw [initialQueue, length_append, length_map]
  split_ifs
  · rw [length_singleton]
    omega
  · rw [length_nil]
    omega

/-! ### The order -/

/-- What the queue has placed in the end. -/
def visited (workflow : WorkflowDefinition) : List WorkflowNodeDefinition :=
  visit workflow (workflow.nodes.length + workflow.edges.length + 1) (initialQueue workflow)
    (indegrees workflow) []

theorem placed_visited (h : WellFormedGraph workflow) :
    ∃ indegree, Placed workflow [] indegree (visited workflow) := by
  refine ((placed_initialQueue h).visit h.nodup _ ?_).1
  have hqueue := length_initialQueue h
  have hedges : unreleased workflow ([] : List String) ≤ workflow.edges.length := countP_le_length
  show _ + unreleased workflow [] ≤ _
  omega

/-- Every node is placed: along the edges, its predecessors are, so nothing is pending. -/
theorem mem_visited (h : WellFormedGraph workflow) (hid : id ∈ workflow.nodes.map (·.id)) :
    id ∈ (visited workflow).map (·.id) := by
  obtain ⟨indegree, hplaced⟩ := placed_visited h
  refine h.acyclic.induction (workflow.nodes.map (·.id)) ?_ hid
  intro target htarget ih
  by_contra hfresh
  obtain ⟨node, hnode, rfl⟩ := List.mem_map.mp htarget
  have hzero : pending workflow ((visited workflow).map (·.id)) node.id = 0 := by
    rw [pending_eq_zero]
    intro e he hto
    exact ih e.sourceNodeId (h.sources e he) ⟨e, he, rfl, hto⟩
  exact absurd (hplaced.ready node hnode hfresh hzero) not_mem_nil

theorem orderNodes_eq_visited (h : WellFormedGraph workflow) :
    orderNodes workflow = visited workflow := by
  have hrest : (workflow.nodes.filter fun n => !(visited workflow).any (·.id = n.id)) = [] := by
    apply List.filter_eq_nil_iff.mpr
    intro n hn
    obtain ⟨m, hm, hid⟩ := List.mem_map.mp (mem_visited h (mem_map_of_mem hn))
    simpa using ⟨m, hm, hid⟩
  show visited workflow ++ (workflow.nodes.filter fun n => !(visited workflow).any (·.id = n.id))
    = visited workflow
  rw [hrest, append_nil]

/-- The order is a permutation of the nodes, in which every edge that does not lead to
the entrypoint points forward. -/
theorem orderNodes_spec (h : WellFormedGraph workflow) :
    (orderNodes workflow).Perm workflow.nodes ∧
      ∀ e ∈ workflow.edges, e.targetNodeId ≠ workflow.entrypoint →
        Before ((orderNodes workflow).map (·.id)) e.sourceNodeId e.targetNodeId := by
  obtain ⟨indegree, hplaced⟩ := placed_visited h
  rw [orderNodes_eq_visited h]
  constructor
  · have hinj : ∀ a ∈ workflow.nodes, ∀ b ∈ workflow.nodes, a.id = b.id → a = b :=
      inj_on_of_nodup_map h.nodup
    refine (perm_ext_iff_of_nodup hplaced.nodup.of_map h.nodup.of_map).mpr ?_
    intro n
    refine ⟨fun hn => hplaced.nodes hn, fun hn => ?_⟩
    obtain ⟨m, hm, hid⟩ := List.mem_map.mp (mem_visited h (mem_map_of_mem hn))
    rw [← hinj m (hplaced.nodes hm) n hn hid]
    exact hm
  · intro e he htarget
    exact hplaced.before e he htarget (mem_visited h (h.targets e he))

/-- The order starts with the entrypoint. -/
theorem orderNodes_entrypoint (h : WellFormedGraph workflow) :
    ∃ rest, (orderNodes workflow).map (·.id) = workflow.entrypoint :: rest := by
  obtain ⟨entry, hentry, hid⟩ := List.mem_map.mp h.entrypoint
  have hfind : nodeById workflow workflow.entrypoint = some entry := by
    rw [← hid]
    exact nodeById_of_mem h.nodup hentry
  obtain ⟨queue, hqueue⟩ : ∃ queue, initialQueue workflow = entry.id :: queue := by
    rw [initialQueue, hfind, hid]
    exact ⟨_, rfl⟩
  have hstart := placed_initialQueue h
  have hlength := length_initialQueue h
  rw [hqueue] at hstart hlength
  have hfresh : entry.id ∉ ([] : List WorkflowNodeDefinition).map (·.id) := not_mem_nil
  have hedges : unreleased workflow ([] : List String) ≤ workflow.edges.length := countP_le_length
  have hreleased : unreleased workflow [] = _ + _ := unreleased_place workflow hfresh
  have hreleases : _ ≤ queue.length + _ :=
    length_release (outgoing workflow entry.id) (indegrees workflow, queue)
  rw [length_cons] at hlength
  obtain ⟨-, rest, hrest⟩ := (hstart.place hentry hfresh).visit h.nodup
    (workflow.nodes.length + workflow.edges.length) (by
      show _ + unreleased workflow ([] ++ [entry.id]) ≤ _
      omega)
  refine ⟨rest.map (·.id), ?_⟩
  rw [orderNodes_eq_visited h, visited, hqueue, Planner.visit, if_neg (by simp), hid, hfind]
  show List.map _ (visit workflow _ _ _ ([] ++ [entry])) = _
  rw [← hid, ← hrest]
  rfl

/-- **The planner's order respects the edges up to the entrypoint.**  The nodes of a
well-formed graph are ordered so that every edge points forward if and only if no edge
leads to the entrypoint, which always comes first. -/
theorem orderNodes_respectsEdges_iff (h : WellFormedGraph workflow) :
    RespectsEdges workflow (orderNodes workflow) ↔
      ∀ e ∈ workflow.edges, e.targetNodeId ≠ workflow.entrypoint := by
  obtain ⟨hperm, hforward⟩ := orderNodes_spec h
  constructor
  · rintro ⟨-, hall⟩ e he hentry
    obtain ⟨rest, hrest⟩ := orderNodes_entrypoint h
    have hbefore := hall e he
    have hnodup : ((orderNodes workflow).map (·.id)).Nodup := (hperm.map _).nodup_iff.mpr h.nodup
    rw [hrest] at hbefore hnodup
    rw [hentry] at hbefore
    exact not_before_head hnodup hbefore
  · intro hroot
    exact ⟨hperm, fun e he => hforward e he (hroot e he)⟩

/-! ### Two nodes and one edge -/

/-- An edge from the node `a` to the node `b`. -/
def pair (entrypoint : String) : WorkflowDefinition where
  id := "w"
  name := "w"
  nodes := [{ id := "a" }, { id := "b" }]
  edges := [{ sourceNodeId := "a", targetNodeId := "b" }]
  entrypoint := entrypoint

theorem wellFormedGraph_pair {entrypoint : String} (h : entrypoint ∈ ["a", "b"]) :
    WellFormedGraph (pair entrypoint) where
  nodup := by
    show ["a", "b"].Nodup
    decide
  sources := by
    intro e he
    obtain rfl := List.mem_singleton.mp he
    exact mem_cons_self
  targets := by
    intro e he
    obtain rfl := List.mem_singleton.mp he
    exact mem_cons_of_mem _ mem_cons_self
  acyclic := by
    have hedge : ∀ {u v}, EdgeBetween (pair entrypoint) u v → u = "a" ∧ v = "b" := by
      rintro u v ⟨e, he, rfl, rfl⟩
      obtain rfl := List.mem_singleton.mp he
      exact ⟨rfl, rfl⟩
    intro v hv
    obtain ⟨w, -, hlast⟩ := Relation.TransGen.tail'_iff.mp hv
    obtain ⟨w', hfirst, -⟩ := Relation.TransGen.head'_iff.mp hv
    have hab : "a" = "b" := (hedge hfirst).1.symm.trans (hedge hlast).2
    exact absurd hab (by decide)
  entrypoint := h

theorem orderNodes_pair : RespectsEdges (pair "a") (orderNodes (pair "a")) :=
  (orderNodes_respectsEdges_iff (wellFormedGraph_pair (by decide))).mpr (by decide)

/-- From the entrypoint `b` the order is `b`, `a`. -/
theorem orderNodes_entrypoint_first :
    ¬ ∀ workflow, WellFormedGraph workflow → RespectsEdges workflow (orderNodes workflow) := by
  intro h
  obtain ⟨-, hforward⟩ := h (pair "b") (wellFormedGraph_pair (by decide))
  have horder : (orderNodes (pair "b")).map (·.id) = ["b", "a"] := by decide +kernel
  have hbefore := hforward { sourceNodeId := "a", targetNodeId := "b" } (by decide)
  rw [horder] at hbefore
  exact not_before_head (by decide) hbefore

end Planner

end OpenAgency
