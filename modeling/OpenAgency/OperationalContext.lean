/-
OperationalContext.lean

What the layers of the operational context hold.

A layer is chosen from the first places of a ranking, four times as many as it has room for
(`widened`); only then are sensitive and selected memories left out.  So a layer is full where
enough of these places are left (`eligible`), and may be empty behind sensitive memories.  The
first three layers and the summaries have active memories only; the last one takes any status.
-/
import OpenAgency.MemoryIsolation

namespace OpenAgency

open Relational Selection List

namespace MemoryRetrieval

variable {r : MemoryRetrieval}

/-! ### One layer -/

section Choose

variable {limit : ℤ} {selected : List String} {items chosen : List MemoryRecord}

/-- The memories that are neither sensitive nor selected, the first of each identifier. -/
def fresh (selected : List String) (items : List MemoryRecord) : List MemoryRecord :=
  firsts (fun m : MemoryRecord => m.id) selected (items.filter fun m => !m.isSensitive)

variable {m : MemoryRecord}

theorem fresh_cons_of_left (h : (m.id ∈ selected || m.isSensitive) = true) :
    fresh selected (m :: items) = fresh selected items := by
  unfold fresh
  by_cases hflag : m.isSensitive = true
  · rw [filter_cons_of_neg (by simp [hflag])]
  · rw [filter_cons_of_pos (by simpa using hflag), firsts, if_pos]
    simpa [hflag] using h

theorem fresh_cons_of_taken (h : ¬ (m.id ∈ selected || m.isSensitive) = true) :
    fresh selected (m :: items) = m :: fresh (m.id :: selected) items := by
  obtain ⟨hid, hflag⟩ : m.id ∉ selected ∧ m.isSensitive = false := by simpa using h
  unfold fresh
  rw [filter_cons_of_pos (by simp [hflag]), firsts, if_neg hid]

theorem mem_fresh (h : m ∈ fresh selected items) :
    m ∈ items ∧ m.isSensitive = false ∧ m.id ∉ selected := by
  obtain ⟨hm, hflag⟩ := List.mem_filter.mp (mem_of_mem_firsts h)
  have hfirst : m ∈ firsts (fun m : MemoryRecord => m.id) selected
      (items.filter fun m => !m.isSensitive) := h
  have hid := key_notMem_of_mem_firsts hfirst
  exact ⟨hm, by simpa using hflag, hid⟩

/-- The loop takes what is fresh, as long as there is room. -/
theorem choose_eq (hroom : (chosen.length : ℤ) < limit) :
    (choose limit selected chosen items).1 =
      chosen ++ (fresh selected items).take (limit.toNat - chosen.length) := by
  induction items generalizing selected chosen with
  | nil => rw [choose, fresh, filter_nil, firsts, take_nil, append_nil]
  | cons m items ih =>
    rw [choose]
    split
    next hleft => rw [ih hroom, fresh_cons_of_left hleft]
    next htaken =>
      have hlength : (chosen ++ [m]).length = chosen.length + 1 := length_append
      have hcount : limit.toNat - chosen.length = limit.toNat - (chosen.length + 1) + 1 := by
        omega
      rw [fresh_cons_of_taken htaken, hcount, take_succ_cons]
      split
      next hfull =>
        have hlast : limit.toNat - (chosen.length + 1) = 0 := by omega
        rw [hlast, take_zero]
      next hmore =>
        rw [ih (by omega), hlength, append_assoc, singleton_append]

/-- What the loop chooses is selected from then on. -/
theorem choose_selects (limit : ℤ) (selected : List String) (items chosen : List MemoryRecord) :
    ∃ new, choose limit selected chosen items =
      (chosen ++ new, (new.map fun m => m.id).reverse ++ selected) := by
  induction items generalizing selected chosen with
  | nil => exact ⟨[], by rw [choose, append_nil]; rfl⟩
  | cons m items ih =>
    rw [choose]
    split
    · exact ih selected chosen
    · split
      · exact ⟨[m], rfl⟩
      · obtain ⟨new, hnew⟩ := ih (m.id :: selected) (chosen ++ [m])
        refine ⟨m :: new, ?_⟩
        rw [hnew, append_assoc, singleton_append, map_cons, reverse_cons,
          append_assoc, singleton_append]

end Choose

section Layer

variable {limit : ℤ} {selected : List String} {items : List MemoryRecord} {text : Option String}

theorem selectForOperationalLayer_eq (hlimit : 0 ≤ limit) :
    (r.selectForOperationalLayer selected items limit text).1 =
      (fresh selected (r.rank items text (widened limit) none)).take limit.toNat := by
  rcases hlimit.eq_or_lt with rfl | hpos
  · rw [selectForOperationalLayer_of_nonpos le_rfl, Int.toNat_zero, take_zero]
  · exact choose_eq hpos

theorem mem_selected_iff {id : String} :
    id ∈ (r.selectForOperationalLayer selected items limit text).2 ↔ id ∈ selected ∨
      id ∈ (r.selectForOperationalLayer selected items limit text).1.map fun m => m.id := by
  obtain ⟨new, hnew⟩ := choose_selects limit selected (r.rank items text (widened limit) none) []
  rw [selectForOperationalLayer, hnew, nil_append, mem_append, mem_reverse]
  exact Or.comm

theorem mem_of_mem_rank {m : MemoryRecord} {limit : ℤ} {embedding : Option (List ℚ)}
    (h : m ∈ r.rank items text limit embedding) : m ∈ items :=
  (mem_sortDesc _).mp (mem_of_mem_take h)

/-- What a layer has is among its items, not sensitive and not selected before. -/
theorem mem_layer_of_select (hlimit : 0 ≤ limit) {m : MemoryRecord}
    (h : m ∈ (r.selectForOperationalLayer selected items limit text).1) :
    m ∈ items ∧ m.isSensitive = false ∧ m.id ∉ selected := by
  rw [selectForOperationalLayer_eq hlimit] at h
  exact (mem_fresh (mem_of_mem_take h)).imp_left mem_of_mem_rank

theorem nodup_layer (hlimit : 0 ≤ limit) :
    ((r.selectForOperationalLayer selected items limit text).1.map fun m => m.id).Nodup := by
  rw [selectForOperationalLayer_eq hlimit, map_take]
  exact (nodup_map_firsts _ _).sublist (take_sublist _ _)

theorem length_layer_le (hlimit : 0 ≤ limit) :
    ((r.selectForOperationalLayer selected items limit text).1.length : ℤ) ≤ limit := by
  rw [selectForOperationalLayer_eq hlimit]
  have htake := length_take_le limit.toNat (fresh selected (r.rank items text (widened limit) none))
  omega

/-- The memories in the first places of a layer's ranking, four times as many as it has room
for, that are not sensitive and that no earlier layer has. -/
def eligible (r : MemoryRetrieval) (earlier items : List MemoryRecord) (limit : ℤ)
    (text : Option String) : List MemoryRecord :=
  (r.rank items text (widened limit) none).filter fun m =>
    !m.isSensitive && m.id ∉ earlier.map fun m => m.id

/-- **A layer** has as many of the eligible memories as it has room for. -/
theorem length_layer (hlimit : 0 ≤ limit) (hitems : (items.map fun m => m.id).Nodup)
    {earlier : List MemoryRecord}
    (hselected : ∀ id, id ∈ selected ↔ id ∈ earlier.map fun m => m.id) :
    (r.selectForOperationalLayer selected items limit text).1.length =
      min limit.toNat (r.eligible earlier items limit text).length := by
  have hranked : ((r.rank items text (widened limit) none).map fun m => m.id).Nodup := by
    rw [rank, map_take]
    exact (((perm_sortDesc _ items).map _).nodup_iff.mpr hitems).sublist (take_sublist _ _)
  have hkept := hranked.sublist ((filter_sublist (p := fun m => !m.isSensitive)).map _)
  have heligible : fresh selected (r.rank items text (widened limit) none) =
      r.eligible earlier items limit text := by
    rw [fresh, firsts_eq_filter hkept, filter_filter, eligible]
    refine filter_congr fun m _ => ?_
    rw [Bool.and_comm, decide_eq_decide.mpr (not_congr (hselected m.id))]
  rw [selectForOperationalLayer_eq hlimit, length_take, heligible]

/-- The memories that the layers have so far. -/
structure Chosen (chosen : List MemoryRecord) (selected : List String) : Prop where
  nodup : (chosen.map fun m => m.id).Nodup
  mem : ∀ id, id ∈ selected ↔ id ∈ chosen.map fun m => m.id
  notSensitive : ∀ m ∈ chosen, m.isSensitive = false

/-- **One layer** more. -/
theorem Chosen.layer {chosen : List MemoryRecord} (h : Chosen chosen selected)
    (items : List MemoryRecord) (text : Option String) (hlimit : 0 ≤ limit) :
    Chosen (chosen ++ (r.selectForOperationalLayer selected items limit text).1)
      (r.selectForOperationalLayer selected items limit text).2 := by
  refine ⟨?_, fun id => ?_, fun m hm => ?_⟩
  · rw [map_append, nodup_append']
    refine ⟨h.nodup, nodup_layer hlimit, fun id hchosen hnew => ?_⟩
    obtain ⟨m, hm, rfl⟩ := List.mem_map.mp hnew
    exact (mem_layer_of_select hlimit hm).2.2 ((h.mem _).mpr hchosen)
  · rw [mem_selected_iff, h.mem, map_append, mem_append]
  · rcases List.mem_append.mp hm with hm | hm
    · exact h.notSensitive m hm
    · exact (mem_layer_of_select hlimit hm).2.1

end Layer

/-! ### All layers -/

/-- What the layers of the operational context promise, where `base` are the memories that
they are chosen from. -/
structure OperationalContext.Bounds (r : MemoryRetrieval) (limits : Dict ℤ)
    (text : Option String) (base : List MemoryRecord) (c : OperationalContext) : Prop where
  disjoint : (c.layers.flatten.map fun m => m.id).Nodup
  notSensitive : ∀ m ∈ c.layers.flatten, m.isSensitive = false
  noContextPack : ∀ m ∈ c.layers.flatten, m.memoryType ≠ some .contextPack
  active : ∀ m ∈ c.decisions ++ c.commitments ++ c.factsAndPreferences ++ c.recentSummaries,
    m.status = .active
  limited : ∀ p ∈ c.layers.zip layerNames, (p.1.length : ℤ) ≤ limitOf limits p.2
  decisions : limitOf limits "decisions" ≤ (r.eligible [] (activeOf [some .decision] base)
      (limitOf limits "decisions") text).length →
    (c.decisions.length : ℤ) = limitOf limits "decisions"
  commitments : limitOf limits "commitments" ≤ (r.eligible c.decisions
      (activeOf [some .taskCommitment] base) (limitOf limits "commitments") text).length →
    (c.commitments.length : ℤ) = limitOf limits "commitments"
  factsAndPreferences : limitOf limits "facts_and_preferences" ≤
      (r.eligible (c.decisions ++ c.commitments)
        (activeOf [some .fact, some .preference, none] base)
        (limitOf limits "facts_and_preferences") text).length →
    (c.factsAndPreferences.length : ℤ) = limitOf limits "facts_and_preferences"

theorem status_of_mem_activeOf {types : List (Option Graph.MemoryType)}
    {items : List MemoryRecord} {m : MemoryRecord} (h : m ∈ activeOf types items) :
    m ∈ items ∧ m.status = .active := by
  obtain ⟨hm, hactive⟩ := List.mem_filter.mp h
  obtain ⟨hstatus, -⟩ := Bool.and_eq_true_iff.mp hactive
  refine ⟨hm, ?_⟩
  cases hvalue : m.status with
  | active => rfl
  | superseded =>
    rw [hvalue] at hstatus
    exact absurd hstatus (by decide +kernel)
  | archived =>
    rw [hvalue] at hstatus
    exact absurd hstatus (by decide +kernel)

section Layers

variable {limits : Dict ℤ} {text : Option String} {embedding : Option (List ℚ)}
  {base summaries : List MemoryRecord}

/-- A layer with enough eligible memories is full. -/
theorem layer_full {limit : ℤ} {selected : List String} {earlier items : List MemoryRecord}
    (hlimit : 0 ≤ limit) (hitems : (items.map fun m => m.id).Nodup)
    (hearlier : Chosen earlier selected)
    (henough : limit ≤ (r.eligible earlier items limit text).length) :
    ((r.selectForOperationalLayer selected items limit text).1.length : ℤ) = limit := by
  rw [length_layer hlimit hitems hearlier.mem]
  omega

theorem operationalLayers_bounds (hlimits : ∀ key ∈ layerNames, 0 ≤ limitOf limits key)
    (hbase : (base.map fun m => m.id).Nodup)
    (hpack : ∀ m ∈ base, m.memoryType ≠ some .contextPack)
    (hsummaries : ∀ m ∈ summaries, m.memoryType = some .dailySummary ∧ m.status = .active) :
    (r.operationalLayers limits text embedding base summaries).Bounds r limits text base := by
  have hd := hlimits "decisions" (by simp [layerNames])
  have hc := hlimits "commitments" (by simp [layerNames])
  have hf := hlimits "facts_and_preferences" (by simp [layerNames])
  have hr := hlimits "recent_summaries" (by simp [layerNames])
  have hs := hlimits "semantic_fallback" (by simp [layerNames])
  have hactive : ∀ types, ((activeOf types base).map fun m => m.id).Nodup := fun types =>
    hbase.sublist (List.filter_sublist.map _)
  have hnone : Chosen [] [] := ⟨nodup_nil, fun _ => Iff.rfl, fun _ hm => absurd hm not_mem_nil⟩
  unfold operationalLayers
  extract_lets decisions commitments facts recent fallback semantic
  have h1 : Chosen decisions.1 decisions.2 := hnone.layer _ _ hd
  have h2 : Chosen (decisions.1 ++ commitments.1) commitments.2 := h1.layer _ _ hc
  have h3 : Chosen (decisions.1 ++ commitments.1 ++ facts.1) facts.2 := h2.layer _ _ hf
  have h4 : Chosen (decisions.1 ++ commitments.1 ++ facts.1 ++ recent.1) recent.2 := h3.layer _ _ hr
  have h5 : Chosen (decisions.1 ++ commitments.1 ++ facts.1 ++ recent.1 ++ semantic.1)
      semantic.2 := h4.layer _ _ hs
  have hflat : [decisions.1, commitments.1, facts.1, recent.1, semantic.1].flatten =
      decisions.1 ++ commitments.1 ++ facts.1 ++ recent.1 ++ semantic.1 := by
    simp
  have hrecent : ∀ m ∈ recent.1, m.status = .active ∧
      (m ∈ base ∨ m.memoryType = some .dailySummary) := by
    intro m hm
    rcases List.mem_append.mp (mem_of_mem_firsts (mem_layer_of_select hr hm).1) with hm | hm
    · exact ⟨(hsummaries m hm).2, .inr (hsummaries m hm).1⟩
    · exact ⟨(status_of_mem_activeOf hm).2, .inl (status_of_mem_activeOf hm).1⟩
  have hactive' : ∀ m ∈ decisions.1 ++ commitments.1 ++ facts.1, m ∈ base ∧ m.status = .active := by
    intro m hm
    rcases List.mem_append.mp hm with hm | hm
    · rcases List.mem_append.mp hm with hm | hm
      · exact status_of_mem_activeOf (mem_layer_of_select hd hm).1
      · exact status_of_mem_activeOf (mem_layer_of_select hc hm).1
    · exact status_of_mem_activeOf (mem_layer_of_select hf hm).1
  refine ⟨?_, ?_, ?_, ?_, ?_, layer_full hd (hactive _) hnone, layer_full hc (hactive _) h1,
    layer_full hf (hactive _) h2⟩
  · show ([decisions.1, commitments.1, facts.1, recent.1, semantic.1].flatten.map _).Nodup
    rw [hflat]
    exact h5.nodup
  · show ∀ m ∈ [decisions.1, commitments.1, facts.1, recent.1, semantic.1].flatten, _
    rw [hflat]
    exact h5.notSensitive
  · show ∀ m ∈ [decisions.1, commitments.1, facts.1, recent.1, semantic.1].flatten, _
    rw [hflat]
    intro m hm
    rcases List.mem_append.mp hm with hm | hm
    · rcases List.mem_append.mp hm with hm | hm
      · exact hpack m (hactive' m hm).1
      · rcases (hrecent m hm).2 with hm | htype
        · exact hpack m hm
        · rw [htype]
          decide
    · exact hpack m (mem_of_mem_rank (mem_layer_of_select hs hm).1)
  · intro m hm
    rcases List.mem_append.mp hm with hm | hm
    · exact (hactive' m hm).2
    · exact (hrecent m hm).1
  · intro p hp
    simp only [OperationalContext.layers, layerNames, zip_cons_cons, zip_nil_right,
      mem_cons, not_mem_nil, or_false] at hp
    rcases hp with rfl | rfl | rfl | rfl | rfl
    · exact length_layer_le hd
    · exact length_layer_le hc
    · exact length_layer_le hf
    · exact length_layer_le hr
    · exact length_layer_le hs

end Layers

/-! ### `retrieve_operational_context` -/

section Reader

variable (r : MemoryRetrieval) (reader : Option UserDefinition) (s : MemoryStore)
  (conversation : Option Conversation)
  (agentId workflowId workspaceId userId text : Option String) (limitPerLayer : Dict ℤ)

/-- The memories among these that a reader may read, who may be unknown. -/
def readable (items : List MemoryRecord) : List MemoryRecord :=
  items.filter fun m => r.canRead m.toMemoryFields reader

/-- `list_recent_summaries` for its query. -/
def readableSummaries (f : MemoryQuery) (limit : ℤ) : List MemoryRecord :=
  (sortDesc (fun m : MemoryRecord => toLex (m.summaryDate.getD 0, updateKey m))
    (r.readable reader (r.query s f (widened limit)))).take limit.toNat

/-- The memories that `retrieve_operational_context` chooses from. -/
def operationalBase : List MemoryRecord :=
  if agentId.isNone && conversation.isNone then []
  else (r.readable reader (r.baseCandidates s conversation agentId workflowId
    (resolvedWorkspaceId conversation workspaceId) (r.resolvedUserId conversation userId)
    (baseLimit (layerLimits limitPerLayer)) (r.embedQuery text))).filter isNoContextPack

/-- `retrieve_operational_context` for a reader who may be unknown. -/
def operationalContext : OperationalContext :=
  if agentId.isNone && conversation.isNone then {}
  else r.operationalLayers (layerLimits limitPerLayer) text (r.embedQuery text)
    (r.operationalBase reader s conversation agentId workflowId workspaceId userId text
      limitPerLayer)
    (r.readableSummaries reader s (r.operationalSummaries conversation agentId
      (resolvedWorkspaceId conversation workspaceId) (r.resolvedUserId conversation userId))
      (limitOf (layerLimits limitPerLayer) "recent_summaries"))

/-- For a known user it is `retrieve_operational_context`. -/
theorem retrieveOperationalContext_eq (user : UserDefinition) :
    r.retrieveOperationalContext user s conversation agentId workflowId workspaceId userId text
        limitPerLayer =
      r.operationalContext (some user) s conversation agentId workflowId workspaceId userId text
        limitPerLayer := by
  unfold retrieveOperationalContext operationalContext operationalBase
  split
  · rfl
  · rfl

end Reader

section Bounds

variable {reader : Option UserDefinition} {s : MemoryStore} {conversation : Option Conversation}
  {agentId workflowId workspaceId userId text : Option String} {limitPerLayer : Dict ℤ}

/-- What the query for summaries finds is active. -/
theorem status_of_admits_summaries {m : MemoryRecord}
    (h : r.admits (r.operationalSummaries conversation agentId workspaceId userId)
      m.toMemoryFields) : m.status = .active := by
  have hstatuses : (r.operationalSummaries conversation agentId workspaceId userId).statuses =
      ["active"] := by
    cases conversation with
    | none => rfl
    | some conversation => rfl
  simp only [admits, hstatuses, Bool.and_eq_true] at h
  obtain ⟨⟨⟨⟨⟨⟨-, hstatus⟩, -⟩, -⟩, -⟩, -⟩, -⟩ := h
  cases hm : m.status with
  | active => rfl
  | superseded =>
    rw [hm] at hstatus
    exact absurd hstatus (by decide +kernel)
  | archived =>
    rw [hm] at hstatus
    exact absurd hstatus (by decide +kernel)

theorem nodup_operationalBase : ((r.operationalBase reader s conversation agentId workflowId
    workspaceId userId text limitPerLayer).map fun m => m.id).Nodup := by
  unfold operationalBase
  split
  · exact nodup_nil
  · have hcandidates : ∀ limit embedding, ((r.baseCandidates s conversation agentId workflowId
        (resolvedWorkspaceId conversation workspaceId) (r.resolvedUserId conversation userId)
        limit embedding).map fun m => m.id).Nodup := by
      intro limit embedding
      cases conversation with
      | none => exact nodup_map_firsts [] _
      | some conversation => exact nodup_map_firsts [] _
    exact (hcandidates _ _).sublist ((List.filter_sublist.trans filter_sublist).map _)

theorem limitOf_layerLimits_nonneg (hlimits : ∀ p ∈ limitPerLayer, 0 ≤ p.2) {key : String}
    (hkey : key ∈ layerNames) : 0 ≤ limitOf (layerLimits limitPerLayer) key := by
  have hdefaults : ∀ key ∈ layerNames, 0 ≤ limitOf (layerLimits []) key := by decide +kernel
  unfold limitOf
  rcases Dict.get?_union (layerLimits []) limitPerLayer key with hkept | ⟨limit, hgiven, hset⟩
  · exact (hdefaults key hkey).trans_eq (congrArg (fun limit => limit.getD 0) hkept.symm)
  · exact (hlimits _ hgiven).trans_eq (congrArg (fun limit => limit.getD 0) hset.symm)

/-- **The operational context**: the layers are disjoint and within their limits, without
sensitive memories and context packs; all but the last have active memories only, and the
first three are full where enough memories are eligible. -/
theorem operationalContext_bounds (hlimits : ∀ p ∈ limitPerLayer, 0 ≤ p.2) :
    (r.operationalContext reader s conversation agentId workflowId workspaceId userId text
      limitPerLayer).Bounds r (layerLimits limitPerLayer) text
        (r.operationalBase reader s conversation agentId workflowId workspaceId userId text
          limitPerLayer) := by
  have hnonneg : ∀ key ∈ layerNames, 0 ≤ limitOf (layerLimits limitPerLayer) key :=
    fun key hkey => limitOf_layerLimits_nonneg hlimits hkey
  unfold operationalContext
  split
  next hcalled =>
    have hempty : r.operationalLayers (layerLimits limitPerLayer) text none [] [] = {} :=
      operationalLayers_nil _ _ _
    have hbase : r.operationalBase reader s conversation agentId workflowId workspaceId userId
        text limitPerLayer = [] := by
      rw [operationalBase, if_pos hcalled]
    rw [hbase, ← hempty]
    exact operationalLayers_bounds hnonneg nodup_nil
      (fun _ hm => absurd hm not_mem_nil) fun _ hm => absurd hm not_mem_nil
  next hcalled =>
    refine operationalLayers_bounds hnonneg nodup_operationalBase (fun m hm => ?_)
      fun m hm => ?_
    · rw [operationalBase, if_neg hcalled] at hm
      exact of_decide_eq_true (List.mem_filter.mp hm).2
    · have hread := (mem_sortDesc _).mp (mem_of_mem_take hm)
      have hadmits := (mem_query (List.mem_filter.mp hread).1).2
      exact ⟨type_of_admits_summaries hadmits, status_of_admits_summaries hadmits⟩

end Bounds

/-! ### Memories of an agent -/

theorem problem_decision (id : String) (status : Graph.MemoryStatus) (isSensitive : Bool)
    (updatedAt : Time) : MemoryFields.problem
      { id, scope := .global, agentId := some "helper", memoryType := some .decision, status,
        isSensitive, createdAt := 0, updatedAt, content := "-" } = none := by
  have hcontent : strip "-" ≠ "" := by decide +kernel
  rw [MemoryFields.problem, if_neg hcontent]
  rfl

/-- A decision that an agent has noted for everyone. -/
def helpersNote (id : String) (status : Graph.MemoryStatus) (isSensitive : Bool)
    (updatedAt : Time) : MemoryRecord where
  id := id
  scope := .global
  agentId := some "helper"
  memoryType := some .decision
  status := status
  isSensitive := isSensitive
  createdAt := 0
  updatedAt := updatedAt
  content := "-"
  valid := problem_decision id status isSensitive updatedAt

/-- The operational context of the agent for `carol`, with room for one decision. -/
def helpersContext (s : MemoryStore) : OperationalContext :=
  bareRetrieval.operationalContext (some carol) s none (some "helper") none none none none
    [("decisions", 1)]

/-- The memories that it is chosen from. -/
def helpersBase (s : MemoryStore) : List MemoryRecord :=
  bareRetrieval.operationalBase (some carol) s none (some "helper") none none none none
    [("decisions", 1)]

/-- A decision, behind four sensitive ones. -/
def behindSensitive : MemoryStore where
  items := [helpersNote "a" .active false 0, helpersNote "b" .active true 1,
    helpersNote "c" .active true 1, helpersNote "d" .active true 1,
    helpersNote "e" .active true 1]
  nodup := by decide +kernel

/-- A memory that was superseded. -/
def supersededOnly : MemoryStore where
  items := [helpersNote "a" .superseded false 0]
  nodup := by decide +kernel

/-- A decision beside a sensitive one. -/
def besideSensitive : MemoryStore where
  items := [helpersNote "a" .active false 0, helpersNote "b" .active true 1]
  nodup := by decide +kernel

/-- It is chosen. -/
theorem operationalContext_bounds_decision :
    ((helpersContext besideSensitive).decisions.length : ℤ) = 1 := by
  have hlimits : ∀ p ∈ [("decisions", (1 : ℤ))], 0 ≤ p.2 := by decide
  have hbounds : (helpersContext besideSensitive).Bounds bareRetrieval
      (layerLimits [("decisions", 1)]) none (helpersBase besideSensitive) :=
    operationalContext_bounds hlimits
  exact hbounds.decisions (by decide +kernel)

/-- A superseded memory gets into the last layer, and a decision is not found behind
sensitive ones. -/
theorem operationalContext_crowded :
    (¬ ∀ s, ∀ m ∈ (helpersContext s).layers.flatten, m.status ≠ .superseded) ∧
      ¬ ∀ s, 1 ≤ ((activeOf [some .decision] (helpersBase s)).filter
        fun m => !m.isSensitive).length → (helpersContext s).decisions.length = 1 := by
  constructor
  · intro hall
    have hstatus : ((helpersContext supersededOnly).layers.flatten.map fun m => m.status) =
        [.superseded] := by decide +kernel
    obtain ⟨m, hm, hm'⟩ := List.mem_map.mp (hstatus ▸ mem_singleton_self _)
    exact hall supersededOnly m hm hm'
  · intro hall
    have hfound := hall behindSensitive (by decide +kernel)
    revert hfound
    decide +kernel

end MemoryRetrieval

end OpenAgency
