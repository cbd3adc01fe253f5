/-
MemoryIsolation.lean

Which calls that read memories show a user nothing of the memories it may not read.

The last call, `retrieve_operational_context`, fills several layers from one list of
candidates, each layer leaving out what an earlier one has.  Where a user can tell two
stores apart by it, a single memory gets into a layer of the one store, and in the other
enough memories that the user may not read are in its way.  The result for all calls is
`memoryRead_isolated_iff`.
-/
import OpenAgency.MemoryViews

namespace OpenAgency

open Relational Selection List

namespace MemoryRetrieval

variable {r : MemoryRetrieval} {user : UserDefinition} {s s₁ s₂ : MemoryStore}

/-! ### The layers of the operational context -/

variable {selected : List String} {limit : ℤ}

theorem selectForOperationalLayer_of_nonpos {items : List MemoryRecord} {text : Option String}
    (h : limit ≤ 0) :
    r.selectForOperationalLayer selected items limit text = ([], selected) := by
  rw [selectForOperationalLayer, rank_of_nonpos (widened_of_nonpos h), choose]

@[simp] theorem selectForOperationalLayer_nil (selected : List String) (limit : ℤ)
    (text : Option String) :
    r.selectForOperationalLayer selected [] limit text = ([], selected) := by
  rw [selectForOperationalLayer, rank_nil, choose]

variable {m : MemoryRecord}

theorem selectForOperationalLayer_singleton (text : Option String) (hlimit : 0 < limit)
    (hid : m.id ∉ selected) (hflag : m.isSensitive = false) :
    r.selectForOperationalLayer selected [m] limit text = ([m], m.id :: selected) := by
  rw [selectForOperationalLayer, rank_singleton _ _ (widened_pos hlimit), choose]
  simp only [hid, hflag, decide_false, Bool.or_false, Bool.false_eq_true, if_false,
    nil_append]
  split
  · rfl
  · rfl

theorem mem_choose {id : String} {items chosen : List MemoryRecord}
    (h : id ∈ (choose limit selected chosen items).2) :
    id ∈ selected ∨ ∃ m ∈ items, m.id = id := by
  induction items generalizing selected chosen with
  | nil => exact .inl h
  | cons m items ih =>
    have hcons : id ∈ m.id :: selected → id ∈ selected ∨ ∃ m' ∈ m :: items, m'.id = id := by
      intro hid
      rcases List.mem_cons.mp hid with rfl | hid
      · exact .inr ⟨m, mem_cons_self, rfl⟩
      · exact .inl hid
    rw [choose] at h
    split at h
    · rcases ih h with hid | ⟨m', hm', hid⟩
      · exact .inl hid
      · exact .inr ⟨m', mem_cons_of_mem _ hm', hid⟩
    · split at h
      · exact hcons h
      · rcases ih h with hid | ⟨m', hm', hid⟩
        · exact hcons hid
        · exact .inr ⟨m', mem_cons_of_mem _ hm', hid⟩

/-- What a layer has selected was selected before or is among its items. -/
theorem mem_selectForOperationalLayer {items : List MemoryRecord} {text : Option String}
    {id : String} (h : id ∈ (r.selectForOperationalLayer selected items limit text).2) :
    id ∈ selected ∨ ∃ m ∈ items, m.id = id := by
  refine (mem_choose h).imp_right ?_
  rintro ⟨m, hm, hid⟩
  exact ⟨m, (mem_sortDesc _).mp (mem_of_mem_take hm), hid⟩

/-- The names of the layers. -/
def layerNames : List String :=
  ["decisions", "commitments", "facts_and_preferences", "recent_summaries", "semantic_fallback"]

variable {limits : Dict ℤ}

theorem operationalLayers_of_nonpos (h : ∀ key ∈ layerNames, limitOf limits key ≤ 0)
    (text : Option String) (e : Option (List ℚ)) (base summaries : List MemoryRecord) :
    r.operationalLayers limits text e base summaries = {} := by
  simp only [operationalLayers,
    selectForOperationalLayer_of_nonpos (h "decisions" (by simp [layerNames])),
    selectForOperationalLayer_of_nonpos (h "commitments" (by simp [layerNames])),
    selectForOperationalLayer_of_nonpos (h "facts_and_preferences" (by simp [layerNames])),
    selectForOperationalLayer_of_nonpos (h "recent_summaries" (by simp [layerNames])),
    selectForOperationalLayer_of_nonpos (h "semantic_fallback" (by simp [layerNames]))]

theorem operationalLayers_nil (limits : Dict ℤ) (text : Option String) (e : Option (List ℚ)) :
    r.operationalLayers limits text e [] [] = {} := by
  simp [operationalLayers, activeOf, dedupeMemories, firsts]

/-- A type of memory that only one layer takes. -/
def layerType : String → Graph.MemoryType
  | "decisions" => .decision
  | "commitments" => .taskCommitment
  | "facts_and_preferences" => .fact
  | "recent_summaries" => .dailySummary
  | _ => .archive

/-- A memory of the type of a layer that has room for it gets into that layer. -/
theorem operationalLayers_singleton {key : String} (hkey : key ∈ layerNames)
    (hlimit : 0 < limitOf limits key) (htype : m.memoryType = some (layerType key))
    (hstatus : m.status = .active) (hflag : m.isSensitive = false) (text : Option String)
    (e : Option (List ℚ)) :
    r.operationalLayers limits text e [m] [] ≠ {} := by
  have hactive : ∀ types, activeOf types [m] =
      if some (layerType key) ∈ types then [m] else [] := by
    intro types
    by_cases hmem : some (layerType key) ∈ types
    · rw [if_pos hmem, activeOf, filter_cons_of_pos, filter_nil]
      simp [hstatus, Graph.MemoryStatus.value, htype, hmem]
    · rw [if_neg hmem, activeOf, filter_cons_of_neg, filter_nil]
      simp [htype, hmem]
  have honce : dedupeMemories [m] = [m] := rfl
  have hnone : dedupeMemories [] = [] := rfl
  have hpick : ∀ (limit : ℤ) (text : Option String), 0 < limit →
      r.selectForOperationalLayer [] [m] limit text = ([m], [m.id]) := fun limit text hlimit =>
    selectForOperationalLayer_singleton text hlimit not_mem_nil hflag
  intro hempty
  unfold operationalLayers at hempty
  simp only [OperationalContext.mk.injEq] at hempty
  obtain ⟨hdecisions, hcommitments, hfacts, hrecent, hsemantic⟩ := hempty
  simp only [layerNames, mem_cons, not_mem_nil, or_false] at hkey
  rcases hkey with rfl | rfl | rfl | rfl | rfl
  · simp [hactive, layerType, hpick _ _ hlimit] at hdecisions
  · simp [hactive, layerType, hpick _ _ hlimit] at hcommitments
  · simp [hactive, layerType, hpick _ _ hlimit] at hfacts
  · simp [hactive, layerType, honce, hpick _ _ hlimit] at hrecent
  · simp [hactive, layerType, hnone, rank_singleton _ _ (widened_pos hlimit),
      hpick _ _ hlimit] at hsemantic

/-! ### `retrieve_operational_context` -/

/-- The calls of `retrieve_operational_context` that show nothing of what the user may not
read: nothing is looked for, no layer has room, or the queries settle who may read. -/
def OperationalIsolated (r : MemoryRetrieval) (user : UserDefinition)
    (conversation : Option Conversation) (agentId workspaceId userId : Option String)
    (limitPerLayer : Dict ℤ) : Prop :=
  (agentId = none ∧ conversation = none) ∨
    (∀ key ∈ layerNames, limitOf (layerLimits limitPerLayer) key ≤ 0) ∨
    isBlank agentId ∧ isBlank (resolvedWorkspaceId conversation workspaceId) ∧
      (limitOf (layerLimits limitPerLayer) "recent_summaries" ≤ 0 ∨
        r.Settled user (r.operationalSummaries conversation agentId
          (resolvedWorkspaceId conversation workspaceId) (r.resolvedUserId conversation userId)))

variable {conversation : Option Conversation} {limitPerLayer : Dict ℤ}

theorem retrieveOperationalContext_congr (hrole : "admin" ∉ user.roles)
    (hagree : r.Agree user s₁ s₂) {agentId workflowId workspaceId userId text : Option String}
    (h : r.OperationalIsolated user conversation agentId workspaceId userId limitPerLayer) :
    r.retrieveOperationalContext user s₁ conversation agentId workflowId workspaceId userId text
        limitPerLayer =
      r.retrieveOperationalContext user s₂ conversation agentId workflowId workspaceId userId text
        limitPerLayer := by
  unfold retrieveOperationalContext
  rcases h with ⟨rfl, rfl⟩ | hlimits | ⟨hagent, hworkspace, hsummaries⟩
  · rfl
  · simp only [operationalLayers_of_nonpos hlimits]
  · have hbase := visible_baseCandidates_congr hrole hagree conversation workflowId
      (r.resolvedUserId conversation userId) hagent hworkspace
    have hrecent := listRecentSummaries_congr hagree hsummaries
    simp only [hbase, hrecent]

theorem isNone_and_isNone {agentId : Option String} (h : ¬ (agentId = none ∧ conversation = none)) :
    (agentId.isNone && conversation.isNone) = false := by
  cases agentId with
  | none =>
    cases conversation with
    | none => exact absurd ⟨rfl, rfl⟩ h
    | some conversation => rfl
  | some agentId => rfl

theorem baseLimit_pos (limits : Dict ℤ) : 0 < baseLimit limits := lt_max_of_lt_right (by decide)

/-- The queries for candidates. -/
def baseQueries (conversation : Option Conversation)
    (agentId workflowId workspaceId userId : Option String) : List MemoryQuery :=
  agentQueries agentId workflowId workspaceId userId ++
    conversation.toList.map fun c => { scopes := ["conversation"], conversationId := some c.id }

variable {f : MemoryQuery}

/-- None of them looks at the type of a memory. -/
theorem memoryTypes_of_mem_baseQueries {agentId workflowId workspaceId userId : Option String}
    (h : f ∈ baseQueries conversation agentId workflowId workspaceId userId) :
    f.memoryTypes = [] := by
  simp only [baseQueries, agentQueries, mem_append, mem_map] at h
  rcases h with ((((h | h) | h) | h) | h) | ⟨c, -, rfl⟩
  all_goals first
    | rfl
    | split_ifs at h
      · exact absurd h not_mem_nil
      · rw [List.mem_singleton.mp h]
    | rw [List.mem_singleton.mp h]

section Crowded

variable {m : MemoryRecord} {ws : List MemoryRecord} {conversation : Option Conversation}
  {agentId workflowId workspaceId userId : Option String} {limit : ℤ} {e : Option (List ℚ)}

theorem mem_baseCandidates_crowded {m' : MemoryRecord}
    (h : m' ∈ r.baseCandidates (crowded m ws) conversation agentId workflowId workspaceId userId
      limit e) :
    ∃ f ∈ baseQueries conversation agentId workflowId workspaceId userId,
      m' ∈ r.query (crowded m ws) f limit := by
  have hcandidates : m' ∈ r.collectAgentCandidates (crowded m ws) agentId workflowId workspaceId
        userId limit e →
      ∃ f ∈ baseQueries conversation agentId workflowId workspaceId userId,
        m' ∈ r.query (crowded m ws) f limit := by
    intro h
    obtain ⟨f, hf, hm'⟩ := List.mem_flatMap.mp (mem_of_mem_firsts h)
    rw [layer_crowded] at hm'
    exact ⟨f, mem_append_left _ hf, hm'⟩
  cases conversation with
  | none => exact hcandidates h
  | some conversation =>
    rcases List.mem_append.mp (mem_of_mem_firsts h) with h | h
    · exact hcandidates h
    · exact ⟨_, mem_append_right _ (mem_singleton_self _), h⟩

theorem baseCandidates_alone
    (h : ∃ f ∈ agentQueries agentId workflowId workspaceId userId, r.admits f m.toMemoryFields)
    (hlimit : 0 < limit) :
    r.baseCandidates (crowded m []) conversation agentId workflowId workspaceId userId limit e =
      [aside m "" 0] := by
  have hcandidates := candidates_alone h hlimit e
  cases conversation with
  | none => exact hcandidates
  | some conversation =>
    refine firsts_of_all_eq (fun m' hm' => ?_) ?_
    · rcases List.mem_append.mp hm' with hm' | hm'
      · rw [hcandidates] at hm'
        exact List.mem_singleton.mp hm'
      · exact mem_alone (mem_query hm').1
    · rw [hcandidates]
      exact mem_append_left _ (mem_singleton_self _)

end Crowded

theorem not_admits_later {m : MemoryFields} {day : Time} (hlast : f.summaryDateTo = some day)
    (h : m.summaryDate = some (day + 1)) :
    r.admits f m = false := by
  simp [admits, hlast, h]

variable {agentId workspaceId userId : Option String}

/-- A memory of a later day is no recent summary. -/
theorem not_admits_summaries (h : m.summaryDate = some (dateOf r.now + 1)) :
    r.admits (r.operationalSummaries conversation agentId workspaceId userId) m.toMemoryFields =
      false := by
  refine not_admits_later ?_ h
  cases conversation with
  | none => rfl
  | some conversation => rfl

theorem listRecentSummaries_eq_nil (h : r.visible user (r.query s f (widened limit)) = []) :
    r.listRecentSummaries user s f limit = [] := by
  rw [listRecentSummaries, h, sortDesc_nil, take_nil]

variable {agentId workspaceId : Option String}

/-- Where an agent or a workspace is looked for, the candidates can be crowded out. -/
theorem retrieveOperationalContext_not_congr_base (hrole : "admin" ∉ user.roles)
    (workflowId userId text : Option String) {key : String}
    (hgiven : ¬ (agentId = none ∧ conversation = none)) (hkey : key ∈ layerNames)
    (hlimit : 0 < limitOf (layerLimits limitPerLayer) key)
    (h : ¬ (isBlank agentId ∧ isBlank (resolvedWorkspaceId conversation workspaceId))) :
    r.Leaks user (r.retrieveOperationalContext user · conversation agentId workflowId workspaceId
      userId text limitPerLayer) := by
  obtain ⟨m, ws, ⟨htype, hstatus, hdate⟩, hread, hadmits, hws, hcrowd⟩ :=
    r.exists_workspaceCrowd hrole h (some (layerType key)) .active (dateOf r.now + 1)
      (baseLimit (layerLimits limitPerLayer)).toNat
  have hcalled := isNone_and_isNone hgiven
  have hsummaries : ∀ ws : List MemoryRecord,
      (∀ w ∈ ws, r.canRead w.toMemoryFields (some user) = false) →
      r.listRecentSummaries user (crowded m ws)
        (r.operationalSummaries conversation agentId (resolvedWorkspaceId conversation workspaceId)
          (r.resolvedUserId conversation userId))
        (limitOf (layerLimits limitPerLayer) "recent_summaries") = [] := by
    intro ws hws
    refine listRecentSummaries_eq_nil (visible_eq_nil_of fun m' hm' => ?_)
    refine canRead_of_mem_query_crowded (fun w hw _ => hws w hw) (fun hm => ?_) hm'
    rw [not_admits_summaries hdate] at hm
    cases hm
  have hbase : ∀ e, r.visible user (r.baseCandidates (crowded m ws) conversation agentId
      workflowId (resolvedWorkspaceId conversation workspaceId)
      (r.resolvedUserId conversation userId) (baseLimit (layerLimits limitPerLayer)) e) = [] := by
    intro e
    refine visible_eq_nil_of fun m' hm' => ?_
    obtain ⟨f, -, hm'⟩ := mem_baseCandidates_crowded hm'
    exact canRead_of_mem_query_crowded (fun w hw _ => hws w hw) (hcrowd f) hm'
  have hpack : [aside m "" 0].filter isNoContextPack = [aside m "" 0] := by
    have htype' : (aside m "" 0).memoryType = some (layerType key) := htype
    rw [filter_cons_of_pos, filter_nil]
    rw [isNoContextPack, htype']
    simp only [layerNames, mem_cons, not_mem_nil, or_false] at hkey
    rcases hkey with rfl | rfl | rfl | rfl | rfl <;> rfl
  refine ⟨_, _, agree_crowded m [] hws, ?_⟩
  unfold retrieveOperationalContext
  simp only [hcalled, Bool.false_eq_true, if_false, nil_append]
  rw [baseCandidates_alone (hadmits _ _) (baseLimit_pos _), visible_aside hread, hpack,
    hsummaries [] (fun _ hw => absurd hw not_mem_nil), hbase, filter_nil,
    hsummaries ws hws, operationalLayers_nil]
  exact operationalLayers_singleton (m := aside m "" 0) hkey hlimit htype hstatus rfl _ _

/-- What the query for summaries finds is a summary. -/
theorem type_of_admits_summaries
    (h : r.admits (r.operationalSummaries conversation agentId workspaceId userId)
      m.toMemoryFields) : m.memoryType = some .dailySummary := by
  have htypes : (r.operationalSummaries conversation agentId workspaceId userId).memoryTypes =
      ["daily_summary"] := by
    cases conversation with
    | none => rfl
    | some conversation => rfl
  simp only [admits, htypes, Bool.and_eq_true] at h
  obtain ⟨⟨⟨⟨⟨⟨⟨⟨-, htype⟩, -⟩, -⟩, -⟩, -⟩, -⟩, -⟩, -⟩ := h
  rcases hm : m.memoryType with - | t
  · simp [amongIfSet, hm] at htype
  · rw [hm] at htype
    cases t <;> first | rfl | exact absurd htype (by decide +kernel)

/-- The same memory as a fact, which needs no less to be valid. -/
def asFact (m : MemoryRecord) : MemoryRecord where
  toMemoryFields := { m.toMemoryFields with memoryType := some .fact }
  valid := by
    have hvalid := m.valid
    unfold MemoryFields.problem at hvalid ⊢
    split_ifs at hvalid with hcontent himportance huser hworkspace hconversation hworkflow
    simp only [hcontent, himportance, huser, hworkspace, hconversation, hworkflow, if_false,
      Option.some.injEq, reduceCtorEq, false_and]
    exact hvalid

/-- A query that does not look at types takes both alike. -/
theorem admits_asFact (h : f.memoryTypes = []) (m : MemoryRecord) :
    r.admits f (asFact m).toMemoryFields = r.admits f m.toMemoryFields := by
  have hany : ∀ t, amongIfSet f.memoryTypes t = true := by
    intro t
    rw [h]
    rfl
  simp only [admits, asFact, hany]
  rfl

theorem not_admits_asFact (m : MemoryRecord) :
    r.admits (r.operationalSummaries conversation agentId workspaceId userId)
      (asFact m).toMemoryFields = false := by
  by_contra h
  have htype := type_of_admits_summaries (m := asFact m) (Bool.eq_true_of_not_eq_false h)
  cases htype

/-- The summaries of a store where a query finds one memory. -/
theorem listRecentSummaries_crowded {ms : List MemoryRecord} (hm : r.admits f m.toMemoryFields)
    (hread : r.canRead m.toMemoryFields (some user) = true)
    (hms : ∀ m' ∈ ms, r.admits f m'.toMemoryFields = false) (hlimit : 0 < limit) :
    r.listRecentSummaries user (crowded m ms) f limit = [aside m "" 0] := by
  have hfilter : (sortDesc updateKey (crowded m ms).items).filter
      (fun m' => r.admits f m'.toMemoryFields) = [aside m "" 0] := by
    refine List.perm_singleton.mp (((perm_sortDesc updateKey _).filter _).trans ?_)
    have hitems : (crowded m ms).items = aside m "" 0 :: crowd ms := rfl
    rw [hitems, filter_cons_of_pos (by exact hm), List.filter_eq_nil_iff.mpr]
    intro m' hm'
    obtain ⟨w, hw, i, rfl⟩ := mem_crowd hm'
    rw [admits_aside, hms w hw]
    exact Bool.false_ne_true
  have hlength : ∀ {l : ℤ}, 0 < l → [aside m "" 0].length ≤ l.toNat := by
    intro l hl
    rw [length_singleton]
    omega
  rw [listRecentSummaries, query, hfilter, take_of_length_le (hlength (widened_pos hlimit)),
    visible_aside hread, sortDesc_singleton, take_of_length_le (hlength hlimit)]

/-- What the layers before the recent summaries have selected is among the candidates. -/
theorem recentSummaries_of_facts {base : List MemoryRecord}
    (hbase : ∀ m ∈ base, m.id ≠ "" ∧ m.memoryType ≠ some .dailySummary)
    (hlimit : 0 < limitOf limits "recent_summaries") (text : Option String) (e : Option (List ℚ))
    (m : MemoryRecord) :
    (r.operationalLayers limits text e base []).recentSummaries = [] ∧
      (r.operationalLayers limits text e base [aside m "" 0]).recentSummaries = [aside m "" 0] := by
  have hsummaries : activeOf [some .dailySummary] base = [] := by
    rw [activeOf, filter_eq_nil_iff]
    intro m' hm'
    simp [(hbase m' hm').2]
  have hactive : ∀ types, ∀ m' ∈ activeOf types base, m'.id ≠ "" := fun types m' hm' =>
    (hbase m' (List.mem_filter.mp hm').1).1
  -- Step by step nothing without an identifier is selected.
  have hstep : ∀ {selected : List String} (types : List (Option Graph.MemoryType)) (limit : ℤ),
      "" ∉ selected →
        "" ∉ (r.selectForOperationalLayer selected (activeOf types base) limit text).2 := by
    intro selected types limit hselected hmem
    rcases mem_selectForOperationalLayer hmem with hmem | ⟨m', hm', hid⟩
    · exact hselected hmem
    · exact hactive types m' hm' hid
  constructor
  · simp only [operationalLayers, hsummaries, append_nil]
    rw [show dedupeMemories [] = [] from rfl, selectForOperationalLayer_nil]
  · simp only [operationalLayers, hsummaries, append_nil]
    rw [show dedupeMemories [aside m "" 0] = [aside m "" 0] from rfl,
      selectForOperationalLayer_singleton none hlimit
        (hstep _ _ (hstep _ _ (hstep _ _ not_mem_nil))) rfl]

/-- Where neither an agent nor a workspace is looked for, the summaries can be crowded out. -/
theorem retrieveOperationalContext_not_congr_summaries (hrole : "admin" ∉ user.roles)
    (workflowId : Option String) {userId : Option String} (text : Option String)
    (hgiven : ¬ (agentId = none ∧ conversation = none)) (hagent : isBlank agentId)
    (hworkspace : isBlank (resolvedWorkspaceId conversation workspaceId))
    (hlimit : 0 < limitOf (layerLimits limitPerLayer) "recent_summaries")
    (h : ¬ r.Settled user (r.operationalSummaries conversation agentId (resolvedWorkspaceId
      conversation workspaceId) (r.resolvedUserId conversation userId))) :
    r.Leaks user (r.retrieveOperationalContext user · conversation agentId workflowId workspaceId
      userId text limitPerLayer) := by
  obtain ⟨⟨m, hm, hread⟩, w, hw, hhidden⟩ := of_not_settled h
  set limits := layerLimits limitPerLayer
  -- Copies of the memory that are facts fill the candidates and are no summaries.
  set fillers := List.replicate (baseLimit limits).toNat (asFact m)
  set ws := List.replicate (widened (limitOf limits "recent_summaries")).toNat w
  have hws : ∀ w' ∈ ws, r.canRead w'.toMemoryFields (some user) = false := by
    intro w' hw'
    rw [eq_of_mem_replicate hw']
    exact hhidden
  have hagree := r.agree_crowded m fillers hws
  have hfacts : ∀ e, ∀ m' ∈ (r.visible user (r.baseCandidates (crowded m fillers) conversation
      agentId workflowId (resolvedWorkspaceId conversation workspaceId)
      (r.resolvedUserId conversation userId) (baseLimit limits) e)).filter isNoContextPack,
      m'.id ≠ "" ∧ m'.memoryType ≠ some .dailySummary := by
    intro e m' hm'
    obtain ⟨f, hf, hfound⟩ := mem_baseCandidates_crowded
      (List.mem_filter.mp (List.mem_filter.mp hm').1).1
    obtain ⟨hmem, hadmits⟩ := mem_query hfound
    rcases mem_crowded.mp hmem with rfl | hmem
    · refine absurd hfound (aside_not_mem_query ?_)
      rw [countP_replicate_admits]
      rw [admits_asFact (memoryTypes_of_mem_baseQueries hf)]
      exact hadmits
    · obtain ⟨w', hw', i, rfl⟩ := mem_crowd hmem
      refine ⟨crowdId_ne_empty i, ?_⟩
      rw [eq_of_mem_replicate hw']
      exact nofun
  have hfillers : ∀ m' ∈ fillers, r.admits (r.operationalSummaries conversation agentId
      (resolvedWorkspaceId conversation workspaceId) (r.resolvedUserId conversation userId))
      m'.toMemoryFields = false := by
    intro m' hm'
    rw [eq_of_mem_replicate hm']
    exact not_admits_asFact m
  have hseen := listRecentSummaries_crowded hm hread hfillers hlimit
  have hcrowded : r.listRecentSummaries user (crowded m (fillers ++ ws))
      (r.operationalSummaries conversation agentId
        (resolvedWorkspaceId conversation workspaceId) (r.resolvedUserId conversation userId))
      (limitOf limits "recent_summaries") = [] := by
    refine listRecentSummaries_eq_nil (visible_eq_nil_of fun m' hm' => ?_)
    refine canRead_of_mem_query_crowded (fun w' hw' hadmits => ?_) (fun _ => ?_) hm'
    · rcases List.mem_append.mp hw' with hw' | hw'
      · rw [eq_of_mem_replicate hw', not_admits_asFact] at hadmits
        cases hadmits
      · exact hws w' hw'
    · rw [countP_append, countP_replicate_admits hw]
      exact Nat.le_add_left _ _
  refine ⟨_, _, hagree, fun heq => ?_⟩
  have hcalled := isNone_and_isNone hgiven
  have hbase := visible_baseCandidates_congr hrole hagree conversation workflowId
    (r.resolvedUserId conversation userId) hagent hworkspace (baseLimit limits) (r.embedQuery text)
  obtain ⟨hempty, hone⟩ := recentSummaries_of_facts (hfacts (r.embedQuery text)) hlimit text
    (r.embedQuery text) m
  unfold retrieveOperationalContext at heq
  simp only [hcalled, Bool.false_eq_true, if_false] at heq
  rw [hseen, hcrowded, ← hbase] at heq
  have hrecent := congrArg OperationalContext.recentSummaries heq
  rw [hempty, hone] at hrecent
  cases hrecent

theorem retrieveOperationalContext_not_congr (hrole : "admin" ∉ user.roles)
    (workflowId text : Option String)
    (h : ¬ r.OperationalIsolated user conversation agentId workspaceId userId limitPerLayer) :
    r.Leaks user (r.retrieveOperationalContext user · conversation agentId workflowId workspaceId
      userId text limitPerLayer) := by
  obtain ⟨hgiven, hroom, hqueries⟩ := not_or.mp h |>.imp_right not_or.mp
  have hkey : ∃ key ∈ layerNames, 0 < limitOf (layerLimits limitPerLayer) key := by
    by_contra hno
    exact hroom fun key hkey => not_lt.mp fun hpos => hno ⟨key, hkey, hpos⟩
  obtain ⟨key, hkey, hlimit⟩ := hkey
  by_cases hblank : isBlank agentId ∧ isBlank (resolvedWorkspaceId conversation workspaceId)
  · obtain ⟨hagent, hworkspace⟩ := hblank
    obtain ⟨hrecent, hsettled⟩ := not_or.mp fun hsummaries =>
      hqueries ⟨hagent, hworkspace, hsummaries⟩
    exact retrieveOperationalContext_not_congr_summaries hrole workflowId text hgiven hagent
      hworkspace (not_le.mp hrecent) hsettled
  · exact retrieveOperationalContext_not_congr_base hrole workflowId userId text hgiven hkey hlimit
      hblank

theorem layers_injective : Function.Injective OperationalContext.layers := by
  rintro ⟨a, b, c, d, e⟩ ⟨a', b', c', d', e'⟩ h
  simpa [OperationalContext.layers] using h

end MemoryRetrieval

/-! ### All calls -/

/-- A conversation that a call is for is one of the user's own. -/
def MemoryRead.OwnedBy (r : MemoryRetrieval) (user : UserDefinition) : MemoryRead → Prop
  | .retrieveForConversation conversation _ _ _ =>
    r.conversation conversation.id = some conversation ∧ conversation.createdByUserId = some user.id
  | _ => True

/-- The calls that show nothing of what the user may not read. -/
def MemoryRead.Isolated (r : MemoryRetrieval) (user : UserDefinition) : MemoryRead → Prop
  | .listMemories scope f text limit =>
    limit ≤ 0 ∨ r.Settled user (r.listQuery (f.inScope scope) text)
  | .retrieveForAgent agentId _ _ workspaceId _ includeTypes excludeStatuses limit =>
    limit ≤ 0 ∨ isBlank (some agentId) ∧ isBlank workspaceId ∨
      ∀ memoryType status,
        MemoryRetrieval.isSelected includeTypes excludeStatuses memoryType status = false
  | .listRecentSummaries conversationId agentId workspaceId userId days limit =>
    limit ≤ 0 ∨ r.Settled user (r.recentSummaries conversationId agentId workspaceId userId days)
  | .retrieveOperationalContext conversation agentId _ workspaceId userId _ limitPerLayer =>
    r.OperationalIsolated user conversation agentId workspaceId userId limitPerLayer
  | .retrieveForConversation conversation _ agentId limit =>
    limit ≤ 0 ∨ r.OwnConversation user conversation agentId

/-- An isolated call returns the same in both stores, and another one does not in some. -/
theorem same_iff {α β : Type} {r : MemoryRetrieval} {user : UserDefinition} {P : Prop}
    {f : MemoryStore → α} {g : α → β} (hg : Function.Injective g)
    (hcongr : P → ∀ s₁ s₂, r.Agree user s₁ s₂ → f s₁ = f s₂)
    (hnot : ¬ P → r.Leaks user f) :
    (∀ s₁ s₂, r.Agree user s₁ s₂ → g (f s₁) = g (f s₂)) ↔ P := by
  constructor
  · intro hsame
    by_contra hno
    obtain ⟨s₁, s₂, hagree, hne⟩ := hnot hno
    exact hne (hg (hsame s₁ s₂ hagree))
  · intro h s₁ s₂ hagree
    rw [hcongr h s₁ s₂ hagree]

/-- **Memory read isolation**: a call returns the same in every two stores that hold the same
memories that the user may read, just if it is isolated. -/
theorem memoryRead_isolated_iff {r : MemoryRetrieval} {user : UserDefinition}
    (hrole : "admin" ∉ user.roles) {call : MemoryRead} (howned : call.OwnedBy r user) :
    (∀ s₁ s₂, r.Agree user s₁ s₂ → r.read user s₁ call = r.read user s₂ call) ↔
      call.Isolated r user := by
  cases call with
  | listMemories scope f text limit =>
    refine same_iff singleton_injective
      (fun h _ _ hagree => r.listMemories_congr hagree h) fun hno => ?_
    obtain ⟨hlimit, hsettled⟩ := not_or.mp hno
    exact r.listMemories_not_congr (not_le.mp hlimit) hsettled
  | retrieveForAgent agentId text workflowId workspaceId userId includeTypes excludeStatuses
      limit =>
      refine same_iff singleton_injective
        (fun h _ _ hagree => r.retrieveForAgent_congr hrole hagree h) fun hno => ?_
      obtain ⟨hlimit, hblank, hselected⟩ := not_or.mp hno |>.imp_right not_or.mp
      obtain ⟨memoryType, hkept⟩ := not_forall.mp hselected
      obtain ⟨status, hkept⟩ := not_forall.mp hkept
      exact r.retrieveForAgent_not_congr hrole (not_le.mp hlimit) hblank
        (Bool.eq_true_of_not_eq_false hkept)
  | listRecentSummaries conversationId agentId workspaceId userId days limit =>
    refine same_iff singleton_injective
      (fun h _ _ hagree => r.listRecentSummaries_congr hagree h) fun hno => ?_
    obtain ⟨hlimit, hsettled⟩ := not_or.mp hno
    exact r.listRecentSummaries_not_congr (not_le.mp hlimit) hsettled
  | retrieveOperationalContext conversation agentId workflowId workspaceId userId text limits =>
    exact same_iff MemoryRetrieval.layers_injective
      (fun h _ _ hagree => r.retrieveOperationalContext_congr hrole hagree h)
      (r.retrieveOperationalContext_not_congr hrole workflowId text)
  | retrieveForConversation conversation text agentId limit =>
    obtain ⟨hfound, howner⟩ := howned
    refine same_iff singleton_injective
      (fun h _ _ hagree => r.retrieveForConversation_congr hagree hfound howner h) fun hno => ?_
    obtain ⟨hlimit, hown⟩ := not_or.mp hno
    exact r.retrieveForConversation_not_congr hrole (not_le.mp hlimit) hown

/-! ### A user's own conversation -/

def carol : UserDefinition where
  id := "carol"
  email := "carol@example.com"

def carolsChat : Conversation where
  id := "chat"
  createdByUserId := some "carol"

/-- Exact arithmetic, no vectors, and one conversation. -/
def bareRetrieval : MemoryRetrieval where
  toMemoryContext := { bareContext with
    conversation := fun id => if id = carolsChat.id then some carolsChat else none }
  ilike := fun text value => isIn text value
  postgres := false
  distance := fun _ _ => none
  memoryVectorRetrievalEnabled := false
  findByChannelIdentity := fun _ _ => none
  now := 0
  round := id
  sqrt := id

/-- `carol` asks in her conversation, on her own or with an agent. -/
def carolsRead (agentId : Option String) : MemoryRead :=
  .retrieveForConversation carolsChat none agentId 10

theorem ownedBy_carolsRead (agentId : Option String) :
    (carolsRead agentId).OwnedBy bareRetrieval carol := ⟨rfl, rfl⟩

/-- What `alice` told an agent. -/
def alicesNote : MemoryRecord where
  id := "note"
  scope := .user
  createdByUserId := some "alice"
  agentId := some "helper"
  createdAt := 0
  updatedAt := 0
  content := "My salary is 90."
  valid := by decide +kernel

theorem canRead_alicesNote :
    bareRetrieval.canRead alicesNote.toMemoryFields (some carol) = false := by
  decide +kernel

theorem memoryRead_isolated_chat :
    bareRetrieval.read carol Catalog.empty (carolsRead none) =
      bareRetrieval.read carol (MemoryRetrieval.crowded alicesNote []) (carolsRead none) := by
  have hrole : "admin" ∉ carol.roles := by decide
  refine (memoryRead_isolated_iff hrole (ownedBy_carolsRead none)).mpr (.inr ?_) _ _
    (MemoryRetrieval.agree_empty canRead_alicesNote)
  refine ⟨rfl, rfl, fun v hv _ => ?_⟩
  cases hv
  rfl

/-- Another user's memory is shown to the owner of a conversation. -/
theorem memoryRead_note :
    ¬ ∀ (r : MemoryRetrieval) (user : UserDefinition) (call : MemoryRead),
      "admin" ∉ user.roles → call.OwnedBy r user →
        ∀ s₁ s₂, r.Agree user s₁ s₂ → r.read user s₁ call = r.read user s₂ call := by
  intro hclaim
  have hsame := hclaim bareRetrieval carol (carolsRead (some "helper")) (by decide)
    (ownedBy_carolsRead _) _ _ (MemoryRetrieval.agree_empty canRead_alicesNote)
  have hshown := congrArg (fun l => l.map fun items => items.length) hsame
  revert hshown
  decide +kernel

end OpenAgency
