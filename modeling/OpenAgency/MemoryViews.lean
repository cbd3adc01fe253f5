/-
MemoryViews.lean

What the calls that read memories show of two stores that a user cannot tell apart.

A query whose conditions settle who may read what it finds does not depend on the others:
of its finds a user may read all, or none.  The remaining queries cut their finds to a limit
first, so memories that the user may not read can be in the way of one that it may; and
`retrieve_for_conversation` does not look at who may read what it finds.
-/
import OpenAgency.MemoryRetrieval

namespace OpenAgency

open Relational Selection List MemoryContext Catalog Graph.MemoryScope MemoryFields

namespace MemoryRetrieval

variable {r : MemoryRetrieval} {user : UserDefinition} {s s₁ s₂ : MemoryStore}

/-! ### What a query finds -/

variable {m m' : MemoryRecord}

theorem eq_of_updateKey (hm : m ∈ s.items) (hm' : m' ∈ s.items) (h : updateKey m = updateKey m') :
    m = m' :=
  eq_of_key hm hm' (congrArg (fun k => (ofLex k).2) h)

theorem nodup_items (s : MemoryStore) : s.items.Nodup := List.Nodup.of_map _ s.nodup

variable {f : MemoryQuery} {limit : ℤ} {m : MemoryRecord}

theorem mem_query (h : m ∈ r.query s f limit) : m ∈ s.items ∧ r.admits f m.toMemoryFields := by
  have hfound := List.mem_filter.mp (mem_of_mem_take h)
  exact ⟨(mem_sortDesc updateKey).mp hfound.1, hfound.2⟩

/-- The rows are scored in their places. -/
theorem map_snd_of_mapM {α : Type} {g : MemoryRecord → Option α} {rows : List MemoryRecord}
    {scored : List (α × MemoryRecord)}
    (h : (rows.mapM fun m => (g m).map (·, m)) = some scored) : scored.map Prod.snd = rows := by
  induction rows generalizing scored with
  | nil =>
    cases h
    rfl
  | cons m rows ih =>
    rw [mapM_cons] at h
    rcases hg : g m with - | a
    · rw [hg] at h
      cases h
    · rcases hrows : (rows.mapM fun m => (g m).map (·, m)) with - | rest
      · rw [hg, hrows] at h
        cases h
      · rw [hg, hrows] at h
        cases h
        rw [map_cons, ih hrows]

theorem mem_queryByEmbedding {e : List ℚ} (h : m ∈ r.queryByEmbedding s e f limit) :
    m ∈ s.items ∧ r.admits { f with text := none } m.toMemoryFields ∧ m.embedding.isSome := by
  unfold queryByEmbedding at h
  split at h
  · split at h
    · exact absurd h not_mem_nil
    next scored hscored =>
      obtain ⟨p, hp, rfl⟩ := List.mem_map.mp (mem_of_mem_take h)
      have hscored' : p ∈ scored := (mem_insertionSort _).mp hp
      have hrow := mem_map_of_mem (f := Prod.snd) hscored'
      rw [map_snd_of_mapM hscored] at hrow
      obtain ⟨hrow, hvector⟩ := List.mem_filter.mp hrow
      obtain ⟨hlisted, hadmits⟩ := List.mem_filter.mp hrow
      exact ⟨(mem_sortDesc updateKey).mp hlisted, hadmits, hvector⟩
  · exact absurd h not_mem_nil

/-! ### Stores a user cannot tell apart -/

/-- The two stores hold the same memories that the user may read. -/
def Agree (r : MemoryRetrieval) (user : UserDefinition) (s₁ s₂ : MemoryStore) : Prop :=
  ∀ m : MemoryRecord, r.canRead m.toMemoryFields (some user) → (m ∈ s₁.items ↔ m ∈ s₂.items)

/-- What `f` answers depends on what the user may not read. -/
def Leaks {α : Type} (r : MemoryRetrieval) (user : UserDefinition) (f : MemoryStore → α) : Prop :=
  ∃ s₁ s₂, r.Agree user s₁ s₂ ∧ f s₁ ≠ f s₂

/-- The user may read everything the query can find. -/
def AllReadable (r : MemoryRetrieval) (user : UserDefinition) (f : MemoryQuery) : Prop :=
  ∀ m : MemoryRecord, r.admits f m.toMemoryFields → r.canRead m.toMemoryFields (some user)

/-- The user may read nothing the query can find. -/
def NoneReadable (r : MemoryRetrieval) (user : UserDefinition) (f : MemoryQuery) : Prop :=
  ∀ m : MemoryRecord, r.admits f m.toMemoryFields → r.canRead m.toMemoryFields (some user) = false

/-- The conditions of a query settle whether the user may read what it finds. -/
def Settled (r : MemoryRetrieval) (user : UserDefinition) (f : MemoryQuery) : Prop :=
  r.AllReadable user f ∨ r.NoneReadable user f

theorem filter_listing_congr (hagree : r.Agree user s₁ s₂) (hall : r.AllReadable user f) :
    ((sortDesc updateKey s₁.items).filter fun m => r.admits f m.toMemoryFields) =
      (sortDesc updateKey s₂.items).filter fun m => r.admits f m.toMemoryFields :=
  filter_sortDesc_congr (nodup_items s₁) (nodup_items s₂) (fun _ ha _ hb => eq_of_updateKey ha hb)
    fun m hm => hagree m (hall m hm)

theorem query_congr (hagree : r.Agree user s₁ s₂) (hall : r.AllReadable user f) (limit : ℤ) :
    r.query s₁ f limit = r.query s₂ f limit := by
  rw [query, query, filter_listing_congr hagree hall]

theorem queryByEmbedding_congr (hagree : r.Agree user s₁ s₂)
    (hall : r.AllReadable user { f with text := none }) (e : List ℚ) (limit : ℤ) :
    r.queryByEmbedding s₁ e f limit = r.queryByEmbedding s₂ e f limit := by
  have hrows : r.embeddedRows s₁ f = r.embeddedRows s₂ f := by
    rw [embeddedRows, embeddedRows, filter_listing_congr hagree hall]
  rw [queryByEmbedding, queryByEmbedding, hrows]

variable {items : List MemoryRecord}

theorem visible_eq_nil (hnone : r.NoneReadable user f)
    (h : ∀ m ∈ items, r.admits f m.toMemoryFields) :
    r.visible user items = [] := by
  rw [visible, filter_eq_nil_iff]
  intro m hm
  rw [hnone m (h m hm)]
  exact Bool.false_ne_true

theorem visible_query_congr (hagree : r.Agree user s₁ s₂) (hsettled : r.Settled user f)
    (limit : ℤ) :
    r.visible user (r.query s₁ f limit) = r.visible user (r.query s₂ f limit) := by
  rcases hsettled with hall | hnone
  · rw [query_congr hagree hall]
  · rw [visible_eq_nil hnone fun m hm => (mem_query hm).2,
      visible_eq_nil hnone fun m hm => (mem_query hm).2]

theorem visible_queryByEmbedding_congr (hagree : r.Agree user s₁ s₂)
    (hsettled : r.Settled user { f with text := none }) (e : List ℚ) (limit : ℤ) :
    r.visible user (r.queryByEmbedding s₁ e f limit) =
      r.visible user (r.queryByEmbedding s₂ e f limit) := by
  rcases hsettled with hall | hnone
  · rw [queryByEmbedding_congr hagree hall]
  · rw [visible_eq_nil hnone fun m hm => (mem_queryByEmbedding hm).2.1,
      visible_eq_nil hnone fun m hm => (mem_queryByEmbedding hm).2.1]

/-- What is visible of the first of each identifier. -/
theorem visible_dedupeMemories (h : ∀ m ∈ items, m ∈ s.items) :
    r.visible user (dedupeMemories items) = dedupeMemories (r.visible user items) :=
  filter_firsts fun a ha b hb hid => eq_of_key (h a ha) (h b hb) hid

theorem visible_append (l l' : List MemoryRecord) :
    r.visible user (l ++ l') = r.visible user l ++ r.visible user l' := filter_append ..

variable {e : Option (List ℚ)}

theorem mem_layer (h : m ∈ r.layer s e limit f) : m ∈ s.items := by
  rcases List.mem_append.mp h with h | h
  · exact (mem_query h).1
  · cases e with
    | none => exact absurd h not_mem_nil
    | some e => exact (mem_queryByEmbedding h).1

theorem visible_layer_congr (hagree : r.Agree user s₁ s₂) (hsettled : r.Settled user f)
    (htext : f.text = none) (e : Option (List ℚ)) (limit : ℤ) :
    r.visible user (r.layer s₁ e limit f) = r.visible user (r.layer s₂ e limit f) := by
  have hf : ({ f with text := none } : MemoryQuery) = f := by
    rw [← htext]
  unfold layer
  rw [visible_append, visible_append, visible_query_congr hagree hsettled]
  cases e with
  | none => rfl
  | some e =>
    have hvector := visible_queryByEmbedding_congr hagree (hf ▸ hsettled) e limit
    rw [hvector]

/-! ### Queries that settle who may read -/

/-- The conditions on the scope and on what a scope is bound to. -/
theorem of_admits {m : MemoryFields} (h : r.admits f m) :
    amongIfSet f.scopes (some m.scope.value) ∧ equalsIfSet f.userId m.createdByUserId ∧
      equalsIfSet f.conversationId m.conversationId ∧ equalsIfSet f.workflowId m.workflowId := by
  simp only [admits, Bool.and_eq_true] at h
  obtain ⟨⟨⟨⟨⟨⟨⟨⟨⟨⟨⟨⟨⟨⟨hscope, huser⟩, -⟩, hconversation⟩, hworkflow⟩, -⟩, -⟩, -⟩, -⟩, -⟩, -⟩, -⟩,
    -⟩, -⟩, -⟩ := h
  exact ⟨hscope, huser, hconversation, hworkflow⟩

theorem value_injective : Function.Injective value := by
  intro a b h
  cases a <;> cases b <;> first | rfl | exact absurd h (by decide)

/-- A query for one scope finds memories of that scope. -/
theorem scope_of_admits {m : MemoryFields} (scope : Graph.MemoryScope) (h : r.admits f m)
    (hscopes : f.scopes = [scope.value]) : m.scope = scope := by
  have hscope := (of_admits h).1
  rw [hscopes] at hscope
  exact value_injective (by simpa [amongIfSet] using hscope)

theorem eq_of_equalsIfSet {filter column : Option String} (h : equalsIfSet filter column)
    (hset : filter.isSome) : column = filter := by
  cases filter with
  | none => cases hset
  | some v => simpa [equalsIfSet] using h

theorem canRead_eq (hrole : "admin" ∉ user.roles) (m : MemoryFields) :
    r.canRead m (some user) = (m.scope = .global || r.userCanAccess m user) := by
  simp [canRead, hrole]

theorem allReadable_global (h : f.scopes = ["global"]) : r.AllReadable user f := by
  intro m hm
  simp [canRead, scope_of_admits .global hm h]

/-- What a user may read is the same for all memories of one scope that are bound alike. -/
theorem settled_of_scope (scope : Graph.MemoryScope) (access : Bool) (hrole : "admin" ∉ user.roles)
    (hscopes : f.scopes = [scope.value]) (hne : scope ≠ .global)
    (h : ∀ m : MemoryRecord, r.admits f m.toMemoryFields → m.scope = scope →
      r.userCanAccess m.toMemoryFields user = access) : r.Settled user f := by
  have hread : ∀ m : MemoryRecord, r.admits f m.toMemoryFields →
      r.canRead m.toMemoryFields (some user) = access := by
    intro m hm
    have hscope := scope_of_admits scope hm hscopes
    rw [canRead_eq hrole, h m hm hscope, hscope]
    simp [hne]
  cases access with
  | true => exact .inl hread
  | false => exact .inr hread

theorem settled_user (hrole : "admin" ∉ user.roles) {userId : Option String}
    (hset : isBlank userId = false) :
    r.Settled user { scopes := ["user"], userId := userId } := by
  refine settled_of_scope .user (userId = some user.id) hrole rfl nofun ?_
  intro m hm hscope
  have huser := eq_of_equalsIfSet (of_admits hm).2.1 (by cases userId with
    | none => simp [isBlank] at hset
    | some v => rfl)
  simp only [userCanAccess, hscope, huser]

theorem settled_workflow (hrole : "admin" ∉ user.roles) {workflowId : Option String}
    (hset : isBlank workflowId = false) :
    r.Settled user { scopes := ["workflow"], workflowId := workflowId } := by
  refine settled_of_scope .workflow (r.userCanAccessWorkflow workflowId user) hrole rfl nofun ?_
  intro m hm hscope
  have hworkflow := eq_of_equalsIfSet (of_admits hm).2.2.2 (by cases workflowId with
    | none => simp [isBlank] at hset
    | some v => rfl)
  simp only [userCanAccess, hscope, hworkflow]

theorem settled_conversation (hrole : "admin" ∉ user.roles) (conversationId : String) :
    r.Settled user { scopes := ["conversation"], conversationId := some conversationId } := by
  refine settled_of_scope .conversation (r.userCanAccessConversation (some conversationId) user)
    hrole rfl nofun ?_
  intro m hm hscope
  have hconversation := eq_of_equalsIfSet (of_admits hm).2.2.1 rfl
  simp only [userCanAccess, hscope, hconversation]

variable {agentId workflowId workspaceId userId : Option String}

/-- Without an agent and a workspace every query settles who may read what it finds. -/
theorem settled_agentQueries (hrole : "admin" ∉ user.roles) (hagent : isBlank agentId)
    (hworkspace : isBlank workspaceId) :
    ∀ f ∈ agentQueries agentId workflowId workspaceId userId, r.Settled user f ∧ f.text = none := by
  intro f hf
  simp only [agentQueries, hagent, hworkspace, if_true, nil_append, mem_append,
    append_nil] at hf
  rcases hf with (hf | hf) | hf
  · by_cases hblank : isBlank workflowId
    · simp [hblank] at hf
    · simp only [hblank, Bool.false_eq_true, if_false, mem_singleton] at hf
      subst hf
      exact ⟨settled_workflow hrole (by simpa using hblank), rfl⟩
  · by_cases hblank : isBlank userId
    · simp [hblank] at hf
    · simp only [hblank, Bool.false_eq_true, if_false, mem_singleton] at hf
      subst hf
      exact ⟨settled_user hrole (by simpa using hblank), rfl⟩
  · rw [List.mem_singleton.mp hf]
    exact ⟨.inl (allReadable_global rfl), rfl⟩

theorem mem_candidates
    (h : m ∈ r.collectAgentCandidates s agentId workflowId workspaceId userId limit e) :
    m ∈ s.items := by
  obtain ⟨f, -, hm⟩ := List.mem_flatMap.mp (mem_of_mem_firsts h)
  exact mem_layer hm

theorem visible_candidates_congr (hagree : r.Agree user s₁ s₂)
    (hqueries : ∀ f ∈ agentQueries agentId workflowId workspaceId userId, r.Settled user f ∧
      f.text = none) (limit : ℤ) (e : Option (List ℚ)) :
    r.visible user (r.collectAgentCandidates s₁ agentId workflowId workspaceId userId limit e) =
      r.visible user
        (r.collectAgentCandidates s₂ agentId workflowId workspaceId userId limit e) := by
  have hfound : ∀ {s : MemoryStore},
      ∀ m ∈ (agentQueries agentId workflowId workspaceId userId).flatMap (r.layer s e limit),
        m ∈ s.items := by
    intro s m hm
    obtain ⟨f, -, hm⟩ := List.mem_flatMap.mp hm
    exact mem_layer hm
  rw [collectAgentCandidates, collectAgentCandidates, visible_dedupeMemories hfound,
    visible_dedupeMemories hfound]
  congr 1
  rw [visible, visible, filter_flatMap, filter_flatMap]
  refine flatMap_congr fun f hf => ?_
  obtain ⟨hsettled, htext⟩ := hqueries f hf
  exact visible_layer_congr hagree hsettled htext e limit

theorem visible_baseCandidates_congr (hrole : "admin" ∉ user.roles)
    (hagree : r.Agree user s₁ s₂) (conversation : Option Conversation)
    {agentId workspaceId : Option String} (workflowId userId : Option String)
    (hagent : isBlank agentId) (hworkspace : isBlank workspaceId) (limit : ℤ)
    (e : Option (List ℚ)) :
    r.visible user
        (r.baseCandidates s₁ conversation agentId workflowId workspaceId userId limit e) =
      r.visible user
        (r.baseCandidates s₂ conversation agentId workflowId workspaceId userId limit e) := by
  have hqueries : ∀ f ∈ agentQueries agentId workflowId workspaceId userId,
      r.Settled user f ∧ f.text = none := settled_agentQueries hrole hagent hworkspace
  have hcandidates := visible_candidates_congr hagree hqueries limit e
  cases conversation with
  | none => exact hcandidates
  | some conversation =>
    have hfound : ∀ {s : MemoryStore}, ∀ m ∈
        r.collectAgentCandidates s agentId workflowId workspaceId userId limit e ++
          r.query s { scopes := ["conversation"], conversationId := some conversation.id } limit,
        m ∈ s.items := by
      intro s m hm
      rcases List.mem_append.mp hm with hm | hm
      · exact mem_candidates hm
      · exact (mem_query hm).1
    have hquery := visible_query_congr hagree (settled_conversation hrole conversation.id) limit
    simp only [baseCandidates]
    rw [visible_dedupeMemories hfound, visible_dedupeMemories hfound, visible_append,
      visible_append, hcandidates, hquery]

/-! ### Memories that are in the way -/

/-- A memory under another identifier, as last updated at another time, with no vector and
not sensitive. -/
def aside (m : MemoryRecord) (id : String) (updatedAt : Time) : MemoryRecord where
  toMemoryFields := { m.toMemoryFields with
    id
    updatedAt
    embedding := none
    isSensitive := false }
  valid := m.valid

@[simp] theorem admits_aside (f : MemoryQuery) (m : MemoryRecord) (id : String) (t : Time) :
    r.admits f (aside m id t).toMemoryFields = r.admits f m.toMemoryFields := rfl

theorem canRead_aside (m : MemoryRecord) (id : String) (t : Time) :
    r.canRead (aside m id t).toMemoryFields (some user) =
      r.canRead m.toMemoryFields (some user) := rfl

/-- Identifiers for a crowd of memories. -/
def crowdId (i : ℕ) : String := String.ofList (List.replicate (i + 1) 'm')

theorem crowdId_injective : Function.Injective crowdId := by
  intro i j h
  have hlength := congrArg (fun s => s.toList.length) h
  simpa [crowdId] using hlength

theorem crowdId_ne_empty (i : ℕ) : crowdId i ≠ "" := by
  intro h
  have hlength := congrArg (fun s => s.toList.length) h
  simp [crowdId] at hlength

/-- Memories that were updated later than all others. -/
def crowd (ms : List MemoryRecord) : List MemoryRecord :=
  ms.zipIdx.map fun p => aside p.1 (crowdId p.2) 1

variable {ms : List MemoryRecord}

theorem mem_crowd (h : m ∈ crowd ms) : ∃ m' ∈ ms, ∃ i, m = aside m' (crowdId i) 1 := by
  obtain ⟨p, hp, rfl⟩ := List.mem_map.mp h
  exact ⟨p.1, fst_mem_of_mem_zipIdx hp, p.2, rfl⟩

theorem map_id_crowd (ms : List MemoryRecord) :
    (crowd ms).map (fun m => m.id) = (List.range' 0 ms.length).map crowdId := by
  rw [crowd, map_map, ← zipIdx_map_snd 0 ms, map_map]
  rfl

/-- One memory, and others that were updated after it. -/
def crowded (m : MemoryRecord) (ms : List MemoryRecord) : MemoryStore where
  items := aside m "" 0 :: crowd ms
  nodup := by
    rw [map_cons, map_id_crowd]
    refine List.nodup_cons.mpr ⟨?_, (nodup_range').map crowdId_injective⟩
    intro hmem
    obtain ⟨i, -, hi⟩ := List.mem_map.mp hmem
    exact crowdId_ne_empty i hi

theorem mem_crowded : m' ∈ (crowded m ms).items ↔ m' = aside m "" 0 ∨ m' ∈ crowd ms := mem_cons

theorem countP_crowd (ms : List MemoryRecord) (p : MemoryRecord → Bool)
    (hp : ∀ m id, p (aside m id 1) = p m) : (crowd ms).countP p = ms.countP p := by
  rw [crowd, countP_map]
  conv_rhs => rw [← zipIdx_map_fst 0 ms, countP_map]
  exact countP_congr fun q _ => by simp [hp]

/-- **Crowding out**: a query does not find a memory behind which it stops. -/
theorem aside_not_mem_query (h : limit.toNat ≤ ms.countP fun m' => r.admits f m'.toMemoryFields) :
    aside m "" 0 ∉ r.query (crowded m ms) f limit := by
  have hsorted := (pairwise_sortDesc updateKey (crowded m ms).items).filter
    fun m' => r.admits f m'.toMemoryFields
  refine not_mem_take_of_crowd hsorted (h.trans ?_)
  rw [← countP_eq_length_filter, countP_filter,
    (perm_sortDesc updateKey (crowded m ms).items).countP_eq]
  have hlate : ∀ m' ∈ crowd ms, updateKey (aside m "" 0) < updateKey m' := by
    intro m' hm'
    obtain ⟨w, -, i, rfl⟩ := mem_crowd hm'
    exact Prod.Lex.toLex_lt_toLex.mpr (.inl Nat.zero_lt_one)
  have hcount : (crowd ms).countP (fun m' => r.admits f m'.toMemoryFields) =
      (crowd ms).countP fun m' => decide (updateKey (aside m "" 0) < updateKey m') &&
        r.admits f m'.toMemoryFields :=
    countP_congr fun m' hm' => by simp [hlate m' hm']
  rw [← countP_crowd ms _ fun _ _ => rfl, hcount]
  exact (sublist_cons_self _ _).countP_le

/-- Nothing in a crowd has a vector. -/
theorem queryByEmbedding_crowded (m : MemoryRecord) (ms : List MemoryRecord) (e : List ℚ)
    (f : MemoryQuery) (limit : ℤ) : r.queryByEmbedding (crowded m ms) e f limit = [] := by
  refine List.eq_nil_iff_forall_not_mem.mpr fun m' hm' => ?_
  obtain ⟨hmem, -, hvector⟩ := mem_queryByEmbedding hm'
  rcases mem_crowded.mp hmem with rfl | hmem
  · cases hvector
  · obtain ⟨w, -, i, rfl⟩ := mem_crowd hmem
    cases hvector

theorem layer_crowded (m : MemoryRecord) (ms : List MemoryRecord) (e : Option (List ℚ))
    (f : MemoryQuery) (limit : ℤ) :
    r.layer (crowded m ms) e limit f = r.query (crowded m ms) f limit := by
  cases e with
  | none => exact append_nil _
  | some e =>
    simp only [layer, queryByEmbedding_crowded, append_nil]

/-- What a query finds where there is one memory. -/
theorem query_alone (hm : r.admits f m.toMemoryFields) (hlimit : 0 < limit) :
    r.query (crowded m []) f limit = [aside m "" 0] := by
  have hitems : (crowded m []).items = [aside m "" 0] := rfl
  have hlength : [aside m "" 0].length ≤ limit.toNat := by
    rw [length_singleton]
    omega
  rw [query, hitems, sortDesc_singleton, filter_cons_of_pos (by exact hm), filter_nil,
    take_of_length_le hlength]

theorem mem_alone (h : m' ∈ (crowded m []).items) : m' = aside m "" 0 := List.mem_singleton.mp h

variable {ws : List MemoryRecord}

/-- Adding memories that the user may not read changes nothing for the user. -/
theorem agree_crowded (m : MemoryRecord) (ms : List MemoryRecord)
    (hws : ∀ w ∈ ws, r.canRead w.toMemoryFields (some user) = false) :
    r.Agree user (crowded m ms) (crowded m (ms ++ ws)) := by
  intro m' hread
  rw [mem_crowded, mem_crowded]
  refine or_congr_right ?_
  unfold crowd
  rw [zipIdx_append, map_append, mem_append]
  constructor
  · exact .inl
  · refine fun h => h.resolve_right fun h => ?_
    obtain ⟨p, hp, rfl⟩ := List.mem_map.mp h
    rw [canRead_aside, hws p.1 (fst_mem_of_mem_zipIdx hp)] at hread
    cases hread

/-- A memory behind enough others that the user may not read. -/
theorem canRead_of_mem_query_crowded
    (hws : ∀ w ∈ ws, r.admits f w.toMemoryFields → r.canRead w.toMemoryFields (some user) = false)
    (hcrowd : r.admits f m.toMemoryFields →
      limit.toNat ≤ ws.countP fun w => r.admits f w.toMemoryFields) {m' : MemoryRecord}
    (hm' : m' ∈ r.query (crowded m ws) f limit) :
    r.canRead m'.toMemoryFields (some user) = false := by
  obtain ⟨hmem, hadmits⟩ := mem_query hm'
  rcases mem_crowded.mp hmem with rfl | hmem
  · exact absurd hm' (aside_not_mem_query (hcrowd hadmits))
  · obtain ⟨w, hw, i, rfl⟩ := mem_crowd hmem
    exact hws w hw hadmits

theorem visible_eq_nil_of (h : ∀ m ∈ items, r.canRead m.toMemoryFields (some user) = false) :
    r.visible user items = [] := by
  rw [visible, filter_eq_nil_iff]
  intro m hm
  rw [h m hm]
  exact Bool.false_ne_true

theorem visible_aside (h : r.canRead m.toMemoryFields (some user) = true) (id : String) (t : Time) :
    r.visible user [aside m id t] = [aside m id t] := by
  rw [visible, filter_cons_of_pos (by exact h), filter_nil]

variable {w : MemoryRecord}

theorem countP_replicate_admits (h : r.admits f w.toMemoryFields) (n : ℕ) :
    (List.replicate n w).countP (fun w => r.admits f w.toMemoryFields) = n := by
  rw [countP_replicate, if_pos h]

/-! ### Ranking one memory -/

@[simp] theorem rank_nil (text : Option String) (limit : ℤ) (e : Option (List ℚ)) :
    r.rank [] text limit e = [] := by
  rw [rank, sortDesc_nil, take_nil]

theorem rank_singleton (m : MemoryRecord) (text : Option String) (h : 0 < limit)
    (e : Option (List ℚ)) : r.rank [m] text limit e = [m] := by
  have hlength : [m].length ≤ limit.toNat := by
    rw [length_singleton]
    omega
  rw [rank, sortDesc_singleton, take_of_length_le hlength]

theorem rank_of_nonpos {text : Option String} (h : limit ≤ 0) (e : Option (List ℚ)) :
    r.rank items text limit e = [] := by
  rw [rank, Int.toNat_of_nonpos h, take_zero]

theorem widened_pos (h : 0 < limit) : 0 < widened limit := lt_max_of_lt_right h

theorem widened_of_nonpos (h : limit ≤ 0) : widened limit ≤ 0 := max_le (by omega) h

/-! ### `list_memories` and `list_recent_summaries` -/

/-- The query of `list_memories`: its text only counts where it is not embedded. -/
def listQuery (r : MemoryRetrieval) (f : MemoryQuery) (text : Option String) : MemoryQuery :=
  { f with text := if (r.embedQuery text).isSome then none else text }

/-- A query that is not settled finds a memory the user may read and one it may not. -/
theorem of_not_settled (h : ¬ r.Settled user f) :
    (∃ m : MemoryRecord, r.admits f m.toMemoryFields ∧
      r.canRead m.toMemoryFields (some user) = true) ∧
    ∃ w : MemoryRecord, r.admits f w.toMemoryFields ∧
      r.canRead w.toMemoryFields (some user) = false := by
  obtain ⟨hall, hnone⟩ := not_or.mp h
  constructor
  · by_contra hno
    refine hnone fun m hm => ?_
    exact Bool.eq_false_iff.mpr fun hread => hno ⟨m, hm, hread⟩
  · by_contra hno
    refine hall fun m hm => ?_
    exact Bool.not_eq_false _ ▸ fun hread => hno ⟨m, hm, hread⟩

/-- Two stores a user cannot tell apart, in one of which a query shows the user a memory
that it does not show in the other. -/
theorem exists_crowd (h : ¬ r.Settled user f) (hlimit : 0 < limit) :
    ∃ (m : MemoryRecord) (ws : List MemoryRecord), r.Agree user (crowded m []) (crowded m ws) ∧
      r.visible user (r.query (crowded m []) f limit) = [aside m "" 0] ∧
      r.visible user (r.query (crowded m ws) f limit) = [] := by
  obtain ⟨⟨m, hm, hread⟩, w, hw, hhidden⟩ := of_not_settled h
  have hws : ∀ w' ∈ List.replicate limit.toNat w,
      r.canRead w'.toMemoryFields (some user) = false := by
    intro w' hw'
    rw [eq_of_mem_replicate hw']
    exact hhidden
  refine ⟨m, List.replicate limit.toNat w, agree_crowded m [] hws, ?_, ?_⟩
  · rw [query_alone hm hlimit, visible_aside hread]
  · refine visible_eq_nil_of fun m' hm' =>
      canRead_of_mem_query_crowded (fun w hw _ => hws w hw) (fun _ => ?_) hm'
    rw [countP_replicate_admits hw]

theorem listMemories_congr (hagree : r.Agree user s₁ s₂) {text : Option String}
    (h : limit ≤ 0 ∨ r.Settled user (r.listQuery f text)) :
    r.listMemories user s₁ f text limit = r.listMemories user s₂ f text limit := by
  rcases h with hlimit | hsettled
  · simp only [listMemories, rank_of_nonpos hlimit, ite_self]
  · unfold listQuery at hsettled
    unfold listMemories
    rcases he : r.embedQuery text with - | e
    · rw [he] at hsettled
      simp only
      rw [visible_query_congr hagree (by exact hsettled)]
    · rw [he] at hsettled
      have hsettled' : r.Settled user { f with text := none } := hsettled
      have hvector := visible_queryByEmbedding_congr hagree hsettled' e (widened limit)
      have hquery := visible_query_congr hagree hsettled' (widened limit)
      simp only [hvector, hquery]
      rcases hsettled' with hall | hnone
      · rw [queryByEmbedding_congr hagree hall]
      · -- Whatever was found, nothing of it is visible.
        rw [visible_eq_nil hnone fun m hm => (mem_query hm).2,
          visible_eq_nil hnone fun m hm => (mem_queryByEmbedding hm).2.1, rank_nil]
        simp

theorem listMemories_not_congr {text : Option String} (hlimit : 0 < limit)
    (h : ¬ r.Settled user (r.listQuery f text)) :
    r.Leaks user (r.listMemories user · f text limit) := by
  obtain ⟨m, ws, hagree, hseen, hhidden⟩ := exists_crowd h (widened_pos hlimit)
  have hlist : ∀ ms, r.listMemories user (crowded m ms) f text limit =
      r.rank (r.visible user (r.query (crowded m ms) (r.listQuery f text) (widened limit))) text
        limit (r.embedQuery text) := by
    intro ms
    unfold listMemories listQuery
    rcases he : r.embedQuery text with - | e
    · rfl
    · simp only [queryByEmbedding_crowded, isEmpty_nil, if_true]
      rfl
  refine ⟨_, _, hagree, ?_⟩
  beta_reduce
  rw [hlist, hlist, hseen, hhidden, rank_nil, rank_singleton _ _ hlimit]
  exact cons_ne_nil _ _

theorem listRecentSummaries_congr (hagree : r.Agree user s₁ s₂) (h : limit ≤ 0 ∨ r.Settled user f) :
    r.listRecentSummaries user s₁ f limit = r.listRecentSummaries user s₂ f limit := by
  rcases h with hlimit | hsettled
  · rw [listRecentSummaries, listRecentSummaries, Int.toNat_of_nonpos hlimit, take_zero,
      take_zero]
  · rw [listRecentSummaries, listRecentSummaries, visible_query_congr hagree hsettled]

theorem listRecentSummaries_not_congr (hlimit : 0 < limit) (h : ¬ r.Settled user f) :
    r.Leaks user (r.listRecentSummaries user · f limit) := by
  obtain ⟨m, ws, hagree, hseen, hhidden⟩ := exists_crowd h (widened_pos hlimit)
  refine ⟨_, _, hagree, ?_⟩
  have hlength : [aside m "" 0].length ≤ limit.toNat := by
    rw [length_singleton]
    omega
  beta_reduce
  rw [listRecentSummaries, listRecentSummaries, hseen, hhidden, sortDesc_nil, take_nil,
    sortDesc_singleton, take_of_length_le hlength]
  exact cons_ne_nil _ _

/-! ### `retrieve_for_agent` -/

/-- A memory in a workspace, for the users its metadata names. -/
def workspaceMemory (metadata : Dict Json) (workspaceId : String) (hworkspace : workspaceId ≠ "")
    (agentId : Option String) (memoryType : Option Graph.MemoryType)
    (status : Graph.MemoryStatus) (summaryDate : Time) : MemoryRecord where
  id := ""
  scope := .workspace
  workspaceId := some workspaceId
  agentId := agentId
  memoryType := memoryType
  status := status
  summaryDate := some summaryDate
  sourceConversationId := some "-"
  archivedWindowStart := some 0
  archivedWindowEnd := some 0
  metadata := metadata
  createdAt := 0
  updatedAt := 0
  content := "-"
  valid := by
    have hcontent : strip "-" ≠ "" := by decide +kernel
    simp [problem, hcontent, isBlank, hworkspace]

/-- The metadata of a memory the user has created. -/
def createdBy (user : UserDefinition) : Dict Json := [("created_by", .str user.id)]

section WorkspaceMemory

variable {workspaceId : String} {hworkspace : workspaceId ≠ ""} {agentId : Option String}
  {memoryType : Option Graph.MemoryType} {status : Graph.MemoryStatus} {summaryDate : Time}

theorem canRead_createdBy (hrole : "admin" ∉ user.roles) :
    r.canRead (workspaceMemory (createdBy user) workspaceId hworkspace agentId memoryType status
      summaryDate).toMemoryFields (some user) = true := by
  rw [canRead_eq hrole]
  simp [userCanAccess, workspaceMemory, userHasMetadataAccess, createdBy,
    Dict.getJson, Dict.get?_cons, Json.asStr?]

theorem canRead_unowned (hrole : "admin" ∉ user.roles) :
    r.canRead (workspaceMemory [] workspaceId hworkspace agentId memoryType status
      summaryDate).toMemoryFields (some user) = false := by
  rw [canRead_eq hrole]
  simp [userCanAccess, workspaceMemory, userHasMetadataAccess, metadataStrings,
    Dict.getJson, Json.asStr?]

/-- An agent or a workspace is looked for, and the memory has both. -/
theorem exists_admits {workspaceFilter workflowId userId : Option String}
    (h : ¬ (isBlank agentId ∧ isBlank workspaceFilter))
    (hfilter : isBlank workspaceFilter = false → workspaceFilter = some workspaceId)
    (metadata : Dict Json) :
    ∃ f ∈ agentQueries agentId workflowId workspaceFilter userId,
      r.admits f (workspaceMemory metadata workspaceId hworkspace agentId memoryType status
        summaryDate).toMemoryFields := by
  by_cases hagent : isBlank agentId
  · have hset : isBlank workspaceFilter = false := by
      simpa [hagent] using h
    refine ⟨{ scopes := ["workspace"], workspaceId := workspaceFilter }, ?_, ?_⟩
    · simp [agentQueries, hset]
    · simp [admits, workspaceMemory, amongIfSet, equalsIfSet, value,
        hfilter hset, matchesText]
  · refine ⟨{ agentId := agentId }, ?_, ?_⟩
    · simp [agentQueries, hagent]
    · simp [admits, workspaceMemory, amongIfSet, equalsIfSet, matchesText]

end WorkspaceMemory

theorem candidates_alone
    (h : ∃ f ∈ agentQueries agentId workflowId workspaceId userId, r.admits f m.toMemoryFields)
    (hlimit : 0 < limit) (e : Option (List ℚ)) :
    r.collectAgentCandidates (crowded m []) agentId workflowId workspaceId userId limit e =
      [aside m "" 0] := by
  refine firsts_of_all_eq (fun m' hm' => ?_) ?_
  · obtain ⟨f, -, hm'⟩ := List.mem_flatMap.mp hm'
    exact mem_alone (mem_layer hm')
  · obtain ⟨f, hf, hm⟩ := h
    refine List.mem_flatMap.mpr ⟨f, hf, ?_⟩
    rw [layer_crowded, query_alone hm hlimit]
    exact mem_singleton_self _

/-- Behind enough memories that the user may not read and that every query takes alike, no
candidate is visible. -/
theorem canRead_candidates_crowded (hws : ∀ w ∈ ws, r.canRead w.toMemoryFields (some user) = false)
    (hcrowd : ∀ f, r.admits f m.toMemoryFields →
      limit.toNat ≤ ws.countP fun w => r.admits f w.toMemoryFields) :
    ∀ m' ∈ r.collectAgentCandidates (crowded m ws) agentId workflowId workspaceId userId limit e,
      r.canRead m'.toMemoryFields (some user) = false := by
  intro m' hm'
  obtain ⟨f, -, hm'⟩ := List.mem_flatMap.mp (mem_of_mem_firsts hm')
  rw [layer_crowded] at hm'
  exact canRead_of_mem_query_crowded (fun w hw _ => hws w hw) (hcrowd f) hm'

/-- A workspace to put a memory in: the one that is looked for, if there is one. -/
theorem exists_workspace (workspaceId : Option String) :
    ∃ w : String, w ≠ "" ∧ (isBlank workspaceId = false → workspaceId = some w) := by
  cases workspaceId with
  | none => exact ⟨"-", by decide, nofun⟩
  | some w =>
    by_cases hw : w = ""
    · exact ⟨"-", by decide, fun h => by simp [isBlank, hw] at h⟩
    · exact ⟨w, hw, fun _ => rfl⟩

/-- Where an agent or a workspace is looked for: a memory the user may read, and enough others
that it may not read and that every query takes for it. -/
theorem exists_workspaceCrowd (r : MemoryRetrieval) (hrole : "admin" ∉ user.roles)
    {agentId workspaceId : Option String} (h : ¬ (isBlank agentId ∧ isBlank workspaceId))
    (memoryType : Option Graph.MemoryType) (status : Graph.MemoryStatus) (summaryDate : Time)
    (n : ℕ) :
    ∃ (m : MemoryRecord) (ws : List MemoryRecord),
      (m.memoryType = memoryType ∧ m.status = status ∧ m.summaryDate = some summaryDate) ∧
      r.canRead m.toMemoryFields (some user) = true ∧
      (∀ workflowId userId, ∃ f ∈ agentQueries agentId workflowId workspaceId userId,
        r.admits f m.toMemoryFields) ∧
      (∀ w ∈ ws, r.canRead w.toMemoryFields (some user) = false) ∧
      ∀ f, r.admits f m.toMemoryFields → n ≤ ws.countP fun w => r.admits f w.toMemoryFields := by
  obtain ⟨w, hw, hfilter⟩ := exists_workspace workspaceId
  refine ⟨workspaceMemory (createdBy user) w hw agentId memoryType status summaryDate,
    List.replicate n (workspaceMemory [] w hw agentId memoryType status summaryDate),
    ⟨rfl, rfl, rfl⟩, canRead_createdBy hrole, fun _ _ => exists_admits h hfilter _, ?_, ?_⟩
  · intro w' hw'
    rw [eq_of_mem_replicate hw']
    exact canRead_unowned hrole
  · intro f hf
    rw [countP_replicate_admits (by exact hf)]

variable {text workflowId workspaceId userId : Option String}
  {includeTypes excludeStatuses : List String}

theorem retrieveForAgent_congr (hrole : "admin" ∉ user.roles) (hagree : r.Agree user s₁ s₂)
    {agentId : String}
    (h : limit ≤ 0 ∨ isBlank (some agentId) ∧ isBlank workspaceId ∨
      ∀ memoryType status, isSelected includeTypes excludeStatuses memoryType status = false) :
    r.retrieveForAgent user s₁ agentId text workflowId workspaceId userId includeTypes
        excludeStatuses limit =
      r.retrieveForAgent user s₂ agentId text workflowId workspaceId userId includeTypes
        excludeStatuses limit := by
  unfold retrieveForAgent
  rcases h with hlimit | ⟨hagent, hworkspace⟩ | hnone
  · simp only [rank_of_nonpos hlimit]
  · simp only [visible_candidates_congr hagree (settled_agentQueries hrole hagent hworkspace)]
  · simp only [hnone, filter_false]

theorem retrieveForAgent_not_congr (hrole : "admin" ∉ user.roles) {agentId : String}
    (hlimit : 0 < limit) (h : ¬ (isBlank (some agentId) ∧ isBlank workspaceId))
    {memoryType : Option Graph.MemoryType} {status : Graph.MemoryStatus}
    (hselected : isSelected includeTypes excludeStatuses memoryType status = true) :
    r.Leaks user (r.retrieveForAgent user · agentId text workflowId workspaceId userId includeTypes
      excludeStatuses limit) := by
  obtain ⟨m, ws, ⟨htype, hstatus, -⟩, hread, hadmits, hws, hcrowd⟩ :=
    r.exists_workspaceCrowd hrole h memoryType status 0 limit.toNat
  have hkept : [aside m "" 0].filter (fun m => isSelected includeTypes excludeStatuses m.memoryType
      m.status) = [aside m "" 0] := by
    rw [filter_cons_of_pos, filter_nil]
    rw [← htype, ← hstatus] at hselected
    exact hselected
  refine ⟨_, _, agree_crowded m [] hws, ?_⟩
  unfold retrieveForAgent
  simp only [nil_append]
  rw [candidates_alone (hadmits workflowId userId) hlimit, visible_aside hread, hkept,
    rank_singleton _ _ hlimit, visible_eq_nil_of (canRead_candidates_crowded hws hcrowd),
    filter_nil, rank_nil]
  exact cons_ne_nil _ _

/-! ### `retrieve_for_conversation` -/

/-- A memory of a conversation names one. -/
theorem conversationId_of_valid (m : MemoryRecord) (hscope : m.scope = .conversation) :
    isBlank m.conversationId = false := by
  by_contra hblank
  have hvalid := m.valid
  have hblank' : isBlank m.conversationId = true := by simpa using hblank
  unfold problem at hvalid
  simp only [hscope, hblank', reduceCtorEq, false_and, if_false, and_self, if_true] at hvalid
  split_ifs at hvalid

variable {conversation : Conversation}

/-- The owner of a conversation may read its memories. -/
theorem allReadable_conversation (hfound : r.conversation conversation.id = some conversation)
    (howner : conversation.createdByUserId = some user.id) :
    r.AllReadable user
      { scopes := ["conversation"], conversationId := some conversation.id } := by
  intro m hm
  have hscope := scope_of_admits .conversation hm rfl
  have hid : m.conversationId = some conversation.id := eq_of_equalsIfSet (of_admits hm).2.2.1 rfl
  have hset : isBlank (some conversation.id) = false := by
    rw [← hid]
    exact conversationId_of_valid m hscope
  simp [canRead, userCanAccess, hscope,
    userCanAccessConversation, hset, hid, hfound, howner]

theorem allReadable_user : r.AllReadable user { scopes := ["user"], userId := some user.id } := by
  intro m hm
  have hscope := scope_of_admits .user hm rfl
  have hcreator := eq_of_equalsIfSet (of_admits hm).2.1 rfl
  simp [canRead, userCanAccess, hscope, hcreator]

/-- The calls of `retrieve_for_conversation` that find only what the user may read: no
workspace and no agent is looked for, and no other user. -/
structure OwnConversation (r : MemoryRetrieval) (user : UserDefinition)
    (conversation : Conversation) (agentId : Option String) : Prop where
  workspace : isBlank conversation.workspaceId
  agent : isBlank agentId
  creator : ∀ v, r.memoryUserId conversation = some v → v ≠ "" → v = user.id

theorem allReadable_conversationQueries {agentId : Option String}
    (hfound : r.conversation conversation.id = some conversation)
    (howner : conversation.createdByUserId = some user.id)
    (h : r.OwnConversation user conversation agentId) :
    ∀ f ∈ r.conversationQueries conversation agentId, r.AllReadable user f := by
  intro f hf
  simp only [conversationQueries, h.workspace, h.agent, if_true, append_nil,
    mem_append, mem_singleton] at hf
  rcases hf with (rfl | hf) | rfl
  · exact allReadable_global rfl
  · by_cases hblank : isBlank (r.memoryUserId conversation)
    · simp [hblank] at hf
    · simp only [hblank, Bool.false_eq_true, if_false, mem_singleton] at hf
      subst hf
      rcases hv : r.memoryUserId conversation with - | v
      · simp [hv, isBlank] at hblank
      · have hne : v ≠ "" := by
          rintro rfl
          simp [hv, isBlank] at hblank
        rw [h.creator v hv hne]
        exact allReadable_user
  · exact allReadable_conversation hfound howner

variable {text agentId : Option String}

theorem retrieveForConversation_congr (hagree : r.Agree user s₁ s₂)
    (hfound : r.conversation conversation.id = some conversation)
    (howner : conversation.createdByUserId = some user.id)
    (h : limit ≤ 0 ∨ r.OwnConversation user conversation agentId) :
    r.retrieveForConversation s₁ conversation text agentId limit =
      r.retrieveForConversation s₂ conversation text agentId limit := by
  unfold retrieveForConversation
  rcases h with hlimit | hown
  · simp only [rank_of_nonpos hlimit]
  · have hqueries : (r.conversationQueries conversation agentId).flatMap
          (fun f => r.query s₁ f limit) =
        (r.conversationQueries conversation agentId).flatMap fun f => r.query s₂ f limit :=
      flatMap_congr fun f hf => query_congr hagree
        (allReadable_conversationQueries hfound howner hown f hf) limit
    have hnear := queryByEmbedding_congr hagree
      (f := { scopes := ["conversation"], conversationId := some conversation.id })
      (allReadable_conversation hfound howner)
    rw [hqueries]
    simp only [hnear]

theorem query_empty (f : MemoryQuery) (limit : ℤ) : r.query Catalog.empty f limit = [] := take_nil

theorem queryByEmbedding_empty (e : List ℚ) (f : MemoryQuery) (limit : ℤ) :
    r.queryByEmbedding Catalog.empty e f limit = [] := by
  refine List.eq_nil_iff_forall_not_mem.mpr fun m hm => ?_
  exact absurd (mem_queryByEmbedding hm).1 not_mem_nil

theorem retrieveForConversation_empty (conversation : Conversation) (text agentId : Option String)
    (limit : ℤ) : r.retrieveForConversation Catalog.empty conversation text agentId limit = [] := by
  have hqueries : (r.conversationQueries conversation agentId).flatMap
      (fun f => r.query Catalog.empty f limit) = [] :=
    List.flatMap_eq_nil_iff.mpr fun f _ => query_empty f limit
  unfold retrieveForConversation
  simp only [hqueries, queryByEmbedding_empty]
  cases r.embedQuery text with
  | none => exact rank_nil _ _ _
  | some e => exact rank_nil _ _ _

/-- One memory that a query finds, whoever may read it. -/
theorem retrieveForConversation_alone (hlimit : 0 < limit)
    (h : ∃ f ∈ r.conversationQueries conversation agentId, r.admits f w.toMemoryFields)
    (htype : w.memoryType = none) :
    r.retrieveForConversation (crowded w []) conversation text agentId limit = [aside w "" 0] := by
  have hdedupe : dedupeMemories ((r.conversationQueries conversation agentId).flatMap
      fun f => r.query (crowded w []) f limit) = [aside w "" 0] := by
    refine firsts_of_all_eq (fun m hm => ?_) ?_
    · obtain ⟨f, -, hm⟩ := List.mem_flatMap.mp hm
      exact mem_alone (mem_query hm).1
    · obtain ⟨f, hf, hadmits⟩ := h
      refine List.mem_flatMap.mpr ⟨f, hf, ?_⟩
      rw [query_alone hadmits hlimit]
      exact mem_singleton_self _
  have hpack : [aside w "" 0].filter isNoContextPack = [aside w "" 0] := by
    rw [filter_cons_of_pos, filter_nil]
    have htype' : (aside w "" 0).memoryType = none := htype
    simp [isNoContextPack, htype']
  have honce : dedupeMemories [aside w "" 0] = [aside w "" 0] := rfl
  unfold retrieveForConversation
  simp only [hdedupe, hpack, queryByEmbedding_crowded, append_nil, honce]
  cases r.embedQuery text with
  | none => exact rank_singleton _ _ hlimit _
  | some e => exact rank_singleton _ _ hlimit _

/-- The empty store and a store of one memory that the user may not read. -/
theorem agree_empty (h : r.canRead w.toMemoryFields (some user) = false) :
    r.Agree user Catalog.empty (crowded w []) := by
  intro m hread
  constructor
  · exact fun hm => absurd hm not_mem_nil
  · intro hm
    rw [mem_alone hm, canRead_aside, h] at hread
    cases hread

/-- A memory of a user. -/
def userMemory (creator : String) (hcreator : creator ≠ "") : MemoryRecord where
  id := ""
  scope := .user
  createdByUserId := some creator
  createdAt := 0
  updatedAt := 0
  content := "-"
  valid := by
    have hcontent : strip "-" ≠ "" := by decide +kernel
    simp [problem, hcontent, isBlank, hcreator]

theorem retrieveForConversation_not_congr (hrole : "admin" ∉ user.roles) (hlimit : 0 < limit)
    (h : ¬ r.OwnConversation user conversation agentId) :
    r.Leaks user (r.retrieveForConversation · conversation text agentId limit) := by
  -- One memory that the user may not read and that a query finds is enough.
  have hone : ∀ w : MemoryRecord, w.memoryType = none →
      r.canRead w.toMemoryFields (some user) = false →
      (∃ f ∈ r.conversationQueries conversation agentId, r.admits f w.toMemoryFields) →
      r.Leaks user (r.retrieveForConversation · conversation text agentId limit) := by
    intro w htype hhidden hfound
    refine ⟨_, _, agree_empty hhidden, ?_⟩
    beta_reduce
    rw [retrieveForConversation_empty, retrieveForConversation_alone hlimit hfound htype]
    exact (cons_ne_nil _ _).symm
  by_cases hworkspace : isBlank conversation.workspaceId
  · by_cases hagent : isBlank agentId
    · have hcreator : ∃ v, r.memoryUserId conversation = some v ∧ v ≠ "" ∧ v ≠ user.id := by
        by_contra hno
        refine h ⟨hworkspace, hagent, fun v hv hne => ?_⟩
        by_contra hother
        exact hno ⟨v, hv, hne, hother⟩
      obtain ⟨v, hv, hne, hother⟩ := hcreator
      refine hone (userMemory v hne) rfl ?_ ⟨{ scopes := ["user"], userId := some v }, ?_, ?_⟩
      · rw [canRead_eq hrole]
        simp [userMemory, userCanAccess, hother]
      · simp [conversationQueries, hv, isBlank, hne]
      · simp [admits, userMemory, amongIfSet, equalsIfSet, value, matchesText]
    · refine hone (workspaceMemory [] "-" (by decide) agentId none .active 0) rfl
        (canRead_unowned hrole) ⟨{ agentId := agentId }, ?_, ?_⟩
      · simp [conversationQueries, hagent]
      · simp [admits, workspaceMemory, amongIfSet, equalsIfSet, matchesText]
  · obtain ⟨w, hw, hfilter⟩ := exists_workspace conversation.workspaceId
    have hset : isBlank conversation.workspaceId = false := by simpa using hworkspace
    refine hone (workspaceMemory [] w hw agentId none .active 0) rfl (canRead_unowned hrole)
      ⟨{ scopes := ["workspace"], workspaceId := conversation.workspaceId }, ?_, ?_⟩
    · simp [conversationQueries, hset]
    · simp [admits, workspaceMemory, amongIfSet, equalsIfSet, value,
        hfilter hset, matchesText]

end MemoryRetrieval

end OpenAgency
