/-
MemoryOwnership.lean

What a user without the admin role can do to memories by any sequence of calls.

Every write is checked against the record it replaces and against the record it leaves,
so a memory the user may not access stays as it is, and a memory that appears is one the
user may access (`memoryOwnership_kept`).  Two things are not checked.  The owners of a
workspace are those its own memories name, so a user may add one to any workspace
(`memoryOwnership_workspace`); and the record that a patch leaves is stored under the
identifier the patch gives it.
-/
import OpenAgency.MemoryService
import OpenAgency.Lib.History

namespace OpenAgency

open Relational Interaction Catalog

/-! ### Which fields access depends on -/

namespace Dict

theorem getJson_filter_ne {d : Dict Json} {k k' : String} (h : k' ≠ k) :
    getJson (d.filter (·.1 ≠ k)) k' = d.getJson k' := by
  have hlookup : get? (d.filter (·.1 ≠ k)) k' = d.get? k' := by
    induction d with
    | nil => rfl
    | cons p d ih =>
      obtain ⟨k₁, v₁⟩ := p
      by_cases hk : k₁ = k
      · have hk' : k' ≠ k₁ := hk ▸ h
        rw [List.filter_cons_of_neg (by simp [hk]), ih, get?_cons, if_neg hk']
      · rw [List.filter_cons_of_pos (by simp [hk]), get?_cons, get?_cons, ih]
  rw [getJson, hlookup, getJson]

end Dict

namespace MemoryContext

variable {ctx : MemoryContext} {user : UserDefinition}

/-- The metadata that access depends on. -/
def SameOwners (metadata metadata' : Dict Json) : Prop :=
  ∀ key ∈ ["owner_ids", "trusted_user_ids", "created_by"],
    metadata'.getJson key = metadata.getJson key

theorem userHasMetadataAccess_congr {metadata metadata' : Dict Json}
    (h : SameOwners metadata metadata') :
    userHasMetadataAccess metadata' user = userHasMetadataAccess metadata user := by
  have hstrings : ∀ key ∈ ["owner_ids", "trusted_user_ids", "created_by"],
      metadataStrings metadata' key = metadataStrings metadata key := by
    intro key hkey
    rw [metadataStrings, h key hkey, metadataStrings]
  rw [userHasMetadataAccess, hstrings "owner_ids" (by simp), hstrings "trusted_user_ids" (by simp),
    h "created_by" (by simp), userHasMetadataAccess]

theorem userCanAccess_withMetadata {m : MemoryRecord} {metadata : Dict Json}
    (h : SameOwners m.metadata metadata) :
    ctx.userCanAccess (withMetadata m metadata).toMemoryFields user =
      ctx.userCanAccess m.toMemoryFields user := by
  cases hscope : m.scope with
  | workspace =>
    simp only [userCanAccess, withMetadata, hscope]
    exact userHasMetadataAccess_congr h
  | user => simp only [userCanAccess, withMetadata, hscope]
  | conversation => simp only [userCanAccess, withMetadata, hscope]
  | workflow => simp only [userCanAccess, withMetadata, hscope]
  | global => simp only [userCanAccess, withMetadata, hscope]

theorem userCanAccess_withExclusions (m : MemoryRecord) (exclusions : List (Dict Json)) :
    ctx.userCanAccess
        (withMetadata m (withExclusions ctx.lib m.metadata exclusions)).toMemoryFields user =
      ctx.userCanAccess m.toMemoryFields user := by
  refine userCanAccess_withMetadata fun key hkey => Dict.getJson_set_ne ?_
  rintro rfl
  simp at hkey

theorem userCanAccess_withEmbedding (m : MemoryRecord) (profile : EmbeddingProfile)
    (embedding : List ℚ) (now : Time) :
    ctx.userCanAccess (withEmbedding m profile embedding now).toMemoryFields user =
      ctx.userCanAccess m.toMemoryFields user := by
  have howners : SameOwners m.metadata (m.metadata.filter (·.1 ≠ "embedding_error")) := by
    intro key hkey
    refine Dict.getJson_filter_ne ?_
    rintro rfl
    simp at hkey
  rw [← userCanAccess_withMetadata howners]
  rfl

theorem userCanAccess_embedded {force : Bool} {now : Time} {m m' : MemoryRecord}
    (h : ctx.embedMemoryForWrite force now m = .ok m') :
    ctx.userCanAccess m'.toMemoryFields user = ctx.userCanAccess m.toMemoryFields user := by
  rcases of_embedMemoryForWrite h with rfl | ⟨profile, embedding, rfl⟩ | ⟨e, rfl⟩
  · rfl
  · exact userCanAccess_withEmbedding m profile embedding now
  · refine userCanAccess_withMetadata fun key hkey => Dict.getJson_set_ne ?_
    rintro rfl
    simp at hkey

/-- The check lets a user without the admin role write what the user may access. -/
theorem userCanAccess_of_assertCanWrite {m : MemoryFields} (hrole : "admin" ∉ user.roles)
    (h : ctx.assertCanWrite m (some user) false = .ok ()) : ctx.userCanAccess m user := by
  by_contra hno
  simp [assertCanWrite, hrole, hno] at h

end MemoryContext

/-! ### Requests of one user -/

/-- A call that the user makes for itself. -/
structure MemoryRequest.By (user : UserDefinition) (req : MemoryRequest) : Prop where
  currentUser : req.currentUser = some user
  untrusted : req.trustedActor = false
  call : req.call.isDailySummary = false

/-- A patch gives the record it is merged into this identifier. -/
def MemoryCall.Names (id : String) : MemoryCall → Prop
  | .updateMemory _ patch _ => ("id", .str id) ∈ patch
  | _ => False

namespace MemoryContext

variable {ctx : MemoryContext} {user : UserDefinition} {req : MemoryRequest} {s : MemoryStore}

/-- A created record is one its creator may access. -/
theorem userCanAccess_prepared (hrole : "admin" ∉ user.roles) (hby : req.By user)
    {m : MemoryRecord} (h : ctx.prepared req = some (.ok m)) :
    ctx.userCanAccess m.toMemoryFields user := by
  unfold prepared at h
  split at h
  · obtain ⟨-, normalized, m₀, -, -, hwrite, hembed⟩ := of_preparedCreate (Option.some.inj h)
    rw [userCanAccess_embedded hembed]
    rw [hby.currentUser, hby.untrusted] at hwrite
    exact userCanAccess_of_assertCanWrite hrole hwrite
  next d hcall =>
    have hcall' := hby.call
    rw [hcall] at hcall'
    cases hcall'
  · cases h

/-- A record that an update leaves is one the user may access, as is the one it replaces;
it keeps its identifier unless the patch gives another. -/
theorem access_preparedUpdate (hrole : "admin" ∉ user.roles) (hby : req.By user)
    {current m : MemoryRecord} {patch : Dict Json} {confirmed : Bool}
    (h : ctx.preparedUpdate req current patch confirmed = .ok m) :
    ctx.userCanAccess current.toMemoryFields user ∧ ctx.userCanAccess m.toMemoryFields user ∧
      (m.id = current.id ∨ ("id", .str m.id) ∈ patch) := by
  obtain ⟨hcurrent, -, m₀, force, hm, hwrite, hembed⟩ := of_preparedUpdate h
  rw [hby.currentUser, hby.untrusted] at hcurrent hwrite
  refine ⟨userCanAccess_of_assertCanWrite hrole hcurrent, ?_, ?_⟩
  · rw [userCanAccess_embedded hembed]
    exact userCanAccess_of_assertCanWrite hrole hwrite
  · have hid := (MemoryRecord.readFrom_of_modelValidate hm).id
    rw [id_embedded hembed]
    have hget : (withSensitivity ctx.lib (Dict.union current.modelDump patch)).get? "id"
        = (Dict.union current.modelDump patch).get? "id" := by
      rw [withSensitivity, Dict.get?_set_ne (by decide), Dict.get?_set_ne (by decide)]
    rw [hget] at hid
    rcases Dict.get?_union current.modelDump patch "id" with hkept | ⟨v, hv, hset⟩
    · rw [hkept] at hid
      exact .inl (Option.some.inj hid).symm
    · rw [hset] at hid
      cases v <;> simp_all [Json.asStr?]

/-- **Everything a call of one user does to a store**: nothing, or a write of a record the
user may access over none or over one the user may access, or the removal of such a one. -/
theorem handle_by (hrole : "admin" ∉ user.roles) (hby : req.By user) (s : MemoryStore) :
    (ctx.handle req s).2 = s ∨
      (∃ m : MemoryRecord, ctx.userCanAccess m.toMemoryFields user ∧
        (∀ r ∈ s.items, r.id = m.id → ctx.userCanAccess r.toMemoryFields user ∨
          req.call.Names m.id) ∧ (ctx.handle req s).2 = s.put m) ∨
      ∃ current ∈ s.items, ctx.userCanAccess current.toMemoryFields user ∧
        (ctx.handle req s).2 = s.erase current.id := by
  generalize hres : ctx.handle req s = res
  have heffect := ctx.effect_handle req s
  rw [hres] at heffect
  cases heffect with
  | none a _ => exact .inl rfl
  | @created m hm hfree =>
    have haccess := userCanAccess_prepared hrole hby hm
    refine .inr (.inl ⟨m.stamp req.now req.now, haccess, ?_, rfl⟩)
    intro r hr hid
    have hget := get_of_mem hr
    rw [hid] at hget
    exact absurd (hfree.symm.trans hget) nofun
  | @updated memoryId patch confirmed current m hcall hcurrent hm =>
    obtain ⟨hold, hnew, hid⟩ := access_preparedUpdate hrole hby hm
    refine .inr (.inl ⟨(s.save req.now m).1, hnew, ?_, rfl⟩)
    intro r hr hrid
    rcases hid with hid | hid
    · have hsame : r = current := eq_of_key hr (mem_of_get hcurrent) (hrid.trans hid)
      exact .inl (hsame ▸ hold)
    · refine .inr ?_
      rw [hcall]
      exact hid
  | deleted hcurrent hwrite =>
    rw [hby.currentUser, hby.untrusted] at hwrite
    obtain ⟨hmem, rfl⟩ := get_eq_some.mp hcurrent
    exact .inr (.inr ⟨_, hmem, userCanAccess_of_assertCanWrite hrole hwrite, rfl⟩)
  | @excluded memoryId current exclusions a hcurrent hwrite _ =>
    rw [hby.currentUser] at hwrite
    have haccess := userCanAccess_of_assertCanWrite hrole hwrite
    refine .inr (.inl ⟨(s.save req.now _).1, ?_, ?_, rfl⟩)
    · exact (userCanAccess_withExclusions current exclusions).trans haccess
    · intro r hr hrid
      have hsame : r = current := eq_of_key hr (mem_of_get hcurrent) hrid
      exact .inl (hsame ▸ haccess)

end MemoryContext

/-! ### Every sequence of calls -/

/-- The calls that lead from one store to another, all of them made by one user. -/
abbrev UserCalls (ctx : MemoryContext) (user : UserDefinition) (s : MemoryStore) :
    List (MemoryRequest × Except MemoryError MemoryAnswer) → MemoryStore → Prop :=
  Serves ctx.handle (fun _ req => req.By user) s

/-- **The memories a user may not access stay as they are, and those that appear are ones
the user may access.**  Only a record whose identifier a patch gives away is excepted. -/
theorem memoryOwnership_kept {ctx : MemoryContext} {user : UserDefinition}
    (hrole : "admin" ∉ user.roles) {s t : MemoryStore}
    {h : List (MemoryRequest × Except MemoryError MemoryAnswer)}
    (hcalls : UserCalls ctx user s h t) :
    (∀ m ∈ s.items, ctx.userCanAccess m.toMemoryFields user = false →
      (∀ entry ∈ h, ¬ entry.1.call.Names m.id) → m ∈ t.items) ∧
    (∀ m ∈ t.items, m ∈ s.items ∨ ctx.userCanAccess m.toMemoryFields user) ∧
    (∀ m ∈ t.items, m.scope = .user → m.createdByUserId ≠ some user.id → m ∈ s.items) ∧
    ∀ m ∈ t.items, m.scope = .workspace → m ∈ s.items ∨ userHasMetadataAccess m.metadata user := by
  have hrun : (∀ m ∈ s.items, ctx.userCanAccess m.toMemoryFields user = false →
        (∀ entry ∈ h, ¬ entry.1.call.Names m.id) → m ∈ t.items) ∧
      ∀ m ∈ t.items, m ∈ s.items ∨ ctx.userCanAccess m.toMemoryFields user := by
    refine Serves.invariant (I := fun h t => (∀ m ∈ s.items,
        ctx.userCanAccess m.toMemoryFields user = false →
          (∀ entry ∈ h, ¬ entry.1.call.Names m.id) → m ∈ t.items) ∧
      ∀ m ∈ t.items, m ∈ s.items ∨ ctx.userCanAccess m.toMemoryFields user)
      ⟨fun m hm _ _ => hm, fun m hm => .inl hm⟩ ?_ hcalls
    intro h t req hI hby
    obtain ⟨hkept, hnew⟩ := hI
    have hstays : ∀ m ∈ s.items, ctx.userCanAccess m.toMemoryFields user = false →
        (∀ entry ∈ h ++ [(req, (ctx.handle req t).1)], ¬ entry.1.call.Names m.id) →
          m ∈ t.items ∧ ¬ req.call.Names m.id := by
      intro m hm hno hnames
      refine ⟨hkept m hm hno fun entry hentry => ?_, ?_⟩
      · exact hnames entry (List.mem_append_left _ hentry)
      · exact hnames _ (List.mem_append_right _ (List.mem_singleton_self _))
    rcases ctx.handle_by hrole hby t with heq | ⟨m', haccess, hover, heq⟩ | ⟨m', hm', haccess, heq⟩
    · rw [heq]
      exact ⟨fun m hm hno hnames => (hstays m hm hno hnames).1, hnew⟩
    · rw [heq]
      constructor
      · intro m hm hno hnames
        obtain ⟨hmem, hname⟩ := hstays m hm hno hnames
        refine mem_put.mpr (.inr ⟨hmem, fun hid => ?_⟩)
        rcases hover m hmem hid with hyes | hyes
        · exact absurd (hno.symm.trans hyes) nofun
        · exact hname (hid ▸ hyes)
      · intro m hm
        rcases mem_put.mp hm with rfl | ⟨hmem, -⟩
        · exact .inr haccess
        · exact hnew m hmem
    · rw [heq]
      constructor
      · intro m hm hno hnames
        obtain ⟨hmem, -⟩ := hstays m hm hno hnames
        refine mem_erase.mpr ⟨hmem, fun hid => ?_⟩
        rw [eq_of_key hmem hm' hid] at hno
        exact absurd (hno.symm.trans haccess) nofun
      · intro m hm
        exact hnew m (mem_erase.mp hm).1
  refine ⟨hrun.1, hrun.2, ?_, ?_⟩
  · intro m hm hscope hcreator
    refine (hrun.2 m hm).resolve_right fun haccess => hcreator ?_
    simpa [MemoryContext.userCanAccess, hscope] using haccess
  · intro m hm hscope
    refine (hrun.2 m hm).imp_right fun haccess => ?_
    simpa [MemoryContext.userCanAccess, hscope] using haccess

/-! ### A workspace of another user -/

/-- A memory in the workspace of `alice`. -/
def alicesMemory : MemoryRecord where
  id := "plans"
  scope := .workspace
  workspaceId := some "launch"
  metadata := [("owner_ids", .strs ["alice"])]
  createdAt := 0
  updatedAt := 0
  content := "Use the enterprise template."
  valid := by decide +kernel

def alicesStore : MemoryStore := Catalog.empty.put alicesMemory

def bob : UserDefinition where
  id := "bob"
  email := "bob@example.com"

/-- `bob` adds a memory to that workspace. -/
def bobsRequest : MemoryRequest where
  call := .createMemory
    [("scope", .str "workspace"), ("workspace_id", .str "launch"),
      ("content", .str "Use the other template.")] false
  currentUser := some bob
  fresh := "note"
  now := 1

theorem bobsRequest_by : bobsRequest.By bob := ⟨rfl, rfl, rfl⟩

theorem mem_alicesStore {m : MemoryRecord} : m ∈ alicesStore.items ↔ m = alicesMemory := by
  rw [alicesStore, mem_put]
  constructor
  · rintro (rfl | ⟨hmem, -⟩)
    · rfl
    · exact absurd hmem List.not_mem_nil
  · exact .inl

theorem memoryOwnership_kept_workspace :
    alicesMemory ∈ (bareContext.handle bobsRequest alicesStore).2.items := by
  have hrole : "admin" ∉ bob.roles := by decide
  refine (memoryOwnership_kept hrole (.call .start bobsRequest_by)).1 alicesMemory
    (mem_alicesStore.mpr rfl) (by decide +kernel) ?_
  rintro entry hentry
  rw [List.mem_singleton.mp hentry]
  exact id

/-- A memory of the workspace names the user as one of its owners. -/
def HasWorkspaceAccess (s : MemoryStore) (user : UserDefinition) (workspaceId : Option String) :
    Prop :=
  ∃ m ∈ s.items, m.scope = .workspace ∧ m.workspaceId = workspaceId ∧
    userHasMetadataAccess m.metadata user

/-- A user may add a memory to a workspace that it had no access to. -/
theorem memoryOwnership_workspace :
    ¬ ∀ (ctx : MemoryContext) (user : UserDefinition) (s t : MemoryStore)
        (h : List (MemoryRequest × Except MemoryError MemoryAnswer)),
      "admin" ∉ user.roles → UserCalls ctx user s h t →
        ∀ m ∈ t.items, m ∉ s.items → m.scope = .workspace →
          HasWorkspaceAccess s user m.workspaceId := by
  intro hclaim
  have hadded : ("note", Graph.MemoryScope.workspace) ∈
      (bareContext.handle bobsRequest alicesStore).2.items.map fun m => (m.id, m.scope) := by
    decide +kernel
  obtain ⟨m, hm, hshape⟩ := List.mem_map.mp hadded
  obtain ⟨hid, hscope⟩ := Prod.mk.inj hshape
  have hnew : m ∉ alicesStore.items := by
    intro hmem
    rw [mem_alicesStore.mp hmem] at hid
    revert hid
    decide
  obtain ⟨r, hr, -, -, haccess⟩ := hclaim bareContext bob alicesStore _ _ (by decide)
    (.call .start bobsRequest_by) m hm hnew hscope
  rw [mem_alicesStore.mp hr] at haccess
  revert haccess
  decide +kernel

end OpenAgency
