/-
MemorySensitivity.lean

Which memories are flagged as sensitive, and what the graph projection shows of those.

A flag is set only by a write that was confirmed.  A marker in the content sets it where
the caller says nothing; a caller who says "not sensitive" is believed, and the summary
job says so itself.  An update says what the stored flag says.

The projection of a sensitive memory depends on its metadata under the allowed keys and on
its entity hints, and on nothing else of its content, summary and metadata
(`sensitiveMemory_guarded`).
-/
import OpenAgency.MemoryService
import OpenAgency.Lib.History

namespace OpenAgency

open Relational Interaction Dict Catalog MemoryCall MemoryRecord

/-! ### What a write does to the flag -/

/-- A content with a marker does not come with a flag that says it is not sensitive. -/
def FlagsMarkers (lib : MemoryLibrary) (d : Dict Json) : Prop :=
  hasSensitiveMarker lib (contentOf lib d) → (d.getJson "sensitive").boolField? ≠ some false

/-- The flag and the content of a record agree with what it was read from. -/
structure Checked (lib : MemoryLibrary) (d : Dict Json) (m : MemoryFields) : Prop where
  content : m.content = contentOf lib d
  isSensitive : (sensitivityOf lib d).boolField? = some m.isSensitive

namespace Checked

variable {lib : MemoryLibrary} {d : Dict Json} {m : MemoryFields}

/-- A flag that is set is one that asked for a confirmation. -/
theorem truthy (h : Checked lib d m) (hflag : m.isSensitive = true) :
    (sensitivityOf lib d).truthy :=
  Json.truthy_of_boolField? (by rw [h.isSensitive, hflag])

theorem flagged (h : Checked lib d m) (hmarkers : FlagsMarkers lib d)
    (hmarker : hasSensitiveMarker lib m.content) : m.isSensitive = true := by
  rw [h.content] at hmarker
  have hflag := h.isSensitive
  unfold sensitivityOf inferSensitive at hflag
  split at hflag
  · -- The caller said nothing, and the marker speaks.
    rw [hmarker] at hflag
    exact (Option.some.inj hflag).symm
  · cases hsensitive : m.isSensitive with
    | true => rfl
    | false =>
      rw [hsensitive] at hflag
      exact absurd hflag (hmarkers hmarker)

/-- A record read from a payload that keeps what was checked is checked. -/
theorem of_modelValidate {fresh : String} {now : Time} {d' : Dict Json} {m : MemoryRecord}
    (hkept : ∀ key ∈ ["content", "sensitive"], d'.get? key = (withSensitivity lib d).get? key)
    (h : modelValidate lib fresh now d' = .ok m) : Checked lib d m.toMemoryFields := by
  have hread := readFrom_of_modelValidate h
  have hcontent := hread.content
  have hflag := hread.isSensitive
  rw [hkept "content" (by simp), withSensitivity, get?_set_ne (by decide),
    get?_set_self] at hcontent
  rw [hkept "sensitive" (by simp), withSensitivity, get?_set_self] at hflag
  exact ⟨(Option.some.inj hcontent).symm, hflag⟩

end Checked

namespace MemoryContext

variable {ctx : MemoryContext} {req : MemoryRequest}

theorem flag_embedded {force : Bool} {now : Time} {m m' : MemoryRecord}
    (h : ctx.embedMemoryForWrite force now m = .ok m') :
    m'.content = m.content ∧ m'.isSensitive = m.isSensitive := by
  rcases of_embedMemoryForWrite h with rfl | ⟨profile, embedding, rfl⟩ | ⟨e, rfl⟩ <;>
    exact ⟨rfl, rfl⟩

theorem checked_embedded {d : Dict Json} {force : Bool} {now : Time} {m m' : MemoryRecord}
    (hchecked : Checked ctx.lib d m.toMemoryFields)
    (h : ctx.embedMemoryForWrite force now m = .ok m') : Checked ctx.lib d m'.toMemoryFields := by
  obtain ⟨hcontent, hflag⟩ := flag_embedded h
  exact ⟨hcontent.trans hchecked.content, by rw [hflag, hchecked.isSensitive]⟩

/-- What `create_memory` stores. -/
theorem checked_preparedCreate {payload : Dict Json} {confirmed : Bool} {m : MemoryRecord}
    (h : ctx.preparedCreate req payload confirmed = .ok m) :
    Checked ctx.lib payload m.toMemoryFields ∧ (m.isSensitive → confirmed) := by
  obtain ⟨hconfirmed, normalized, m₀, hnormalized, hm₀, -, hembed⟩ := of_preparedCreate h
  have hchecked : Checked ctx.lib payload m₀.toMemoryFields :=
    .of_modelValidate (fun key hkey => get?_normalizeMemoryOwnerFields hnormalized
      (by rintro rfl; simp at hkey) (by rintro rfl; simp at hkey)) hm₀
  have hchecked' := checked_embedded hchecked hembed
  exact ⟨hchecked', fun hsensitive => hconfirmed (hchecked'.truthy hsensitive)⟩

/-- What `update_memory` stores. -/
theorem checked_preparedUpdate {current m : MemoryRecord} {patch : Dict Json} {confirmed : Bool}
    (h : ctx.preparedUpdate req current patch confirmed = .ok m) :
    Checked ctx.lib (union current.modelDump patch) m.toMemoryFields ∧
      (m.isSensitive → confirmed) := by
  obtain ⟨-, hconfirmed, m₀, force, hm₀, -, hembed⟩ := of_preparedUpdate h
  have hchecked : Checked ctx.lib (union current.modelDump patch) m₀.toMemoryFields :=
    .of_modelValidate (fun _ _ => rfl) hm₀
  have hchecked' := checked_embedded hchecked hembed
  exact ⟨hchecked', fun hsensitive => hconfirmed (hchecked'.truthy hsensitive)⟩

/-- What `create_daily_summary_memory` stores is never flagged. -/
theorem isSensitive_preparedDailySummary {d : DailySummary} {m : MemoryRecord}
    (h : ctx.preparedDailySummary req d = .ok m) : m.isSensitive = false := by
  unfold preparedDailySummary at h
  rcases hv : validate _ with e | m₀
  · rw [hv] at h
    cases h
  · rw [hv] at h
    rw [(flag_embedded h).2]
    exact congrArg (fun f => f.isSensitive) (toMemoryFields_of_validate hv)

end MemoryContext

/-! ### Every sequence of writes -/

abbrev MemoryHistory : Type := List (MemoryRequest × Except MemoryError MemoryAnswer)

/-- A call of this kind has stored the record under an identifier. -/
def MemoryHistory.Wrote (kind : MemoryCall → Bool) (h : MemoryHistory) (id : String) : Prop :=
  ∃ entry ∈ h, (storedRecord? entry.2).map (fun m => m.id) = some id ∧ kind entry.1.call

theorem MemoryHistory.Wrote.append {kind : MemoryCall → Bool} {h : MemoryHistory} {id : String}
    (hw : h.Wrote kind id) (h' : MemoryHistory) : MemoryHistory.Wrote kind (h ++ h') id := by
  obtain ⟨entry, hentry, hstored⟩ := hw
  exact ⟨entry, List.mem_append_left _ hentry, hstored⟩

/-- A flag was confirmed; and where a marker stands in the content, the memory is flagged,
or it has been written by the summary job. -/
structure Guarded (lib : MemoryLibrary) (h : MemoryHistory) (m : MemoryRecord) : Prop where
  confirmed : m.isSensitive → h.Wrote isConfirmed m.id
  flagged : hasSensitiveMarker lib m.content → m.isSensitive ∨ h.Wrote isDailySummary m.id

namespace MemoryContext

variable (ctx : MemoryContext)

/-- A creation or an update whose content has a marker does not come with a flag, its own or
the stored one, that says the content is not sensitive. -/
def WritesFlagged (s : MemoryStore) (req : MemoryRequest) : Prop :=
  match req.call with
  | .createMemory payload _ => FlagsMarkers ctx.lib payload
  | .updateMemory memoryId patch _ => ∀ current, s.get memoryId = some current →
      FlagsMarkers ctx.lib (union current.modelDump patch)
  | _ => True

variable {ctx}

/-- The record that a creation stores. -/
theorem guarded_created {req : MemoryRequest} {s : MemoryStore} {m : MemoryRecord}
    (hcond : ctx.WritesFlagged s req) (h : ctx.prepared req = some (.ok m)) :
    (m.isSensitive → req.call.isConfirmed) ∧
      (hasSensitiveMarker ctx.lib m.content → m.isSensitive ∨ req.call.isDailySummary) := by
  unfold prepared at h
  split at h
  next payload confirmed hcall =>
    obtain ⟨hchecked, hconfirmed⟩ := checked_preparedCreate (Option.some.inj h)
    simp only [WritesFlagged, hcall] at hcond
    rw [hcall]
    exact ⟨hconfirmed, fun hmarker => .inl (hchecked.flagged hcond hmarker)⟩
  next d hcall =>
    have hflag := isSensitive_preparedDailySummary (Option.some.inj h)
    rw [hcall]
    exact ⟨fun hsensitive => absurd (hflag.symm.trans hsensitive) nofun, fun _ => .inr rfl⟩
  · cases h

/-- One call keeps every stored memory guarded. -/
theorem guarded_handle {req : MemoryRequest} {s : MemoryStore} {h : MemoryHistory}
    (hcond : ctx.WritesFlagged s req) (hI : ∀ m ∈ s.items, Guarded ctx.lib h m) :
    ∀ m ∈ (ctx.handle req s).2.items, Guarded ctx.lib (h ++ [(req, (ctx.handle req s).1)]) m := by
  have hold : ∀ a, ∀ m ∈ s.items, Guarded ctx.lib (h ++ [(req, a)]) m := fun a m hm =>
    ⟨fun hflag => ((hI m hm).confirmed hflag).append _,
      fun hmarker => ((hI m hm).flagged hmarker).imp_right fun hw => hw.append _⟩
  -- A record that is stored is guarded by the entry that stored it.
  have hnew : ∀ m, (m.isSensitive → req.call.isConfirmed) →
      (hasSensitiveMarker ctx.lib m.content → m.isSensitive ∨ req.call.isDailySummary) →
        Guarded ctx.lib (h ++ [(req, .ok (.stored m))]) m := by
    intro m hconfirmed hflagged
    have hwrote : ∀ kind : MemoryCall → Bool, kind req.call →
        MemoryHistory.Wrote kind (h ++ [(req, .ok (.stored m))]) m.id := fun kind hkind =>
      ⟨_, List.mem_append_right _ (List.mem_singleton_self _), rfl, hkind⟩
    exact ⟨fun hflag => hwrote _ (hconfirmed hflag),
      fun hmarker => (hflagged hmarker).imp_right (hwrote _)⟩
  generalize hres : ctx.handle req s = res
  have heffect := ctx.effect_handle req s
  rw [hres] at heffect
  cases heffect with
  | none a _ => exact hold a
  | @created m hm hfree =>
    obtain ⟨hconfirmed, hflagged⟩ := guarded_created hcond hm
    intro r hr
    rcases mem_put.mp hr with rfl | ⟨hmem, -⟩
    · exact hnew _ hconfirmed hflagged
    · exact hold _ r hmem
  | @updated memoryId patch confirmed current m hcall hcurrent hm =>
    obtain ⟨hchecked, hconfirmed⟩ := checked_preparedUpdate hm
    simp only [WritesFlagged, hcall] at hcond
    intro r hr
    rcases mem_put.mp hr with rfl | ⟨hmem, -⟩
    · refine hnew _ ?_ fun hmarker => .inl (hchecked.flagged (hcond current hcurrent) hmarker)
      rw [hcall]
      exact hconfirmed
    · exact hold _ r hmem
  | deleted hcurrent hwrite =>
    intro r hr
    exact hold _ r (mem_erase.mp hr).1
  | @excluded memoryId current exclusions a hcurrent hwrite _ =>
    -- The flag and the content stay as they are.
    have hcurrent' := hold a current (mem_of_get hcurrent)
    intro r hr
    rcases mem_put.mp hr with rfl | ⟨hmem, -⟩
    · exact ⟨hcurrent'.confirmed, hcurrent'.flagged⟩
    · exact hold a r hmem

end MemoryContext

/-! ### The projection of a sensitive memory -/

namespace Graph

theorem get?_filterMap_keys (d : Dict Json) (keys : List String) (key : String) :
    get? (keys.filterMap fun k => (d.get? k).map (Prod.mk k)) key =
      if key ∈ keys then d.get? key else none := by
  induction keys with
  | nil => rfl
  | cons k keys ih =>
    rcases hk : d.get? k with - | v
    · rw [List.filterMap_cons_none (by rw [hk]; rfl), ih]
      by_cases hkey : key = k
      · subst hkey
        simp [hk]
      · simp [hkey]
    · rw [List.filterMap_cons_some (by rw [hk]; rfl), get?_cons, ih]
      by_cases hkey : key = k
      · subst hkey
        simp [hk]
      · simp [hkey]

/-- What the payload says under an allowed key. -/
theorem get?_memoryMetadataPayload (lib : Library) (metadata : Dict Json) {key : String}
    (hkey : key ∈ metadataAllowlist) :
    (memoryMetadataPayload lib metadata).get? key = metadata.get? key := by
  have hne : key ≠ "entity_hints" := by
    rintro rfl
    revert hkey
    decide
  unfold memoryMetadataPayload
  split
  · rw [get?_filterMap_keys, if_pos hkey]
  · rw [get?_set_ne hne, get?_filterMap_keys, if_pos hkey]

/-- What the payload says of entities. -/
theorem getJson_memoryMetadataPayload (lib : Library) (metadata : Dict Json) :
    (memoryMetadataPayload lib metadata).getJson "entity_hints" =
      if projectionEntityHints lib metadata = [] then .null
      else .arr (projectionEntityHints lib metadata) := by
  rcases hhints : projectionEntityHints lib metadata with - | ⟨hint, hints⟩
  · simp only [memoryMetadataPayload, hhints, if_true]
    rw [getJson, get?_filterMap_keys, if_neg (by decide)]
    rfl
  · simp only [memoryMetadataPayload, hhints]
    rw [getJson_set_self, if_neg (List.cons_ne_nil hint hints)]

/-- The metadata of two payloads are equal just where the allowed keys and the entity hints
say the same. -/
theorem memoryMetadataPayload_eq_iff (lib : Library) (a b : Dict Json) :
    memoryMetadataPayload lib a = memoryMetadataPayload lib b ↔
      (∀ key ∈ metadataAllowlist, a.get? key = b.get? key) ∧
        projectionEntityHints lib a = projectionEntityHints lib b := by
  constructor
  · intro h
    constructor
    · intro key hkey
      rw [← get?_memoryMetadataPayload lib a hkey, h, get?_memoryMetadataPayload lib b hkey]
    · have hhints := getJson_memoryMetadataPayload lib a
      rw [h, getJson_memoryMetadataPayload lib b] at hhints
      split at hhints
      next hb =>
        split at hhints
        next ha => rw [ha, hb]
        · cases hhints
      · split at hhints
        · cases hhints
        · exact (Json.arr.inj hhints).symm
  · rintro ⟨hkeys, hhints⟩
    have hallowed : metadataAllowlist.filterMap (fun key => (a.get? key).map (Prod.mk key)) =
        metadataAllowlist.filterMap fun key => (b.get? key).map (Prod.mk key) :=
      List.filterMap_congr fun key hkey => by rw [hkeys key hkey]
    simp only [memoryMetadataPayload, hallowed, hhints]

/-- The payload of a sensitive memory says nothing of its summary. -/
theorem memoryPayload_eq_iff (lib : Library) {m m' : MemoryRecord} (hflag : m.isSensitive = true)
    (hsame : m' = { m with summary := m'.summary, metadata := m'.metadata }) :
    memoryPayload lib m = memoryPayload lib m' ↔
      memoryMetadataPayload lib m.metadata = memoryMetadataPayload lib m'.metadata := by
  rw [hsame]
  constructor
  · intro h
    have hmetadata := congrArg (fun d => getJson d "metadata") h
    exact Json.obj.inj hmetadata
  · intro h
    simp only [memoryPayload, hflag, h, if_true]

end Graph

/-! ### What holds of sensitive memories -/

/-- **Sensitive memories are confirmed and hide their content and summary.**  In every
sequence of calls whose flags do not deny a marker, a flagged memory was confirmed and a
memory with a marker is flagged, the summary job's own apart; and two sensitive memories
that differ in content, summary and metadata have one projection just where the allowed
keys and the entity hints of their metadata say the same. -/
theorem sensitiveMemory_guarded {ctx : MemoryContext} {h : MemoryHistory} {t : MemoryStore}
    (hcalls : Serves ctx.handle ctx.WritesFlagged Catalog.empty h t) :
    (∀ m ∈ t.items, (m.isSensitive → h.Wrote isConfirmed m.id) ∧
      (hasSensitiveMarker ctx.lib m.content →
        (m.isSensitive ∧ h.Wrote isConfirmed m.id) ∨ h.Wrote isDailySummary m.id)) ∧
    ∀ m m' : MemoryFields, m.isSensitive →
      m' = { m with content := m'.content, summary := m'.summary, metadata := m'.metadata } →
      (Graph.memoryPayload ctx.lib.toLibrary m.toMemoryRecord =
          Graph.memoryPayload ctx.lib.toLibrary m'.toMemoryRecord ↔
        (∀ key ∈ Graph.metadataAllowlist, m.metadata.get? key = m'.metadata.get? key) ∧
          Graph.projectionEntityHints ctx.lib.toLibrary m.metadata =
            Graph.projectionEntityHints ctx.lib.toLibrary m'.metadata) := by
  constructor
  · have hguarded : ∀ m ∈ t.items, Guarded ctx.lib h m := by
      refine Serves.invariant (I := fun h t => ∀ m ∈ t.items, Guarded ctx.lib h m) ?_ ?_ hcalls
      · exact fun _ hm => absurd hm List.not_mem_nil
      · intro h t req hI hcond
        exact ctx.guarded_handle hcond hI
    intro m hm
    have hm' := hguarded m hm
    exact ⟨hm'.confirmed, fun hmarker =>
      (hm'.flagged hmarker).imp_left fun hflag => ⟨hflag, hm'.confirmed hflag⟩⟩
  · intro m m' hflag hsame
    rw [← Graph.memoryMetadataPayload_eq_iff]
    exact Graph.memoryPayload_eq_iff _ hflag (congrArg (fun f => f.toMemoryRecord) hsame)

/-- A memory with a marker, whose author confirms it. -/
def passwordRequest : MemoryRequest where
  call := .createMemory
    [("scope", .str "conversation"), ("conversation_id", .str "support"),
      ("content", .str "the password is tulip")] true
  trustedActor := true
  fresh := "password"
  now := 1

theorem sensitiveMemory_guarded_password :
    (∃ m ∈ (bareContext.handle passwordRequest Catalog.empty).2.items, m.isSensitive) ∧
      ∀ m ∈ (bareContext.handle passwordRequest Catalog.empty).2.items,
        m.isSensitive → MemoryHistory.Wrote isConfirmed
          [(passwordRequest, (bareContext.handle passwordRequest Catalog.empty).1)] m.id := by
  have hcond : bareContext.WritesFlagged Catalog.empty passwordRequest := by
    have hunset : (getJson [("scope", .str "conversation"),
        ("conversation_id", .str "support"), ("content", .str "the password is tulip")]
          "sensitive").boolField? = none := by decide +kernel
    intro _ hdenied
    rw [hunset] at hdenied
    cases hdenied
  refine ⟨?_, fun m hm => ((sensitiveMemory_guarded (.call .start hcond)).1 m hm).1⟩
  have hflags : ("password", true) ∈
      (bareContext.handle passwordRequest Catalog.empty).2.items.map
        fun m => (m.id, m.isSensitive) := by decide +kernel
  obtain ⟨m, hm, hshape⟩ := List.mem_map.mp hflags
  exact ⟨m, hm, (Prod.mk.inj hshape).2⟩

/-- The summary of a conversation in which a password was told. -/
def passwordSummary : MemoryRequest where
  call := .createDailySummaryMemory
    { sourceConversationId := "support"
      summaryDate := 0
      content := "the password is tulip"
      summary := "a password was told"
      createdByUserId := none
      workspaceId := none
      agentId := none
      archivedWindowStart := 0
      archivedWindowEnd := 1 }
  fresh := "summary"
  now := 1

/-- A summary is stored as not sensitive, whatever stands in it. -/
theorem sensitiveMemory_summary :
    ¬ ∀ (ctx : MemoryContext) (h : MemoryHistory) (t : MemoryStore),
      Serves ctx.handle (fun _ req => req.call.isStoring) Catalog.empty h t →
        ∀ m ∈ t.items, hasSensitiveMarker ctx.lib m.content →
          m.isSensitive ∧ h.Wrote isConfirmed m.id := by
  intro hclaim
  have hstored : (true, false) ∈
      (bareContext.handle passwordSummary Catalog.empty).2.items.map
        fun m => (hasSensitiveMarker bareContext.lib m.content, m.isSensitive) := by
    decide +kernel
  obtain ⟨m, hm, hshape⟩ := List.mem_map.mp hstored
  obtain ⟨hmarker, hflag⟩ := Prod.mk.inj hshape
  have hsensitive := (hclaim bareContext _ _ (.call .start rfl) m hm hmarker).1
  exact absurd (hflag.symm.trans hsensitive) nofun

end OpenAgency
