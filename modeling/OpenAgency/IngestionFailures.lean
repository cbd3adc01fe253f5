/-
IngestionFailures.lean

What an upload leaves that raises.  Any operation may fail, before its effect or after it, and
a memory may be refused at any chunk.

Before the document's row is stored nothing is left.  From then on the row stays, active, and
with it the memories of the chunks so far and the events of these (`ingestUpload_leaves`).
-/
import OpenAgency.DocumentIngestion

namespace OpenAgency

open Relational Interaction OpenAgency.Graph Program Catalog

namespace DocumentIngestionService

/-! ### What is left -/

/-- The event is one of a document of which the memories of `k` chunks have been stored: of
such a memory, or of the collection once it is complete. -/
def Concerns (documentId : String) (chunks : List DocumentChunk) (k : ℕ)
    (event : GraphProjectionEvent) : Prop :=
  (event.aggregateType = "memory" ∧
      ∃ chunk ∈ chunks.take k, event.aggregateId = strip (chunkMemoryId documentId chunk)) ∨
    (event.aggregateType = "document_memory_collection" ∧ event.aggregateId = strip documentId ∧
      0 < k ∧ k = chunks.length)

/-- The row of the document is there, active, and nothing else has happened to the rows. -/
structure RowLeft (documentId : String) (s₀ s : IngestStores) : Prop where
  absent : s₀.documents.get documentId = none
  active : ∃ d, s.documents.get documentId = some d ∧ d.status = .active
  others : ∀ id, id ≠ documentId → s.documents.get id = s₀.documents.get id

/-- The memories of the first `k` chunks are there and some of their events, and nothing else
has happened to the memories and the events. -/
structure ChunksLeft (documentId : String) (chunks : List DocumentChunk) (k : ℕ)
    (s₀ s : IngestStores) : Prop where
  le_length : k ≤ chunks.length
  absent : ∀ chunk ∈ chunks.take k, s₀.memories.get (chunkMemoryId documentId chunk) = none
  stored : ∀ chunk ∈ chunks.take k, (s.memories.get (chunkMemoryId documentId chunk)).isSome
  others : ∀ id, (∀ chunk ∈ chunks.take k, id ≠ chunkMemoryId documentId chunk) →
    s.memories.get id = s₀.memories.get id
  kept : s₀.outbox.events ⊆ s.outbox.events
  events : ∀ event ∈ s.outbox.events, event ∈ s₀.outbox.events ∨ Concerns documentId chunks k event

/-- What an upload has left that got as far as `k` chunks. -/
structure Left (cfg : IngestSettings) (documentId : String) (chunks : List DocumentChunk) (k : ℕ)
    (s₀ s : IngestStores) : Prop where
  row : if cfg.hasDocuments then RowLeft documentId s₀ s else s.documents = s₀.documents
  chunks : ChunksLeft documentId chunks k s₀ s

/-- The chunks of an upload. -/
def uploadChunks (upload : DocumentUpload) (fuel : ℕ) : Option (List DocumentChunk) :=
  if upload.uploadMode.keepsMemories then
    chunkText upload.text upload.chunkSizeOrDefault (upload.chunkOverlap.getD 150) fuel
  else some []

/-! ### Operations that may fail -/

section Rules

variable {env : IngestEnvironment} {faults : ℕ → Fault IngestionError} {s : IngestWorld × ℕ}
  {cfg : IngestSettings}

variable {E : IngestionError → IngestWorld × ℕ → Prop}

/-- One operation. -/
theorem wp_await {o : IngestOp} {Q : IngestOps.Ret o → IngestWorld × ℕ → Prop}
    (hok : Q (ingestHandler env o s.1).1 ((ingestHandler env o s.1).2, s.2 + 1))
    (hbefore : ∀ e, E e (s.1, s.2 + 1)) (hafter : ∀ e, E e ((ingestHandler env o s.1).2, s.2 + 1)) :
    (await o).wp ((ingestHandler env).faulty faults) Q E s :=
  wp_fallibly_perform hok hbefore hafter

/-- An operation that writes nothing. -/
theorem wp_read {o : IngestOp} {Q : IngestOps.Ret o → IngestWorld × ℕ → Prop}
    (hread : (ingestHandler env o s.1).2.stores = s.1.stores)
    (hQ : ∀ s' : IngestWorld × ℕ, s'.1.stores = s.1.stores → Q (ingestHandler env o s.1).1 s')
    (hE : ∀ e, ∀ s' : IngestWorld × ℕ, s'.1.stores = s.1.stores → E e s') :
    (await o).wp ((ingestHandler env).faulty faults) Q E s :=
  wp_await (hQ _ hread) (fun e => hE e _ rfl) fun e => hE e _ hread

/-- Only events have been added, and only such events. -/
structure Adds (C : GraphProjectionEvent → Prop) (t t' : IngestStores) : Prop where
  documents : t'.documents = t.documents
  memories : t'.memories = t.memories
  kept : t.outbox.events ⊆ t'.outbox.events
  added : ∀ event ∈ t'.outbox.events, event ∈ t.outbox.events ∨ C event

variable {C : GraphProjectionEvent → Prop}

theorem Adds.refl (t : IngestStores) : Adds C t t :=
  ⟨rfl, rfl, List.Subset.refl _, fun _ h => .inl h⟩

theorem Adds.trans {t t' t'' : IngestStores} (h : Adds C t t') (h' : Adds C t' t'') :
    Adds C t t'' := by
  refine ⟨h'.documents.trans h.documents, h'.memories.trans h.memories,
    List.Subset.trans h.kept h'.kept, fun event hevent => ?_⟩
  rcases h'.added event hevent with hold | hnew
  · exact h.added event hold
  · exact .inr hnew

/-- An event is appended at the end, or not at all. -/
theorem events_append (rows : GraphOutbox) (event : GraphProjectionEvent) :
    (SQLGraphProjectionEventRepository.append rows event).2 = rows ∨
      (SQLGraphProjectionEventRepository.append rows event).2.events = rows.events ++ [event] := by
  unfold SQLGraphProjectionEventRepository.append
  dsimp only
  split_ifs with hfits htaken
  · exact .inl rfl
  · left
    split
    · split_ifs <;> rfl
    · rfl
  · right
    obtain ⟨hfree, -⟩ := not_or.mp htaken
    refine GraphOutbox.putEvent_of_notMem fun hmem => hfree ?_
    obtain ⟨other, hother, hid⟩ := List.mem_map.mp hmem
    rw [GraphOutbox.get, List.find?_isSome]
    exact ⟨other, hother, by simpa using hid⟩

theorem adds_append {event : GraphProjectionEvent} (hevent : C event) (w : IngestWorld) :
    Adds C w.stores (ingestHandler env (.append event) w).2.stores := by
  show Adds C w.stores
    { w.stores with outbox := (SQLGraphProjectionEventRepository.append w.stores.outbox event).2 }
  rcases events_append w.stores.outbox event with hsame | hadded
  · rw [hsame]
    exact Adds.refl w.stores
  · refine ⟨rfl, rfl, ?_, ?_⟩
    · dsimp only
      rw [hadded]
      exact List.subset_append_left _ _
    · dsimp only
      rw [hadded]
      intro other hother
      rcases List.mem_append.mp hother with hother | hother
      · exact .inl hother
      · rw [List.mem_singleton.mp hother]
        exact .inr hevent

/-- One event that is normalised and appended. -/
theorem wp_appendEvent {event : String → Time → GraphProjectionEvent}
    (hevent : ∀ id time e, normalizeProjectionEvent (event id time) = .ok e → C e) :
    (appendEvent event).wp ((ingestHandler env).faulty faults)
      (fun _ s' => Adds C s.1.stores s'.1.stores) (fun _ s' => Adds C s.1.stores s'.1.stores) s := by
  unfold appendEvent
  rw [wp_bind]
  refine wp_read rfl (fun s₁ h₁ => ?_) fun e s₁ h₁ => ?_
  · split
    · rw [wp_raise, h₁]
      exact Adds.refl _
    next e hnormal =>
      rw [wp_bind, ← h₁]
      have hadds : Adds C s₁.1.stores (ingestHandler env (.append e) s₁.1).2.stores :=
        adds_append (hevent _ _ e hnormal) s₁.1
      refine wp_await ?_ (fun _ => Adds.refl _) fun _ => hadds
      split
      · exact wp_of_done hadds
      · exact wp_of_raise hadds
  · rw [h₁]
    exact Adds.refl _

/-- What is logged adds such events and never raises. -/
theorem wp_logged {p : Ingest Unit}
    (h : p.wp ((ingestHandler env).faulty faults) (fun _ s' => Adds C s.1.stores s'.1.stores)
      (fun _ s' => Adds C s.1.stores s'.1.stores) s) :
    (logged p).wp ((ingestHandler env).faulty faults)
      (fun _ s' => Adds C s.1.stores s'.1.stores) (fun _ _ => False) s := by
  unfold logged
  rw [wp_rescue]
  exact wp_mono h (fun _ _ hadds => hadds) fun _ _ hadds => wp_of_done hadds

/-- The event is one of the memory. -/
def OfMemory (id : String) (event : GraphProjectionEvent) : Prop :=
  event.aggregateType = "memory" ∧ event.aggregateId = strip id

variable {event e : GraphProjectionEvent}

theorem of_normalizeProjectionEvent (h : normalizeProjectionEvent event = .ok e) :
    e.aggregateType = strip event.aggregateType ∧ e.aggregateId = strip event.aggregateId := by
  unfold normalizeProjectionEvent at h
  dsimp only at h
  split_ifs at h
  · obtain rfl := Except.ok.inj h
    exact ⟨rfl, rfl⟩
  · obtain rfl := Except.ok.inj h
    exact ⟨rfl, rfl⟩

theorem ofMemory_of_normalize {id : String} (htype : event.aggregateType = "memory")
    (hid : event.aggregateId = id) (h : normalizeProjectionEvent event = .ok e) :
    OfMemory id e := by
  obtain ⟨htype', hid'⟩ := of_normalizeProjectionEvent h
  have hmemory : strip "memory" = "memory" := by decide +kernel
  rw [htype, hmemory] at htype'
  rw [hid] at hid'
  exact ⟨htype', hid'⟩

theorem wp_appendMemoryProjectionEvent (m : OpenAgency.MemoryRecord) :
    (appendMemoryProjectionEvent cfg m).wp ((ingestHandler env).faulty faults)
      (fun _ s' => Adds (OfMemory m.id) s.1.stores s'.1.stores) (fun _ _ => False) s := by
  have hcreated : ∀ id time e, normalizeProjectionEvent (memoryCreatedEvent cfg m id time) = .ok e →
      OfMemory m.id e := fun _ _ _ h => ofMemory_of_normalize rfl rfl h
  have hentities : ∀ candidates ref id time e,
      normalizeProjectionEvent (memoryEntitiesEvent cfg m candidates ref id time) = .ok e →
        OfMemory m.id e := fun _ _ _ _ _ h => ofMemory_of_normalize rfl rfl h
  unfold appendMemoryProjectionEvent
  split
  · apply wp_logged
    refine wp_seq (wp_appendEvent hcreated) fun projected s₁ h₁ => ?_
    split
    · split
      · exact wp_of_done h₁
      · refine wp_then (wp_appendEvent (hentities _ _)) (fun _ s₂ h₂ => ?_) fun _ s₂ h₂ => h₁.trans h₂
        exact wp_of_done (h₁.trans h₂)
    · exact wp_of_done h₁
  · exact wp_of_done (Adds.refl _)

/-! ### A memory -/

/-- A memory has been stored under a free identifier, and maybe some of its events. -/
structure Created (id : String) (t t' : IngestStores) : Prop where
  documents : t'.documents = t.documents
  absent : t.memories.get id = none
  stored : (t'.memories.get id).isSome
  others : ∀ other, other ≠ id → t'.memories.get other = t.memories.get other
  kept : t.outbox.events ⊆ t'.outbox.events
  added : ∀ event ∈ t'.outbox.events, event ∈ t.outbox.events ∨ OfMemory id event

theorem Created.adds {id : String} {t t' t'' : IngestStores} (h : Created id t t')
    (h' : Adds (OfMemory id) t' t'') : Created id t t'' := by
  refine ⟨h'.documents.trans h.documents, h.absent, ?_, ?_, List.Subset.trans h.kept h'.kept, ?_⟩
  · rw [h'.memories]
    exact h.stored
  · rw [h'.memories]
    exact h.others
  · intro event hevent
    rcases h'.added event hevent with hold | hnew
    · exact h.added event hold
    · exact .inr hnew

variable (env) in
/-- A memory is stored under a free identifier, or refused. -/
theorem createMemory_cases (now : Time) (m : OpenAgency.MemoryRecord) (w : IngestWorld) :
    ((∃ e, (ingestHandler env (.createMemory now m) w).1 = .error e) ∧
        (ingestHandler env (.createMemory now m) w).2.stores = w.stores) ∨
      (∃ created : OpenAgency.MemoryRecord,
        (ingestHandler env (.createMemory now m) w).1 = .ok created ∧ created.id = m.id) ∧
      Created m.id w.stores (ingestHandler env (.createMemory now m) w).2.stores := by
  show ((∃ e, (w.stores.memories.create now m).1 = .error e) ∧
      { w.stores with memories := (w.stores.memories.create now m).2 } = w.stores) ∨
    (∃ created : OpenAgency.MemoryRecord,
      (w.stores.memories.create now m).1 = .ok created ∧ created.id = m.id) ∧
    Created m.id w.stores { w.stores with memories := (w.stores.memories.create now m).2 }
  unfold MemoryStore.create
  rcases hget : w.stores.memories.get m.id with - | other
  · refine .inr ⟨⟨_, rfl, rfl⟩, rfl, hget, ?_, ?_, List.Subset.refl _, fun _ h => .inl h⟩
    · have hself : (w.stores.memories.put (m.stamp now now)).get (m.stamp now now).id =
          some (m.stamp now now) := get_put_self _ _
      exact Option.isSome_of_eq_some hself
    · exact fun id hid => get_put_ne hid
  · exact .inl ⟨⟨_, rfl⟩, rfl⟩

/-- **The memory of one chunk**: it is stored, or the call raises, before that or after. -/
theorem wp_createChunkMemory {user : UserDefinition} {payload : Dict Json} {id : String}
    (hid : payload.get? "id" = some (.str id)) :
    (createChunkMemory cfg user payload).wp ((ingestHandler env).faulty faults)
      (fun _ s' => Created id s.1.stores s'.1.stores)
      (fun _ s' => s'.1.stores = s.1.stores ∨ Created id s.1.stores s'.1.stores) s := by
  unfold createChunkMemory
  rw [wp_bind]
  refine wp_read rfl (fun s₁ h₁ => ?_) fun _ _ h₁ => .inl h₁
  rw [wp_bind]
  refine wp_read rfl (fun s₂ h₂ => ?_) fun _ _ h₂ => .inl (h₂.trans h₁)
  rw [← h₁, ← h₂]
  split
  · exact wp_of_raise (.inl rfl)
  next m hprepared =>
    have hm : m.id = id := MemoryContext.id_preparedCreate hprepared hid
    rw [wp_bind]
    rcases createMemory_cases env _ m s₂.1 with
      ⟨⟨e, herror⟩, hsame⟩ | ⟨⟨created, hok, hcreated⟩, hstored⟩
    · refine wp_await ?_ (fun _ => .inl rfl) fun _ => .inl hsame
      rw [herror]
      exact wp_of_raise (.inl hsame)
    · rw [hm] at hstored
      refine wp_await ?_ (fun _ => .inl rfl) fun _ => .inr hstored
      rw [hok]
      refine wp_then (wp_appendMemoryProjectionEvent created) (fun _ s₃ h₃ => ?_)
        fun _ _ h => h.elim
      rw [hcreated, hm] at h₃
      exact wp_of_done (hstored.adds h₃)

end Rules

/-! ### The chunks -/

section Chunks

variable {env : IngestEnvironment} {faults : ℕ → Fault IngestionError} {s : IngestWorld × ℕ}
  {cfg : IngestSettings} {documentId : String} {storageUri : Option String}
  {upload : DocumentUpload} {chunks : List DocumentChunk} {s₀ t t' : IngestStores} {k : ℕ}

theorem get?_set_of_some {d : Dict Json} {key key' : String} {v : Json} (hne : key ≠ key')
    {w : Json} (h : d.get? key = some w) : (Dict.set d key' v).get? key = some w := by
  rw [Dict.get?_set_ne hne, h]

theorem id_chunkPayload (n : ℕ) (chunk : DocumentChunk) :
    (chunkPayload cfg documentId storageUri upload n chunk).get? "id" =
      some (.str (chunkMemoryId documentId chunk)) := by
  unfold chunkPayload
  dsimp only
  split_ifs
  · exact get?_set_of_some (by decide) rfl
  · exact get?_set_of_some (by decide) rfl
  · exact get?_set_of_some (by decide) rfl
  · exact get?_set_of_some (by decide) rfl
  · rfl

/-- **One chunk** more. -/
theorem ChunksLeft.step {chunk : DocumentChunk} (h : ChunksLeft documentId chunks k s₀ t)
    (hchunk : chunks[k]? = some chunk)
    (hcreated : Created (chunkMemoryId documentId chunk) t t') :
    ChunksLeft documentId chunks (k + 1) s₀ t' := by
  have htake : chunks.take (k + 1) = chunks.take k ++ [chunk] := by
    rw [List.take_add_one, hchunk]
    rfl
  have hnew : ∀ other ∈ chunks.take k,
      chunkMemoryId documentId chunk ≠ chunkMemoryId documentId other := by
    intro other hother heq
    have hstored := h.stored other hother
    rw [← heq, hcreated.absent] at hstored
    cases hstored
  have hk : k < chunks.length := (List.getElem?_eq_some_iff.mp hchunk).1
  refine ⟨hk, ?_, ?_, ?_, List.Subset.trans h.kept hcreated.kept, ?_⟩
  · intro other hother
    rw [htake] at hother
    rcases List.mem_append.mp hother with hold | hlast
    · exact h.absent other hold
    · rw [List.mem_singleton.mp hlast, ← h.others _ hnew]
      exact hcreated.absent
  · intro other hother
    rw [htake] at hother
    rcases List.mem_append.mp hother with hold | hlast
    · rw [hcreated.others _ (Ne.symm (hnew other hold))]
      exact h.stored other hold
    · rw [List.mem_singleton.mp hlast]
      exact hcreated.stored
  · intro id hid
    rw [htake] at hid
    rw [hcreated.others id (hid chunk (List.mem_append_right _ (List.mem_singleton_self _)))]
    exact h.others id fun other hother => hid other (List.mem_append_left _ hother)
  · intro event hevent
    rcases hcreated.added event hevent with hold | ⟨htype, hid⟩
    · refine (h.events event hold).imp_right fun hconcerns => ?_
      rcases hconcerns with ⟨htype, other, hother, hid⟩ | ⟨-, -, -, hcomplete⟩
      · refine .inl ⟨htype, other, ?_, hid⟩
        rw [htake]
        exact List.mem_append_left _ hother
      · omega
    · refine .inr (.inl ⟨htype, chunk, ?_, hid⟩)
      rw [htake]
      exact List.mem_append_right _ (List.mem_singleton_self _)

theorem Left.step {chunk : DocumentChunk} (h : Left cfg documentId chunks k s₀ t)
    (hchunk : chunks[k]? = some chunk)
    (hcreated : Created (chunkMemoryId documentId chunk) t t') :
    Left cfg documentId chunks (k + 1) s₀ t' := by
  refine ⟨?_, h.chunks.step hchunk hcreated⟩
  have hrow := h.row
  split
  next hdocuments =>
    rw [if_pos hdocuments] at hrow
    exact ⟨hrow.absent, hcreated.documents ▸ hrow.active, hcreated.documents ▸ hrow.others⟩
  next hdocuments =>
    rw [if_neg hdocuments] at hrow
    rw [hcreated.documents, hrow]

/-- **All the chunks**, or as many as there are when the call raises. -/
theorem wp_createChunkMemories (h : Left cfg documentId chunks 0 s₀ s.1.stores) :
    (createChunkMemories cfg documentId storageUri upload chunks).wp
      ((ingestHandler env).faulty faults)
      (fun _ s' => Left cfg documentId chunks chunks.length s₀ s'.1.stores)
      (fun _ s' => ∃ k, Left cfg documentId chunks k s₀ s'.1.stores) s := by
  unfold createChunkMemories
  refine wp_mono (wp_collect (I := fun rest (s' : IngestWorld × ℕ) =>
    ∃ k, chunks.drop k = rest ∧ Left cfg documentId chunks k s₀ s'.1.stores) ?_
    ⟨0, List.drop_zero, h⟩) (fun _ s' hdone => ?_) fun _ _ hleft => hleft
  · rintro chunk rest s' ⟨k, hdrop, hleft⟩
    have hchunk : chunks[k]? = some chunk := by
      rw [← List.head?_drop, hdrop]
      rfl
    have hrest : chunks.drop (k + 1) = rest := by
      rw [← List.drop_drop, hdrop]
      rfl
    refine wp_then (wp_createChunkMemory (id_chunkPayload _ chunk)) (fun _ s'' hcreated => ?_)
      fun _ s'' hraised => ?_
    · exact wp_of_done ⟨k + 1, hrest, hleft.step hchunk hcreated⟩
    · rcases hraised with hsame | hcreated
      · rw [hsame]
        exact ⟨k, hleft⟩
      · exact ⟨k + 1, hleft.step hchunk hcreated⟩
  · obtain ⟨k, hdrop, hleft⟩ := hdone
    have hk : k = chunks.length :=
      Nat.le_antisymm hleft.chunks.le_length (List.drop_eq_nil_iff.mp hdrop)
    rw [← hk]
    exact hleft

/-- The event is one of the collection. -/
def OfCollection (documentId : String) (event : GraphProjectionEvent) : Prop :=
  event.aggregateType = "document_memory_collection" ∧ event.aggregateId = strip documentId

theorem wp_collectionEvent (memories : List OpenAgency.MemoryRecord) :
    (appendDocumentCollectionProjectionEvent cfg documentId memories).wp
      ((ingestHandler env).faulty faults)
      (fun _ s' => Adds (OfCollection documentId) s.1.stores s'.1.stores) (fun _ _ => False) s := by
  have hevent : ∀ id time e,
      normalizeProjectionEvent (collectionEvent cfg documentId memories id time) = .ok e →
        OfCollection documentId e := by
    intro id time e hnormal
    obtain ⟨htype, hid⟩ := of_normalizeProjectionEvent hnormal
    have hcollection : strip "document_memory_collection" = "document_memory_collection" := by
      decide +kernel
    exact ⟨htype.trans hcollection, hid⟩
  unfold appendDocumentCollectionProjectionEvent
  split
  · apply wp_logged
    exact wp_seq (wp_appendEvent hevent) fun _ _ hadds => wp_of_done hadds
  · exact wp_of_done (Adds.refl _)

/-- The event of the collection, once it is complete. -/
theorem Left.collection (h : Left cfg documentId chunks chunks.length s₀ t) (hne : chunks ≠ [])
    (hadds : Adds (OfCollection documentId) t t') :
    Left cfg documentId chunks chunks.length s₀ t' := by
  refine ⟨?_, ?_⟩
  · have hrow := h.row
    split
    next hdocuments =>
      rw [if_pos hdocuments] at hrow
      exact ⟨hrow.absent, hadds.documents ▸ hrow.active, hadds.documents ▸ hrow.others⟩
    next hdocuments =>
      rw [if_neg hdocuments] at hrow
      rw [hadds.documents, hrow]
  · have hchunks := h.chunks
    refine ⟨le_rfl, hchunks.absent, hadds.memories ▸ hchunks.stored, hadds.memories ▸ hchunks.others,
      List.Subset.trans hchunks.kept hadds.kept, fun event hevent => ?_⟩
    rcases hadds.added event hevent with hold | ⟨htype, hid⟩
    · exact hchunks.events event hold
    · exact .inr (.inr ⟨htype, hid, List.length_pos_iff.mpr hne, rfl⟩)

theorem wp_storeChunks (h : Left cfg documentId chunks 0 s₀ s.1.stores) :
    (storeChunks cfg documentId storageUri upload chunks).wp ((ingestHandler env).faulty faults)
      (fun _ s' => Left cfg documentId chunks chunks.length s₀ s'.1.stores)
      (fun _ s' => ∃ k, Left cfg documentId chunks k s₀ s'.1.stores) s := by
  unfold storeChunks
  split
  · exact wp_of_raise ⟨0, h⟩
  next hne =>
    refine wp_seq (wp_createChunkMemories h) fun memoryIds s₁ h₁ => ?_
    rw [wp_bind]
    refine wp_read rfl (fun s₂ h₂ => ?_) fun _ s₂ h₂ => ⟨_, h₂ ▸ h₁⟩
    have hleft : Left cfg documentId chunks chunks.length s₀ s₂.1.stores := h₂ ▸ h₁
    refine wp_then (wp_collectionEvent _) (fun _ s₃ h₃ => ?_)
      fun _ _ hraised => hraised.elim
    exact wp_of_done (hleft.collection hne h₃)

variable {document : UploadedDocument}

/-- What is saved of the row keeps it active. -/
theorem Left.save (h : Left cfg documentId chunks k s₀ t) (hdocuments : cfg.hasDocuments = true)
    (hget : t.documents.get documentId = some document) (metadata : Dict Json) (now : Time) :
    Left cfg documentId chunks k s₀ { t with
      documents := t.documents.put { document with metadata := metadata, updatedAt := now } } := by
  have hrow := h.row
  rw [if_pos hdocuments] at hrow
  have hid : document.id = documentId := key_of_get hget
  have hactive : document.status = .active := by
    obtain ⟨d, hd, hstatus⟩ := hrow.active
    rw [hget] at hd
    rw [Option.some.inj hd]
    exact hstatus
  refine ⟨?_, h.chunks.le_length, h.chunks.absent, h.chunks.stored, h.chunks.others, h.chunks.kept,
    h.chunks.events⟩
  rw [if_pos hdocuments]
  refine ⟨hrow.absent, ⟨{ document with metadata := metadata, updatedAt := now }, ?_, hactive⟩,
    fun id hne => ?_⟩
  · rw [← hid]
    exact get_put_self _ _
  · rw [← hrow.others id hne]
    exact get_put_ne (hid ▸ hne)

theorem wp_updateUploadedDocumentMetadata (metadata : Dict Json)
    (h : Left cfg documentId chunks k s₀ s.1.stores) :
    (updateUploadedDocumentMetadata cfg documentId metadata).wp ((ingestHandler env).faulty faults)
      (fun _ _ => True) (fun _ s' => Left cfg documentId chunks k s₀ s'.1.stores) s := by
  unfold updateUploadedDocumentMetadata
  split
  next hdocuments =>
    refine (wp_bind _ _ _).mpr ?_
    refine wp_read rfl (fun s₁ h₁ => ?_) fun _ _ h₁ => h₁ ▸ h
    have hanswer : (ingestHandler env (.getDocument documentId) s.1).1 =
        s.1.stores.documents.get documentId := rfl
    rw [hanswer]
    rcases hget : s.1.stores.documents.get documentId with - | document
    · exact wp_of_done trivial
    · refine (wp_bind _ _ _).mpr ?_
      refine wp_read rfl (fun s₂ h₂ => ?_) fun _ _ h₂ => h₂ ▸ h₁ ▸ h
      have hsame : s₂.1.stores = s.1.stores := h₂.trans h₁
      have hsaved := Left.save (hsame ▸ h) hdocuments (hsame ▸ hget)
        (Dict.union document.metadata metadata) (ingestHandler env .draw s₁.1).1.2
      exact wp_await (o := IngestOp.saveDocument _) trivial (fun _ => hsame ▸ h) fun _ => hsaved
  · exact wp_of_done trivial

/-- What has been counted goes into the row. -/
theorem wp_finishUpload (memoryIds : List String) (h : Left cfg documentId chunks k s₀ s.1.stores) :
    (finishUpload cfg documentId storageUri upload chunks memoryIds).wp
      ((ingestHandler env).faulty faults) (fun _ _ => True)
      (fun _ s' => Left cfg documentId chunks k s₀ s'.1.stores) s := by
  unfold finishUpload
  exact wp_seq (wp_updateUploadedDocumentMetadata _ h) fun _ _ _ => wp_of_done trivial

/-! ### The row -/

theorem chunksLeft_zero (hmemories : t.memories = s₀.memories) (hevents : t.outbox = s₀.outbox) :
    ChunksLeft documentId chunks 0 s₀ t := by
  refine ⟨Nat.zero_le _, ?_, ?_, fun _ _ => by rw [hmemories], ?_, fun event hevent => ?_⟩
  · exact fun _ hchunk => absurd hchunk List.not_mem_nil
  · exact fun _ hchunk => absurd hchunk List.not_mem_nil
  · rw [hevents]
    exact List.Subset.refl _
  · rw [hevents] at hevent
    exact .inl hevent

variable (env) in
/-- A row is stored under a free identifier, or refused. -/
theorem createDocument_cases (document : UploadedDocument) (w : IngestWorld) :
    ((ingestHandler env (.createDocument document) w).1 = .error .integrity ∧
        (ingestHandler env (.createDocument document) w).2 = w) ∨
      (ingestHandler env (.createDocument document) w).1 = .ok () ∧
        w.stores.documents.get document.id = none ∧
        (ingestHandler env (.createDocument document) w).2.stores =
          { w.stores with documents := w.stores.documents.put document } := by
  unfold ingestHandler
  dsimp only
  rcases hget : w.stores.documents.get document.id with - | other
  · exact .inr ⟨rfl, rfl, rfl⟩
  · exact .inl ⟨rfl, rfl⟩

theorem left_put (hdocuments : cfg.hasDocuments = true) (hid : document.id = documentId)
    (hactive : document.status = .active) (habsent : s₀.documents.get document.id = none) :
    Left cfg documentId chunks 0 s₀ { s₀ with documents := s₀.documents.put document } := by
  refine ⟨?_, chunksLeft_zero rfl rfl⟩
  rw [if_pos hdocuments]
  subst hid
  exact ⟨habsent, ⟨document, get_put_self _ _, hactive⟩, fun _ hne => get_put_ne hne⟩

/-- **The row** is stored, or the call raises, before that or after. -/
theorem wp_storeUploadedDocument (hid : document.id = documentId)
    (hactive : document.status = .active) (hs : s.1.stores = s₀) :
    (storeUploadedDocument cfg document).wp ((ingestHandler env).faulty faults)
      (fun _ s' => Left cfg documentId chunks 0 s₀ s'.1.stores)
      (fun _ s' => s'.1.stores = s₀ ∨ Left cfg documentId chunks 0 s₀ s'.1.stores) s := by
  unfold storeUploadedDocument
  split
  next hdocuments =>
    refine (wp_bind _ _ _).mpr ?_
    rcases createDocument_cases env document s.1 with
      ⟨hrefused, hsame⟩ | ⟨hok, habsent, hstored⟩
    · have hs' : (ingestHandler env (.createDocument document) s.1).2.stores = s₀ := by
        rw [hsame, hs]
      refine wp_await ?_ (fun _ => .inl hs) fun _ => .inl hs'
      rw [hrefused]
      exact wp_of_raise (.inl hs')
    · rw [hs] at habsent hstored
      have hleft : Left cfg documentId chunks 0 s₀
          (ingestHandler env (.createDocument document) s.1).2.stores :=
        hstored ▸ left_put hdocuments hid hactive habsent
      refine wp_await ?_ (fun _ => .inl hs) fun _ => .inr hleft
      rw [hok]
      exact wp_of_done hleft
  next hdocuments =>
    refine wp_of_done ⟨?_, chunksLeft_zero (congrArg _ hs) (congrArg _ hs)⟩
    rw [if_neg hdocuments, hs]

end Chunks

/-- **What an upload leaves** that raises: nothing, or the row and as many chunks as it has
got to. -/
theorem ingestUpload_leaves (cfg : IngestSettings) (env : IngestEnvironment)
    (faults : ℕ → Fault IngestionError) (upload : DocumentUpload) (documentId : String) (fuel : ℕ)
    (s : IngestWorld × ℕ) :
    (ingestUpload cfg upload documentId fuel).wp ((ingestHandler env).faulty faults)
      (fun _ _ => True)
      (fun _ s' => s'.1.stores = s.1.stores ∨ ∃ k,
        Left cfg documentId ((uploadChunks upload fuel).getD []) k s.1.stores s'.1.stores) s := by
  unfold ingestUpload
  refine (wp_bind _ _ _).mpr ?_
  refine wp_read rfl (fun s₁ h₁ => ?_) fun _ _ h₁ => .inl h₁
  refine (wp_bind _ _ _).mpr ?_
  refine wp_read rfl (fun s₂ h₂ => ?_) fun _ _ h₂ => .inl (h₂.trans h₁)
  refine wp_then (wp_storeUploadedDocument rfl rfl (h₂.trans h₁)) (fun _ s₃ h₃ => ?_)
    fun _ _ hraised => hraised.imp_right fun h => ⟨0, h⟩
  have hrow : Left cfg documentId ((uploadChunks upload fuel).getD []) 0 s.1.stores s₃.1.stores := h₃
  rcases hkeeps : upload.uploadMode.keepsMemories with - | -
  · have hchunks : uploadChunks upload fuel = some [] := if_neg (Bool.eq_false_iff.mp hkeeps)
    rw [hchunks] at hrow ⊢
    rw [if_neg Bool.false_ne_true]
    exact wp_then (wp_finishUpload [] hrow) (fun _ _ _ => wp_of_done trivial)
      fun _ _ hleft => .inr ⟨_, hleft⟩
  · rw [if_pos rfl]
    have hchunks : uploadChunks upload fuel = chunkText upload.text upload.chunkSizeOrDefault
      (upload.chunkOverlap.getD 150) fuel := if_pos hkeeps
    rw [← hchunks]
    rcases hupload : uploadChunks upload fuel with - | chunks
    · exact wp_of_done trivial
    · rw [hupload] at hrow
      refine wp_then (wp_storeChunks hrow) (fun memoryIds s₄ h₄ => ?_) fun _ _ hleft => .inr hleft
      exact wp_then (wp_finishUpload memoryIds h₄) (fun _ _ _ => wp_of_done trivial)
        fun _ _ hleft => .inr ⟨_, hleft⟩

/-- A note for a conversation that is not the user's. -/
def strayNote : DocumentUpload where
  filename := "note.txt"
  contentType := some "text/plain"
  contentHash := "2cf24dba"
  text := "hello"
  currentUser := { id := "bob", email := "bob@example.com" }
  scope := "conversation"
  conversationId := some "support"

/-- Surroundings in which nothing fails. -/
def strayEnvironment : IngestEnvironment := ⟨fun _ => none, fun _ => ("fresh", 0), fun _ => bareContext⟩

/-- No document, memory or event. -/
def nothingStored : IngestWorld := ⟨⟨Catalog.empty, Catalog.empty, GraphOutbox.empty⟩, 0⟩

/-- Its upload. -/
def strayRun :=
  (ingestUpload ⟨bareContext.lib, true, true, true⟩ strayNote "doc-1" 3).run
    ((ingestHandler strayEnvironment).faulty fun _ => .none) (nothingStored, 0)

/-- The permission is checked after the row has been stored, and the row stays. -/
theorem ingestUpload_strayNote :
    ¬ ∀ cfg env faults upload documentId fuel,
      (ingestUpload cfg upload documentId fuel).wp ((ingestHandler env).faulty faults)
        (fun _ _ => True)
        (fun _ s' => s'.1.stores.documents.get documentId = none ∧
          (∀ chunk ∈ (uploadChunks upload fuel).getD [],
            s'.1.stores.memories.get (chunkMemoryId documentId chunk) = none) ∧
          ∀ event ∈ s'.1.stores.outbox.events, event.aggregateId ≠ strip documentId)
        (nothingStored, 0) := by
  intro hclaim
  obtain ⟨-, hleft⟩ := (wp_iff_run _ _).mp (hclaim ⟨bareContext.lib, true, true, true⟩
    strayEnvironment (fun _ => .none) strayNote "doc-1" 3)
  have hraised : strayRun.1.toOption.isNone := by decide +kernel
  have hrow : (strayRun.2.1.stores.documents.get "doc-1").isSome := by decide +kernel
  rcases hrun : strayRun with ⟨e | result, s'⟩
  · obtain ⟨habsent, -, -⟩ := hleft e s' hrun
    rw [hrun, habsent] at hrow
    cases hrow
  · rw [hrun] at hraised
    cases hraised

end DocumentIngestionService

end OpenAgency
