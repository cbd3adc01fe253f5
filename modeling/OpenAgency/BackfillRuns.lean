/-
BackfillRuns.lean

What a backfill leaves in the outbox.  Of each source only the keys and the
descriptions matter, and on these the service is a store that keeps the first row
of every key.  So a record is described as it is now if its description was in the
outbox already, or if a record with that description brings a key that neither
the outbox nor an earlier record of the run has.  An edit that leaves the key of a
record as it was is never seen.
-/
import OpenAgency.GraphBackfill

namespace OpenAgency

namespace Graph

open Interaction FirstWins Program List ProjectionDraft GraphOutbox

/-! ### Rows -/

/-- What a payload says, but for the instant of the backfill. -/
def describe : Json → Json
  | .obj fields => .obj (fields.filter (·.1 ≠ "backfilled_at"))
  | payload => payload

/-- The key and the description of an event of a source. -/
def rowOf (source : String) (event : GraphProjectionEvent) : Option (String × Json) :=
  if event.source = source then
    event.sourceEventId.map fun key => (key, describe event.payload)
  else none

/-- The rows of a source, in the order they were stored. -/
def rowsOf (source : String) (outbox : GraphOutbox) : List (String × Json) :=
  outbox.events.filterMap (rowOf source)

/-- The row a draft brings. -/
def ProjectionDraft.row (d : ProjectionDraft) : String × Json :=
  (d.sourceEventId, describe (.obj d.payload))

theorem describe_set (fields : Dict Json) (value : Json) :
    describe (.obj (Dict.set fields "backfilled_at" value)) = describe (.obj fields) := by
  have hset : (Dict.set fields "backfilled_at" value).filter (·.1 ≠ "backfilled_at")
      = fields.filter (·.1 ≠ "backfilled_at") := by
    induction fields with
    | nil => simp [Dict.set]
    | cons field fields ih =>
      obtain ⟨k, v⟩ := field
      by_cases hk : "backfilled_at" = k
      · subst hk
        simp [Dict.set]
      · rw [Dict.set, if_neg hk, filter_cons_of_pos (by simpa using Ne.symm hk),
          filter_cons_of_pos (by simpa using Ne.symm hk), ih]
  exact congrArg Json.obj hset

@[simp] theorem row_backfilledAt (d : ProjectionDraft) (now : Time) :
    (d.backfilledAt now).row = d.row := by
  show ((d.backfilledAt now).sourceEventId, describe _) = (d.sourceEventId, _)
  rw [backfilledAt, describe_set]

variable {outbox : GraphOutbox} {source key : String}

/-- The keys of a source are those under which an event is found. -/
theorem mem_keys_rowsOf :
    key ∈ (rowsOf source outbox).map Prod.fst ↔ (outbox.bySourceEvent source key).isSome := by
  rw [bySourceEvent, List.find?_isSome, rowsOf, mem_map]
  constructor
  · rintro ⟨⟨k, description⟩, hmem, rfl⟩
    obtain ⟨event, hevent, hrow⟩ := List.mem_filterMap.mp hmem
    refine ⟨event, hevent, ?_⟩
    rw [rowOf] at hrow
    split at hrow
    · obtain ⟨k', hk, hpair⟩ := Option.map_eq_some_iff.mp hrow
      cases hpair
      simpa using ⟨‹_›, hk⟩
    · cases hrow
  · rintro ⟨event, hevent, h⟩
    obtain ⟨hsource, hkey⟩ : event.source = source ∧ event.sourceEventId = some key := by
      simpa using h
    refine ⟨(key, describe event.payload), List.mem_filterMap.mpr ⟨event, hevent, ?_⟩, rfl⟩
    rw [rowOf, if_pos hsource, hkey]
    rfl

variable {source : String}

theorem mem_descriptions_rowsOf {description : Json}
    (h : description ∈ (rowsOf source outbox).map Prod.snd) :
    ∃ event ∈ outbox.events, event.source = source ∧ describe event.payload = description := by
  obtain ⟨row, hrow, rfl⟩ := List.mem_map.mp h
  obtain ⟨event, hevent, he⟩ := List.mem_filterMap.mp hrow
  refine ⟨event, hevent, ?_⟩
  rw [rowOf] at he
  split at he
  · obtain ⟨key, -, rfl⟩ := Option.map_eq_some_iff.mp he
    exact ⟨‹_›, rfl⟩
  · cases he

variable {event : GraphProjectionEvent}

/-- In an outbox whose events of a source all have keys, a description of it is in a row. -/
theorem descriptions_of_mem (hevent : event ∈ outbox.events) (hsource : event.source = source)
    (hkey : event.sourceEventId.isSome) :
    describe event.payload ∈ (rowsOf source outbox).map Prod.snd := by
  obtain ⟨key, hk⟩ := Option.isSome_iff_exists.mp hkey
  refine List.mem_map.mpr ⟨(key, describe event.payload), List.mem_filterMap.mpr
    ⟨event, hevent, ?_⟩, rfl⟩
  rw [rowOf, if_pos hsource, hk]
  rfl

/-! ### Appending -/

/-- Every stored event has a drawn id and a key. -/
def IdsDrawn (env : BackfillEnvironment) (w : BackfillWorld) : Prop :=
  ∀ event ∈ w.outbox.events,
    event.sourceEventId.isSome ∧ ∃ n, n < w.draws ∧ event.eventId = env.uuid4 n

/-- The canonical records stay, and so does every event found under a key. -/
structure Grows (env : BackfillEnvironment) (w w' : BackfillWorld) : Prop where
  workflows : w'.workflows = w.workflows
  memories : w'.memories = w.memories
  drawn : IdsDrawn env w'
  stored : ∀ {source key event}, w.outbox.bySourceEvent source key = some event →
    w'.outbox.bySourceEvent source key = some event

variable {env : BackfillEnvironment}

theorem Grows.refl {w : BackfillWorld} (h : IdsDrawn env w) : Grows env w w := ⟨rfl, rfl, h, id⟩

theorem Grows.trans {w w' w'' : BackfillWorld} (h : Grows env w w') (h' : Grows env w' w'') :
    Grows env w w'' :=
  ⟨h'.workflows.trans h.workflows, h'.memories.trans h.memories, h'.drawn,
    fun hk => h'.stored (h.stored hk)⟩

theorem Grows.isSome {w w' : BackfillWorld} (h : Grows env w w')
    (hk : (w.outbox.bySourceEvent source key).isSome) :
    (w'.outbox.bySourceEvent source key).isSome := by
  obtain ⟨event, he⟩ := Option.isSome_iff_exists.mp hk
  rw [h.stored he]
  rfl

/-- A draft whose event the validator refuses. -/
def ProjectionDraft.Blank (d : ProjectionDraft) : Prop :=
  strip d.eventType = "" ∨ strip d.aggregateType = "" ∨ strip d.aggregateId = ""

instance (d : ProjectionDraft) : Decidable d.Blank := inferInstanceAs (Decidable (_ ∨ _ ∨ _))

/-- A draft that a backfill makes: its source is written out and its key is not empty. -/
structure ProjectionDraft.Keyed (d : ProjectionDraft) : Prop where
  stripped : strip d.source = d.source
  source : d.source ≠ ""
  key : d.sourceEventId ≠ ""

/-- What appending a draft leaves. -/
structure Appended (env : BackfillEnvironment) (d : ProjectionDraft) (w : BackfillWorld)
    (event : GraphProjectionEvent) (w' : BackfillWorld) : Prop where
  grows : Grows env w w'
  found : w'.outbox.bySourceEvent d.source d.sourceEventId = some event
  rows : rowsOf d.source w'.outbox = add Prod.fst (rowsOf d.source w.outbox) d.row
  others : ∀ source ≠ d.source, rowsOf source w'.outbox = rowsOf source w.outbox
  settled : (w.outbox.bySourceEvent d.source d.sourceEventId).isSome → w'.outbox = w.outbox

theorem append_cases (outbox : GraphOutbox) {key : String} (hevent : event.sourceEventId = some key)
    (hkey : key ≠ "") :
    (∃ existing, outbox.bySourceEvent event.source key = some existing ∧
        InMemoryGraphProjectionEventRepository.append outbox event = (existing, outbox)) ∨
      (outbox.bySourceEvent event.source key = none ∧
        InMemoryGraphProjectionEventRepository.append outbox event
          = (event, outbox.put event)) := by
  rw [InMemoryGraphProjectionEventRepository.append, hevent]
  rcases h : outbox.bySourceEvent event.source key with - | existing
  · exact .inr ⟨rfl, by simp [hkey, h]⟩
  · exact .inl ⟨existing, rfl, by simp [hkey, h]⟩

theorem normalizeProjectionEvent_cases (d : ProjectionDraft) (hd : d.Keyed) (eventId : String)
    (occurredAt : Time) :
    (d.Blank ∧ ∃ e, normalizeProjectionEvent (d.event eventId occurredAt) = .error e) ∨
      (¬ d.Blank ∧ ∃ event, normalizeProjectionEvent (d.event eventId occurredAt) = .ok event ∧
        event.eventId = eventId ∧ event.source = d.source ∧
        event.sourceEventId = some d.sourceEventId ∧ event.payload = .obj d.payload) := by
  have hsource : (if strip d.source = "" then "application" else strip d.source) = d.source := by
    rw [hd.stripped, if_neg hd.source]
  by_cases ht : strip d.eventType = ""
  · refine .inl ⟨.inl ht, ⟨.validationError, "event_type is required"⟩, ?_⟩
    simp only [normalizeProjectionEvent, event, ht, if_true]
  by_cases ha : strip d.aggregateType = ""
  · refine .inl ⟨.inr (.inl ha), ⟨.validationError, "aggregate_type is required"⟩, ?_⟩
    simp only [normalizeProjectionEvent, event, ht, ha, if_true, if_false]
  by_cases hi : strip d.aggregateId = ""
  · refine .inl ⟨.inr (.inr hi), ⟨.validationError, "aggregate_id is required"⟩, ?_⟩
    simp only [normalizeProjectionEvent, event, ht, ha, hi, if_true, if_false]
  · refine .inr ⟨by simp [ProjectionDraft.Blank, ht, ha, hi], ?_⟩
    simp only [normalizeProjectionEvent, event, ht, ha, hi, if_false]
    exact ⟨_, rfl, rfl, hsource, rfl, rfl⟩

theorem find?_append_of_some {p : GraphProjectionEvent → Bool}
    {items rest : List GraphProjectionEvent} (h : items.find? p = some event) :
    (items ++ rest).find? p = some event := by
  rw [List.find?_append, h]
  rfl

variable {env : BackfillEnvironment} {lib : Library} {w : BackfillWorld} {d : ProjectionDraft}

variable {w' : BackfillWorld}

/-- Storing an event under a new id and a new key. -/
theorem appended_put (hids : IdsDrawn env w) (hid : event.eventId = env.uuid4 w.draws)
    (hsource : event.source = d.source) (hkey : event.sourceEventId = some d.sourceEventId)
    (hpayload : event.payload = .obj d.payload)
    (hnew : w.outbox.bySourceEvent d.source d.sourceEventId = none)
    (hworkflows : w'.workflows = w.workflows) (hmemories : w'.memories = w.memories)
    (hdraws : w'.draws = w.draws + 1) (houtbox : w'.outbox = w.outbox.put event) :
    Appended env d w event w' := by
  have hevents : w'.outbox.events = w.outbox.events ++ [event] := by
    rw [houtbox]
    apply putEvent_of_notMem
    rintro hmem
    obtain ⟨stored, hstored, he⟩ := List.mem_map.mp hmem
    obtain ⟨-, n, hn, hdrawn⟩ := hids stored hstored
    have hsame : env.uuid4 n = env.uuid4 w.draws := by rw [← hdrawn, he, hid]
    exact absurd (env.uuid4_injective hsame) (Nat.ne_of_lt hn)
  have hrows : ∀ source, rowsOf source w'.outbox
      = rowsOf source w.outbox ++ (rowOf source event).toList := by
    intro source
    rw [rowsOf, hevents, filterMap_append]
    rcases h : rowOf source event with - | row <;> simp [rowsOf, h]
  refine ⟨⟨hworkflows, hmemories, ?_, ?_⟩, ?_, ?_, ?_, ?_⟩
  · intro stored hstored
    rw [hevents, mem_append, mem_singleton] at hstored
    rcases hstored with hstored | rfl
    · obtain ⟨hsome, n, hn, he⟩ := hids stored hstored
      exact ⟨hsome, n, by omega, he⟩
    · exact ⟨by rw [hkey]; rfl, w.draws, by omega, hid⟩
  · intro source key stored h
    rw [bySourceEvent, hevents]
    exact find?_append_of_some h
  · rw [bySourceEvent, hevents, List.find?_append]
    rw [bySourceEvent] at hnew
    rw [hnew]
    simp [hsource, hkey]
  · have hnotMem : d.row.1 ∉ (rowsOf d.source w.outbox).map Prod.fst := by
      rw [mem_keys_rowsOf]
      simp [ProjectionDraft.row, hnew]
    rw [hrows, add_of_notMem hnotMem, rowOf, if_pos hsource, hkey, hpayload]
    rfl
  · intro source hne
    rw [hrows, rowOf, if_neg (by rw [hsource]; exact Ne.symm hne)]
    exact append_nil _
  · rw [hnew]
    exact fun h => absurd h (by simp)

/-- Appending finds the event that is there. -/
theorem appended_found (hfound : w.outbox.bySourceEvent d.source d.sourceEventId = some event)
    (hgrows : Grows env w w') (houtbox : w'.outbox = w.outbox) : Appended env d w event w' where
  grows := hgrows
  found := by rw [houtbox, hfound]
  rows := by
    have hmem : d.row.1 ∈ (rowsOf d.source w.outbox).map Prod.fst := by
      rw [mem_keys_rowsOf]
      simp [ProjectionDraft.row, hfound]
    rw [houtbox, add_of_mem hmem]
  others _ _ := by rw [houtbox]
  settled _ := houtbox

/-- Reading the clock and drawing ids keep everything. -/
theorem grows_of_drawn (hids : IdsDrawn env w) (hworkflows : w'.workflows = w.workflows)
    (hmemories : w'.memories = w.memories) (houtbox : w'.outbox = w.outbox)
    (hdraws : w.draws ≤ w'.draws) : Grows env w w' where
  workflows := hworkflows
  memories := hmemories
  drawn event hevent := by
    rw [houtbox] at hevent
    obtain ⟨hsome, n, hn, he⟩ := hids event hevent
    exact ⟨hsome, n, by omega, he⟩
  stored h := by rw [houtbox]; exact h

/-! ### Rules of the operations -/

section Rules

variable {E : RuntimeException → BackfillWorld → Prop}

theorem wp_uuid4 {Q : String → BackfillWorld → Prop}
    (h : Q (env.uuid4 w.draws) { w with draws := w.draws + 1 }) :
    uuid4.wp (backfillHandler env) Q E w := by
  exact wp_of_perform (S := BackfillSig) (o := .uuid4) h

theorem wp_utcNow {Q : Time → BackfillWorld → Prop}
    (h : Q (env.utcNow w.ticks) { w with ticks := w.ticks + 1 }) :
    utcNow.wp (backfillHandler env) Q E w := by
  exact wp_of_perform (S := BackfillSig) (o := .utcNow) h

theorem wp_listWorkflows {Q : List WorkflowRecord → BackfillWorld → Prop} (h : Q w.workflows w) :
    listWorkflows.wp (backfillHandler env) Q E w := by
  exact wp_of_perform (S := BackfillSig) (o := .listWorkflows) h

theorem wp_listMemories {Q : List MemoryRecord → BackfillWorld → Prop} (h : Q w.memories w) :
    listMemories.wp (backfillHandler env) Q E w := by
  exact wp_of_perform (S := BackfillSig) (o := .listMemories) h

theorem wp_append {Q : GraphProjectionEvent → BackfillWorld → Prop}
    {answer : GraphProjectionEvent × GraphOutbox}
    (happend : InMemoryGraphProjectionEventRepository.append w.outbox event = answer)
    (h : Q answer.1 { w with outbox := answer.2 }) :
    (append event).wp (backfillHandler env) Q E w := by
  subst happend
  exact wp_of_perform (S := BackfillSig) (o := .append event) h

end Rules

/-- **Appending one draft.**  It raises where the validator refuses the event, and leaves the
outbox as it was. -/
theorem wp_appendDraft (hids : IdsDrawn env w) (hd : d.Keyed) :
    (appendDraft d).wp (backfillHandler env) (fun event w' => ¬ d.Blank ∧ Appended env d w event w')
      (fun _ w' => d.Blank ∧ Grows env w w' ∧ w'.outbox = w.outbox) w := by
  rw [appendDraft, wp_bind]
  apply wp_uuid4
  rw [wp_bind]
  apply wp_utcNow
  rw [wp_bind]
  have hgrows : ∀ outbox, outbox = w.outbox →
      Grows env w ⟨w.workflows, w.memories, outbox, w.ticks + 1, w.draws + 1⟩ := fun outbox h =>
    grows_of_drawn hids rfl rfl h (Nat.le_succ w.draws)
  rcases normalizeProjectionEvent_cases d hd (env.uuid4 w.draws) (env.utcNow w.ticks) with
    ⟨hblank, e, he⟩ | ⟨hblank, event, he, hid, hsource, hkey, hpayload⟩
  · rw [he, wp_ofExcept_error]
    exact ⟨hblank, hgrows w.outbox rfl, rfl⟩
  · rw [he, wp_ofExcept_ok]
    rcases append_cases w.outbox hkey hd.key with
      ⟨existing, hfound, happend⟩ | ⟨hnew, happend⟩
    · rw [hsource] at hfound
      exact wp_append happend ⟨hblank, appended_found hfound (hgrows w.outbox rfl) rfl⟩
    · rw [hsource] at hnew
      exact wp_append happend
        ⟨hblank, appended_put hids hid hsource hkey hpayload hnew rfl rfl rfl rfl⟩

theorem wp_appendBackfilled (hids : IdsDrawn env w) (hd : d.Keyed) :
    (appendBackfilled d).wp (backfillHandler env)
      (fun event w' => ¬ d.Blank ∧ Appended env d w event w')
      (fun _ w' => d.Blank ∧ Grows env w w' ∧ w'.outbox = w.outbox) w := by
  rw [appendBackfilled, wp_bind]
  apply wp_utcNow
  have hticked : Grows env w { w with ticks := w.ticks + 1 } :=
    grows_of_drawn hids rfl rfl rfl (Nat.le_refl w.draws)
  have hd' : (d.backfilledAt (env.utcNow w.ticks)).Keyed := ⟨hd.stripped, hd.source, hd.key⟩
  apply wp_mono (wp_appendDraft hticked.drawn hd')
  · rintro event w' ⟨hblank, happended⟩
    refine ⟨hblank, hticked.trans happended.grows, happended.found, ?_, happended.others,
      happended.settled⟩
    rw [← row_backfilledAt d (env.utcNow w.ticks)]
    exact happended.rows
  · rintro e w' ⟨hblank, hgrows, houtbox⟩
    exact ⟨hblank, hticked.trans hgrows, houtbox⟩

/-! ### One domain -/

/-- What a domain leaves that appended these drafts under its source. -/
structure Filled (env : BackfillEnvironment) (source : String) (drafts : List ProjectionDraft)
    (w w' : BackfillWorld) : Prop where
  grows : Grows env w w'
  rows : rowsOf source w'.outbox
    = addAll Prod.fst (rowsOf source w.outbox) (drafts.map ProjectionDraft.row)
  others : ∀ other ≠ source, other ≠ entitySource → rowsOf other w'.outbox = rowsOf other w.outbox

theorem Filled.nil (hids : IdsDrawn env w) : Filled env source [] w w :=
  ⟨Grows.refl hids, rfl, fun _ _ _ => rfl⟩

variable {w' w'' : BackfillWorld}

/-- One more draft in front. -/
theorem Filled.cons {drafts : List ProjectionDraft} (hgrows : Grows env w w')
    (hrows : rowsOf source w'.outbox = add Prod.fst (rowsOf source w.outbox) d.row)
    (hothers : ∀ other ≠ source, other ≠ entitySource →
      rowsOf other w'.outbox = rowsOf other w.outbox) (h : Filled env source drafts w' w'') :
    Filled env source (d :: drafts) w w'' where
  grows := hgrows.trans h.grows
  rows := by rw [h.rows, hrows, map_cons, addAll_cons]
  others other hne hentity := (h.others other hne hentity).trans (hothers other hne hentity)

variable {α : Type}

/-- Appending the drafts of a list: it raises at the first one that the validator refuses. -/
theorem wp_collect_drafts (source : String) (draft : α → ProjectionDraft)
    {f : α → Backfill (List GraphProjectionEvent)} {P : α → BackfillWorld → Prop}
    (hP : ∀ {a w w'}, Grows env w w' → P a w → P a w')
    (hstep : ∀ a w, IdsDrawn env w →
      (f a).wp (backfillHandler env) (fun _ w' => ¬ (draft a).Blank ∧ Grows env w w' ∧
      rowsOf source w'.outbox = add Prod.fst (rowsOf source w.outbox) (draft a).row ∧
      (∀ other ≠ source, other ≠ entitySource →
      rowsOf other w'.outbox = rowsOf other w.outbox) ∧ P a w') (fun _ w' => (draft a).Blank ∧
      Grows env w w') w) (items : List α) (hids : IdsDrawn env w) :
    (Program.collect f items).wp (backfillHandler env)
      (fun _ w' => (∀ a ∈ items, ¬ (draft a).Blank) ∧ Filled env source (items.map draft) w w' ∧
        ∀ a ∈ items, P a w')
      (fun _ w' => (∃ a ∈ items, (draft a).Blank) ∧ Grows env w w') w := by
  induction items generalizing w with
  | nil => exact wp_of_done ⟨by simp, Filled.nil hids, by simp⟩
  | cons a items ih =>
    rw [Program.collect]
    apply wp_then (hstep a w hids)
    · rintro events w' ⟨hblank, hgrows, hrows, hothers, hPa⟩
      apply wp_then (ih hgrows.drawn)
      · rintro rest w'' ⟨hblanks, hfilled, hPs⟩
        refine wp_of_done ⟨?_, Filled.cons hgrows hrows hothers hfilled, ?_⟩
        · exact List.forall_mem_cons.mpr ⟨hblank, hblanks⟩
        · exact List.forall_mem_cons.mpr ⟨hP hfilled.grows hPa, hPs⟩
      · rintro e w'' ⟨⟨b, hb, hblank'⟩, hgrows'⟩
        exact ⟨⟨b, mem_cons_of_mem a hb, hblank'⟩, hgrows.trans hgrows'⟩
    · rintro e w' ⟨hblank, hgrows⟩
      exact ⟨⟨a, mem_cons_self, hblank⟩, hgrows⟩

variable {draft : α → ProjectionDraft}

theorem wp_backfillItems (hsource : ∀ a, (draft a).source = source) (hkeyed : ∀ a, (draft a).Keyed)
    (items : List α) (hids : IdsDrawn env w) :
    (backfillItems draft items).wp (backfillHandler env)
      (fun _ w' => (∀ a ∈ items, ¬ (draft a).Blank) ∧ Filled env source (items.map draft) w w')
      (fun _ w' => (∃ a ∈ items, (draft a).Blank) ∧ Grows env w w') w := by
  rw [backfillItems]
  apply wp_then (wp_collect_drafts (P := fun _ _ => True) source draft (fun _ h => h) ?_
    items hids)
  · rintro events w' ⟨hblanks, hfilled, -⟩
    exact wp_of_done ⟨hblanks, hfilled⟩
  · exact fun e w' h => h
  · intro a w hids
    apply wp_then (wp_appendBackfilled hids (hkeyed a))
    · rintro event w' ⟨hblank, happended⟩
      refine wp_of_done ⟨hblank, happended.grows, ?_, ?_, trivial⟩
      · rw [← hsource a]
        exact happended.rows
      · intro other hne _
        exact happended.others other (by rw [hsource a]; exact hne)
    · rintro e w' ⟨hblank, hgrows, -⟩
      exact ⟨hblank, hgrows⟩

/-! ### Memories and their entities -/

/-- The event of a memory is there, and that of its entities under the id of it. -/
def EntitiesStored (lib : Library) (memory : MemoryRecord) (w : BackfillWorld) : Prop :=
  ∃ event, w.outbox.bySourceEvent (memoryDraft lib memory).source
      (memoryDraft lib memory).sourceEventId = some event ∧
    (lib.extract (.obj (memoryPayload lib memory)) ≠ [] →
      (w.outbox.bySourceEvent entitySource event.eventId).isSome)

variable {memory : MemoryRecord}

theorem EntitiesStored.grows (hgrows : Grows env w w') (h : EntitiesStored lib memory w) :
    EntitiesStored lib memory w' := by
  obtain ⟨event, hfound, hentities⟩ := h
  exact ⟨event, hgrows.stored hfound, fun hne => hgrows.isSome (hentities hne)⟩

/-- Ids that are drawn are not empty. -/
theorem eventId_ne_of_drawn (hids : IdsDrawn env w)
    (h : w.outbox.bySourceEvent source key = some event) :
    event.eventId ≠ "" := by
  obtain ⟨-, n, -, he⟩ := hids event (mem_of_find?_eq_some h)
  rw [he]
  exact env.uuid4_ne n

/-! ### Keys -/

theorem append_ne {s : String} (hs : s ≠ "") (t : String) : s ++ t ≠ "" :=
  fun h => hs (String.append_eq_empty_iff.mp h).1

theorem BackfillDomain.strip_source (domain : BackfillDomain) :
    strip domain.source = domain.source := by
  cases domain <;> decide +kernel

theorem BackfillDomain.source_ne (domain : BackfillDomain) : domain.source ≠ "" := by
  cases domain <;> decide

theorem BackfillDomain.source_ne_entitySource (domain : BackfillDomain) :
    domain.source ≠ entitySource := by
  cases domain <;> decide

theorem BackfillDomain.source_injective : Function.Injective BackfillDomain.source := by
  intro a b
  cases a <;> cases b <;> decide

/-- A draft of a domain whose key is not empty. -/
theorem keyed_of_domain {d : ProjectionDraft} (domain : BackfillDomain)
    (hsource : d.source = domain.source) (hkey : d.sourceEventId ≠ "") : d.Keyed :=
  ⟨by rw [hsource, domain.strip_source], by rw [hsource]; exact domain.source_ne, hkey⟩

theorem keyed_workflowDraft (workflow : WorkflowRecord) : (workflowDraft workflow).Keyed := by
  apply keyed_of_domain .workflows rfl
  iterate 3 refine append_ne ?_ _
  decide

theorem keyed_linkDraft (l : MemoryLink) : (linkDraft lib l).Keyed := by
  apply keyed_of_domain .workflowMemoryLinks rfl
  iterate 3 refine append_ne ?_ _
  decide

theorem keyed_memoryDraft (memory : MemoryRecord) : (memoryDraft lib memory).Keyed := by
  apply keyed_of_domain .memories rfl
  iterate 3 refine append_ne ?_ _
  decide

theorem keyed_documentDraft (document : String × List MemoryRecord) :
    (documentDraft lib document).Keyed := by
  apply keyed_of_domain .documents rfl
  iterate 3 refine append_ne ?_ _
  decide

theorem keyed_graphHintsDraft (memory : MemoryRecord) : (graphHintsDraft lib memory).Keyed := by
  apply keyed_of_domain .sourceIntelligenceGraphHints rfl
  iterate 3 refine append_ne ?_ _
  decide

variable {sourceEventId : String}

theorem keyed_entityDraft (lib : Library) (memory : MemoryRecord) (candidates : List Json)
    (h : sourceEventId ≠ "") : (entityDraft lib memory candidates sourceEventId).Keyed where
  stripped := by
    show strip entitySource = entitySource
    decide +kernel
  source := by
    show entitySource ≠ ""
    decide
  key := h

/-- A memory's entities have the memory's own id for their aggregate. -/
theorem blank_of_blank_entityDraft {candidates : List Json}
    (h : (entityDraft lib memory candidates sourceEventId).Blank) :
    (memoryDraft lib memory).Blank := by
  rcases h with h | h | h
  · exact absurd h (show strip "memory.entities.extracted" ≠ "" by decide +kernel)
  · exact absurd h (show strip "memory" ≠ "" by decide +kernel)
  · exact .inr (.inr h)

/-- The event of the entities, where the extractor finds some. -/
theorem wp_appendMemoryEntities (memory : MemoryRecord) (hids : IdsDrawn env w)
    (hne : sourceEventId ≠ "") :
    (appendMemoryEntities lib memory sourceEventId).wp (backfillHandler env)
      (fun _ w' => Grows env w w' ∧
        (∀ other ≠ entitySource, rowsOf other w'.outbox = rowsOf other w.outbox) ∧
        (lib.extract (.obj (memoryPayload lib memory)) ≠ [] →
          (w'.outbox.bySourceEvent entitySource sourceEventId).isSome) ∧
        ((lib.extract (.obj (memoryPayload lib memory)) ≠ [] →
          (w.outbox.bySourceEvent entitySource sourceEventId).isSome) → w'.outbox = w.outbox))
      (fun _ w' => (memoryDraft lib memory).Blank ∧ Grows env w w' ∧ w'.outbox = w.outbox) w := by
  rw [appendMemoryEntities]
  rcases h : lib.extract (.obj (memoryPayload lib memory)) with - | ⟨candidate, candidates⟩
  · exact wp_of_done ⟨Grows.refl hids, fun _ _ => rfl, fun hne => absurd rfl hne,
      fun _ => rfl⟩
  · simp only
    apply wp_then (wp_appendDraft hids (keyed_entityDraft lib memory (candidate :: candidates) hne))
    · rintro event w' ⟨-, happended⟩
      refine wp_of_done ⟨happended.grows, happended.others, fun _ => ?_, fun hset => ?_⟩
      · have hfound : w'.outbox.bySourceEvent entitySource sourceEventId = some event :=
          happended.found
        rw [hfound]
        rfl
      · exact happended.settled (hset (cons_ne_nil _ _))
    · rintro e w' ⟨hblank, hgrows, houtbox⟩
      exact ⟨blank_of_blank_entityDraft hblank, hgrows, houtbox⟩

theorem wp_backfillMemory (memory : MemoryRecord) (hids : IdsDrawn env w) :
    (backfillMemory lib memory).wp (backfillHandler env)
      (fun _ w' => ¬ (memoryDraft lib memory).Blank ∧ Grows env w w' ∧
        rowsOf BackfillDomain.memories.source w'.outbox
          = add Prod.fst (rowsOf BackfillDomain.memories.source w.outbox)
              (memoryDraft lib memory).row ∧
        (∀ other ≠ BackfillDomain.memories.source, other ≠ entitySource →
          rowsOf other w'.outbox = rowsOf other w.outbox) ∧
        EntitiesStored lib memory w')
      (fun _ w' => (memoryDraft lib memory).Blank ∧ Grows env w w') w := by
  rw [backfillMemory]
  apply wp_then (wp_appendBackfilled hids (keyed_memoryDraft memory))
  · rintro event w₁ ⟨hblank, happended⟩
    have hids₁ := happended.grows.drawn
    apply wp_then (wp_appendMemoryEntities memory hids₁ (eventId_ne_of_drawn hids₁ happended.found))
    · rintro entities w' ⟨hgrows, hothers, hentities, -⟩
      refine wp_of_done ⟨hblank, happended.grows.trans hgrows, ?_, ?_, ?_⟩
      · rw [hothers _ BackfillDomain.memories.source_ne_entitySource]
        exact happended.rows
      · intro other hne hentity
        rw [hothers other hentity]
        exact happended.others other hne
      · exact ⟨event, hgrows.stored happended.found, hentities⟩
    · rintro e w' ⟨hblank', -, -⟩
      exact absurd hblank' hblank
  · rintro e w' ⟨hblank, hgrows, -⟩
    exact ⟨hblank, hgrows⟩

/-! ### The domains of a backfill -/

/-- The drafts of a domain's records, in the order in which a backfill scans them. -/
def domainDrafts (lib : Library) (limit : ℤ) (w : BackfillWorld) :
    BackfillDomain → List ProjectionDraft
  | .workflows => (upTo limit w.workflows).map workflowDraft
  | .workflowMemoryLinks => (upTo limit (scannedLinks w.workflows)).map (linkDraft lib)
  | .memories => (upTo limit w.memories).map (memoryDraft lib)
  | .documents => (upTo limit (documentGroups w.memories)).map (documentDraft lib)
  | .sourceIntelligenceGraphHints =>
    ((upTo limit w.memories).filter hasApprovedHints).map (graphHintsDraft lib)

/-- The entities that go with a domain's events. -/
def DomainEntities (lib : Library) (limit : ℤ) (w w' : BackfillWorld) :
    BackfillDomain → Prop
  | .memories => ∀ memory ∈ upTo limit w.memories, EntitiesStored lib memory w'
  | _ => True

theorem wp_items (domain : BackfillDomain) (hsource : ∀ a, (draft a).source = domain.source)
    (hkeyed : ∀ a, (draft a).Keyed) (items : List α) (hids : IdsDrawn env w) :
    (backfillItems draft items).wp (backfillHandler env)
      (fun _ w' => (∀ d ∈ items.map draft, ¬ d.Blank) ∧
        Filled env domain.source (items.map draft) w w')
      (fun _ w' => (∃ d ∈ items.map draft, d.Blank) ∧ Grows env w w') w := by
  apply wp_mono (wp_backfillItems hsource hkeyed items hids)
  · rintro counts w' ⟨hblanks, hfilled⟩
    exact ⟨List.forall_mem_map.mpr hblanks, hfilled⟩
  · rintro e w' ⟨⟨a, ha, hblank⟩, hgrows⟩
    exact ⟨⟨draft a, mem_map_of_mem ha, hblank⟩, hgrows⟩

/-- **One domain.**  It appends the drafts of its records, or raises because of one of them. -/
theorem wp_backfillDomain (limit : ℤ) (domain : BackfillDomain) (hids : IdsDrawn env w) :
    (backfillDomain lib limit domain).wp (backfillHandler env)
      (fun _ w' => (∀ d ∈ domainDrafts lib limit w domain, ¬ d.Blank) ∧
        Filled env domain.source (domainDrafts lib limit w domain) w w' ∧
        DomainEntities lib limit w w' domain)
      (fun _ w' => (∃ d ∈ domainDrafts lib limit w domain, d.Blank) ∧ Grows env w w') w := by
  have hadd : ∀ {p : Backfill DomainCounts} {drafts : List ProjectionDraft},
      p.wp (backfillHandler env)
        (fun _ w' => (∀ d ∈ drafts, ¬ d.Blank) ∧ Filled env domain.source drafts w w')
        (fun _ w' => (∃ d ∈ drafts, d.Blank) ∧ Grows env w w') w →
      p.wp (backfillHandler env)
        (fun _ w' => (∀ d ∈ drafts, ¬ d.Blank) ∧ Filled env domain.source drafts w w' ∧ True)
        (fun _ w' => (∃ d ∈ drafts, d.Blank) ∧ Grows env w w') w := fun h =>
    wp_mono h (fun _ _ h => ⟨h.1, h.2, trivial⟩) fun _ _ h => h
  cases domain with
  | workflows =>
    apply hadd
    rw [backfillDomain, backfillWorkflows, wp_bind]
    exact wp_listWorkflows (wp_items .workflows (fun _ => rfl) keyed_workflowDraft _ hids)
  | workflowMemoryLinks =>
    apply hadd
    rw [backfillDomain, backfillWorkflowMemoryLinks, wp_bind]
    exact wp_listWorkflows (wp_items .workflowMemoryLinks (fun _ => rfl) keyed_linkDraft _ hids)
  | memories =>
    rw [backfillDomain, backfillMemories, wp_bind]
    apply wp_listMemories
    apply wp_then (wp_collect_drafts (P := EntitiesStored lib) _ (memoryDraft lib)
      EntitiesStored.grows (fun memory w hids => wp_backfillMemory memory hids)
      (upTo limit w.memories) hids)
    · rintro events w' ⟨hblanks, hfilled, hentities⟩
      exact wp_of_done ⟨List.forall_mem_map.mpr hblanks, hfilled, hentities⟩
    · rintro e w' ⟨⟨memory, hmemory, hblank⟩, hgrows⟩
      exact ⟨⟨_, mem_map_of_mem hmemory, hblank⟩, hgrows⟩
  | documents =>
    apply hadd
    rw [backfillDomain, backfillDocuments, wp_bind]
    exact wp_listMemories (wp_items .documents (fun _ => rfl) keyed_documentDraft _ hids)
  | sourceIntelligenceGraphHints =>
    apply hadd
    rw [backfillDomain, backfillSourceIntelligenceGraphHints, wp_bind]
    apply wp_listMemories
    apply wp_then (wp_items .sourceIntelligenceGraphHints (fun _ => rfl)
      keyed_graphHintsDraft _ hids)
    · exact fun counts w' h => wp_of_done h
    · exact fun e w' h => h

/-! ### A whole backfill -/

theorem domainDrafts_grows (h : Grows env w w') (limit : ℤ) (domain : BackfillDomain) :
    domainDrafts lib limit w' domain = domainDrafts lib limit w domain := by
  cases domain <;> simp only [domainDrafts, h.workflows, h.memories]

variable {limit : ℤ} {domain : BackfillDomain}

theorem domainEntities_grows (h : Grows env w' w'')
    (hentities : DomainEntities lib limit w w' domain) :
    DomainEntities lib limit w w'' domain := by
  cases domain with
  | memories => exact fun memory hmemory => (hentities memory hmemory).grows h
  | _ => trivial

theorem domainEntities_of_grows (h : Grows env w w')
    (hentities : DomainEntities lib limit w' w'' domain) :
    DomainEntities lib limit w w'' domain := by
  cases domain with
  | memories =>
    intro memory hmemory
    rw [← h.memories] at hmemory
    exact hentities memory hmemory
  | _ => trivial

/-- What the domains of a backfill leave. -/
structure AllFilled (env : BackfillEnvironment) (lib : Library) (limit : ℤ)
    (domains : List BackfillDomain) (w w' : BackfillWorld) : Prop where
  grows : Grows env w w'
  named : ∀ domain ∈ domains, ∀ d ∈ domainDrafts lib limit w domain, ¬ d.Blank
  rows : ∀ domain ∈ domains, rowsOf domain.source w'.outbox
    = addAll Prod.fst (rowsOf domain.source w.outbox)
        ((domainDrafts lib limit w domain).map ProjectionDraft.row)
  entities : ∀ domain ∈ domains, DomainEntities lib limit w w' domain
  others : ∀ domain ∉ domains, rowsOf domain.source w'.outbox = rowsOf domain.source w.outbox

variable {domains : List BackfillDomain}

/-- One domain more in front. -/
theorem AllFilled.cons (hnodup : domain ∉ domains)
    (hnamed : ∀ d ∈ domainDrafts lib limit w domain, ¬ d.Blank)
    (hfilled : Filled env domain.source (domainDrafts lib limit w domain) w w')
    (hentities : DomainEntities lib limit w w' domain)
    (h : AllFilled env lib limit domains w' w'') :
    AllFilled env lib limit (domain :: domains) w w'' := by
  have hother : ∀ other ≠ domain,
      rowsOf other.source w'.outbox = rowsOf other.source w.outbox := fun other hne =>
    hfilled.others _ (fun e => hne (BackfillDomain.source_injective e))
      other.source_ne_entitySource
  have hne : ∀ other ∈ domains, other ≠ domain := fun other hmem e => hnodup (e ▸ hmem)
  refine ⟨hfilled.grows.trans h.grows, ?_, ?_, ?_, ?_⟩
  · refine List.forall_mem_cons.mpr ⟨hnamed, fun other hmem => ?_⟩
    rw [← domainDrafts_grows hfilled.grows]
    exact h.named other hmem
  · refine List.forall_mem_cons.mpr ⟨?_, fun other hmem => ?_⟩
    · rw [h.others domain hnodup]
      exact hfilled.rows
    · rw [h.rows other hmem, domainDrafts_grows hfilled.grows, hother other (hne other hmem)]
  · refine List.forall_mem_cons.mpr ⟨domainEntities_grows h.grows hentities, fun other hmem => ?_⟩
    exact domainEntities_of_grows hfilled.grows (h.entities other hmem)
  · intro other hmem
    rw [mem_cons, not_or] at hmem
    rw [h.others other hmem.2, hother other hmem.1]

theorem wp_backfillDomains (limit : ℤ) (hnodup : domains.Nodup) (hids : IdsDrawn env w) :
    (Program.collect (fun domain => do
        let counts ← backfillDomain lib limit domain
        Program.done [(domain.name, counts)]) domains).wp (backfillHandler env)
      (fun _ w' => AllFilled env lib limit domains w w')
      (fun _ w' => (∃ domain ∈ domains, ∃ d ∈ domainDrafts lib limit w domain, d.Blank) ∧
        Grows env w w') w := by
  induction domains generalizing w with
  | nil =>
    exact wp_of_done ⟨Grows.refl hids, by simp, by simp, by simp, fun _ _ => rfl⟩
  | cons domain domains ih =>
    obtain ⟨hnotMem, hnodup⟩ := List.nodup_cons.mp hnodup
    rw [Program.collect, wp_bind]
    apply wp_then (wp_backfillDomain limit domain hids)
    · rintro counts w' ⟨hnamed, hfilled, hentities⟩
      rw [wp_done]
      apply wp_then (ih hnodup hfilled.grows.drawn)
      · exact fun rest w'' h =>
          wp_of_done (AllFilled.cons hnotMem hnamed hfilled hentities h)
      · rintro e w'' ⟨⟨other, hmem, d, hd, hblank⟩, hgrows⟩
        rw [domainDrafts_grows hfilled.grows] at hd
        exact ⟨⟨other, mem_cons_of_mem domain hmem, d, hd, hblank⟩,
          hfilled.grows.trans hgrows⟩
    · rintro e w' ⟨⟨d, hd, hblank⟩, hgrows⟩
      exact ⟨⟨domain, mem_cons_self, d, hd, hblank⟩, hgrows⟩

/-- The domains that a backfill selects. -/
def selectedDomains (domains : Option (List String)) : List BackfillDomain :=
  BackfillDomain.all.filter fun domain => domain.name ∈ normalizeDomains domains

theorem nodup_selectedDomains (domains : Option (List String)) :
    (selectedDomains domains).Nodup := List.Nodup.filter _ (by decide)

theorem wp_backfill (lib : Library) (domains : Option (List String)) (limit : ℤ) (hids : IdsDrawn env w) :
    (backfill lib domains limit).wp (backfillHandler env)
      (fun _ w' => AllFilled env lib limit (selectedDomains domains) w w')
      (fun _ w' => (∃ domain ∈ selectedDomains domains,
        ∃ d ∈ domainDrafts lib limit w domain, d.Blank) ∧ Grows env w w') w :=
  wp_backfillDomains limit (nodup_selectedDomains domains) hids

/-! ### A second backfill -/

/-- Everything a backfill of a domain would append is there. -/
def Settled (lib : Library) (limit : ℤ) (w : BackfillWorld) (domain : BackfillDomain) : Prop :=
  (∀ d ∈ domainDrafts lib limit w domain,
    (w.outbox.bySourceEvent d.source d.sourceEventId).isSome) ∧
  DomainEntities lib limit w w domain

/-- The world but for the clock and the ids drawn. -/
def SameOutbox (env : BackfillEnvironment) (w w' : BackfillWorld) : Prop :=
  Grows env w w' ∧ w'.outbox = w.outbox

theorem SameOutbox.trans (h : SameOutbox env w w') (h' : SameOutbox env w' w'') :
    SameOutbox env w w'' :=
  ⟨h.1.trans h'.1, h'.2.trans h.2⟩

/-- Whether it returns or raises, the program appends nothing. -/
abbrev KeepsOutbox (env : BackfillEnvironment) (w : BackfillWorld) {α : Type} (p : Backfill α) :
    Prop :=
  p.wp (backfillHandler env) (fun _ => SameOutbox env w) (fun _ => SameOutbox env w) w

theorem KeepsOutbox.map {α β : Type} {p : Backfill α} (h : KeepsOutbox env w p) (g : α → β) :
    KeepsOutbox env w (p >>= fun a => .done (g a)) :=
  (wp_bind ..).mpr (wp_mono h (fun _ _ h => wp_of_done h) fun _ _ h => h)

theorem wp_appendBackfilled_settled (hids : IdsDrawn env w) (hd : d.Keyed)
    (hsome : (w.outbox.bySourceEvent d.source d.sourceEventId).isSome) :
    (appendBackfilled d).wp (backfillHandler env)
      (fun event w' => w.outbox.bySourceEvent d.source d.sourceEventId = some event ∧
        SameOutbox env w w') (fun _ w' => SameOutbox env w w') w := by
  apply wp_mono (wp_appendBackfilled hids hd)
  · rintro event w' ⟨-, happended⟩
    have houtbox := happended.settled hsome
    exact ⟨houtbox ▸ happended.found, happended.grows, houtbox⟩
  · rintro e w' ⟨-, hgrows, houtbox⟩
    exact ⟨hgrows, houtbox⟩

/-- A loop whose every step finds what it would append. -/
theorem wp_collect_settled {α β : Type} {f : α → Backfill (List β)} {items : List α}
    (hids : IdsDrawn env w)
    (hstep : ∀ a ∈ items, ∀ w', SameOutbox env w w' → KeepsOutbox env w' (f a)) :
    KeepsOutbox env w (Program.collect f items) := by
  have hloop := wp_collect (H := backfillHandler env) (f := f)
    (I := fun rest w' => (∀ a ∈ rest, a ∈ items) ∧ SameOutbox env w w')
    (E := fun _ w' => SameOutbox env w w') (s := w) ?_
    ⟨fun _ h => h, Grows.refl hids, rfl⟩
  · exact wp_post hloop (fun _ _ h => h.2)
  · rintro a rest w' ⟨hrest, hsame⟩
    apply wp_mono (hstep a (hrest a mem_cons_self) w' hsame)
    · exact fun _ w'' h => ⟨fun b hb => hrest b (mem_cons_of_mem a hb), hsame.trans h⟩
    · exact fun _ w'' h => hsame.trans h

theorem wp_items_settled (hkeyed : ∀ a, (draft a).Keyed) (items : List α) (hids : IdsDrawn env w)
    (hsome : ∀ d ∈ items.map draft, (w.outbox.bySourceEvent d.source d.sourceEventId).isSome) :
    KeepsOutbox env w (backfillItems draft items) := by
  refine KeepsOutbox.map (wp_collect_settled hids fun a ha w' hsame => ?_) _
  rw [KeepsOutbox]
  refine wp_seq (wp_appendBackfilled_settled hsame.1.drawn (hkeyed a) ?_)
    fun event w'' h => wp_of_done h.2
  rw [hsame.2]
  exact hsome _ (mem_map_of_mem ha)

theorem wp_backfillMemory_settled (hids : IdsDrawn env w) (h : EntitiesStored lib memory w) :
    KeepsOutbox env w (backfillMemory lib memory) := by
  obtain ⟨stored, hfound, hentities⟩ := h
  rw [backfillMemory, KeepsOutbox]
  apply wp_then (wp_appendBackfilled_settled hids (keyed_memoryDraft memory) (by rw [hfound]; rfl))
  · rintro event w₁ ⟨hevent, hsame⟩
    obtain rfl : stored = event := Option.some.inj (hfound.symm.trans hevent)
    have hids₁ := hsame.1.drawn
    apply wp_then (wp_appendMemoryEntities memory hids₁ (eventId_ne_of_drawn hids hfound))
    · rintro entities w' ⟨hgrows, -, -, hsettled⟩
      refine wp_of_done (hsame.trans ⟨hgrows, hsettled fun hne => ?_⟩)
      rw [hsame.2]
      exact hentities hne
    · rintro e w' ⟨-, hgrows, houtbox⟩
      exact hsame.trans ⟨hgrows, houtbox⟩
  · exact fun e w' h => h

/-- A domain all of whose drafts are there appends nothing. -/
theorem wp_backfillDomain_settled (limit : ℤ) (domain : BackfillDomain) (hids : IdsDrawn env w)
    (h : Settled lib limit w domain) :
    KeepsOutbox env w (backfillDomain lib limit domain) := by
  obtain ⟨hsome, hentities⟩ := h
  rw [KeepsOutbox]
  cases domain with
  | workflows =>
    rw [backfillDomain, backfillWorkflows, wp_bind]
    exact wp_listWorkflows (wp_items_settled keyed_workflowDraft _ hids hsome)
  | workflowMemoryLinks =>
    rw [backfillDomain, backfillWorkflowMemoryLinks, wp_bind]
    exact wp_listWorkflows (wp_items_settled keyed_linkDraft _ hids hsome)
  | memories =>
    rw [backfillDomain, backfillMemories, wp_bind]
    apply wp_listMemories
    refine KeepsOutbox.map (wp_collect_settled hids fun memory hmemory w' hsame => ?_) _
    exact wp_backfillMemory_settled hsame.1.drawn ((hentities memory hmemory).grows hsame.1)
  | documents =>
    rw [backfillDomain, backfillDocuments, wp_bind]
    exact wp_listMemories (wp_items_settled keyed_documentDraft _ hids hsome)
  | sourceIntelligenceGraphHints =>
    rw [backfillDomain, backfillSourceIntelligenceGraphHints, wp_bind]
    apply wp_listMemories
    exact KeepsOutbox.map (wp_items_settled keyed_graphHintsDraft _ hids hsome) _

theorem Settled.same (h : Settled lib limit w domain) (hsame : SameOutbox env w w') :
    Settled lib limit w' domain := by
  refine ⟨?_, ?_⟩
  · rw [domainDrafts_grows hsame.1, hsame.2]
    exact h.1
  · have hentities := domainEntities_grows hsame.1 h.2
    cases domain with
    | memories =>
      intro memory hmemory
      rw [hsame.1.memories] at hmemory
      exact hentities memory hmemory
    | _ => trivial

/-- **A backfill that finds everything.**  It leaves the outbox as it is. -/
theorem wp_backfill_settled (lib : Library) (domains : Option (List String)) (limit : ℤ) (hids : IdsDrawn env w)
    (h : ∀ domain, Settled lib limit w domain) :
    KeepsOutbox env w (backfill lib domains limit) := by
  refine wp_collect_settled hids fun domain _ w' hsame => ?_
  exact .map (wp_backfillDomain_settled limit domain hsame.1.drawn ((h domain).same hsame)) _

/-! ### Fresh and idempotent -/

/-- The drafts of all records of a domain. -/
def recordDrafts (lib : Library) (w : BackfillWorld) : BackfillDomain → List ProjectionDraft
  | .workflows => w.workflows.map workflowDraft
  | .workflowMemoryLinks => (scannedLinks w.workflows).map (linkDraft lib)
  | .memories => w.memories.map (memoryDraft lib)
  | .documents => (documentGroups w.memories).map (documentDraft lib)
  | .sourceIntelligenceGraphHints => (w.memories.filter hasApprovedHints).map (graphHintsDraft lib)

/-- The domains of the canonical records. -/
def recordDomains : List BackfillDomain := [.workflows, .workflowMemoryLinks, .memories, .documents]

/-- The limit is at least the number of records of each domain. -/
structure Reaches (limit : ℤ) (w : BackfillWorld) : Prop where
  workflows : w.workflows.length ≤ limit
  links : (scannedLinks w.workflows).length ≤ limit
  memories : w.memories.length ≤ limit
  documents : (documentGroups w.memories).length ≤ limit

theorem upTo_of_le {items : List α} (h : items.length ≤ limit) :
    upTo limit items = items := take_of_length_le (by omega)

theorem domainDrafts_of_reaches (lib : Library) (h : Reaches limit w) (domain : BackfillDomain) :
    domainDrafts lib limit w domain = recordDrafts lib w domain := by
  cases domain <;> simp only [domainDrafts, recordDrafts, upTo_of_le h.workflows,
    upTo_of_le h.links, upTo_of_le h.memories, upTo_of_le h.documents]

/-- Some event of the domain's source describes what the draft does. -/
def Described (w : BackfillWorld) (domain : BackfillDomain) (d : ProjectionDraft) : Prop :=
  ∃ event ∈ w.outbox.events, event.source = domain.source ∧
    describe event.payload = describe (.obj d.payload)

/-- A backfill from here returns, leaves for each record an event of its source that describes
it as it is, and the next one appends nothing. -/
def FreshAndIdempotent (lib : Library) (env : BackfillEnvironment) (limit : ℤ)
    (w : BackfillWorld) : Prop :=
  ∃ result w', (backfill lib none limit).run (backfillHandler env) w = (.ok result, w') ∧
    (∀ domain ∈ recordDomains, ∀ d ∈ recordDrafts lib w domain, Described w' domain d) ∧
    ((backfill lib none limit).run (backfillHandler env) w').2.outbox = w'.outbox

/-- The records' keys tell their states apart: every record is named by an id, and its
description is in the outbox already or is that of a record whose key neither the outbox nor an
earlier record has. -/
structure KeysTell (lib : Library) (w : BackfillWorld) : Prop where
  named : ∀ domain, ∀ d ∈ recordDrafts lib w domain, ¬ d.Blank
  keyed : ∀ domain ∈ recordDomains, ∀ d ∈ recordDrafts lib w domain, Described w domain d ∨
    ∃ row, row.2 = describe (.obj d.payload) ∧
      FirstNew Prod.fst (rowsOf domain.source w.outbox)
        ((recordDrafts lib w domain).map ProjectionDraft.row) row

theorem mem_selectedDomains_none (domain : BackfillDomain) : domain ∈ selectedDomains none := by
  cases domain <;> decide

theorem source_of_mem_domainDrafts (hd : d ∈ domainDrafts lib limit w domain) :
    d.source = domain.source := by
  cases domain <;> obtain ⟨a, -, rfl⟩ := List.mem_map.mp hd <;> rfl

/-- Everything is there after a backfill of all domains. -/
theorem AllFilled.settled (h : AllFilled env lib limit (selectedDomains none) w w')
    (domain : BackfillDomain) :
    Settled lib limit w' domain := by
  have hmem := mem_selectedDomains_none domain
  refine ⟨fun d hd => ?_, ?_⟩
  · rw [domainDrafts_grows h.grows] at hd
    rw [source_of_mem_domainDrafts hd, ← mem_keys_rowsOf, h.rows domain hmem]
    exact key_mem_addAll (mem_map_of_mem hd)
  · have hentities := h.entities domain hmem
    cases domain with
    | memories =>
      intro memory hmemory
      rw [h.grows.memories] at hmemory
      exact hentities memory hmemory
    | _ => trivial

theorem described_iff_row (hids : IdsDrawn env w) (domain : BackfillDomain) :
    Described w domain d ↔
      ∃ row, row.2 = describe (.obj d.payload) ∧ row ∈ rowsOf domain.source w.outbox := by
  constructor
  · rintro ⟨event, hevent, hsource, he⟩
    obtain ⟨row, hrow, hdescribe⟩ := List.mem_map.mp
      (descriptions_of_mem hevent hsource (hids event hevent).1)
    exact ⟨row, hdescribe.trans he, hrow⟩
  · rintro ⟨row, he, hrow⟩
    obtain ⟨event, hevent, hsource, hdescribe⟩ :=
      mem_descriptions_rowsOf (mem_map_of_mem (f := Prod.snd) hrow)
    exact ⟨event, hevent, hsource, hdescribe.trans he⟩

/-- A draft is described after the backfill if it was before or a new key brings its
description. -/
theorem AllFilled.described_iff (hids : IdsDrawn env w)
    (h : AllFilled env lib limit (selectedDomains none) w w') (domain : BackfillDomain) :
    Described w' domain d ↔ Described w domain d ∨
      ∃ row, row.2 = describe (.obj d.payload) ∧
        FirstNew Prod.fst (rowsOf domain.source w.outbox)
          ((domainDrafts lib limit w domain).map ProjectionDraft.row) row := by
  rw [described_iff_row h.grows.drawn, described_iff_row hids,
    h.rows domain (mem_selectedDomains_none domain), ← exists_or]
  refine exists_congr fun row => ?_
  rw [mem_addAll, and_or_left]

/-- **One backfill.**  It is fresh and idempotent exactly where the keys tell the records' states
apart. -/
theorem freshAndIdempotent_iff (hreaches : Reaches limit w) (hids : IdsDrawn env w) :
    FreshAndIdempotent lib env limit w ↔ KeysTell lib w := by
  have hwp := wp_backfill lib none limit hids
  have hdrafts := domainDrafts_of_reaches lib hreaches
  constructor
  · rintro ⟨result, w', hrun, hfresh, -⟩
    have hfilled := (wp_of_run_ok hrun).mp hwp
    refine ⟨fun domain => ?_, fun domain hdomain d hd => ?_⟩
    · rw [← hdrafts]
      exact hfilled.named domain (mem_selectedDomains_none domain)
    · rw [← hdrafts]
      exact (hfilled.described_iff hids domain).mp (hfresh domain hdomain d hd)
  · intro hkeys
    rcases hrun : (backfill lib none limit).run (backfillHandler env) w with ⟨e | result, w'⟩
    · obtain ⟨⟨domain, -, d, hd, hblank⟩, -⟩ := (wp_of_run_error hrun).mp hwp
      rw [hdrafts] at hd
      exact absurd hblank (hkeys.named domain d hd)
    · have hfilled := (wp_of_run_ok hrun).mp hwp
      refine ⟨result, w', hrun, fun domain hdomain d hd => ?_, ?_⟩
      · have hkeyed := hkeys.keyed domain hdomain d hd
        rw [← hdrafts] at hkeyed
        exact (hfilled.described_iff hids domain).mpr hkeyed
      · have hsame := wp_backfill_settled lib none limit hfilled.grows.drawn hfilled.settled
        exact (wp_state.mp hsame).2

/-! ### Histories -/

/-- What happens to the canonical records and the outbox. -/
inductive BackfillStep where
  | edit (workflows : List WorkflowRecord) (memories : List MemoryRecord)
  | backfill (domains : Option (List String)) (limit : ℤ)

def BackfillStep.apply (lib : Library) (env : BackfillEnvironment) (w : BackfillWorld) :
    BackfillStep → BackfillWorld
  | edit workflows memories => { w with workflows := workflows, memories := memories }
  | backfill domains limit => ((Graph.backfill lib domains limit).run (backfillHandler env) w).2

/-- The world after a history that starts with an empty outbox. -/
def afterHistory (lib : Library) (env : BackfillEnvironment) (history : List BackfillStep) :
    BackfillWorld :=
  history.foldl (BackfillStep.apply lib env) ⟨[], [], empty, 0, 0⟩

theorem idsDrawn_apply (hids : IdsDrawn env w) (step : BackfillStep) :
    IdsDrawn env (step.apply lib env w) := by
  cases step with
  | edit workflows memories => exact hids
  | backfill domains limit =>
    have hwp := wp_backfill lib domains limit hids
    have hgrows : (Graph.backfill lib domains limit).wp (backfillHandler env)
        (fun _ w' => Grows env w w') (fun _ w' => Grows env w w') w :=
      wp_mono hwp (fun _ _ h => h.grows) fun _ _ h => h.2
    exact (wp_state.mp hgrows).drawn

theorem idsDrawn_afterHistory (history : List BackfillStep) :
    IdsDrawn env (afterHistory lib env history) := by
  have hfold : ∀ w, IdsDrawn env w →
      IdsDrawn env (history.foldl (BackfillStep.apply lib env) w) := by
    induction history with
    | nil => exact fun w hw => hw
    | cons step history ih => exact fun w hw => ih _ (idsDrawn_apply hw step)
  apply hfold
  exact fun event hevent => absurd hevent not_mem_nil

/-- **Backfills after any history.**  After any history of edits and earlier backfills, a backfill
whose limit reaches every record is fresh and idempotent exactly where the keys of the records
tell their states apart. -/
theorem backfill_fresh_iff (lib : Library) (env : BackfillEnvironment)
    (history : List BackfillStep) (limit : ℤ)
    (hreaches : Reaches limit (afterHistory lib env history)) :
    FreshAndIdempotent lib env limit (afterHistory lib env history) ↔
      KeysTell lib (afterHistory lib env history) :=
  freshAndIdempotent_iff hreaches (idsDrawn_afterHistory history)

/-- **A backfill is done once.**  After a full backfill that returns, fresh or not, one of any
domains with the same limit appends nothing. -/
theorem backfill_idempotent (history : List BackfillStep) {result : List (String × DomainCounts)}
    (h : (backfill lib none limit).run (backfillHandler env) (afterHistory lib env history) =
      (.ok result, w')) (domains : Option (List String)) :
    ((backfill lib domains limit).run (backfillHandler env) w').2.outbox = w'.outbox := by
  have hfilled := (wp_of_run_ok h).mp (wp_backfill lib none limit (idsDrawn_afterHistory history))
  exact (wp_state.mp
    (wp_backfill_settled lib domains limit hfilled.grows.drawn hfilled.settled)).2

/-! ### An edited link -/

/-- A library that reads nothing out of strings and extracts nothing. -/
def plainLibrary : Library where
  repr _ := ""
  int _ := none
  float _ := none
  dumps _ := ""
  sha1 s := s
  extract _ := []
  graphDocumentProjectionMaxChunks := 0

/-- Ids of growing length. -/
def growingIds : BackfillEnvironment where
  utcNow n := n
  uuid4 n := String.ofList (List.replicate (n + 1) 'i')
  uuid4_injective m n h := by
    have hlength := congrArg List.length (String.ofList_injective h)
    simpa using hlength
  uuid4_ne n h := by
    have hlength := congrArg String.length h
    simp at hlength

/-- A workflow with one memory link of this access mode. -/
def linkedWorkflow (accessMode : String) : WorkflowRecord where
  id := "w"
  name := "Workflow"
  entrypoint := "task"
  metadata := [("memory_links", .arr [.obj
    [("id", .str "link"), ("ref_id", .str "memory"), ("access_mode", .str accessMode)]])]

/-- The first backfill of a workflow and its link. -/
theorem backfill_fresh_iff_first :
    Reaches 10 (afterHistory plainLibrary growingIds [.edit [linkedWorkflow "read"] []]) ∧
      FreshAndIdempotent plainLibrary growingIds 10
        (afterHistory plainLibrary growingIds [.edit [linkedWorkflow "read"] []]) := by
  have hreaches : Reaches 10
      (afterHistory plainLibrary growingIds [.edit [linkedWorkflow "read"] []]) :=
    ⟨by decide +kernel, by decide +kernel, by decide +kernel, by decide +kernel⟩
  refine ⟨hreaches, (backfill_fresh_iff plainLibrary growingIds _ 10 hreaches).mpr ⟨?_, ?_⟩⟩
  · intro domain
    cases domain with
    | workflows =>
      refine List.forall_mem_singleton.mpr ?_
      decide +kernel
    | workflowMemoryLinks =>
      refine List.forall_mem_singleton.mpr ?_
      decide +kernel
    | _ => exact fun d hd => absurd hd not_mem_nil
  · intro domain _
    cases domain with
    | workflows =>
      exact List.forall_mem_singleton.mpr (.inr ⟨_, rfl, not_mem_nil, [], [], rfl, not_mem_nil⟩)
    | workflowMemoryLinks =>
      exact List.forall_mem_singleton.mpr (.inr ⟨_, rfl, not_mem_nil, [], [], rfl, not_mem_nil⟩)
    | _ => exact fun d hd => absurd hd not_mem_nil

/-- The access mode that a link's description tells. -/
def toldAccessMode : Json → Option String
  | .obj fields => (((Dict.getJson fields "link").get? "accessMode").bind Json.asStr?)
  | _ => none

/-- The link's access mode is edited after a first backfill. -/
def editedLink : List BackfillStep :=
  [.edit [linkedWorkflow "read"] [], .backfill none 10, .edit [linkedWorkflow "write"] []]

/-- A link keeps its key whatever else is edited, so that the outbox goes on telling of it as it
was at the first backfill. -/
theorem edited_link_stale :
    ¬ ∀ (lib : Library) (env : BackfillEnvironment) (history : List BackfillStep) (limit : ℤ),
      Reaches limit (afterHistory lib env history) →
        FreshAndIdempotent lib env limit (afterHistory lib env history) := by
  intro h
  have hreaches : Reaches 10 (afterHistory plainLibrary growingIds editedLink) :=
    ⟨by decide +kernel, by decide +kernel, by decide +kernel, by decide +kernel⟩
  have hkeys := (freshAndIdempotent_iff hreaches (idsDrawn_afterHistory editedLink)).mp
    (h plainLibrary growingIds editedLink 10 hreaches)
  rcases hkeys.keyed .workflowMemoryLinks (by decide) _ mem_cons_self with
    ⟨event, hevent, hsource, he⟩ | ⟨row, -, hnew, before, after, hrows, -⟩
  · have htold : ∀ event ∈ (afterHistory plainLibrary growingIds editedLink).outbox.events,
        event.source = BackfillDomain.workflowMemoryLinks.source →
          toldAccessMode (describe event.payload) = some "read" := by decide +kernel
    have hread := htold event hevent hsource
    rw [he] at hread
    exact absurd hread (by decide +kernel)
  · have hkey : ∀ row ∈ (recordDrafts plainLibrary
        (afterHistory plainLibrary growingIds editedLink) .workflowMemoryLinks).map
          ProjectionDraft.row,
        row.1 ∈ (rowsOf BackfillDomain.workflowMemoryLinks.source
          (afterHistory plainLibrary growingIds editedLink).outbox).map Prod.fst := by
      decide +kernel
    refine hnew (hkey row ?_)
    rw [hrows]
    exact mem_append_right before mem_cons_self

theorem backfill_idempotent_editedLink : ∃ result w',
    (backfill plainLibrary none 10).run (backfillHandler growingIds)
      (afterHistory plainLibrary growingIds editedLink) = (.ok result, w') ∧
    ((backfill plainLibrary (some ["workflows"]) 10).run (backfillHandler growingIds) w').2.outbox =
      w'.outbox := by
  rcases hrun : (backfill plainLibrary none 10).run (backfillHandler growingIds)
    (afterHistory plainLibrary growingIds editedLink) with ⟨e | result, w'⟩
  · have hok : ((backfill plainLibrary none 10).run (backfillHandler growingIds)
      (afterHistory plainLibrary growingIds editedLink)).1.isOk := by decide +kernel
    rw [hrun] at hok
    cases hok
  · exact ⟨result, w', rfl, backfill_idempotent editedLink hrun _⟩

end Graph

end OpenAgency
