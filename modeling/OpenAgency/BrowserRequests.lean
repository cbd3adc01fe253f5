/-
BrowserRequests.lean

The requests of the browser runtime, seen from what they reach.

A request comes with a verified capability.  `serve` is what it does to the sessions and
artifacts, and `BrowserReached` are the sessions that it resolves, acts on, closes, lists or
returns, and the artifacts that it returns.  What a page holds and whether the engine fails
makes no difference to that; which artifacts the engine leaves does.  Sessions that have
expired are dropped whoever asks.
-/
import OpenAgency.BrowserCapability

namespace OpenAgency

open Relational Catalog SessionRegistry

structure ArtifactRecord where
  artifactId : String
  owner : OwnerClaims
  sessionId : String
  createdAt : Time
  expiresAt : Time

abbrev ArtifactRecords := Catalog fun a : ArtifactRecord => a.artifactId

/-- `prune`. -/
def ArtifactRecord.live (now : Time) (artifacts : ArtifactRecords) : ArtifactRecords :=
  artifacts.filter (now < ·.expiresAt)

structure BrowserRuntime where
  registry : SessionRegistry
  retention : Time

structure BrowserState where
  sessions : SessionRecords := Catalog.empty
  artifacts : ArtifactRecords := Catalog.empty

/-- What a request finds: the time, the handles that are gone, the identifier drawn for a
session, and the names and drawn identifiers of the artifacts that the engine leaves. -/
structure BrowserTurn where
  now : Time := 0
  gone : ℕ → Bool := fun _ => false
  sessionId : String := ""
  captured : List (String × String) := []
  /-- The domain of the URL to be opened grants a lease, and `validate_public_url` accepts the
  URL and what its host resolves to. -/
  urlAdmitted : Bool := true

structure BrowserReached where
  sessions : List SessionRecord := []
  artifacts : List ArtifactRecord := []

inductive BrowserRequest where
  /-- `open` of a session that is kept. -/
  | openSession (asked : NewSession)
  /-- `open` without `keep_open`. -/
  | openOnce (asked : NewSession)
  | openExisting (sessionId : String) (allowedHosts : List String)
  | extract (sessionId : String)
  | action (sessionId : String)
  | close (sessionId : String)
  | sessions
  | artifact (artifactId : String)
  | closeExecution (executionId : String)

def BrowserRequest.operation : BrowserRequest → String
  | openSession _ | openOnce _ | openExisting _ _ => "open"
  | extract _ => "extract"
  | action _ => "action"
  | close _ => "close"
  | sessions => "status"
  | artifact _ => "artifact"
  | closeExecution _ => "close_execution"

namespace BrowserRuntime

variable (runtime : BrowserRuntime)

/-- `ArtifactStore.put` of an artifact of a session. -/
def newArtifact (now : Time) (record : SessionRecord) (artifactId : String) : ArtifactRecord where
  artifactId := artifactId
  owner := record.owner
  sessionId := record.sessionId
  createdAt := now
  expiresAt := now + max (seconds 60) (capped (some record.artifactRetention) runtime.retention)

/-- The artifacts of a session are stored and noted in its record. -/
def capture (now : Time) :
    List (String × String) → SessionRecord → ArtifactRecords → SessionRecord × ArtifactRecords
  | [], record, artifacts => (record, artifacts)
  | (name, artifactId) :: captured, record, artifacts =>
    capture now captured { record with artifacts := record.artifacts.set name artifactId }
      ((ArtifactRecord.live now artifacts).put (runtime.newArtifact now record artifactId))

/-- The artifacts under some identifiers. -/
def named (artifacts : ArtifactRecords) (captured : Dict String) : List ArtifactRecord :=
  captured.filterMap fun (_, artifactId) => artifacts.get artifactId

/-- What becomes of a session that is in use. -/
def useSession (turn : BrowserTurn) (record : SessionRecord) (s : BrowserState) :
    BrowserReached × BrowserState :=
  let (record, artifacts) := runtime.capture turn.now turn.captured record s.artifacts
  ({ sessions := [record], artifacts := named artifacts turn.captured },
    { sessions := s.sessions.put record, artifacts })

/-- A session is resolved and, unless this is refused, used. -/
def resolveSession (turn : BrowserTurn) (owner : OwnerClaims) (sessionId : String)
    (refused : SessionRecord → Bool) (s : BrowserState) : BrowserReached × BrowserState :=
  match resolve turn.now turn.gone s.sessions owner sessionId true with
  | (.error _, _, left) => ({}, { s with sessions := left })
  | (.ok record, _, records) =>
    if refused record then ({ sessions := [record] }, { s with sessions := records })
    else runtime.useSession turn record { s with sessions := records }

/-- `BrowserRuntimeService.close`: the engine leaves its last artifacts. -/
def closeSession (turn : BrowserTurn) (owner : OwnerClaims) (sessionId : String)
    (s : BrowserState) : BrowserReached × BrowserState :=
  match resolve turn.now turn.gone s.sessions owner sessionId false with
  | (.error _, _, left) => ({}, { s with sessions := left })
  | (.ok record, _, records) =>
    let (record, artifacts) := runtime.capture turn.now turn.captured record s.artifacts
    ({ sessions := [record], artifacts := named artifacts record.artifacts },
      { sessions := (close records owner sessionId).2, artifacts })

/-- What a request that is not refused does. -/
def perform (turn : BrowserTurn) (owner : OwnerClaims) :
    BrowserRequest → BrowserState → BrowserReached × BrowserState
  | .openSession asked, s =>
    match runtime.registry.create turn.now turn.gone s.sessions turn.sessionId
      { asked with owner } with
    | (.error _, _, left) => ({}, { s with sessions := left })
    | (.ok record, _, records) => runtime.useSession turn record { s with sessions := records }
  | .openOnce asked, s =>
    let (_, artifacts) := runtime.capture turn.now turn.captured
      (runtime.registry.newRecord turn.now turn.sessionId { asked with owner }) s.artifacts
    ({ artifacts := named artifacts turn.captured }, { s with artifacts })
  | .openExisting sessionId allowedHosts, s =>
    runtime.resolveSession turn owner sessionId
      (fun record => allowedHosts.any (· ∉ record.allowedHosts)) s
  | .extract sessionId, s | .action sessionId, s =>
    runtime.resolveSession turn owner sessionId (fun _ => false) s
  | .close sessionId, s => runtime.closeSession turn owner sessionId s
  | .sessions, s => ({ sessions := listForOwner s.sessions owner }, s)
  | .artifact artifactId, s =>
    let artifacts := ArtifactRecord.live turn.now s.artifacts
    ({ artifacts := (artifacts.get artifactId).toList.filter (owner.owns ·.owner) },
      { s with artifacts })
  | .closeExecution executionId, s =>
    if owner.executionId ≠ some executionId then ({}, s)
    else
      let (closed, left) := closeAllForExecution s.sessions executionId
      ({ sessions := closed }, { s with sessions := left })

/-- An `open` is refused if it asks for hosts beyond the grant, and where its URL is. -/
def refuses (turn : BrowserTurn) (auth : BrowserCapability) : BrowserRequest → Bool
  | .openSession { allowedHosts, .. } | .openOnce { allowedHosts, .. }
  | .openExisting _ allowedHosts =>
    allowedHosts.any (· ∉ auth.allowedHosts) || !turn.urlAdmitted
  | _ => false

/-- A request with a verified capability. -/
def serve (turn : BrowserTurn) (auth : BrowserCapability) (request : BrowserRequest)
    (s : BrowserState) : BrowserReached × BrowserState :=
  if refuses turn auth request then ({}, s) else runtime.perform turn auth.owner request s

/-- `expire`. -/
def expire (turn : BrowserTurn) (s : BrowserState) : BrowserState where
  sessions := (removeExpired turn.now turn.gone s.sessions).2
  artifacts := ArtifactRecord.live turn.now s.artifacts

/-- The identifiers drawn are new. -/
structure Fresh (turn : BrowserTurn) (s : BrowserState) : Prop where
  artifacts : ∀ p ∈ turn.captured, s.artifacts.get p.2 = none
  sessions : ∀ p ∈ turn.captured, ∀ r ∈ s.sessions.items, ∀ q ∈ r.artifacts, q.2 ≠ p.2

/-- The states that requests of any owners lead to. -/
inductive Reachable : BrowserState → Prop
  | start : Reachable {}
  | serve {s : BrowserState} (turn : BrowserTurn) (auth : BrowserCapability)
      (request : BrowserRequest) :
      Reachable s → Fresh turn s → Reachable (runtime.serve turn auth request s).2
  | expire {s : BrowserState} (turn : BrowserTurn) : Reachable s → Reachable (expire turn s)

/-! ### Whose artifacts they are -/

/-- The artifacts of a session belong to its owner. -/
def ArtifactsOwned (s : BrowserState) : Prop :=
  ∀ r ∈ s.sessions.items, ∀ p ∈ r.artifacts, ∀ a, s.artifacts.get p.2 = some a → a.owner = r.owner

variable {runtime}

theorem mem_set {α : Type} {d : Dict α} {k : String} {v : α} {p : String × α}
    (h : p ∈ d.set k v) : p = (k, v) ∨ p ∈ d := by
  induction d with
  | nil => exact .inl (List.mem_singleton.mp h)
  | cons q d ih =>
    obtain ⟨k', v'⟩ := q
    unfold Dict.set at h
    split at h
    · next hk =>
      subst hk
      rcases List.mem_cons.mp h with rfl | h
      · exact .inl rfl
      · exact .inr (List.mem_cons_of_mem _ h)
    · rcases List.mem_cons.mp h with rfl | h
      · exact .inr List.mem_cons_self
      · exact (ih h).imp_right (List.mem_cons_of_mem _)

/-- What capturing does to a record and to the artifacts. -/
structure Captures (captured : List (String × String)) (record record' : SessionRecord)
    (artifacts artifacts' : ArtifactRecords) : Prop where
  owner : record'.owner = record.owner
  sessionId : record'.sessionId = record.sessionId
  names : ∀ p ∈ record'.artifacts, p ∈ record.artifacts ∨ ∃ q ∈ captured, q.2 = p.2
  stored : ∀ a ∈ artifacts'.items, a ∈ artifacts.items ∨
    a.owner = record.owner ∧ ∃ q ∈ captured, q.2 = a.artifactId

variable (runtime) in
theorem captures (now : Time) (captured : List (String × String)) (record : SessionRecord)
    (artifacts : ArtifactRecords) :
    Captures captured record (runtime.capture now captured record artifacts).1 artifacts
      (runtime.capture now captured record artifacts).2 := by
  induction captured generalizing record artifacts with
  | nil => exact ⟨rfl, rfl, fun _ h => .inl h, fun _ h => .inl h⟩
  | cons q captured ih =>
    obtain ⟨name, artifactId⟩ := q
    obtain ⟨howner, hid, hnames, hstored⟩ := ih
      { record with artifacts := record.artifacts.set name artifactId }
      ((ArtifactRecord.live now artifacts).put (runtime.newArtifact now record artifactId))
    refine ⟨howner, hid, fun p hp => ?_, fun a ha => ?_⟩
    · rcases hnames p hp with hp | ⟨q, hq, heq⟩
      · rcases mem_set hp with rfl | hp
        · exact .inr ⟨_, List.mem_cons_self, rfl⟩
        · exact .inl hp
      · exact .inr ⟨q, List.mem_cons_of_mem _ hq, heq⟩
    · rcases hstored a ha with ha | ⟨ha, q, hq, heq⟩
      · rcases mem_put.mp ha with rfl | ⟨ha, -⟩
        · exact .inr ⟨rfl, _, List.mem_cons_self, rfl⟩
        · exact .inl (mem_filter.mp ha).1
      · exact .inr ⟨ha, q, List.mem_cons_of_mem _ hq, heq⟩

/-- Records that are new, or those there were in owner and artifacts. -/
def Derived (records records' : SessionRecords) : Prop :=
  ∀ r' ∈ records'.items, r'.artifacts = [] ∨
    ∃ r ∈ records.items, r'.owner = r.owner ∧ r'.artifacts = r.artifacts

variable {s : BrowserState} {turn : BrowserTurn} {owner : OwnerClaims} {sessionId : String}
  {record : SessionRecord} {records : SessionRecords} {now : Time} {gone : ℕ → Bool}

theorem Derived.of_mem {records' : SessionRecords} (h : ∀ r ∈ records'.items, r ∈ records.items) :
    Derived records records' := fun r hr => .inr ⟨r, h r hr, rfl, rfl⟩

theorem Derived.fresh (h : Derived s.sessions records) (hfresh : Fresh turn s) :
    Fresh turn { s with sessions := records } where
  artifacts := hfresh.artifacts
  sessions p hp r hr q hq := by
    rcases h r hr with hnone | ⟨r₀, hr₀, -, heq⟩
    · rw [hnone] at hq
      cases hq
    · rw [heq] at hq
      exact hfresh.sessions p hp r₀ hr₀ q hq

theorem Derived.artifactsOwned (h : Derived s.sessions records) (hs : ArtifactsOwned s) :
    ArtifactsOwned { s with sessions := records } := by
  intro r hr p hp a ha
  rcases h r hr with hnone | ⟨r₀, hr₀, howner, heq⟩
  · rw [hnone] at hp
    cases hp
  · rw [heq] at hp
    rw [howner]
    exact hs r₀ hr₀ p hp a ha

variable {artifacts : ArtifactRecords}

/-- The artifacts there are belong to whoever they belonged to. -/
theorem artifactsOwned_of_mem (h : ∀ a ∈ artifacts.items, a ∈ s.artifacts.items)
    (hs : ArtifactsOwned s) :
    ArtifactsOwned { s with artifacts } := by
  intro r hr p hp a ha
  obtain ⟨hmem, heq⟩ := get_eq_some.mp ha
  exact hs r hr p hp a (get_eq_some.mpr ⟨h a hmem, heq⟩)

theorem mem_live {a : ArtifactRecord} (h : a ∈ (ArtifactRecord.live now artifacts).items) :
    a ∈ artifacts.items :=
  (mem_filter.mp h).1

variable {r : SessionRecord}

theorem mem_left (h : r ∈ (removeExpired now gone records).2.items) : r ∈ records.items :=
  (mem_filter.mp h).1

/-- What `resolve` finds. -/
structure Resolves (now : Time) (gone : ℕ → Bool) (records : SessionRecords) (owner : OwnerClaims)
    (sessionId : String) (record r : SessionRecord) : Prop where
  found : (removeExpired now gone records).2.get sessionId = some r
  owns : owner.owns r.owner = true
  owner_eq : record.owner = r.owner
  artifacts_eq : record.artifacts = r.artifacts

theorem resolve_cases (now : Time) (gone : ℕ → Bool) (records : SessionRecords)
    (owner : OwnerClaims) (sessionId : String) (touch : Bool) :
    (∃ e closed, resolve now gone records owner sessionId touch =
        (.error e, closed, (removeExpired now gone records).2) ∧
      ∀ r, (removeExpired now gone records).2.get sessionId = some r → owner.owns r.owner = false) ∨
    ∃ record closed records' r, resolve now gone records owner sessionId touch =
        (.ok record, closed, records') ∧ Resolves now gone records owner sessionId record r ∧
      Derived records records' ∧ record ∈ records'.items := by
  unfold resolve
  rcases hget : (removeExpired now gone records).2.get sessionId with - | r
  · refine .inl ⟨_, _, by simp only [hget]; rfl, fun r hr => by cases hr⟩
  · have hmem := mem_of_get hget
    by_cases howns : owner.owns r.owner = true
    · refine .inr ?_
      cases touch with
      | false =>
        refine ⟨r, _, _, r, by simp only [hget, howns]; rfl, ⟨hget, howns, rfl, rfl⟩,
          Derived.of_mem fun r hr => mem_left hr, hmem⟩
      | true =>
        refine ⟨r.touched now, _, _, r, by simp only [hget, howns]; rfl,
          ⟨hget, howns, rfl, rfl⟩, fun r' hr' => ?_, mem_put.mpr (.inl rfl)⟩
        rcases mem_put.mp hr' with rfl | ⟨hr', -⟩
        · exact .inr ⟨r, mem_left hmem, rfl, rfl⟩
        · exact .inr ⟨r', mem_left hr', rfl, rfl⟩
    · refine .inl ⟨_, _, by simp only [hget, howns]; rfl, fun r' hr' => ?_⟩
      obtain rfl := Option.some.inj hr'
      exact Bool.not_eq_true _ ▸ howns

/-- The artifacts that a record names belong to its owner. -/
def RecordOwned (record : SessionRecord) (artifacts : ArtifactRecords) : Prop :=
  ∀ p ∈ record.artifacts, ∀ a, artifacts.get p.2 = some a → a.owner = record.owner

variable (runtime) in
/-- What is captured for a session belongs to its owner, and nothing changes for others. -/
theorem recordOwned_capture (hrecord : RecordOwned record s.artifacts) (hs : ArtifactsOwned s)
    (hfresh : Fresh turn s) :
    RecordOwned (runtime.capture turn.now turn.captured record s.artifacts).1
      (runtime.capture turn.now turn.captured record s.artifacts).2 ∧
    ArtifactsOwned { s with
      artifacts := (runtime.capture turn.now turn.captured record s.artifacts).2 } := by
  have hcaptures := captures runtime turn.now turn.captured record s.artifacts
  generalize runtime.capture turn.now turn.captured record s.artifacts = result at hcaptures
  obtain ⟨howner, -, hnames, hstored⟩ := hcaptures
  refine ⟨fun p hp a ha => ?_, fun r hr p hp a ha => ?_⟩
  · obtain ⟨hmem, heq⟩ := get_eq_some.mp ha
    rw [howner]
    rcases hstored a hmem with hold | ⟨hnew, -⟩
    · have hget := get_eq_some.mpr ⟨hold, heq⟩
      rcases hnames p hp with hp | ⟨q, hq, hqp⟩
      · exact hrecord p hp a hget
      · rw [← hqp, hfresh.artifacts q hq] at hget
        cases hget
    · exact hnew
  · obtain ⟨hmem, heq⟩ := get_eq_some.mp ha
    rcases hstored a hmem with hold | ⟨-, q, hq, hqa⟩
    · exact hs r hr p hp a (get_eq_some.mpr ⟨hold, heq⟩)
    · exact absurd (heq.symm.trans hqa.symm) (hfresh.sessions q hq r hr p hp)

theorem artifactsOwned_put (hrecord : RecordOwned record s.artifacts) (hs : ArtifactsOwned s) :
    ArtifactsOwned { s with sessions := s.sessions.put record } := by
  intro r hr p hp a ha
  rcases mem_put.mp hr with rfl | ⟨hr, -⟩
  · exact hrecord p hp a ha
  · exact hs r hr p hp a ha

theorem artifactsOwned_useSession (hrecord : RecordOwned record s.artifacts)
    (hs : ArtifactsOwned s) (hfresh : Fresh turn s) :
    ArtifactsOwned (runtime.useSession turn record s).2 := by
  obtain ⟨hown, hothers⟩ := recordOwned_capture runtime hrecord hs hfresh
  exact artifactsOwned_put (s := { s with
    artifacts := (runtime.capture turn.now turn.captured record s.artifacts).2 }) hown hothers

/-- What `create` leaves of the records, and the record that it adds. -/
theorem create_cases (registry : SessionRegistry) (now : Time) (gone : ℕ → Bool)
    (records : SessionRecords) (sessionId : String) (asked : NewSession) :
    (∃ e records', registry.create now gone records sessionId asked = (.error e, [], records') ∧
      ∀ r ∈ records'.items, r ∈ records.items) ∨
    registry.create now gone records sessionId asked =
      (.ok (registry.newRecord now sessionId asked), (removeExpired now gone records).1,
        (removeExpired now gone records).2.put (registry.newRecord now sessionId asked)) := by
  unfold create
  split
  · exact .inl ⟨_, _, rfl, fun _ h => h⟩
  · dsimp only
    split
    · exact .inl ⟨_, _, rfl, fun _ => mem_left⟩
    · split
      · exact .inl ⟨_, _, rfl, fun _ => mem_left⟩
      · exact .inr rfl

theorem derived_create {registry : SessionRegistry} {asked : NewSession} :
    Derived records ((removeExpired now gone records).2.put
      (registry.newRecord now sessionId asked)) := by
  intro r hr
  rcases mem_put.mp hr with rfl | ⟨hr, -⟩
  · exact .inl rfl
  · exact .inr ⟨r, mem_left hr, rfl, rfl⟩

theorem Resolves.recordOwned (h : Resolves now gone s.sessions owner sessionId record r)
    (hs : ArtifactsOwned s) (hartifacts : ∀ a ∈ artifacts.items, a ∈ s.artifacts.items) :
    RecordOwned record artifacts := by
  intro p hp a ha
  rw [h.artifacts_eq] at hp
  rw [h.owner_eq]
  obtain ⟨hmem, heq⟩ := get_eq_some.mp ha
  exact hs r (mem_left (mem_of_get h.found)) p hp a (get_eq_some.mpr ⟨hartifacts a hmem, heq⟩)

theorem artifactsOwned_resolveSession {refused : SessionRecord → Bool} (hs : ArtifactsOwned s) (hfresh : Fresh turn s) :
    ArtifactsOwned (runtime.resolveSession turn owner sessionId refused s).2 := by
  unfold resolveSession
  rcases resolve_cases turn.now turn.gone s.sessions owner sessionId true with
    ⟨e, closed, heq, -⟩ | ⟨record, closed, records, r, heq, hresolves, hderived, -⟩
  · rw [heq]
    exact (Derived.of_mem fun _ => mem_left).artifactsOwned hs
  · rw [heq]
    dsimp only
    split
    · exact hderived.artifactsOwned hs
    · exact artifactsOwned_useSession (s := { s with sessions := records })
        (hresolves.recordOwned hs fun _ h => h) (hderived.artifactsOwned hs) (hderived.fresh hfresh)

theorem mem_close (h : r ∈ (close records owner sessionId).2.items) : r ∈ records.items := by
  unfold close at h
  split at h
  · exact h
  · split at h
    · exact h
    · exact (mem_erase.mp h).1

theorem artifactsOwned_closeSession (hs : ArtifactsOwned s) (hfresh : Fresh turn s) :
    ArtifactsOwned (runtime.closeSession turn owner sessionId s).2 := by
  unfold closeSession
  rcases resolve_cases turn.now turn.gone s.sessions owner sessionId false with
    ⟨e, closed, heq, -⟩ | ⟨record, closed, records, r, heq, hresolves, hderived, -⟩
  · rw [heq]
    exact (Derived.of_mem fun _ => mem_left).artifactsOwned hs
  · rw [heq]
    have hrecord : RecordOwned record s.artifacts := hresolves.recordOwned hs fun _ h => h
    obtain ⟨-, hothers⟩ := recordOwned_capture runtime
      (s := { s with sessions := records }) hrecord (hderived.artifactsOwned hs)
      (hderived.fresh hfresh)
    exact (Derived.of_mem fun _ => mem_close).artifactsOwned hothers

theorem artifactsOwned_perform (request : BrowserRequest) (hs : ArtifactsOwned s)
    (hfresh : Fresh turn s) : ArtifactsOwned (runtime.perform turn owner request s).2 := by
  cases request with
  | openSession asked =>
    rcases create_cases runtime.registry turn.now turn.gone s.sessions turn.sessionId
      { asked with owner } with ⟨e, records, heq, hmem⟩ | heq
    · simp only [perform, heq]
      exact (Derived.of_mem hmem).artifactsOwned hs
    · simp only [perform, heq]
      refine artifactsOwned_useSession (s := { s with sessions := _ }) ?_
        (derived_create.artifactsOwned hs) (derived_create.fresh hfresh)
      intro p hp
      cases hp
  | openOnce asked =>
    simp only [perform]
    refine (recordOwned_capture _ ?_ hs hfresh).2
    intro p hp
    cases hp
  | openExisting sessionId allowedHosts => exact artifactsOwned_resolveSession hs hfresh
  | extract sessionId => exact artifactsOwned_resolveSession hs hfresh
  | action sessionId => exact artifactsOwned_resolveSession hs hfresh
  | close sessionId => exact artifactsOwned_closeSession hs hfresh
  | sessions => exact hs
  | artifact artifactId => exact artifactsOwned_of_mem (fun _ => mem_live) hs
  | closeExecution executionId =>
    simp only [perform]
    split
    · exact hs
    · exact (Derived.of_mem fun r hr => (mem_filter.mp hr).1).artifactsOwned hs

theorem artifactsOwned_serve (auth : BrowserCapability) (request : BrowserRequest)
    (hs : ArtifactsOwned s) (hfresh : Fresh turn s) :
    ArtifactsOwned (runtime.serve turn auth request s).2 := by
  unfold serve
  split
  · exact hs
  · exact artifactsOwned_perform request hs hfresh

theorem artifactsOwned_reachable (h : runtime.Reachable s) : ArtifactsOwned s := by
  induction h with
  | start =>
    intro r hr
    cases hr
  | serve turn auth request _ hfresh ih => exact artifactsOwned_serve auth request ih hfresh
  | expire turn _ ih =>
    exact artifactsOwned_of_mem (fun _ => mem_live)
      ((Derived.of_mem fun _ => mem_left).artifactsOwned ih)

end BrowserRuntime

end OpenAgency
