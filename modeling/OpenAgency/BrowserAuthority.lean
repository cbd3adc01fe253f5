/-
BrowserAuthority.lean

What the holder of an execution's secret reaches in the browser runtime.

A token that is signed with the secret of an execution is only accepted if its payload names
that execution (`verify_executionId`).  The other identities in the payload are the holder's
to choose, and what was recorded without an execution is matched by them alone.
-/
import OpenAgency.BrowserRequests
import OpenAgency.Domain.Goal

namespace OpenAgency

open Relational PayloadCodec Secret OwnerClaims SessionRegistry

/-! ### Verification -/

theorem ensure_ok {check : Bool} {e : CapabilityError} {u : Unit} (h : ensure check e = .ok u) :
    check = true := by
  cases check with
  | true => rfl
  | false => cases h

theorem found_ok {α : Type} {x : Option α} {e : CapabilityError} {a : α}
    (h : found x e = .ok a) : x = some a := by
  cases x with
  | none => cases h
  | some a' => exact congrArg some (Except.ok.inj h)

/-- The expiry that a token bears. -/
def PayloadCodec.expiry (codec : PayloadCodec) (token : CapabilityToken) : Option ℤ :=
  (codec.decode token.encoded).bind fun payload =>
    (intField payload "exp").toOption

section Verify

variable {codec : PayloadCodec} {token : CapabilityToken} {secret : Secret} {operation : String}
  {now : ℤ} {capability : BrowserCapability}

theorem intField_default {payload : Json} {key : String} {n : ℤ} {default : Option ℤ}
    (h : intField payload key = .ok n) :
    intField payload key default = .ok n := by
  unfold intField at h ⊢
  rcases hvalue : payload.get? key with - | value
  · rw [hvalue] at h
    cases h
  · rw [hvalue] at h
    exact h

/-- What a capability says is what the payload of its token says, at a time at which it says
that it is valid, of an operation that it allows. -/
structure Bears (codec : PayloadCodec) (token : CapabilityToken) (operation : String)
    (current : ℤ) (capability : BrowserCapability) : Prop where
  expiry : codec.expiry token = some capability.expiresAt
  nonce : ((codec.decode token.encoded).bind (·.get? "jti")).map codec.pyStr = some capability.nonce
  notBefore : capability.issuedAt - 30 ≤ current
  notExpired : current < capability.expiresAt
  allows : operation ∈ capability.operations

/-- What is verified was signed with the secret, is what was peeked at, and bears what the
capability says. -/
theorem verifyCapability_ok
    (h : codec.verifyCapability secret token operation now = .ok capability) :
    token.supplied = .hmac secret token.encoded ∧
      codec.peekCapabilityOwner token = .ok capability.owner ∧
      Bears codec token operation now capability := by
  unfold verifyCapability at h
  obtain ⟨_, hsigned, h⟩ := bind_eq_ok.mp h
  obtain ⟨payload, hpayload, h⟩ := bind_eq_ok.mp h
  obtain ⟨_, -, h⟩ := bind_eq_ok.mp h
  obtain ⟨_, -, h⟩ := bind_eq_ok.mp h
  obtain ⟨iat, hiat, h⟩ := bind_eq_ok.mp h
  obtain ⟨_, hnotBefore, h⟩ := bind_eq_ok.mp h
  obtain ⟨exp, hexp, h⟩ := bind_eq_ok.mp h
  obtain ⟨_, hnotExpired, h⟩ := bind_eq_ok.mp h
  obtain ⟨operations, -, h⟩ := bind_eq_ok.mp h
  obtain ⟨_, hallows, h⟩ := bind_eq_ok.mp h
  obtain ⟨issuedAt, hissuedAt, h⟩ := bind_eq_ok.mp h
  obtain ⟨expiresAt, hexpiresAt, h⟩ := bind_eq_ok.mp h
  obtain ⟨nonce, hnonce, h⟩ := bind_eq_ok.mp h
  obtain ⟨owner, howner, h⟩ := bind_eq_ok.mp h
  obtain ⟨_, -, h⟩ := bind_eq_ok.mp h
  obtain rfl := Except.ok.inj h
  -- the fields that were checked are the ones that are returned
  obtain rfl : issuedAt = iat := Except.ok.inj ((intField_default hissuedAt).symm.trans hiat)
  obtain rfl : expiresAt = exp := Except.ok.inj ((intField_default hexpiresAt).symm.trans hexp)
  refine ⟨of_decide_eq_true (ensure_ok hsigned), ?_, ?_, ?_, of_decide_eq_true (ensure_ok
    hnotBefore), of_decide_eq_true (ensure_ok hnotExpired), of_decide_eq_true (ensure_ok hallows)⟩
  · unfold peekCapabilityOwner
    rw [found_ok hpayload, Option.bind_some, found_ok howner]
    rfl
  · rw [expiry, found_ok hpayload, Option.bind_some, hexpiresAt]
    rfl
  · rw [found_ok hpayload, Option.bind_some, found_ok hnonce]
    rfl

/-- The secret of an execution is only used for an owner that names it. -/
theorem verificationSecret_ok {verifier : CapabilityVerifier} {owner : OwnerClaims}
    {executionId : String} (h : verifier.verificationSecret owner =
      .ok (.hmac verifier.secret (executionMessage executionId))) :
    owner.executionId = some executionId ∧ executionId ≠ "" := by
  -- the master secret is not a digest under itself
  have hmaster : verifier.secret ≠ .hmac verifier.secret (executionMessage executionId) := by
    intro heq
    have hsize := congrArg sizeOf heq
    simp only [hmac.sizeOf_spec] at hsize
    omega
  unfold CapabilityVerifier.verificationSecret at h
  rcases howner : owner.executionId with - | named
  · rw [howner] at h
    exact absurd (Except.ok.inj h) hmaster
  · rw [howner] at h
    dsimp only at h
    by_cases hempty : named = ""
    · rw [if_pos hempty] at h
      exact absurd (Except.ok.inj h) hmaster
    · rw [if_neg hempty, deriveExecutionSecret] at h
      split at h
      · cases h
      · obtain ⟨-, hmessage⟩ := hmac.inj (Except.ok.inj h)
        obtain rfl : named = executionId := (String.append_right_inj _).mp hmessage
        exact ⟨rfl, hempty⟩

/-- **A token that is signed with the secret of an execution names that execution.** -/
theorem verify_executionId {verifier verifier' : CapabilityVerifier} {encoded executionId : String}
    (h : verifier.verify codec (some ((hmac verifier.secret
      (executionMessage executionId)).sign encoded)) operation now = .ok (capability, verifier')) :
    capability.owner.executionId = some executionId ∧ executionId ≠ "" := by
  unfold CapabilityVerifier.verify at h
  obtain ⟨_, -, h⟩ := bind_eq_ok.mp h
  obtain ⟨token, htoken, h⟩ := bind_eq_ok.mp h
  obtain ⟨peeked, hpeeked, h⟩ := bind_eq_ok.mp h
  obtain ⟨secret, hsecret, h⟩ := bind_eq_ok.mp h
  obtain ⟨capability', hverified, h⟩ := bind_eq_ok.mp h
  obtain ⟨_, -, h⟩ := bind_eq_ok.mp h
  obtain ⟨rfl, -⟩ := Prod.mk.inj (Except.ok.inj h)
  obtain ⟨hsigned, howner, -⟩ := verifyCapability_ok hverified
  have hpeek : peeked = capability'.owner := Except.ok.inj (hpeeked.symm.trans howner)
  have hsupplied : token.supplied =
      .hmac (.hmac verifier.secret (executionMessage executionId)) token.encoded := by
    rw [← Option.some.inj (found_ok htoken)]
    rfl
  rw [hsupplied] at hsigned
  rw [← (hmac.inj hsigned).1, hpeek] at hsecret
  exact verificationSecret_ok hsecret

end Verify

/-! ### What an owner with an execution owns -/

/-- It was recorded without an execution, for no other workspace, user or actor than those
that the owner names. -/
def OwnerClaims.unscopedFor (recorded owner : OwnerClaims) : Bool :=
  recorded.executionId.isNone && recorded.isIdentified &&
    [(recorded.workspaceId, owner.workspaceId), (recorded.userId, owner.userId),
      (recorded.actor, owner.actor)].all fun (expected, actual) =>
        expected.isNone || expected = actual

section Owns

variable {owner recorded : OwnerClaims} {executionId : String}

theorem isIdentified_of_executionId (h : owner.executionId = some executionId)
    (hne : executionId ≠ "") : owner.isIdentified = true := by
  unfold isIdentified identityKey
  rw [h]
  simp [hne]

theorem owns_eq (h : owner.executionId = some executionId) (hne : executionId ≠ "") :
    owner.owns recorded = (recorded.isIdentified &&
      (recorded.executionId.isNone || recorded.executionId = some executionId) &&
      [(recorded.workspaceId, owner.workspaceId), (recorded.userId, owner.userId),
        (recorded.actor, owner.actor)].all fun (expected, actual) =>
          expected.isNone || expected = actual) := by
  have hidentified := isIdentified_of_executionId h hne
  unfold owns
  cases hrecorded : recorded.isIdentified with
  | true =>
    rw [hidentified]
    simp [identityKey, h]
  | false =>
    have hdiffer : owner ≠ recorded := by
      rintro rfl
      rw [hidentified] at hrecorded
      cases hrecorded
    simp [hdiffer]

/-- What is owned was recorded with the execution, or without one. -/
theorem owns_cases (h : owner.executionId = some executionId) (hne : executionId ≠ "")
    (howns : owner.owns recorded = true) :
    recorded.executionId = some executionId ∨ recorded.unscopedFor owner = true := by
  rw [owns_eq h hne, Bool.and_eq_true, Bool.and_eq_true] at howns
  obtain ⟨⟨hidentified, hexecution⟩, hmatches⟩ := howns
  rcases hrecorded : recorded.executionId with - | id
  · refine .inr ?_
    unfold unscopedFor
    rw [hrecorded, hidentified, hmatches]
    rfl
  · rw [hrecorded] at hexecution
    simp only [Option.isNone_some, Bool.false_or, decide_eq_true_eq] at hexecution
    exact .inl hexecution

theorem owns_of_unscopedFor (h : owner.executionId = some executionId) (hne : executionId ≠ "")
    (hunscoped : recorded.unscopedFor owner = true) :
    owner.owns recorded = true ∧ recorded.executionId ≠ some executionId := by
  unfold unscopedFor at hunscoped
  rw [Bool.and_eq_true, Bool.and_eq_true] at hunscoped
  obtain ⟨⟨hnone, hidentified⟩, hmatches⟩ := hunscoped
  refine ⟨?_, fun hsome => ?_⟩
  · rw [owns_eq h hne, hidentified, hnone, hmatches]
    rfl
  · rw [hsome] at hnone
    cases hnone

end Owns

/-! ### What a request reaches -/

namespace BrowserRuntime

variable {runtime : BrowserRuntime} {turn : BrowserTurn} {owner : OwnerClaims}
  {s : BrowserState} {executionId : String}

/-- All that is reached was recorded with the execution. -/
def BrowserReached.Within (executionId : String) (reached : BrowserReached) : Prop :=
  (∀ r ∈ reached.sessions, r.owner.executionId = some executionId) ∧
    ∀ a ∈ reached.artifacts, a.owner.executionId = some executionId

/-- Nothing that the request asks for was recorded without an execution and is open to the
owner all the same. -/
def ScopedRecords (turn : BrowserTurn) (owner : OwnerClaims) (s : BrowserState) :
    BrowserRequest → Prop
  | .openExisting sessionId _ | .extract sessionId | .action sessionId | .close sessionId =>
    ∀ r, (removeExpired turn.now turn.gone s.sessions).2.get sessionId = some r →
      r.owner.unscopedFor owner = false
  | .sessions => ∀ r ∈ s.sessions.items, r.owner.unscopedFor owner = false
  | .artifact artifactId => ∀ a,
      (ArtifactRecord.live turn.now s.artifacts).get artifactId = some a →
        a.owner.unscopedFor owner = false
  | .openSession _ | .openOnce _ | .closeExecution _ => True

variable {record : SessionRecord} {sessionId : String}

theorem within_empty : BrowserReached.Within executionId {} := by
  constructor
  · intro r hr
    cases hr
  · intro a ha
    cases ha

/-- What was captured for a session in this turn belongs to its owner. -/
theorem owner_of_captured (hfresh : Fresh turn s) {a : ArtifactRecord}
    (ha : a ∈ named (runtime.capture turn.now turn.captured record s.artifacts).2 turn.captured) :
    a.owner = record.owner := by
  obtain ⟨-, -, -, hstored⟩ := captures runtime turn.now turn.captured record s.artifacts
  obtain ⟨p, hp, hget⟩ := List.mem_filterMap.mp ha
  obtain ⟨hmem, heq⟩ := Catalog.get_eq_some.mp hget
  rcases hstored a hmem with hold | ⟨hnew, -⟩
  · have hnone := hfresh.artifacts p hp
    rw [Catalog.get_eq_some.mpr ⟨hold, heq⟩] at hnone
    cases hnone
  · exact hnew

theorem within_useSession (hfresh : Fresh turn s) :
    BrowserReached.Within executionId (runtime.useSession turn record s).1 ↔
      record.owner.executionId = some executionId := by
  obtain ⟨howner, -, -, -⟩ := captures runtime turn.now turn.captured record s.artifacts
  constructor
  · rintro ⟨hsessions, -⟩
    rw [← howner]
    exact hsessions _ (List.mem_singleton_self _)
  · intro hscoped
    refine ⟨fun r hr => ?_, fun a ha => ?_⟩
    · obtain rfl := List.mem_singleton.mp hr
      rw [howner]
      exact hscoped
    · rw [owner_of_captured hfresh ha]
      exact hscoped

/-- A session that is owned was recorded with the execution if it is not open to others. -/
theorem scoped_iff {recorded : OwnerClaims} (hid : owner.executionId = some executionId)
    (hne : executionId ≠ "") (howns : owner.owns recorded = true) :
    recorded.executionId = some executionId ↔ recorded.unscopedFor owner = false := by
  constructor
  · intro hscoped
    by_contra hunscoped
    exact (owns_of_unscopedFor hid hne (Bool.not_eq_false _ ▸ hunscoped)).2 hscoped
  · intro hscoped
    rcases owns_cases hid hne howns with h | h
    · exact h
    · rw [hscoped] at h
      cases h

theorem unscopedFor_of_not_owns {recorded : OwnerClaims}
    (hid : owner.executionId = some executionId) (hne : executionId ≠ "")
    (howns : owner.owns recorded = false) : recorded.unscopedFor owner = false := by
  by_contra hunscoped
  rw [(owns_of_unscopedFor hid hne (Bool.not_eq_false _ ▸ hunscoped)).1] at howns
  cases howns

theorem within_resolveSession {refused : SessionRecord → Bool}
    (hid : owner.executionId = some executionId) (hne : executionId ≠ "") (hfresh : Fresh turn s) :
    BrowserReached.Within executionId (runtime.resolveSession turn owner sessionId refused s).1 ↔
      ∀ r, (removeExpired turn.now turn.gone s.sessions).2.get sessionId = some r →
        r.owner.unscopedFor owner = false := by
  unfold resolveSession
  rcases resolve_cases turn.now turn.gone s.sessions owner sessionId true with
    ⟨e, closed, heq, hothers⟩ | ⟨record, closed, records, r, heq, hresolves, hderived, -⟩
  · rw [heq]
    exact ⟨fun _ r hr => unscopedFor_of_not_owns hid hne (hothers r hr), fun _ => within_empty⟩
  · rw [heq]
    dsimp only
    have hwithin : BrowserReached.Within executionId (if refused record
        then ({ sessions := [record] }, { s with sessions := records })
        else runtime.useSession turn record { s with sessions := records }).1 ↔
          record.owner.executionId = some executionId := by
      split
      · exact ⟨fun h => h.1 record (List.mem_singleton_self record), fun h =>
          ⟨fun r hr => List.mem_singleton.mp hr ▸ h, fun a ha => by cases ha⟩⟩
      · exact within_useSession (s := { s with sessions := records }) (hderived.fresh hfresh)
    refine hwithin.trans ?_
    rw [hresolves.owner_eq, scoped_iff hid hne hresolves.owns, hresolves.found]
    simp only [Option.some.injEq, forall_eq']

theorem within_closeSession (hid : owner.executionId = some executionId) (hne : executionId ≠ "")
    (hs : ArtifactsOwned s) (hfresh : Fresh turn s) :
    BrowserReached.Within executionId (runtime.closeSession turn owner sessionId s).1 ↔
      ∀ r, (removeExpired turn.now turn.gone s.sessions).2.get sessionId = some r →
        r.owner.unscopedFor owner = false := by
  unfold closeSession
  rcases resolve_cases turn.now turn.gone s.sessions owner sessionId false with
    ⟨e, closed, heq, hothers⟩ | ⟨record, closed, records, r, heq, hresolves, hderived, -⟩
  · rw [heq]
    exact ⟨fun _ r hr => unscopedFor_of_not_owns hid hne (hothers r hr), fun _ => within_empty⟩
  · rw [heq]
    have hrecord : RecordOwned record s.artifacts := hresolves.recordOwned hs fun _ h => h
    obtain ⟨hnamed, -⟩ := recordOwned_capture runtime
      (s := { s with sessions := records }) hrecord (hderived.artifactsOwned hs)
      (hderived.fresh hfresh)
    obtain ⟨howner, -, -, -⟩ := captures runtime turn.now turn.captured record s.artifacts
    have hwithin : BrowserReached.Within executionId
        { sessions := [(runtime.capture turn.now turn.captured record s.artifacts).1]
          artifacts := named (runtime.capture turn.now turn.captured record s.artifacts).2
            (runtime.capture turn.now turn.captured record s.artifacts).1.artifacts } ↔
        r.owner.executionId = some executionId := by
      rw [← hresolves.owner_eq, ← howner]
      constructor
      · rintro ⟨hsessions, -⟩
        exact hsessions _ (List.mem_singleton_self _)
      · intro hscoped
        refine ⟨fun r' hr' => ?_, fun a ha => ?_⟩
        · obtain rfl := List.mem_singleton.mp hr'
          exact hscoped
        · obtain ⟨p, hp, hget⟩ := List.mem_filterMap.mp ha
          rw [hnamed p hp a hget]
          exact hscoped
    refine hwithin.trans ?_
    rw [scoped_iff hid hne hresolves.owns, hresolves.found]
    simp only [Option.some.injEq, forall_eq']

/-- What an owner with an execution reaches by a request that is not refused. -/
theorem within_perform (hid : owner.executionId = some executionId) (hne : executionId ≠ "")
    (hs : ArtifactsOwned s) (hfresh : Fresh turn s) (request : BrowserRequest) :
    BrowserReached.Within executionId (runtime.perform turn owner request s).1 ↔
      ScopedRecords turn owner s request := by
  cases request with
  | openSession asked =>
    refine ⟨fun _ => trivial, fun _ => ?_⟩
    rcases create_cases runtime.registry turn.now turn.gone s.sessions turn.sessionId
      { asked with owner } with ⟨e, records, heq, hmem⟩ | heq
    · simp only [perform, heq]
      exact within_empty
    · simp only [perform, heq]
      exact (within_useSession (s := { s with sessions := _ })
        (derived_create.fresh hfresh)).mpr hid
  | openOnce asked =>
    refine ⟨fun _ => trivial, fun _ => ⟨fun r hr => ?_, fun a ha => ?_⟩⟩
    · cases hr
    · rw [owner_of_captured hfresh ha]
      exact hid
  | openExisting sessionId allowedHosts => exact within_resolveSession hid hne hfresh
  | extract sessionId => exact within_resolveSession hid hne hfresh
  | action sessionId => exact within_resolveSession hid hne hfresh
  | close sessionId => exact within_closeSession hid hne hs hfresh
  | sessions =>
    constructor
    · rintro ⟨hsessions, -⟩ r hr
      by_contra hunscoped
      obtain ⟨howns, hnot⟩ := owns_of_unscopedFor hid hne (Bool.not_eq_false _ ▸ hunscoped)
      exact hnot (hsessions r (List.mem_filter.mpr ⟨hr, howns⟩))
    · intro hscoped
      refine ⟨fun r hr => ?_, fun a ha => by cases ha⟩
      obtain ⟨hr, howns⟩ := List.mem_filter.mp hr
      exact (scoped_iff hid hne howns).mpr (hscoped r hr)
  | artifact artifactId =>
    constructor
    · rintro ⟨-, hartifacts⟩ a ha
      by_contra hunscoped
      obtain ⟨howns, hnot⟩ := owns_of_unscopedFor hid hne (Bool.not_eq_false _ ▸ hunscoped)
      exact hnot (hartifacts a (List.mem_filter.mpr ⟨by simp [ha], howns⟩))
    · intro hscoped
      refine ⟨fun r hr => (by cases hr), fun a ha => ?_⟩
      obtain ⟨ha, howns⟩ := List.mem_filter.mp ha
      exact (scoped_iff hid hne howns).mpr (hscoped a (Option.mem_toList.mp ha))
  | closeExecution executionId' =>
    refine ⟨fun _ => trivial, fun _ => ?_⟩
    simp only [perform]
    split
    · exact within_empty
    · next hsame =>
      obtain rfl : executionId = executionId' := by
        simpa [hid] using hsame
      refine ⟨fun r hr => ?_, fun a ha => by cases ha⟩
      simpa using (List.mem_filter.mp hr).2

end BrowserRuntime

/-- **What the holder of an execution's secret reaches** was recorded with that execution
exactly if the request is refused, or nothing that is asked for was recorded without one, open
to the identities that the holder chose. -/
theorem executionSecret_reaches_iff {runtime : BrowserRuntime} {s : BrowserState}
    (hs : runtime.Reachable s) {turn : BrowserTurn} (hfresh : BrowserRuntime.Fresh turn s)
    {codec : PayloadCodec} {verifier verifier' : CapabilityVerifier} {encoded executionId : String}
    {request : BrowserRequest} {now : ℤ} {capability : BrowserCapability}
    (hverify : verifier.verify codec (some ((hmac verifier.secret
      (executionMessage executionId)).sign encoded)) request.operation now =
        .ok (capability, verifier')) :
    ((∀ r ∈ (runtime.serve turn capability request s).1.sessions,
        r.owner.executionId = some executionId) ∧
      ∀ a ∈ (runtime.serve turn capability request s).1.artifacts,
        a.owner.executionId = some executionId) ↔
      BrowserRuntime.refuses turn capability request = true ∨
        BrowserRuntime.ScopedRecords turn capability.owner s request := by
  obtain ⟨hid, hne⟩ := verify_executionId hverify
  have hartifacts := BrowserRuntime.artifactsOwned_reachable hs
  unfold BrowserRuntime.serve
  split
  next hrefused => exact iff_of_true BrowserRuntime.within_empty (.inl hrefused)
  next hrefused =>
    rw [or_iff_right hrefused]
    exact BrowserRuntime.within_perform hid hne hartifacts hfresh request

/-! ### A worker and the sessions of a user -/

def smallRuntime : BrowserRuntime where
  registry := {
    idleTtl := seconds 900
    maximumTtl := seconds 3600
    maxSessionsPerOwner := 3
    maxSessionsTotal := 8 }
  retention := seconds 86400

def runtimeVerifier : CapabilityVerifier where
  secret := .text "0123456789abcdef0123456789abcdef"

/-- The worker of `execution-1` names a user of its choice. -/
def workerClaims : OwnerClaims where
  executionId := some "execution-1"
  userId := some "alice"

def workerPayload : Json :=
  .obj [("aud", .str "agency-browser-runtime"), ("iat", .num 0), ("exp", .num 30),
    ("jti", .str "nonce"),
    ("owner", .obj [("execution_id", .str "execution-1"), ("user_id", .str "alice")]),
    ("operations", .arr [.str "status"]), ("allowed_hosts", .arr [])]

def payloadCodec : PayloadCodec where
  decode encoded := if encoded = "payload" then some workerPayload else none
  repr _ := ""

theorem verify_workerPayload :
    ∃ capability verifier, runtimeVerifier.verify payloadCodec
      (some ((hmac runtimeVerifier.secret (executionMessage "execution-1")).sign "payload"))
      "status" 10 = .ok (capability, verifier) ∧ capability.owner = workerClaims := by
  have howner : (runtimeVerifier.verify payloadCodec
      (some ((hmac runtimeVerifier.secret (executionMessage "execution-1")).sign "payload"))
      "status" 10).toOption.map (fun p => p.1.owner) = some workerClaims := by decide +kernel
  rcases hverify : runtimeVerifier.verify payloadCodec (some ((hmac runtimeVerifier.secret
    (executionMessage "execution-1")).sign "payload")) "status" 10 with e | ⟨capability, verifier⟩
  · rw [hverify] at howner
    cases howner
  · rw [hverify] at howner
    exact ⟨capability, verifier, rfl, Option.some.inj howner⟩

/-- One session of `owner`. -/
def oneSession (owner : OwnerClaims) : BrowserState :=
  (smallRuntime.serve { sessionId := "brs_1" } {
      issuedAt := 0
      expiresAt := 30
      nonce := "nonce"
      owner
      operations := ["open"]
      allowedHosts := ["example.com"] }
    (.openSession { owner, handle := 0, engine := "patchright", allowedHosts := ["example.com"] })
    {}).2

theorem reachable_oneSession (owner : OwnerClaims) : smallRuntime.Reachable (oneSession owner) := by
  refine .serve _ _ _ .start ⟨fun p hp => ?_, fun p hp => ?_⟩
  · cases hp
  · cases hp

theorem fresh_default (s : BrowserState) : BrowserRuntime.Fresh {} s :=
  ⟨fun _ hp => (by cases hp), fun _ hp => (by cases hp)⟩

/-- The worker lists a session of its own execution. -/
theorem executionSecret_reaches_own :
    ∃ capability : BrowserCapability,
      (smallRuntime.serve {} capability .sessions (oneSession workerClaims)).1.sessions.map
        (·.sessionId) = ["brs_1"] ∧
      ∀ r ∈ (smallRuntime.serve {} capability .sessions
        (oneSession workerClaims)).1.sessions, r.owner.executionId = some "execution-1" := by
  obtain ⟨capability, verifier, hverify, howner⟩ := verify_workerPayload
  refine ⟨capability, ?_, ?_⟩
  · show (listForOwner (oneSession workerClaims).sessions capability.owner).map _ = _
    rw [howner]
    decide +kernel
  · have hverify' : runtimeVerifier.verify payloadCodec
        (some ((hmac runtimeVerifier.secret (executionMessage "execution-1")).sign "payload"))
        (BrowserRequest.operation .sessions) 10 = .ok (capability, verifier) := hverify
    refine ((executionSecret_reaches_iff (reachable_oneSession workerClaims) (fresh_default _)
      hverify').mpr (.inr ?_)).1
    rw [howner]
    show ∀ r ∈ (oneSession workerClaims).sessions.items, r.owner.unscopedFor workerClaims = false
    decide +kernel

/-- The worker lists a session that a user opened. -/
theorem executionSecret_reaches_user :
    ¬ ∀ (runtime : BrowserRuntime) (s : BrowserState), runtime.Reachable s →
      ∀ (turn : BrowserTurn), BrowserRuntime.Fresh turn s →
      ∀ (codec : PayloadCodec) (verifier verifier' : CapabilityVerifier)
        (encoded executionId : String) (request : BrowserRequest) (now : ℤ)
        (capability : BrowserCapability),
      verifier.verify codec (some ((hmac verifier.secret
        (executionMessage executionId)).sign encoded)) request.operation now =
          .ok (capability, verifier') →
      (∀ r ∈ (runtime.serve turn capability request s).1.sessions,
        r.owner.executionId = some executionId) ∧
      ∀ a ∈ (runtime.serve turn capability request s).1.artifacts,
        a.owner.executionId = some executionId := by
  intro hclaim
  obtain ⟨capability, verifier, hverify, howner⟩ := verify_workerPayload
  have hall := (hclaim smallRuntime _ (reachable_oneSession { userId := some "alice" }) {}
    (fresh_default _) _ _ _ _ _ .sessions _ _ hverify).1
  change ∀ r ∈ listForOwner (oneSession { userId := some "alice" }).sessions capability.owner,
    r.owner.executionId = some "execution-1" at hall
  rw [howner] at hall
  revert hall
  decide +kernel

end OpenAgency
