/-
CapabilityReplay.lean

Runs of `CapabilityVerifier.verify`: which tokens are accepted, and how often.

A call reads the clock twice, once for the validity of the token and once more to drop the
nonces that have expired.  A token that expires in between is still valid while its nonce is
dropped, so that it is accepted again.  If no call has the expiry of its token between the
two readings, the nonces of all accepted tokens that have not expired are kept (`Remembers`),
and no token is accepted twice.
-/
import Mathlib.Data.List.Dedup
import OpenAgency.BrowserAuthority
import OpenAgency.GoalEvaluator

namespace OpenAgency

open List PayloadCodec

/-! ### Calls -/

/-- A call of `verify`, with what its two readings of the clock give: `current` is when the
token is checked, `now` when nonces are dropped. -/
structure VerifyCall where
  authorization : Option CapabilityToken
  operation : String
  current : ℤ
  now : ℤ

namespace CapabilityVerifier

variable (codec : PayloadCodec)

/-- The `try` of `verify`: the capability that a token bears. -/
def capabilityOf (verifier : CapabilityVerifier) (authorization : Option CapabilityToken)
    (operation : String) (current : ℤ) : Except CapabilityError BrowserCapability := do
  ensure (32 ≤ verifier.secret.length) .notConfigured
  let token ← found authorization (.unauthorized "Browser runtime capability is required")
  let unverifiedOwner ← codec.peekCapabilityOwner token
  let verificationSecret ← verifier.verificationSecret unverifiedOwner
  codec.verifyCapability verificationSecret token operation current

/-- The nonces that have not expired. -/
def prune (verifier : CapabilityVerifier) (now : ℤ) : CapabilityVerifier :=
  { verifier with usedNonces := verifier.usedNonces.filter fun (_, expiry) => now < expiry }

def remember (verifier : CapabilityVerifier) (capability : BrowserCapability) :
    CapabilityVerifier :=
  { verifier with
    usedNonces := verifier.usedNonces ++ [(capability.nonce, capability.expiresAt)] }

/-- `verify`, with the clock read twice; a call that is refused may have dropped nonces. -/
def verifyAt (verifier : CapabilityVerifier) (call : VerifyCall) :
    Except CapabilityError BrowserCapability × CapabilityVerifier :=
  match verifier.capabilityOf codec call.authorization call.operation call.current with
  | .error e => (.error e, verifier)
  | .ok capability =>
    if ((verifier.prune call.now).usedNonces.lookup capability.nonce).isSome then
      (.error .alreadyUsed, verifier.prune call.now)
    else (.ok capability, (verifier.prune call.now).remember capability)

/-- The verifier after some calls. -/
def after (verifier : CapabilityVerifier) (calls : List VerifyCall) : CapabilityVerifier :=
  calls.foldl (fun verifier call => (verifier.verifyAt codec call).2) verifier

/-- What a run of calls has accepted: each call, and the capability it has returned. -/
def accepted : CapabilityVerifier → List VerifyCall → List (VerifyCall × BrowserCapability)
  | _, [] => []
  | verifier, call :: rest =>
    ((verifier.verifyAt codec call).1.toOption.map (call, ·)).toList ++
      accepted (verifier.verifyAt codec call).2 rest

end CapabilityVerifier

/-- The clock does not go back, from `start` on. -/
def Chronological : ℤ → List VerifyCall → Prop
  | _, [] => True
  | start, call :: rest =>
    start ≤ call.current ∧ call.current ≤ call.now ∧ Chronological call.now rest

instance Chronological.decidable : (start : ℤ) → (calls : List VerifyCall) →
    Decidable (Chronological start calls)
  | _, [] => inferInstanceAs (Decidable True)
  | start, call :: rest =>
    have := Chronological.decidable call.now rest
    inferInstanceAs (Decidable (start ≤ call.current ∧ call.current ≤ call.now ∧
      Chronological call.now rest))

/-- The token does not expire between the two readings of the clock. -/
def VerifyCall.Undivided (codec : PayloadCodec) (call : VerifyCall) : Prop :=
  ∀ token expiry, call.authorization = some token → codec.expiry token = some expiry →
    call.current < expiry → call.now < expiry

/-! ### What is verified -/

section Verified

variable {codec : PayloadCodec} {secret : Secret} {token : CapabilityToken} {operation : String}
  {current : ℤ} {capability : BrowserCapability} {verifier : CapabilityVerifier}
  {call : VerifyCall}

theorem bears_of_capabilityOf {authorization : Option CapabilityToken}
    (h : verifier.capabilityOf codec authorization operation current = .ok capability) :
    ∃ token, authorization = some token ∧ Bears codec token operation current capability := by
  unfold CapabilityVerifier.capabilityOf at h
  obtain ⟨_, -, h⟩ := bind_eq_ok.mp h
  obtain ⟨token, htoken, h⟩ := bind_eq_ok.mp h
  obtain ⟨_, -, h⟩ := bind_eq_ok.mp h
  obtain ⟨_, -, h⟩ := bind_eq_ok.mp h
  exact ⟨token, found_ok htoken, (verifyCapability_ok h).2.2⟩

/-- What one call does. -/
theorem verifyAt_cases (codec : PayloadCodec) (verifier : CapabilityVerifier) (call : VerifyCall) :
    (∃ e, verifier.capabilityOf codec call.authorization call.operation call.current =
        .error e ∧ verifier.verifyAt codec call = (.error e, verifier)) ∨
    (∃ capability, verifier.capabilityOf codec call.authorization call.operation call.current =
        .ok capability ∧
      ((∃ expiry, (verifier.prune call.now).usedNonces.lookup capability.nonce = some expiry) ∧
        verifier.verifyAt codec call = (.error .alreadyUsed, verifier.prune call.now) ∨
      (verifier.prune call.now).usedNonces.lookup capability.nonce = none ∧
        verifier.verifyAt codec call =
          (.ok capability, (verifier.prune call.now).remember capability))) := by
  unfold CapabilityVerifier.verifyAt
  rcases hcapability : verifier.capabilityOf codec call.authorization call.operation call.current
    with e | capability
  · exact .inl ⟨e, rfl, rfl⟩
  · refine .inr ⟨capability, rfl, ?_⟩
    dsimp only
    rcases hused : (verifier.prune call.now).usedNonces.lookup capability.nonce with - | expiry
    · exact .inr ⟨rfl, if_neg Bool.false_ne_true⟩
    · exact .inl ⟨⟨expiry, rfl⟩, if_pos rfl⟩

/-- `verify`, were the clock read once. -/
theorem verify_eq_verifyAt (codec : PayloadCodec) (verifier : CapabilityVerifier)
    (authorization : Option CapabilityToken) (operation : String) (now : ℤ) :
    verifier.verify codec authorization operation now =
      (verifier.verifyAt codec ⟨authorization, operation, now, now⟩).1.map
        (·, (verifier.verifyAt codec ⟨authorization, operation, now, now⟩).2) := by
  have hverify : verifier.verify codec authorization operation now =
      (verifier.capabilityOf codec authorization operation now >>= fun capability =>
        ensure ((verifier.prune now).usedNonces.lookup capability.nonce).isNone .alreadyUsed >>=
          fun _ => pure (capability, (verifier.prune now).remember capability)) := by
    unfold CapabilityVerifier.verify CapabilityVerifier.capabilityOf
    simp only [bind_assoc]
    rfl
  rw [hverify]
  rcases verifyAt_cases codec verifier ⟨authorization, operation, now, now⟩ with
    ⟨e, hrefused, heq⟩ | ⟨capability, hcapability, ⟨⟨expiry, hused⟩, heq⟩ | ⟨hunused, heq⟩⟩
  · rw [hrefused, heq]
    rfl
  · rw [hcapability, heq]
    show (ensure ((verifier.prune now).usedNonces.lookup capability.nonce).isNone _ >>= _) = _
    rw [hused]
    rfl
  · rw [hcapability, heq]
    show (ensure ((verifier.prune now).usedNonces.lookup capability.nonce).isNone _ >>= _) = _
    rw [hunused]
    rfl

end Verified

/-! ### Runs -/

section Runs

variable {codec : PayloadCodec} {verifier : CapabilityVerifier} {call : VerifyCall}
  {capability : BrowserCapability} {history : List (VerifyCall × BrowserCapability)} {now : ℤ}

/-- At `now`, the verifier knows the nonces of all tokens that it has accepted and that have not
expired, and no others. -/
structure Remembers (codec : PayloadCodec) (history : List (VerifyCall × BrowserCapability))
    (now : ℤ) (verifier : CapabilityVerifier) : Prop where
  borne : ∀ a ∈ history, ∃ token, a.1.authorization = some token ∧
    Bears codec token a.1.operation a.1.current a.2
  kept : ∀ a ∈ history, now < a.2.expiresAt → (a.2.nonce, a.2.expiresAt) ∈ verifier.usedNonces
  known : ∀ p ∈ verifier.usedNonces, ∃ a ∈ history, a.2.nonce = p.1

theorem Remembers.start (codec : PayloadCodec) (secret : Secret) (now : ℤ) :
    Remembers codec [] now { secret } where
  borne _ ha := absurd ha not_mem_nil
  kept _ ha := absurd ha not_mem_nil
  known _ hp := absurd hp not_mem_nil

theorem Remembers.later {later : ℤ} (h : Remembers codec history now verifier)
    (hlater : now ≤ later) : Remembers codec history later verifier where
  borne := h.borne
  kept a ha hexpiry := h.kept a ha (hlater.trans_lt hexpiry)
  known := h.known

theorem Remembers.prune {later : ℤ} (h : Remembers codec history now verifier)
    (hlater : now ≤ later) : Remembers codec history later (verifier.prune later) where
  borne := h.borne
  kept a ha hexpiry := List.mem_filter.mpr
    ⟨h.kept a ha (hlater.trans_lt hexpiry), decide_eq_true hexpiry⟩
  known p hp := h.known p (mem_of_mem_filter hp)

theorem Remembers.remember {token : CapabilityToken} (h : Remembers codec history now verifier)
    (htoken : call.authorization = some token)
    (hbears : Bears codec token call.operation call.current capability) :
    Remembers codec (history ++ [(call, capability)]) now (verifier.remember capability) := by
  refine ⟨fun a ha => ?_, fun a ha hexpiry => ?_, fun p hp => ?_⟩
  · rcases List.mem_append.mp ha with ha | ha
    · exact h.borne a ha
    · obtain rfl := List.mem_singleton.mp ha
      exact ⟨token, htoken, hbears⟩
  · rcases List.mem_append.mp ha with ha | ha
    · exact mem_append_left _ (h.kept a ha hexpiry)
    · obtain rfl := List.mem_singleton.mp ha
      exact mem_append_right _ (mem_singleton_self _)
  · rcases List.mem_append.mp hp with hp | hp
    · obtain ⟨a, ha, hnonce⟩ := h.known p hp
      exact ⟨a, mem_append_left _ ha, hnonce⟩
    · obtain rfl := List.mem_singleton.mp hp
      exact ⟨(call, capability), mem_append_right _ (mem_singleton_self _), rfl⟩

/-- **One call** keeps the nonces. -/
theorem Remembers.verifyAt (h : Remembers codec history now verifier)
    (hcurrent : now ≤ call.current) (hnow : call.current ≤ call.now) :
    Remembers codec (history ++ ((verifier.verifyAt codec call).1.toOption.map (call, ·)).toList)
      call.now (verifier.verifyAt codec call).2 := by
  have hlater := hcurrent.trans hnow
  rcases verifyAt_cases codec verifier call with
    ⟨e, -, heq⟩ | ⟨capability, hcapability, ⟨-, heq⟩ | ⟨-, heq⟩⟩
  · rw [heq]
    show Remembers codec (history ++ []) call.now verifier
    rw [append_nil]
    exact h.later hlater
  · rw [heq]
    show Remembers codec (history ++ []) call.now (verifier.prune call.now)
    rw [append_nil]
    exact h.prune hlater
  · obtain ⟨token, htoken, hbears⟩ := bears_of_capabilityOf hcapability
    rw [heq]
    exact (h.prune hlater).remember htoken hbears

/-- **A token that has been accepted before** is refused, unless its nonce is dropped after the
token has been checked. -/
theorem Remembers.fresh (h : Remembers codec history now verifier)
    (hcurrent : now ≤ call.current) (hundivided : call.Undivided codec)
    (hok : (verifier.verifyAt codec call).1 = .ok capability) :
    ∀ a ∈ history, a.1.authorization ≠ call.authorization := by
  intro a ha hsame
  obtain ⟨token, htoken, hbefore⟩ := h.borne a ha
  rcases verifyAt_cases codec verifier call with
    ⟨e, -, heq⟩ | ⟨capability', hcapability, ⟨-, heq⟩ | ⟨hunused, heq⟩⟩
  · rw [heq] at hok
    cases hok
  · rw [heq] at hok
    cases hok
  · obtain ⟨token', htoken', hbears⟩ := bears_of_capabilityOf hcapability
    obtain rfl : token' = token := Option.some.inj (htoken'.symm.trans (hsame.symm.trans htoken))
    have hexpiry : capability'.expiresAt = a.2.expiresAt :=
      Option.some.inj (hbears.expiry.symm.trans hbefore.expiry)
    have hnonce : capability'.nonce = a.2.nonce :=
      Option.some.inj (hbears.nonce.symm.trans hbefore.nonce)
    have hvalid : call.current < a.2.expiresAt := by
      rw [← hexpiry]
      exact hbears.notExpired
    have hstill : call.now < a.2.expiresAt :=
      hundivided token' a.2.expiresAt htoken' hbefore.expiry hvalid
    have hused : (a.2.nonce, a.2.expiresAt) ∈ (verifier.prune call.now).usedNonces :=
      List.mem_filter.mpr ⟨h.kept a ha (hcurrent.trans_lt hvalid), decide_eq_true hstill⟩
    have hne := List.lookup_eq_none_iff.mp hunused _ hused
    rw [hnonce] at hne
    simp at hne

/-- **A run** in which no call is divided accepts no token twice. -/
theorem Remembers.pairwise {calls : List VerifyCall} (h : Remembers codec history now verifier)
    (hclock : Chronological now calls) (hundivided : ∀ call ∈ calls, call.Undivided codec)
    (hpairwise : history.Pairwise fun a b => a.1.authorization ≠ b.1.authorization) :
    (history ++ verifier.accepted codec calls).Pairwise
      fun a b => a.1.authorization ≠ b.1.authorization := by
  induction calls generalizing history now verifier with
  | nil =>
    rw [CapabilityVerifier.accepted, append_nil]
    exact hpairwise
  | cons call rest ih =>
    obtain ⟨hcurrent, hnow, hrest⟩ := hclock
    rw [CapabilityVerifier.accepted, ← append_assoc]
    refine ih (h.verifyAt hcurrent hnow) hrest
      (fun call hcall => hundivided call (mem_cons_of_mem _ hcall)) ?_
    rcases hresult : (verifier.verifyAt codec call).1 with e | capability
    · show (history ++ []).Pairwise _
      rw [append_nil]
      exact hpairwise
    · show (history ++ [(call, capability)]).Pairwise _
      refine List.pairwise_append.mpr ⟨hpairwise, pairwise_singleton _ _, fun a ha b hb => ?_⟩
      obtain rfl := List.mem_singleton.mp hb
      exact h.fresh hcurrent (hundivided call mem_cons_self) hresult a ha

/-- The state that a run leaves, and what it has accepted by then. -/
theorem Remembers.after {calls : List VerifyCall} (h : Remembers codec history now verifier)
    (hclock : Chronological now calls) :
    ∃ later, Remembers codec (history ++ verifier.accepted codec calls) later
      (verifier.after codec calls) := by
  induction calls generalizing history now verifier with
  | nil =>
    refine ⟨now, ?_⟩
    rw [CapabilityVerifier.accepted, append_nil]
    exact h
  | cons call rest ih =>
    obtain ⟨hcurrent, hnow, hrest⟩ := hclock
    rw [CapabilityVerifier.accepted, ← append_assoc]
    exact ih (h.verifyAt hcurrent hnow) hrest

end Runs

/-! ### Tokens that are issued -/

/-- `s.rstrip(".")`. -/
def rstripDots (s : String) : String := String.ofList (s.toList.rdropWhile (· = '.'))

/-- `owner.model_dump(exclude_none=True)`, its keys sorted. -/
def OwnerClaims.dump (owner : OwnerClaims) : Json :=
  .obj ([("actor", owner.actor), ("agent_id", owner.agentId),
    ("execution_id", owner.executionId), ("task_id", owner.taskId), ("user_id", owner.userId),
    ("workflow_id", owner.workflowId), ("workspace_id", owner.workspaceId)].filterMap
      fun (key, value) => value.map (key, .str ·))

/-- What a capability is issued for; `lower` is `str.lower`, `jti` the random nonce. -/
structure CapabilityGrant where
  owner : OwnerClaims
  operations : List String
  allowedHosts : List String
  ttlSeconds : ℤ
  issuedAt : ℤ
  jti : String
  lower : String → String

namespace CapabilityGrant

variable (grant : CapabilityGrant)

def expiresAt : ℤ := grant.issuedAt + max 1 (min grant.ttlSeconds 300)

/-- The payload of `issue_capability`, its keys sorted. -/
def payload : Json :=
  .obj [("allowed_hosts", .strs (sortedSet (grant.allowedHosts.map (rstripDots ∘ grant.lower)))),
    ("aud", .str "agency-browser-runtime"), ("exp", .num grant.expiresAt),
    ("iat", .num grant.issuedAt), ("jti", .str grant.jti),
    ("operations", .strs (sortedSet grant.operations)), ("owner", grant.owner.dump)]

/-- The capability that is granted. -/
def capability : BrowserCapability where
  issuedAt := grant.issuedAt
  expiresAt := grant.expiresAt
  nonce := grant.jti
  owner := grant.owner
  operations := sortedSet grant.operations
  allowedHosts := sortedSet (grant.allowedHosts.map (rstripDots ∘ grant.lower))

/-- `issue_capability`; `encode` is how a payload is written, in JSON and base 64. -/
def issueCapability (encode : Json → String) (secret : Secret) :
    Except CapabilityError CapabilityToken := do
  ensure (32 ≤ secret.length)
    (.unauthorized "Browser runtime signing secret must contain at least 32 characters")
  ensure grant.owner.isIdentified
    (.unauthorized "Browser capabilities require an execution or authenticated actor owner")
  pure (secret.sign (encode grant.payload))

end CapabilityGrant

section Issued

variable {codec : PayloadCodec} {encode : Json → String} {grant : CapabilityGrant}
  {secret : Secret} {token : CapabilityToken} {operation : String} {current : ℤ}
  {verifier : CapabilityVerifier}

theorem ensure_of {check : Bool} {e : CapabilityError} (h : check = true) :
    ensure check e = .ok () := if_pos h

theorem found_of {α : Type} {x : Option α} {e : CapabilityError} {a : α} (h : x = some a) :
    found x e = .ok a := by
  rw [h]
  rfl

theorem modelValidate_dump (owner : OwnerClaims) :
    OwnerClaims.modelValidate owner.dump = some owner := by
  obtain ⟨executionId, workflowId, taskId, agentId, workspaceId, userId, actor⟩ := owner
  cases executionId <;> cases workflowId <;> cases taskId <;> cases agentId <;>
    cases workspaceId <;> cases userId <;> cases actor <;> rfl

theorem strings_strs (codec : PayloadCodec) (items : List String) :
    codec.strings (.strs items) = .ok items := by
  show Except.ok ((items.map Json.str).map codec.pyStr) = Except.ok items
  rw [map_map]
  exact congrArg Except.ok (map_id'' (fun s => rfl) items)

theorem intField_payload {payload : Json} {key : String} {n : ℤ}
    (h : payload.get? key = some (.num n)) (default : Option ℤ) :
    intField payload key default = .ok n := by
  unfold intField
  rw [h]
  show found (Json.num n).toInt.toOption .uncaught = _
  rw [Json.toInt_num]
  rfl

/-- A token that has been issued is verified with the secret that it was signed with. -/
theorem verifyCapability_issued (hcodec : codec.decode (encode grant.payload) = some grant.payload)
    (hallows : operation ∈ grant.operations) (hfrom : grant.issuedAt - 30 ≤ current)
    (huntil : current < grant.expiresAt) :
    codec.verifyCapability secret (secret.sign (encode grant.payload)) operation current =
      .ok grant.capability := by
  have hiat : grant.payload.get? "iat" = some (.num grant.issuedAt) := rfl
  have hexp : grant.payload.get? "exp" = some (.num grant.expiresAt) := rfl
  have howner : payloadOwner grant.payload = some grant.owner :=
    modelValidate_dump grant.owner
  have hoperations : grant.payload.get? "operations" =
      some (.strs (sortedSet grant.operations)) := rfl
  have hhosts : grant.payload.get? "allowed_hosts" =
      some (.strs (sortedSet (grant.allowedHosts.map (rstripDots ∘ grant.lower)))) := rfl
  have hmem : operation ∈ sortedSet grant.operations := by
    rw [sortedSet, mem_insertionSort, mem_dedup]
    exact hallows
  have hobj : grant.payload.asObj? = some grant.payload := rfl
  have haud : (((grant.payload.get? "aud").getD .null).eq (.str "agency-browser-runtime")) =
      true := rfl
  have hnonce : grant.payload.get? "jti" = some (.str grant.jti) := rfl
  unfold verifyCapability
  refine bind_eq_ok.mpr ⟨(), ensure_of (decide_eq_true rfl), ?_⟩
  refine bind_eq_ok.mpr ⟨grant.payload, found_of hcodec, ?_⟩
  refine bind_eq_ok.mpr ⟨grant.payload, found_of hobj, ?_⟩
  refine bind_eq_ok.mpr ⟨(), ensure_of haud, ?_⟩
  refine bind_eq_ok.mpr ⟨grant.issuedAt, intField_payload hiat _, ?_⟩
  refine bind_eq_ok.mpr ⟨(), ensure_of (decide_eq_true hfrom), ?_⟩
  refine bind_eq_ok.mpr ⟨grant.expiresAt, intField_payload hexp _, ?_⟩
  refine bind_eq_ok.mpr ⟨(), ensure_of (decide_eq_true huntil), ?_⟩
  refine bind_eq_ok.mpr ⟨sortedSet grant.operations, ?_, ?_⟩
  · rw [hoperations]
    exact strings_strs codec _
  refine bind_eq_ok.mpr ⟨(), ensure_of (decide_eq_true hmem), ?_⟩
  refine bind_eq_ok.mpr ⟨grant.issuedAt, intField_payload hiat _, ?_⟩
  refine bind_eq_ok.mpr ⟨grant.expiresAt, intField_payload hexp _, ?_⟩
  refine bind_eq_ok.mpr ⟨.str grant.jti, found_of hnonce, ?_⟩
  refine bind_eq_ok.mpr ⟨grant.owner, found_of howner, ?_⟩
  refine bind_eq_ok.mpr ⟨sortedSet (grant.allowedHosts.map (rstripDots ∘ grant.lower)), ?_, rfl⟩
  rw [hhosts]
  exact strings_strs codec _

/-- **A token that has been issued** with the secret that its owner is verified with is accepted,
if its nonce is not among those that are kept. -/
theorem verifyAt_issued {call : VerifyCall}
    (hissued : grant.issueCapability encode secret = .ok token)
    (hsecret : verifier.verificationSecret grant.owner = .ok secret)
    (hcodec : codec.decode (encode grant.payload) = some grant.payload)
    (htoken : call.authorization = some token) (hallows : call.operation ∈ grant.operations)
    (hfrom : grant.issuedAt - 30 ≤ call.current) (huntil : call.current < grant.expiresAt)
    (hunused : ∀ p ∈ verifier.usedNonces, p.1 ≠ grant.jti) :
    ∃ capability, (verifier.verifyAt codec call).1 = .ok capability := by
  obtain ⟨_, hlength, hissued⟩ := bind_eq_ok.mp hissued
  obtain ⟨_, -, hissued⟩ := bind_eq_ok.mp hissued
  obtain rfl : secret.sign (encode grant.payload) = token := Except.ok.inj hissued
  have hconfigured : 32 ≤ verifier.secret.length := by
    unfold CapabilityVerifier.verificationSecret at hsecret
    split at hsecret
    · obtain rfl := Except.ok.inj hsecret
      exact of_decide_eq_true (ensure_ok hlength)
    · split at hsecret
      · obtain rfl := Except.ok.inj hsecret
        exact of_decide_eq_true (ensure_ok hlength)
      · unfold deriveExecutionSecret at hsecret
        split at hsecret
        · cases hsecret
        next h => exact Nat.not_lt.mp h
  have hpeek : codec.peekCapabilityOwner (secret.sign (encode grant.payload)) =
      .ok grant.owner := by
    show found ((codec.decode (encode grant.payload)).bind payloadOwner) _ = _
    rw [hcodec]
    show found (OwnerClaims.modelValidate grant.owner.dump) _ = _
    rw [modelValidate_dump]
    rfl
  have hcapability : verifier.capabilityOf codec call.authorization call.operation call.current =
      .ok grant.capability := by
    rw [htoken]
    unfold CapabilityVerifier.capabilityOf
    refine bind_eq_ok.mpr ⟨(), ensure_of (decide_eq_true hconfigured), ?_⟩
    refine bind_eq_ok.mpr ⟨_, found_of rfl, bind_eq_ok.mpr ⟨grant.owner, hpeek, ?_⟩⟩
    exact bind_eq_ok.mpr ⟨secret, hsecret,
      verifyCapability_issued hcodec hallows hfrom huntil⟩
  rcases verifyAt_cases codec verifier call with
    ⟨e, hrefused, heq⟩ | ⟨capability, hverified, ⟨⟨expiry, hused⟩, -⟩ | ⟨-, heq⟩⟩
  · rw [hcapability] at hrefused
    cases hrefused
  · -- a nonce that is kept is not the one that was issued
    obtain rfl := Except.ok.inj (hcapability.symm.trans hverified)
    obtain ⟨before, rest, hsplit, -⟩ := List.lookup_eq_some_iff.mp hused
    have hmem : (grant.jti, expiry) ∈ (verifier.prune call.now).usedNonces := by
      rw [hsplit]
      exact mem_append_right _ mem_cons_self
    exact absurd rfl (hunused _ (mem_of_mem_filter hmem))
  · exact ⟨capability, by rw [heq]⟩

end Issued

/-! ### Single use -/

theorem secret_verifyAt (codec : PayloadCodec) (verifier : CapabilityVerifier)
    (call : VerifyCall) : (verifier.verifyAt codec call).2.secret = verifier.secret := by
  rcases verifyAt_cases codec verifier call with
    ⟨e, -, heq⟩ | ⟨capability, -, ⟨-, heq⟩ | ⟨-, heq⟩⟩
  all_goals exact congrArg (fun r => r.2.secret) heq

theorem secret_after (codec : PayloadCodec) (verifier : CapabilityVerifier)
    (calls : List VerifyCall) : (verifier.after codec calls).secret = verifier.secret := by
  induction calls generalizing verifier with
  | nil => rfl
  | cons call rest ih => exact (ih _).trans (secret_verifyAt codec verifier call)

/-- **Capabilities are used once.**  In every run of calls along a clock that does not go back,
no token is accepted twice if no call has the expiry of its token between its two readings of the
clock.  In any case an accepted token allows the operation and is valid when it is checked, and a
token that has been issued is accepted unless one with its nonce has been before. -/
theorem capabilities_singleUse {codec : PayloadCodec} {secret : Secret} {start : ℤ}
    {calls : List VerifyCall} (hclock : Chronological start calls) :
    ((∀ call ∈ calls, call.Undivided codec) →
      (({ secret } : CapabilityVerifier).accepted codec calls).Pairwise
        fun a b => a.1.authorization ≠ b.1.authorization) ∧
    (∀ a ∈ ({ secret } : CapabilityVerifier).accepted codec calls,
      a.1.operation ∈ a.2.operations ∧ a.2.issuedAt - 30 ≤ a.1.current ∧
        a.1.current < a.2.expiresAt) ∧
    ∀ (encode : Json → String) (grant : CapabilityGrant) (key : Secret) (token : CapabilityToken)
      (call : VerifyCall), grant.issueCapability encode key = .ok token →
      ({ secret } : CapabilityVerifier).verificationSecret grant.owner = .ok key →
      codec.decode (encode grant.payload) = some grant.payload →
      call.authorization = some token → call.operation ∈ grant.operations →
      grant.issuedAt - 30 ≤ call.current → call.current < grant.expiresAt →
      (∀ a ∈ ({ secret } : CapabilityVerifier).accepted codec calls, a.2.nonce ≠ grant.jti) →
        ∃ capability,
          ((({ secret } : CapabilityVerifier).after codec calls).verifyAt codec call).1 =
            .ok capability := by
  have hstart := Remembers.start codec secret start
  obtain ⟨later, hafter⟩ := hstart.after hclock
  rw [nil_append] at hafter
  refine ⟨fun hundivided => ?_, fun a ha => ?_, ?_⟩
  · exact hstart.pairwise hclock hundivided List.Pairwise.nil
  · obtain ⟨token, -, hbears⟩ := hafter.borne a ha
    exact ⟨hbears.allows, hbears.notBefore, hbears.notExpired⟩
  · intro encode grant key token call hissued hkey hcodec htoken hallows hfrom huntil hother
    refine verifyAt_issued hissued ?_ hcodec htoken hallows hfrom huntil fun p hp => ?_
    · unfold CapabilityVerifier.verificationSecret at hkey ⊢
      rw [secret_after]
      exact hkey
    · obtain ⟨a, ha, hnonce⟩ := hafter.known p hp
      rw [← hnonce]
      exact hother a ha

/-! ### A token that expires while it is verified -/

namespace Replayed

/-- What a worker is granted for thirty seconds. -/
def grant : CapabilityGrant where
  owner := workerClaims
  operations := ["status"]
  allowedHosts := []
  ttlSeconds := 30
  issuedAt := 0
  jti := "nonce"
  lower := id

def codec : PayloadCodec where
  decode encoded := if encoded = "payload" then some grant.payload else none
  repr _ := ""

def encode : Json → String := fun _ => "payload"

def verifier : CapabilityVerifier where
  secret := runtimeVerifier.secret

def key : Secret := .hmac verifier.secret (executionMessage "execution-1")

/-- The token of the worker. -/
def token : CapabilityToken := key.sign "payload"

theorem issued : grant.issueCapability encode key = .ok token := rfl

/-- The token is presented, and once more while its last second ends. -/
def calls : List VerifyCall :=
  [⟨some token, "status", 10, 10⟩, ⟨some token, "status", 29, 30⟩]

theorem accepted_twice : verifier.accepted codec calls =
    [(⟨some token, "status", 10, 10⟩, grant.capability),
      (⟨some token, "status", 29, 30⟩, grant.capability)] := rfl

/-- The token is presented twice before its last second ends. -/
def earlier : List VerifyCall :=
  [⟨some token, "status", 10, 10⟩, ⟨some token, "status", 28, 29⟩]

theorem undivided_earlier : ∀ call ∈ earlier, call.Undivided codec := by
  intro call hcall token' expiry htoken hexpiry _
  have hthirty : codec.expiry token = some 30 := rfl
  rcases List.mem_cons.mp hcall with rfl | hcall
  · obtain rfl : token = token' := Option.some.inj htoken
    obtain rfl := Option.some.inj (hthirty.symm.trans hexpiry)
    decide
  · obtain rfl := List.mem_singleton.mp hcall
    obtain rfl : token = token' := Option.some.inj htoken
    obtain rfl := Option.some.inj (hthirty.symm.trans hexpiry)
    decide

end Replayed

open Replayed in
/-- Presented twice within one second of its life, the token is accepted once; and it is accepted
where none has been before. -/
theorem capabilities_singleUse_earlier :
    ((verifier.accepted codec earlier).Pairwise
      fun a b => a.1.authorization ≠ b.1.authorization) ∧
    ∃ capability, (verifier.verifyAt codec ⟨some token, "status", 10, 10⟩).1 = .ok capability :=
  ⟨(@capabilities_singleUse codec verifier.secret 0 earlier (by decide)).1 undivided_earlier,
    (@capabilities_singleUse codec verifier.secret 0 [] trivial).2.2 encode grant key token
      ⟨some token, "status", 10, 10⟩ issued rfl rfl rfl (mem_singleton_self _) (by decide)
      (by decide) (fun a ha => absurd ha not_mem_nil)⟩

open Replayed in
/-- A token may be accepted twice. -/
theorem capability_replayed :
    ¬ ∀ (codec : PayloadCodec) (secret : Secret) (start : ℤ) (calls : List VerifyCall),
      Chronological start calls →
        (({ secret } : CapabilityVerifier).accepted codec calls).Pairwise
          fun a b => a.1.authorization ≠ b.1.authorization := by
  intro hall
  have hpairwise := hall codec runtimeVerifier.secret 0 calls (by decide)
  have heq : ({ secret := runtimeVerifier.secret } : CapabilityVerifier).accepted codec calls = _ :=
    accepted_twice
  rw [heq] at hpairwise
  exact (List.pairwise_cons.mp hpairwise).1 _ (mem_singleton_self _) rfl

end OpenAgency
