/-
BrowserCapability.lean

The tokens of the browser runtime and what a request with one of them reaches.

An HMAC cannot be forged: `Secret.hmac` is a constructor, so two digests are equal only if
key and message are.  How a payload is encoded, and how `str` prints what is not a string,
is left open (`PayloadCodec`).
-/
import OpenAgency.SessionRegistry

namespace OpenAgency

open Relational

/-! ### Capabilities -/

/-- A secret text, or the digest of a message under a key. -/
inductive Secret where
  | text (s : String)
  | hmac (key : Secret) (message : String)
  deriving DecidableEq

/-- A digest has 43 characters in base 64. -/
def Secret.length : Secret → ℕ
  | text s => s.length
  | hmac _ _ => 43

/-- `HTTPException`, or an exception that is not caught. -/
inductive CapabilityError where
  | notConfigured
  | unauthorized (detail : String)
  | alreadyUsed
  | uncaught
  deriving DecidableEq

/-- A check that raises `e` where it fails. -/
def ensure (check : Bool) (e : CapabilityError) : Except CapabilityError Unit :=
  if check then .ok () else .error e

/-- A value that may be missing. -/
def found {α : Type} (x : Option α) (e : CapabilityError) : Except CapabilityError α :=
  match x with
  | some a => .ok a
  | none => .error e

structure CapabilityToken where
  encoded : String
  supplied : Secret

structure BrowserCapability where
  issuedAt : ℤ
  expiresAt : ℤ
  nonce : String
  owner : OwnerClaims
  operations : List String
  allowedHosts : List String

structure PayloadCodec where
  decode : String → Option Json
  repr : Json → String

/-- `OwnerClaims.model_validate`. -/
def OwnerClaims.modelValidate (value : Json) : Option OwnerClaims := do
  let field (key : String) : Option (Option String) :=
    match value.get? key with
    | none | some .null => some none
    | some (.str s) => some (some s)
    | some _ => none
  let _ ← value.asObj?
  let executionId ← field "execution_id"
  let workflowId ← field "workflow_id"
  let taskId ← field "task_id"
  let agentId ← field "agent_id"
  let workspaceId ← field "workspace_id"
  let userId ← field "user_id"
  let actor ← field "actor"
  some { executionId, workflowId, taskId, agentId, workspaceId, userId, actor }

def executionMessage (executionId : String) : String := "agency-browser-execution:" ++ executionId

/-- `derive_execution_secret`. -/
def deriveExecutionSecret (master : Secret) (executionId : String) :
    Except CapabilityError Secret :=
  if master.length < 32 then
    .error (.unauthorized "Browser runtime master secret must contain at least 32 characters")
  else .ok (.hmac master (executionMessage executionId))

/-- The token that the holder of a secret makes of a payload. -/
def Secret.sign (secret : Secret) (encoded : String) : CapabilityToken where
  encoded := encoded
  supplied := .hmac secret encoded

namespace PayloadCodec

variable (codec : PayloadCodec)

/-- `str(value)`. -/
def pyStr : Json → String
  | .str s => s
  | value => codec.repr value

/-- `tuple(str(value) for value in values)`. -/
def strings : Json → Except CapabilityError (List String)
  | .arr items => .ok (items.map codec.pyStr)
  | .str s => .ok (s.toList.map String.singleton)
  | .obj fields => .ok (fields.map Prod.fst)
  | _ => .error .uncaught

/-- The owner that a payload names. -/
def payloadOwner (payload : Json) : Option OwnerClaims :=
  (payload.get? "owner").bind OwnerClaims.modelValidate

/-- `peek_capability_owner`. -/
def peekCapabilityOwner (token : CapabilityToken) : Except CapabilityError OwnerClaims :=
  found ((codec.decode token.encoded).bind payloadOwner)
    (.unauthorized "Malformed browser capability")

/-- `int(payload[key])`; where a default is given the key may be missing. -/
def intField (payload : Json) (key : String) (default : Option ℤ := none) :
    Except CapabilityError ℤ :=
  match payload.get? key with
  | some value => found value.toInt.toOption .uncaught
  | none => found default .uncaught

/-- `verify_capability`. -/
def verifyCapability (secret : Secret) (token : CapabilityToken) (operation : String) (now : ℤ) :
    Except CapabilityError BrowserCapability := do
  ensure (token.supplied = .hmac secret token.encoded)
    (.unauthorized "Invalid browser capability signature")
  let payload ← found (codec.decode token.encoded) (.unauthorized "Malformed browser capability")
  let _ ← found payload.asObj? .uncaught
  ensure (((payload.get? "aud").getD .null).eq (.str "agency-browser-runtime"))
    (.unauthorized "Invalid browser capability audience")
  let iat ← intField payload "iat" (some 0)
  ensure (iat - 30 ≤ now) (.unauthorized "Browser capability is expired or not yet valid")
  let exp ← intField payload "exp" (some 0)
  ensure (now < exp) (.unauthorized "Browser capability is expired or not yet valid")
  let operations ← codec.strings ((payload.get? "operations").getD (.arr []))
  ensure (operation ∈ operations)
    (.unauthorized s!"Browser capability does not allow '{operation}'")
  let issuedAt ← intField payload "iat"
  let expiresAt ← intField payload "exp"
  let nonce ← found (payload.get? "jti") .uncaught
  let owner ← found (payloadOwner payload) .uncaught
  let allowedHosts ← codec.strings ((payload.get? "allowed_hosts").getD (.arr []))
  pure { issuedAt, expiresAt, nonce := codec.pyStr nonce, owner, operations, allowedHosts }

end PayloadCodec

structure CapabilityVerifier where
  secret : Secret
  usedNonces : List (String × ℤ) := []

/-- The secret of the execution that an owner names, or the master secret. -/
def CapabilityVerifier.verificationSecret (verifier : CapabilityVerifier) (owner : OwnerClaims) :
    Except CapabilityError Secret :=
  match owner.executionId with
  | none => .ok verifier.secret
  | some executionId =>
    if executionId = "" then .ok verifier.secret
    else deriveExecutionSecret verifier.secret executionId

/-- `CapabilityVerifier.verify` of a bearer token. -/
def CapabilityVerifier.verify (codec : PayloadCodec) (verifier : CapabilityVerifier)
    (authorization : Option CapabilityToken) (operation : String) (now : ℤ) :
    Except CapabilityError (BrowserCapability × CapabilityVerifier) := do
  ensure (32 ≤ verifier.secret.length) .notConfigured
  let token ← found authorization (.unauthorized "Browser runtime capability is required")
  let unverifiedOwner ← codec.peekCapabilityOwner token
  let verificationSecret ← verifier.verificationSecret unverifiedOwner
  let capability ← codec.verifyCapability verificationSecret token operation now
  let usedNonces := verifier.usedNonces.filter fun (_, expiry) => now < expiry
  ensure (usedNonces.lookup capability.nonce).isNone .alreadyUsed
  pure (capability,
    { verifier with usedNonces := usedNonces ++ [(capability.nonce, capability.expiresAt)] })

end OpenAgency
