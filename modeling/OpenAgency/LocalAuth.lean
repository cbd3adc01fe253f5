/-
LocalAuth.lean

`LocalAuthService`: signing in with a password, which issues a session token, and changing
the credentials, which saves the user and revokes the sessions it finds.

Hashing, the random parts of a token and `str.lower` are parameters.  A call reads and
writes the repositories one operation at a time.
-/
import OpenAgency.Lib.Catalog
import OpenAgency.Lib.Pool
import OpenAgency.UserRepository

namespace OpenAgency

open Relational Interaction Dict

/-! ### Tokens -/

structure ApiToken where
  id : String
  ownerUserId : String
  name : String
  tokenHash : String
  tokenPrefix : String
  last4 : String
  scopes : List String
  expiresAt : Option Time
  revokedAt : Option Time := none
  metadata : Dict Json

abbrev ApiTokens := Catalog fun t : ApiToken => t.id

/-- `is_local_session`. -/
def ApiToken.isLocalSession (t : ApiToken) : Bool :=
  (t.metadata.getJson "issued_by").eq (.str "local_auth") && (t.metadata.getJson "session").isTrue

/-- A session that has not been revoked. -/
def ApiToken.isLive (t : ApiToken) : Bool := t.isLocalSession && t.revokedAt.isNone

/-! ### Surroundings -/

structure LocalAuth where
  store : UserStore
  lower : String → String
  /-- `bcrypt.checkpw`, where a malformed hash fits no password. -/
  verifyPassword : String → String → Bool
  /-- `bcrypt.hashpw`, of a password and a salt. -/
  hashPassword : String → String → String
  /-- `sha256(raw_token).hexdigest()`. -/
  tokenHash : String → String
  /-- `ALL_LOCAL_AUTH_SCOPES`. -/
  scopes : List String

/-- `_local_auth_metadata`. -/
def localAuthMetadata (user : UserDefinition) : Dict Json :=
  match user.metadata.get? "local_auth" with
  | some (.obj value) => value
  | _ => []

/-- The password hash of a user, if it is a string. -/
def UserDefinition.passwordHash (user : UserDefinition) : Option String :=
  ((localAuthMetadata user).get? "password_hash").bind Json.asStr?

/-- `has_local_password`. -/
def hasLocalPassword (user : UserDefinition) : Bool :=
  user.passwordHash.any fun hash => strip hash ≠ ""

/-! ### Failed attempts -/

/-- `_prune_local_auth_failures`. -/
def pruneLocalAuthFailures (now : ℚ) (failures : Dict (List ℚ)) : Dict (List ℚ) :=
  (failures.map fun p => (p.1, p.2.dropWhile fun t => decide (60 ≤ now - t))).filter
    fun p => !p.2.isEmpty

/-- `_reserve_local_auth_attempt`: whether one more attempt is admitted. -/
def reserveLocalAuthAttempt (email : String) (now : ℚ) (failures : Dict (List ℚ)) :
    Bool × Dict (List ℚ) :=
  let failures := pruneLocalAuthFailures now failures
  match failures.get? email with
  | none => if 4096 ≤ failures.length then (false, failures) else (true, failures.set email [now])
  | some times =>
    if 5 ≤ times.length then (false, failures) else (true, failures.set email (times ++ [now]))

/-! ### Repositories -/

structure AuthState where
  users : UserTable := {}
  tokens : ApiTokens := Catalog.empty
  failures : Dict (List ℚ) := []

inductive AuthOp where
  | reserve (email : String) (now : ℚ)
  | clearFailures (email : String)
  | findByEmail (email : String)
  | saveUser (user : UserDefinition)
  | createToken (token : ApiToken)
  | listByOwner (userId : String)
  | revokeToken (id : String) (now : Time)

abbrev AuthSig : Signature where
  Op := AuthOp
  Ret
    | .reserve _ _ => Bool
    | .clearFailures _ => Unit
    | .findByEmail _ => Option UserDefinition
    | .saveUser _ => Except RuntimeException UserDefinition
    | .createToken _ => Except RuntimeException ApiToken
    | .listByOwner _ => List ApiToken
    | .revokeToken _ _ => Unit

namespace LocalAuth

variable (auth : LocalAuth)

/-- `create` of a token repository: the table refuses an identifier or a hash it has, the
dict does not. -/
def createToken (t : ApiToken) (tokens : ApiTokens) : Except RuntimeException ApiToken × ApiTokens :=
  if auth.store = .sql && tokens.items.any fun t' => t'.id = t.id || t'.tokenHash = t.tokenHash then
    (.error ⟨.integrityError, "UNIQUE constraint failed: api_tokens"⟩, tokens)
  else (.ok t, tokens.put t)

/-- `update` with a revocation date. -/
def revokeToken (id : String) (now : Time) (tokens : ApiTokens) : ApiTokens :=
  match tokens.get id with
  | some t => tokens.put { t with revokedAt := some now }
  | none => tokens

def handler : Handler AuthSig AuthState
  | .reserve email now, s =>
    let r := reserveLocalAuthAttempt email now s.failures
    (r.1, { s with failures := r.2 })
  | .clearFailures email, s => ((), { s with failures := s.failures.filter (·.1 ≠ email) })
  | .findByEmail email, s => (findByEmail auth.lower auth.store s.users email, s)
  | .saveUser user, s =>
    let r := saveUser auth.lower auth.store s.users user
    (r.1, { s with users := r.2 })
  | .createToken t, s =>
    let r := auth.createToken t s.tokens
    (r.1, { s with tokens := r.2 })
  | .listByOwner userId, s => (s.tokens.items.filter (·.ownerUserId = userId), s)
  | .revokeToken id now, s => ((), { s with tokens := revokeToken id now s.tokens })

end LocalAuth

/-! ### Calls -/

inductive LocalAuthError where
  | rateLimit
  | credentialsUnavailable
  | currentPassword
  | emailConflict
  | valueError (message : String)
  | repository (e : RuntimeException)

/-- A call of `authenticate`, with the token it would issue. -/
structure SignIn where
  email : String
  password : String
  monotonic : ℚ
  rawToken : String
  tokenId : String
  now : Time

/-- A call of `update_credentials`, with the salt it draws. -/
structure CredentialUpdate where
  user : UserDefinition
  currentPassword : String
  email : String
  newPassword : Option String
  salt : String
  now : Time

/-- The new password of a call, where an empty one changes nothing. -/
def CredentialUpdate.normalizedPassword (call : CredentialUpdate) : Option String :=
  call.newPassword.filter (· ≠ "")

inductive LocalAuthCall where
  | authenticate (call : SignIn)
  | updateCredentials (call : CredentialUpdate)

inductive LocalAuthAnswer where
  | signedIn (token : ApiToken) (user : UserDefinition)
  | refused
  | updated (user : UserDefinition) (revokedSessions : ℕ)

abbrev AuthRun := Program AuthSig LocalAuthError

/-- What a repository has answered. -/
def performOrRaise {α : Type} (r : Except RuntimeException α) : AuthRun α :=
  match r with
  | .ok a => .done a
  | .error e => .raise (.repository e)

namespace LocalAuth

variable (auth : LocalAuth)

/-- The token that `authenticate` issues. -/
def issue (call : SignIn) (user : UserDefinition) : ApiToken where
  id := call.tokenId
  ownerUserId := user.id
  name := "Local auth session"
  tokenHash := auth.tokenHash call.rawToken
  tokenPrefix := takeChars 8 call.rawToken
  last4 := String.ofList (call.rawToken.toList.drop (call.rawToken.length - 4))
  scopes := auth.scopes
  expiresAt := some (call.now + seconds 86400)
  metadata := [("issued_by", .str "local_auth"), ("session", .bool true)]

/-- The password of a call fits the hash of a user. -/
def admits (call : SignIn) (user : UserDefinition) : Bool :=
  hasLocalPassword user && user.passwordHash.any (auth.verifyPassword call.password)

/-- `authenticate`. -/
def authenticate (call : SignIn) : AuthRun LocalAuthAnswer :=
  let normalizedEmail := auth.lower (strip call.email)
  if normalizedEmail = "" ∨ call.password = "" then .done .refused
  else .call (.reserve normalizedEmail call.monotonic) fun admitted =>
    if admitted = false then .raise .rateLimit
    else .call (.findByEmail normalizedEmail) fun found =>
      match found with
      | none => .done .refused
      | some user =>
        if auth.admits call user = false then .done .refused
        else .call (.clearFailures normalizedEmail) fun _ =>
          .call (.createToken (auth.issue call user)) fun created =>
            performOrRaise created >>= fun token => .done (.signedIn token user)

/-- The user as `update_credentials` saves it. -/
def updatedUser (call : CredentialUpdate) (normalizedEmail : String) : UserDefinition :=
  let now := Json.str (isoformat call.now)
  let withEmail := union (localAuthMetadata call.user)
    [("email", .str normalizedEmail), ("email_updated_at", now)]
  let withPassword := match call.normalizedPassword with
    | some password => union withEmail
        [("password_hash", .str (auth.hashPassword call.salt password)),
          ("password_updated_at", now)]
    | none => withEmail
  let updated := { call.user with
    email := normalizedEmail
    metadata := call.user.metadata.set "local_auth" (.obj withPassword) }
  if call.user.provider = some "local" then
    { updated with
      providerSubject := some normalizedEmail
      providerAccountId := some normalizedEmail }
  else updated

/-- What `update_credentials` objects to before it looks at other users. -/
def problem (call : CredentialUpdate) (normalizedEmail : String) : Option LocalAuthError :=
  if call.user.passwordHash.getD "" = "" then some .credentialsUnavailable
  else if !auth.verifyPassword call.currentPassword (call.user.passwordHash.getD "") then
    some .currentPassword
  else if normalizedEmail = "" then some (.valueError "Email is required.")
  else if call.normalizedPassword.any (·.length < 8) then
    some (.valueError "New password must be at least 8 characters.")
  else if normalizedEmail = auth.lower call.user.email ∧ call.normalizedPassword = none then
    some (.valueError "Change the email or provide a new password.")
  else none

/-- The loop that revokes sessions. -/
def revokeAll (now : Time) (user : UserDefinition) (revoked : ℕ) :
    List ApiToken → AuthRun LocalAuthAnswer
  | [] => .done (.updated user revoked)
  | t :: ts =>
    if t.isLive = false then revokeAll now user revoked ts
    else .call (.revokeToken t.id now) fun _ => revokeAll now user (revoked + 1) ts

/-- `update_credentials`. -/
def updateCredentials (call : CredentialUpdate) : AuthRun LocalAuthAnswer :=
  let normalizedEmail := auth.lower (strip call.email)
  match auth.problem call normalizedEmail with
  | some e => .raise e
  | none => .call (.findByEmail normalizedEmail) fun owner =>
    if owner.any (·.id ≠ call.user.id) then .raise .emailConflict
    else .call (.saveUser (auth.updatedUser call normalizedEmail)) fun saved =>
      performOrRaise saved >>= fun user =>
        .call (.listByOwner call.user.id) fun tokens => revokeAll call.now user 0 tokens

def code : LocalAuthCall → AuthRun LocalAuthAnswer
  | .authenticate call => auth.authenticate call
  | .updateCredentials call => auth.updateCredentials call

end LocalAuth

/-! ### What a repository keeps -/

section Rules

variable {auth : LocalAuth} {tokens : ApiTokens} {t t' : ApiToken}

/-- A token that is still live after a revocation has another identifier. -/
theorem mem_revokeToken {id : String} {now : Time} (hlive : t'.isLive)
    (h : t' ∈ (LocalAuth.revokeToken id now tokens).items) : t' ∈ tokens.items ∧ t'.id ≠ id := by
  unfold LocalAuth.revokeToken at h
  rcases hget : tokens.get id with - | t
  · rw [hget] at h
    refine ⟨h, fun hid => ?_⟩
    have hfound := Catalog.get_of_mem h
    rw [hid, hget] at hfound
    cases hfound
  · rw [hget] at h
    obtain ⟨-, hid⟩ := Catalog.get_eq_some.mp hget
    rcases Catalog.mem_put.mp h with rfl | ⟨hmem, hne⟩
    · simp [ApiToken.isLive] at hlive
    · exact ⟨hmem, hid ▸ hne⟩

/-- The saved user has the new password. -/
theorem passwordHash_updatedUser {call : CredentialUpdate} {normalizedEmail password : String}
    (h : call.normalizedPassword = some password) :
    (auth.updatedUser call normalizedEmail).passwordHash =
      some (auth.hashPassword call.salt password) := by
  have hmetadata : (auth.updatedUser call normalizedEmail).metadata.get? "local_auth" = some (.obj
      (union (union (localAuthMetadata call.user)
        [("email", .str normalizedEmail), ("email_updated_at", .str (isoformat call.now))])
        [("password_hash", .str (auth.hashPassword call.salt password)),
          ("password_updated_at", .str (isoformat call.now))])) := by
    unfold LocalAuth.updatedUser
    simp only [h]
    split <;> exact get?_set_self _ _ _
  rw [UserDefinition.passwordHash, localAuthMetadata, hmetadata]
  simp only [union, List.foldl_cons, List.foldl_nil]
  rw [get?_set_ne (by decide), get?_set_self]
  rfl

theorem id_updatedUser (call : CredentialUpdate) (normalizedEmail : String) :
    (auth.updatedUser call normalizedEmail).id = call.user.id := by
  unfold LocalAuth.updatedUser
  simp only
  split <;> rfl

end Rules

end OpenAgency
