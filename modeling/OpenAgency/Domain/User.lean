/-
Domain/User.lean

Users, and how a stored user and the claims of an identity provider become one record.

`str.lower` follows the Unicode tables, which are not spelled out here: the function is
a parameter.
-/
import OpenAgency.Domain.Basic

namespace OpenAgency

inductive UserStatus where
  | active
  | disabled
  | invited
  deriving DecidableEq

structure UserDefinition where
  id : String
  email : String
  displayName : Option String := none
  avatarUrl : Option String := none
  status : UserStatus := .active
  roles : List String := []
  provider : Option String := none
  providerSubject : Option String := none
  providerAccountId : Option String := none
  metadata : Dict Json := []

/-- What an identity provider says of a user.  `roles` and `metadata` count only where
the claims set them. -/
structure IdentityClaims where
  user : UserDefinition
  rolesSet : Bool := false
  metadataSet : Bool := false

namespace UserDefinition

/-- The identity a user signs in with: a provider and a subject, neither of them empty. -/
def identity (u : UserDefinition) : Option (String × String) :=
  match u.provider, u.providerSubject with
  | some provider, some subject => if provider ≠ "" ∧ subject ≠ "" then some (provider, subject) else none
  | _, _ => none

theorem identity_eq_some {u : UserDefinition} {a : String × String} :
    u.identity = some a ↔
      u.provider = some a.1 ∧ u.providerSubject = some a.2 ∧ a.1 ≠ "" ∧ a.2 ≠ "" := by
  obtain ⟨p, s⟩ := a
  rcases hp : u.provider with - | provider
  · simp [identity, hp]
  · rcases hs : u.providerSubject with - | subject
    · simp [identity, hp, hs]
    · simp only [identity, hp, hs, ne_eq, Option.ite_none_right_eq_some, Option.some.injEq,
        Prod.mk.injEq]
      constructor
      · rintro ⟨⟨hne, hne'⟩, rfl, rfl⟩
        exact ⟨rfl, rfl, hne, hne'⟩
      · rintro ⟨rfl, rfl, hne, hne'⟩
        exact ⟨⟨hne, hne'⟩, rfl, rfl⟩

/-- A string under a key of a nested dict, stripped; a blank one counts as missing. -/
def setting? (u : UserDefinition) (key field : String) : Option String :=
  match u.metadata.get? key with
  | some (.obj values) =>
    match values.lookup field with
    | some (.str s) => if strip s ≠ "" then some (strip s) else none
    | _ => none
  | _ => none

variable (lower : String → String)

/-- `apply_profile_preference_overrides`: what the owner has set wins over the claims. -/
def applyProfilePreferenceOverrides (existing incoming : UserDefinition) : UserDefinition :=
  let incoming := match existing.setting? "profile_preferences" "display_name" with
    | some name => { incoming with displayName := some name }
    | none => incoming
  match existing.setting? "local_auth" "email" with
  | some email =>
    { incoming with email := lower email, providerAccountId := some (lower email) }
  | none => incoming

/-- The record an identity is merged into: what the claims leave out stays. -/
def mergeIdentity (existing : UserDefinition) (claims : IdentityClaims) : UserDefinition :=
  let incoming := applyProfilePreferenceOverrides lower existing claims.user
  { id := existing.id
    email := incoming.email
    displayName := incoming.displayName <|> existing.displayName
    avatarUrl := incoming.avatarUrl <|> existing.avatarUrl
    status := incoming.status
    roles := if claims.rolesSet then incoming.roles else existing.roles
    provider := incoming.provider <|> existing.provider
    providerSubject := incoming.providerSubject <|> existing.providerSubject
    providerAccountId := incoming.providerAccountId <|> existing.providerAccountId
    metadata :=
      if claims.metadataSet then existing.metadata.union claims.user.metadata
      else incoming.metadata }

section Merge

variable {lower} (existing : UserDefinition) (claims : IdentityClaims)

/-- The overrides touch names and addresses only. -/
theorem applyProfilePreferenceOverrides_frame (incoming : UserDefinition) :
    let kept := applyProfilePreferenceOverrides lower existing incoming
    kept.status = incoming.status ∧ kept.provider = incoming.provider ∧
      kept.providerSubject = incoming.providerSubject := by
  simp only [applyProfilePreferenceOverrides]
  split <;> split <;> exact ⟨rfl, rfl, rfl⟩

@[simp] theorem status_mergeIdentity :
    (mergeIdentity lower existing claims).status = claims.user.status :=
  (applyProfilePreferenceOverrides_frame existing claims.user).1

theorem provider_mergeIdentity :
    (mergeIdentity lower existing claims).provider = (claims.user.provider <|> existing.provider) :=
  congrArg (· <|> existing.provider) (applyProfilePreferenceOverrides_frame existing claims.user).2.1

theorem providerSubject_mergeIdentity :
    (mergeIdentity lower existing claims).providerSubject =
      (claims.user.providerSubject <|> existing.providerSubject) :=
  congrArg (· <|> existing.providerSubject)
    (applyProfilePreferenceOverrides_frame existing claims.user).2.2

/-- Claims that carry an identity bind it. -/
theorem identity_mergeIdentity_of_claims {a : String × String} (h : claims.user.identity = some a) :
    (mergeIdentity lower existing claims).identity = some a := by
  obtain ⟨hp, hs, hne, hne'⟩ := identity_eq_some.mp h
  rw [identity_eq_some, provider_mergeIdentity, providerSubject_mergeIdentity, hp, hs]
  exact ⟨rfl, rfl, hne, hne'⟩

end Merge

end UserDefinition

end OpenAgency
