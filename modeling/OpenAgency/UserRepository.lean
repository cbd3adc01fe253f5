/-
UserRepository.lean

`upsert_from_identity` in the two user repositories: `InMemoryUserRepository`, a dict
that takes every write, and `SQLUserRepository`, whose table refuses a second row with
an address or with an identity that another row has.

The record an identity resolves to is overwritten by its claims, address, identity and
status included, so a sign-in can take the binding of another identity away.  A sign-in
that does none of this keeps its users apart (`identityBinding_stable`).
Marking a user as deleted is left out, since no sign-in does it.
-/
import Mathlib.Data.List.Nodup
import OpenAgency.Domain.User
import OpenAgency.Lib.History

namespace OpenAgency

open Interaction List UserDefinition

/-! ### Rows -/

/-- The users of a repository, each under its own identifier. -/
structure UserTable where
  rows : Dict UserDefinition := []
  nodup : (rows.map Prod.fst).Nodup := by simp
  keyed : ∀ p ∈ rows, p.2.id = p.1 := by simp

namespace Dict

variable {α : Type}

theorem mem_keys_set {d : Dict α} {k k' : String} {v : α} :
    k' ∈ (d.set k v).map Prod.fst ↔ k' = k ∨ k' ∈ d.map Prod.fst := by
  induction d with
  | nil => simp [set]
  | cons p d ih =>
    obtain ⟨k₁, v₁⟩ := p
    by_cases hk : k = k₁
    · simp [set, hk]
    · simp only [set, hk, if_false, map_cons, mem_cons, ih]
      tauto

theorem nodup_keys_set {d : Dict α} (h : (d.map Prod.fst).Nodup) (k : String) (v : α) :
    ((d.set k v).map Prod.fst).Nodup := by
  induction d with
  | nil => simp [set]
  | cons p d ih =>
    obtain ⟨k₁, v₁⟩ := p
    obtain ⟨hnot, hrest⟩ := List.nodup_cons.mp h
    by_cases hk : k = k₁
    · simpa [set, hk] using h
    · simp only [set, hk, if_false, map_cons]
      refine List.nodup_cons.mpr ⟨fun hmem => ?_, ih hrest⟩
      rcases mem_keys_set.mp hmem with heq | hmem
      · exact hk heq.symm
      · exact hnot hmem

theorem mem_set {d : Dict α} (h : (d.map Prod.fst).Nodup) {k : String} {v : α}
    {p : String × α} : p ∈ d.set k v ↔ p = (k, v) ∨ p ∈ d ∧ p.1 ≠ k := by
  induction d with
  | nil => simp [set]
  | cons q d ih =>
    obtain ⟨k₁, v₁⟩ := q
    obtain ⟨hnot, hrest⟩ := List.nodup_cons.mp h
    by_cases hk : k = k₁
    · subst hk
      have hne : ∀ q ∈ d, q.1 ≠ k := fun q hq heq => hnot (List.mem_map.mpr ⟨q, hq, heq⟩)
      simp only [set, if_true, mem_cons]
      constructor
      · rintro (rfl | hp)
        · exact .inl rfl
        · exact .inr ⟨.inr hp, hne p hp⟩
      · rintro (rfl | ⟨rfl | hp, hpk⟩)
        · exact .inl rfl
        · exact absurd rfl hpk
        · exact .inr hp
    · simp only [set, hk, if_false, mem_cons, ih hrest]
      constructor
      · rintro (rfl | rfl | ⟨hp, hpk⟩)
        · exact .inr ⟨.inl rfl, Ne.symm hk⟩
        · exact .inl rfl
        · exact .inr ⟨.inr hp, hpk⟩
      · rintro (rfl | ⟨rfl | hp, hpk⟩)
        · exact .inr (.inl rfl)
        · exact .inl rfl
        · exact .inr (.inr ⟨hp, hpk⟩)

end Dict

namespace UserTable

def users (t : UserTable) : List UserDefinition := t.rows.map Prod.snd

/-- Write a row: one under a known identifier keeps its place. -/
def put (t : UserTable) (u : UserDefinition) : UserTable where
  rows := t.rows.set u.id u
  nodup := Dict.nodup_keys_set t.nodup u.id u
  keyed p hp := by
    rcases (Dict.mem_set t.nodup).mp hp with rfl | ⟨hp, -⟩
    · rfl
    · exact t.keyed p hp

theorem mem_put {t : UserTable} {u v : UserDefinition} :
    v ∈ (t.put u).users ↔ v = u ∨ v ∈ t.users ∧ v.id ≠ u.id := by
  simp only [users, mem_map]
  constructor
  · rintro ⟨p, hp, rfl⟩
    rcases (Dict.mem_set t.nodup).mp hp with rfl | ⟨hp, hne⟩
    · exact .inl rfl
    · refine .inr ⟨⟨p, hp, rfl⟩, ?_⟩
      rw [t.keyed p hp]
      exact hne
  · rintro (rfl | ⟨⟨p, hp, rfl⟩, hne⟩)
    · exact ⟨(v.id, v), (Dict.mem_set t.nodup).mpr (.inl rfl), rfl⟩
    · refine ⟨p, (Dict.mem_set t.nodup).mpr (.inr ⟨hp, ?_⟩), rfl⟩
      rw [← t.keyed p hp]
      exact hne

theorem mem_put_self (t : UserTable) (u : UserDefinition) : u ∈ (t.put u).users :=
  mem_put.mpr (.inl rfl)

/-- Two users under one identifier are one user. -/
theorem eq_of_id {t : UserTable} {u v : UserDefinition} (hu : u ∈ t.users) (hv : v ∈ t.users)
    (h : u.id = v.id) : u = v := by
  obtain ⟨p, hp, rfl⟩ := List.mem_map.mp hu
  obtain ⟨q, hq, rfl⟩ := List.mem_map.mp hv
  rw [t.keyed p hp, t.keyed q hq] at h
  exact congrArg Prod.snd (inj_on_of_nodup_map t.nodup hp hq h)

end UserTable

/-! ### The repositories -/

inductive UserStore where
  | inMemory
  | sql
  deriving DecidableEq

section Repository

variable (lower : String → String) (store : UserStore) (t : UserTable)

/-- `_normalize`, which is also what `_to_orm` does with an address. -/
def normalizeUser (u : UserDefinition) : UserDefinition := { u with email := lower u.email }

/-- `find_by_email`. -/
def findByEmail (email : String) : Option UserDefinition :=
  t.users.find? fun u =>
    match store with
    | .inMemory => lower u.email = lower email
    | .sql => u.email = lower email

/-- `find_by_external_identity`. -/
def findByExternalIdentity (provider providerSubject : String) : Option UserDefinition :=
  t.users.find? fun u => u.provider = some provider && u.providerSubject = some providerSubject

/-- The unique constraints of the table: the address, and the provider with the subject
where neither is null. -/
def UserTable.refuses (u : UserDefinition) : Bool :=
  t.users.any fun v => v.id ≠ u.id && (v.email = u.email ||
    (u.provider.isSome && u.providerSubject.isSome && v.provider = u.provider &&
      v.providerSubject = u.providerSubject))

/-- Commit a row. -/
def commitUser (u : UserDefinition) : Except RuntimeException UserDefinition × UserTable :=
  if store = .sql && t.refuses u then
    (.error ⟨.integrityError, "UNIQUE constraint failed: users"⟩, t)
  else (.ok u, t.put u)

/-- `create`: the dict overwrites what an identifier held, the table refuses a second row. -/
def createUser (u : UserDefinition) : Except RuntimeException UserDefinition × UserTable :=
  if store = .sql && t.users.any (·.id = u.id) then
    (.error ⟨.integrityError, "UNIQUE constraint failed: users.id"⟩, t)
  else commitUser store t (normalizeUser lower u)

/-- `save`. -/
def saveUser (u : UserDefinition) : Except RuntimeException UserDefinition × UserTable :=
  commitUser store t (normalizeUser lower u)

/-- The user that claims resolve to: the one with their identity, or else the one with
their address. -/
def resolveIdentity (claims : IdentityClaims) : Option UserDefinition :=
  match claims.user.identity with
  | some (provider, providerSubject) =>
    findByExternalIdentity t provider providerSubject <|> findByEmail lower store t claims.user.email
  | none => findByEmail lower store t claims.user.email

/-- `upsert_from_identity`. -/
def upsertFromIdentity (claims : IdentityClaims) (t : UserTable) :
    Except RuntimeException UserDefinition × UserTable :=
  match resolveIdentity lower store t claims with
  | none => createUser lower store t claims.user
  | some existing => saveUser lower store t (existing.mergeIdentity lower claims)

end Repository

/-! ### What a sign-in keeps -/

/-- Addresses are lowered and belong to one user each, and so do identities. -/
structure UserTable.WellFormed (lower : String → String) (t : UserTable) : Prop where
  lowered : ∀ u ∈ t.users, lower u.email = u.email
  emails : ∀ u ∈ t.users, ∀ v ∈ t.users, u.email = v.email → u = v
  identities : ∀ u ∈ t.users, ∀ v ∈ t.users, ∀ a, u.identity = some a → v.identity = some a → u = v

section Rules

variable {lower : String → String} {store : UserStore} {t : UserTable}

variable {u : UserDefinition}

/-- A row that shares neither address nor identity with another row can be written. -/
theorem UserTable.WellFormed.put (h : t.WellFormed lower) (hlow : lower u.email = u.email)
    (hemail : ∀ v ∈ t.users, v.id ≠ u.id → v.email ≠ u.email)
    (hidentity : ∀ v ∈ t.users, v.id ≠ u.id → ∀ a, v.identity = some a → u.identity ≠ some a) :
    (t.put u).WellFormed lower := by
  refine ⟨fun v hv => ?_, fun v hv w hw he => ?_, fun v hv w hw a ha ha' => ?_⟩
  · rcases UserTable.mem_put.mp hv with rfl | ⟨hv, -⟩
    · exact hlow
    · exact h.lowered v hv
  · rcases UserTable.mem_put.mp hv with hvu | ⟨hvt, hne⟩
    · rcases UserTable.mem_put.mp hw with hwu | ⟨hwt, hne⟩
      · exact hvu.trans hwu.symm
      · rw [hvu] at he
        exact absurd he.symm (hemail w hwt hne)
    · rcases UserTable.mem_put.mp hw with hwu | ⟨hwt, -⟩
      · rw [hwu] at he
        exact absurd he (hemail v hvt hne)
      · exact h.emails v hvt w hwt he
  · rcases UserTable.mem_put.mp hv with hvu | ⟨hvt, hne⟩
    · rcases UserTable.mem_put.mp hw with hwu | ⟨hwt, hne⟩
      · exact hvu.trans hwu.symm
      · rw [hvu] at ha
        exact absurd ha (hidentity w hwt hne a ha')
    · rcases UserTable.mem_put.mp hw with hwu | ⟨hwt, -⟩
      · rw [hwu] at ha'
        exact absurd ha' (hidentity v hvt hne a ha)
      · exact h.identities v hvt w hwt a ha ha'

theorem findByEmail_some (h : t.WellFormed lower) {email : String}
    (hu : findByEmail lower store t email = some u) : u ∈ t.users ∧ u.email = lower email := by
  refine ⟨mem_of_find?_eq_some hu, ?_⟩
  have hfound := List.find?_some hu
  cases store with
  | inMemory =>
    rw [← h.lowered u (mem_of_find?_eq_some hu)]
    simpa using hfound
  | sql => simpa using hfound

theorem findByEmail_none (h : t.WellFormed lower) {email : String}
    (hnone : findByEmail lower store t email = none) : ∀ u ∈ t.users, u.email ≠ lower email := by
  intro u hu heq
  have hnot := List.find?_eq_none.mp hnone u hu
  cases store with
  | inMemory =>
    rw [h.lowered u hu] at hnot
    exact hnot (by simpa using heq)
  | sql => exact hnot (by simpa using heq)

theorem findByExternalIdentity_some {a : String × String} (hne : a.1 ≠ "" ∧ a.2 ≠ "")
    (hu : findByExternalIdentity t a.1 a.2 = some u) :
    u ∈ t.users ∧ u.identity = some a := by
  refine ⟨mem_of_find?_eq_some hu, ?_⟩
  have hfound := List.find?_some hu
  simp only [Bool.and_eq_true, decide_eq_true_eq] at hfound
  exact identity_eq_some.mpr ⟨hfound.1, hfound.2, hne⟩

theorem findByExternalIdentity_none {a : String × String}
    (hnone : findByExternalIdentity t a.1 a.2 = none) : ∀ u ∈ t.users, u.identity ≠ some a := by
  intro u hu heq
  obtain ⟨hp, hs, -⟩ := identity_eq_some.mp heq
  have hnot := List.find?_eq_none.mp hnone u hu
  exact hnot (by simp [hp, hs])

/-- The cases of the lookup: the identity is bound to the user found; or it is bound to
nobody, and the user found has the address; or neither is known. -/
theorem resolveIdentity_cases (h : t.WellFormed lower) (claims : IdentityClaims) :
    (∃ u ∈ t.users, resolveIdentity lower store t claims = some u ∧ claims.user.identity.isSome ∧
      u.identity = claims.user.identity) ∨
    ((∀ a, claims.user.identity = some a → ∀ v ∈ t.users, v.identity ≠ some a) ∧
      ((∃ u ∈ t.users, resolveIdentity lower store t claims = some u ∧
          u.email = lower claims.user.email) ∨
        resolveIdentity lower store t claims = none ∧
          ∀ v ∈ t.users, v.email ≠ lower claims.user.email)) := by
  have hemail : (∃ u ∈ t.users, findByEmail lower store t claims.user.email = some u ∧
      u.email = lower claims.user.email) ∨
      findByEmail lower store t claims.user.email = none ∧
        ∀ v ∈ t.users, v.email ≠ lower claims.user.email := by
    rcases hfind : findByEmail lower store t claims.user.email with - | u
    · exact .inr ⟨rfl, findByEmail_none h hfind⟩
    · exact .inl ⟨u, (findByEmail_some h hfind).1, rfl, (findByEmail_some h hfind).2⟩
  rcases ha : claims.user.identity with - | a
  · simp only [resolveIdentity, ha]
    exact .inr ⟨by simp, hemail⟩
  · simp only [resolveIdentity, ha]
    rcases hfind : findByExternalIdentity t a.1 a.2 with - | u
    · refine .inr ⟨fun b hb => ?_, hemail⟩
      obtain rfl := Option.some.inj hb
      exact findByExternalIdentity_none hfind
    · obtain ⟨-, -, hne⟩ := identity_eq_some.mp ha
      obtain ⟨hu, hbound⟩ := findByExternalIdentity_some hne hfind
      exact .inl ⟨u, hu, rfl, rfl, hbound⟩

/-- No other user has the address or the identity of `u`. -/
structure UserTable.Clear (t : UserTable) (u : UserDefinition) : Prop where
  email : ∀ v ∈ t.users, v.id ≠ u.id → v.email ≠ u.email
  identity : ∀ v ∈ t.users, v.id ≠ u.id → ∀ a, v.identity = some a → u.identity ≠ some a

theorem UserTable.clear_of_not_refuses (h : t.refuses u = false) : t.Clear u := by
  have hnot : ∀ v ∈ t.users, v.id ≠ u.id → v.email ≠ u.email ∧
      ¬ (u.provider.isSome ∧ u.providerSubject.isSome ∧ v.provider = u.provider ∧
        v.providerSubject = u.providerSubject) := by
    intro v hv hne
    have hany := List.any_eq_false.mp h v hv
    simp only [hne, ne_eq, not_false_eq_true, decide_true, Bool.true_and, Bool.or_eq_true,
      Bool.and_eq_true, decide_eq_true_eq, not_or] at hany
    refine ⟨hany.1, fun hsame => hany.2 ?_⟩
    exact ⟨⟨⟨hsame.1, hsame.2.1⟩, hsame.2.2.1⟩, hsame.2.2.2⟩
  refine ⟨fun v hv hne => (hnot v hv hne).1, fun v hv hne a ha hu => (hnot v hv hne).2 ?_⟩
  obtain ⟨hp, hs, -⟩ := identity_eq_some.mp ha
  obtain ⟨hp', hs', -⟩ := identity_eq_some.mp hu
  exact ⟨by simp [hp'], by simp [hs'], hp.trans hp'.symm, hs.trans hs'.symm⟩

/-- A row with an identity that nobody else has, nor its address, is not refused. -/
theorem UserTable.Clear.not_refuses (h : t.Clear u) (hbound : u.identity.isSome) :
    t.refuses u = false := by
  obtain ⟨a, ha⟩ := Option.isSome_iff_exists.mp hbound
  obtain ⟨hp, hs, hne⟩ := identity_eq_some.mp ha
  refine List.any_eq_false.mpr fun v hv => ?_
  simp only [Bool.and_eq_true, Bool.or_eq_true, decide_eq_true_eq, not_and, not_or, hp, hs]
  intro hid
  refine ⟨h.email v hv hid, fun hsame hs' => h.identity v hv hid a ?_ ha⟩
  exact identity_eq_some.mpr ⟨hsame.2, hs', hne⟩

/-- A commit is refused and changes nothing, or it writes a row that keeps the table in
order.  The dict refuses nothing, so there the row has to be clear beforehand. -/
theorem commitUser_cases (h : t.WellFormed lower) (hlow : lower u.email = u.email)
    (hclear : store = .inMemory → t.Clear u) :
    (∃ e, commitUser store t u = (.error e, t)) ∨
      commitUser store t u = (.ok u, t.put u) ∧ (t.put u).WellFormed lower := by
  have hwf : t.Clear u → (t.put u).WellFormed lower := fun hc => h.put hlow hc.email hc.identity
  cases store with
  | inMemory => exact .inr ⟨rfl, hwf (hclear rfl)⟩
  | sql =>
    rcases hr : t.refuses u with - | -
    · exact .inr ⟨by simp [commitUser, hr], hwf (UserTable.clear_of_not_refuses hr)⟩
    · exact .inl ⟨⟨.integrityError, "UNIQUE constraint failed: users"⟩, by simp [commitUser, hr]⟩

end Rules

/-! ### One sign-in -/

/-- The address a sign-in leaves a stored user with. -/
def keptEmail (lower : String → String) (existing : UserDefinition) (claims : IdentityClaims) :
    String :=
  lower (existing.applyProfilePreferenceOverrides lower claims.user).email

/-- Claims that take nothing away when they are merged into the user `u`: a disabled user
is not activated, an identity is not replaced, and neither address nor identity is one that
another user has.  The SQL table itself refuses the last, unless the identity is `u`'s own. -/
structure MergesSafely (lower : String → String) (store : UserStore) (t : UserTable)
    (u : UserDefinition) (claims : IdentityClaims) : Prop where
  disabled : u.status = .disabled → claims.user.status = .disabled
  identity : ∀ a, u.identity = some a →
    claims.user.provider.getD a.1 = a.1 ∧ claims.user.providerSubject.getD a.2 = a.2
  email : store = .inMemory ∨ u.identity.isSome ∧ u.identity = claims.user.identity →
    ∀ v ∈ t.users, v.id ≠ u.id → v.email ≠ keptEmail lower u claims
  apart : store = .inMemory → ∀ v ∈ t.users, v.id ≠ u.id → ∀ a, v.identity = some a →
    ¬ ((claims.user.provider <|> u.provider) = some a.1 ∧
      (claims.user.providerSubject <|> u.providerSubject) = some a.2)

/-- The sign-in takes nothing away from anybody. -/
def SignsInSafely (lower : String → String) (store : UserStore) (t : UserTable)
    (claims : IdentityClaims) : Prop :=
  match resolveIdentity lower store t claims with
  | some u => MergesSafely lower store t u claims
  | none => store = .inMemory → ∀ v ∈ t.users, v.id ≠ claims.user.id

/-- The identity `a` is bound to the user `id`. -/
def UserTable.Bound (t : UserTable) (a : String × String) (id : String) : Prop :=
  ∃ v ∈ t.users, v.id = id ∧ v.identity = some a

/-- What a safe sign-in with the claims `claims` keeps and what it answers. -/
structure SignedIn (t : UserTable) (claims : IdentityClaims)
    (r : Except RuntimeException UserDefinition) (t' : UserTable) : Prop where
  bound : ∀ a id, t.Bound a id → t'.Bound a id
  disabled : ∀ u ∈ t.users, u.status = .disabled → ∃ v ∈ t'.users, v.id = u.id ∧ v.status = .disabled
  stored : ∀ u, r = .ok u → u ∈ t'.users ∧ ∀ a, claims.user.identity = some a → u.identity = some a
  known : ∀ a id, claims.user.identity = some a → t.Bound a id → ∃ u, r = .ok u ∧ u.id = id

section SignIn

variable {lower : String → String} {store : UserStore} {t : UserTable} {claims : IdentityClaims}

/-- A refused sign-in of an identity nobody has. -/
theorem SignedIn.refused {e : RuntimeException}
    (hfree : ∀ a, claims.user.identity = some a → ∀ v ∈ t.users, v.identity ≠ some a) :
    SignedIn t claims (.error e) t where
  bound _ _ h := h
  disabled u hu hs := ⟨u, hu, rfl, hs⟩
  stored u hu := by cases hu
  known a id ha hbound := by
    obtain ⟨v, hv, -, hva⟩ := hbound
    exact absurd hva (hfree a ha v hv)

/-- Writing a row under the identifier of `u`, with `u`'s identity if it has one. -/
theorem SignedIn.merged (h : t.WellFormed lower) {u m : UserDefinition} (hu : u ∈ t.users)
    (hid : m.id = u.id) (hidentity : ∀ a, u.identity = some a → m.identity = some a)
    (hstatus : u.status = .disabled → m.status = .disabled)
    (hclaims : ∀ a, claims.user.identity = some a → m.identity = some a)
    (hknown : ∀ a, claims.user.identity = some a → ∀ v ∈ t.users, v.identity = some a →
      u.identity = some a) :
    SignedIn t claims (.ok m) (t.put m) where
  bound a id hbound := by
    obtain ⟨v, hv, rfl, hva⟩ := hbound
    by_cases hvm : v.id = m.id
    · obtain rfl := UserTable.eq_of_id hv hu (hvm.trans hid)
      exact ⟨m, UserTable.mem_put_self t m, hid, hidentity a hva⟩
    · exact ⟨v, UserTable.mem_put.mpr (.inr ⟨hv, hvm⟩), rfl, hva⟩
  disabled v hv hs := by
    by_cases hvm : v.id = m.id
    · obtain rfl := UserTable.eq_of_id hv hu (hvm.trans hid)
      exact ⟨m, UserTable.mem_put_self t m, hid, hstatus hs⟩
    · exact ⟨v, UserTable.mem_put.mpr (.inr ⟨hv, hvm⟩), rfl, hs⟩
  stored w hw := by
    obtain rfl := Except.ok.inj hw
    exact ⟨UserTable.mem_put_self t m, hclaims⟩
  known a id ha hbound := by
    obtain ⟨v, hv, rfl, hva⟩ := hbound
    obtain rfl := h.identities v hv u hu a hva (hknown a ha v hv hva)
    exact ⟨m, rfl, hid⟩

/-- Writing a row under a new identifier. -/
theorem SignedIn.created {m : UserDefinition} (hnew : ∀ v ∈ t.users, v.id ≠ m.id)
    (hclaims : ∀ a, claims.user.identity = some a → m.identity = some a)
    (hfree : ∀ a, claims.user.identity = some a → ∀ v ∈ t.users, v.identity ≠ some a) :
    SignedIn t claims (.ok m) (t.put m) where
  bound a id hbound := by
    obtain ⟨v, hv, rfl, hva⟩ := hbound
    exact ⟨v, UserTable.mem_put.mpr (.inr ⟨hv, hnew v hv⟩), rfl, hva⟩
  disabled v hv hs := ⟨v, UserTable.mem_put.mpr (.inr ⟨hv, hnew v hv⟩), rfl, hs⟩
  stored w hw := by
    obtain rfl := Except.ok.inj hw
    exact ⟨UserTable.mem_put_self t m, hclaims⟩
  known a id ha hbound := by
    obtain ⟨v, hv, -, hva⟩ := hbound
    exact absurd hva (hfree a ha v hv)

/-- The identity of the record an identity is merged into. -/
theorem identity_normalize_merge (u : UserDefinition) {a : String × String} :
    (normalizeUser lower (u.mergeIdentity lower claims)).identity = some a ↔
      (claims.user.provider <|> u.provider) = some a.1 ∧
        (claims.user.providerSubject <|> u.providerSubject) = some a.2 ∧ a.1 ≠ "" ∧ a.2 ≠ "" := by
  rw [identity_eq_some]
  show (u.mergeIdentity lower claims).provider = _ ∧
    (u.mergeIdentity lower claims).providerSubject = _ ∧ _ ↔ _
  rw [provider_mergeIdentity, providerSubject_mergeIdentity]

/-- Safe claims leave a bound identity bound. -/
theorem MergesSafely.keeps {u : UserDefinition} (hsafe : MergesSafely lower store t u claims)
    {a : String × String} (ha : u.identity = some a) :
    (normalizeUser lower (u.mergeIdentity lower claims)).identity = some a := by
  obtain ⟨hp, hs, hne⟩ := identity_eq_some.mp ha
  obtain ⟨hp', hs'⟩ := hsafe.identity a ha
  refine (identity_normalize_merge u).mpr ⟨?_, ?_, hne⟩
  · rcases hc : claims.user.provider with - | provider
    · exact hp
    · simpa [hc] using hp'
  · rcases hc : claims.user.providerSubject with - | subject
    · exact hs
    · simpa [hc] using hs'

/-- Safe claims are merged into the user they resolve to. -/
theorem MergesSafely.signedIn {u : UserDefinition} (hsafe : MergesSafely lower store t u claims)
    (h : t.WellFormed lower) (hu : u ∈ t.users)
    (hknown : ∀ a, claims.user.identity = some a → ∀ v ∈ t.users, v.identity = some a →
      u.identity = some a) :
    SignedIn t claims (.ok (normalizeUser lower (u.mergeIdentity lower claims)))
      (t.put (normalizeUser lower (u.mergeIdentity lower claims))) := by
  refine SignedIn.merged h hu ?_ ?_ ?_ ?_ hknown
  · rfl
  · exact fun a ha => hsafe.keeps ha
  · exact fun hs => (status_mergeIdentity u claims).trans (hsafe.disabled hs)
  · exact fun a ha => identity_mergeIdentity_of_claims u claims ha

/-- **One safe sign-in** keeps the table in order and what is bound in it. -/
theorem signedIn_upsert (hlower : ∀ s, lower (lower s) = lower s) (h : t.WellFormed lower)
    (hsafe : SignsInSafely lower store t claims) :
    (upsertFromIdentity lower store claims t).2.WellFormed lower ∧
      SignedIn t claims (upsertFromIdentity lower store claims t).1
        (upsertFromIdentity lower store claims t).2 := by
  rcases @resolveIdentity_cases lower store t h claims with
    ⟨u, hu, hres, hsome, hbound⟩ | ⟨hfree, ⟨u, hu, hres, hemail⟩ | ⟨hres, hemail⟩⟩
  · -- the identity is bound to `u`, and the row stays clear of the others
    have hmerge : MergesSafely lower store t u claims := by simpa [SignsInSafely, hres] using hsafe
    obtain ⟨b, hb⟩ := Option.isSome_iff_exists.mp hsome
    have hown : (normalizeUser lower (u.mergeIdentity lower claims)).identity = some b :=
      identity_mergeIdentity_of_claims u claims hb
    have hclear : t.Clear (normalizeUser lower (u.mergeIdentity lower claims)) := by
      refine ⟨fun v hv hne => ?_, fun v hv hne a hva hma => hne ?_⟩
      · exact hmerge.email (.inr ⟨hbound ▸ hsome, hbound⟩) v hv hne
      · obtain rfl := Option.some.inj (hown.symm.trans hma)
        obtain rfl := h.identities v hv u hu b hva (hbound.trans hb)
        rfl
    have hnot := hclear.not_refuses (Option.isSome_iff_exists.mpr ⟨b, hown⟩)
    have hcommit : upsertFromIdentity lower store claims t =
        (.ok (normalizeUser lower (u.mergeIdentity lower claims)),
          t.put (normalizeUser lower (u.mergeIdentity lower claims))) := by
      rw [upsertFromIdentity, hres]
      simp [saveUser, commitUser, hnot]
    rw [hcommit]
    refine ⟨h.put (hlower _) hclear.email hclear.identity, hmerge.signedIn h hu ?_⟩
    exact fun a ha v hv hva => hbound.trans ha
  · -- nobody has the identity yet: it is bound to the user with the address
    have hmerge : MergesSafely lower store t u claims := by simpa [SignsInSafely, hres] using hsafe
    have hcommit : upsertFromIdentity lower store claims t =
        commitUser store t (normalizeUser lower (u.mergeIdentity lower claims)) := by
      rw [upsertFromIdentity, hres]
      rfl
    have hclear : store = .inMemory →
        t.Clear (normalizeUser lower (u.mergeIdentity lower claims)) := by
      rintro rfl
      refine ⟨fun v hv hne => hmerge.email (.inl rfl) v hv hne, fun v hv hne a hva hma => ?_⟩
      obtain ⟨hp, hs, -⟩ := (identity_normalize_merge u).mp hma
      exact hmerge.apart rfl v hv hne a hva ⟨hp, hs⟩
    rw [hcommit]
    rcases commitUser_cases h (hlower _) hclear with ⟨e, he⟩ | ⟨hok, hwf⟩
    · rw [he]
      exact ⟨h, .refused hfree⟩
    · rw [hok]
      refine ⟨hwf, hmerge.signedIn h hu ?_⟩
      exact fun a ha v hv hva => absurd hva (hfree a ha v hv)
  · -- neither identity nor address is known
    have hcommit : upsertFromIdentity lower store claims t =
        createUser lower store t claims.user := by
      rw [upsertFromIdentity, hres]
    have hclear : t.Clear (normalizeUser lower claims.user) :=
      ⟨fun v hv _ => hemail v hv, fun v hv _ a hva hma => hfree a hma v hv hva⟩
    rw [hcommit, createUser]
    split
    · exact ⟨h, .refused hfree⟩
    next hdup =>
      have hnew : ∀ v ∈ t.users, v.id ≠ claims.user.id := by
        cases store with
        | inMemory => simpa [SignsInSafely, hres] using hsafe
        | sql => simpa using hdup
      rcases commitUser_cases h (hlower claims.user.email) fun _ => hclear with
        ⟨e, he⟩ | ⟨hok, hwf⟩
      · rw [he]
        exact ⟨h, .refused hfree⟩
      · rw [hok]
        exact ⟨hwf, .created hnew (fun a ha => ha) hfree⟩

end SignIn

/-! ### Histories of sign-ins -/

/-- The sign-ins of a history, with what each of them answered. -/
abbrev SignIns := List (IdentityClaims × Except RuntimeException UserDefinition)

/-- What sign-ins that lead from `t₀` to `t` keep: an identity stays with the user a call
has answered for it, different identities get different users, no two users share an
address, and a disabled user stays disabled. -/
structure BindingStable (h : SignIns) (t₀ t : UserTable) : Prop where
  sameUser : h.Pairwise fun p q => ∀ u a, p.2 = .ok u → p.1.user.identity = some a →
    q.1.user.identity = some a → ∃ u', q.2 = .ok u' ∧ u'.id = u.id
  otherUser : ∀ p ∈ h, ∀ q ∈ h, ∀ u u' a b, p.2 = .ok u → q.2 = .ok u' →
    p.1.user.identity = some a → q.1.user.identity = some b → a ≠ b → u.id ≠ u'.id
  emails : ∀ u ∈ t.users, ∀ v ∈ t.users, u.email = v.email → u = v
  disabled : ∀ u ∈ t₀.users, u.status = .disabled →
    ∃ v ∈ t.users, v.id = u.id ∧ v.status = .disabled
  staysDisabled : ∀ p ∈ h, ∀ u, p.2 = .ok u → u.status = .disabled →
    ∃ v ∈ t.users, v.id = u.id ∧ v.status = .disabled

/-- **Identity bindings are stable** along every history of safe sign-ins. -/
theorem identityBinding_stable {lower : String → String} {store : UserStore}
    (hlower : ∀ s, lower (lower s) = lower s) {t₀ t : UserTable} {h : SignIns}
    (hwf : t₀.WellFormed lower)
    (hserves : Serves (upsertFromIdentity lower store) (SignsInSafely lower store) t₀ h t) :
    BindingStable h t₀ t := by
  suffices hall : t.WellFormed lower ∧ BindingStable h t₀ t ∧
      ∀ p ∈ h, ∀ u a, p.2 = .ok u → p.1.user.identity = some a → t.Bound a u.id from hall.2.1
  refine hserves.invariant (I := fun h t => t.WellFormed lower ∧ BindingStable h t₀ t ∧
    ∀ p ∈ h, ∀ u a, p.2 = .ok u → p.1.user.identity = some a → t.Bound a u.id) ?_ ?_
  · exact ⟨hwf, ⟨.nil, by simp, hwf.emails, fun u hu hs => ⟨u, hu, rfl, hs⟩, by simp⟩, by simp⟩
  · rintro h t claims ⟨hwf, hstable, hbound⟩ hsafe
    obtain ⟨hwf', hstep⟩ := signedIn_upsert hlower hwf hsafe
    -- who has signed in is bound, before and now
    have hnow : ∀ p ∈ h ++ [(claims, (upsertFromIdentity lower store claims t).1)], ∀ u a,
        p.2 = .ok u → p.1.user.identity = some a →
        (upsertFromIdentity lower store claims t).2.Bound a u.id := by
      intro p hp u a hr ha
      rcases List.mem_append.mp hp with hp | hp
      · exact hstep.bound a u.id (hbound p hp u a hr ha)
      · obtain rfl := List.mem_singleton.mp hp
        obtain ⟨hmem, hid⟩ := hstep.stored u hr
        exact ⟨u, hmem, rfl, hid a ha⟩
    refine ⟨hwf', ⟨?_, ?_, hwf'.emails, ?_, ?_⟩, hnow⟩
    · refine List.pairwise_append.mpr ⟨hstable.sameUser, pairwise_singleton _ _, ?_⟩
      intro p hp q hq u a hr ha ha'
      obtain rfl := List.mem_singleton.mp hq
      exact hstep.known a u.id ha' (hbound p hp u a hr ha)
    · intro p hp q hq u u' a b hr hr' ha hb hne hid
      obtain ⟨v, hv, hvid, hva⟩ := hnow p hp u a hr ha
      obtain ⟨w, hw, hwid, hwb⟩ := hnow q hq u' b hr' hb
      obtain rfl := UserTable.eq_of_id hv hw (hvid.trans (hid.trans hwid.symm))
      exact hne (Option.some.inj (hva.symm.trans hwb))
    · intro u hu hs
      obtain ⟨v, hv, hvid, hvs⟩ := hstable.disabled u hu hs
      obtain ⟨w, hw, hwid, hws⟩ := hstep.disabled v hv hvs
      exact ⟨w, hw, hwid.trans hvid, hws⟩
    · intro p hp u hr hs
      rcases List.mem_append.mp hp with hp | hp
      · obtain ⟨v, hv, hvid, hvs⟩ := hstable.staysDisabled p hp u hr hs
        obtain ⟨w, hw, hwid, hws⟩ := hstep.disabled v hv hvs
        exact ⟨w, hw, hwid.trans hvid, hws⟩
      · obtain rfl := List.mem_singleton.mp hp
        exact ⟨u, (hstep.stored u hr).1, rfl, hs⟩

/-- The claims of an identity at an address. -/
def claimsOf (id email provider subject : String) : IdentityClaims where
  user := { id := id, email := email, provider := some provider, providerSubject := some subject }

/-- A user signs in twice, the second time from another address. -/
theorem identityBinding_stable_twice : ∃ h t, h.length = 2 ∧ BindingStable h {} t := by
  have hfirst : SignsInSafely id .sql {} (claimsOf "u1" "a@x" "google" "1") := by
    show UserStore.sql = .inMemory → _
    intro hstore
    cases hstore
  have hsecond : SignsInSafely id .sql
      (upsertFromIdentity id .sql (claimsOf "u1" "a@x" "google" "1") {}).2
      (claimsOf "u2" "b@x" "google" "1") := by
    show MergesSafely id .sql _ (claimsOf "u1" "a@x" "google" "1").user _
    refine ⟨fun hs => (nomatch hs), fun a ha => ?_, fun _ v hv hne => ?_,
      fun hstore => (nomatch hstore)⟩
    · obtain rfl : ("google", "1") = a := Option.some.inj ha
      exact ⟨rfl, rfl⟩
    · obtain rfl := List.mem_singleton.mp hv
      exact absurd rfl hne
  refine ⟨_, _, ?_, @identityBinding_stable id .sql (fun _ => rfl) _ _ _ ?_
    (.call (.call .start hfirst) hsecond)⟩
  · rfl
  · exact ⟨by simp [UserTable.users], by simp [UserTable.users], by simp [UserTable.users]⟩

/-- Two identities share an address; the first then signs in from another one. -/
theorem not_bindingStable (store : UserStore) :
    ¬ ∀ h t, Serves (upsertFromIdentity id store) (fun _ _ => True) {} h t →
      BindingStable h {} t := by
  intro hall
  have hserves : Serves (upsertFromIdentity id store) (fun _ _ => True) {} _ _ :=
    .call (i := claimsOf "u3" "b@x" "google" "1") (.call (i := claimsOf "u2" "a@x" "github" "2")
      (.call (i := claimsOf "u1" "a@x" "google" "1") .start trivial) trivial) trivial
  have hpairs := (hall _ _ hserves).sameUser
  -- the first answer and the last one
  have hlast := (List.pairwise_append.mp hpairs).2.2 _ (mem_cons_self ..) _ (mem_cons_self ..)
  cases store with
  | inMemory =>
    obtain ⟨u', hu', hid⟩ := hlast _ ("google", "1") rfl rfl rfl
    obtain rfl := Except.ok.inj hu'
    exact absurd hid (by decide)
  | sql =>
    obtain ⟨u', hu', hid⟩ := hlast _ ("google", "1") rfl rfl rfl
    obtain rfl := Except.ok.inj hu'
    exact absurd hid (by decide)

/-- In either repository the identity gets another user than before. -/
theorem identityBinding_lost :
    (¬ ∀ h t, Serves (upsertFromIdentity id .sql) (fun _ _ => True) {} h t → BindingStable h {} t) ∧
    ¬ ∀ h t, Serves (upsertFromIdentity id .inMemory) (fun _ _ => True) {} h t →
      BindingStable h {} t := ⟨not_bindingStable .sql, not_bindingStable .inMemory⟩

end OpenAgency
