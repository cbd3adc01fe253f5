/-
CredentialUpdates.lean

What is left of a user's sessions after its password was changed.

`update_credentials` saves the user, lists its tokens and revokes the sessions among them.
A sign-in checks the hash it has read and creates its token later, so a sign-in with the
old password can create one that the list does not show.  In a run in which no sign-in
creates a token on a hash that was replaced before the listing, the sessions that are left
were issued for the new password (`passwordChange_endsSessions`).
-/
import OpenAgency.Lib.Stages
import OpenAgency.LocalAuth

namespace OpenAgency

open Relational Interaction List LocalAuth Pool
open Program (follows_call follows_done follows_raise)

/-! ### Stages of a call -/

/-- How far a call has come: what it has read of the user, and what it has written. -/
inductive AuthStage where
  | start
  | admitted
  | looked (user : Option UserDefinition)
  | issued (user : UserDefinition) (token : ApiToken)
  | failed
  | saved
  | listed (left : List ApiToken)

namespace AuthStage

def next : AuthStage → Event AuthSig → AuthStage
  | _, ⟨.reserve _ _, _⟩ => .admitted
  | _, ⟨.findByEmail _, found⟩ => .looked found
  | φ, ⟨.clearFailures _, _⟩ => φ
  | .looked (some user), ⟨.createToken t, .ok _⟩ => .issued user t
  | _, ⟨.createToken _, _⟩ => .failed
  | _, ⟨.saveUser _, .ok _⟩ => .saved
  | _, ⟨.saveUser _, .error _⟩ => .failed
  | _, ⟨.listByOwner _, tokens⟩ => .listed (tokens.filter (·.isLive))
  | .listed left, ⟨.revokeToken _ _, _⟩ => .listed left.tail
  | φ, ⟨.revokeToken _ _, _⟩ => φ

/-- The user has been saved. -/
def hasSaved : AuthStage → Prop
  | .saved | .listed _ => True
  | _ => False

end AuthStage

/-- What a call may do in a stage. -/
def AuthStage.Allows (auth : LocalAuth) : LocalAuthCall → AuthStage → AuthOp → Prop
  | .authenticate _, .start, .reserve _ _ => True
  | .authenticate _, .admitted, .findByEmail _ => True
  | .authenticate _, .looked (some _), .clearFailures _ => True
  | .authenticate call, .looked (some user), .createToken t =>
    auth.admits call user ∧ t = auth.issue call user
  | .updateCredentials _, .start, .findByEmail _ => True
  | .updateCredentials call, .looked _, .saveUser user =>
    user.id = call.user.id ∧
      ∀ password, call.normalizedPassword = some password →
        user.passwordHash = some (auth.hashPassword call.salt password)
  | .updateCredentials call, .saved, .listByOwner userId => userId = call.user.id
  | .updateCredentials _, .listed (t :: _), .revokeToken id _ => id = t.id
  | _, _, _ => False

abbrev authProtocol (auth : LocalAuth) : Protocol AuthSig LocalAuthCall AuthStage where
  start := .start
  next := AuthStage.next
  allowed := AuthStage.Allows auth
  answers _ _ _ := True

/-- Credentials are updated only when all sessions on the list have been dealt with. -/
def EndsListed : LocalAuthCall → LocalAuthAnswer → AuthStage → Prop
  | .updateCredentials _, _, φ => φ = .listed []
  | .authenticate _, _, _ => True

section Programs

variable {auth : LocalAuth}

theorem follows_authenticate (call : SignIn) :
    (auth.authenticate call).Follows (authProtocol auth) (.authenticate call)
      (EndsListed (.authenticate call)) (fun _ _ => True) .start := by
  unfold authenticate
  dsimp only
  split
  · exact follows_done trivial
  · refine follows_call trivial fun admitted _ => ?_
    split
    · exact follows_raise trivial
    · refine follows_call trivial fun found _ => ?_
      cases found with
      | none => exact follows_done trivial
      | some user =>
        dsimp only
        split
        · exact follows_done trivial
        next hadmits =>
          refine follows_call trivial fun _ _ => ?_
          refine follows_call ⟨by simpa using hadmits, rfl⟩ fun created _ => ?_
          cases created with
          | error e => exact follows_raise trivial
          | ok t => exact follows_done trivial

theorem follows_revokeAll (call : CredentialUpdate) (user : UserDefinition) (revoked : ℕ)
    (tokens : List ApiToken) :
    (revokeAll call.now user revoked tokens).Follows (authProtocol auth)
      (.updateCredentials call) (EndsListed (.updateCredentials call)) (fun _ _ => True)
      (.listed (tokens.filter (·.isLive))) := by
  induction tokens generalizing revoked with
  | nil => exact follows_done rfl
  | cons t tokens ih =>
    unfold revokeAll
    by_cases hlive : t.isLive
    · rw [if_neg (by simp [hlive]), filter_cons_of_pos hlive]
      exact follows_call rfl fun _ _ => ih (revoked + 1)
    · rw [if_pos (by simpa using hlive), filter_cons_of_neg hlive]
      exact ih revoked

theorem follows_updateCredentials (call : CredentialUpdate) :
    (auth.updateCredentials call).Follows (authProtocol auth) (.updateCredentials call)
      (EndsListed (.updateCredentials call)) (fun _ _ => True) .start := by
  unfold updateCredentials
  dsimp only
  split
  · exact follows_raise trivial
  · refine follows_call trivial fun owner _ => ?_
    split
    · exact follows_raise trivial
    · refine follows_call ⟨id_updatedUser _ _, fun _ => passwordHash_updatedUser⟩
        fun saved _ => ?_
      cases saved with
      | error e => exact follows_raise trivial
      | ok user => exact follows_call rfl fun tokens _ => follows_revokeAll call user 0 tokens

theorem follows_code (call : LocalAuthCall) :
    (auth.code call).Follows (authProtocol auth) call (EndsListed call) (fun _ _ => True) .start := by
  cases call with
  | authenticate call => exact follows_authenticate call
  | updateCredentials call => exact follows_updateCredentials call

end Programs

/-! ### What is left after the update -/

/-- A session that a sign-in has issued on a hash. -/
def IssuedOn (auth : LocalAuth) (ps : List (LocalAuthCall × AuthStage)) (hash : String)
    (t : ApiToken) : Prop :=
  ∃ (j : ℕ) (call : SignIn) (user : UserDefinition),
    ps[j]? = some (.authenticate call, .issued user t) ∧ auth.admits call user ∧
      user.passwordHash = some hash

/-- What holds of an update in the stage `φ`: once the user is saved its hash is the new
one, and once the tokens are listed the other sessions were issued on it. -/
structure Ending (auth : LocalAuth) (ps : List (LocalAuthCall × AuthStage)) (userId hash : String)
    (s : AuthState) (φ : AuthStage) : Prop where
  stored : φ.hasSaved → ∃ v ∈ s.users.users, v.id = userId ∧ v.passwordHash = some hash
  sessions : ∀ left, φ = .listed left → ∀ t ∈ s.tokens.items, t.ownerUserId = userId → t.isLive →
    t.id ∈ left.map (fun t => t.id) ∨ IssuedOn auth ps hash t

/-- There is one update at most. -/
def SingleUpdate (calls : List LocalAuthCall) : Prop :=
  ∀ (i j : ℕ) (call call' : CredentialUpdate), calls[i]? = some (.updateCredentials call) →
    calls[j]? = some (.updateCredentials call') → i = j

/-- The invariant of all runs with one update. -/
def UpdateEnds (auth : LocalAuth) (s : AuthState) (ps : List (LocalAuthCall × AuthStage)) : Prop :=
  SingleUpdate (ps.map Prod.fst) → ∀ (k : ℕ) (call : CredentialUpdate) (φ : AuthStage)
    (password : String), ps[k]? = some (.updateCredentials call, φ) →
      call.normalizedPassword = some password →
        Ending auth ps call.user.id (auth.hashPassword call.salt password) s φ

/-- A sign-in that creates its token after an update has listed the tokens of the user finds
that the stored hash is the one it has read. -/
def IssuesCurrent (s : AuthState) (ps : List (LocalAuthCall × AuthStage)) (i : ℕ) : AuthOp → Prop
  | .createToken _ => ∀ call user, ps[i]? = some (.authenticate call, .looked (some user)) →
      (∃ (k : ℕ) (update : CredentialUpdate) (left : List ApiToken),
        ps[k]? = some (.updateCredentials update, .listed left) ∧ update.user.id = user.id) →
      ∀ v ∈ s.users.users, v.id = user.id → v.passwordHash = user.passwordHash
  | _ => True

section Steps

variable {auth : LocalAuth} {s s' : AuthState} {ps : List (LocalAuthCall × AuthStage)} {i k : ℕ}
  {userId hash : String} {φ : AuthStage}

/-- A process that has not issued a token may go on. -/
theorem IssuedOn.set {t : ApiToken} {call : LocalAuthCall} {ψ ψ' : AuthStage}
    (h : IssuedOn auth ps hash t) (hi : ps[i]? = some (call, ψ))
    (hψ : ∀ user t, ψ ≠ .issued user t) : IssuedOn auth (ps.set i (call, ψ')) hash t := by
  obtain ⟨j, signIn, user, hj, hadmits, hhash⟩ := h
  refine ⟨j, signIn, user, ?_, hadmits, hhash⟩
  rw [List.getElem?_set_ne, hj]
  rintro rfl
  obtain ⟨-, rfl⟩ := Prod.mk.inj (Option.some.inj (hi.symm.trans hj))
  exact hψ _ _ rfl

theorem IssuedOn.append {t : ApiToken} {p : LocalAuthCall × AuthStage}
    (h : IssuedOn auth ps hash t) : IssuedOn auth (ps ++ [p]) hash t := by
  obtain ⟨j, signIn, user, hj, hrest⟩ := h
  refine ⟨j, signIn, user, ?_, hrest⟩
  rw [List.getElem?_append_left (List.getElem?_eq_some_iff.mp hj).1, hj]

/-- What other calls do that neither save users nor create tokens. -/
theorem Ending.frame (h : Ending auth ps userId hash s φ) (husers : s'.users = s.users)
    (htokens : ∀ t ∈ s'.tokens.items, t.isLive → t ∈ s.tokens.items) {call : LocalAuthCall}
    {ψ ψ' : AuthStage} (hi : ps[i]? = some (call, ψ)) (hψ : ∀ user t, ψ ≠ .issued user t) :
    Ending auth (ps.set i (call, ψ')) userId hash s' φ := by
  refine ⟨fun hsaved => ?_, fun left hleft t ht howner hlive => ?_⟩
  · rw [husers]
    exact h.stored hsaved
  · rcases h.sessions left hleft t (htokens t ht hlive) howner hlive with hmem | hissued
    · exact .inl hmem
    · exact .inr (hissued.set hi hψ)

theorem UpdateEnds.start (h : UpdateEnds auth s ps) (call : LocalAuthCall) :
    UpdateEnds auth s (ps ++ [(call, .start)]) := by
  intro hsingle k update φ password hk hpassword
  rw [map_append] at hsingle
  have hsingle' : SingleUpdate (ps.map Prod.fst) := by
    intro i j c c' hi hj
    refine hsingle i j c c' ?_ ?_
    · rw [List.getElem?_append_left (List.getElem?_eq_some_iff.mp hi).1, hi]
    · rw [List.getElem?_append_left (List.getElem?_eq_some_iff.mp hj).1, hj]
  rw [List.getElem?_append] at hk
  split at hk
  · have hending := h hsingle' k update φ password hk hpassword
    refine ⟨hending.stored, fun left hleft t ht howner hlive => ?_⟩
    exact (hending.sessions left hleft t ht howner hlive).imp_right IssuedOn.append
  · obtain ⟨-, rfl⟩ : LocalAuthCall.updateCredentials update = call ∧ φ = .start := by
      simpa using mem_of_getElem? hk
    exact ⟨fun hsaved => hsaved.elim, fun left hleft => by cases hleft⟩

/-- A step of the update itself. -/
theorem Ending.own {call : CredentialUpdate} {password : String} {o : AuthOp}
    (h : Ending auth ps call.user.id (auth.hashPassword call.salt password) s φ)
    (hpassword : call.normalizedPassword = some password)
    (hi : ps[k]? = some (.updateCredentials call, φ))
    (ho : AuthStage.Allows auth (.updateCredentials call) φ o) :
    Ending auth (ps.set k (.updateCredentials call, φ.next ⟨o, (auth.handler o s).1⟩)) call.user.id
      (auth.hashPassword call.salt password) (auth.handler o s).2
      (φ.next ⟨o, (auth.handler o s).1⟩) := by
  have hnothing : ∀ {s' : AuthState} {ψ : AuthStage}, ¬ ψ.hasSaved →
      Ending auth (ps.set k (.updateCredentials call, ψ)) call.user.id
        (auth.hashPassword call.salt password) s' ψ := by
    intro s' ψ hψ
    refine ⟨fun hsaved => absurd hsaved hψ, ?_⟩
    rintro left rfl
    exact absurd trivial hψ
  cases φ with
  | start =>
    cases o with
    | findByEmail email => exact hnothing id
    | _ => exact ho.elim
  | admitted => exact ho.elim
  | looked found =>
    cases o with
    | saveUser user =>
      obtain ⟨hid, hhash⟩ := ho
      have hanswer : auth.handler (.saveUser user) s =
        ((saveUser auth.lower auth.store s.users user).1,
          { s with users := (saveUser auth.lower auth.store s.users user).2 }) := rfl
      rw [hanswer]
      unfold saveUser commitUser
      split
      · exact hnothing id
      · refine ⟨fun _ => ⟨normalizeUser auth.lower user, ?_, hid, hhash password hpassword⟩, ?_⟩
        · exact UserTable.mem_put_self _ _
        · rintro left ⟨⟩
    | _ => cases found <;> exact ho.elim
  | issued user t => exact ho.elim
  | failed => exact ho.elim
  | saved =>
    cases o with
    | listByOwner userId =>
      obtain rfl : userId = call.user.id := ho
      refine ⟨fun _ => h.stored trivial, ?_⟩
      rintro left ⟨⟩ t ht howner hlive
      refine .inl (List.mem_map.mpr ⟨t, List.mem_filter.mpr ⟨?_, hlive⟩, rfl⟩)
      exact List.mem_filter.mpr ⟨ht, by simpa using howner⟩
    | _ => exact ho.elim
  | listed left =>
    cases left with
    | nil => cases o <;> exact ho.elim
    | cons t₀ left =>
      cases o with
      | revokeToken id now =>
        obtain rfl : id = t₀.id := ho
        refine ⟨fun _ => h.stored trivial, ?_⟩
        rintro left' ⟨⟩ t ht howner hlive
        obtain ⟨hmem, hne⟩ := mem_revokeToken hlive ht
        rcases h.sessions _ rfl t hmem howner hlive with hleft | hissued
        · exact .inl ((List.mem_cons.mp hleft).resolve_left hne)
        · exact .inr (hissued.set hi fun _ _ => by rintro ⟨⟩)
      | _ => exact ho.elim

/-- A step of a sign-in. -/
theorem Ending.other {call : SignIn} {ψ : AuthStage} {o : AuthOp}
    (h : Ending auth ps userId hash s φ) (hi : ps[i]? = some (.authenticate call, ψ))
    (hk : φ.hasSaved → ∃ update : CredentialUpdate,
      ps[k]? = some (.updateCredentials update, φ) ∧ update.user.id = userId)
    (ho : AuthStage.Allows auth (.authenticate call) ψ o) (hcond : IssuesCurrent s ps i o) :
    Ending auth (ps.set i (.authenticate call, ψ.next ⟨o, (auth.handler o s).1⟩)) userId hash
      (auth.handler o s).2 φ := by
  have hframe : ∀ {s' : AuthState} {ψ' : AuthStage}, s'.users = s.users → s'.tokens = s.tokens →
      (∀ user t, ψ ≠ .issued user t) →
        Ending auth (ps.set i (.authenticate call, ψ')) userId hash s' φ := by
    intro s' ψ' husers htokens hψ
    refine h.frame husers (fun t ht _ => ?_) hi hψ
    rw [← htokens]
    exact ht
  cases ψ with
  | start =>
    cases o with
    | reserve email now => exact hframe rfl rfl fun _ _ => by rintro ⟨⟩
    | _ => exact ho.elim
  | admitted =>
    cases o with
    | findByEmail email => exact hframe rfl rfl fun _ _ => by rintro ⟨⟩
    | _ => exact ho.elim
  | looked found =>
    cases found with
    | none => cases o <;> exact ho.elim
    | some user =>
      cases o with
      | clearFailures email => exact hframe rfl rfl fun _ _ => by rintro ⟨⟩
      | createToken t₀ =>
        obtain ⟨hadmits, rfl⟩ := ho
        have hanswer : auth.handler (.createToken (auth.issue call user)) s =
          ((auth.createToken (auth.issue call user) s.tokens).1,
            { s with tokens := (auth.createToken (auth.issue call user) s.tokens).2 }) := rfl
        rw [hanswer]
        unfold createToken
        split
        · exact hframe rfl rfl fun _ _ => by rintro ⟨⟩
        · refine ⟨h.stored, fun left hleft t ht howner hlive => ?_⟩
          rcases Catalog.mem_put.mp ht with rfl | ⟨hmem, -⟩
          · -- The token is new: the hash it was issued on is still stored.
            subst hleft
            obtain ⟨update, hupdate, hid⟩ := hk trivial
            obtain ⟨v, hv, hvid, hvhash⟩ := h.stored trivial
            have hcurrent := hcond call user hi ⟨k, update, left, hupdate, hid.trans howner.symm⟩
              v hv (hvid.trans howner.symm)
            refine .inr ⟨i, call, user, ?_, hadmits, hcurrent.symm.trans hvhash⟩
            rw [List.getElem?_set_self (List.getElem?_eq_some_iff.mp hi).1]
            rfl
          · rcases h.sessions left hleft t hmem howner hlive with hin | hissued
            · exact .inl hin
            · exact .inr (hissued.set hi fun _ _ => by rintro ⟨⟩)
      | _ => exact ho.elim
  | issued user t => exact ho.elim
  | failed => exact ho.elim
  | saved => exact ho.elim
  | listed left => exact ho.elim

/-- **One operation** keeps what holds of the update. -/
theorem updateEnds_step (s : AuthState) (ps : List (LocalAuthCall × AuthStage)) (i : ℕ)
    (l : LocalAuthCall) (φ : AuthStage) (o : AuthOp) (h : UpdateEnds auth s ps)
    (hi : ps[i]? = some (l, φ)) (hcond : IssuesCurrent s ps i o)
    (ho : (authProtocol auth).allowed l φ o) :
    (authProtocol auth).answers φ o (auth.handler o s).1 ∧
      UpdateEnds auth (auth.handler o s).2
        (ps.set i (l, (authProtocol auth).next φ ⟨o, (auth.handler o s).1⟩)) := by
  refine ⟨trivial, fun hsingle k update ψ password hk hpassword => ?_⟩
  have hlabels : (ps.set i (l, AuthStage.next φ ⟨o, (auth.handler o s).1⟩)).map Prod.fst =
      ps.map Prod.fst := by
    have hlabel : (ps.map Prod.fst)[i]? = some l := by
      rw [List.getElem?_map, hi, Option.map_some]
    obtain ⟨hlt, hself⟩ := List.getElem?_eq_some_iff.mp hlabel
    rw [map_set, ← hself]
    exact set_getElem_self hlt
  have hsingle' : SingleUpdate (ps.map Prod.fst) := by
    rw [← hlabels]
    exact hsingle
  by_cases hik : i = k
  · subst hik
    rw [List.getElem?_set_self (List.getElem?_eq_some_iff.mp hi).1] at hk
    obtain ⟨rfl, rfl⟩ := Prod.mk.inj (Option.some.inj hk)
    exact (h hsingle' i update φ password hi hpassword).own hpassword hi ho
  · rw [List.getElem?_set_ne hik] at hk
    have hending := h hsingle' k update ψ password hk hpassword
    cases l with
    | authenticate call =>
      exact hending.other (k := k) hi (fun _ => ⟨update, hk, rfl⟩) ho hcond
    | updateCredentials call =>
      refine absurd (hsingle' i k call update ?_ ?_) hik
      · rw [List.getElem?_map, hi]
        rfl
      · rw [List.getElem?_map, hk]
        rfl

end Steps

/-! ### Sign-ins -/

abbrev AuthProc := Proc AuthSig LocalAuthCall LocalAuthError LocalAuthAnswer

abbrev AuthPool := Pool AuthSig LocalAuthCall AuthState LocalAuthError LocalAuthAnswer

/-- The password hashes a call has read. -/
def hashesRead (past : List (Event AuthSig)) : List String :=
  past.filterMap fun
    | ⟨.findByEmail _, some user⟩ => user.passwordHash
    | _ => none

/-- The tokens a call has created. -/
def tokensCreated (past : List (Event AuthSig)) : List ApiToken :=
  past.filterMap fun
    | ⟨.createToken t, .ok _⟩ => some t
    | _ => none

/-- A token was issued by a call of `authenticate` whose password fits the hash, which it
has read. -/
def IssuedFor (auth : LocalAuth) (p : AuthProc) (t : ApiToken) (hash : String) : Prop :=
  ∃ call : SignIn, p.label = .authenticate call ∧ t ∈ tokensCreated p.past ∧
    hash ∈ hashesRead p.past ∧ auth.verifyPassword call.password hash

/-- What a stage says of the operations performed. -/
def AuthStage.Recorded (past : List (Event AuthSig)) : AuthStage → Prop
  | .looked (some user) => ∀ hash, user.passwordHash = some hash → hash ∈ hashesRead past
  | .issued user t =>
    (∀ hash, user.passwordHash = some hash → hash ∈ hashesRead past) ∧ t ∈ tokensCreated past
  | _ => True

theorem AuthStage.Recorded.append {past : List (Event AuthSig)} {φ : AuthStage}
    (h : φ.Recorded past) (more : List (Event AuthSig)) : φ.Recorded (past ++ more) := by
  have hread : ∀ {hash : String}, hash ∈ hashesRead past → hash ∈ hashesRead (past ++ more) := by
    intro hash hmem
    unfold hashesRead at hmem ⊢
    rw [filterMap_append]
    exact mem_append_left _ hmem
  rcases φ with - | - | (- | user) | ⟨user, t⟩ | - | - | left
  · trivial
  · trivial
  · trivial
  · exact fun hash hhash => hread (h hash hhash)
  · refine ⟨fun hash hhash => hread (h.1 hash hhash), ?_⟩
    unfold tokensCreated
    rw [filterMap_append]
    exact mem_append_left _ h.2
  · trivial
  · trivial
  · trivial

theorem recorded_phase (auth : LocalAuth) (past : List (Event AuthSig)) :
    ((authProtocol auth).phase past).Recorded past := by
  induction past using List.reverseRecOn with
  | nil => trivial
  | append_singleton past e ih =>
    rw [Protocol.phase_append]
    have ih' := ih.append [e]
    revert ih'
    generalize (authProtocol auth).phase past = φ
    intro ih'
    obtain ⟨o, r⟩ := e
    cases o with
    | reserve email now => trivial
    | findByEmail email =>
      cases r with
      | none => trivial
      | some user =>
        intro hash hhash
        unfold hashesRead
        rw [filterMap_append]
        exact mem_append_right _ (by simp [hhash])
    | clearFailures email => cases φ <;> exact ih'
    | createToken t =>
      cases r with
      | error e => rcases φ with - | - | (- | user) | ⟨user, t'⟩ | - | - | left <;> trivial
      | ok t' =>
        rcases φ with - | - | (- | user) | ⟨user, t'⟩ | - | - | left
        · trivial
        · trivial
        · trivial
        · refine ⟨ih', ?_⟩
          unfold tokensCreated
          rw [filterMap_append]
          exact mem_append_right _ (by simp)
        · trivial
        · trivial
        · trivial
        · trivial
    | saveUser user => cases r <;> cases φ <;> trivial
    | listByOwner userId => cases φ <;> trivial
    | revokeToken id now => cases φ <;> exact ih'

/-- **Changing the password ends old sessions** in a run in which a sign-in creates its token
after the listing only on the hash that is stored. -/
theorem passwordChange_endsSessions {auth : LocalAuth} {s : AuthState} {q : AuthPool}
    (hrun : Pool.Runs auth.code auth.handler (Pool.Staged (authProtocol auth) IssuesCurrent)
      ⟨s, [], []⟩ q)
    (hsingle : SingleUpdate (q.procs.map (·.label))) {p : AuthProc} (hp : p ∈ q.procs)
    {call : CredentialUpdate} (hlabel : p.label = .updateCredentials call) {password : String}
    (hpassword : call.normalizedPassword = some password) (hreturned : p.returned.isSome) :
    ∀ t ∈ q.shared.tokens.items, t.ownerUserId = call.user.id → t.isLive →
      ∃ p' ∈ q.procs, IssuedFor auth p' t (auth.hashPassword call.salt password) := by
  have hnil : UpdateEnds auth s [] := by
    intro _ k update φ password hk
    cases hk
  obtain ⟨hends, hprocs⟩ := Pool.Runs.staged (P := authProtocol auth) (E := fun _ _ _ => True)
    (fun call => follows_code call) (fun _ _ call h => h.start call) updateEnds_step hnil hrun
  have hlabels : (q.stages (authProtocol auth)).map Prod.fst = q.procs.map (·.label) := by
    rw [stages, map_map]
    rfl
  have hphase : (authProtocol auth).phase p.past = .listed [] := by
    obtain ⟨l, past, rest⟩ := p
    obtain rfl : l = .updateCredentials call := hlabel
    have hfollows := hprocs _ hp
    cases rest with
    | done a =>
      have hends := Program.follows_done_iff.mp hfollows
      exact hends
    | raise e => cases hreturned
    | call o k => cases hreturned
  obtain ⟨k, hlt, hk⟩ := getElem_of_mem hp
  have hstage : (q.stages (authProtocol auth))[k]? = some (.updateCredentials call, .listed []) := by
    rw [stages, List.getElem?_map, List.getElem?_eq_getElem hlt, hk, Option.map_some, hlabel,
      hphase]
  intro t ht howner hlive
  rw [← hlabels] at hsingle
  have hending := hends hsingle k call _ password hstage hpassword
  rcases hending.sessions [] rfl t ht howner hlive with hmem | ⟨j, signIn, user, hj, hadmits, hhash⟩
  · cases hmem
  · rw [stages, List.getElem?_map] at hj
    obtain ⟨p', hp', heq⟩ := Option.map_eq_some_iff.mp hj
    obtain ⟨hlabel', hissued⟩ := Prod.mk.inj heq
    have hrecorded := recorded_phase auth p'.past
    rw [hissued] at hrecorded
    obtain ⟨hread, hcreated⟩ := hrecorded
    refine ⟨p', mem_of_getElem? hp', signIn, hlabel', hcreated, hread _ hhash, ?_⟩
    simp only [admits, hhash, Option.any_some, Bool.and_eq_true] at hadmits
    exact hadmits.2

/-! ### A sign-in and an update -/

/-- Plain passwords for hashes. -/
def plainAuth : LocalAuth where
  store := .sql
  lower := id
  verifyPassword := fun password hash => password = hash
  hashPassword := fun _ password => password
  tokenHash := id
  scopes := []

def owner : UserDefinition where
  id := "u"
  email := "admin@example.com"
  metadata := [("local_auth", .obj [("password_hash", .str "change-me-123")])]

def ownerState : AuthState where
  users := ({} : UserTable).put owner

def signInWith (password tokenId : String) : LocalAuthCall :=
  .authenticate ⟨"admin@example.com", password, 0, tokenId, tokenId, 0⟩

def ownersUpdate : CredentialUpdate where
  user := owner
  currentPassword := "change-me-123"
  email := "admin@example.com"
  newPassword := some "friendlier-pass-456"
  salt := ""
  now := 1

/-- Two sign-ins, the first with the old password, and the update take their steps in this
order. -/
def threeCalls (steps : List ℕ) : List (Act LocalAuthCall) :=
  .start (signInWith "change-me-123" "old") :: .start (.updateCredentials ownersUpdate) ::
    .start (signInWith "friendlier-pass-456" "new") :: steps.map .step

/-- A check that is enough where there is one user. -/
def checkIssues (q : AuthPool) (i : ℕ) : AuthOp → Bool
  | .createToken _ =>
    match (q.stages (authProtocol plainAuth))[i]? with
    | some (_, .looked (some user)) =>
      q.shared.users.users.all fun v => v.passwordHash = user.passwordHash
    | _ => true
  | _ => true

theorem issuesCurrent_of_check (q : AuthPool) (i : ℕ) (o : AuthOp) (h : checkIssues q i o) :
    IssuesCurrent q.shared (q.stages (authProtocol plainAuth)) i o := by
  cases o with
  | createToken t =>
    intro call user hi _ v hv _
    simp only [checkIssues, hi, all_eq_true, decide_eq_true_eq] at h
    exact h v hv
  | _ => trivial

/-- The identifiers of the tokens and whether they are live. -/
def liveTokens (q : AuthPool) : List (String × Bool) :=
  q.shared.tokens.items.map fun t => (t.id, t.isLive)

/-- The user of an update and its new password. -/
def updateOf : LocalAuthCall → List String
  | .updateCredentials call => call.user.id :: call.normalizedPassword.toList
  | .authenticate _ => []

/-- The updates among the calls, and which calls have returned. -/
def progress (q : AuthPool) : List (List String × Bool) :=
  q.procs.map fun p => (updateOf p.label, p.returned.isSome)

/-- The progress of the three calls when all have returned. -/
def allReturned : List (List String × Bool) :=
  [([], true), (["u", "friendlier-pass-456"], true), ([], true)]

theorem singleUpdate_of_progress {q : AuthPool} (h : progress q = allReturned) :
    SingleUpdate (q.procs.map (·.label)) := by
  have hone : ∀ (i : ℕ) (call : CredentialUpdate),
      (q.procs.map (·.label))[i]? = some (.updateCredentials call) → i = 1 := by
    intro i call hi
    rw [List.getElem?_map] at hi
    obtain ⟨p, hp, hlabel⟩ := Option.map_eq_some_iff.mp hi
    have hentry : allReturned[i]? = some (call.user.id :: call.normalizedPassword.toList,
        p.returned.isSome) := by
      rw [← h, progress, List.getElem?_map, hp, Option.map_some, hlabel]
      rfl
    rcases i with - | - | - | i
    · cases hentry
    · rfl
    · cases hentry
    · cases hentry
  intro i j call call' hi hj
  rw [hone i call hi, hone j call' hj]

/-- The update among the three calls. -/
theorem update_of_progress {q : AuthPool} (h : progress q = allReturned) :
    ∃ p ∈ q.procs, ∃ call, p.label = .updateCredentials call ∧ call.user.id = "u" ∧
      call.normalizedPassword = some "friendlier-pass-456" ∧ p.returned.isSome := by
  have hentry : (progress q)[1]? = some (["u", "friendlier-pass-456"], true) := by
    rw [h]
    rfl
  rw [progress, List.getElem?_map] at hentry
  obtain ⟨p, hp, heq⟩ := Option.map_eq_some_iff.mp hentry
  obtain ⟨hupdate, hreturned⟩ := Prod.mk.inj heq
  rcases hlabel : p.label with call | call
  · rw [hlabel] at hupdate
    cases hupdate
  · rw [hlabel] at hupdate
    obtain ⟨hid, hpassword⟩ := List.cons.inj hupdate
    refine ⟨p, mem_of_getElem? hp, call, hlabel, hid, ?_, hreturned⟩
    rcases hnew : call.normalizedPassword with - | password
    · rw [hnew] at hpassword
      cases hpassword
    · rw [hnew] at hpassword
      obtain ⟨heq, -⟩ := List.cons.inj hpassword
      rw [heq]

/-- One call after the other. -/
theorem passwordChange_endsSessions_serial :
    ∃ q : AuthPool, liveTokens q = [("old", false), ("new", true)] ∧
      ∀ t ∈ q.shared.tokens.items, t.ownerUserId = "u" → t.isLive →
        ∃ p ∈ q.procs, IssuedFor plainAuth p t "friendlier-pass-456" := by
  have hserial : (nextsWhere plainAuth.code plainAuth.handler checkIssues ⟨ownerState, [], []⟩
      (threeCalls [0, 0, 0, 0, 1, 1, 1, 1, 2, 2, 2, 2])).map (fun q => (liveTokens q, progress q)) =
      some ([("old", false), ("new", true)], allReturned) := by decide +kernel
  obtain ⟨q, hq, hfacts⟩ := Option.map_eq_some_iff.mp hserial
  obtain ⟨hlive, hprogress⟩ := Prod.mk.inj hfacts
  obtain ⟨p, hp, call, hlabel, hid, hpassword, hreturned⟩ := update_of_progress hprogress
  refine ⟨q, hlive, ?_⟩
  rw [← hid]
  exact passwordChange_endsSessions (runs_of_nextsWhere issuesCurrent_of_check hq)
    (singleUpdate_of_progress hprogress) hp hlabel hpassword hreturned

set_option synthInstance.maxSize 1000 in
/-- The first sign-in reads the user before the update and creates its token after it. -/
theorem passwordChange_session :
    ¬ ∀ (auth : LocalAuth) (s : AuthState) (q : AuthPool) (p : AuthProc) (call : CredentialUpdate)
        (password : String),
      Pool.Runs auth.code auth.handler (fun _ _ => True) ⟨s, [], []⟩ q →
      SingleUpdate (q.procs.map (·.label)) → p ∈ q.procs → p.label = .updateCredentials call →
      call.normalizedPassword = some password → (∀ p ∈ q.procs, p.returned.isSome) →
        ∀ t ∈ q.shared.tokens.items, t.ownerUserId = call.user.id → t.isLive →
          ∃ p' ∈ q.procs, IssuedFor auth p' t (auth.hashPassword call.salt password) := by
  intro hclaim
  have hrun : (nexts plainAuth.code plainAuth.handler ⟨ownerState, [], []⟩
      (threeCalls [0, 0, 1, 1, 1, 0, 0, 2, 2, 2, 2])).map
        (fun q => (progress q, q.shared.tokens.items.map fun t => (t.id, t.ownerUserId, t.isLive),
          q.procs.map fun p => (hashesRead p.past, (tokensCreated p.past).map (·.id)))) =
      some (allReturned, [("old", "u", true), ("new", "u", true)],
        [(["change-me-123"], ["old"]), (["change-me-123"], []),
          (["friendlier-pass-456"], ["new"])]) := by decide +kernel
  obtain ⟨q, hq, hfacts⟩ := Option.map_eq_some_iff.mp hrun
  obtain ⟨hprogress, hfacts⟩ := Prod.mk.inj hfacts
  obtain ⟨htokens, hpasts⟩ := Prod.mk.inj hfacts
  obtain ⟨p, hp, call, hlabel, hid, hpassword, -⟩ := update_of_progress hprogress
  have hreturned : ∀ p ∈ q.procs, p.returned.isSome := by
    intro p' hp'
    have hmem := mem_map_of_mem (f := fun p : AuthProc =>
      (updateOf p.label, p.returned.isSome)) hp'
    rw [← progress, hprogress] at hmem
    simp only [allReturned, mem_cons, Prod.mk.injEq, not_mem_nil, or_false] at hmem
    rcases hmem with ⟨-, h⟩ | ⟨-, h⟩ | ⟨-, h⟩ <;> exact h
  have hold : ("old", "u", true) ∈ q.shared.tokens.items.map fun t =>
      (t.id, t.ownerUserId, t.isLive) := by
    rw [htokens]
    exact mem_cons_self
  obtain ⟨t, ht, hshape⟩ := List.mem_map.mp hold
  obtain ⟨htid, hshape⟩ := Prod.mk.inj hshape
  obtain ⟨howner, hlive⟩ := Prod.mk.inj hshape
  obtain ⟨p', hp', signIn, -, hcreated, hread, -⟩ := hclaim plainAuth ownerState q p call _
    (runs_of_nexts hq) (singleUpdate_of_progress hprogress) hp hlabel hpassword hreturned
    t ht (howner.trans hid.symm) hlive
  have hmem := mem_map_of_mem (f := fun p : AuthProc =>
    (hashesRead p.past, (tokensCreated p.past).map (·.id))) hp'
  have hcreated' := mem_map_of_mem (f := fun t : ApiToken => t.id) hcreated
  rw [hpasts] at hmem
  rw [htid] at hcreated'
  simp only [mem_cons, Prod.mk.injEq, not_mem_nil, or_false] at hmem
  rcases hmem with ⟨hhash, -⟩ | ⟨-, hids⟩ | ⟨-, hids⟩
  · rw [hhash] at hread
    have hread' : "friendlier-pass-456" ∈ ["change-me-123"] := hread
    revert hread'
    decide
  · rw [hids] at hcreated'
    cases hcreated'
  · rw [hids] at hcreated'
    revert hcreated'
    decide

end OpenAgency
