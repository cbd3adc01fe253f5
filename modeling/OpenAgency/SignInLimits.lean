/-
SignInLimits.lean

How many attempts `authenticate` admits for one email.

An admitted call reserves an attempt before it looks at the password, and a call whose
password fits clears all attempts of its email, also those reserved after its own.  So a call
admitted before a window may clear what was reserved within it.  In any interleaving more than
five attempts within a minute have a success between them, and no more than 4096 emails are
tracked (`attempts_limited`).
-/
import Mathlib.Tactic.Linarith
import OpenAgency.CredentialUpdates

namespace OpenAgency

open Interaction List

/-! ### Attempts and successes -/

abbrev AuthEvents := List (Event AuthSig)

/-- The times at which attempts were made, admitted or not. -/
def attemptTimes (events : AuthEvents) : List ℚ :=
  events.filterMap fun
    | ⟨.reserve _ now, _⟩ => some now
    | _ => none

variable (email : String)

/-- The time at which an event reserves an attempt for `email`. -/
def reservedAt : Event AuthSig → Option ℚ
  | ⟨.reserve e now, admitted⟩ => if e = email ∧ admitted = true then some now else none
  | _ => none

/-- A check of a password for `email` has succeeded. -/
def succeeds : Event AuthSig → Bool
  | ⟨.clearFailures e, _⟩ => e = email
  | _ => false

/-- The attempts for `email` reserved in the minute that begins at `t`. -/
def attemptsIn (t : ℚ) (events : AuthEvents) : List ℚ :=
  (events.filterMap (reservedAt email)).filter fun now => t ≤ now ∧ now < t + 60

/-- No check for `email` has succeeded. -/
def Unbroken (events : AuthEvents) : Prop := ∀ e ∈ events, succeeds email e = false

/-- Of the attempts for an email reserved within a minute no more than five lie in a stretch of
events without a success for it. -/
def LimitedIn (events : AuthEvents) : Prop :=
  ∀ email t stretch, stretch <:+: events → Unbroken email stretch →
    (attemptsIn email t stretch).length ≤ 5

variable {email} {events : AuthEvents} {e : Event AuthSig}

theorem attemptsIn_append {t : ℚ} (events events' : AuthEvents) :
    attemptsIn email t (events ++ events') =
      attemptsIn email t events ++ attemptsIn email t events' := by
  simp [attemptsIn]

/-! ### The table of attempts -/

theorem filter_sublist_dropWhile {α : Type} (p : α → Bool) (l : List α) :
    l.filter (fun a => !p a) <+ l.dropWhile p := by
  induction l with
  | nil => exact Sublist.refl _
  | cons a l ih =>
    by_cases h : p a
    · simpa [h] using ih
    · rw [dropWhile_cons_of_neg h]
      exact filter_sublist

variable {failures : Dict (List ℚ)} {now : ℚ}

/-- What is kept for an email. -/
def recorded (email : String) (failures : Dict (List ℚ)) : List ℚ := (failures.get? email).getD []

theorem recorded_prune : (recorded email failures).filter (fun s => now - s < 60) <+
    recorded email (pruneLocalAuthFailures now failures) := by
  induction failures with
  | nil => exact Sublist.refl _
  | cons p failures ih =>
    obtain ⟨k, times⟩ := p
    have hkeep : times.filter (fun s => now - s < 60) <+
        times.dropWhile fun s => decide (60 ≤ now - s) := by
      simpa only [← not_le, decide_not] using filter_sublist_dropWhile _ times
    unfold recorded pruneLocalAuthFailures at ih ⊢
    rw [map_cons, filter_cons, Dict.get?_cons]
    by_cases hk : email = k
    · rw [if_pos hk]
      split
      · rwa [Dict.get?_cons, if_pos hk]
      next hempty =>
        rw [Bool.not_eq_true', Bool.not_eq_false, List.isEmpty_iff] at hempty
        dsimp only at hempty
        rw [hempty] at hkeep
        simp [sublist_nil.mp hkeep]
    · rw [if_neg hk]
      split
      · rwa [Dict.get?_cons, if_neg hk]
      · exact ih

/-- Everything an attempt can do. -/
theorem reserve_cases : let pruned := pruneLocalAuthFailures now failures
    reserveLocalAuthAttempt email now failures = (false, pruned) ∨
      reserveLocalAuthAttempt email now failures =
        (true, pruned.set email (recorded email pruned ++ [now])) ∧
      (recorded email pruned).length < 5 ∧ (pruned.get? email = none → pruned.length < 4096) := by
  intro pruned
  unfold reserveLocalAuthAttempt recorded
  rcases hget : pruned.get? email with - | times <;> simp only [pruned] at hget <;>
    simp only [hget]
  · by_cases hfull : 4096 ≤ pruned.length
    · exact .inl (if_pos hfull)
    · exact .inr ⟨if_neg hfull, Nat.zero_lt_succ 4, fun _ => Nat.lt_of_not_le hfull⟩
  · by_cases hfull : 5 ≤ times.length
    · exact .inl (if_pos hfull)
    · exact .inr ⟨if_neg hfull, Nat.lt_of_not_le hfull, nofun⟩

theorem length_set (failures : Dict (List ℚ)) (times : List ℚ) :
    (failures.set email times).length =
      failures.length + if (failures.get? email).isSome then 0 else 1 := by
  induction failures with
  | nil => rfl
  | cons p failures ih =>
    obtain ⟨k, v⟩ := p
    by_cases hk : email = k
    · simp [Dict.set, Dict.get?_cons, hk]
    · simp only [Dict.set, Dict.get?_cons, hk, if_false, length_cons, ih]
      omega

theorem get?_filter_ne {email' : String} (h : email' ≠ email) :
    Dict.get? (failures.filter (·.1 ≠ email)) email' = failures.get? email' := by
  induction failures with
  | nil => rfl
  | cons p failures ih =>
    obtain ⟨k, v⟩ := p
    rw [filter_cons, Dict.get?_cons]
    split
    · rw [Dict.get?_cons, ih]
    next hk =>
      rw [ih, if_neg (by simpa using fun heq => h (heq.trans (by simpa using hk)))]

/-! ### Runs -/

/-- Every attempt was made before the minute that begins at `t` is over. -/
def Before (t : ℚ) (events : AuthEvents) : Prop := ∀ s ∈ attemptTimes events, s < t + 60

theorem before_append {t : ℚ} : Before t (events ++ [e]) ↔ Before t events ∧ Before t [e] := by
  simp only [Before, attemptTimes, filterMap_append, mem_append, or_imp, forall_and]

/-- What holds between the table and the events so far. -/
structure Limited (failures : Dict (List ℚ)) (events : AuthEvents) : Prop where
  tracked : failures.length ≤ 4096
  kept : ∀ email t recent, Before t events → recent <:+ events → Unbroken email recent →
    attemptsIn email t recent <+ recorded email failures
  limited : LimitedIn events

namespace Limited

theorem nil : Limited [] [] := by
  refine ⟨Nat.zero_le _, fun _ _ _ _ h _ => ?_, fun _ _ _ h _ => ?_⟩
  · rw [suffix_nil.mp h]
    exact Sublist.refl _
  · rw [infix_nil.mp h]
    exact Nat.zero_le 5

/-- One more event. -/
theorem append (h : Limited failures events) {failures' : Dict (List ℚ)}
    (htracked : failures'.length ≤ 4096)
    (hkept : ∀ email t recent, Before t [e] → succeeds email e = false →
      attemptsIn email t recent <+ recorded email failures →
      attemptsIn email t (recent ++ [e]) <+ recorded email failures')
    (hfew : ∀ email t, attemptsIn email t [e] ≠ [] →
      Before t (events ++ [e]) ∧ (recorded email failures').length ≤ 5) :
    Limited failures' (events ++ [e]) := by
  have hkept' : ∀ email t recent, Before t (events ++ [e]) → recent <:+ events ++ [e] →
      Unbroken email recent → attemptsIn email t recent <+ recorded email failures' := by
    intro email t recent hbefore hsuffix hunbroken
    obtain ⟨hold, hnew⟩ := before_append.mp hbefore
    rcases suffix_concat_iff.mp hsuffix with rfl | ⟨recent, rfl, hrecent⟩
    · exact nil_sublist _
    · exact hkept email t recent hnew (hunbroken e mem_concat_self)
        (h.kept email t recent hold hrecent fun e he => hunbroken e (mem_append_left _ he))
  refine ⟨htracked, hkept', fun email t stretch hstretch hunbroken => ?_⟩
  rcases infix_concat_iff.mp hstretch with hsuffix | hinfix
  · by_cases hnew : attemptsIn email t [e] = []
    · rcases suffix_concat_iff.mp hsuffix with rfl | ⟨recent, rfl, hrecent⟩
      · exact Nat.zero_le 5
      · rw [attemptsIn_append, hnew, append_nil]
        exact h.limited email t recent hrecent.isInfix fun e he =>
          hunbroken e (mem_append_left _ he)
    · obtain ⟨hbefore, hlength⟩ := hfew email t hnew
      exact (hkept' email t stretch hbefore hsuffix hunbroken).length_le.trans hlength
  · exact h.limited email t stretch hinfix hunbroken

theorem reserve (h : Limited failures events) (email : String)
    (hnow : ∀ s ∈ attemptTimes events, s ≤ now) :
    Limited (reserveLocalAuthAttempt email now failures).2
      (events ++ [⟨.reserve email now, (reserveLocalAuthAttempt email now failures).1⟩]) := by
  have hprune : (pruneLocalAuthFailures now failures).length ≤ 4096 := by
    unfold pruneLocalAuthFailures
    exact ((length_filter_le _ _).trans (length_map _).le).trans h.tracked
  -- what lies in a minute that is not over is not pruned
  have hpruned : ∀ email' t recent, now < t + 60 →
      attemptsIn email' t recent <+ recorded email' failures →
      attemptsIn email' t recent <+ recorded email' (pruneLocalAuthFailures now failures) := by
    intro email' t recent hlt hkept
    have hfresh : ∀ s ∈ attemptsIn email' t recent, decide (now - s < 60) = true := by
      intro s hs
      obtain ⟨hle, -⟩ := of_decide_eq_true (List.mem_filter.mp hs).2
      simp only [decide_eq_true_eq]
      linarith
    rw [← filter_eq_self.mpr hfresh]
    exact (hkept.filter _).trans recorded_prune
  have hcases := @reserve_cases email failures now
  generalize pruneLocalAuthFailures now failures = pruned at hprune hpruned hcases
  rcases hcases with heq | ⟨heq, hlt, hfull⟩
  · rw [heq]
    refine h.append hprune (fun email' t recent hbefore _ hkept => ?_) fun email' t hnew => ?_
    · simpa [attemptsIn, reservedAt] using hpruned email' t recent (hbefore now mem_cons_self) hkept
    · simp [attemptsIn, reservedAt] at hnew
  · rw [heq]
    refine h.append ?_ (fun email' t recent hbefore _ hkept => ?_) fun email' t hnew => ?_
    · rw [length_set]
      rcases hget : pruned.get? email with - | times
      · exact hfull hget
      · exact hprune
    · have hkept := hpruned email' t recent (hbefore now mem_cons_self) hkept
      unfold recorded at hkept ⊢
      rw [attemptsIn_append]
      by_cases hemail : email = email'
      · subst hemail
        rw [Dict.get?_set_self]
        have hlast : [⟨.reserve email now, true⟩].filterMap (reservedAt email) = [now] := by
          simp [reservedAt]
        refine hkept.append ?_
        show filter _ (filterMap (reservedAt email) [⟨.reserve email now, true⟩]) <+ [now]
        rw [hlast]
        exact filter_sublist
      · rw [Dict.get?_set_ne (Ne.symm hemail)]
        simpa [attemptsIn, reservedAt, hemail] using hkept
    · obtain ⟨rfl, -, hlt'⟩ : email = email' ∧ t ≤ now ∧ now < t + 60 := by
        by_cases hemail : email = email'
        · simpa [attemptsIn, reservedAt, hemail, and_imp] using hnew
        · simp [attemptsIn, reservedAt, hemail] at hnew
      refine ⟨before_append.mpr ⟨fun s hs => (hnow s hs).trans_lt hlt', ?_⟩, ?_⟩
      · simpa [Before, attemptTimes] using hlt'
      · rw [recorded, Dict.get?_set_self, Option.getD_some, length_append]
        exact hlt

end Limited

/-- Attempts are made at times that never decrease. -/
def onTime (q : AuthPool) (_ : ℕ) : AuthOp → Bool
  | .reserve _ now => (attemptTimes (q.trace.map Prod.snd)).all (· ≤ now)
  | _ => true

variable {auth : LocalAuth} {q : AuthPool}

/-- **Attempts are limited.**  No more than 4096 emails are tracked, and more than five attempts
reserved for an email within a minute have a success between them. -/
theorem attempts_limited {users : UserTable} {tokens : ApiTokens}
    (h : Pool.Runs auth.code auth.handler (Pool.Where (onTime · · ·)) ⟨⟨users, tokens, []⟩, [], []⟩ q) :
    q.shared.failures.length ≤ 4096 ∧ LimitedIn (q.trace.map Prod.snd) := by
  suffices hlimited : Limited q.shared.failures (q.trace.map Prod.snd) from
    ⟨hlimited.tracked, hlimited.limited⟩
  refine Pool.Runs.invariant (I := fun q => Limited q.shared.failures (q.trace.map Prod.snd))
    (fun q l h _ => ?_) (fun q i l past o k h hguard hi => ?_) .nil h
  · exact h
  · have hother : ∀ {r}, (∀ email, reservedAt email ⟨o, r⟩ = none) →
        Limited q.shared.failures (q.trace.map Prod.snd ++ [⟨o, r⟩]) := fun hreserved =>
      h.append h.tracked (fun _ _ _ _ _ hkept => by simpa [attemptsIn, hreserved] using hkept)
        fun _ _ hnew => by simp [attemptsIn, hreserved] at hnew
    simp only [Pool.afterStep, map_append, map_cons, map_nil]
    cases o with
    | reserve email now => exact h.reserve email (by simpa [onTime] using hguard l past _ k hi)
    | clearFailures email =>
      refine h.append ((length_filter_le _ _).trans h.tracked)
        (fun email' t recent _ hne hkept => ?_) fun _ _ hnew => absurd rfl hnew
      show _ <+ recorded email' (q.shared.failures.filter (·.1 ≠ email))
      rw [recorded, get?_filter_ne (by simpa [succeeds, eq_comm] using hne), attemptsIn_append]
      exact (append_nil _).symm ▸ hkept
    | findByEmail email => exact hother fun _ => rfl
    | saveUser user => exact hother fun _ => rfl
    | createToken token => exact hother fun _ => rfl
    | listByOwner userId => exact hother fun _ => rfl
    | revokeToken id now => exact hother fun _ => rfl

/-! ### A check that began before the window -/

def signInAt (now : ℚ) (password : String) : Act LocalAuthCall :=
  .start (.authenticate ⟨"admin@example.com", password, now, "t", "t", 0⟩)

/-- The right password at 0 and four wrong ones at 1; the first check ends, and two more
attempts are made. -/
def lateSuccess : List (Act LocalAuthCall) :=
  signInAt 0 "change-me-123" :: (range 4).map (fun _ => signInAt 1 "wrong") ++
    [0, 1, 2, 3, 4, 1, 2, 3, 4, 0, 0].map .step ++ [signInAt 1 "wrong", signInAt 1 "wrong"] ++
    [5, 6, 5, 6].map .step

/-- The attempts of the minute that begins at 1. -/
def outcome (q : AuthPool) : ℕ := (attemptsIn "admin@example.com" 1 (q.trace.map Prod.snd)).length

theorem run_lateSuccess : (Pool.nextsWhere plainAuth.code plainAuth.handler onTime
    ⟨ownerState, [], []⟩ lateSuccess).map outcome = some 6 := by decide +kernel

theorem attempts_limited_lateSuccess : ∃ q : AuthPool, outcome q = 6 ∧
    q.shared.failures.length ≤ 4096 ∧ LimitedIn (q.trace.map Prod.snd) := by
  obtain ⟨q, hq, hsix⟩ := Option.map_eq_some_iff.mp run_lateSuccess
  exact ⟨q, hsix, attempts_limited (Pool.runs_of_nextsWhere (fun _ _ _ => id) hq)⟩

end OpenAgency
