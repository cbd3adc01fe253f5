/-
DomainSlots.lean

The slots of a domain are bounded and do not leak.

No task waits while it holds the lock of the condition, so `release` never has to wait for
it and cannot be cancelled between marking the lease and giving the slot back.  So every
slot belongs to a task that is on its way to a lease or has returned one that has not been
released (`domainKept_reaches`).
-/
import OpenAgency.DomainPolicy

namespace OpenAgency

open Interaction List DomainPolicyStore

/-! ### What a turn does while the lock is free -/

namespace DomainState

/-- Nobody holds the lock or waits for it. -/
structure Unlocked (s : DomainState) : Prop where
  locked : s.locked = false
  lockWaiters : s.lockWaiters = []

/-- The state after a lease has been released. -/
def freed (s : DomainState) (lease : ℕ) : DomainState :=
  match s.leases[lease]? with
  | some ⟨token, false⟩ =>
    { s with
      leases := s.leases.set lease ⟨token, true⟩
      activeLimits := s.activeLimits.filter (·.1 ≠ token)
      waiters := s.waiters.map fun w => (w.1, true) }
  | _ => s

/-- What comes of a task that has got a slot and starts, or waits to. -/
inductive Paced (s : DomainState) (lease : ℕ) : DomainPoint × DomainState → Prop
  | pacing : Paced s lease (.pacing lease, s)
  | sleeping : Paced s lease (.sleeping lease, s)
  | returned (t : Option ℚ) : Paced s lease (.returned lease, { s with lastStarted := t })
  | failed (e : DomainError) : Paced s lease (.ended (.raised e), s.freed lease)

variable {s : DomainState} {i lease : ℕ} {limit : ℤ} {interval : ℚ}

theorem withLock_eq (h : s.Unlocked) (parked : DomainPoint)
    (body : DomainState → DomainPoint × DomainState) :
    s.withLock i parked body = body { s with locked := true } :=
  if_pos ⟨h.locked, h.lockWaiters⟩

theorem freed_eq {token : ℕ} (h : s.leases[lease]? = some ⟨token, false⟩) :
    s.freed lease = { s with
      leases := s.leases.set lease ⟨token, true⟩
      activeLimits := s.activeLimits.filter (·.1 ≠ token)
      waiters := s.waiters.map fun w => (w.1, true) } := by
  unfold freed
  rw [h]

theorem freed_self (h : ∀ token, s.leases[lease]? ≠ some ⟨token, false⟩) : s.freed lease = s := by
  unfold freed
  split
  next token hlease => exact absurd hlease (h token)
  · rfl

/-- `release` ends in the turn in which it is called. -/
theorem release_eq (h : s.Unlocked) (ending : DomainEnding) :
    s.release i lease ending = (.ended ending, s.freed lease) := by
  unfold release
  split
  · next token hlease =>
    have h' : ({ s with leases := s.leases.set lease ⟨token, true⟩ } : DomainState).Unlocked :=
      ⟨h.locked, h.lockWaiters⟩
    rw [withLock_eq h', freed_eq hlease]
    simp [popToken, notifyAll, unlock, h.locked]
  next hlease => rw [freed_self hlease]

theorem paced_start (h : s.Unlocked) (e : DomainAnswers) : Paced s lease (s.start i lease e) := by
  unfold start
  split
  · rw [release_eq h]
    exact .failed _
  · exact .returned _

theorem paced_pace (h : s.Unlocked) (e : DomainAnswers) :
    Paced s lease (s.pace i lease interval e) := by
  unfold pace
  split
  · rw [release_eq h]
    exact .failed _
  · split
    · exact .sleeping
    · exact paced_start h e

variable (limit interval) in
/-- A task with the lock waits for the condition, or takes a slot. -/
theorem enter_cases (h : s.Unlocked) (e : DomainAnswers) :
    (s.canEnter limit = false ∧ ({ s with locked := true } : DomainState).enter i limit interval e
      = (.waiting, { s with waiters := s.waiters ++ [(i, false)] })) ∨
    (s.canEnter limit = true ∧ Paced (s.take limit) s.leases.length
      (({ s with locked := true } : DomainState).enter i limit interval e)) := by
  have htake : (({ s with locked := true } : DomainState).take limit).unlock = s.take limit := by
    simp [take, unlock, h.locked]
  have hfree : (s.take limit).Unlocked := ⟨h.locked, h.lockWaiters⟩
  cases hcan : s.canEnter limit with
  | false =>
    have hcan' : ({ s with locked := true } : DomainState).canEnter limit = false := hcan
    refine .inl ⟨rfl, ?_⟩
    unfold enter
    rw [if_neg (by rw [hcan']; exact Bool.false_ne_true)]
    simp [unlock, h.locked]
  | true =>
    have hcan' : ({ s with locked := true } : DomainState).canEnter limit = true := hcan
    refine .inr ⟨rfl, ?_⟩
    unfold enter
    rw [if_pos hcan', htake]
    split
    · exact paced_pace hfree e
    · exact .pacing

/-! ### The slots -/

theorem le_foldl_min {n : ℤ} (l : List ℤ) (a : ℤ) : n ≤ l.foldl min a ↔ n ≤ a ∧ ∀ b ∈ l, n ≤ b := by
  induction l generalizing a with
  | nil => simp
  | cons b l ih =>
    rw [foldl_cons, ih, le_min_iff, forall_mem_cons, and_assoc]

theorem canEnter_iff : s.canEnter limit = true ↔
    (s.activeLimits.length + 1 : ℤ) ≤ limit ∧
      ∀ a ∈ s.activeLimits, (s.activeLimits.length + 1 : ℤ) ≤ a.2 := by
  rw [canEnter, decide_eq_true_iff, le_foldl_min, forall_mem_map]

/-- More slots that are taken let nobody in. -/
theorem canEnter_of_take {limit' : ℤ} (h : (s.take limit').canEnter limit = true) :
    s.canEnter limit = true := by
  rw [canEnter_iff] at h ⊢
  have hlength : (s.take limit').activeLimits.length = s.activeLimits.length + 1 := by
    simp [take]
  rw [hlength] at h
  push_cast at h
  refine ⟨by omega, fun a ha => ?_⟩
  have hle := h.2 a (by simp [take, ha])
  omega

/-- The slots that are taken and the leases on them. -/
structure Slots (store : DomainPolicyStore) (s : DomainState) : Prop where
  unlocked : s.Unlocked
  bounded : ∀ a ∈ s.activeLimits, (s.activeLimits.length : ℤ) ≤ a.2 ∧ a.2 ≤ store.maxConcurrency
  nextToken : s.nextToken = s.leases.length
  tokens : ∀ (k : ℕ) lease, s.leases[k]? = some lease → lease.token = k + 1
  active : ∀ a ∈ s.activeLimits, ∃ k : ℕ, s.leases[k]? = some ⟨a.1, false⟩

variable {store : DomainPolicyStore}

theorem slots_take (h : Slots store s) (hcan : s.canEnter limit = true)
    (hlimit : limit ≤ store.maxConcurrency) : Slots store (s.take limit) where
  unlocked := ⟨h.unlocked.locked, h.unlocked.lockWaiters⟩
  bounded a ha := by
    obtain ⟨hnew, hold⟩ := canEnter_iff.mp hcan
    have hlength : (s.take limit).activeLimits.length = s.activeLimits.length + 1 := by
      simp [take]
    rw [hlength]
    push_cast
    rcases List.mem_append.mp ha with ha | ha
    · exact ⟨hold a ha, (h.bounded a ha).2⟩
    · obtain rfl := List.mem_singleton.mp ha
      exact ⟨hnew, hlimit⟩
  nextToken := by simp [take, h.nextToken]
  tokens k lease hk := by
    rcases lt_or_ge k s.leases.length with hlt | hge
    · rw [take, List.getElem?_append_left hlt] at hk
      exact h.tokens k lease hk
    · have hk' : k = s.leases.length := by
        have hlt := (List.getElem?_eq_some_iff.mp hk).1
        simp only [take, length_append, length_singleton] at hlt
        omega
      subst hk'
      rw [take, List.getElem?_concat_length] at hk
      obtain rfl := Option.some.inj hk
      exact congrArg (· + 1) h.nextToken
  active a ha := by
    rcases List.mem_append.mp ha with ha | ha
    · obtain ⟨k, hk⟩ := h.active a ha
      have hlt := (List.getElem?_eq_some_iff.mp hk).1
      exact ⟨k, by rw [take, List.getElem?_append_left hlt, hk]⟩
    · obtain rfl := List.mem_singleton.mp ha
      exact ⟨s.leases.length, List.getElem?_concat_length⟩

theorem slots_freed (h : Slots store s) (lease : ℕ) : Slots store (s.freed lease) := by
  by_cases hlease : ∃ token, s.leases[lease]? = some ⟨token, false⟩
  · obtain ⟨token, hlease⟩ := hlease
    have hlt := (List.getElem?_eq_some_iff.mp hlease).1
    rw [freed_eq hlease]
    refine ⟨⟨h.unlocked.locked, h.unlocked.lockWaiters⟩, fun a ha => ?_, ?_, fun k l hk => ?_,
      fun a ha => ?_⟩
    · obtain ⟨hle, hmax⟩ := h.bounded a (List.mem_filter.mp ha).1
      have hlength := length_filter_le (fun a : ℕ × ℤ => a.1 ≠ token) s.activeLimits
      refine ⟨?_, hmax⟩
      dsimp only
      omega
    · exact h.nextToken.trans (length_set ..).symm
    · rcases eq_or_ne lease k with rfl | hne
      · rw [List.getElem?_set_self hlt] at hk
        obtain rfl := Option.some.inj hk
        have htoken : token = lease + 1 := h.tokens lease _ hlease
        exact htoken
      · rw [List.getElem?_set_ne hne] at hk
        exact h.tokens k l hk
    · -- the slots that are left are those of other leases
      obtain ⟨ha, hne⟩ := List.mem_filter.mp ha
      obtain ⟨k, hk⟩ := h.active a ha
      have hkl : lease ≠ k := by
        rintro rfl
        obtain ⟨rfl, -⟩ := DomainLease.mk.inj (Option.some.inj (hlease.symm.trans hk))
        simp at hne
      exact ⟨k, by rw [List.getElem?_set_ne hkl, hk]⟩
  · rw [freed_self fun token h => hlease ⟨token, h⟩]
    exact h

end DomainState

/-! ### The tasks -/

/-- A task is on its way to a lease, or has returned it. -/
def DomainPoint.Holds (lease : ℕ) : DomainPoint → Prop
  | .pacing lease' | .sleeping lease' | .returned lease' => lease' = lease
  | _ => False

/-- A task waits for nothing but the condition, and there only for a slot; a call of
`release` is over and its lease marked. -/
def TaskKept (store : DomainPolicyStore) (s : DomainState) (i : ℕ) : DomainCall → DomainPoint → Prop
  | .acquire limit _, .waiting => ∃ notified, (i, notified) ∈ s.waiters ∧
      (notified = false → s.canEnter (store.requestedLimit limit) = false)
  | .acquire _ _, .pacing lease | .acquire _ _, .sleeping lease | .acquire _ _, .returned lease =>
    lease < s.leases.length
  | .acquire _ _, .ended _ => True
  | .release lease, .ended _ => ∃ token, s.leases[lease]? = some ⟨token, true⟩
  | _, _ => False

/-- The invariant of a domain. -/
structure DomainKept (store : DomainPolicyStore) (s : DomainState)
    (ts : List (DomainCall × DomainPoint)) : Prop where
  slots : s.Slots store
  tasks : ∀ i c w, ts[i]? = some (c, w) → TaskKept store s i c w
  /-- A lease that has not been released is held by a task. -/
  held : ∀ (k : ℕ) token, s.leases[k]? = some ⟨token, false⟩ →
    ∃ (i : ℕ) (c : DomainCall) (w : DomainPoint), ts[i]? = some (c, w) ∧ w.Holds k

/-- What a turn of task `i` leaves to the others. -/
structure Leaves (i : ℕ) (s s' : DomainState) : Prop where
  leases : ∀ (k : ℕ) token released, s.leases[k]? = some ⟨token, released⟩ →
    ∃ released', s'.leases[k]? = some ⟨token, released'⟩ ∧ (released = true → released' = true)
  waiters : ∀ j notified, j ≠ i → (j, notified) ∈ s.waiters →
    ∃ notified', (j, notified') ∈ s'.waiters ∧ (notified' = false → notified = false ∧
      ∀ limit, s'.canEnter limit = true → s.canEnter limit = true)

namespace Leaves

variable {i : ℕ} {s s' s'' : DomainState}

theorem refl (i : ℕ) (s : DomainState) : Leaves i s s :=
  ⟨fun _ _ released h => ⟨released, h, id⟩,
    fun _ notified _ h => ⟨notified, h, fun hn => ⟨hn, fun _ h => h⟩⟩⟩

theorem trans (h : Leaves i s s') (h' : Leaves i s' s'') : Leaves i s s'' where
  leases k token released hk := by
    obtain ⟨released', hk', himp⟩ := h.leases k token released hk
    obtain ⟨released'', hk'', himp'⟩ := h'.leases k token released' hk'
    exact ⟨released'', hk'', himp' ∘ himp⟩
  waiters j notified hj hmem := by
    obtain ⟨notified', hmem', himp⟩ := h.waiters j notified hj hmem
    obtain ⟨notified'', hmem'', himp'⟩ := h'.waiters j notified' hj hmem'
    refine ⟨notified'', hmem'', fun hn => ?_⟩
    obtain ⟨hn', hcan'⟩ := himp' hn
    obtain ⟨hn, hcan⟩ := himp hn'
    exact ⟨hn, fun limit h => hcan limit (hcan' limit h)⟩

theorem take (i : ℕ) (s : DomainState) (limit : ℤ) : Leaves i s (s.take limit) where
  leases k token released hk := by
    have hlt := (List.getElem?_eq_some_iff.mp hk).1
    exact ⟨released, by rw [DomainState.take, List.getElem?_append_left hlt, hk], id⟩
  waiters j notified _ hmem :=
    ⟨notified, hmem, fun hn => ⟨hn, fun _ h => DomainState.canEnter_of_take h⟩⟩

/-- Whoever waits is notified. -/
theorem freed (i : ℕ) (s : DomainState) (lease : ℕ) : Leaves i s (s.freed lease) := by
  by_cases hlease : ∃ token, s.leases[lease]? = some ⟨token, false⟩
  · obtain ⟨token, hlease⟩ := hlease
    have hlt := (List.getElem?_eq_some_iff.mp hlease).1
    rw [DomainState.freed_eq hlease]
    refine ⟨fun k token' released hk => ?_, fun j notified _ hmem => ?_⟩
    · rcases eq_or_ne lease k with rfl | hne
      · obtain ⟨rfl, -⟩ := DomainLease.mk.inj (Option.some.inj (hlease.symm.trans hk))
        exact ⟨true, List.getElem?_set_self hlt, fun _ => rfl⟩
      · exact ⟨released, (List.getElem?_set_ne hne).trans hk, id⟩
    · exact ⟨true, mem_map_of_mem hmem, fun hn => by cases hn⟩
  · rw [DomainState.freed_self fun token h => hlease ⟨token, h⟩]
    exact refl i s

theorem started (i : ℕ) (s : DomainState) (t : Option ℚ) : Leaves i s { s with lastStarted := t } :=
  ⟨(refl i s).leases, (refl i s).waiters⟩

theorem paced {lease : ℕ} {r : DomainPoint × DomainState} (h : s.Paced lease r) : Leaves i s r.2 := by
  cases h with
  | pacing => exact refl i s
  | sleeping => exact refl i s
  | returned t => exact started i s t
  | failed e => exact freed i s lease

/-- Task `i` joins those who wait, or leaves them. -/
theorem waits (s : DomainState) (notified : Bool) :
    Leaves i s { s with waiters := s.waiters ++ [(i, notified)] } :=
  ⟨(refl i s).leases, fun _ notified _ hmem => ⟨notified, mem_append_left _ hmem,
    fun hn => ⟨hn, fun _ h => h⟩⟩⟩

theorem resumed (i : ℕ) (s : DomainState) : Leaves i s (s.resumed i) :=
  ⟨(refl i s).leases, fun j notified hj hmem => ⟨notified,
    List.mem_filter.mpr ⟨hmem, by simpa using hj⟩, fun hn => ⟨hn, fun _ h => h⟩⟩⟩

end Leaves

theorem Leaves.lt_length {s s' : DomainState} {i lease : ℕ} (h : Leaves i s s')
    (hlt : lease < s.leases.length) : lease < s'.leases.length := by
  obtain ⟨released', hk, -⟩ := h.leases lease _ _ (List.getElem?_eq_getElem hlt)
  exact (List.getElem?_eq_some_iff.mp hk).1

variable {store : DomainPolicyStore}

theorem TaskKept.leave {s s' : DomainState} {i j : ℕ} {c : DomainCall} {w : DomainPoint}
    (h : TaskKept store s j c w) (hleaves : Leaves i s s') (hj : j ≠ i) :
    TaskKept store s' j c w := by
  cases c with
  | acquire limit interval =>
    cases w with
    | waiting =>
      obtain ⟨notified, hmem, hcan⟩ := h
      obtain ⟨notified', hmem', himp⟩ := hleaves.waiters j notified hj hmem
      refine ⟨notified', hmem', fun hn => ?_⟩
      obtain ⟨hn, hcan'⟩ := himp hn
      have hcannot := hcan hn
      by_contra hcan''
      rw [hcan' _ (Bool.not_eq_false _ ▸ hcan'')] at hcannot
      cases hcannot
    | returned lease => exact hleaves.lt_length h
    | pacing lease => exact hleaves.lt_length h
    | sleeping lease => exact hleaves.lt_length h
    | ended ending => trivial
    | _ => exact h.elim
  | release lease =>
    cases w with
    | ended ending =>
      obtain ⟨token, hk⟩ := h
      obtain ⟨released', hk', himp⟩ := hleaves.leases lease token true hk
      exact ⟨token, by rw [hk', himp rfl]⟩
    | _ => exact h.elim

/-! ### Turns -/

namespace DomainState

variable {s : DomainState} {lease k token : ℕ}

theorem unreleased_freed (h : (s.freed lease).leases[k]? = some ⟨token, false⟩) :
    s.leases[k]? = some ⟨token, false⟩ ∧ k ≠ lease := by
  by_cases hlease : ∃ token, s.leases[lease]? = some ⟨token, false⟩
  · obtain ⟨token', hlease⟩ := hlease
    have hlt := (List.getElem?_eq_some_iff.mp hlease).1
    rw [freed_eq hlease] at h
    rcases eq_or_ne lease k with rfl | hne
    · rw [List.getElem?_set_self hlt] at h
      cases h
    · exact ⟨(List.getElem?_set_ne hne).symm.trans h, hne.symm⟩
  · rw [freed_self fun token h => hlease ⟨token, h⟩] at h
    refine ⟨h, ?_⟩
    rintro rfl
    exact hlease ⟨token, h⟩

/-- A lease that exists is marked. -/
theorem released_freed (h : lease < s.leases.length) :
    ∃ token, (s.freed lease).leases[lease]? = some ⟨token, true⟩ := by
  obtain ⟨released, hk, -⟩ := (Leaves.freed 0 s lease).leases lease _ _ (List.getElem?_eq_getElem h)
  cases released with
  | true => exact ⟨_, hk⟩
  | false => exact absurd rfl (unreleased_freed hk).2

theorem unreleased_take {limit : ℤ} (h : (s.take limit).leases[k]? = some ⟨token, false⟩)
    (hk : k ≠ s.leases.length) : s.leases[k]? = some ⟨token, false⟩ := by
  have hlt := (List.getElem?_eq_some_iff.mp h).1
  simp only [take, length_append, length_singleton] at hlt
  rw [take, List.getElem?_append_left (by omega)] at h
  exact h

variable {r : DomainPoint × DomainState}

/-- Of what a task has paced only its own lease is its affair. -/
theorem Paced.unreleased (h : s.Paced lease r) (hk : r.2.leases[k]? = some ⟨token, false⟩) :
    r.1.Holds k ∨ s.leases[k]? = some ⟨token, false⟩ ∧ k ≠ lease := by
  cases h with
  | failed e => exact .inr (unreleased_freed hk)
  | _ =>
    rcases eq_or_ne k lease with rfl | hne
    · exact .inl rfl
    · exact .inr ⟨hk, hne⟩

theorem Paced.slots (h : s.Paced lease r) (hslots : s.Slots store) : r.2.Slots store := by
  cases h with
  | pacing => exact hslots
  | sleeping => exact hslots
  | returned t =>
    exact ⟨⟨hslots.unlocked.locked, hslots.unlocked.lockWaiters⟩, hslots.bounded,
      hslots.nextToken, hslots.tokens, hslots.active⟩
  | failed e => exact slots_freed hslots lease

theorem Paced.taskKept {i : ℕ} {limit : Option ℤ} {interval : Option ℚ} (h : s.Paced lease r)
    (hlease : lease < s.leases.length) : TaskKept store r.2 i (.acquire limit interval) r.1 := by
  cases h with
  | failed e => trivial
  | _ => exact hlease

theorem slots_waiters (h : s.Slots store) (waiters : List (ℕ × Bool)) :
    ({ s with waiters := waiters } : DomainState).Slots store :=
  ⟨⟨h.unlocked.locked, h.unlocked.lockWaiters⟩, h.bounded, h.nextToken, h.tokens, h.active⟩

end DomainState

namespace DomainKept

variable {store : DomainPolicyStore} {s s' : DomainState}
  {ts ts' : List (DomainCall × DomainPoint)} {i : ℕ} {c : DomainCall} {w : DomainPoint}

/-- **One turn** of task `i`. -/
theorem turn (h : DomainKept store s ts) (hmoves : Turns.Moves i c w ts ts')
    (hslots : s'.Slots store) (hleaves : Leaves i s s') (hkept : TaskKept store s' i c w)
    (hheld : ∀ (k : ℕ) token, s'.leases[k]? = some ⟨token, false⟩ → w.Holds k ∨
      s.leases[k]? = some ⟨token, false⟩ ∧ ∀ c₀ w₀, ts[i]? = some (c₀, w₀) → ¬ w₀.Holds k) :
    DomainKept store s' ts' := by
  refine ⟨hslots, fun j c' w' hj => ?_, fun k token hk => ?_⟩
  · rcases eq_or_ne j i with rfl | hji
    · obtain ⟨rfl, rfl⟩ := Prod.mk.inj (Option.some.inj (hmoves.self.symm.trans hj))
      exact hkept
    · rw [hmoves.other j hji] at hj
      exact (h.tasks j c' w' hj).leave hleaves hji
  · rcases hheld k token hk with hw | ⟨hold, hi⟩
    · exact ⟨i, c, w, hmoves.self, hw⟩
    · obtain ⟨j, c', w', hj, hw'⟩ := h.held k token hold
      have hji : j ≠ i := by
        rintro rfl
        exact hi c' w' hj hw'
      exact ⟨j, c', w', (hmoves.other j hji).trans hj, hw'⟩

/-- Task `i` gives back what it held. -/
theorem freed {lease : ℕ} {ending : DomainEnding} (h : DomainKept store s ts)
    (hmoves : Turns.Moves i c (.ended ending) ts ts')
    (hkept : TaskKept store (s.freed lease) i c (.ended ending))
    (hown : ∀ c₀ w₀, ts[i]? = some (c₀, w₀) → ∀ k, w₀.Holds k → k = lease) :
    DomainKept store (s.freed lease) ts' := by
  refine h.turn hmoves (DomainState.slots_freed h.slots lease) (Leaves.freed i s lease) hkept
    fun k token hk => ?_
  obtain ⟨hold, hne⟩ := DomainState.unreleased_freed hk
  exact .inr ⟨hold, fun c₀ w₀ hi hw => hne (hown c₀ w₀ hi k hw)⟩

variable {e : DomainAnswers} {r : DomainPoint × DomainState}

/-- Task `i` waits for the condition or takes a slot; `s₁` is the state that it finds. -/
theorem enter {s₁ : DomainState} {limit : Option ℤ} {interval : Option ℚ}
    (h : DomainKept store s ts) (hslots : s₁.Slots store) (hleaves : Leaves i s s₁)
    (hleases : s₁.leases = s.leases) (hnone : ∀ c₀ w₀, ts[i]? = some (c₀, w₀) → ∀ k, ¬ w₀.Holds k)
    (hr : r = ({ s₁ with locked := true } : DomainState).enter i (store.requestedLimit limit)
      (store.requestedInterval interval) e)
    (hmoves : Turns.Moves i (.acquire limit interval) r.1 ts ts') : DomainKept store r.2 ts' := by
  rcases DomainState.enter_cases (i := i) (store.requestedLimit limit)
    (store.requestedInterval interval) hslots.unlocked e with ⟨hcan, heq⟩ |
    ⟨hcan, hpaced⟩
  · rw [heq] at hr
    subst hr
    refine h.turn hmoves (DomainState.slots_waiters hslots _)
      (hleaves.trans (Leaves.waits s₁ false)) ?_ fun k token hk => .inr ⟨?_, ?_⟩
    · exact ⟨false, mem_append_right _ (mem_singleton_self _), fun _ => hcan⟩
    · rw [← hleases]
      exact hk
    · exact fun c₀ w₀ hi => hnone c₀ w₀ hi k
  · rw [← hr] at hpaced
    have hlimit : store.requestedLimit limit ≤ store.maxConcurrency := min_le_right _ _
    refine h.turn hmoves (hpaced.slots (DomainState.slots_take hslots hcan hlimit))
      (hleaves.trans ((Leaves.take i s₁ _).trans (Leaves.paced hpaced)))
      (hpaced.taskKept (by simp [DomainState.take])) fun k token hk => ?_
    rcases hpaced.unreleased hk with hw | ⟨hk, hne⟩
    · exact .inl hw
    · refine .inr ⟨?_, fun c₀ w₀ hi => hnone c₀ w₀ hi k⟩
      rw [← hleases]
      exact DomainState.unreleased_take hk hne

theorem begin (h : DomainKept store s ts) (hc : callable ts c)
    (hmoves : Turns.Moves ts.length c (store.beginCall ts.length c e s).1 ts ts') :
    DomainKept store (store.beginCall ts.length c e s).2 ts' := by
  have hnew : ∀ c₀ w₀, ts[ts.length]? = some (c₀, w₀) → ∀ k, ¬ w₀.Holds k := by
    intro c₀ w₀ hi
    rw [List.getElem?_eq_none le_rfl] at hi
    cases hi
  cases c with
  | acquire limit interval =>
    refine h.enter (e := e) h.slots (Leaves.refl _ s) rfl hnew ?_ hmoves
    simp only [beginCall, DomainState.withLock_eq h.slots.unlocked]
  | release lease =>
    have heq : store.beginCall ts.length (.release lease) e s =
        (.ended .released, s.freed lease) := DomainState.release_eq h.slots.unlocked _
    rw [heq] at hmoves ⊢
    refine h.freed hmoves (DomainState.released_freed ?_) fun c₀ w₀ hi k hw =>
      absurd hw (hnew c₀ w₀ hi k)
    -- the lease has been returned
    obtain ⟨⟨c', w'⟩, hmem, hw'⟩ := List.any_eq_true.mp hc
    obtain ⟨j, hj⟩ := List.getElem?_of_mem hmem
    have hkept := h.tasks j c' w' hj
    cases w' with
    | returned lease' =>
      obtain rfl : lease' = lease := by simpa using hw'
      cases c' with
      | acquire limit interval => exact hkept
      | release lease => exact hkept.elim
    | _ => simp at hw'

/-- A task that has a lease to come goes on. -/
theorem paced {lease : ℕ} {limit : Option ℤ} {interval : Option ℚ} (h : DomainKept store s ts)
    (hlease : lease < s.leases.length)
    (hown : ∀ c₀ w₀, ts[i]? = some (c₀, w₀) → ∀ k, w₀.Holds k → k = lease) (hr : s.Paced lease r)
    (hmoves : Turns.Moves i (.acquire limit interval) r.1 ts ts') : DomainKept store r.2 ts' := by
  refine h.turn hmoves (hr.slots h.slots) (Leaves.paced hr) (hr.taskKept hlease) fun k token hk => ?_
  rcases hr.unreleased hk with hw | ⟨hk, hne⟩
  · exact .inl hw
  · exact .inr ⟨hk, fun c₀ w₀ hi hw => hne (hown c₀ w₀ hi k hw)⟩

theorem resume {wake : Wake} (h : DomainKept store s ts) (hi : ts[i]? = some (c, w))
    (hresumable : resumable s i w wake)
    (hmoves : Turns.Moves i c (store.resumeCall i c w wake e s).1 ts ts') :
    DomainKept store (store.resumeCall i c w wake e s).2 ts' := by
  have hkept := h.tasks i c w hi
  have hfree : (s.resumed i).Slots store := DomainState.slots_waiters h.slots _
  -- what task `i` holds is up to where it waits
  have hself : ∀ P : DomainPoint → Prop, P w → ∀ c₀ w₀, ts[i]? = some (c₀, w₀) → P w₀ := by
    intro P hw c₀ w₀ hi'
    obtain ⟨-, rfl⟩ := Prod.mk.inj (Option.some.inj (hi.symm.trans hi'))
    exact hw
  cases c with
  | release lease =>
    cases w with
    | ended ending => cases hresumable
    | _ => exact hkept.elim
  | acquire limit interval =>
    cases w with
    | waiting =>
      have hnone := hself (fun w₀ => ∀ k, ¬ w₀.Holds k) fun _ => id
      cases wake with
      | value =>
        refine h.enter (e := e) hfree (Leaves.resumed i s) rfl hnone ?_ hmoves
        simp only [resumeCall, DomainState.withLock_eq hfree.unlocked]
      | cancelled =>
        have heq : store.resumeCall i (.acquire limit interval) .waiting .cancelled e s =
            (.ended (.raised .cancelledError), s.resumed i) := by
          simp only [resumeCall]
          rw [DomainState.withLock_eq hfree.unlocked]
          simp [DomainState.unlock, DomainState.resumed, h.slots.unlocked.locked]
        rw [heq] at hmoves ⊢
        exact h.turn hmoves hfree (Leaves.resumed i s) trivial fun k token hk =>
          .inr ⟨hk, fun c₀ w₀ hi' => hnone c₀ w₀ hi' k⟩
    | pacing lease =>
      have hown := hself (fun w₀ => ∀ k, w₀.Holds k → k = lease) fun _ => Eq.symm
      cases wake with
      | value => exact h.paced hkept hown (DomainState.paced_pace h.slots.unlocked e) hmoves
      | cancelled =>
        have heq : store.resumeCall i (.acquire limit interval) (.pacing lease) .cancelled e s =
            (.ended (.raised .cancelledError), s.freed lease) :=
          DomainState.release_eq h.slots.unlocked _
        rw [heq] at hmoves ⊢
        exact h.freed hmoves trivial hown
    | sleeping lease =>
      have hown := hself (fun w₀ => ∀ k, w₀.Holds k → k = lease) fun _ => Eq.symm
      cases wake with
      | value => exact h.paced hkept hown (DomainState.paced_start h.slots.unlocked e) hmoves
      | cancelled =>
        have heq : store.resumeCall i (.acquire limit interval) (.sleeping lease) .cancelled e
            s = (.ended (.raised .cancelledError), s.freed lease) :=
          DomainState.release_eq h.slots.unlocked _
        rw [heq] at hmoves ⊢
        exact h.freed hmoves trivial hown
    | returned lease => cases hresumable
    | ended ending => cases hresumable
    | _ => exact hkept.elim

end DomainKept

/-! ### Runs -/

/-- A task waits for a slot. -/
def DomainPoint.WaitsForSlot : DomainPoint → Prop
  | .locking | .waiting | .relocking _ => True
  | _ => False

/-- An acquire has no slot to give back: it waits for one, it has raised, or a call of
`release` on its lease has ended. -/
def AcquireSettled (ts : List (DomainCall × DomainPoint)) : DomainPoint → Prop
  | .returned lease => ∃ ending, (.release lease, .ended ending) ∈ ts
  | .pacing _ | .sleeping _ | .releasing _ _ => False
  | _ => True

/-- Every acquire is settled. -/
def AllSettled (ts : List (DomainCall × DomainPoint)) : Prop :=
  ∀ limit interval w, (.acquire limit interval, w) ∈ ts → AcquireSettled ts w

/-- A task that waits for a slot can be resumed, and then waits no more. -/
def CanProceed (store : DomainPolicyStore) (s : DomainState) (i : ℕ) (c : DomainCall)
    (w : DomainPoint) : Prop :=
  resumable s i w .value = true ∧ ∀ e, ¬ (store.resumeCall i c w .value e s).1.WaitsForSlot

abbrev DomainLoop := EventLoop DomainCall DomainPoint DomainState

theorem domainKept_reaches {q : DomainLoop} (h : store.turns.Reaches ⟨{}, []⟩ q) :
    DomainKept store q.shared q.tasks := by
  refine Turns.Reaches.invariant (J := DomainKept store) ?_ ?_ ?_ h
  · intro s ts c e hkept hcallable ts' hmoves
    exact hkept.begin hcallable hmoves
  · intro s ts i c w wake e hkept hi hresumable ts' hmoves
    exact hkept.resume hi hresumable hmoves
  · refine ⟨⟨⟨rfl, rfl⟩, fun a ha => ?_, rfl, fun k lease hk => ?_, fun a ha => ?_⟩,
      fun i c w hi => ?_, fun k token hk => ?_⟩
    · cases ha
    · cases hk
    · cases ha
    · cases hi
    · cases hk

section AcquireSettled

variable {store : DomainPolicyStore} {s : DomainState} {ts : List (DomainCall × DomainPoint)}

/-- Where all acquires are settled no slot is taken. -/
theorem DomainKept.activeLimits_eq_nil (h : DomainKept store s ts) (hsettled : AllSettled ts) :
    s.activeLimits = [] := by
  rw [eq_nil_iff_forall_not_mem]
  intro a ha
  obtain ⟨k, hk⟩ := h.slots.active a ha
  obtain ⟨i, c, w, hi, hw⟩ := h.held k a.1 hk
  have hkept := h.tasks i c w hi
  cases c with
  | release lease =>
    cases w with
    | ended ending => exact hw
    | _ => exact hkept
  | acquire limit interval =>
    have hw' := hsettled limit interval w (mem_of_getElem? hi)
    cases w with
    | returned lease =>
      obtain rfl : lease = k := hw
      obtain ⟨ending, hmem⟩ := hw'
      obtain ⟨j, hj⟩ := List.getElem?_of_mem hmem
      obtain ⟨token, hreleased⟩ := h.tasks j _ _ hj
      cases hk.symm.trans hreleased
    | pacing lease => exact hw'
    | sleeping lease => exact hw'
    | _ => exact hw

theorem one_le_requestedLimit {limit : Option ℤ} (hlimit : ∀ n, limit = some n → 0 ≤ n) :
    1 ≤ store.requestedLimit limit := by
  refine le_min ?_ store.one_le_maxConcurrency
  rcases limit with - | n
  · exact store.one_le_maxConcurrency
  · dsimp only
    have hn := hlimit n rfl
    split
    · exact store.one_le_maxConcurrency
    · omega

/-- Where no slot is taken whoever waits for one has been notified. -/
theorem DomainKept.canProceed (h : DomainKept store s ts) (hnone : s.activeLimits = []) {i : ℕ}
    {limit : Option ℤ} {interval : Option ℚ} {w : DomainPoint}
    (hi : ts[i]? = some (.acquire limit interval, w)) (hw : w.WaitsForSlot)
    (hlimit : ∀ n, limit = some n → 0 ≤ n) :
    CanProceed store s i (.acquire limit interval) w := by
  have hkept := h.tasks i _ w hi
  cases w with
  | waiting =>
    have hcan : s.canEnter (store.requestedLimit limit) = true := by
      rw [DomainState.canEnter_iff, hnone]
      refine ⟨?_, fun a ha => by cases ha⟩
      simpa using one_le_requestedLimit hlimit
    have hfree : (s.resumed i).Slots store := DomainState.slots_waiters h.slots _
    obtain ⟨notified, hmem, himp⟩ := hkept
    have hnotified : notified = true := by
      cases notified with
      | true => rfl
      | false => exact absurd hcan (by rw [himp rfl]; exact Bool.false_ne_true)
    refine ⟨?_, fun e hwaits => ?_⟩
    · subst hnotified
      exact List.contains_iff_mem.mpr hmem
    · simp only [resumeCall, DomainState.withLock_eq hfree.unlocked] at hwaits
      rcases DomainState.enter_cases (i := i) (store.requestedLimit limit)
        (store.requestedInterval interval) hfree.unlocked e with ⟨hcannot, -⟩ |
        ⟨-, hpaced⟩
      · exact absurd (hcan.symm.trans hcannot) Bool.true_eq_false.mp
      · revert hwaits
        generalize DomainState.enter _ _ _ _ _ = r at hpaced
        intro hwaits
        cases hpaced <;> exact hwaits
  | pacing lease => exact hw.elim
  | sleeping lease => exact hw.elim
  | returned lease => exact hw.elim
  | ended ending => exact hw.elim
  | _ => exact hkept.elim

end AcquireSettled

/-- **The slots of a domain are bounded and do not leak**, whatever is requested and wherever
tasks are cancelled.  Once every acquire is settled none is taken, and an acquire that waits
goes on, unless it has asked for less than nothing. -/
theorem domainSlots_bounded {store : DomainPolicyStore} {q : DomainLoop}
    (h : store.turns.Reaches ⟨{}, []⟩ q) :
    (∀ a ∈ q.shared.activeLimits, (q.shared.activeLimits.length : ℤ) ≤ a.2) ∧
    (q.shared.activeLimits.length : ℤ) ≤ store.maxConcurrency ∧
    (AllSettled q.tasks → q.shared.activeLimits = [] ∧
      ∀ (i : ℕ) limit interval w, q.tasks[i]? = some (.acquire limit interval, w) →
        w.WaitsForSlot → (∀ n, limit = some n → 0 ≤ n) →
          CanProceed store q.shared i (.acquire limit interval) w) := by
  have hkept := domainKept_reaches h
  refine ⟨fun a ha => (hkept.slots.bounded a ha).1, ?_, fun hsettled => ?_⟩
  · rcases hactive : q.shared.activeLimits with - | ⟨a, as⟩
    · have hone := store.one_le_maxConcurrency
      simp only [length_nil, Nat.cast_zero]
      omega
    · rw [← hactive]
      have ha : a ∈ q.shared.activeLimits := by
        rw [hactive]
        exact mem_cons_self
      obtain ⟨hle, hmax⟩ := hkept.slots.bounded a ha
      exact hle.trans hmax
  · have hnone := hkept.activeLimits_eq_nil hsettled
    refine ⟨hnone, fun i limit interval w hi hw hlimit => ?_⟩
    exact hkept.canProceed hnone hi hw hlimit

/-! ### One slot and two acquires -/

def twoSlots : DomainPolicyStore where
  maxConcurrency := 2
  minimumIntervalSeconds := 0
  one_le_maxConcurrency := by omega
  minimumInterval_nonneg := le_rfl

/-- The first acquire is released, the second goes on. -/
theorem domainSlots_bounded_handover :
    ∃ q : DomainLoop, twoSlots.turns.Reaches ⟨{}, []⟩ q ∧
      q.tasks = [(.acquire (some 1) none, .returned 0), (.acquire (some 3) none, .waiting),
        (.release 0, .ended .released)] ∧
      q.shared.activeLimits = [] ∧ CanProceed twoSlots q.shared 1 (.acquire (some 3) none) .waiting := by
  have hrun : (twoSlots.turns.nexts ⟨{}, []⟩ [.call (.acquire (some 1) none) {},
      .call (.acquire (some 3) none) {}, .call (.release 0) {}]).map (·.tasks) =
      some [(.acquire (some 1) none, .returned 0), (.acquire (some 3) none, .waiting),
        (.release 0, .ended .released)] := by decide +kernel
  obtain ⟨q, hq, htasks⟩ := Option.map_eq_some_iff.mp hrun
  have hreaches := Turns.reaches_of_nexts hq
  have hsettled : AllSettled q.tasks := by
    rw [htasks]
    intro limit interval w hmem
    simp only [mem_cons, Prod.mk.injEq, DomainCall.acquire.injEq, reduceCtorEq, false_and,
      not_mem_nil, or_false] at hmem
    rcases hmem with ⟨-, rfl⟩ | ⟨-, rfl⟩
    · exact ⟨.released, by simp⟩
    · trivial
  obtain ⟨-, -, hfree⟩ := domainSlots_bounded hreaches
  obtain ⟨hnone, hproceed⟩ := hfree hsettled
  refine ⟨q, hreaches, htasks, hnone, hproceed 1 (some 3) none .waiting ?_ trivial ?_⟩
  · rw [htasks]
    rfl
  · intro n hn
    obtain rfl := Option.some.inj hn
    omega

/-- An acquire with a limit below zero waits although no slot is taken. -/
theorem domainSlots_negativeLimit :
    ¬ ∀ (store : DomainPolicyStore) (q : DomainLoop), store.turns.Reaches ⟨{}, []⟩ q →
      (∀ a ∈ q.shared.activeLimits, (q.shared.activeLimits.length : ℤ) ≤ a.2) ∧
      (q.shared.activeLimits.length : ℤ) ≤ store.maxConcurrency ∧
      (AllSettled q.tasks → q.shared.activeLimits = [] ∧
        ∀ (i : ℕ) limit interval w, q.tasks[i]? = some (.acquire limit interval, w) →
          w.WaitsForSlot → CanProceed store q.shared i (.acquire limit interval) w) := by
  intro hclaim
  have hrun : (twoSlots.turns.nexts ⟨{}, []⟩ [.call (.acquire (some (-1)) none) {}]).map
      (fun q => (q.tasks, resumable q.shared 0 .waiting .value)) =
      some ([(.acquire (some (-1)) none, .waiting)], false) := by decide +kernel
  obtain ⟨q, hq, hfacts⟩ := Option.map_eq_some_iff.mp hrun
  obtain ⟨htasks, hresumable⟩ := Prod.mk.inj hfacts
  have hsettled : AllSettled q.tasks := by
    rw [htasks]
    intro limit interval w hmem
    obtain ⟨-, rfl⟩ := Prod.mk.inj (List.mem_singleton.mp hmem)
    trivial
  obtain ⟨-, -, hfree⟩ := hclaim twoSlots q (Turns.reaches_of_nexts hq)
  obtain ⟨hproceeds, -⟩ := (hfree hsettled).2 0 (some (-1)) none .waiting (by rw [htasks]; rfl) trivial
  rw [hresumable] at hproceeds
  cases hproceeds

end OpenAgency
