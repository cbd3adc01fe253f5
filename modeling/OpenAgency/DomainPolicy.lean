/-
DomainPolicy.lean

The browser slots of one domain: `DomainPolicyStore.acquire` and `DomainLease.release`.

The lock and the condition are those of `asyncio`: a lock that is free is taken without
waiting, `Condition.wait` gives the lock up and takes it again before it goes on, also where
it was cancelled.  The lock that paces the starts is shared with other domains, so whether
it is free, and when a task gets it, is left to the environment.
-/
import Mathlib.Algebra.Order.Ring.Rat
import OpenAgency.Lib.Cooperative

namespace OpenAgency

open Interaction

structure DomainPolicyStore where
  maxConcurrency : ℤ
  minimumIntervalSeconds : ℚ
  one_le_maxConcurrency : 1 ≤ maxConcurrency
  minimumInterval_nonneg : 0 ≤ minimumIntervalSeconds

structure DomainLease where
  token : ℕ
  released : Bool := false

/-- `_DomainConcurrencyState` with the leases on it and the last start on the domain. -/
structure DomainState where
  locked : Bool := false
  /-- The tasks that wait for the lock of the condition. -/
  lockWaiters : List ℕ := []
  /-- The tasks that wait for the condition, and whether they have been notified. -/
  waiters : List (ℕ × Bool) := []
  activeLimits : List (ℕ × ℤ) := []
  nextToken : ℕ := 0
  leases : List DomainLease := []
  lastStarted : Option ℚ := none

inductive DomainCall where
  | acquire (maxConcurrency : Option ℤ) (minimumIntervalSeconds : Option ℚ)
  | release (lease : ℕ)
  deriving DecidableEq

inductive DomainError where
  | cancelledError
  | clockError
  deriving DecidableEq

/-- How a call ends that returns no lease. -/
inductive DomainEnding where
  | released
  | raised (e : DomainError)
  deriving DecidableEq

/-- Where a task waits, or how it has ended. -/
inductive DomainPoint where
  /-- Before the first check of the condition. -/
  | locking
  | waiting
  /-- `Condition.wait` takes the lock again. -/
  | relocking (cancelled : Bool)
  | pacing (lease : ℕ)
  | sleeping (lease : ℕ)
  | releasing (token : ℕ) (ending : DomainEnding)
  | returned (lease : ℕ)
  | ended (ending : DomainEnding)
  deriving DecidableEq

/-- What a task finds in one turn; a clock that raises gives no time. -/
structure DomainAnswers where
  timingFree : Bool := true
  now : Option ℚ := some 0
  started : Option ℚ := some 0

/-- `max_concurrency or self.max_concurrency`, and no more than the store allows. -/
def DomainPolicyStore.requestedLimit (store : DomainPolicyStore) (maxConcurrency : Option ℤ) : ℤ :=
  min (match maxConcurrency with
    | none => store.maxConcurrency
    | some n => if n = 0 then store.maxConcurrency else n) store.maxConcurrency

def DomainPolicyStore.requestedInterval (store : DomainPolicyStore)
    (minimumIntervalSeconds : Option ℚ) : ℚ :=
  max store.minimumIntervalSeconds (match minimumIntervalSeconds with
    | none => store.minimumIntervalSeconds
    | some x => if x = 0 then store.minimumIntervalSeconds else x)

namespace DomainState

variable (s : DomainState)

/-! ### The lock and the condition -/

/-- `async with` the lock: task `i` waits at `parked` where the lock is not free. -/
def withLock (i : ℕ) (parked : DomainPoint) (body : DomainState → DomainPoint × DomainState) :
    DomainPoint × DomainState :=
  if s.locked = false ∧ s.lockWaiters = [] then body { s with locked := true }
  else (parked, { s with lockWaiters := s.lockWaiters ++ [i] })

/-- Task `i` gets the lock that it has waited for. -/
def granted (i : ℕ) : DomainState :=
  { s with locked := true, lockWaiters := s.lockWaiters.filter (· ≠ i) }

/-- Task `i` no longer waits for the lock. -/
def withdrawn (i : ℕ) : DomainState := { s with lockWaiters := s.lockWaiters.filter (· ≠ i) }

def unlock : DomainState := { s with locked := false }

def notifyAll : DomainState := { s with waiters := s.waiters.map fun w => (w.1, true) }

/-- Task `i` no longer waits for the condition. -/
def resumed (i : ℕ) : DomainState := { s with waiters := s.waiters.filter (·.1 ≠ i) }

/-! ### `DomainLease.release` -/

/-- The body of `release`, which holds the lock. -/
def popToken (token : ℕ) (ending : DomainEnding) : DomainPoint × DomainState :=
  (.ended ending,
    ({ s with activeLimits := s.activeLimits.filter (·.1 ≠ token) } : DomainState).notifyAll.unlock)

/-- `release`, after which task `i` ends as `ending` says. -/
def release (i lease : ℕ) (ending : DomainEnding) : DomainPoint × DomainState :=
  match s.leases[lease]? with
  | some ⟨token, false⟩ =>
    ({ s with leases := s.leases.set lease ⟨token, true⟩ } : DomainState).withLock i
      (.releasing token ending) fun s => s.popToken token ending
  | _ => (.ended ending, s)

/-! ### `DomainPolicyStore.acquire` -/

/-- The predicate of `wait_for`. -/
def canEnter (limit : ℤ) : Bool :=
  s.activeLimits.length + 1 ≤ (s.activeLimits.map Prod.snd).foldl min limit

/-- The start is noted and the lease returned. -/
def start (i lease : ℕ) (e : DomainAnswers) : DomainPoint × DomainState :=
  match e.started with
  | none => s.release i lease (.raised .clockError)
  | some t => (.returned lease, { s with lastStarted := some t })

/-- What is done under the lock that paces the starts. -/
def pace (i lease : ℕ) (interval : ℚ) (e : DomainAnswers) : DomainPoint × DomainState :=
  match e.now with
  | none => s.release i lease (.raised .clockError)
  | some now =>
    if interval - (now - s.lastStarted.getD 0) > 0 then (.sleeping lease, s)
    else s.start i lease e

/-- The slot that a task takes, with the lease on it. -/
def take (limit : ℤ) : DomainState :=
  { s with
    nextToken := s.nextToken + 1
    activeLimits := s.activeLimits ++ [(s.nextToken + 1, limit)]
    leases := s.leases ++ [{ token := s.nextToken + 1 }] }

/-- `wait_for` and what follows, by a task that holds the lock. -/
def enter (i : ℕ) (limit : ℤ) (interval : ℚ) (e : DomainAnswers) : DomainPoint × DomainState :=
  if s.canEnter limit then
    if e.timingFree then (s.take limit).unlock.pace i s.leases.length interval e
    else (.pacing s.leases.length, (s.take limit).unlock)
  else (.waiting, ({ s with waiters := s.waiters ++ [(i, false)] } : DomainState).unlock)

end DomainState

namespace DomainPolicyStore

variable (store : DomainPolicyStore)

def beginCall (i : ℕ) : DomainCall → DomainAnswers → DomainState → DomainPoint × DomainState
  | .acquire maxConcurrency minimumIntervalSeconds, e, s =>
    s.withLock i .locking fun s => s.enter i (store.requestedLimit maxConcurrency)
      (store.requestedInterval minimumIntervalSeconds) e
  | .release lease, _, s => s.release i lease .released

def resumeCall (i : ℕ) :
    DomainCall → DomainPoint → Wake → DomainAnswers → DomainState → DomainPoint × DomainState
  | .acquire limit interval, .locking, .value, e, s =>
    (s.granted i).enter i (store.requestedLimit limit) (store.requestedInterval interval) e
  | .acquire limit interval, .waiting, .value, e, s =>
    (s.resumed i).withLock i (.relocking false) fun s =>
      s.enter i (store.requestedLimit limit) (store.requestedInterval interval) e
  | .acquire _ _, .waiting, .cancelled, _, s =>
    (s.resumed i).withLock i (.relocking true) fun s =>
      (.ended (.raised .cancelledError), s.unlock)
  | .acquire limit interval, .relocking false, .value, e, s =>
    (s.granted i).enter i (store.requestedLimit limit) (store.requestedInterval interval) e
  | .acquire _ _, .relocking true, .value, _, s =>
    (.ended (.raised .cancelledError), (s.granted i).unlock)
  -- the lock is taken again whatever comes, the cancellation is kept
  | .acquire _ _, .relocking _, .cancelled, _, s =>
    (s.withdrawn i).withLock i (.relocking true) fun s =>
      (.ended (.raised .cancelledError), s.unlock)
  | .acquire _ interval, .pacing lease, .value, e, s =>
    s.pace i lease (store.requestedInterval interval) e
  | .acquire _ _, .sleeping lease, .value, e, s => s.start i lease e
  | .acquire _ _, .pacing lease, .cancelled, _, s
  | .acquire _ _, .sleeping lease, .cancelled, _, s =>
    s.release i lease (.raised .cancelledError)
  | _, .releasing token ending, .value, _, s => (s.granted i).popToken token ending
  -- the token stays where it is
  | _, .releasing _ _, .cancelled, _, s | _, .locking, .cancelled, _, s =>
    (.ended (.raised .cancelledError), s.withdrawn i)
  | _, w, _, _, s => (w, s)

/-- A lease is released by those who got it. -/
def callable (ts : List (DomainCall × DomainPoint)) : DomainCall → Bool
  | .acquire _ _ => true
  | .release lease => ts.any fun
      | (_, .returned lease') => lease' = lease
      | _ => false

def resumable (s : DomainState) (i : ℕ) : DomainPoint → Wake → Bool
  | .locking, .value | .relocking _, .value | .releasing _ _, .value => !s.locked
  | .waiting, .value => s.waiters.contains (i, true)
  | .returned _, _ | .ended _, _ => false
  | _, _ => true

def turns : Turns DomainCall DomainPoint DomainState DomainAnswers where
  callable := callable
  begin := store.beginCall
  resumable := resumable
  resume := store.resumeCall

end DomainPolicyStore

end OpenAgency
