/-
SessionRegistry.lean

Owners of browser sessions, and the registry that keeps the sessions that stay open.

A method of the registry takes its lock, reads and writes the records, and closes the
handles that it has dropped after it has given the lock back.  So it is a function of the
records that also returns what is to be closed.  Handles are numbers; whether one has been
closed or has crashed is for the engine to say.
-/
import OpenAgency.Domain.Basic
import OpenAgency.Lib.Catalog

namespace OpenAgency

open Relational

/-! ### Owners -/

structure OwnerClaims where
  executionId : Option String := none
  workflowId : Option String := none
  taskId : Option String := none
  agentId : Option String := none
  workspaceId : Option String := none
  userId : Option String := none
  actor : Option String := none
  deriving DecidableEq

namespace OwnerClaims

variable (owner recorded : OwnerClaims)

def identityKey : List (Option String) :=
  [owner.executionId, owner.workspaceId, owner.userId, owner.actor]

def isIdentified : Bool := owner.identityKey.any (·.any (· ≠ ""))

/-- What was recorded as `None` matches anything. -/
def owns : Bool :=
  if !owner.isIdentified || !recorded.isIdentified then owner = recorded
  else (recorded.identityKey.zip owner.identityKey).all fun (expected, actual) =>
    expected.isNone || expected = actual

theorem owns_self : owner.owns owner = true := by
  unfold owns
  split
  · exact decide_eq_true rfl
  · simp [identityKey]

end OwnerClaims

/-! ### Records -/

structure SessionRecord where
  sessionId : String
  owner : OwnerClaims
  handle : ℕ
  engine : String
  createdAt : Time
  lastUsedAt : Time
  idleExpiresAt : Time
  maximumExpiresAt : Time
  idleTtl : Time
  artifactRetention : Time
  allowedHosts : List String
  currentUrl : Option String
  artifacts : Dict String := []
  status : String := "active"
  correlationId : Option String := none

abbrev SessionRecords := Catalog fun r : SessionRecord => r.sessionId

def SessionRecord.expired (r : SessionRecord) (now : Time) : Bool :=
  r.idleExpiresAt ≤ now || r.maximumExpiresAt ≤ now

/-- A session that is used stays open for longer, up to its maximum. -/
def SessionRecord.touched (r : SessionRecord) (now : Time) : SessionRecord :=
  { r with
    lastUsedAt := now
    idleExpiresAt := min (now + r.idleTtl) r.maximumExpiresAt }

/-- `SessionRegistryError`. -/
inductive SessionError where
  | notFound (sessionId : String)
  | access (text : String)
  | limit (text : String)
  deriving DecidableEq

structure SessionRegistry where
  idleTtl : Time
  maximumTtl : Time
  maxSessionsPerOwner : ℕ
  maxSessionsTotal : ℕ

/-- What is asked of `create`. -/
structure NewSession where
  owner : OwnerClaims
  handle : ℕ
  engine : String
  allowedHosts : List String
  currentUrl : Option String := none
  correlationId : Option String := none
  idleTtl : Option Time := none
  maximumTtl : Option Time := none
  maxSessionsPerOwner : Option ℕ := none
  maxSessionsTotal : Option ℕ := none
  artifactRetention : Time := seconds 86400

/-- `x or default` for a number that may be `None`. -/
def orDefault (x : Option ℕ) (default : ℕ) : ℕ := if x.getD 0 = 0 then default else x.getD 0

/-- `min(x or limit, limit)`. -/
def capped (x : Option ℕ) (limit : ℕ) : ℕ := min (orDefault x limit) limit

namespace SessionRegistry

variable (registry : SessionRegistry) (now : Time) (gone : ℕ → Bool)
  (records : SessionRecords) (owner : OwnerClaims) (sessionId : String)

def isExpired (r : SessionRecord) : Bool := r.expired now || gone r.handle

/-- `_remove_expired`: what is dropped, and what is left. -/
def removeExpired : List SessionRecord × SessionRecords :=
  (records.items.filter (isExpired now gone), records.filter fun r => !isExpired now gone r)

def newRecord (asked : NewSession) : SessionRecord :=
  let maximumTtl := capped asked.maximumTtl registry.maximumTtl
  let idleTtl := min (orDefault asked.idleTtl registry.idleTtl) maximumTtl
  { sessionId
    owner := asked.owner
    handle := asked.handle
    engine := asked.engine
    createdAt := now
    lastUsedAt := now
    idleExpiresAt := now + idleTtl
    maximumExpiresAt := now + maximumTtl
    idleTtl
    artifactRetention := asked.artifactRetention
    allowedHosts := asked.allowedHosts.dedup.mergeSort (· ≤ ·)
    currentUrl := asked.currentUrl
    correlationId := asked.correlationId }

/-- `create`.  Where a limit is reached the expired sessions are dropped and not closed. -/
def create (asked : NewSession) :
    Except SessionError SessionRecord × List SessionRecord × SessionRecords :=
  if !asked.owner.isIdentified then
    (.error (.access "Browser sessions require an identified owner"), [], records)
  else
    let (expired, left) := removeExpired now gone records
    let ownerLimit := capped asked.maxSessionsPerOwner registry.maxSessionsPerOwner
    let totalLimit := capped asked.maxSessionsTotal registry.maxSessionsTotal
    if ownerLimit ≤ left.items.countP (asked.owner.owns ·.owner) then
      (.error (.limit s!"Browser session owner limit reached ({ownerLimit})"), [], left)
    else if totalLimit ≤ left.items.length then
      (.error (.limit s!"Browser session runtime limit reached ({totalLimit})"), [], left)
    else
      let record := newRecord registry now sessionId asked
      (.ok record, expired, left.put record)

/-- `resolve`. -/
def resolve (touch : Bool) : Except SessionError SessionRecord × List SessionRecord × SessionRecords :=
  let (expired, left) := removeExpired now gone records
  match left.get sessionId with
  | none =>
    (.error (.notFound s!"Browser session '{sessionId}' was not found or expired"), expired, left)
  | some record =>
    if !owner.owns record.owner then
      (.error (.access "Browser session is owned by a different execution or actor"), expired,
        left)
    else if touch then (.ok (record.touched now), expired, left.put (record.touched now))
    else (.ok record, expired, left)

/-- `close`: the record that is dropped and closed, if there is one. -/
def close : Except SessionError (Option SessionRecord) × SessionRecords :=
  match records.get sessionId with
  | none => (.ok none, records)
  | some record =>
    if !owner.owns record.owner then
      (.error (.access "Browser session is owned by a different execution or actor"), records)
    else (.ok (some record), records.erase sessionId)

/-- `close_all_for_execution`. -/
def closeAllForExecution (executionId : String) : List SessionRecord × SessionRecords :=
  (records.items.filter (·.owner.executionId = some executionId),
    records.filter fun r => r.owner.executionId ≠ some executionId)

/-- `list_for_owner`. -/
def listForOwner : List SessionRecord := records.items.filter (owner.owns ·.owner)

end SessionRegistry

end OpenAgency
