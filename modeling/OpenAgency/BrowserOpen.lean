/-
BrowserOpen.lean

`BrowserRuntimeService.open` of a request that names no session.

The engines, the artifact store, the proxies, the telemetry and the clock answer as they
like, and each of their calls may raise.  Closing a session does not raise, and nor does
writing the history of a domain.  What is kept here is the registry's records, which
sessions have been started and which have been closed.  The screenshots and traces that a
record refers to, and the times a response reports, are left out.
-/
import OpenAgency.Lib.Wp
import OpenAgency.SessionRegistry

namespace OpenAgency

open Relational Interaction Program

/-! ### Requests and responses -/

inductive BrowserEngine where
  | primary
  | fallback
  deriving DecidableEq

structure StorageState where
  /-- Name, value, domain and path. -/
  cookies : List (String × String × String × String) := []
  /-- Origin, name and value. -/
  localStorage : List (String × String × String) := []

structure BrowserOptions where
  proxyBinding : Option String := none
  userAgent : Option String := none
  storageState : Option StorageState := none

/-- `BrowserRuntimePolicy`. -/
structure RequestedPolicy where
  idleTtl : Option ℕ := none
  maximumTtl : Option ℕ := none
  maxSessionsPerOwner : Option ℕ := none
  maxSessionsTotal : Option ℕ := none
  navigationTimeoutMs : Option ℕ := none
  retryAttempts : Option ℕ := none
  domainMaxConcurrency : Option ℕ := none
  artifactRetention : Option ℕ := none

structure OpenRequest where
  url : String
  extractMode : String := "auto"
  keepOpen : Bool := false
  allowedHosts : List String := []
  options : BrowserOptions := {}
  runtimePolicy : RequestedPolicy := {}
  correlationId : Option String := none

structure BrowserNavigation where
  finalUrl : Option String := none
  title : Option String := none
  httpStatus : Option ℕ := none

structure ChallengeResult where
  kind : String := "none"
  retryable : Bool := false
  terminal : Bool := false
  humanActionRequired : Bool := false
  instructions : Option String := none

structure BrowserExtraction where
  mode : String
  title : Option String := none
  text : Option String := none

structure HumanHandoff where
  sessionId : String
  screenshotArtifactId : Option String
  instructions : String
  expiresAt : Time

inductive BrowserStatus where
  | ok
  | error
  | humanActionRequired
  deriving DecidableEq

/-- An attempt and what came of it: a status, or the type of an error. -/
structure BrowserAttempt where
  engine : String
  attempt : String
  outcome : BrowserStatus ⊕ String

structure BrowserResponse where
  status : BrowserStatus := .ok
  requestedUrl : String
  finalUrl : Option String := none
  title : Option String := none
  sessionId : Option String := none
  interactive : Bool := false
  engine : String
  extraction : Option BrowserExtraction := none
  challenge : ChallengeResult := {}
  artifacts : Dict String := []
  humanHandoff : Option HumanHandoff := none
  attempts : List BrowserAttempt := []
  errorType : Option String := none
  message : Option String := none
  correlationId : Option String := none

/-- An exception; that of a navigation may carry an excerpt of the page. -/
structure BrowserFault where
  type : String
  message : String
  /-- The message speaks of a timeout. -/
  timedOut : Bool := false
  htmlExcerpt : Option String := none

/-! ### Operations -/

/-- What is asked of the engines, the stores and the other parts of the process. -/
inductive ExternalOp where
  | validateUrl (url : String) (allowedHosts : List String)
  | acquireLease (domain : String) (maxConcurrency : ℕ)
  /-- Whether a challenge is known whose cooldown lasts. -/
  | challengeHistory (domain : String)
  | invalidateProxy (domain : String)
  | resolveProxy (binding : Option String) (domain : String)
  | start (engine : BrowserEngine) (options : BrowserOptions) (proxy : Option String)
      (allowedHosts : List String)
  | navigate (engine : BrowserEngine) (session : ℕ) (url : String) (timeoutMs : ℕ)
  | challenge (engine : BrowserEngine) (session : ℕ) (httpStatus : Option ℕ)
  | recover (engine : BrowserEngine) (session : ℕ) (budgetMs : ℕ)
  | extract (engine : BrowserEngine) (session : ℕ) (mode : String)
  | screenshot (engine : BrowserEngine) (session : ℕ)
  | storageState (session : ℕ)
  | putArtifact (data : String) (owner : OwnerClaims) (sessionId suffix : String) (retention : ℕ)
  | emit (event : String)
  /-- The time, and which handles are closed or have crashed. -/
  | clock
  | drawToken

def ExternalOp.Val : ExternalOp → Type
  | validateUrl _ _ | acquireLease _ _ | invalidateProxy _ | emit _ => Unit
  | challengeHistory _ | recover _ _ _ => Bool
  | resolveProxy _ _ => Option String
  | start _ _ _ _ => ℕ
  | navigate _ _ _ _ => BrowserNavigation
  | challenge _ _ _ => ChallengeResult
  | extract _ _ _ => BrowserExtraction
  | screenshot _ _ | putArtifact _ _ _ _ _ | drawToken => String
  | storageState _ => Option StorageState
  | clock => Time × (ℕ → Bool)

abbrev ExternalSig : Signature where
  Op := ExternalOp
  Ret o := Except BrowserFault o.Val

inductive BrowserOp where
  | external (o : ExternalOp)
  | readRecords
  | writeRecords (records : SessionRecords)
  | closeSession (session : ℕ)
  | recordDomain (domain engine : String) (success : Bool)
  | releaseLease
  | sleep

abbrev BrowserSig : Signature where
  Op := BrowserOp
  Ret
    | .external o => Except BrowserFault o.Val
    | .readRecords => SessionRecords
    | _ => Unit

/-- The records, the sessions that have been started, and those that have been closed. -/
structure BrowserWorld (ω : Type) where
  environment : ω
  records : SessionRecords := Catalog.empty
  started : List ℕ := []
  closed : List ℕ := []

/-- The sessions that an answer brings. -/
def startedBy : (o : ExternalOp) → Except BrowserFault o.Val → List ℕ
  | .start _ _ _ _, .ok session => [session]
  | _, _ => []

/-- The environment answers as it likes. -/
def browserHandler {ω : Type} (environment : Handler ExternalSig ω) :
    Handler BrowserSig (BrowserWorld ω)
  | .external o, s =>
    let (r, environment) := environment o s.environment
    (r, { s with environment, started := s.started ++ startedBy o r })
  | .readRecords, s => (s.records, s)
  | .writeRecords records, s => ((), { s with records })
  | .closeSession session, s => ((), { s with closed := s.closed ++ [session] })
  | .recordDomain _ _ _, s | .releaseLease, s | .sleep, s => ((), s)

abbrev BrowserRun := Program BrowserSig BrowserFault

/-- Ask for something that may raise. -/
def request (o : ExternalOp) : BrowserRun o.Val := .call (.external o) ofExcept

def act (o : BrowserOp) : BrowserRun (BrowserSig.Ret o) := perform (S := BrowserSig) o

/-- Report an event where a condition holds. -/
def emitIf (c : Bool) (event : String) : BrowserRun Unit :=
  if c then request (.emit event) else .done ()

/-! ### The registry -/

def SessionError.fault : SessionError → BrowserFault
  | notFound sessionId =>
    ⟨"SessionNotFoundError", s!"Browser session '{sessionId}' was not found or expired", false,
      none⟩
  | access text => ⟨"SessionAccessError", text, false, none⟩
  | limit text => ⟨"SessionLimitError", text, false, none⟩

/-- `AsyncSessionRegistry.create`: what has expired is closed last, if nothing was raised. -/
def SessionRegistry.createRecord (registry : SessionRegistry) (asked : NewSession) :
    BrowserRun SessionRecord := do
  let (now, gone) ← request .clock
  let token : String ← request .drawToken
  let records ← act .readRecords
  match registry.create now gone records ("brs_" ++ token) asked with
  | (.error e, _, left) => do
    act (.writeRecords left)
    .raise e.fault
  | (.ok record, expired, left) => do
    act (.writeRecords left)
    let _ ← collect (fun r : SessionRecord => do
      act (.closeSession r.handle)
      .done ([] : List Unit)) expired
    .done record

/-- `AsyncSessionRegistry.close`. -/
def closeRecord (owner : OwnerClaims) (sessionId : String) : BrowserRun Bool := do
  let records ← act .readRecords
  match SessionRegistry.close records owner sessionId with
  | (.error e, _) => .raise e.fault
  | (.ok none, _) => .done false
  | (.ok (some record), left) => do
    act (.writeRecords left)
    act (.closeSession record.handle)
    .done true

/-! ### The service -/

structure BrowserAdapter where
  name : String
  interactive : Bool
  /-- The adapter has `recover_challenge`. -/
  recovers : Bool
  /-- The adapter has `storage_state`. -/
  readsState : Bool

structure BrowserService where
  primary : BrowserAdapter
  fallback : BrowserAdapter
  registry : SessionRegistry
  navigationTimeoutMs : ℕ
  retryBudget : ℕ
  maxConcurrency : ℕ
  retention : ℕ
  challengeHandlingEnabled : Bool
  extractionEnabled : Bool
  /-- `urlsplit(url).hostname or ""`. -/
  hostname : String → String

/-- `_effective_runtime_policy`. -/
structure EffectivePolicy where
  idleTtl : ℕ
  maximumTtl : ℕ
  maxSessionsPerOwner : ℕ
  maxSessionsTotal : ℕ
  navigationTimeoutMs : ℕ
  retryAttempts : ℕ
  domainMaxConcurrency : ℕ
  artifactRetention : ℕ

namespace BrowserService

variable (service : BrowserService)

def adapter : BrowserEngine → BrowserAdapter
  | .primary => service.primary
  | .fallback => service.fallback

def effectivePolicy (requested : RequestedPolicy) : EffectivePolicy :=
  let maximumTtl := capped requested.maximumTtl service.registry.maximumTtl
  { idleTtl := min (orDefault requested.idleTtl service.registry.idleTtl) maximumTtl
    maximumTtl
    maxSessionsPerOwner := capped requested.maxSessionsPerOwner service.registry.maxSessionsPerOwner
    maxSessionsTotal := capped requested.maxSessionsTotal service.registry.maxSessionsTotal
    navigationTimeoutMs := capped requested.navigationTimeoutMs service.navigationTimeoutMs
    retryAttempts := capped requested.retryAttempts service.retryBudget
    domainMaxConcurrency := capped requested.domainMaxConcurrency service.maxConcurrency
    artifactRetention := capped requested.artifactRetention service.retention }

variable (owner : OwnerClaims) (asked : OpenRequest)

def policy : EffectivePolicy := service.effectivePolicy asked.runtimePolicy

/-- `_capture_handoff` and `_capture_failure_artifact`: a screenshot, where none can be taken
nothing. -/
def captureScreenshot (engine : BrowserEngine) (session : ℕ) (sessionId : String) (retention : ℕ) :
    BrowserRun (Option String) :=
  rescue (do
    let data ← request (.screenshot engine session)
    let artifactId ← request (.putArtifact data owner sessionId ".png" retention)
    .done (some artifactId)) fun _ => .done none

/-- `_capture_failure_html`. -/
def captureHtml (html sessionId : String) (retention : ℕ) : BrowserRun (Option String) :=
  rescue (do
    let artifactId ← request (.putArtifact html owner sessionId ".html" retention)
    .done (some artifactId)) fun _ => .done none

/-- A challenge that may be recovered is looked at again. -/
def recoverChallenge (engine : BrowserEngine) (session : ℕ) (navigation : BrowserNavigation)
    (challenge : ChallengeResult) : BrowserRun ChallengeResult :=
  if service.challengeHandlingEnabled && challenge.kind ≠ "none" &&
      (service.adapter engine).recovers && !challenge.terminal then do
    let recovered : Bool ← request
      (.recover engine session (min (service.policy asked).navigationTimeoutMs 8000))
    if recovered = true then do
      let challenge ← request (.challenge engine session navigation.httpStatus)
      request (.emit "challenge_recovery_attempted")
      .done challenge
    else .done challenge
  else .done challenge

/-- The session is registered, or closed. -/
def retain (engine : BrowserEngine) (session : ℕ) (navigation : BrowserNavigation)
    (challenge : ChallengeResult) :
    BrowserRun (Option SessionRecord × Dict String × Option HumanHandoff) :=
  if asked.keepOpen && (service.adapter engine).interactive then do
    let policy := service.policy asked
    let record ← service.registry.createRecord {
      owner
      handle := session
      engine := (service.adapter engine).name
      allowedHosts := asked.allowedHosts
      currentUrl := navigation.finalUrl
      correlationId := asked.correlationId
      idleTtl := some policy.idleTtl
      maximumTtl := some policy.maximumTtl
      maxSessionsPerOwner := some policy.maxSessionsPerOwner
      maxSessionsTotal := some policy.maxSessionsTotal
      artifactRetention := policy.artifactRetention }
    request (.emit "session_created")
    if challenge.humanActionRequired then do
      let artifact ← captureScreenshot owner engine session record.sessionId
        record.artifactRetention
      .done (some record, artifact.toList.map fun id => ("challenge_screenshot_id", id), some {
        sessionId := record.sessionId
        screenshotArtifactId := artifact
        instructions := challenge.instructions.getD <|
          "Ask the operator to complete the visible verification, then navigate or extract " ++
          "again with this same session_id."
        expiresAt := record.idleExpiresAt })
    else .done (some record, [], none)
  else do
    act (.closeSession session)
    .done (none, [], none)

/-- The response that `_navigate_and_build` builds. -/
def buildResponse (engine : BrowserEngine) (navigation : BrowserNavigation)
    (challenge : ChallengeResult) (extraction : Option BrowserExtraction)
    (retained : Option SessionRecord × Dict String × Option HumanHandoff) : BrowserResponse where
  status :=
    if challenge.humanActionRequired then
      if retained.1.isSome then .humanActionRequired else .error
    else if challenge.kind ≠ "none" then .error
    else .ok
  requestedUrl := asked.url
  finalUrl := navigation.finalUrl
  title := navigation.title
  sessionId := retained.1.map (·.sessionId)
  interactive := retained.1.isSome
  engine := (service.adapter engine).name
  extraction := extraction
  challenge := challenge
  artifacts := retained.2.1
  humanHandoff := retained.2.2
  message :=
    if challenge.humanActionRequired && retained.1.isNone then
      some <| "Human verification requires keep_open=true so Agency can preserve a " ++
        "controllable session."
    else none
  correlationId := asked.correlationId

def extractPage (engine : BrowserEngine) (session : ℕ) : BrowserRun (Option BrowserExtraction) :=
  if asked.extractMode ≠ "none" && service.extractionEnabled then do
    let extraction ← request (.extract engine session asked.extractMode)
    .done (some extraction)
  else .done none

/-- `_navigate_and_build`. -/
def navigateAndBuild (engine : BrowserEngine) (session : ℕ) : BrowserRun BrowserResponse := do
  let navigation ← request
    (.navigate engine session asked.url (service.policy asked).navigationTimeoutMs)
  let challenge ← request (.challenge engine session navigation.httpStatus)
  let challenge ← service.recoverChallenge asked engine session navigation challenge
  let extraction ← service.extractPage asked engine session
  let retained ← service.retain owner asked engine session navigation challenge
  request (.emit "navigation_completed")
  emitIf (challenge.kind ≠ "none") "challenge_detected"
  request (.emit "navigation_latency")
  .done (service.buildResponse asked engine navigation challenge extraction retained)

/-- Give up the session of a response, if it has one. -/
def dropSession (response : BrowserResponse) : BrowserRun BrowserResponse :=
  match response.sessionId with
  | none => .done { response with sessionId := none, interactive := false }
  | some sessionId => do
    let _ ← closeRecord owner sessionId
    .done { response with sessionId := none, interactive := false }

/-- What the attempts so far have come to. -/
structure AttemptLog where
  attempts : List BrowserAttempt := []
  lastError : Option BrowserFault := none

def AttemptLog.add (log : AttemptLog) (engine attempt : String) (outcome : BrowserStatus ⊕ String) :
    AttemptLog :=
  { log with attempts := log.attempts ++ [⟨engine, attempt, outcome⟩] }

/-- The artifacts of an attempt that has raised. -/
def captureFailure (session : Option ℕ) (e : BrowserFault) : BrowserRun Unit := do
  let sessionId := "failure-" ++ asked.correlationId.getD ""
  let retention := (service.policy asked).artifactRetention
  let _ ← collect (fun session => do
    let id ← captureScreenshot owner .primary session sessionId retention
    .done id.toList) session.toList
  let _ ← collect (fun html => do
    let id ← captureHtml owner html sessionId retention
    .done id.toList) e.htmlExcerpt.toList
  .done ()

def closeStarted : Option ℕ → BrowserRun Unit
  | none => .done ()
  | some session => act (.closeSession session)

/-- An attempt that has raised: its session is closed. -/
def failAttempt (attempt : ℕ) (log : AttemptLog) (session : Option ℕ) (e : BrowserFault) :
    BrowserRun AttemptLog := do
  service.captureFailure owner asked session e
  closeStarted session
  request (.emit "navigation_attempt_failed")
  emitIf e.timedOut "navigation_timeout"
  .done { log.add service.primary.name (toString attempt) (.inr e.type) with lastError := some e }

/-- Give up the session of an attempt that is to be followed by another. -/
def closeAttempt (response : BrowserResponse) (session : ℕ) : BrowserRun Unit :=
  match response.sessionId with
  | none => act (.closeSession session)
  | some sessionId => do
    let _ ← closeRecord owner sessionId
    .done ()

def prepareRetry (attempt : ℕ) : BrowserRun Unit :=
  if attempt = 1 then act .sleep else request (.invalidateProxy (service.hostname asked.url))

/-- What is done with the session of an attempt: a response to return, or the next attempt. -/
def useAttempt (attempt : ℕ) (log : AttemptLog) (session : ℕ) :
    BrowserRun (BrowserResponse ⊕ AttemptLog) := do
  let response ← service.navigateAndBuild owner asked .primary session
  let log := log.add service.primary.name (toString attempt) (.inl response.status)
  let response := { response with attempts := log.attempts }
  if response.challenge.kind = "none" || response.status = .humanActionRequired then
    .done (.inl response)
  else if !response.challenge.retryable then do
    let response ← dropSession owner response
    .done (.inl response)
  else do
    closeAttempt owner response session
    service.prepareRetry asked attempt
    .done (.inr log)

/-- One attempt of the primary engine. -/
def primaryAttempt (proxy : Option String) (attempt : ℕ) (log : AttemptLog) :
    BrowserRun (BrowserResponse ⊕ AttemptLog) := do
  let started ← (request (.start .primary asked.options proxy asked.allowedHosts)).attempt
  match started with
  | .error e => do
    let log ← service.failAttempt owner asked attempt log none e
    .done (.inr log)
  | .ok session => do
    let outcome ← (service.useAttempt owner asked attempt log session).attempt
    match outcome with
    | .ok result => .done result
    | .error e => do
      let log ← service.failAttempt owner asked attempt log (some session) e
      .done (.inr log)

/-- The attempts of the primary engine, `left` of them still to come. -/
def primaryAttempts (proxy : Option String) :
    ℕ → ℕ → AttemptLog → BrowserRun (BrowserResponse ⊕ AttemptLog)
  | 0, _, log => .done (.inr log)
  | left + 1, attempt, log => do
    let result ← service.primaryAttempt owner asked proxy attempt log
    match result with
    | .inl response => .done (.inl response)
    | .inr log => primaryAttempts proxy left (attempt + 1) log

/-- `_cookie_entries` and `_storage_entries` of a state, as far as they have names. -/
def StorageState.preservedBy (state : Option StorageState) (other : Option StorageState) : Bool :=
  ((state.getD {}).cookies.filter (·.1 ≠ "")).all (· ∈ (other.getD {}).cookies) &&
    (state.getD {}).localStorage.all (· ∈ (other.getD {}).localStorage)

def readPrimaryState (session : ℕ) : BrowserRun (Option StorageState) :=
  if service.primary.readsState then request (.storageState session) else .done none

/-- The part of `_handoff_to_primary` that has a session of the primary engine. -/
def useHandoff (asked : OpenRequest) (state : Option StorageState) (session : ℕ) :
    BrowserRun BrowserResponse := do
  let response ← service.navigateAndBuild owner asked .primary session
  if response.challenge.kind ≠ "none" then do
    let response ← dropSession owner response
    .done { response with
      status := .error
      message := some <| "Scrapling content was retrieved, but browser state could not be handed " ++
        "off safely." }
  else do
    let primaryState ← service.readPrimaryState session
    if StorageState.preservedBy state primaryState then .done response
    else do
      let response ← dropSession owner response
      .done { response with
        status := .error
        message := some "Scrapling state handoff failed cookie compatibility verification." }

/-- `_handoff_to_primary`. -/
def handoffToPrimary (fallbackResponse : BrowserResponse) (fallbackSession : ℕ) :
    BrowserRun BrowserResponse := do
  let state ← request (.storageState fallbackSession)
  let url := (fallbackResponse.finalUrl.filter (· ≠ "")).getD asked.url
  let proxy ← request (.resolveProxy asked.options.proxyBinding (service.hostname url))
  let session ← request (.start .primary
    { asked.options with storageState := state.or asked.options.storageState } proxy
    asked.allowedHosts)
  let outcome ← (service.useHandoff owner { asked with url, keepOpen := true } state
    session).attempt
  match outcome with
  | .ok response => .done response
  | .error e => do
    act (.closeSession session)
    .raise e

/-- What is done with the session of the fallback engine. -/
def useFallback (log : AttemptLog) (session : ℕ) : BrowserRun BrowserResponse := do
  let response ← service.navigateAndBuild owner { asked with keepOpen := false } .fallback session
  let log := log.add service.fallback.name "1" (.inl response.status)
  let response := { response with attempts := log.attempts }
  if !asked.keepOpen then .done response
  else if response.challenge.kind ≠ "none" then
    .done { response with
      status := if response.challenge.humanActionRequired then .humanActionRequired else .error
      message := some <| "Scrapling retrieved a challenge page but could not preserve a " ++
        "controllable session." }
  else do
    let handoff ← service.handoffToPrimary owner asked response session
    .done { handoff with
      attempts := (log.add service.primary.name "handoff" (.inl handoff.status)).attempts }

/-- The response after all attempts have failed. -/
def exhausted (log : AttemptLog) (e : BrowserFault) : BrowserResponse where
  status := .error
  requestedUrl := asked.url
  engine := service.primary.name
  attempts := (log.add service.fallback.name "1" (.inr e.type)).attempts
  errorType := some e.type
  message := some (if e.message = "" then
    "Browser navigation failed after all bounded attempts" else e.message)
  correlationId := asked.correlationId

/-- The fallback engine, whose session is closed whatever happens. -/
def fallbackAttempt (proxy : Option String) (log : AttemptLog) : BrowserRun BrowserResponse := do
  let started ← (do
    request (.emit "fallback_started")
    request (.start .fallback asked.options proxy asked.allowedHosts) : BrowserRun ℕ).attempt
  match started with
  | .error e => .done (service.exhausted asked log e)
  | .ok session => do
    let outcome ← (service.useFallback owner asked log session).attempt
    act (.closeSession session)
    match outcome with
    | .ok response => .done response
    | .error e => .done (service.exhausted asked log e)

/-- A proxy that has met a challenge is not used again. -/
def applyHistory (domain : String) : BrowserRun Unit := do
  let challenged : Bool ← request (.challengeHistory domain)
  if challenged = true then do
    request (.invalidateProxy domain)
    request (.emit "domain_challenge_history_applied")
  else .done ()

/-- `_open_locked` of a request that names no session. -/
def openLocked : BrowserRun BrowserResponse := do
  request (.validateUrl asked.url asked.allowedHosts)
  let domain := service.hostname asked.url
  applyHistory domain
  let proxy ← request (.resolveProxy asked.options.proxyBinding domain)
  let result ← service.primaryAttempts owner asked proxy (service.policy asked).retryAttempts 1 {}
  match result with
  | .inl response => .done response
  | .inr log => service.fallbackAttempt owner asked proxy log

def recordOutcome (domain : String) : Except BrowserFault BrowserResponse → BrowserRun Unit
  | .ok response => act (.recordDomain domain response.engine
      (response.status = .ok || response.status = .humanActionRequired))
  | .error _ => act (.recordDomain domain service.primary.name false)

/-- `open` of a request that names no session. -/
def openBrowser : BrowserRun BrowserResponse := do
  let domain := service.hostname asked.url
  request (.acquireLease domain (service.policy asked).domainMaxConcurrency)
  let outcome ← (service.openLocked owner asked).attempt
  service.recordOutcome domain outcome
  act .releaseLease
  ofExcept outcome

end BrowserService

end OpenAgency
