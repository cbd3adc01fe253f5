/-
ModelFallback.lean

Backup models.  A fallback client asks its primary client and, where that fails in
a way worth another try, the clients of its fallback profiles in order.  Those are
built when their turn comes.

A client is given here by how it answers: a method is applied to the request and to
the turn it is called in, so nothing is assumed about two calls of one client.  The
loops of `_try_call` and `_atry_call` differ only in which method they call.
-/
import OpenAgency.Domain.ExecutionWait
import OpenAgency.Lib.Failover

namespace OpenAgency

namespace Llm

/-! ### Errors worth another try -/

inductive FallbackCategory where
  | rateLimit
  | timeout
  | serviceUnavailable
  | network
  | auth
  deriving DecidableEq

def FallbackCategory.value : FallbackCategory → String
  | rateLimit => "rate_limit"
  | timeout => "timeout"
  | serviceUnavailable => "service_unavailable"
  | network => "network"
  | auth => "auth"

structure ModelFallbackPolicy where
  retryOn : List FallbackCategory := [.rateLimit, .timeout, .serviceUnavailable, .network, .auth]

/-- An exception of a client: its class, its text, and the integers it carries as a
status code. -/
structure ModelException where
  className : String
  text : String := ""
  statusCode : Option ℤ := none
  responseStatusCode : Option ℤ := none

def fallbackErrorMarkers : List String :=
  ["rate limit", "rate_limit", "too many requests", "quota", "timeout", "timed out",
    "temporarily unavailable", "service unavailable", "overloaded", "connection", "connect",
    "network", "unauthorized", "forbidden", "access denied", "429", "408", "401", "403", "500",
    "502", "503", "504"]

section

variable (lower : String → String)

/-- `fallback_error_category`. -/
def fallbackErrorCategory (exc : ModelException) : Option FallbackCategory :=
  let statusCode := exc.statusCode <|> exc.responseStatusCode
  let name := lower exc.className
  let text := lower exc.text
  let has (markers : List String) (s : String) : Bool := markers.any (isIn · s)
  if statusCode = some 401 ∨ statusCode = some 403 then some .auth
  else if statusCode = some 429 ∨ isIn "rate" name then some .rateLimit
  else if statusCode ∈ [some 408, some 425, some 504] then some .timeout
  else if statusCode ∈ [some 409, some 500, some 502, some 503] then some .serviceUnavailable
  else if isIn "ratelimit" name ∨
      has ["rate limit", "rate_limit", "too many requests", "quota", "429"] text then
    some .rateLimit
  else if isIn "timeout" name ∨ has ["timeout", "timed out", "408"] text then some .timeout
  else if has ["connection", "network"] name ∨ has ["connection", "connect", "network"] text then
    some .network
  else if has ["unauthorized", "forbidden", "access denied", "401", "403"] text then some .auth
  else if has ["temporarily unavailable", "service unavailable", "overloaded", "500", "502", "503",
      "504"] text then
    some .serviceUnavailable
  else none

/-- `should_try_model_fallback`. -/
def shouldTryModelFallback (policy : ModelFallbackPolicy) (exc : ModelException) : Bool :=
  match fallbackErrorCategory lower exc with
  | none => fallbackErrorMarkers.any (isIn · (lower exc.text))
  | some category => category ∈ policy.retryOn

end

/-! ### Clients -/

structure ModelProfileDefinition where
  id : String
  provider : String
  model : String
  fallbackPolicy : ModelFallbackPolicy := {}

/-- The arguments of a call, which every client is handed alike. -/
structure ModelRequest where
  messages : List ModelMessage
  schema : Option Json := none
  temperature : Option ℚ := none
  maxTokens : Option ℤ := none
  kwargs : Dict Json := []

structure ModelResponse where
  content : Json
  toolCalls : List ModelToolCall := []
  usage : Option (Dict Json) := some []
  provider : String := ""
  model : String := ""

/-- What a method returns: a `ModelResponse`, or something else. -/
inductive ModelResult where
  | response (r : ModelResponse)
  | other (value : Json)

structure ModelStreamEvent where
  textDelta : Option String := none
  response : Option ModelResult := none

/-- A stream: what it yields, and the exception it then fails with, if it does. -/
structure ModelStream (α : Type) where
  items : List α
  failure : Option ModelException := none

/-- What a method answers a request in a turn. -/
abbrev ModelMethod := ModelRequest → ℕ → Except ModelException ModelResult

/-- A client; the asynchronous methods and the stream of events may be missing. -/
structure Client where
  generateText : ModelMethod
  agenerateText : Option ModelMethod := none
  generateStructured : ModelMethod
  agenerateStructured : Option ModelMethod := none
  streamText : ModelRequest → ℕ → ModelStream String
  streamGenerateText : Option (ModelRequest → ℕ → ModelStream ModelStreamEvent) := none

structure FallbackModelClient where
  profile : ModelProfileDefinition
  primaryClient : Client
  fallbackProfiles : List ModelProfileDefinition
  /-- The factory, in a turn: it may raise. -/
  clientFactory : ℕ → ModelProfileDefinition → Except ModelException Client
  /-- `_fallback_clients`, the clients built by earlier calls. -/
  fallbackClients : Dict Client := []

/-- A client whose turn has come, with its position; the client is an exception where
it could not be built. -/
structure Candidate where
  index : ℕ
  profile : ModelProfileDefinition
  client : Except ModelException Client

/-- A failed attempt, as it is reported. -/
structure Attempt where
  provider : String
  model : String
  fallbackIndex : ℕ
  errorType : String
  error : String
  retryable : Bool
  category : Option FallbackCategory

def Attempt.payload (a : Attempt) : Json :=
  .obj [("provider", .str a.provider), ("model", .str a.model),
    ("fallback_index", .nat a.fallbackIndex), ("error_type", .str a.errorType),
    ("error", .str a.error), ("retryable", .bool a.retryable),
    ("category", .ofOption (a.category.map (·.value)))]

inductive FallbackError where
  | raised (exc : ModelException)
  /-- `ModelFallbackExhaustedError`. -/
  | exhausted (message : String) (attempts : List Attempt) (lastError : ModelException)

namespace FallbackModelClient

variable (self : FallbackModelClient)

/-- `_fallback_client`: a client of the profile's id that was built before is used again. -/
def fallbackClient (cache : Dict Client) (turn : ℕ) (profile : ModelProfileDefinition) :
    Except ModelException (Client × Dict Client) :=
  match cache.get? profile.id with
  | some client => .ok (client, cache)
  | none =>
    match self.clientFactory turn profile with
    | .ok client => .ok (client, cache.set profile.id client)
    | .error e => .error e

/-- The fallback part of `_clients`; what comes after a client that cannot be built is
never asked for. -/
def fallbackCandidates : ℕ → Dict Client → List ModelProfileDefinition → List Candidate
  | _, _, [] => []
  | turn, cache, profile :: profiles =>
    match self.fallbackClient cache turn profile with
    | .ok (client, cache) =>
      ⟨turn, profile, .ok client⟩ :: fallbackCandidates (turn + 1) cache profiles
    | .error e => ⟨turn, profile, .error e⟩ :: fallbackCandidates (turn + 1) cache profiles

/-- `enumerate(self._clients())`. -/
def clients : List Candidate :=
  ⟨0, self.profile, .ok self.primaryClient⟩ ::
    self.fallbackCandidates 1 self.fallbackClients self.fallbackProfiles

/-- `_annotate_response`. -/
def annotateResponse (response : ModelResult) (profile : ModelProfileDefinition) (index : ℕ)
    (attempts : List Attempt) : ModelResult :=
  match response with
  | .other value => .other value
  | .response r =>
    if index = 0 then .response r
    else .response { r with
      usage := some ((r.usage.getD []).set "model_fallback" (.obj [
        ("used", .bool true),
        ("primary_provider", .str self.profile.provider),
        ("primary_model", .str self.profile.model),
        ("fallback_provider", .str profile.provider),
        ("fallback_model", .str profile.model),
        ("fallback_index", .nat index),
        ("attempts", .arr (attempts.map Attempt.payload))])) }

variable (lower : String → String)

/-- `should_try_model_fallback` with the policy of the primary profile. -/
def retries (exc : ModelException) : Bool :=
  shouldTryModelFallback lower self.profile.fallbackPolicy exc

/-- `_attempt_record`. -/
def attemptRecord (profile : ModelProfileDefinition) (index : ℕ) (exc : ModelException) : Attempt where
  provider := profile.provider
  model := profile.model
  fallbackIndex := index
  errorType := exc.className
  error := exc.text
  retryable := self.retries lower exc
  category := fallbackErrorCategory lower exc

/-! ### Calls -/

/-- The end of the loops that report their attempts. -/
def exhausted {α : Type} (attempts : List Attempt) (nothing : α) :
    Option ModelException → Except FallbackError α
  | none => .ok nothing
  | some e =>
    .error (.exhausted
      s!"All model fallback attempts failed after {attempts.length} attempt(s): {e.text}"
      attempts e)

/-- What a call comes to, and the turns in which a client was called. -/
structure CallResult where
  called : List ℕ
  outcome : Except FallbackError ModelResult

/-- The loop of `_try_call` and `_atry_call`. -/
def tryLoop (invoke : Client → ℕ → Except ModelException ModelResult) :
    List Attempt → Option ModelException → List Candidate → CallResult
  | attempts, lastError, [] => ⟨[], exhausted attempts (.other .null) lastError⟩
  | attempts, _, c :: rest =>
    match c.client with
    -- the client is built by the iterator, outside the guarded call
    | .error e => ⟨[], .error (.raised e)⟩
    | .ok client =>
      match invoke client c.index with
      | .ok response =>
        ⟨[c.index], .ok (self.annotateResponse response c.profile c.index attempts)⟩
      | .error e =>
        let attempts := attempts ++ [self.attemptRecord lower c.profile c.index e]
        if self.retries lower e = false then ⟨[c.index], .error (.raised e)⟩
        else if self.fallbackProfiles.length ≤ c.index then
          ⟨[c.index], exhausted attempts (.other .null) (some e)⟩
        else
          let r := tryLoop invoke attempts (some e) rest
          ⟨c.index :: r.called, r.outcome⟩

/-- `_try_call`. -/
def tryCall (method : Client → ModelMethod) (request : ModelRequest) : CallResult :=
  self.tryLoop lower (fun client => method client request) [] none self.clients

/-- The method that `_atry_call` calls: the asynchronous one, if the client has it. -/
def asyncMethod (method : Client → ModelMethod) (async : Client → Option ModelMethod)
    (client : Client) : ModelMethod := (async client).getD (method client)

/-- `_atry_call`. -/
def atryCall (method : Client → ModelMethod) (async : Client → Option ModelMethod)
    (request : ModelRequest) : CallResult :=
  self.tryLoop lower (fun client => asyncMethod method async client request) [] none self.clients

def generateText (request : ModelRequest) : CallResult :=
  self.tryCall lower Client.generateText request

def agenerateText (request : ModelRequest) : CallResult :=
  self.atryCall lower Client.generateText Client.agenerateText request

def generateStructured (request : ModelRequest) : CallResult :=
  self.tryCall lower Client.generateStructured request

def agenerateStructured (request : ModelRequest) : CallResult :=
  self.atryCall lower Client.generateStructured Client.agenerateStructured request

/-! ### Positions -/

theorem fallbackCandidates_index (self : FallbackModelClient) (turn : ℕ) (cache : Dict Client)
    (profiles : List ModelProfileDefinition) :
    (self.fallbackCandidates turn cache profiles).map (·.index) =
      List.range' turn profiles.length := by
  induction profiles generalizing turn cache with
  | nil => rfl
  | cons profile profiles ih =>
    unfold fallbackCandidates
    split <;> simp [ih, List.range'_succ]

theorem clients_index :
    self.clients.map (·.index) = List.range' 0 (self.fallbackProfiles.length + 1) := by
  rw [clients, List.map_cons, fallbackCandidates_index, List.range'_succ]

variable {self} {before after : List Candidate} {c : Candidate}

theorem index_nodup (self : FallbackModelClient) : (self.clients.map (·.index)).Nodup := by
  rw [clients_index]
  exact List.nodup_range'

theorem length_clients (self : FallbackModelClient) : self.clients.length = self.fallbackProfiles.length + 1 := by
  have h := congrArg List.length (clients_index self)
  simpa using h

theorem index_eq_length (h : self.clients = before ++ c :: after) : c.index = before.length := by
  have hget : (self.clients.map (·.index))[before.length]? = some c.index := by simp [h]
  rw [clients_index, List.getElem?_range'] at hget
  · simpa using hget.symm
  · have hlength := length_clients self
    simp [h] at hlength
    omega

theorem index_lt_length {b : Candidate} (h : self.clients = before ++ c :: after)
    (hb : b ∈ before) : b.index < before.length := by
  obtain ⟨early, late, rfl⟩ := List.append_of_mem hb
  have hsplit : self.clients = early ++ b :: (late ++ c :: after) := by simp [h]
  rw [index_eq_length hsplit]
  simp

end FallbackModelClient

end Llm

end OpenAgency
