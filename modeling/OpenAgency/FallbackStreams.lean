/-
FallbackStreams.lean

Streams of the fallback client.  Both streams hand on what the client of the turn
yields, and after an exception they may go on with the next client.  `stream_text` does
not look at what it has handed on; `stream_generate_text` looks for text only.

`OneClient` says that all a stream has delivered comes from one client, and that a
stream that ends normally has delivered exactly the output of a client that did not
fail.  Each stream does so if and only if no client is turned to, to any effect, after
another has delivered something (`streams_oneClient_iff`).
-/
import OpenAgency.ModelFallback

namespace OpenAgency

open Failover

namespace Llm

/-- What a generator yields, with the turn it comes from, and how it ends. -/
structure Generated (α : Type) where
  yielded : List (ℕ × α)
  ended : Except FallbackError Unit

/-- What is delivered: the output there is in what is yielded. -/
def Generated.delivered {α β : Type} (output : α → Option β) (g : Generated α) : List (ℕ × β) :=
  g.yielded.filterMap fun x => (output x.2).map (x.1, ·)

/-- How a kind of stream is read off a client, and what is done about its failures. -/
structure StreamKind (α : Type) where
  stream : Client → ℕ → ModelStream α
  /-- What becomes of an item before it is handed on. -/
  annotate : Candidate → List Attempt → α → α
  /-- A failure after which the next client is turned to. -/
  goesOn : ModelStream α → ModelException → Bool
  /-- The error where there is no next client. -/
  exhausts : List Attempt → ModelException → FallbackError

/-- Text that has been handed on. -/
def emittedText (stream : ModelStream ModelStreamEvent) : Bool :=
  stream.items.any fun event => event.textDelta.any (· ≠ "")

/-- The stream of a client; one without events of its own hands on one response. -/
def Client.eventStream (client : Client) (request : ModelRequest) (turn : ℕ) :
    ModelStream ModelStreamEvent :=
  match client.streamGenerateText with
  | some method => method request turn
  | none =>
    match client.generateText request turn with
    | .ok response => ⟨[{ response := some response }], none⟩
    | .error e => ⟨[], some e⟩

namespace FallbackModelClient

variable (self : FallbackModelClient) (lower : String → String) {α β : Type}

/-- The loop of the two generators. -/
def streamLoop (kind : StreamKind α) :
    List Attempt → Option ModelException → List Candidate → Generated α
  | attempts, lastError, [] =>
    ⟨[], lastError.elim (.ok ()) fun e => .error (kind.exhausts attempts e)⟩
  | attempts, _, c :: rest =>
    match c.client with
    | .error e => ⟨[], .error (.raised e)⟩
    | .ok client =>
      let stream := kind.stream client c.index
      let items := stream.items.map fun item => (c.index, kind.annotate c attempts item)
      match stream.failure with
      | none => ⟨items, .ok ()⟩
      | some e =>
        let attempts := attempts ++ [self.attemptRecord lower c.profile c.index e]
        if kind.goesOn stream e = false then ⟨items, .error (.raised e)⟩
        else if self.fallbackProfiles.length ≤ c.index then
          ⟨items, .error (kind.exhausts attempts e)⟩
        else
          let g := streamLoop kind attempts (some e) rest
          ⟨items ++ g.yielded, g.ended⟩

/-- `stream_text` keeps no attempts: the last exception is raised again. -/
def textKind (request : ModelRequest) : StreamKind String where
  stream client turn := client.streamText request turn
  annotate _ _ chunk := chunk
  goesOn _ e := self.retries lower e
  exhausts _ e := .raised e

def streamText (request : ModelRequest) : Generated String :=
  self.streamLoop lower (self.textKind lower request) [] none self.clients

/-- `stream_generate_text` annotates responses, and stops once there is text. -/
def eventKind (request : ModelRequest) : StreamKind ModelStreamEvent where
  stream client turn := client.eventStream request turn
  annotate c attempts event :=
    { event with
      response := event.response.map (self.annotateResponse · c.profile c.index attempts) }
  goesOn stream e := !(emittedText stream) && self.retries lower e
  exhausts attempts e := .exhausted
    s!"All model fallback attempts failed after {attempts.length} attempt(s): {e.text}" attempts e

def streamGenerateText (request : ModelRequest) : Generated ModelStreamEvent :=
  self.streamLoop lower (self.eventKind lower request) [] none self.clients

end FallbackModelClient

/-! ### Delivered output -/

/-- A result apart from its usage, which the fallback annotates. -/
def ModelResult.withoutUsage : ModelResult → ModelResult
  | .response r => .response { r with usage := none }
  | .other value => .other value

/-- The text delta and the response of an event that has one of them. -/
def ModelStreamEvent.output (event : ModelStreamEvent) :
    Option (Option String × Option ModelResult) :=
  if event.textDelta.isNone ∧ event.response.isNone then none
  else some (event.textDelta, event.response.map (·.withoutUsage))

/-- All that is delivered comes from one client; a generator that ends normally has
delivered exactly the output of a client whose stream did not fail. -/
structure OneClient {α β : Type} (candidates : List Candidate)
    (stream : Client → ℕ → ModelStream α) (output : α → Option β) (g : Generated α) : Prop where
  alone : ∀ x ∈ g.delivered output, ∀ y ∈ g.delivered output, x.1 = y.1
  whole : g.ended = .ok () → ∃ c ∈ candidates, ∃ client, c.client = .ok client ∧
    (stream client c.index).failure = none ∧
      g.delivered output = ((stream client c.index).items.filterMap output).map (c.index, ·)

/-- The turn of a candidate, with the output it delivers. -/
def streamTurn {α β : Type} (kind : StreamKind α) (output : α → Option β) (c : Candidate) :
    Turn β ModelException ModelException Unit :=
  match c.client with
  | .error e => ⟨[], .inr (.error e)⟩
  | .ok client =>
    let stream := kind.stream client c.index
    ⟨stream.items.filterMap output,
      match stream.failure with
      | none => .inr (.ok ())
      | some e => if kind.goesOn stream e = true then .inl e else .inr (.error e)⟩

/-! ### The loop as a run over the candidates -/

section

variable {self : FallbackModelClient} {lower : String → String} {α β : Type}
  {kind : StreamKind α} {output : α → Option β} {c : Candidate}

theorem delivered_append (items : List (ℕ × α)) (g : Generated α) :
    (⟨items ++ g.yielded, g.ended⟩ : Generated α).delivered output =
      items.filterMap (fun x => (output x.2).map (x.1, ·)) ++ g.delivered output :=
  List.filterMap_append

/-- What is delivered of the items of a turn is what the turn gives. -/
theorem delivered_items {client : Client} (hc : c.client = .ok client) (attempts : List Attempt)
    (hannotate : ∀ attempts item, output (kind.annotate c attempts item) = output item) :
    ((kind.stream client c.index).items.map
        fun item => (c.index, kind.annotate c attempts item)).filterMap
          (fun x => (output x.2).map (x.1, ·)) =
      shown Candidate.index (streamTurn kind output) c := by
  rw [shown, streamTurn, hc, List.filterMap_map, List.map_filterMap]
  apply List.filterMap_congr
  intro item _
  simp [hannotate]

/-- The loop over the last candidates delivers what their run gives, and ends normally
if the run ends with a result. -/
theorem streamLoop_eq (self : FallbackModelClient) (lower : String → String)
    (hannotate : ∀ c attempts item, output (kind.annotate c attempts item) = output item)
    (candidates : List Candidate) (start : ℕ) (attempts : List Attempt)
    (lastError : Option ModelException) (hsome : candidates = [] → lastError.isSome)
    (hindex : candidates.map (·.index) = List.range' start candidates.length)
    (hlength : start + candidates.length = self.fallbackProfiles.length + 1) :
    (self.streamLoop lower kind attempts lastError candidates).delivered output =
        (run Candidate.index (streamTurn kind output) candidates).given ∧
      ((self.streamLoop lower kind attempts lastError candidates).ended = .ok () ↔
        (run Candidate.index (streamTurn kind output) candidates).ended = some (.ok ())) := by
  induction candidates generalizing start attempts lastError with
  | nil =>
    obtain ⟨e, rfl⟩ := Option.isSome_iff_exists.mp (hsome rfl)
    simp [FallbackModelClient.streamLoop, run, Generated.delivered]
  | cons c rest ih =>
    have hc : c.index = start := by
      simpa [List.range'_succ] using congrArg List.head? hindex
    have hrest : rest.map (·.index) = List.range' (start + 1) rest.length := by
      simpa [List.range'_succ] using congrArg List.tail hindex
    rw [List.length_cons] at hlength
    cases hclient : c.client with
    | error e =>
      have hturn : streamTurn kind output c = ⟨[], .inr (.error e)⟩ := by
        simp [streamTurn, hclient]
      rw [run_cons_of_ended (by rw [hturn])]
      simp [FallbackModelClient.streamLoop, hclient, Generated.delivered, shown, hturn]
    | ok client =>
      have hitems := delivered_items hclient attempts (hannotate c)
      cases hfailure : (kind.stream client c.index).failure with
      | none =>
        have hending : (streamTurn kind output c).ending = .inr (.ok ()) := by
          simp [streamTurn, hclient, hfailure]
        rw [run_cons_of_ended hending, ← hitems]
        simp [FallbackModelClient.streamLoop, hclient, hfailure, Generated.delivered]
      | some e =>
        cases hgoes : kind.goesOn (kind.stream client c.index) e with
        | false =>
          have hending : (streamTurn kind output c).ending = .inr (.error e) := by
            simp [streamTurn, hclient, hfailure, hgoes]
          rw [run_cons_of_ended hending, ← hitems]
          simp [FallbackModelClient.streamLoop, hclient, hfailure, hgoes,
            Generated.delivered]
        | true =>
          have hending : (streamTurn kind output c).ending = .inl e := by
            simp [streamTurn, hclient, hfailure, hgoes]
          rw [run_cons_of_passesOn hending, ← hitems]
          by_cases hlast : self.fallbackProfiles.length ≤ c.index
          · obtain rfl : rest = [] := by
              apply List.eq_nil_of_length_eq_zero
              omega
            simp [FallbackModelClient.streamLoop, hclient, hfailure, hgoes, hlast, run,
              Generated.delivered]
          · have hih := ih (start + 1) (attempts ++ [self.attemptRecord lower c.profile c.index e])
              (some e) (fun _ => rfl) hrest (by omega)
            rw [FallbackModelClient.streamLoop]
            simp only [hclient, hfailure, hgoes, hlast, if_false, Bool.true_eq_false]
            rw [delivered_append, hih.1]
            exact ⟨rfl, hih.2⟩

/-! ### When a stream comes from one client -/

theorem ending_eq_ok_iff :
    (streamTurn kind output c).ending = .inr (.ok ()) ↔
      ∃ client, c.client = .ok client ∧ (kind.stream client c.index).failure = none := by
  cases hclient : c.client with
  | error e => simp [streamTurn, hclient]
  | ok client =>
    cases hfailure : (kind.stream client c.index).failure with
    | none => simp [streamTurn, hclient, hfailure]
    | some e =>
      cases hgoes : kind.goesOn (kind.stream client c.index) e <;>
        simp [streamTurn, hclient, hfailure, hgoes]

theorem shown_streamTurn {client : Client} (hclient : c.client = .ok client) :
    shown Candidate.index (streamTurn kind output) c =
      ((kind.stream client c.index).items.filterMap output).map (c.index, ·) := by
  simp [shown, streamTurn, hclient]

variable (kind) in
/-- **When a stream comes from one client.** -/
theorem oneClient_iff (hannotate : ∀ c attempts item,
    output (kind.annotate c attempts item) = output item) :
    OneClient self.clients kind.stream output (self.streamLoop lower kind [] none self.clients) ↔
      PassesUnseen (streamTurn kind output) self.clients := by
  have hlength := FallbackModelClient.length_clients self
  obtain ⟨hdelivered, hended⟩ := streamLoop_eq self lower hannotate self.clients 0 [] none
    (by simp [FallbackModelClient.clients])
    (by rw [FallbackModelClient.clients_index, hlength]) (by omega)
  rw [← oneSource_iff (FallbackModelClient.index_nodup self)]
  constructor
  · rintro ⟨halone, hwhole⟩
    rw [hdelivered] at halone
    refine ⟨halone, fun r hr => ?_⟩
    obtain ⟨c, hc, client, hclient, hfailure, heq⟩ := hwhole (hended.mpr hr)
    rw [← shown_streamTurn hclient] at heq
    exact ⟨c, hc, ending_eq_ok_iff.mpr ⟨client, hclient, hfailure⟩, hdelivered.symm.trans heq⟩
  · rintro ⟨halone, hwhole⟩
    refine ⟨by rwa [hdelivered], fun hr => ?_⟩
    obtain ⟨c, hc, hending, heq⟩ := hwhole () (hended.mp hr)
    obtain ⟨client, hclient, hfailure⟩ := ending_eq_ok_iff.mp hending
    rw [shown_streamTurn hclient] at heq
    exact ⟨c, hc, client, hclient, hfailure, hdelivered.trans heq⟩

end

/-- The annotation of a response is not part of the output. -/
theorem output_annotate (self : FallbackModelClient) (lower : String → String)
    (request : ModelRequest) (c : Candidate) (attempts : List Attempt)
    (event : ModelStreamEvent) :
    ((self.eventKind lower request).annotate c attempts event).output = event.output := by
  have hresult : ∀ r, (self.annotateResponse r c.profile c.index attempts).withoutUsage =
      r.withoutUsage := by
    intro r
    cases r with
    | other value => rfl
    | response r =>
      by_cases hindex : c.index = 0
      · simp [FallbackModelClient.annotateResponse, hindex]
      · simp [FallbackModelClient.annotateResponse, hindex, ModelResult.withoutUsage]
  obtain ⟨textDelta, response⟩ := event
  cases response with
  | none => rfl
  | some r => simp [FallbackModelClient.eventKind, ModelStreamEvent.output, hresult]

/-- **When streams do not mix models.**  Both streams deliver the output of one client if
and only if, whenever a client delivers something or ends the stream normally, the
clients tried before it have delivered nothing. -/
theorem streams_oneClient_iff (self : FallbackModelClient) (lower : String → String)
    (request : ModelRequest) :
    (OneClient self.clients (fun client => client.streamText request) some
        (self.streamText lower request) ↔
      PassesUnseen (streamTurn (self.textKind lower request) some) self.clients) ∧
    (OneClient self.clients (fun client => client.eventStream request) ModelStreamEvent.output
        (self.streamGenerateText lower request) ↔
      PassesUnseen (streamTurn (self.eventKind lower request) ModelStreamEvent.output)
        self.clients) := by
  constructor
  · exact oneClient_iff (self.textKind lower request) fun _ _ _ => rfl
  · exact oneClient_iff (self.eventKind lower request) (output_annotate self lower request)

/-! ### A stream that is started again -/

namespace RestartedStream

def interrupted : ModelException := { className := "HTTPError", statusCode := some 401 }

/-- A client whose text is cut off after its first word. -/
def breaking : Client where
  generateText _ _ := .error interrupted
  generateStructured _ _ := .error interrupted
  streamText _ _ := ⟨["Once "], some interrupted⟩

def answering : Client where
  generateText _ _ := .ok (.response { content := .str "Hello" })
  generateStructured _ _ := .ok (.response { content := .str "Hello" })
  streamText _ _ := ⟨["Hello"], none⟩

def fallback : FallbackModelClient where
  profile := { id := "p", provider := "openai", model := "primary" }
  primaryClient := breaking
  fallbackProfiles := [{ id := "p-fallback-1", provider := "openai", model := "backup" }]
  clientFactory _ _ := .ok answering

end RestartedStream

open RestartedStream in
/-- The words of two models, in a stream that ends normally. -/
theorem restartedStream_mixes :
    ¬ OneClient fallback.clients (fun client => client.streamText ⟨[], none, none, none, []⟩) some
      (fallback.streamText id ⟨[], none, none, none, []⟩) := by
  intro h
  have hdelivered : (fallback.streamText id ⟨[], none, none, none, []⟩).delivered some =
      [(0, "Once "), (1, "Hello")] := rfl
  have hzero := h.alone (0, "Once ") (by simp [hdelivered]) (1, "Hello") (by simp [hdelivered])
  cases hzero

end Llm

end OpenAgency
