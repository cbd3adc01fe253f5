/-
FallbackCalls.lean

What a call of the fallback client comes to.  `FallsBack` is what the fallback is for:
the first client that answers is returned with the attempts before it, an error that is
not retried is raised at once, and where nothing answers every attempt is reported.

The loop keeps this exactly where every client whose turn comes can be built
(`calls_fallBack_iff`).  A client that cannot be built is no failed attempt to the
loop: the iterator raises, and the clients after it are never asked.
-/
import OpenAgency.ModelFallback

namespace OpenAgency

open Failover List

namespace Llm

namespace FallbackModelClient

variable (self : FallbackModelClient) (lower : String → String)
  (invoke : Client → ℕ → Except ModelException ModelResult)

/-- The attempt a candidate adds where it cannot be built or fails in a way that is retried. -/
def failedAttempt (c : Candidate) : Option Attempt :=
  match c.client with
  | .error e => some (self.attemptRecord lower c.profile c.index e)
  | .ok client =>
    match invoke client c.index with
    | .ok _ => none
    | .error e =>
      if self.retries lower e then some (self.attemptRecord lower c.profile c.index e) else none

/-- These candidates fail, with these attempts. -/
def AllFail (candidates : List Candidate) (attempts : List Attempt) : Prop :=
  candidates.map (self.failedAttempt lower invoke) = attempts.map some

/-- The last turn in which a client is called. -/
def CallResult.LastCalled (result : CallResult) (turn : ℕ) : Prop :=
  turn ∈ result.called ∧ ∀ n ∈ result.called, n ≤ turn

/-- The fallback is complete and in order. -/
structure FallsBack (fallback : FallbackModelClient) (result : CallResult) : Prop where
  answers : ∀ before c after attempts client response, fallback.clients = before ++ c :: after →
    fallback.AllFail lower invoke before attempts →
    c.client = .ok client → invoke client c.index = .ok response →
    result.LastCalled before.length ∧
      result.outcome = .ok (fallback.annotateResponse response c.profile before.length attempts)
  exhausts : ∀ attempts, fallback.AllFail lower invoke fallback.clients attempts →
    ∃ message lastError, result.outcome = .error (.exhausted message attempts lastError)
  raises : ∀ before c after attempts client e, fallback.clients = before ++ c :: after →
    fallback.AllFail lower invoke before attempts →
    c.client = .ok client → invoke client c.index = .error e → fallback.retries lower e = false →
    result.LastCalled before.length ∧ result.outcome = .error (.raised e)

/-- Every client whose turn comes can be built. -/
def BuildsInTurn : Prop :=
  ∀ before c after attempts, self.clients = before ++ c :: after →
    self.AllFail lower invoke before attempts →
    ∃ client, c.client = .ok client

/-! ### The loop as a run over the candidates -/

/-- The turn of a candidate in the loop. -/
def callTurn (c : Candidate) :
    Turn Unit (Attempt × ModelException) ModelException (Candidate × ModelResult) :=
  match c.client with
  | .error e => ⟨[], .inr (.error e)⟩
  | .ok client =>
    match invoke client c.index with
    | .ok response => ⟨[()], .inr (.ok (c, response))⟩
    | .error e =>
      ⟨[()], if self.retries lower e = true then
          .inl (self.attemptRecord lower c.profile c.index e, e)
        else .inr (.error e)⟩

/-- The turn it should have: a client that cannot be built passes on. -/
def fairTurn (c : Candidate) :
    Turn Unit (Attempt × ModelException) ModelException (Candidate × ModelResult) :=
  match c.client with
  | .error e => ⟨[], .inl (self.attemptRecord lower c.profile c.index e, e)⟩
  | .ok _ => self.callTurn lower invoke c

/-- What a call comes to when its candidates have had their turns. -/
def settle (attempts : List Attempt) (lastError : Option ModelException)
    (o : Outcome Unit (Attempt × ModelException) ModelException (Candidate × ModelResult)) :
    CallResult where
  called := o.given.map (·.1)
  outcome :=
    match o.ended with
    | none => exhausted (attempts ++ o.passed.map (·.1)) (.other .null)
        ((o.passed.getLast?.map (·.2)).or lastError)
    | some (.ok (c, response)) =>
      .ok (self.annotateResponse response c.profile c.index (attempts ++ o.passed.map (·.1)))
    | some (.error e) => .error (.raised e)

variable {self lower invoke} {before after : List Candidate} {c : Candidate}

/-! ### Turns -/

variable {client : Client}

variable (self lower) in
theorem callTurn_of_ok {response : ModelResult} (hc : c.client = .ok client)
    (h : invoke client c.index = .ok response) :
    self.callTurn lower invoke c = ⟨[()], .inr (.ok (c, response))⟩ := by
  simp [callTurn, hc, h]

variable {e : ModelException}

theorem callTurn_of_retried (hc : c.client = .ok client) (h : invoke client c.index = .error e)
    (hretry : self.retries lower e = true) :
    self.callTurn lower invoke c =
      ⟨[()], .inl (self.attemptRecord lower c.profile c.index e, e)⟩ := by
  simp [callTurn, hc, h, hretry]

theorem callTurn_of_raised (hc : c.client = .ok client) (h : invoke client c.index = .error e)
    (hretry : self.retries lower e = false) :
    self.callTurn lower invoke c = ⟨[()], .inr (.error e)⟩ := by
  simp [callTurn, hc, h, hretry]

variable (self lower invoke) in
theorem callTurn_of_unbuilt (hc : c.client = .error e) :
    self.callTurn lower invoke c = ⟨[], .inr (.error e)⟩ := by
  simp [callTurn, hc]

theorem fairTurn_of_built (hc : c.client = .ok client) :
    self.fairTurn lower invoke c = self.callTurn lower invoke c := by
  simp [fairTurn, hc]

/-- A candidate passes on exactly if it fails, with the attempt for the reason. -/
theorem failedAttempt_eq_some {a : Attempt} :
    self.failedAttempt lower invoke c = some a ↔
      ∃ e, (self.fairTurn lower invoke c).ending = .inl (a, e) := by
  cases hc : c.client with
  | error e => simp [failedAttempt, fairTurn, hc]
  | ok client =>
    rw [fairTurn_of_built hc]
    cases h : invoke client c.index with
    | ok response => simp [failedAttempt, callTurn, hc, h]
    | error e => cases hretry : self.retries lower e <;> simp [failedAttempt, callTurn, hc, h, hretry]

theorem passesOn_iff :
    (self.fairTurn lower invoke c).PassesOn ↔ (self.failedAttempt lower invoke c).isSome := by
  rw [Option.isSome_iff_exists]
  constructor
  · rintro ⟨⟨a, e⟩, h⟩
    exact ⟨a, failedAttempt_eq_some.mpr ⟨e, h⟩⟩
  · rintro ⟨a, h⟩
    obtain ⟨e, h⟩ := failedAttempt_eq_some.mp h
    exact ⟨(a, e), h⟩

theorem AllFail.passesOn {attempts : List Attempt} (h : self.AllFail lower invoke before attempts) :
    ∀ b ∈ before, (self.fairTurn lower invoke b).PassesOn := by
  intro b hb
  have hmem : self.failedAttempt lower invoke b ∈ attempts.map some := by
    rw [← show _ = _ from h]
    exact mem_map_of_mem hb
  obtain ⟨a, -, ha⟩ := List.mem_map.mp hmem
  rw [passesOn_iff, ← ha]
  rfl

theorem exists_allFail (h : ∀ b ∈ before, (self.fairTurn lower invoke b).PassesOn) :
    ∃ attempts, self.AllFail lower invoke before attempts := by
  induction before with
  | nil => exact ⟨[], rfl⟩
  | cons b before ih =>
    obtain ⟨⟨a, e⟩, ha⟩ := h b mem_cons_self
    obtain ⟨attempts, hattempts⟩ := ih fun c hc => h c (mem_cons_of_mem _ hc)
    have hb : self.failedAttempt lower invoke b = some a := failedAttempt_eq_some.mpr ⟨e, ha⟩
    refine ⟨a :: attempts, ?_⟩
    rw [AllFail, map_cons, map_cons, hb, show _ = _ from hattempts]

theorem AllFail.passed {attempts : List Attempt} (h : self.AllFail lower invoke before attempts) :
    (run Candidate.index (self.fairTurn lower invoke) before).passed.map (·.1) = attempts := by
  induction before generalizing attempts with
  | nil =>
    rw [AllFail, map_nil] at h
    simp [run, List.map_eq_nil_iff.mp h.symm]
  | cons b before ih =>
    cases attempts with
    | nil => cases h
    | cons a attempts =>
      obtain ⟨hb, hrest⟩ := List.cons_eq_cons.mp h
      obtain ⟨e, he⟩ := failedAttempt_eq_some.mp hb
      rw [run_cons_of_passesOn he, map_cons, ih hrest]

/-! ### The loop is the run -/

/-- An attempt that is passed on from is one attempt more for what comes after. -/
theorem settle_passed (attempts : List Attempt) (lastError : Option ModelException)
    (given : List (ℕ × Unit)) (a : Attempt) (e : ModelException)
    (o : Outcome Unit (Attempt × ModelException) ModelException (Candidate × ModelResult)) :
    self.settle attempts lastError ⟨given ++ o.given, (a, e) :: o.passed, o.ended⟩ =
      ⟨given.map (·.1) ++ (self.settle (attempts ++ [a]) (some e) o).called,
        (self.settle (attempts ++ [a]) (some e) o).outcome⟩ := by
  have hlast : ((((a, e) :: o.passed).getLast?.map (·.2)).or lastError) =
      ((o.passed.getLast?.map (·.2)).or (some e)) := by
    rw [List.getLast?_cons]
    cases o.passed.getLast? <;> rfl
  simp only [settle, hlast, map_append, map_cons, append_assoc,
    singleton_append]

/-- The loop over the last candidates is their run, settled with the attempts before. -/
theorem tryLoop_eq {candidates : List Candidate} (start : ℕ) (attempts : List Attempt)
    (lastError : Option ModelException)
    (hindex : candidates.map (·.index) = List.range' start candidates.length)
    (hlength : start + candidates.length = self.fallbackProfiles.length + 1) :
    self.tryLoop lower invoke attempts lastError candidates =
      self.settle attempts lastError
        (run Candidate.index (self.callTurn lower invoke) candidates) := by
  induction candidates generalizing start attempts lastError with
  | nil => simp [tryLoop, settle, run]
  | cons c rest ih =>
    have hc : c.index = start := by
      simpa [range'_succ] using congrArg List.head? hindex
    have hrest : rest.map (·.index) = List.range' (start + 1) rest.length := by
      simpa [range'_succ] using congrArg List.tail hindex
    rw [length_cons] at hlength
    cases hclient : c.client with
    | error e =>
      rw [run_cons_of_ended (by rw [callTurn_of_unbuilt self lower invoke hclient])]
      simp [tryLoop, settle, hclient, shown, callTurn_of_unbuilt self lower invoke hclient]
    | ok client =>
      cases h : invoke client c.index with
      | ok response =>
        rw [run_cons_of_ended (by rw [callTurn_of_ok self lower hclient h])]
        simp [tryLoop, settle, hclient, h, shown, callTurn_of_ok self lower hclient h]
      | error e =>
        cases hretry : self.retries lower e with
        | false =>
          rw [run_cons_of_ended (by rw [callTurn_of_raised hclient h hretry])]
          simp [tryLoop, settle, hclient, h, hretry, shown,
            callTurn_of_raised hclient h hretry]
        | true =>
          rw [run_cons_of_passesOn (by rw [callTurn_of_retried hclient h hretry])]
          rw [settle_passed]
          by_cases hlast : self.fallbackProfiles.length ≤ c.index
          · -- the last candidate: the loop breaks where the run has no one left
            obtain rfl : rest = [] := by
              apply eq_nil_of_length_eq_zero
              omega
            simp [tryLoop, settle, hclient, h, hretry, hlast, run, shown,
              callTurn_of_retried hclient h hretry]
          · rw [← ih (start + 1) _ _ hrest (by omega)]
            simp [tryLoop, hclient, h, hretry, hlast, shown,
              callTurn_of_retried hclient h hretry]

theorem tryLoop_clients :
    self.tryLoop lower invoke [] none self.clients =
      self.settle [] none (run Candidate.index (self.callTurn lower invoke) self.clients) := by
  have hlength := length_clients self
  apply tryLoop_eq 0 [] none
  · rw [clients_index, hlength]
  · omega

/-! ### When the fallback is complete -/

theorem mem_called_settle {o : Outcome Unit (Attempt × ModelException) ModelException
    (Candidate × ModelResult)} {n : ℕ} :
    n ∈ (self.settle [] none o).called ↔ ∃ x ∈ o.given, x.1 = n := by
  simp [settle]

/-- The candidate that ends a run is the last one called, if it is called. -/
theorem lastCalled_of_tried {turn : Candidate →
      Turn Unit (Attempt × ModelException) ModelException (Candidate × ModelResult)}
    {ended : Except ModelException (Candidate × ModelResult)}
    (htried : Failover.Tried turn self.clients before c) (hc : (turn c).ending = .inr ended)
    (hgiven : (turn c).given ≠ []) :
    (self.settle [] none (run Candidate.index turn self.clients)).LastCalled before.length := by
  obtain ⟨after, hsplit⟩ := htried.1
  rw [run_of_tried htried hc]
  constructor
  · obtain ⟨x, hx, hindex⟩ := exists_mem_shown Candidate.index hgiven
    rw [← index_eq_length hsplit]
    exact mem_called_settle.mpr ⟨x, mem_append_right _ hx, hindex⟩
  · intro n hn
    obtain ⟨x, hx, rfl⟩ := mem_called_settle.mp hn
    rcases List.mem_append.mp hx with hx | hx
    · obtain ⟨b, hb, hx⟩ := List.mem_flatMap.mp hx
      rw [key_of_mem_shown hx]
      exact (index_lt_length hsplit hb).le
    · rw [key_of_mem_shown hx, index_eq_length hsplit]

/-- The run in which a client that cannot be built passes on is complete. -/
theorem fallsBack_fair :
    self.FallsBack lower invoke
      (self.settle [] none (run Candidate.index (self.fairTurn lower invoke) self.clients)) where
  answers := by
    intro before c after attempts client response hsplit hfail hclient h
    have htried : Failover.Tried (self.fairTurn lower invoke) self.clients before c :=
      ⟨⟨after, hsplit⟩, hfail.passesOn⟩
    have hturn := (fairTurn_of_built hclient).trans (callTurn_of_ok self lower hclient h)
    refine ⟨lastCalled_of_tried htried (by rw [hturn]) (by rw [hturn]; simp), ?_⟩
    rw [run_of_tried htried (by rw [hturn])]
    simp [settle, hfail.passed, index_eq_length hsplit]
  exhausts := by
    intro attempts hfail
    have hended := run_of_passesOn Candidate.index hfail.passesOn
    have hpassed := hfail.passed
    have hne : (run Candidate.index (self.fairTurn lower invoke) self.clients).passed ≠ [] := by
      intro hnil
      rw [hnil, map_nil] at hpassed
      rw [AllFail, ← hpassed] at hfail
      cases hfail
    obtain ⟨last, hlast⟩ := Option.isSome_iff_exists.mp (List.getLast?_isSome.mpr hne)
    simp [settle, hended, hpassed, hlast, exhausted]
  raises := by
    intro before c after attempts client e hsplit hfail hclient h hretry
    have htried : Failover.Tried (self.fairTurn lower invoke) self.clients before c :=
      ⟨⟨after, hsplit⟩, hfail.passesOn⟩
    have hturn := (fairTurn_of_built hclient).trans (callTurn_of_raised hclient h hretry)
    refine ⟨lastCalled_of_tried htried (by rw [hturn]) (by rw [hturn]; simp), ?_⟩
    rw [run_of_tried htried (by rw [hturn])]
    simp [settle]

/-- In the loop only clients that are built pass on. -/
theorem built_of_passesOn (h : (self.callTurn lower invoke c).PassesOn) :
    ∃ client, c.client = .ok client := by
  cases hclient : c.client with
  | ok client => exact ⟨client, rfl⟩
  | error e => exact absurd h (not_passesOn_of_ended (by rw [callTurn_of_unbuilt self lower invoke hclient]))

theorem fair_of_passesOn (h : (self.callTurn lower invoke c).PassesOn) :
    (self.fairTurn lower invoke c).PassesOn := by
  obtain ⟨client, hclient⟩ := built_of_passesOn h
  rw [fairTurn_of_built hclient]
  exact h

/-- A candidate that cannot be built is passed on from in its fair turn. -/
theorem fair_of_unbuilt (h : c.client = .error e) : (self.fairTurn lower invoke c).PassesOn :=
  ⟨(self.attemptRecord lower c.profile c.index e, e), by simp [fairTurn, h]⟩

/-- Where the fallback is complete, the candidate that decides is the last one called. -/
theorem FallsBack.lastCalled {result : CallResult} (h : self.FallsBack lower invoke result)
    (htried : Failover.Tried (self.fairTurn lower invoke) self.clients before c)
    (hc : ¬ (self.fairTurn lower invoke c).PassesOn) :
    result.LastCalled before.length := by
  obtain ⟨⟨after, hsplit⟩, hbefore⟩ := htried
  obtain ⟨attempts, hfail⟩ := exists_allFail hbefore
  cases hclient : c.client with
  | error e => exact absurd (fair_of_unbuilt hclient) hc
  | ok client =>
    cases hcall : invoke client c.index with
    | ok response => exact (h.answers _ _ _ _ _ _ hsplit hfail hclient hcall).1
    | error e =>
      cases hretry : self.retries lower e with
      | false => exact (h.raises _ _ _ _ _ _ hsplit hfail hclient hcall hretry).1
      | true =>
        rw [fairTurn_of_built hclient, callTurn_of_retried hclient hcall hretry] at hc
        exact absurd ⟨_, rfl⟩ hc

/-- The loop comes to an end at the first client that cannot be built. -/
theorem exists_unbuilt (htried : Failover.Tried (self.fairTurn lower invoke) self.clients before c)
    (hc : c.client = .error e) :
    ∃ first d e', Failover.Tried (self.callTurn lower invoke) self.clients first d ∧
      d.client = .error e' := by
  rcases passesOn_or_tried (self.callTurn lower invoke) self.clients with
    hall | ⟨first, d, ended, hd, hended⟩
  · obtain ⟨client, hclient⟩ := built_of_passesOn (hall c htried.mem)
    rw [hc] at hclient
    cases hclient
  · refine ⟨first, d, ?_⟩
    cases hclient : d.client with
    | error e' => exact ⟨e', hd, rfl⟩
    | ok client =>
      -- `d` would decide the fair run too, before or after `c` passes on
      have hdfair : ¬ (self.fairTurn lower invoke d).PassesOn := by
        rw [fairTurn_of_built hclient]
        exact not_passesOn_of_ended hended
      have hfair : Failover.Tried (self.fairTurn lower invoke) self.clients first d :=
        ⟨hd.1, fun b hb => fair_of_passesOn (hd.2 b hb)⟩
      rcases htried.trichotomy hfair with rfl | hmem | hmem
      · rw [hc] at hclient
        cases hclient
      · obtain ⟨client', hclient'⟩ := built_of_passesOn (hd.2 c hmem)
        rw [hc] at hclient'
        cases hclient'
      · exact absurd (htried.2 d hmem) hdfair

/-- **When the fallback is complete and in order.**  It is if and only if every client
whose turn comes can be built. -/
theorem fallsBack_iff :
    self.FallsBack lower invoke (self.tryLoop lower invoke [] none self.clients) ↔
      self.BuildsInTurn lower invoke := by
  rw [tryLoop_clients]
  constructor
  · intro hfalls before c after attempts hsplit hfail
    cases hclient : c.client with
    | ok client => exact ⟨client, rfl⟩
    | error e =>
      exfalso
      have htried : Failover.Tried (self.fairTurn lower invoke) self.clients before c :=
        ⟨⟨after, hsplit⟩, hfail.passesOn⟩
      obtain ⟨first, d, e', hd, hunbuilt⟩ := exists_unbuilt htried hclient
      have hturn := callTurn_of_unbuilt self lower invoke hunbuilt
      rw [run_of_tried hd (by rw [hturn])] at hfalls
      have hfair : Failover.Tried (self.fairTurn lower invoke) self.clients first d :=
        ⟨hd.1, fun b hb => fair_of_passesOn (hd.2 b hb)⟩
      obtain ⟨rest, hfirst⟩ := hd.1
      rcases passesOn_or_tried (self.fairTurn lower invoke) self.clients with
        hall | ⟨earlier, f, ended, hf, hended⟩
      · -- nothing answers: the attempts are not reported
        obtain ⟨attempts, hfail⟩ := exists_allFail hall
        obtain ⟨message, lastError, hexhausted⟩ := hfalls.exhausts attempts hfail
        simp [settle] at hexhausted
      · -- `f` decides: it comes after `d` and is not called
        have hlast := hfalls.lastCalled hf (not_passesOn_of_ended hended)
        obtain ⟨x, hx, hindex⟩ := mem_called_settle.mp hlast.1
        have hlt : earlier.length < first.length := by
          rw [mem_append, mem_flatMap] at hx
          rcases hx with ⟨b, hb, hx⟩ | hx
          · rw [← hindex, key_of_mem_shown hx]
            exact index_lt_length hfirst hb
          · rw [shown, hturn] at hx
            cases hx
        rcases hfair.trichotomy hf with rfl | hmem | hmem
        · exact not_passesOn_of_ended hended (fair_of_unbuilt hunbuilt)
        · obtain ⟨late, hlate⟩ := hf.1
          have hd' := index_lt_length hlate hmem
          rw [index_eq_length hfirst] at hd'
          omega
        · exact not_passesOn_of_ended hended (hfair.2 f hmem)
  · intro hbuilds
    have hruns : run Candidate.index (self.callTurn lower invoke) self.clients =
        run Candidate.index (self.fairTurn lower invoke) self.clients := by
      apply Eq.symm
      apply run_congr
      rintro before c ⟨⟨after, hsplit⟩, hpasses⟩
      obtain ⟨attempts, hfail⟩ := exists_allFail hpasses
      obtain ⟨client, hclient⟩ := hbuilds before c after attempts hsplit hfail
      exact fairTurn_of_built hclient
    rw [hruns]
    exact fallsBack_fair

end FallbackModelClient

/-! ### The four methods -/

inductive FallbackMethod where
  | generateText
  | agenerateText
  | generateStructured
  | agenerateStructured

/-- What the method calls on a client. -/
def FallbackMethod.invoke (method : FallbackMethod) (request : ModelRequest) (client : Client) :
    ℕ → Except ModelException ModelResult :=
  match method with
  | .generateText => client.generateText request
  | .agenerateText =>
    FallbackModelClient.asyncMethod Client.generateText Client.agenerateText client request
  | .generateStructured => client.generateStructured request
  | .agenerateStructured =>
    FallbackModelClient.asyncMethod Client.generateStructured Client.agenerateStructured client
      request

def FallbackModelClient.call (self : FallbackModelClient) (lower : String → String) :
    FallbackMethod → ModelRequest → CallResult
  | .generateText => self.generateText lower
  | .agenerateText => self.agenerateText lower
  | .generateStructured => self.generateStructured lower
  | .agenerateStructured => self.agenerateStructured lower

/-- **When a call falls back as it should.**  Whichever of the four methods is called, the
first client that answers is returned with the attempts before it, an error that is not
retried is raised at once, and otherwise every attempt is reported, if and only if every
client whose turn comes can be built. -/
theorem calls_fallBack_iff (self : FallbackModelClient) (lower : String → String)
    (method : FallbackMethod) (request : ModelRequest) :
    self.FallsBack lower (method.invoke request) (self.call lower method request) ↔
      self.BuildsInTurn lower (method.invoke request) := by
  cases method <;> exact FallbackModelClient.fallsBack_iff

namespace UnbuiltBackup

def rateLimited : ModelException := { className := "HTTPError", statusCode := some 429 }

def failing : Client where
  generateText _ _ := .error rateLimited
  generateStructured _ _ := .error rateLimited
  streamText _ _ := ⟨[], some rateLimited⟩

def answering : Client where
  generateText _ _ := .ok (.response { content := .str "hello" })
  generateStructured _ _ := .ok (.response { content := .str "hello" })
  streamText _ _ := ⟨["hello"], none⟩

/-- The first backup has an unknown provider, the second would answer. -/
def fallback : FallbackModelClient where
  profile := { id := "p", provider := "openai", model := "primary" }
  primaryClient := failing
  fallbackProfiles :=
    [{ id := "p-fallback-1", provider := "gone", model := "backup" },
      { id := "p-fallback-2", provider := "openai", model := "other" }]
  clientFactory _ profile :=
    if profile.provider = "gone" then .error { className := "KeyError", text := "gone" }
    else .ok answering

end UnbuiltBackup

open UnbuiltBackup in
/-- The second backup is never asked where the first cannot be built. -/
theorem unbuiltBackup_stops :
    ¬ fallback.FallsBack id (FallbackMethod.generateText.invoke ⟨[], none, none, none, []⟩)
      (fallback.call id .generateText ⟨[], none, none, none, []⟩) := by
  intro h
  have hbuilds := FallbackModelClient.fallsBack_iff.mp h
  obtain ⟨client, hclient⟩ := hbuilds [⟨0, fallback.profile, .ok failing⟩] _ _
    [fallback.attemptRecord id fallback.profile 0 rateLimited] rfl rfl
  cases hclient

end Llm

end OpenAgency
