/-
SessionLeaks.lean

No session of a browser is left open by `open`.

Every function of the service is described by what it does to the sessions that have been
started: most of them do nothing (`Quiet`), `retain` registers a session or closes it, and
whoever starts a session closes it unless the response names its record.  The main result
is `openBrowser_leaksNothing`.
-/
import OpenAgency.BrowserOpen

namespace OpenAgency

open Relational Interaction Program SessionRegistry

variable {ω : Type}

namespace BrowserWorld

/-- No session is started, and none is opened again. -/
structure Closes (s s' : BrowserWorld ω) : Prop where
  started : s'.started = s.started
  closed : ∀ h ∈ s.closed, h ∈ s'.closed

/-- Nor does anything happen to the records. -/
structure Quiet (s s' : BrowserWorld ω) : Prop extends Closes s s' where
  records : s'.records = s.records

/-- All sessions have been closed, up to some. -/
def Pending (s : BrowserWorld ω) (handles : List ℕ) : Prop :=
  ∀ h ∈ s.started, h ∈ s.closed ∨ h ∈ handles

/-- The record under a session's name is of this owner and handle. -/
def Registered (s : BrowserWorld ω) (owner : OwnerClaims) (sessionId : Option String)
    (session : ℕ) : Prop :=
  ∃ record, sessionId = some record.sessionId ∧ s.records.get record.sessionId = some record ∧
    record.owner = owner ∧ record.handle = session

/-- A session has been closed and has no name, or it is registered under the name. -/
def Accounted (s : BrowserWorld ω) (owner : OwnerClaims) (sessionId : Option String)
    (session : ℕ) : Prop :=
  sessionId = none ∧ session ∈ s.closed ∨ s.Registered owner sessionId session

/-- All sessions have been closed, up to some and the one that a response names. -/
def Ended (s : BrowserWorld ω) (handles : List ℕ) (owner : OwnerClaims)
    (response : BrowserResponse) : Prop :=
  s.Pending handles ∨
    ∃ session, s.Pending (session :: handles) ∧ s.Registered owner response.sessionId session

variable {s s' s'' : BrowserWorld ω} {handles handles' : List ℕ} {session : ℕ}
  {owner : OwnerClaims} {sessionId : Option String} {response : BrowserResponse}

theorem Closes.refl (s : BrowserWorld ω) : Closes s s := ⟨rfl, fun _ h => h⟩

theorem Closes.trans (h : Closes s s') (h' : Closes s' s'') : Closes s s'' :=
  ⟨h'.started.trans h.started, fun x hx => h'.closed x (h.closed x hx)⟩

theorem Quiet.refl (s : BrowserWorld ω) : Quiet s s := ⟨Closes.refl s, rfl⟩

theorem Quiet.trans (h : Quiet s s') (h' : Quiet s' s'') : Quiet s s'' :=
  ⟨h.toCloses.trans h'.toCloses, h'.records.trans h.records⟩

theorem Pending.closes (h : s.Pending handles) (hcloses : Closes s s') : s'.Pending handles := by
  intro x hx
  rw [hcloses.started] at hx
  exact (h x hx).imp_left (hcloses.closed x)

/-- Sessions that have been closed are no longer pending. -/
theorem Pending.drop (h : s.Pending handles) (hdrop : ∀ x ∈ handles, x ∈ s.closed ∨ x ∈ handles') :
    s.Pending handles' := by
  intro x hx
  rcases h x hx with hx | hx
  · exact .inl hx
  · exact hdrop x hx

theorem Pending.drop_cons (h : s.Pending (session :: handles)) (hclosed : session ∈ s.closed) :
    s.Pending handles := by
  refine h.drop fun x hx => ?_
  rcases List.mem_cons.mp hx with rfl | hx
  · exact .inl hclosed
  · exact .inr hx

theorem Registered.quiet (h : s.Registered owner sessionId session) (hquiet : Quiet s s') :
    s'.Registered owner sessionId session := by
  unfold Registered
  rw [hquiet.records]
  exact h

theorem Accounted.quiet (h : s.Accounted owner sessionId session) (hquiet : Quiet s s') :
    s'.Accounted owner sessionId session :=
  h.imp (fun h => ⟨h.1, hquiet.closed session h.2⟩) fun h => h.quiet hquiet

theorem Accounted.registered {name : String} (h : s.Accounted owner (some name) session) :
    s.Registered owner (some name) session := by
  rcases h with ⟨hnone, -⟩ | h
  · cases hnone
  · exact h

/-- A session that was pending and is accounted for. -/
theorem Accounted.ended (h : s.Accounted owner response.sessionId session)
    (hpending : s.Pending (session :: handles)) : s.Ended handles owner response := by
  rcases h with ⟨-, hclosed⟩ | hregistered
  · exact .inl (hpending.drop_cons hclosed)
  · exact .inr ⟨session, hpending, hregistered⟩

theorem Ended.quiet (h : s.Ended handles owner response) (hquiet : Quiet s s') :
    s'.Ended handles owner response := by
  rcases h with h | ⟨session, h, hregistered⟩
  · exact .inl (h.closes hquiet.toCloses)
  · exact .inr ⟨session, h.closes hquiet.toCloses, hregistered.quiet hquiet⟩

theorem Ended.drop_cons (h : s.Ended (session :: handles) owner response)
    (hclosed : session ∈ s.closed) : s.Ended handles owner response := by
  rcases h with h | ⟨other, h, hregistered⟩
  · exact .inl (h.drop_cons hclosed)
  · refine .inr ⟨other, h.drop fun x hx => ?_, hregistered⟩
    rcases List.mem_cons.mp hx with rfl | hx
    · exact .inr List.mem_cons_self
    · rcases List.mem_cons.mp hx with rfl | hx
      · exact .inl hclosed
      · exact .inr (List.mem_cons_of_mem _ hx)

end BrowserWorld

open BrowserWorld

section Rules

variable {environment : Handler ExternalSig ω} {α β : Type} {s : BrowserWorld ω}

/-! ### Programs that only ask -/

/-- However it stops, the program has started and registered nothing. -/
def IsQuiet (environment : Handler ExternalSig ω) (p : BrowserRun α) : Prop :=
  ∀ s, p.wp (browserHandler environment) (fun _ => Quiet s) (fun _ => Quiet s) s

/-- The operation that starts a session. -/
def ExternalOp.starts : ExternalOp → Bool
  | start _ _ _ _ => true
  | _ => false

theorem startedBy_eq_nil {o : ExternalOp} (h : o.starts = false) (r : Except BrowserFault o.Val) :
    startedBy o r = [] := by
  cases o <;> first | rfl | cases h

/-- What is asked is answered by the environment. -/
theorem wp_request {o : ExternalOp} {Q : o.Val → BrowserWorld ω → Prop}
    {E : BrowserFault → BrowserWorld ω → Prop}
    (hQ : ∀ a, (browserHandler environment (.external o) s).1 = .ok a →
      Q a (browserHandler environment (.external o) s).2)
    (hE : ∀ e, (browserHandler environment (.external o) s).1 = .error e →
      E e (browserHandler environment (.external o) s).2) :
    (request o).wp (browserHandler environment) Q E s := by
  rw [request, wp_call]
  rcases hr : (browserHandler environment (.external o) s).1 with e | a
  · exact wp_of_raise (hE e hr)
  · exact wp_of_done (hQ a hr)

theorem startedBy_error {o : ExternalOp} (e : BrowserFault) : startedBy o (.error e) = [] := by
  cases o <;> rfl

theorem isQuiet_request {o : ExternalOp} (h : o.starts = false) :
    IsQuiet environment (request o) := by
  intro s
  have hquiet : Quiet s (browserHandler environment (.external o) s).2 := by
    refine ⟨⟨?_, fun _ hx => hx⟩, rfl⟩
    show s.started ++ startedBy o _ = s.started
    rw [startedBy_eq_nil h, List.append_nil]
  exact wp_request (fun _ _ => hquiet) fun _ _ => hquiet

theorem isQuiet_done (a : α) : IsQuiet environment (.done a : BrowserRun α) :=
  fun s => wp_of_done (Quiet.refl s)

theorem isQuiet_bind {p : BrowserRun α} {f : α → BrowserRun β} (hp : IsQuiet environment p)
    (hf : ∀ a, IsQuiet environment (f a)) : IsQuiet environment (p >>= f) := by
  intro s
  refine wp_seq (hp s) fun a s' hs' => ?_
  exact wp_mono (hf a s') (fun _ _ h => hs'.trans h) fun _ _ h => hs'.trans h

/-- What is rescued does not raise. -/
theorem isQuiet_rescue {p : BrowserRun α} (hp : IsQuiet environment p) (a : α)
    {Q : α → BrowserWorld ω → Prop} {E : BrowserFault → BrowserWorld ω → Prop}
    (hQ : ∀ a s', Quiet s s' → Q a s') :
    (p.rescue fun _ => .done a).wp (browserHandler environment) Q E s := by
  rw [wp_rescue]
  exact wp_mono (hp s) hQ fun _ s' h => wp_of_done (hQ a s' h)

theorem IsQuiet.wp {p : BrowserRun α} (hp : IsQuiet environment p)
    {Q : α → BrowserWorld ω → Prop} {E : BrowserFault → BrowserWorld ω → Prop}
    (hQ : ∀ a s', Quiet s s' → Q a s') (hE : ∀ e s', Quiet s s' → E e s') :
    p.wp (browserHandler environment) Q E s := wp_mono (hp s) hQ hE

/-- Something is asked, and then the program goes on. -/
theorem IsQuiet.wp_bind {p : BrowserRun α} (hp : IsQuiet environment p) {f : α → BrowserRun β}
    {Q : β → BrowserWorld ω → Prop} {E : BrowserFault → BrowserWorld ω → Prop}
    (hQ : ∀ a s', Quiet s s' → (f a).wp (browserHandler environment) Q E s')
    (hE : ∀ e s', Quiet s s' → E e s') : (p >>= f).wp (browserHandler environment) Q E s := by
  rw [Program.wp_bind]
  exact hp.wp hQ hE

/-! ### Sessions and their records -/

theorem started_browserHandler (o : ExternalOp) :
    (browserHandler environment (.external o) s).2.started
      = s.started ++ startedBy o (browserHandler environment (.external o) s).1 := rfl

/-- Starting a session, if it does not raise, leaves one more to be closed. -/
theorem wp_start {engine : BrowserEngine} {options : BrowserOptions} {proxy : Option String}
    {allowedHosts : List String} {handles : List ℕ} (h : s.Pending handles)
    {Q : ℕ → BrowserWorld ω → Prop} {E : BrowserFault → BrowserWorld ω → Prop}
    (hQ : ∀ session s', s'.Pending (session :: handles) → Q session s')
    (hE : ∀ e s', s'.Pending handles → E e s') :
    (request (.start engine options proxy allowedHosts)).wp (browserHandler environment) Q E s := by
  refine wp_request (o := .start engine options proxy allowedHosts) (fun session hr => ?_)
    fun e hr => ?_
  · refine hQ session _ fun x hx => ?_
    rw [started_browserHandler, hr] at hx
    rcases List.mem_append.mp hx with hx | hx
    · exact (h x hx).imp_right (List.mem_cons_of_mem _)
    · exact .inr (List.mem_cons.mpr (.inl (List.mem_singleton.mp hx)))
  · refine hE e _ fun x hx => ?_
    rw [started_browserHandler, hr, startedBy_error, List.append_nil] at hx
    exact h x hx

theorem wp_act {o : BrowserOp} {Q : BrowserSig.Ret o → BrowserWorld ω → Prop}
    {E : BrowserFault → BrowserWorld ω → Prop}
    (h : Q (browserHandler environment o s).1 (browserHandler environment o s).2) :
    (act o).wp (browserHandler environment) Q E s := wp_of_perform h

theorem wp_act_bind {o : BrowserOp} {f : BrowserSig.Ret o → BrowserRun β}
    {Q : β → BrowserWorld ω → Prop} {E : BrowserFault → BrowserWorld ω → Prop}
    (h : (f (browserHandler environment o s).1).wp (browserHandler environment) Q E
      (browserHandler environment o s).2) :
    (act o >>= f).wp (browserHandler environment) Q E s := by
  rw [Program.wp_bind]
  exact wp_act h

/-- A session that is closed has been closed. -/
theorem wp_closeSession {session : ℕ} {Q : Unit → BrowserWorld ω → Prop}
    {E : BrowserFault → BrowserWorld ω → Prop}
    (hQ : ∀ s', Quiet s s' → session ∈ s'.closed → Q () s') :
    (act (.closeSession session)).wp (browserHandler environment) Q E s := by
  have hquiet : Quiet s (browserHandler environment (.closeSession session) s).2 :=
    ⟨⟨rfl, fun x hx => List.mem_append_left _ hx⟩, rfl⟩
  exact wp_act (hQ _ hquiet (List.mem_append_right _ (List.mem_singleton_self _)))

/-- What `create` returns is registered for the owner and the handle. -/
theorem create_ok {registry : SessionRegistry} {now : Time} {gone : ℕ → Bool}
    {records left : SessionRecords} {sessionId : String} {asked : NewSession}
    {record : SessionRecord} {expired : List SessionRecord}
    (h : registry.create now gone records sessionId asked = (.ok record, expired, left)) :
    left.get record.sessionId = some record ∧ record.owner = asked.owner ∧
      record.handle = asked.handle := by
  simp only [create] at h
  split at h
  · cases h
  · split at h
    · cases h
    · split at h
      · cases h
      · cases h
        exact ⟨Catalog.get_put_self _ _, rfl, rfl⟩

theorem wp_createRecord {registry : SessionRegistry} {asked : NewSession}
    {Q : SessionRecord → BrowserWorld ω → Prop} {E : BrowserFault → BrowserWorld ω → Prop}
    (hQ : ∀ record s', Closes s s' → s'.records.get record.sessionId = some record →
      record.owner = asked.owner → record.handle = asked.handle → Q record s')
    (hE : ∀ e s', Closes s s' → E e s') :
    (registry.createRecord asked).wp (browserHandler environment) Q E s := by
  unfold createRecord
  refine (isQuiet_request rfl).wp_bind (fun clock s₁ h₁ => ?_) fun e s₁ h₁ => hE e s₁ h₁.toCloses
  refine (isQuiet_request rfl).wp_bind (fun (token : String) s₂ h₂ => ?_)
    fun e s₂ h₂ => hE e s₂ (h₁.trans h₂).toCloses
  have hcloses : Closes s s₂ := (h₁.trans h₂).toCloses
  obtain ⟨now, gone⟩ := clock
  have hread : (browserHandler environment .readRecords s₂).1 = s₂.records := rfl
  refine wp_act_bind ?_
  rw [hread]
  rcases hcreate : registry.create now gone s₂.records ("brs_" ++ token) asked with
    ⟨e | record, expired, left⟩
  · exact wp_act_bind (wp_of_raise (hE _ _ ⟨hcloses.started, hcloses.closed⟩))
  · obtain ⟨hget, howner, hhandle⟩ := create_ok hcreate
    refine wp_act_bind ?_
    rw [Program.wp_bind]
    -- The expired sessions are closed one after the other.
    have hexpired : (collect (fun r : SessionRecord => do
        act (.closeSession r.handle)
        .done ([] : List Unit)) expired).wp (browserHandler environment)
        (fun _ s' => Closes s s' ∧ s'.records = left) E
        (browserHandler environment (.writeRecords left) s₂).2 := by
      refine wp_collect (I := fun (_ : List SessionRecord) s' => Closes s s' ∧ s'.records = left)
        (fun r rs s' h => ?_) ⟨⟨hcloses.started, hcloses.closed⟩, rfl⟩
      rw [Program.wp_bind]
      refine wp_closeSession fun s'' h'' _ => wp_of_done ?_
      exact ⟨h.1.trans h''.toCloses, h''.records.trans h.2⟩
    refine wp_post hexpired (fun _ s' h => wp_of_done ?_)
    exact hQ record s' h.1 (by rw [h.2, hget]) howner hhandle

/-- A session that is registered for its owner is closed and no longer registered. -/
theorem wp_closeRecord {owner : OwnerClaims} {sessionId : String} {session : ℕ}
    (h : s.Registered owner (some sessionId) session) {Q : Bool → BrowserWorld ω → Prop}
    {E : BrowserFault → BrowserWorld ω → Prop}
    (hQ : ∀ a s', Closes s s' → session ∈ s'.closed → Q a s') :
    (closeRecord owner sessionId).wp (browserHandler environment) Q E s := by
  obtain ⟨record, hid, hget, rfl, rfl⟩ := h
  cases hid
  have hclose : close s.records record.owner record.sessionId
      = (.ok (some record), s.records.erase record.sessionId) := by
    simp [close, hget, OwnerClaims.owns_self]
  have hread : (browserHandler environment .readRecords s).1 = s.records := rfl
  unfold closeRecord
  refine wp_act_bind ?_
  rw [hread, hclose]
  refine wp_act_bind ?_
  rw [Program.wp_bind]
  refine wp_closeSession fun s' h' hclosed => wp_of_done (hQ true s' ?_ hclosed)
  exact ⟨h'.started, h'.closed⟩

end Rules

/-! ### Attempts -/

namespace BrowserService

variable {environment : Handler ExternalSig ω} {s : BrowserWorld ω} {service : BrowserService}
  {owner : OwnerClaims} {asked : OpenRequest} {engine : BrowserEngine} {session : ℕ}

variable {E : BrowserFault → BrowserWorld ω → Prop}

theorem wp_captureScreenshot {sessionId : String} {retention : ℕ}
    {Q : Option String → BrowserWorld ω → Prop} (hQ : ∀ a s', Quiet s s' → Q a s') :
    (captureScreenshot owner engine session sessionId retention).wp (browserHandler environment)
      Q E s :=
  isQuiet_rescue (isQuiet_bind (isQuiet_request rfl) fun _ =>
    isQuiet_bind (isQuiet_request rfl) fun _ => isQuiet_done _) none hQ

theorem wp_captureHtml {html sessionId : String} {retention : ℕ}
    {Q : Option String → BrowserWorld ω → Prop} (hQ : ∀ a s', Quiet s s' → Q a s') :
    (captureHtml owner html sessionId retention).wp (browserHandler environment) Q E s :=
  isQuiet_rescue (isQuiet_bind (isQuiet_request rfl) fun _ => isQuiet_done _) none hQ

theorem isQuiet_recoverChallenge (navigation : BrowserNavigation) (challenge : ChallengeResult) :
    IsQuiet environment (service.recoverChallenge asked engine session navigation challenge) := by
  unfold recoverChallenge
  split
  · refine isQuiet_bind (isQuiet_request rfl) fun recovered => ?_
    split
    · exact isQuiet_bind (isQuiet_request rfl) fun _ =>
        isQuiet_bind (isQuiet_request rfl) fun _ => isQuiet_done _
    · exact isQuiet_done _
  · exact isQuiet_done _

theorem isQuiet_extractPage : IsQuiet environment (service.extractPage asked engine session) := by
  unfold extractPage
  split
  · exact isQuiet_bind (isQuiet_request rfl) fun _ => isQuiet_done _
  · exact isQuiet_done _

theorem isQuiet_emitIf (c : Bool) (event : String) : IsQuiet environment (emitIf c event) := by
  cases c with
  | false => exact isQuiet_done ()
  | true => exact isQuiet_request (o := .emit event) rfl

/-- The session is accounted for, or there was an error. -/
theorem wp_retain {navigation : BrowserNavigation} {challenge : ChallengeResult}
    {Q : Option SessionRecord × Dict String × Option HumanHandoff → BrowserWorld ω → Prop}
    (hQ : ∀ retained s', Closes s s' →
      s'.Accounted owner (retained.1.map (·.sessionId)) session → Q retained s')
    (hE : ∀ e s', Closes s s' → E e s') :
    (service.retain owner asked engine session navigation challenge).wp
      (browserHandler environment) Q E s := by
  unfold retain
  split
  · rw [Program.wp_bind]
    refine wp_createRecord (fun record s₁ h₁ hget howner hhandle => ?_) hE
    have hregistered : s₁.Registered owner (some record.sessionId) session :=
      ⟨record, rfl, hget, howner, hhandle⟩
    refine (isQuiet_request rfl).wp_bind (fun _ s₂ h₂ => ?_)
      fun e s₂ h₂ => hE e s₂ (h₁.trans h₂.toCloses)
    split
    · rw [Program.wp_bind]
      refine wp_captureScreenshot fun a s₃ h₃ => wp_of_done (hQ _ s₃ ?_ ?_)
      · exact (h₁.trans h₂.toCloses).trans h₃.toCloses
      · exact .inr ((hregistered.quiet h₂).quiet h₃)
    · exact wp_of_done (hQ _ s₂ (h₁.trans h₂.toCloses) (.inr (hregistered.quiet h₂)))
  · rw [Program.wp_bind]
    refine wp_closeSession fun s₁ h₁ hclosed => wp_of_done (hQ _ s₁ h₁.toCloses ?_)
    exact .inl ⟨rfl, hclosed⟩

variable {Q : BrowserResponse → BrowserWorld ω → Prop}

theorem wp_navigateAndBuild
    (hQ : ∀ response s', Closes s s' → s'.Accounted owner response.sessionId session →
      Q response s') (hE : ∀ e s', Closes s s' → E e s') :
    (service.navigateAndBuild owner asked engine session).wp (browserHandler environment)
      Q E s := by
  unfold navigateAndBuild
  refine (isQuiet_request rfl).wp_bind (fun navigation s₁ h₁ => ?_)
    fun e s₁ h₁ => hE e s₁ h₁.toCloses
  refine (isQuiet_request rfl).wp_bind (fun challenge s₂ h₂ => ?_)
    fun e s₂ h₂ => hE e s₂ (h₁.trans h₂).toCloses
  refine (isQuiet_recoverChallenge navigation challenge).wp_bind (fun challenge s₃ h₃ => ?_)
    fun e s₃ h₃ => hE e s₃ ((h₁.trans h₂).trans h₃).toCloses
  refine (isQuiet_extractPage).wp_bind (fun extraction s₄ h₄ => ?_)
    fun e s₄ h₄ => hE e s₄ (((h₁.trans h₂).trans h₃).trans h₄).toCloses
  have hbefore : Closes s s₄ := (((h₁.trans h₂).trans h₃).trans h₄).toCloses
  rw [Program.wp_bind]
  refine wp_retain (fun retained s₅ h₅ haccounted => ?_) fun e s₅ h₅ => hE e s₅ (hbefore.trans h₅)
  -- What follows only reports.
  have hclosed : ∀ {s'}, Quiet s₅ s' → Closes s s' := fun h =>
    (hbefore.trans h₅).trans h.toCloses
  refine (isQuiet_request rfl).wp_bind (fun _ s₆ h₆ => ?_) fun e s₆ h₆ => hE e s₆ (hclosed h₆)
  refine (isQuiet_emitIf _ _).wp_bind (fun _ s₇ h₇ => ?_)
    fun e s₇ h₇ => hE e s₇ (hclosed (h₆.trans h₇))
  refine (isQuiet_request rfl).wp_bind (fun _ s₈ h₈ => ?_)
    fun e s₈ h₈ => hE e s₈ (hclosed ((h₆.trans h₇).trans h₈))
  have hquiet : Quiet s₅ s₈ := (h₆.trans h₇).trans h₈
  exact wp_of_done (hQ _ s₈ (hclosed hquiet) (haccounted.quiet hquiet))

/-- The session of a response is given up. -/
theorem wp_dropSession {response : BrowserResponse} (session : ℕ)
    (h : s.Accounted owner response.sessionId session)
    (hQ : ∀ response s', Closes s s' → session ∈ s'.closed → response.sessionId = none →
      Q response s') :
    (dropSession owner response).wp (browserHandler environment) Q E s := by
  unfold dropSession
  rcases hid : response.sessionId with - | sessionId
  · rcases h with ⟨-, hclosed⟩ | ⟨record, hsome, -⟩
    · exact wp_of_done (hQ _ s (Closes.refl s) hclosed rfl)
    · cases hid.symm.trans hsome
  · rw [hid] at h
    rw [Program.wp_bind]
    exact wp_closeRecord h.registered fun _ s' h' hclosed => wp_of_done (hQ _ s' h' hclosed rfl)

theorem wp_closeAttempt {response : BrowserResponse} (session : ℕ)
    (h : s.Accounted owner response.sessionId session) {Q : Unit → BrowserWorld ω → Prop}
    (hQ : ∀ s', Closes s s' → session ∈ s'.closed → Q () s') :
    (closeAttempt owner response session).wp (browserHandler environment) Q E s := by
  unfold closeAttempt
  rcases hid : response.sessionId with - | sessionId
  · exact wp_closeSession fun s' h' hclosed => hQ s' h'.toCloses hclosed
  · rw [hid] at h
    rw [Program.wp_bind]
    exact wp_closeRecord h.registered fun _ s' h' hclosed => wp_of_done (hQ s' h' hclosed)

theorem isQuiet_act {o : BrowserOp} (h : ∀ s : BrowserWorld ω,
    Quiet s (browserHandler environment o s).2) : IsQuiet environment (act o) :=
  fun s => wp_act (h s)

theorem isQuiet_prepareRetry (attempt : ℕ) :
    IsQuiet environment (service.prepareRetry asked attempt) := by
  by_cases h : attempt = 1
  · have hsleep : service.prepareRetry asked attempt = act .sleep := if_pos h
    rw [hsleep]
    exact isQuiet_act (o := .sleep) fun s => Quiet.refl s
  · have hinvalidate : service.prepareRetry asked attempt
        = request (.invalidateProxy (service.hostname asked.url)) := if_neg h
    rw [hinvalidate]
    exact isQuiet_request rfl

theorem isQuiet_readPrimaryState : IsQuiet environment (service.readPrimaryState session) := by
  unfold readPrimaryState
  cases service.primary.readsState with
  | false => exact isQuiet_done _
  | true => exact isQuiet_request (o := .storageState session) rfl

theorem isQuiet_applyHistory (domain : String) : IsQuiet environment (applyHistory domain) := by
  unfold applyHistory
  refine isQuiet_bind (isQuiet_request rfl) fun challenged => ?_
  cases (challenged : Bool) with
  | false => exact isQuiet_done ()
  | true =>
    exact isQuiet_bind (isQuiet_request rfl) fun _ => isQuiet_request (o := .emit _) rfl

/-- An attempt returns a response that accounts for its session, or closes it, or raises. -/
theorem wp_useAttempt {attempt : ℕ} {log : AttemptLog}
    {Q : BrowserResponse ⊕ AttemptLog → BrowserWorld ω → Prop}
    (hreturn : ∀ response s', Closes s s' → s'.Accounted owner response.sessionId session →
      Q (.inl response) s') (hnext : ∀ log s', Closes s s' → session ∈ s'.closed → Q (.inr log) s')
    (hE : ∀ e s', Closes s s' → E e s') :
    (service.useAttempt owner asked attempt log session).wp (browserHandler environment) Q E s := by
  unfold useAttempt
  rw [Program.wp_bind]
  refine wp_navigateAndBuild (fun response s₁ h₁ haccounted => ?_) hE
  dsimp only
  split
  · exact wp_of_done (hreturn _ s₁ h₁ haccounted)
  · split
    · rw [Program.wp_bind]
      refine wp_dropSession session ?_ fun response' s₂ h₂ hclosed hnone => wp_of_done ?_
      · exact haccounted
      · exact hreturn response' s₂ (h₁.trans h₂) (.inl ⟨hnone, hclosed⟩)
    · rw [Program.wp_bind]
      refine wp_closeAttempt session ?_ fun s₂ h₂ hclosed => ?_
      · exact haccounted
      have hcloses : Closes s s₂ := h₁.trans h₂
      refine (isQuiet_prepareRetry attempt).wp_bind (fun _ s₃ h₃ => ?_)
        fun e s₃ h₃ => hE e s₃ (hcloses.trans h₃.toCloses)
      exact wp_of_done (hnext _ s₃ (hcloses.trans h₃.toCloses) (h₃.closed session hclosed))

theorem wp_captureFailure {attempted : Option ℕ} {e : BrowserFault}
    {Q : Unit → BrowserWorld ω → Prop} (hQ : ∀ s', Quiet s s' → Q () s') :
    (service.captureFailure owner asked attempted e).wp (browserHandler environment) Q E s := by
  unfold captureFailure
  refine wp_seq (wp_collect (I := fun (_ : List ℕ) s' => Quiet s s') (fun a as s' h => ?_)
    (Quiet.refl s)) fun _ s₁ h₁ => ?_
  · rw [Program.wp_bind]
    exact wp_captureScreenshot fun _ s'' h' => wp_of_done (h.trans h')
  · refine wp_seq (wp_collect (I := fun (_ : List String) s' => Quiet s s') (fun a as s' h => ?_)
      h₁) fun _ s₂ h₂ => wp_of_done (hQ s₂ h₂)
    rw [Program.wp_bind]
    exact wp_captureHtml fun _ s'' h' => wp_of_done (h.trans h')

theorem wp_closeStarted {attempted : Option ℕ} {Q : Unit → BrowserWorld ω → Prop}
    (hQ : ∀ s', Quiet s s' → (∀ x ∈ attempted, x ∈ s'.closed) → Q () s') :
    (closeStarted attempted).wp (browserHandler environment) Q E s := by
  cases attempted with
  | none => exact wp_of_done (hQ s (Quiet.refl s) fun x hx => nomatch hx)
  | some session =>
    refine wp_closeSession fun s' h' hclosed => hQ s' h' fun x hx => ?_
    cases hx
    exact hclosed

/-- The session of an attempt that has raised is closed, whatever else happens. -/
theorem wp_failAttempt {attempt : ℕ} {log : AttemptLog} {attempted : Option ℕ} {e : BrowserFault}
    {Q : AttemptLog → BrowserWorld ω → Prop}
    (hQ : ∀ log s', Closes s s' → (∀ x ∈ attempted, x ∈ s'.closed) → Q log s')
    (hE : ∀ e s', Closes s s' → (∀ x ∈ attempted, x ∈ s'.closed) → E e s') :
    (service.failAttempt owner asked attempt log attempted e).wp (browserHandler environment)
      Q E s := by
  unfold failAttempt
  rw [Program.wp_bind]
  refine wp_captureFailure fun s₁ h₁ => ?_
  rw [Program.wp_bind]
  refine wp_closeStarted fun s₂ h₂ hclosed => ?_
  have hcloses : Closes s s₂ := (h₁.trans h₂).toCloses
  have hlater : ∀ {s'}, Quiet s₂ s' → ∀ x ∈ attempted, x ∈ s'.closed := fun h x hx =>
    h.closed x (hclosed x hx)
  refine (isQuiet_request rfl).wp_bind (fun _ s₃ h₃ => ?_)
    fun e s₃ h₃ => hE e s₃ (hcloses.trans h₃.toCloses) (hlater h₃)
  refine (isQuiet_emitIf _ _).wp_bind (fun _ s₄ h₄ => ?_)
    fun e s₄ h₄ => hE e s₄ (hcloses.trans (h₃.trans h₄).toCloses) (hlater (h₃.trans h₄))
  exact wp_of_done (hQ _ s₄ (hcloses.trans (h₃.trans h₄).toCloses) (hlater (h₃.trans h₄)))

variable {handles : List ℕ}

/-- After an attempt of the primary engine all is as before, up to the session that the
response names. -/
theorem wp_primaryAttempt {proxy : Option String} {attempt : ℕ} {log : AttemptLog}
    (h : s.Pending handles) {Q : BrowserResponse ⊕ AttemptLog → BrowserWorld ω → Prop}
    (hreturn : ∀ response s', s'.Ended handles owner response → Q (.inl response) s')
    (hnext : ∀ log s', s'.Pending handles → Q (.inr log) s')
    (hE : ∀ e s', s'.Pending handles → E e s') :
    (service.primaryAttempt owner asked proxy attempt log).wp (browserHandler environment)
      Q E s := by
  unfold primaryAttempt
  rw [Program.wp_bind, Program.wp_attempt]
  refine wp_start h (fun session s₁ h₁ => ?_) fun e s₁ h₁ => ?_
  · show Program.wp _ Q E ((service.useAttempt owner asked attempt log session).attempt >>= _) s₁
    rw [Program.wp_bind, Program.wp_attempt]
    refine wp_useAttempt (fun response s₂ h₂ haccounted => ?_) (fun log s₂ h₂ hclosed => ?_)
      fun e s₂ h₂ => ?_
    · exact wp_of_done (hreturn response s₂ (haccounted.ended (h₁.closes h₂)))
    · exact wp_of_done (hnext log s₂ ((h₁.closes h₂).drop_cons hclosed))
    · show Program.wp _ Q E (service.failAttempt owner asked attempt log (some session) e >>= _) s₂
      rw [Program.wp_bind]
      refine wp_failAttempt (fun log s₃ h₃ hclosed => wp_of_done (hnext log s₃ ?_))
        fun e s₃ h₃ hclosed => hE e s₃ ?_
      · exact ((h₁.closes h₂).closes h₃).drop_cons (hclosed session rfl)
      · exact ((h₁.closes h₂).closes h₃).drop_cons (hclosed session rfl)
  · show Program.wp _ Q E (service.failAttempt owner asked attempt log none e >>= _) s₁
    rw [Program.wp_bind]
    exact wp_failAttempt (fun log s₂ h₂ _ => wp_of_done (hnext log s₂ (h₁.closes h₂)))
      fun e s₂ h₂ _ => hE e s₂ (h₁.closes h₂)

/-- The attempts of the primary engine, by induction on those still to come. -/
theorem wp_primaryAttempts {proxy : Option String}
    {Q : BrowserResponse ⊕ AttemptLog → BrowserWorld ω → Prop}
    (hreturn : ∀ response s', s'.Ended handles owner response → Q (.inl response) s')
    (hnext : ∀ log s', s'.Pending handles → Q (.inr log) s')
    (hE : ∀ e s', s'.Pending handles → E e s') (left attempt : ℕ) (log : AttemptLog)
    {s : BrowserWorld ω} (h : s.Pending handles) :
    (service.primaryAttempts owner asked proxy left attempt log).wp (browserHandler environment)
      Q E s := by
  induction left generalizing attempt log s with
  | zero => exact wp_of_done (hnext log s h)
  | succ left ih =>
    rw [primaryAttempts, Program.wp_bind]
    exact wp_primaryAttempt h (fun response s' h' => wp_of_done (hreturn response s' h'))
      (fun log s' h' => ih (attempt + 1) log h') hE

/-- The handoff gives up the session it has started, or its response names it. -/
theorem wp_useHandoff {state : Option StorageState}
    (hQ : ∀ response s', Closes s s' → s'.Accounted owner response.sessionId session →
      Q response s') (hE : ∀ e s', Closes s s' → E e s') :
    (service.useHandoff owner asked state session).wp (browserHandler environment) Q E s := by
  unfold useHandoff
  rw [Program.wp_bind]
  refine wp_navigateAndBuild (fun response s₁ h₁ haccounted => ?_) hE
  split
  · rw [Program.wp_bind]
    refine wp_dropSession session haccounted fun response' s₂ h₂ hclosed hnone => wp_of_done ?_
    exact hQ _ s₂ (h₁.trans h₂) (.inl ⟨hnone, hclosed⟩)
  · refine (isQuiet_readPrimaryState).wp_bind (fun primaryState s₂ h₂ => ?_)
      fun e s₂ h₂ => hE e s₂ (h₁.trans h₂.toCloses)
    split
    · exact wp_of_done (hQ _ s₂ (h₁.trans h₂.toCloses) (haccounted.quiet h₂))
    · rw [Program.wp_bind]
      refine wp_dropSession session (haccounted.quiet h₂) fun response' s₃ h₃ hclosed hnone =>
        wp_of_done ?_
      exact hQ _ s₃ ((h₁.trans h₂.toCloses).trans h₃) (.inl ⟨hnone, hclosed⟩)

theorem wp_handoffToPrimary {fallbackResponse : BrowserResponse} {fallbackSession : ℕ}
    (h : s.Pending handles) (hQ : ∀ response s', s'.Ended handles owner response → Q response s')
    (hE : ∀ e s', s'.Pending handles → E e s') :
    (service.handoffToPrimary owner asked fallbackResponse fallbackSession).wp
      (browserHandler environment) Q E s := by
  unfold handoffToPrimary
  refine (isQuiet_request rfl).wp_bind (fun state s₁ h₁ => ?_)
    fun e s₁ h₁ => hE e s₁ (h.closes h₁.toCloses)
  refine (isQuiet_request rfl).wp_bind (fun proxy s₂ h₂ => ?_)
    fun e s₂ h₂ => hE e s₂ (h.closes (h₁.trans h₂).toCloses)
  rw [Program.wp_bind]
  refine wp_start (h.closes (h₁.trans h₂).toCloses) (fun session s₃ h₃ => ?_) hE
  rw [Program.wp_bind, Program.wp_attempt]
  refine wp_useHandoff (fun response s₄ h₄ haccounted => ?_) fun e s₄ h₄ => ?_
  · exact wp_of_done (hQ response s₄ (haccounted.ended (h₃.closes h₄)))
  · show Program.wp _ Q E (act (.closeSession session) >>= fun _ => .raise e) s₄
    rw [Program.wp_bind]
    refine wp_closeSession fun s₅ h₅ hclosed => wp_of_raise (hE e s₅ ?_)
    exact ((h₃.closes h₄).closes h₅.toCloses).drop_cons hclosed

theorem wp_useFallback {log : AttemptLog} (h : s.Pending handles)
    (hQ : ∀ response s', s'.Ended handles owner response → Q response s')
    (hE : ∀ e s', s'.Pending handles → E e s') :
    (service.useFallback owner asked log session).wp (browserHandler environment) Q E s := by
  unfold useFallback
  rw [Program.wp_bind]
  refine wp_navigateAndBuild (fun response s₁ h₁ _ => ?_) fun e s₁ h₁ => hE e s₁ (h.closes h₁)
  have hpending : s₁.Pending handles := h.closes h₁
  dsimp only
  split
  · exact wp_of_done (hQ _ s₁ (.inl hpending))
  · split
    · exact wp_of_done (hQ _ s₁ (.inl hpending))
    · rw [Program.wp_bind]
      exact wp_handoffToPrimary hpending (fun handoff s₂ h₂ => wp_of_done (hQ _ s₂ h₂)) hE

/-- The session of the fallback engine is closed after its use. -/
theorem wp_fallbackAttempt {proxy : Option String} {log : AttemptLog} (h : s.Pending handles)
    (hQ : ∀ response s', s'.Ended handles owner response → Q response s') :
    (service.fallbackAttempt owner asked proxy log).wp (browserHandler environment) Q E s := by
  unfold fallbackAttempt
  rw [Program.wp_bind, Program.wp_attempt]
  refine (isQuiet_request rfl).wp_bind (fun _ s₁ h₁ => ?_)
    fun e s₁ h₁ => wp_of_done (hQ _ s₁ (.inl (h.closes h₁.toCloses)))
  refine wp_start (h.closes h₁.toCloses) (fun session s₂ h₂ => ?_)
    fun e s₂ h₂ => wp_of_done (hQ _ s₂ (.inl h₂))
  show Program.wp _ Q E ((service.useFallback owner asked log session).attempt >>= _) s₂
  rw [Program.wp_bind, Program.wp_attempt]
  refine wp_useFallback h₂ (fun response s₃ h₃ => ?_) fun e s₃ h₃ => ?_
  · rw [Program.wp_bind]
    refine wp_closeSession fun s₄ h₄ hclosed => wp_of_done (hQ response s₄ ?_)
    exact (h₃.quiet h₄).drop_cons hclosed
  · rw [Program.wp_bind]
    refine wp_closeSession fun s₄ h₄ hclosed => wp_of_done (hQ _ s₄ (.inl ?_))
    exact (h₃.closes h₄.toCloses).drop_cons hclosed

theorem wp_openLocked (h : s.Pending handles)
    (hQ : ∀ response s', s'.Ended handles owner response → Q response s')
    (hE : ∀ e s', s'.Pending handles → E e s') :
    (service.openLocked owner asked).wp (browserHandler environment) Q E s := by
  unfold openLocked
  refine (isQuiet_request rfl).wp_bind (fun _ s₁ h₁ => ?_)
    fun e s₁ h₁ => hE e s₁ (h.closes h₁.toCloses)
  refine (isQuiet_applyHistory _).wp_bind (fun _ s₂ h₂ => ?_)
    fun e s₂ h₂ => hE e s₂ (h.closes (h₁.trans h₂).toCloses)
  refine (isQuiet_request rfl).wp_bind (fun proxy s₃ h₃ => ?_)
    fun e s₃ h₃ => hE e s₃ (h.closes ((h₁.trans h₂).trans h₃).toCloses)
  have hpending : s₃.Pending handles := h.closes ((h₁.trans h₂).trans h₃).toCloses
  rw [Program.wp_bind]
  exact wp_primaryAttempts (fun response s' h' => wp_of_done (hQ response s' h'))
    (fun log s' h' => wp_fallbackAttempt h' hQ) hE _ _ _ hpending

variable (environment service owner asked) in
theorem wp_openBrowser (h : s.Pending handles)
    (hQ : ∀ response s', s'.Ended handles owner response → Q response s')
    (hE : ∀ e s', s'.Pending handles → E e s') :
    (service.openBrowser owner asked).wp (browserHandler environment) Q E s := by
  unfold openBrowser
  refine (isQuiet_request rfl).wp_bind (fun _ s₁ h₁ => ?_)
    fun e s₁ h₁ => hE e s₁ (h.closes h₁.toCloses)
  rw [Program.wp_bind, Program.wp_attempt]
  refine wp_openLocked (h.closes h₁.toCloses) (fun response s₂ h₂ => ?_) fun e s₂ h₂ => ?_
  · exact wp_act_bind (wp_act_bind (wp_of_done (hQ response s₂ h₂)))
  · exact wp_act_bind (wp_act_bind (wp_of_raise (hE e s₂ h₂)))

end BrowserService

/-- **No session leaks.**  However the engines, the stores and the limits behave, `open` of
a request that names no session ends with every session it has started closed, up to the
handle of the record that its response names and its caller owns. -/
theorem openBrowser_leaksNothing (service : BrowserService) (environment : Handler ExternalSig ω)
    (w : ω) (records : SessionRecords) (owner : OwnerClaims) (asked : OpenRequest) :
    let (outcome, s) := (service.openBrowser owner asked).run (browserHandler environment)
      { environment := w, records }
    (∀ h ∈ s.started, h ∈ s.closed) ∨
      ∃ response record, outcome = .ok response ∧ response.sessionId = some record.sessionId ∧
        s.records.get record.sessionId = some record ∧ record.owner = owner ∧
        ∀ h ∈ s.started, h ∈ s.closed ∨ h = record.handle := by
  have hstart : Pending { environment := w, records : BrowserWorld ω } [] := fun h hh => by
    cases hh
  have hwp := BrowserService.wp_openBrowser environment service owner asked hstart
    (Q := fun response s => s.Ended [] owner response) (E := fun _ s => s.Pending [])
    (fun _ _ h => h) fun _ _ h => h
  rw [wp_iff_run] at hwp
  have hall : ∀ {s : BrowserWorld ω}, s.Pending [] → ∀ h ∈ s.started, h ∈ s.closed :=
    fun hpending h hh => (hpending h hh).resolve_right List.not_mem_nil
  rcases hrun : (service.openBrowser owner asked).run (browserHandler environment)
    { environment := w, records } with ⟨e | response, s⟩
  · exact .inl (hall (hwp.2 e s hrun))
  · rcases hwp.1 response s hrun with h | ⟨session, h, record, hid, hget, howner, rfl⟩
    · exact .inl (hall h)
    · refine .inr ⟨response, record, rfl, hid, hget, howner, fun x hx => ?_⟩
      exact (h x hx).imp_right List.mem_singleton.mp

end OpenAgency
