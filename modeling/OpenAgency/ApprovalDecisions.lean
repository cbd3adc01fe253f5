/-
ApprovalDecisions.lean

Calls that resolve one approval at the same time.

Every resolver reads the approval, sees that it is pending, looks up whether its actor may
decide, and then writes its decision without looking again.  So two of them may decide, and
what one of them applies may belong to an approval that ends rejected
(`approvals_resolvedTwice`).  The main result is `approvals_resolvedOnce`: if every decision
is written while the approval is still pending, one call decides, and what it applies it
applies once.

A call goes through phases: it has not decided, it has granted the approval and has tried
to do some things for it, or it has nothing to do for it any more.
-/
import OpenAgency.ConversationApprovals
import OpenAgency.Lib.Stages

namespace OpenAgency

open Relational Interaction Program ApprovalOp

/-- A call that resolves an approval. -/
inductive ResolverCall where
  | approve (actorUserId : String) (reason : Option String) (parameters : Option Json)
  | reject (actorUserId : String) (reason : Option String) (storeReasonAsMemory : Bool)
  | requestChanges (actorUserId : String) (reason : Option String)
  | split (actorUserId : String) (reason : Option String)

/-- The call on the approval `id`. -/
def ResolverCall.code (cfg : ApprovalSettings) (id : String) : ResolverCall → ApprovalRun Unit
  | approve actor reason parameters => approveRequest cfg id actor reason parameters
  | reject actor reason store => rejectRequest cfg id actor reason store
  | requestChanges actor reason => OpenAgency.requestChanges cfg id actor reason
  | split actor reason => splitRequest cfg id actor reason

/-- The step records a decision. -/
def ApprovalOp.decides : ApprovalOp → Bool
  | updateApproval _ patch => patch.status.isSome
  | _ => false

/-! ### The protocol of a call -/

inductive Resolving where
  | undecided
  | approved (attempted : List ApprovalEffect)
  | closed

namespace Resolving

/-- Something has been tried on behalf of the approval. -/
def attempt (effect : ApprovalEffect) : Resolving → Resolving
  | approved attempted => approved (attempted ++ [effect])
  | φ => φ

/-- The phase after a decision. -/
def decide (status : ConversationApprovalStatus)
    (answer : Except ConversationFault (Option ConversationApproval)) : Resolving :=
  match status, answer with
  | .approved, .ok (some _) => approved []
  | _, _ => closed

def after (φ : Resolving) : (o : ApprovalOp) → Except ConversationFault o.Val → Resolving
  | .updateApproval _ patch, r => patch.status.elim φ (decide · r)
  | .saveWorkflow _, _ => φ.attempt .workflow
  | .perform effect _, _ => φ.attempt effect
  | _, _ => φ

/-- What a call on the approval `x` may do in a phase. -/
def Allows (x : String) : Resolving → ApprovalOp → Prop
  | _, .aside _ | _, .getWorkflow _ _ | _, .updateMetadata _ _ => True
  | undecided, .getApproval id => id = x
  | undecided, .updateApproval id patch =>
    id = x ∧ patch.status.isSome ∧ patch.status ≠ some .pending
  | approved _, .updateApproval id patch => id = x ∧ patch.status = none
  | approved attempted, .saveWorkflow _ => .workflow ∉ attempted
  | approved attempted, .perform effect _ => effect ∉ attempted
  | closed, .saveDraft _ | closed, .createApproval _ => True
  | _, _ => False

end Resolving

/-- The approval that is answered is the one that was asked for. -/
def AnswersApproval : (o : ApprovalOp) → Except ConversationFault o.Val → Prop
  | .getApproval id, r => ∀ a, r = .ok (some a) → a.id = id
  | .updateApproval id _, r => ∀ a, r = .ok (some a) → a.id = id
  | _, _ => True

def resolvingProtocol (x : String) : Protocol ApprovalSig ResolverCall Resolving where
  start := .undecided
  next φ e := φ.after e.op e.ret
  allowed _ φ o := φ.Allows x o
  answers _ o r := AnswersApproval o r

/-! ### What the parts of a call do besides -/

section Parts

variable {may : ApprovalOp → Prop}

theorem within_askFor {o : ApprovalOp} (ho : may o) :
    (askFor o).Within (fun _ _ => True) may := ⟨ho, fun r _ => within_ofExcept r⟩

variable (hmay : ∀ o, may (.aside o))

include hmay

theorem within_appendMessage (kind : String) : (appendMessage kind).Within (fun _ _ => True) may :=
  Within.bind (within_askFor (hmay _)) fun _ => within_askFor (hmay _)

theorem within_createRequestedSchedule (cfg : ApprovalSettings) (w : CatalogWorkflow) :
    (createRequestedSchedule cfg w).Within (fun _ _ => True) may := by
  unfold createRequestedSchedule
  split
  · trivial
  · refine Within.bind (within_askFor (hmay _)) fun existing => ?_
    cases (existing : Bool) with
    | true => trivial
    | false => exact Within.rescue (within_askFor (hmay _)) fun _ => trivial

theorem within_assertMayResolve (approval : ConversationApproval) (actorUserId : String) :
    (assertMayResolve approval actorUserId).Within (fun _ _ => True) may := by
  refine Within.bind (within_askFor (hmay _)) fun conversation => ?_
  rcases (conversation : Option (Option String × Option String)) with - | ⟨owner, user⟩
  · trivial
  · dsimp only
    split <;> trivial

theorem within_steeringParameters (approval : ConversationApproval) (parameters : Option Json) :
    (steeringParameters approval parameters).Within (fun _ _ => True) may := by
  unfold steeringParameters
  split
  · split
    · exact Within.bind (within_askFor (hmay _)) fun _ => trivial
    · trivial
  · trivial

end Parts

/-! ### Every call follows it -/

section Calls

variable {x : String} {l : ResolverCall} {α β : Type} {φ : Resolving}

/-- From a phase a program keeps to the protocol. -/
abbrev Keeps (x : String) (l : ResolverCall) (Q : Resolving → Prop) (p : ApprovalRun α)
    (φ : Resolving) : Prop :=
  p.Follows (resolvingProtocol x) l (fun _ => Q) (fun _ _ => True) φ

variable {Q : β → Resolving → Prop}

theorem follows_askFor_bind {o : ApprovalOp} {f : o.Val → ApprovalRun β} (ho : φ.Allows x o)
    (hf : ∀ r, AnswersApproval o (.ok r) →
      (f r).Follows (resolvingProtocol x) l Q (fun _ _ => True) (φ.after o (.ok r))) :
    (askFor o >>= f).Follows (resolvingProtocol x) l Q (fun _ _ => True) φ := by
  refine follows_call (P := resolvingProtocol x) ho fun r hr => ?_
  rcases r with e | r
  · exact follows_raise trivial
  · exact hf r hr

/-- Asides, and readings and governance records of workflows, may occur anywhere. -/
def ApprovalOp.isAside : ApprovalOp → Prop
  | aside _ | getWorkflow _ _ | updateMetadata _ _ => True
  | _ => False

/-- The program does nothing but asides. -/
abbrev AsideOnly (p : ApprovalRun α) : Prop := p.Within (fun _ _ => True) isAside

variable {p : ApprovalRun α}

theorem AsideOnly.follows (h : AsideOnly p) :
    p.Follows (resolvingProtocol x) l (fun _ φ' => φ' = φ) (fun _ φ' => φ' = φ) φ := by
  refine follows_of_within (I := fun φ' => φ' = φ) (fun φ' o hφ ho => ?_) h rfl
  subst hφ
  cases o <;> first | exact ⟨by cases φ' <;> trivial, fun _ _ => ⟨trivial, rfl⟩⟩ | cases ho

theorem follows_aside_bind (h : AsideOnly p) {f : α → ApprovalRun β}
    (hf : ∀ a, (f a).Follows (resolvingProtocol x) l Q (fun _ _ => True) φ) :
    (p >>= f).Follows (resolvingProtocol x) l Q (fun _ _ => True) φ := by
  refine follows_bind (h.follows.mono (fun a φ' hφ => ?_) fun _ _ _ => trivial)
  rw [hφ]
  exact hf a

theorem keeps_aside (h : AsideOnly p) {Q : Resolving → Prop} (hQ : Q φ) : Keeps x l Q p φ :=
  h.follows.mono (fun _ _ hφ => hφ ▸ hQ) fun _ _ _ => trivial

theorem aside_askAside (o : ApprovalAside) : AsideOnly (askAside o) := within_askFor trivial

theorem aside_getWorkflow (reading : WorkflowReading) (id : String) :
    AsideOnly (askFor (.getWorkflow reading id)) := within_askFor trivial

theorem aside_updateMetadata (id : String) (metadata : Dict Json) :
    AsideOnly (askFor (.updateMetadata id metadata)) := within_askFor trivial

theorem aside_appendMessage (kind : String) : AsideOnly (appendMessage kind) :=
  within_appendMessage (fun _ => trivial) kind

theorem aside_syncGovernance (cfg : ApprovalSettings) (approval : ConversationApproval) :
    AsideOnly (syncGovernance cfg approval) := by
  unfold syncGovernance
  split
  · trivial
  · refine Within.bind (aside_getWorkflow _ _) fun found => ?_
    rcases (found : Option CatalogWorkflow) with - | w
    · trivial
    · dsimp only
      split
      · trivial
      · refine Within.bind (aside_getWorkflow _ _) fun again => ?_
        rcases (again : Option CatalogWorkflow) with - | w
        · trivial
        · refine Within.bind (within_ofExcept _) fun metadata => ?_
          refine Within.bind (aside_updateMetadata _ _) fun updated => ?_
          cases (updated : Bool) <;> trivial

theorem aside_storeReason (store : Bool) : AsideOnly (storeReason store) := by
  cases store with
  | false => trivial
  | true => exact aside_askAside _

theorem aside_rejectSteering (approval : ConversationApproval) :
    AsideOnly (rejectSteering approval) := by
  unfold rejectSteering
  split
  · trivial
  · split
    · trivial
    · exact aside_askAside _

/-! ### What is done for an approval that has been granted -/

/-- The approval has been granted, and nothing but these things has been tried for it. -/
def Tried (effects : List ApprovalEffect) : Resolving → Prop
  | .approved attempted => ∀ e ∈ attempted, e ∈ effects
  | _ => False

variable {effects : List ApprovalEffect}

theorem Tried.attempt (h : Tried effects φ) (e : ApprovalEffect) :
    Tried (e :: effects) (φ.attempt e) := by
  cases φ with
  | approved attempted =>
    intro e' he'
    rcases List.mem_append.mp he' with he' | he'
    · exact List.mem_cons_of_mem _ (h e' he')
    · exact List.mem_cons.mpr (.inl (List.mem_singleton.mp he'))
  | undecided => cases h
  | closed => cases h

theorem Tried.weaken (h : Tried effects φ) (e : ApprovalEffect) : Tried (e :: effects) φ := by
  cases φ with
  | approved attempted => exact fun e' he' => List.mem_cons_of_mem _ (h e' he')
  | undecided => cases h
  | closed => cases h

theorem Tried.notMem {attempted : List ApprovalEffect} (h : Tried effects (.approved attempted))
    {e : ApprovalEffect} (he : e ∉ effects) : e ∉ attempted := fun hmem => he (h e hmem)

theorem Tried.eq_approved (h : Tried effects φ) : ∃ attempted, φ = .approved attempted := by
  cases φ with
  | approved attempted => exact ⟨attempted, rfl⟩
  | undecided => cases h
  | closed => cases h

/-- Something is done for the approval that has not been tried before. -/
theorem follows_perform_bind (h : Tried effects φ) {e : ApprovalEffect} (he : e ∉ effects)
    (payload : Json) {f : String → ApprovalRun β}
    (hf : ∀ r φ', Tried (e :: effects) φ' →
      (f r).Follows (resolvingProtocol x) l Q (fun _ _ => True) φ') :
    (askFor (.perform e payload) >>= f).Follows (resolvingProtocol x) l Q (fun _ _ => True)
      φ := by
  obtain ⟨attempted, rfl⟩ := h.eq_approved
  exact follows_askFor_bind (o := .perform e payload) (h.notMem he) fun r _ =>
    hf r _ (h.attempt e)

theorem follows_saveWorkflow_bind (h : Tried effects φ) (he : .workflow ∉ effects)
    (w : CatalogWorkflow) {f : Unit → ApprovalRun β}
    (hf : ∀ φ', Tried (.workflow :: effects) φ' →
      (f ()).Follows (resolvingProtocol x) l Q (fun _ _ => True) φ') :
    (askFor (.saveWorkflow w) >>= f).Follows (resolvingProtocol x) l Q (fun _ _ => True) φ := by
  obtain ⟨attempted, rfl⟩ := h.eq_approved
  exact follows_askFor_bind (o := .saveWorkflow w) (h.notMem he) fun _ _ =>
    hf _ (h.attempt .workflow)

theorem follows_ofExcept_bind' {r : Except ConversationFault α} {f : α → ApprovalRun β}
    (hf : ∀ a, (f a).Follows (resolvingProtocol x) l Q (fun _ _ => True) φ) :
    (ofExcept r >>= f).Follows (resolvingProtocol x) l Q (fun _ _ => True) φ :=
  follows_ofExcept_bind (fun _ => trivial) fun a _ => hf a

theorem keeps_applyWorkflowMutation (cfg : ApprovalSettings) (approval : ConversationApproval)
    (h : Tried [] φ) :
    Keeps x l (Tried [.workflow]) (applyWorkflowMutation cfg approval) φ := by
  have hnot : ApprovalEffect.workflow ∉ ([] : List ApprovalEffect) := List.not_mem_nil
  unfold applyWorkflowMutation
  split
  · exact follows_done (h.weaken _)
  refine follows_ofExcept_bind' fun _ => ?_
  split
  · split
    · refine follows_ofExcept_bind' fun proposed => ?_
      refine follows_saveWorkflow_bind h hnot _ fun φ' h' => ?_
      exact keeps_aside (within_createRequestedSchedule (fun _ => trivial) _ _) h'
    · exact keeps_aside (aside_appendMessage _) (h.weaken _)
  · split
    · split
      · refine follows_aside_bind (aside_getWorkflow _ _) fun found => ?_
        rcases (found : Option CatalogWorkflow) with - | current
        · exact follows_raise trivial
        · refine follows_ofExcept_bind' fun proposed => ?_
          refine follows_saveWorkflow_bind h hnot _ fun φ' h' => ?_
          exact keeps_aside (α := Unit) (aside_askAside _) h'
      · exact keeps_aside (aside_appendMessage _) (h.weaken _)
    · exact follows_done (h.weaken _)

theorem keeps_saveProposedTool (cfg : ApprovalSettings) (approval : ConversationApproval)
    (h : Tried [.workflow] φ) :
    Keeps x l (Tried [.tool, .workflow]) (saveProposedTool cfg approval) φ := by
  unfold saveProposedTool
  split
  · refine follows_ofExcept_bind' fun tool => ?_
    exact follows_perform_bind h (by decide) _ fun _ _ h' => follows_done h'
  · exact follows_raise trivial

theorem keeps_applyToolMutation (cfg : ApprovalSettings) (approval : ConversationApproval)
    (h : Tried [.workflow] φ) :
    Keeps x l (Tried [.tool, .workflow]) (applyToolMutation cfg approval) φ := by
  unfold applyToolMutation
  split
  · exact follows_done (h.weaken _)
  refine follows_ofExcept_bind' fun _ => ?_
  split
  · split
    · exact keeps_saveProposedTool cfg approval h
    · exact keeps_aside (aside_appendMessage _) (h.weaken _)
  · split
    · split
      · refine follows_aside_bind (aside_askAside _) fun current => ?_
        rcases (current : Option String) with - | current
        · exact follows_raise trivial
        · exact keeps_saveProposedTool cfg approval h
      · exact keeps_aside (aside_appendMessage _) (h.weaken _)
    · exact follows_done (h.weaken _)

theorem keeps_applyAgentMutation (cfg : ApprovalSettings) (approval : ConversationApproval)
    (h : Tried [.tool, .workflow] φ) :
    Keeps x l (Tried [.agent, .tool, .workflow]) (applyAgentMutation cfg approval) φ := by
  unfold applyAgentMutation
  split
  · exact follows_done (h.weaken _)
  refine follows_aside_bind (aside_askAside _) fun current => ?_
  cases (current : Bool) with
  | false => exact follows_raise trivial
  | true =>
    refine follows_ofExcept_bind' fun agent => ?_
    refine follows_perform_bind h (by decide) _ fun _ _ h' => ?_
    exact keeps_aside (α := Unit) (aside_askAside _) h'

theorem keeps_applySteering (approval : ConversationApproval)
    (h : Tried [.agent, .tool, .workflow] φ) :
    Keeps x l (Tried [.steering, .agent, .tool, .workflow]) (applySteering approval) φ := by
  unfold applySteering
  split
  · exact follows_done (h.weaken _)
  split
  · exact follows_done (h.weaken _)
  · refine follows_aside_bind (aside_askAside _) fun execution => ?_
    rcases (execution : Option (Option String)) with - | execution
    · exact follows_done (h.weaken _)
    · refine follows_perform_bind h (by decide) _ fun _ _ h' => ?_
      refine follows_aside_bind (aside_askAside _) fun _ => ?_
      exact keeps_aside (α := Unit) (aside_askAside _) h'

theorem keeps_launchExecution (approval : ConversationApproval) (w : CatalogWorkflow)
    (h : Tried [.steering, .agent, .tool, .workflow] φ) :
    Keeps x l (Tried [.launch, .execution, .steering, .agent, .tool, .workflow])
      (launchExecution approval w) φ := by
  unfold launchExecution
  refine follows_aside_bind (aside_askAside _) fun channel => ?_
  rcases (channel : Option String) with - | channel
  · exact follows_raise trivial
  refine follows_perform_bind h (by decide) _ fun execution _ h' => ?_
  refine follows_aside_bind (aside_askAside _) fun _ => ?_
  refine follows_perform_bind h' (by decide) _ fun _ _ h'' => ?_
  refine follows_aside_bind (aside_askAside _) fun _ => ?_
  refine follows_aside_bind (aside_appendMessage _) fun _ => ?_
  refine follows_aside_bind (aside_askAside _) fun _ => ?_
  exact follows_done h''

variable {approval : ConversationApproval}

/-- The approval itself is only given other metadata. -/
theorem follows_updateMetadata_bind (h : Tried effects φ) (hid : approval.id = x)
    (metadata : Dict Json) {f : Option ConversationApproval → ApprovalRun β}
    (hf : ∀ r, (f r).Follows (resolvingProtocol x) l Q (fun _ _ => True) φ) :
    (askFor (.updateApproval approval.id { metadata := some metadata }) >>= f).Follows
      (resolvingProtocol x) l Q (fun _ _ => True) φ := by
  obtain ⟨attempted, rfl⟩ := h.eq_approved
  exact follows_askFor_bind (o := .updateApproval approval.id { metadata := some metadata })
    ⟨hid, rfl⟩ fun r _ => hf r

theorem keeps_launchExecutionFromApproval (hid : approval.id = x)
    (h : Tried [.steering, .agent, .tool, .workflow] φ) :
    Keeps x l (Tried [.launch, .execution, .steering, .agent, .tool, .workflow])
      (launchExecutionFromApproval approval) φ := by
  have hdone : Tried [.launch, .execution, .steering, .agent, .tool, .workflow] φ :=
    (h.weaken _).weaken _
  unfold launchExecutionFromApproval
  split
  · exact follows_done hdone
  split
  · exact follows_aside_bind (aside_askAside _) fun _ => follows_done hdone
  split
  · split
    · exact follows_done hdone
    refine follows_aside_bind (aside_getWorkflow _ _) fun found => ?_
    rcases (found : Option CatalogWorkflow) with - | w
    · exact follows_raise trivial
    refine follows_aside_bind (aside_askAside _) fun _ => ?_
    refine follows_bind ((keeps_launchExecution approval w h).mono (fun execution φ' h' => ?_)
      fun _ _ h => h)
    exact follows_updateMetadata_bind h' hid _ fun _ => follows_done h'
  · split
    · exact follows_raise trivial
    · exact follows_done hdone

theorem keeps_executeToolFromApproval (approval : ConversationApproval)
    (h : Tried [.launch, .execution, .steering, .agent, .tool, .workflow] φ) :
    Keeps x l (fun _ => True) (executeToolFromApproval approval) φ := by
  unfold executeToolFromApproval
  split
  · exact follows_done trivial
  split
  · split
    · exact follows_done trivial
    refine follows_aside_bind (aside_askAside _) fun found => ?_
    rcases (found : Option String) with - | found
    · exact keeps_aside (aside_appendMessage _) trivial
    refine follows_aside_bind (aside_appendMessage _) fun _ => ?_
    -- An error of the tool is caught.
    have hcaught : Keeps x l (fun _ => True) (rescue (do
        let _ ← askFor (.perform .toolRun (approval.payload.getJson "arguments"))
        done ()) fun _ => done ()) φ := by
      refine follows_bind (follows_attempt ?_)
      obtain ⟨attempted, rfl⟩ := h.eq_approved
      refine follows_call (P := resolvingProtocol x) (h.notMem (by decide)) fun r _ => ?_
      have hdone : ∀ φ', Keeps x l (fun _ => True) (done () : ApprovalRun Unit) φ' :=
        fun _ => follows_done trivial
      rcases r with e | r
      · exact follows_raise (hdone _)
      · exact follows_done (hdone _)
    refine follows_bind (hcaught.mono (fun _ φ' _ => ?_) fun _ _ h => h)
    refine follows_aside_bind (aside_appendMessage _) fun _ => ?_
    refine follows_aside_bind (aside_askAside _) fun _ => ?_
    exact keeps_aside (α := Unit) (aside_askAside _) trivial
  · split
    · exact keeps_aside (aside_appendMessage _) trivial
    · exact follows_done trivial

theorem keeps_applyApproval (cfg : ApprovalSettings) {resolved : ConversationApproval}
    (hid : resolved.id = x) (h : Tried [] φ) :
    Keeps x l (fun _ => True) (applyApproval cfg resolved) φ := by
  unfold applyApproval
  refine follows_aside_bind (aside_appendMessage _) fun _ => ?_
  refine follows_bind ((keeps_applyWorkflowMutation cfg resolved h).mono (fun _ φ₁ h₁ => ?_)
    fun _ _ h => h)
  refine follows_bind ((keeps_applyToolMutation cfg resolved h₁).mono (fun _ φ₂ h₂ => ?_)
    fun _ _ h => h)
  refine follows_bind ((keeps_applyAgentMutation cfg resolved h₂).mono (fun _ φ₃ h₃ => ?_)
    fun _ _ h => h)
  refine follows_bind ((keeps_applySteering resolved h₃).mono (fun _ φ₄ h₄ => ?_)
    fun _ _ h => h)
  refine follows_aside_bind (aside_syncGovernance _ _) fun _ => ?_
  refine follows_bind ((keeps_launchExecutionFromApproval hid h₄).mono (fun _ φ₅ h₅ => ?_)
    fun _ _ h => h)
  refine follows_bind ((keeps_executeToolFromApproval resolved h₅).mono (fun _ φ₆ _ => ?_)
    fun _ _ h => h)
  exact keeps_aside (α := Unit) (aside_askAside _) trivial

/-! ### The calls -/

variable {f : ConversationApproval → ApprovalRun β}

theorem follows_pendingApproval_bind {actorUserId : String}
    (hf : ∀ approval : ConversationApproval, approval.id = x →
      (f approval).Follows (resolvingProtocol x) l Q (fun _ _ => True) .undecided) :
    (pendingApproval x actorUserId >>= f).Follows (resolvingProtocol x) l Q (fun _ _ => True)
      .undecided := by
  unfold pendingApproval
  rw [bind_assoc]
  refine follows_askFor_bind (o := .getApproval x) rfl fun found hfound => ?_
  rcases (found : Option ConversationApproval) with - | approval
  · exact follows_raise trivial
  have hid : approval.id = x := hfound approval rfl
  by_cases hstatus : approval.status = .pending
  · have hnot : ¬ approval.status ≠ .pending := not_not.mpr hstatus
    simp only [if_neg hnot, bind_assoc]
    exact follows_aside_bind (within_assertMayResolve (fun _ => trivial) _ _) fun _ => hf approval hid
  · simp only [ne_eq, hstatus, not_false_eq_true, if_true]
    exact follows_raise trivial

/-- A decision is recorded: the approval has been granted, or the call has nothing to do
for it any more. -/
theorem follows_recordDecision_bind (hid : approval.id = x) {patch : ApprovalPatch}
    {status : ConversationApprovalStatus} (hpatch : patch.status = some status)
    (hstatus : status ≠ .pending)
    (hf : ∀ (resolved : ConversationApproval) φ, resolved.id = x → (status = .approved →
      Tried [] φ) → (status ≠ .approved → φ = .closed) →
      (f resolved).Follows (resolvingProtocol x) l Q (fun _ _ => True) φ) :
    (recordDecision approval patch >>= f).Follows (resolvingProtocol x) l Q (fun _ _ => True)
      .undecided := by
  unfold recordDecision
  rw [bind_assoc]
  refine follows_askFor_bind (o := .updateApproval approval.id patch)
    ⟨hid, by rw [hpatch]; rfl, by simpa [hpatch] using hstatus⟩ fun answer hanswer => ?_
  have hafter : Resolving.undecided.after (.updateApproval approval.id patch) (.ok answer)
      = Resolving.decide status (.ok answer) := by
    simp only [Resolving.after, hpatch, Option.elim_some]
  rw [hafter]
  rcases (answer : Option ConversationApproval) with - | resolved
  · exact follows_raise trivial
  refine hf resolved _ ((hanswer resolved rfl).trans hid) (fun h => ?_) fun h => ?_
  · subst h
    exact fun e he => absurd he List.not_mem_nil
  · cases status <;> first | rfl | exact absurd rfl h

theorem follows_approveRequest (cfg : ApprovalSettings) (actorUserId : String)
    (reason : Option String) (parameters : Option Json) :
    Keeps x l (fun _ => True) (approveRequest cfg x actorUserId reason parameters)
      .undecided := by
  refine follows_pendingApproval_bind fun approval hid => ?_
  refine follows_aside_bind (within_steeringParameters (fun _ => trivial) _ _) fun clean => ?_
  refine follows_recordDecision_bind hid rfl (by decide) fun resolved φ hid' happroved _ => ?_
  exact keeps_applyApproval cfg hid' (happroved rfl)

theorem follows_rejectRequest (cfg : ApprovalSettings) (actorUserId : String)
    (reason : Option String) (store : Bool) :
    Keeps x l (fun _ => True) (rejectRequest cfg x actorUserId reason store) .undecided := by
  refine follows_pendingApproval_bind fun approval hid => ?_
  refine follows_recordDecision_bind hid rfl (by decide) fun resolved φ _ _ hclosed => ?_
  obtain rfl := hclosed (by decide)
  refine follows_aside_bind (aside_storeReason _) fun _ => ?_
  refine follows_aside_bind (aside_rejectSteering _) fun _ => ?_
  have hdraft : Keeps x l (fun φ => φ = .closed) (persistRejectedDraft cfg resolved)
      .closed := by
    unfold persistRejectedDraft
    split
    · exact follows_done rfl
    · refine follows_ofExcept_bind' fun proposed => ?_
      refine follows_call (P := resolvingProtocol x) trivial fun r _ => ?_
      rcases r with e | r
      · exact follows_raise trivial
      · exact follows_done rfl
  refine follows_bind (hdraft.mono (fun _ φ hφ => ?_) fun _ _ h => h)
  refine follows_aside_bind (aside_syncGovernance _ _) fun _ => ?_
  refine follows_aside_bind (aside_appendMessage _) fun _ => ?_
  exact keeps_aside (α := Unit) (aside_askAside _) trivial

theorem follows_requestChanges (cfg : ApprovalSettings) (actorUserId : String)
    (reason : Option String) :
    Keeps x l (fun _ => True) (requestChanges cfg x actorUserId reason) .undecided := by
  refine follows_pendingApproval_bind fun approval hid => ?_
  refine follows_ofExcept_bind' fun requests => ?_
  refine follows_recordDecision_bind hid rfl (by decide) fun resolved φ _ _ _ => ?_
  refine follows_aside_bind (aside_appendMessage _) fun _ => ?_
  exact keeps_aside (α := Unit) (aside_askAside _) trivial

theorem follows_splitRequest (cfg : ApprovalSettings) (actorUserId : String)
    (reason : Option String) :
    Keeps x l (fun _ => True) (splitRequest cfg x actorUserId reason) .undecided := by
  refine follows_pendingApproval_bind fun approval hid => ?_
  dsimp only
  split
  · exact follows_raise trivial
  refine follows_recordDecision_bind hid rfl (by decide) fun resolved φ _ _ hclosed => ?_
  obtain rfl := hclosed (by decide)
  -- Each part becomes an approval of its own.
  refine follows_bind ((follows_collect (I := fun φ => φ = .closed) (fun part _ φ hφ => ?_)
    rfl).mono (fun _ φ hφ => ?_) fun _ _ h => h)
  · subst hφ
    refine follows_aside_bind (aside_askAside _) fun childId => ?_
    refine follows_askFor_bind (o := .createApproval _) trivial fun _ _ => ?_
    refine follows_aside_bind (aside_appendMessage _) fun _ => ?_
    refine follows_aside_bind (aside_askAside _) fun _ => ?_
    exact follows_done rfl
  · refine follows_aside_bind (aside_appendMessage _) fun _ => ?_
    exact keeps_aside (α := Unit) (aside_askAside _) trivial

/-- **Every call keeps to the protocol.** -/
theorem follows_resolverCall (cfg : ApprovalSettings) (call : ResolverCall) :
    Keeps x call (fun _ => True) (call.code cfg x) .undecided := by
  cases call with
  | approve actor reason parameters => exact follows_approveRequest cfg actor reason parameters
  | reject actor reason store => exact follows_rejectRequest cfg actor reason store
  | requestChanges actor reason => exact follows_requestChanges cfg actor reason
  | split actor reason => exact follows_splitRequest cfg actor reason

end Calls

/-! ### One step -/

section Steps

variable {ω : Type} {env : ApprovalEnvironment ω} {x : String} {s s' : ApprovalWorld ω}

/-- What holds throughout: the approval is there; while it is pending no decision has been
recorded and nothing has been done; what has been done belongs to a granted approval. -/
structure ResolvedOnce (x : String) (s : ApprovalWorld ω) : Prop where
  stored : ∃ a, s.approvals.get x = some a ∧
    (a.status = .pending → s.decisions = 0 ∧ s.effects = []) ∧
    (s.effects ≠ [] → a.status = .approved)
  decisions : s.decisions ≤ 1
  effects : s.effects.Nodup

/-- The call that has granted the approval has tried all that has been done for it. -/
def Granting (x : String) (s : ApprovalWorld ω) : Resolving → Prop
  | .approved attempted => attempted.Nodup ∧ s.effects.Sublist attempted ∧
      ∃ a, s.approvals.get x = some a ∧ a.status = .approved
  | _ => True

def Resolving.isApproved : Resolving → Bool
  | approved _ => true
  | _ => false

/-- Nothing has happened to the approval. -/
structure Unmoved (x : String) (s s' : ApprovalWorld ω) : Prop where
  approvals : s'.approvals.get x = s.approvals.get x
  decisions : s'.decisions = s.decisions
  effects : s'.effects = s.effects

theorem Unmoved.resolvedOnce (h : Unmoved x s s') (hs : ResolvedOnce x s) : ResolvedOnce x s' := by
  refine ⟨?_, h.decisions ▸ hs.decisions, h.effects ▸ hs.effects⟩
  rw [h.approvals, h.decisions, h.effects]
  exact hs.stored

variable {φ : Resolving}

theorem Unmoved.granting (h : Unmoved x s s') (hφ : Granting x s φ) : Granting x s' φ := by
  cases φ with
  | approved attempted =>
    unfold Granting
    rw [h.approvals, h.effects]
    exact hφ
  | undecided => trivial
  | closed => trivial

/-- The calls together. -/
abbrev Resolved (x : String) : ApprovalWorld ω → List (ResolverCall × Resolving) → Prop :=
  Pool.Together (ResolvedOnce x) (fun s _ φ => Granting x s φ)
    fun _ φ ψ => ¬ (φ.isApproved ∧ ψ.isApproved)

variable (x env) in
/-- The state after a step that fails before its effect. -/
theorem handler_cases (o : ApprovalOp) (s : ApprovalWorld ω) :
    Unmoved x s (approvalHandler env o s).2 ∧ (∃ e, (approvalHandler env o s).1 = .error e) ∨
      ∃ environment, (approvalHandler env o s).2 = (o.exec env { s with environment }).2 ∧
        ((approvalHandler env o s).1 = .ok (o.exec env { s with environment }).1 ∨
          ∃ e, (approvalHandler env o s).1 = .error e) := by
  unfold approvalHandler
  rcases hfault : env.fault o s.environment with ⟨fault, environment⟩
  cases fault with
  | none => exact .inr ⟨environment, rfl, .inl rfl⟩
  | before e => exact .inl ⟨⟨rfl, rfl, rfl⟩, e, rfl⟩
  | after e => exact .inr ⟨environment, rfl, .inr ⟨e, rfl⟩⟩

theorem unmoved_environment (environment : ω) : Unmoved x s { s with environment } :=
  ⟨rfl, rfl, rfl⟩

theorem Unmoved.trans {s'' : ApprovalWorld ω} (h : Unmoved x s s') (h' : Unmoved x s' s'') :
    Unmoved x s s'' :=
  ⟨h'.approvals.trans h.approvals, h'.decisions.trans h.decisions, h'.effects.trans h.effects⟩

/-- The answers are those of the protocol. -/
theorem answersApproval_handler (x : String) (o : ApprovalOp) (s : ApprovalWorld ω) :
    AnswersApproval o (approvalHandler env o s).1 := by
  have hkey : ∀ {id : String} {a : ConversationApproval}, s.approvals.get id = some a → a.id = id :=
    fun h => Catalog.key_of_get h
  rcases handler_cases env x o s with ⟨-, e, he⟩ | ⟨environment, -, hok | ⟨e, he⟩⟩
  · rw [he]
    cases o <;> first | trivial | exact fun a ha => by cases ha
  · rw [hok]
    cases o with
    | getApproval id =>
      intro a ha
      exact hkey (Except.ok.inj ha)
    | updateApproval id patch =>
      intro a ha
      simp only [exec] at ha
      rcases hget : s.approvals.get id with - | stored
      · rw [hget] at ha
        cases ha
      · rw [hget] at ha
        cases ha
        have hid : stored.id = id := hkey hget
        exact hid
    | _ => trivial
  · rw [he]
    cases o <;> first | trivial | exact fun a ha => by cases ha

variable {ps : List (ResolverCall × Resolving)} {l : ResolverCall}

variable {i : ℕ}

/-- A step of one call, if it leaves what the others rely on. -/
theorem resolved_step_of {φ φ' : Resolving} (h : Resolved x s ps) (hi : ps[i]? = some (l, φ))
    (hs' : ResolvedOnce x s') (hφ' : Granting x s' φ')
    (hothers : ∀ ψ, Granting x s ψ → ¬ (φ.isApproved ∧ ψ.isApproved) →
      Granting x s' ψ ∧ ¬ (φ'.isApproved ∧ ψ.isApproved)) :
    Resolved x s' (ps.set i (l, φ')) := by
  refine h.step hi hs' hφ' (fun j l' ψ _ _ hψ hφψ _ => ?_) fun _ _ _ _ h => h
  obtain ⟨hψ', hboth⟩ := hothers ψ hψ hφψ
  exact ⟨hψ', hboth, fun h => hboth ⟨h.2, h.1⟩⟩

/-- A step that leaves the approval as it is. -/
theorem Unmoved.resolved {φ φ' : Resolving} (h : Unmoved x s s') (hJ : Resolved x s ps)
    (hi : ps[i]? = some (l, φ)) (hφ' : Granting x s φ') (hkind : φ'.isApproved → φ.isApproved) :
    Resolved x s' (ps.set i (l, φ')) := by
  refine resolved_step_of hJ hi (h.resolvedOnce hJ.sharedState) (h.granting hφ') fun ψ hψ hφψ => ?_
  exact ⟨h.granting hψ, fun hboth => hφψ ⟨hkind hboth.1, hboth.2⟩⟩

variable {attempted : List ApprovalEffect}

/-- Something is tried for the approval, whether or not it is done. -/
theorem Granting.attempt {e : ApprovalEffect} (h : Granting x s (.approved attempted))
    (he : e ∉ attempted) :
    Granting x s (.approved (attempted ++ [e])) := by
  obtain ⟨hnodup, hsub, hstatus⟩ := h
  refine ⟨?_, hsub.trans (List.sublist_append_left _ _), hstatus⟩
  exact List.nodup_append.mpr ⟨hnodup, List.nodup_singleton e,
    fun a ha b hb hab => he (List.mem_singleton.mp hb ▸ hab ▸ ha)⟩

/-- Something is done for the approval. -/
theorem resolved_effect {e : ApprovalEffect} (hJ : Resolved x s ps)
    (hi : ps[i]? = some (l, .approved attempted)) (he : e ∉ attempted)
    (happrovals : s'.approvals.get x = s.approvals.get x) (hdecisions : s'.decisions = s.decisions)
    (heffects : s'.effects = s.effects ++ [e]) :
    Resolved x s' (ps.set i (l, .approved (attempted ++ [e]))) := by
  have hone : Granting x s (.approved attempted) := hJ.each hi
  obtain ⟨-, hsub, a, hget, hstatus⟩ := id hone
  have hnew : Granting x s' (.approved (attempted ++ [e])) := by
    refine ⟨(Granting.attempt hone he).1, ?_, a, happrovals.trans hget, hstatus⟩
    rw [heffects]
    exact hsub.append (List.Sublist.refl [e])
  refine resolved_step_of hJ hi ⟨⟨a, happrovals.trans hget, fun h => ?_, fun _ => hstatus⟩,
    hdecisions ▸ hJ.sharedState.decisions, hnew.1.sublist hnew.2.1⟩ hnew fun ψ _ hboth => ?_
  · rw [hstatus] at h
    cases h
  · cases ψ with
    | approved other => exact absurd ⟨rfl, rfl⟩ hboth
    | undecided => exact ⟨trivial, fun h => by cases h.2⟩
    | closed => exact ⟨trivial, fun h => by cases h.2⟩

variable {a a' : ConversationApproval}

/-- A decision that is recorded while the approval is pending. -/
theorem resolved_decision {φ' : Resolving} (hJ : Resolved x s ps)
    (hi : ps[i]? = some (l, .undecided)) (hget : s.approvals.get x = some a)
    (hpending : a.status = .pending) (hget' : s'.approvals.get x = some a')
    (hdecided : a'.status ≠ .pending) (hdecisions : s'.decisions = s.decisions + 1)
    (heffects : s'.effects = s.effects)
    (hφ' : φ' = .closed ∨ φ' = .approved [] ∧ a'.status = .approved) :
    Resolved x s' (ps.set i (l, φ')) := by
  obtain ⟨a₀, hget₀, hfresh, -⟩ := hJ.sharedState.stored
  obtain rfl : a = a₀ := Option.some.inj (hget.symm.trans hget₀)
  obtain ⟨hzero, hnil⟩ := hfresh hpending
  have hs' : ResolvedOnce x s' := by
    refine ⟨⟨a', hget', fun h => absurd h hdecided, fun h => ?_⟩, by omega, ?_⟩
    · exact absurd (heffects.trans hnil) h
    · rw [heffects, hnil]
      exact List.nodup_nil
  have hgranting : Granting x s' φ' := by
    rcases hφ' with rfl | ⟨rfl, hstatus⟩
    · trivial
    · refine ⟨List.nodup_nil, ?_, a', hget', hstatus⟩
      rw [heffects, hnil]
  refine resolved_step_of hJ hi hs' hgranting fun ψ hψ _ => ?_
  -- No other call has granted an approval that is pending.
  cases ψ with
  | approved other =>
    obtain ⟨-, -, b, hb, hstatus⟩ := hψ
    obtain rfl : a = b := Option.some.inj (hget.symm.trans hb)
    rw [hpending] at hstatus
    cases hstatus
  | undecided => exact ⟨trivial, fun h => by cases h.2⟩
  | closed => exact ⟨trivial, fun h => by cases h.2⟩

/-- Metadata given to the granted approval. -/
theorem resolved_updateMetadata (hJ : Resolved x s ps) (hi : ps[i]? = some (l, φ))
    (hget : s.approvals.get x = some a) (hget' : s'.approvals.get x = some a')
    (hstatus : a'.status = a.status) (hdecisions : s'.decisions = s.decisions)
    (heffects : s'.effects = s.effects) :
    Resolved x s' (ps.set i (l, φ)) := by
  have hgranting : ∀ ψ, Granting x s ψ → Granting x s' ψ := by
    intro ψ hψ
    cases ψ with
    | approved attempted =>
      obtain ⟨hnodup, hsub, b, hb, hb'⟩ := hψ
      obtain rfl : a = b := Option.some.inj (hget.symm.trans hb)
      exact ⟨hnodup, heffects ▸ hsub, a', hget', hstatus.trans hb'⟩
    | undecided => trivial
    | closed => trivial
  obtain ⟨a₀, hget₀, hfresh, hdone⟩ := hJ.sharedState.stored
  obtain rfl : a = a₀ := Option.some.inj (hget.symm.trans hget₀)
  refine resolved_step_of hJ hi ⟨⟨a', hget', ?_, ?_⟩, ?_, ?_⟩ (hgranting φ (hJ.each hi))
    fun ψ hψ hboth => ⟨hgranting ψ hψ, hboth⟩
  · rw [hstatus, hdecisions, heffects]
    exact hfresh
  · rw [hstatus, heffects]
    exact hdone
  · rw [hdecisions]
    exact hJ.sharedState.decisions
  · rw [heffects]
    exact hJ.sharedState.effects

variable (env) in
/-- What a merge does to the approval that is stored. -/
theorem exec_updateApproval {a : ConversationApproval} (hget : s.approvals.get x = some a)
    (patch : ApprovalPatch) :
    (exec env (.updateApproval x patch) s).1 = some (a.merge patch) ∧
      (exec env (.updateApproval x patch) s).2.approvals.get x = some (a.merge patch) ∧
      (exec env (.updateApproval x patch) s).2.decisions
        = (if patch.status.isSome then s.decisions + 1 else s.decisions) ∧
      (exec env (.updateApproval x patch) s).2.effects = s.effects := by
  have hid : (a.merge patch).id = x := Catalog.key_of_get (r := a) hget
  simp only [exec, hget]
  refine ⟨trivial, ?_, trivial, trivial⟩
  rw [← hid]
  exact Catalog.get_put_self _ _

variable {o : ApprovalOp}

variable (env) in
/-- Steps that neither decide nor do anything leave the approval as it is. -/
theorem exec_unmoved {a : ConversationApproval} (hget : s.approvals.get x = some a)
    (ho : match o with | .updateApproval _ _ | .saveWorkflow _ | .perform _ _ => False | _ => True)
      :
    Unmoved x s (o.exec env s).2 := by
  cases o with
  | getApproval | getWorkflow | saveDraft | aside => exact ⟨rfl, rfl, rfl⟩
  | updateMetadata id metadata =>
    simp only [exec]
    split <;> exact ⟨rfl, rfl, rfl⟩
  | createApproval child =>
    simp only [exec]
    split
    · exact ⟨rfl, rfl, rfl⟩
    next hnone =>
      refine ⟨Catalog.get_put_ne fun hid => hnone ?_, rfl, rfl⟩
      rw [← hid, hget]
      rfl
  | updateApproval | saveWorkflow | perform => cases ho

/-- The phase after a step that has failed, or that does not decide. -/
theorem Granting.after {r : Except ConversationFault o.Val} (h : Granting x s φ) (ho : φ.Allows x o)
    (hnot : (∃ e, r = .error e) ∨ o.decides = false) :
    Granting x s (φ.after o r) ∧ ((φ.after o r).isApproved → φ.isApproved) := by
  have hattempt : ∀ e, (∀ attempted, φ = .approved attempted → e ∉ attempted) →
      Granting x s (φ.attempt e) ∧ ((φ.attempt e).isApproved → φ.isApproved) := by
    intro e he
    cases φ with
    | approved attempted => exact ⟨Granting.attempt h (he attempted rfl), fun _ => rfl⟩
    | undecided => exact ⟨trivial, id⟩
    | closed => exact ⟨trivial, id⟩
  cases o with
  | updateApproval id patch =>
    rcases hpatch : patch.status with - | status
    · simp only [Resolving.after, hpatch, Option.elim_none]
      exact ⟨h, fun h => h⟩
    · rcases hnot with ⟨e, rfl⟩ | hnot
      · have hclosed : Resolving.decide status (.error e) = .closed := by cases status <;> rfl
        simp only [Resolving.after, hpatch, Option.elim_some, hclosed]
        exact ⟨trivial, fun h => by cases h⟩
      · rw [decides, hpatch] at hnot
        cases hnot
  | saveWorkflow w =>
    refine hattempt .workflow fun attempted hφ => ?_
    subst hφ
    exact ho
  | perform e payload =>
    refine hattempt e fun attempted hφ => ?_
    subst hφ
    exact ho
  | _ => exact ⟨h, id⟩

/-- **One step** of a call that decides only while the approval is pending. -/
theorem resolved_step (hJ : Resolved x s ps) (hi : ps[i]? = some (l, φ))
    (hcond : o.decides = true → ∀ a, s.approvals.get x = some a → a.status = .pending)
    (ho : φ.Allows x o) :
    Resolved x (approvalHandler env o s).2
      (ps.set i (l, φ.after o (approvalHandler env o s).1)) := by
  obtain ⟨a, hget, -⟩ := hJ.sharedState.stored
  have hφ : Granting x s φ := hJ.each hi
  rcases handler_cases env x o s with ⟨hunmoved, e, he⟩ | ⟨environment, hexec, hr⟩
  · -- The step has failed before its effect.
    rw [he]
    obtain ⟨hgranting, hkind⟩ := hφ.after ho (r := .error e) (.inl ⟨e, rfl⟩)
    exact hunmoved.resolved hJ hi hgranting hkind
  rw [hexec]
  have hsame : o.decides = false → Unmoved x s (o.exec env { s with environment }).2 →
      Resolved x (o.exec env { s with environment }).2
        (ps.set i (l, φ.after o (approvalHandler env o s).1)) := fun hnot hunmoved => by
    obtain ⟨hgranting, hkind⟩ := hφ.after ho (r := (approvalHandler env o s).1) (.inr hnot)
    exact hunmoved.resolved hJ hi hgranting hkind
  have hunmoved : ∀ {o' : ApprovalOp}, o' = o → (match o' with
      | .updateApproval _ _ | .saveWorkflow _ | .perform _ _ => False
      | _ => True) → Unmoved x s (o.exec env { s with environment }).2 := by
    rintro o' rfl ho'
    exact (unmoved_environment environment).trans
      (exec_unmoved env (s := { s with environment }) hget ho')
  cases o with
  | getApproval | getWorkflow | saveDraft | aside | updateMetadata | createApproval =>
    exact hsame rfl (hunmoved rfl trivial)
  | saveWorkflow w =>
    cases φ with
    | approved attempted => exact resolved_effect hJ hi ho rfl rfl rfl
    | undecided => cases ho
    | closed => cases ho
  | perform e payload =>
    cases φ with
    | approved attempted => exact resolved_effect hJ hi ho rfl rfl rfl
    | undecided => cases ho
    | closed => cases ho
  | updateApproval id patch =>
    cases φ with
    | closed => cases ho
    | approved attempted =>
      obtain ⟨rfl, hstatus⟩ := ho
      obtain ⟨-, hget', hdecisions, heffects⟩ := exec_updateApproval
        env (s := { s with environment }) hget patch
      simp only [Resolving.after, hstatus, Option.elim_none]
      refine resolved_updateMetadata hJ hi hget hget' ?_ ?_ heffects
      · simp [ConversationApproval.merge, hstatus]
      · rw [hdecisions, hstatus]
        rfl
    | undecided =>
      obtain ⟨rfl, hsome, hne⟩ := ho
      obtain ⟨status, hstatus⟩ := Option.isSome_iff_exists.mp hsome
      obtain ⟨hanswer, hget', hdecisions, heffects⟩ := exec_updateApproval
        env (s := { s with environment }) hget patch
      have hmerged : (a.merge patch).status = status := by
        simp [ConversationApproval.merge, hstatus]
      simp only [Resolving.after, hstatus, Option.elim_some]
      refine resolved_decision hJ hi hget (hcond ?_ a hget) hget' ?_ ?_ heffects ?_
      · exact hsome
      · rw [hmerged]
        exact fun h => hne (h ▸ hstatus)
      · rw [hdecisions, if_pos hsome]
      · rcases hr with hr | ⟨e, hr⟩
        · rw [hr, hanswer]
          by_cases happroved : status = .approved
          · subst happroved
            exact .inr ⟨rfl, hmerged⟩
          · refine .inl ?_
            cases status <;> first | rfl | exact absurd rfl happroved
        · rw [hr]
          refine .inl ?_
          cases status <;> rfl

end Steps

/-! ### Every run -/

/-- A decision is only written over an approval that is pending. -/
def DecidesPending {ω : Type} (x : String)
    (q : Pool ApprovalSig ResolverCall (ApprovalWorld ω) ConversationFault Unit) (_ : ℕ)
    (o : ApprovalOp) : Prop :=
  o.decides = true → ∀ a, q.shared.approvals.get x = some a → a.status = .pending

/-- **An approval is resolved once.**  Let any number of calls resolve the approval `x`,
step by step in any order, each step raising as it likes.  If every decision is written
while the approval is pending, then in every state reached at most one decision has been
recorded, nothing has been done twice, and if anything has been done the approval that is
stored is the granted one. -/
theorem approvals_resolvedOnce {ω : Type} (cfg : ApprovalSettings) (env : ApprovalEnvironment ω)
    (x : String) (w : ω) (approvals : ConversationApprovals) (workflows : WorkflowRecords)
    (approval : ConversationApproval) (hstored : approvals.get x = some approval)
    {q : Pool ApprovalSig ResolverCall (ApprovalWorld ω) ConversationFault Unit}
    (hrun : Pool.Runs (ResolverCall.code cfg x) (approvalHandler env)
      (Pool.Where (DecidesPending x)) ⟨{ environment := w, approvals, workflows }, [], []⟩ q) :
    q.shared.decisions ≤ 1 ∧ q.shared.effects.Nodup ∧
      ∀ a, q.shared.approvals.get x = some a → q.shared.effects ≠ [] → a.status = .approved := by
  have hnil : Resolved x ({ environment := w, approvals, workflows } : ApprovalWorld ω) [] :=
    Pool.Together.nil ⟨⟨approval, hstored, fun _ => ⟨rfl, rfl⟩, fun h => absurd rfl h⟩,
      Nat.zero_le 1, List.nodup_nil⟩
  have hstart : ∀ (s : ApprovalWorld ω) ps l, Resolved x s ps →
      Resolved x s (ps ++ [(l, .undecided)]) := fun s ps l h =>
    h.start trivial fun ψ => ⟨fun hboth => (by cases hboth.1), fun hboth => by cases hboth.2⟩
  have hstaged : Pool.Runs (ResolverCall.code cfg x) (approvalHandler env)
      (Pool.Staged (resolvingProtocol x) fun s _ _ o => o.decides = true →
        ∀ a, s.approvals.get x = some a → a.status = .pending)
      ⟨{ environment := w, approvals, workflows }, [], []⟩ q := hrun
  obtain ⟨hJ, -⟩ := Pool.Runs.staged (P := resolvingProtocol x) (J := Resolved x)
    (Q := fun _ _ _ => True) (E := fun _ _ _ => True) (follows_resolverCall cfg) hstart
    (fun s ps i l φ o hJ hi hcond ho =>
      ⟨answersApproval_handler x o s, resolved_step hJ hi hcond ho⟩) hnil hstaged
  obtain ⟨⟨a, hget, -, hdone⟩, hdecisions, heffects⟩ := hJ.sharedState
  refine ⟨hdecisions, heffects, fun b hb hne => ?_⟩
  obtain rfl : a = b := Option.some.inj (hget.symm.trans hb)
  exact hdone hne

/-! ### Two runs -/

namespace ApprovalExample

def proposed : CatalogWorkflow where
  id := "w"
  field _ := .null

def cfg : ApprovalSettings where
  workflowMutationEnabled := true
  toolMutationEnabled := true
  validateWorkflow _ := .ok proposed
  validateTool := .ok
  validateAgent := .ok
  validateSchedule _ := none
  requiresRepoWrite _ := false
  defaultMounts := .arr []
  now := "2024-01-01T00:00:00"

def approval : ConversationApproval where
  id := "a"
  approvalType := "workflow_create"
  targetType := "workflow"
  targetId := some "w"
  requestedByAgentId := "agent"
  conversationId := "c"
  originMessageId := "m"
  summary := "Create workflow 'w'."
  proposedPayload := some [("workflow", .obj [("id", .str "w")])]
  metadata := [("action", .str "workflow_create")]

/-- Nothing fails, and the conversation belongs to `u`. -/
def env : ApprovalEnvironment Unit where
  fault _ s := (.none, s)
  answer
    | .getConversation _, s => (some (some "u", none), s)
    | .getChannelType _, s => (some "web", s)
    | .validateSteering _ _, s => ([], s)
    | .getSchedule _, s => (false, s)
    | .getTool _, s => (none, s)
    | .getAgent _, s => (false, s)
    | .getExecution _, s => (none, s)
    | .uuid4, s => ("child", s)
    | .createMessage _, s | .publish _, s | .createSchedule _, s | .replaceActiveExecutions _ _, s
    | .syncAgent _, s | .saveSteeringEvent, s | .updateSteeringRequest _, s
    | .resolveMainProfile _, s | .updateExecution _, s | .publishActivity _, s
    | .syncCompletion _, s | .generateReply, s | .storeMemory, s => ((), s)
  perform _ _ s := ("execution", s)

def start : Pool ApprovalSig ResolverCall (ApprovalWorld Unit) ConversationFault Unit :=
  ⟨{ environment := (), approvals := Catalog.empty.put approval, workflows := Catalog.empty },
    [], []⟩

/-- Both calls read the approval and look up the owner. -/
def readings : List (Act ResolverCall) :=
  [.start (.approve "u" none none), .start (.reject "u" none false), .step 0, .step 0, .step 1,
    .step 1]

/-- The approval is granted and its workflow is saved; then it is rejected. -/
def resolvedTwice : List (Act ResolverCall) :=
  readings ++ [.step 0, .step 0, .step 0, .step 0, .step 1]

/-- The rejection is given up before it is written. -/
def resolvedOnce : List (Act ResolverCall) := readings ++ [.step 0, .step 0, .step 0, .step 0]

def decidesPending (q : Pool ApprovalSig ResolverCall (ApprovalWorld Unit) ConversationFault Unit)
    (_ : ℕ) (o : ApprovalOp) : Bool :=
  !o.decides || (q.shared.approvals.get "a").all (·.status = .pending)

end ApprovalExample

open ApprovalExample in
/-- A run that meets the condition: the rejection is never written. -/
theorem approvals_resolvedOnce_granted :
    ∃ q, Pool.nexts (ResolverCall.code cfg "a") (approvalHandler env) start resolvedOnce = some q ∧
      q.shared.decisions = 1 ∧ q.shared.effects = [.workflow] ∧ q.shared.decisions ≤ 1 := by
  obtain ⟨q, hq, hdecisions, heffects⟩ : ∃ q, Pool.nextsWhere (ResolverCall.code cfg "a")
      (approvalHandler env) decidesPending start resolvedOnce = some q ∧
      q.shared.decisions = 1 ∧ q.shared.effects = [.workflow] := ⟨_, rfl, rfl, rfl⟩
  refine ⟨q, Pool.nexts_of_nextsWhere hq, hdecisions, heffects, ?_⟩
  have hruns : Pool.Runs (ResolverCall.code cfg "a") (approvalHandler env)
      (Pool.Where (DecidesPending "a")) start q := by
    refine Pool.runs_of_nextsWhere (fun q i o h => ?_) hq
    intro hdecides a hget
    have hall : (q.shared.approvals.get "a").all (·.status = .pending) = true := by
      simpa [decidesPending, hdecides] using h
    rw [hget] at hall
    exact of_decide_eq_true hall
  exact (approvals_resolvedOnce cfg env "a" () _ _ approval rfl hruns).1

open ApprovalExample in
/-- An approval that is granted and rejected: its workflow has been saved, and it is stored
as rejected. -/
theorem approvals_resolvedTwice :
    ∃ q, Pool.nexts (ResolverCall.code cfg "a") (approvalHandler env) start resolvedTwice = some q ∧
      q.shared.decisions = 2 ∧ q.shared.effects = [.workflow] ∧
      (q.shared.approvals.get "a").map (·.status) = some .rejected := ⟨_, rfl, rfl, rfl, rfl⟩

end OpenAgency
