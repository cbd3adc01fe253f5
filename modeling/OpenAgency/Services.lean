/-
Services.lean

The engine's signature.  Two services the engine calls are operations of their
own here, the approval manager and the usage recorder, so that a run of the
engine is also a history of the decisions it was given and the usage it recorded.
`flatten` replaces these calls by what they do, `engineHandler` performs them as
one step and keeps the history; everything else the engine does is a runtime
operation.

`EngineConfig` collects what the engine computes without touching any state and
what its definitions look up: the registered workflows, model profiles and tools,
the texts it hashes and parses.  Nothing is assumed about any of it.
-/
import OpenAgency.Approvals
import OpenAgency.Governance
import OpenAgency.Lib.Answers
import OpenAgency.Tools

namespace OpenAgency

open Interaction Program

/-- The pure functions and registries the engine works with. -/
structure EngineConfig where
  /-- `workflow_repository.get_workflow`. -/
  workflow : String → Option WorkflowDefinition
  /-- `model_profile_repository.get_profile`, which only needs to exist. -/
  hasProfile : String → Bool
  /-- `list_builtin_tool_definitions`. -/
  builtinTools : List ToolDefinition
  /-- The catalog tools the tool executor has registered for a workflow. -/
  catalogTools : String → List ToolDefinition
  /-- Normalising and validating arguments, the connector binding and the security
  policy, then redaction: the arguments and their redacted form. -/
  admitToolCall : WorkflowDefinition → ToolDefinition → Json → Except RuntimeException (Json × Json)
  /-- The tool, its agent and task, connector binding and risks, as an approval
  request describes them. -/
  approvalMetadata : WorkflowDefinition → ToolDefinition → NativeExecutionState → Json →
    List (String × Json)
  /-- `_build_messages`. -/
  buildMessages : WorkflowDefinition → TaskDefinition → AgentDefinition → Execution →
    NativeExecutionState → List ModelMessage
  /-- `resolve_token_budget_policy`. -/
  tokenBudgetPolicy : WorkflowDefinition → AgentDefinition → TaskDefinition → Execution →
    Option TokenBudgetPolicy
  /-- `_structured_model_output`, which raises what does not fit the task's schema. -/
  structuredOutput : TaskDefinition → Option Json → Except RuntimeException Json
  /-- `_structured_output_repair_message`. -/
  repairMessage : TaskDefinition → RuntimeException → String
  /-- `json.dumps` with sorted keys. -/
  dumps : Json → String
  /-- `json.loads`. -/
  loads : String → Option Json
  /-- `str(value)` of a value that is not a string. -/
  repr : Json → String
  /-- `str.lower`. -/
  lower : String → String
  lower_ascii : ∀ s : String, s.toList.all (·.toNat < 128) = true → lower s = s.toLower
  /-- `ApprovalManager._invocation_digest`. -/
  invocationDigest : Json → String
  /-- `_cycle_progress_signature`. -/
  progressSignature : CycleOutput → String
  /-- The fraction `_cycle_delay_with_jitter` draws from a cycle's digest. -/
  jitterUnit : Uuid → ℕ → ℚ
  /-- Rounding of float divisions. -/
  rounding : FloatRounding
  /-- The engine's approval manager. -/
  approvalManager : ℕ := 0

/-- A configuration that registers nothing and hashes nothing. -/
def EngineConfig.bare : EngineConfig where
  workflow _ := none
  hasProfile _ := true
  builtinTools := []
  catalogTools _ := []
  admitToolCall _ _ arguments := .ok (arguments, arguments)
  approvalMetadata _ tool _ _ := [("tool_id", .str tool.id), ("tool_name", .str tool.name)]
  buildMessages _ task _ _ _ := [{ role := "user", content := .str task.name }]
  tokenBudgetPolicy _ _ _ _ := none
  structuredOutput _ content := .ok (content.getD .null)
  repairMessage _ exc := exc.message
  dumps _ := ""
  loads _ := none
  repr _ := ""
  lower := String.toLower
  lower_ascii _ _ := rfl
  invocationDigest _ := ""
  progressSignature _ := ""
  jitterUnit _ _ := 0
  rounding := ⟨id, monotone_id⟩

/-- `str(value)`. -/
def EngineConfig.pyStr (cfg : EngineConfig) : Json → String
  | .str s => s
  | value => cfg.repr value

/-! ### Service calls -/

inductive ServiceCall where
  | requestApproval (a : ApprovalCall)
  | recordTokenUsage (executionId : Uuid) (c : UsageCall)

namespace ServiceCall

abbrev Ret : ServiceCall → Type
  | requestApproval _ => ApprovalDecision
  | recordTokenUsage _ _ => List TokenBudgetStatus

/-- What a service does. -/
def program (cfg : EngineConfig) : (c : ServiceCall) → Coroutine c.Ret
  | requestApproval a => OpenAgency.requestApproval cfg.invocationDigest a
  | recordTokenUsage x c => do
    let answer ← recordTokenUsageSnapshot cfg.rounding x c
    return answer.2

/-- How a service call ended: its outcome and the operations left, or nothing if
it was cut off. -/
abbrev Outcome (c : ServiceCall) := Option (Except RuntimeException c.Ret × Option ℕ)

end ServiceCall

/-- A runtime operation, or a service call that may be cut off after some number
of operations. -/
inductive EngineOp where
  | runtime (o : RuntimeOp)
  | service (c : ServiceCall) (limit : Option ℕ)

namespace EngineOp

abbrev Ret : EngineOp → Type
  | runtime o => o.Ret
  | service c _ => c.Outcome

end EngineOp

abbrev EngineSig : Signature := ⟨EngineOp, EngineOp.Ret⟩

/-- A coroutine of the engine. -/
abbrev EngineRun (α : Type) := Program EngineSig RuntimeException α

/-- A coroutine that calls no service. -/
def EngineRun.lift {α : Type} (p : Coroutine α) : EngineRun α :=
  p.interp fun o => perform (S := EngineSig) (.runtime o)

instance : MonadLift (Program RuntimeSig RuntimeException) (Program EngineSig RuntimeException) :=
  ⟨EngineRun.lift⟩

/-- Call a service and wait for its answer. -/
def callService (c : ServiceCall) : EngineRun c.Ret := do
  let outcome ← perform (S := EngineSig) (.service c none)
  match outcome with
  | some (result, _) => ofExcept result
  | none => throw ⟨.timeoutError, ""⟩

/-- What an engine operation does, operation by operation. -/
def EngineOp.program (cfg : EngineConfig) : (o : EngineOp) → Coroutine o.Ret
  | .runtime o => perform (S := RuntimeSig) o
  | .service c limit => (c.program cfg).limit limit

/-- The engine's coroutine with its service calls replaced by what they do. -/
def EngineRun.flatten {α : Type} (cfg : EngineConfig) (p : EngineRun α) : Coroutine α :=
  p.interp (EngineOp.program cfg)

@[simp] theorem EngineRun.flatten_bind {α β : Type} (cfg : EngineConfig) (p : EngineRun α)
    (f : α → EngineRun β) :
    (p >>= f).flatten cfg = p.flatten cfg >>= fun a => (f a).flatten cfg :=
  interp_bind _ p f

variable {α : Type}

/-- A coroutine that calls no service is what it was. -/
@[simp] theorem EngineRun.flatten_lift (cfg : EngineConfig) (p : Coroutine α) :
    (liftM p : EngineRun α).flatten cfg = p := by
  show (EngineRun.lift p).flatten cfg = p
  induction p with
  | done a => rfl
  | raise e => rfl
  | call o k ih => exact congrArg (call (S := RuntimeSig) o) (funext ih)

/-- What an engine operation stands for answers errors, it does not raise them. -/
theorem EngineRun.flatten_rescue (cfg : EngineConfig) (p : EngineRun α)
    (f : RuntimeException → EngineRun α) :
    EngineRun.flatten cfg (p.rescue f) = (p.flatten cfg).rescue fun e => (f e).flatten cfg := by
  refine interp_rescue (fun o => ?_) p f
  cases o with
  | runtime o => exact neverRaises_perform (S := RuntimeSig) o
  | service c limit => exact neverRaises_limit (c.program cfg) limit

/-- `asyncio.wait_for`: after `n` operations the coroutine is cancelled where it
is, inside a service call too, and the caller sees a timeout. -/
def EngineRun.within {α : Type} : ℕ → EngineRun α → EngineRun α
  | _, .done a => .done a
  | _, .raise e => .raise e
  | 0, .call (.runtime _) _ => .raise ⟨.timeoutError, ""⟩
  | n + 1, .call (.runtime o) k =>
    call (S := EngineSig) (.runtime o) fun r => EngineRun.within n (k r)
  | n, .call (.service c _) k =>
    call (S := EngineSig) (.service c (some n)) fun
      | none => .raise ⟨.timeoutError, ""⟩
      | some (result, left) => EngineRun.within (left.getD 0) (k (some (result, none)))

/-! ### What holds of a coroutine that calls no service -/

section Lift

variable {ok : (o : EngineOp) → o.Ret → Prop} {allowed : EngineOp → Prop} {α : Type}

variable {p : Coroutine α}

theorem within_lift (h : p.Within (fun o => ok (.runtime o)) (fun o => allowed (.runtime o))) :
    (liftM p : EngineRun α).Within ok allowed := by
  show (EngineRun.lift p).Within ok allowed
  induction p with
  | done a => trivial
  | raise e => trivial
  | call o k ih => exact ⟨h.1, fun r hr => ih r (h.2 r hr)⟩

theorem ensures_lift {Q : α → Prop}
    (h : p.Ensures (fun o => ok (.runtime o)) (fun o => allowed (.runtime o)) Q) :
    (liftM p : EngineRun α).Ensures ok allowed Q := by
  show (EngineRun.lift p).Ensures ok allowed Q
  induction p with
  | done a => exact h
  | raise e => trivial
  | call o k ih => exact ⟨h.1, fun r hr => ih r (h.2 r hr)⟩

theorem reaches_lift {bad : EngineOp → Prop}
    (h : p.Reaches (fun o => ok (.runtime o)) (fun o => bad (.runtime o))) :
    (liftM p : EngineRun α).Reaches ok bad := by
  show (EngineRun.lift p).Reaches ok bad
  induction p with
  | done a => cases h
  | raise e => cases h
  | call o k ih => exact h.imp id fun ⟨r, hr, h⟩ => ⟨r, hr, ih r h⟩

theorem mayReturn_lift {P : α → Prop} (h : p.MayReturn (fun o => ok (.runtime o)) P) :
    (liftM p : EngineRun α).MayReturn ok P := by
  show (EngineRun.lift p).MayReturn ok P
  induction p with
  | done a => exact h
  | raise e => cases h
  | call o k ih =>
    obtain ⟨r, hr, h⟩ := h
    exact ⟨r, hr, ih r h⟩

end Lift

/-! ### Sessions -/

/-- One service call of a session: the database it found, and how it ended. -/
structure ServiceRecord where
  call : ServiceCall
  before : Database
  outcome : call.Outcome

/-- The world and the history of service calls. -/
structure Session where
  world : World := {}
  history : List ServiceRecord := []

/-- Performing a service call is one step. -/
def engineHandler (cfg : EngineConfig) (env : Environment) : Handler EngineSig Session
  | .runtime o, s =>
    ((handler env o s.world).1, { s with world := (handler env o s.world).2 })
  | .service c limit, s =>
    let r := ((c.program cfg).limit limit).run (handler env) s.world
    let outcome : c.Outcome := r.1.toOption.join
    (outcome, { world := r.2, history := s.history ++ [⟨c, s.world.db, outcome⟩] })

end OpenAgency
