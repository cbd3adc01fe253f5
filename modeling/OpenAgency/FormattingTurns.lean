/-
FormattingTurns.lean

Formatting turns of the agent loop.  A turn after an answer that did not fit the task's
schema, and the turn after the last iteration, are made without tools, so that a follow-up
formatting does not replay side effects.  The second kind refuses tool calls that come all
the same; the first kind executes them.

A monitor follows the turns of one execution of a task: how many there were, whether the
last one was a formatting turn, and whether a schema repair was answered with tool calls.
-/
import OpenAgency.Lib.Monitor
import OpenAgency.LoopOperations

namespace OpenAgency

open Interaction Program

/-! ### Turns -/

/-- What the turns so far have been. -/
structure TurnPhase where
  turns : ℕ := 0
  /-- The last turn was made without tools. -/
  formatting : Bool := false
  /-- Some answer had no tool calls, and did not end the loop. -/
  refused : Bool := false
  /-- The answer to a schema-repair turn had tool calls. -/
  repairCalled : Bool := false

/-- The phase after a turn, by whether it had tools and what calls the answer has. -/
def TurnPhase.after (φ : TurnPhase) (withTools : Bool)
    (calls : List (Option String × String × Json)) : TurnPhase where
  turns := φ.turns + 1
  formatting := !withTools
  refused := φ.refused || calls.isEmpty
  repairCalled := φ.repairCalled || (φ.refused && !withTools && !calls.isEmpty)

def TurnPhase.next (φ : TurnPhase) : Event EngineSig → TurnPhase
  | ⟨.runtime (.ext (.generateText _ _ withTools)), .ok response⟩ =>
    φ.after withTools response.toolCalls
  | ⟨.runtime (.ext (.generateText _ _ _)), .error _⟩ => { φ with turns := φ.turns + 1 }
  | _ => φ

/-- The operation asks the model. -/
def EngineOp.isTurn : EngineOp → Bool
  | .runtime (.ext (.generateText _ _ _)) => true
  | _ => false

/-- The operation executes a tool, or stores a transcript with calls that will be executed. -/
def EngineOp.actsOnTools : EngineOp → Bool
  | .runtime (.ext (.executeTool _ _)) | .runtime (.proc (.modifyObject _ _)) => true
  | _ => false

/-- The turns of a task: at most `limit`, and nothing done for a tool call in a formatting
turn, unless a schema repair was answered with tool calls. -/
def turnProtocol (limit : ℕ) : Protocol EngineSig Unit TurnPhase where
  start := {}
  next := TurnPhase.next
  allowed _ φ o := (o.isTurn = true → φ.turns < limit) ∧
    (o.actsOnTools = true → φ.formatting = true → φ.repairCalled = true)
  answers _ _ _ := True

section Loop

variable {ctx : TaskContext} {limit : ℕ} {φ : TurnPhase}

/-- In this phase tool calls may be executed. -/
def TurnPhase.MayAct (φ : TurnPhase) : Prop := φ.formatting = true → φ.repairCalled = true

theorem TurnPhase.next_of_not_turn {o : EngineOp} (h : o.isTurn = false) (r : o.Ret) :
    φ.next ⟨o, r⟩ = φ := by
  cases o with
  | service c limit => rfl
  | runtime o =>
    cases o with
    | ext o =>
      cases o with
      | generateText agentId messages withTools => cases h
      | _ => rfl
    | _ => rfl

/-- Programs without turns leave the phase alone, if tool calls may be executed in it. -/
theorem follows_of_mayAct {α : Type} {p : EngineRun α} (hφ : φ.MayAct)
    (h : p.Within (fun _ _ => True) fun o : EngineOp => o.isTurn = false) :
    p.Follows (turnProtocol limit) () (fun _ => (· = φ)) (fun _ => (· = φ)) φ := by
  refine follows_of_within (fun ψ o hψ ho => ?_) h rfl
  subst hψ
  refine ⟨⟨fun hturn => ?_, fun _ => hφ⟩, fun r _ => ⟨trivial, TurnPhase.next_of_not_turn ho r⟩⟩
  rw [ho] at hturn
  cases hturn

/-- Programs that neither ask the model nor act on tools can be run in any phase. -/
theorem follows_idle {α : Type} {p : EngineRun α}
    (h : p.Within (fun _ _ => True) fun o : EngineOp => o.isTurn = false ∧ o.actsOnTools = false) :
    p.Follows (turnProtocol limit) () (fun _ => (· = φ)) (fun _ => (· = φ)) φ := by
  refine follows_of_within (fun ψ o hψ ho => ?_) h rfl
  subst hψ
  refine ⟨⟨fun hturn => ?_, fun hacts => ?_⟩,
    fun r _ => ⟨trivial, TurnPhase.next_of_not_turn ho.1 r⟩⟩
  · rw [ho.1] at hturn
    cases hturn
  · rw [ho.2] at hacts
    cases hacts

/-- Run a program that keeps the phase, and go on. -/
theorem follows_bind_of_keeps {α β : Type} {p : EngineRun α} {f : α → EngineRun β}
    {Q : β → TurnPhase → Prop}
    (h : p.Follows (turnProtocol limit) () (fun _ => (· = φ)) (fun _ => (· = φ)) φ)
    (hf : ∀ a, (f a).Follows (turnProtocol limit) () Q (fun _ _ => True) φ) :
    (p >>= f).Follows (turnProtocol limit) () Q (fun _ _ => True) φ := by
  apply follows_bind
  refine h.mono (fun a ψ hψ => ?_) fun _ _ _ => trivial
  rw [hψ]
  exact hf a

theorem follows_plain_bind {α β : Type} {p : Coroutine α} {f : α → EngineRun β}
    {Q : β → TurnPhase → Prop} (h : Plain p)
    (hf : ∀ a, (f a).Follows (turnProtocol limit) () Q (fun _ _ => True) φ) :
    ((liftM p : EngineRun α) >>= f).Follows (turnProtocol limit) () Q (fun _ _ => True) φ := by
  refine follows_bind_of_keeps (follows_idle (h.lift fun o ho => ?_)) hf
  cases o with
  | proc o => cases o <;> first | exact ⟨rfl, rfl⟩ | cases ho
  | ext o => cases ho
  | _ => exact ⟨rfl, rfl⟩

/-! ### The parts of the loop -/

theorem mayExecute_notTurn (call : ModelToolCall) :
    MayExecute ctx (fun o : EngineOp => o.isTurn = false) call where
  plain o ho := by
    cases o with
    | ext o => cases ho
    | _ => rfl
  object _ _ := rfl
  record _ := rfl
  service _ _ := rfl
  tool _ _ _ _ _ := rfl

theorem liftM_ask (o : ExtOp) :
    (liftM (ask o : Coroutine o.Ret) : EngineRun o.Ret) =
      Program.call (S := EngineSig) (.runtime (.ext o)) Program.done := rfl

/-- A turn of the model. -/
theorem follows_modelTurn (hturn : φ.turns < limit) (policy : Option TokenBudgetPolicy)
    (modelRequestId : Uuid) (messages : List ModelMessage) (withTools : Bool) :
    (modelTurn ctx policy modelRequestId messages withTools).Follows (turnProtocol limit) ()
      (fun response ψ => ψ = φ.after withTools response.toolCalls) (fun _ _ => True) φ := by
  unfold modelTurn
  refine follows_plain_bind (Plain.emit _ _ _) fun _ => ?_
  apply follows_bind
  rw [liftM_ask]
  refine follows_call ⟨fun _ => hturn, fun hacts => by cases hacts⟩ fun answer _ => ?_
  rcases answer with e | response
  · exact follows_done (follows_raise trivial)
  · refine follows_done ?_
    have hphase : (turnProtocol limit).next φ ⟨.runtime (.ext
        (.generateText ctx.agent.id messages withTools)), .ok response⟩ =
        φ.after withTools response.toolCalls := rfl
    rw [hphase]
    generalize hψ : φ.after withTools response.toolCalls = ψ
    show (Program.done response >>= _ : EngineRun ModelResponse).Follows _ _ _ _ _
    rw [done_bind]
    refine follows_plain_bind (Plain.emit _ _ _) fun _ => ?_
    refine follows_plain_bind (Plain.emit _ _ _) fun tokenEvent => ?_
    refine follows_bind_of_keeps (follows_idle (within_callService fun _ => ⟨rfl, rfl⟩))
      fun statuses => ?_
    refine follows_plain_bind (Plain.forM (fun s => ?_) statuses) fun _ => ?_
    · exact .bind (Plain.emit _ _ _) fun _ => Plain.pure _
    · refine follows_plain_bind (Plain.enforceTokenBudgetAction _ _ _) fun _ => ?_
      exact follows_done hψ.symm

/-- A turn with tool calls, when these may be executed. -/
theorem follows_toolTurn {s : LoopState} (hφ : s.finalizationGrace = false → φ.MayAct)
    (iteration : ℕ) (response : ModelResponse) :
    (toolTurn ctx iteration s response).Follows (turnProtocol limit) ()
      (fun s' ψ => ψ = φ ∧ s'.structuredOutputRepair = s.structuredOutputRepair)
      (fun _ _ => True) φ := by
  unfold toolTurn
  dsimp only
  by_cases hgrace : s.finalizationGrace = true
  · rw [if_pos hgrace]
    exact follows_raise trivial
  have hact := hφ (Bool.eq_false_iff.mpr hgrace)
  rw [if_neg hgrace]
  have hexecute : ∀ toolCalls messages,
      ((executeToolCalls ctx iteration toolCalls messages 0 toolCalls >>= fun messages =>
        pure { s with
          messages := messages
          finalizationGrace := s.finalizationGrace ||
            (ctx.agent.maxIterations ≤ iteration && !s.structuredOutputRepair) }) :
        EngineRun LoopState).Follows (turnProtocol limit) ()
          (fun s' ψ => ψ = φ ∧ s'.structuredOutputRepair = s.structuredOutputRepair)
          (fun _ _ => True) φ := by
    intro toolCalls messages
    refine follows_bind_of_keeps (follows_of_mayAct hact ?_) fun _ =>
      follows_done ⟨rfl, rfl⟩
    exact within_executeToolCalls iteration toolCalls (fun call _ => mayExecute_notTurn call) _ 0
  refine follows_plain_bind ?_ fun toolCalls => ?_
  · -- fresh ids for the calls that come without one
    refine Program.Ensures.within (Program.ensures_mapM (P := fun _ => True) fun answered _ => ?_)
    obtain ⟨id, name, arguments⟩ := answered
    rcases orElseString id none with - | known
    · exact ⟨trivial, fun fresh _ => trivial⟩
    · trivial
  · split
    · exact follows_plain_bind (Plain.emit _ _ _) fun _ => hexecute toolCalls _
    · exact hexecute toolCalls _

/-- A turn without tool calls: at most one answer is to be repaired. -/
theorem follows_outputTurn (s : LoopState) (response : ModelResponse) :
    (outputTurn ctx s response).Follows (turnProtocol limit) () (fun _ => (· = φ))
      (fun _ _ => True) φ := by
  unfold outputTurn
  dsimp only
  split
  · refine follows_plain_bind (Plain.emit _ _ _) fun _ => ?_
    split
    · exact follows_done rfl
    · split
      · exact follows_raise trivial
      · exact follows_done rfl
  · split
    · exact follows_done rfl
    · split
      · exact follows_raise trivial
      · exact follows_done rfl

variable {calls : List (Option String × String × Json)}

/-- An answer without calls came in this turn or before it. -/
theorem TurnPhase.refused_after {withTools : Bool} (h : φ.refused = true ∨ calls = []) :
    (φ.after withTools calls).refused = true := by
  rcases h with h | rfl
  · simp [TurnPhase.after, h]
  · simp [TurnPhase.after]

/-- Calls that come with a turn may be executed if it had tools or repairs an answer. -/
theorem TurnPhase.mayAct_after {withTools : Bool} (hcalls : calls ≠ [])
    (h : withTools = false → φ.refused = true) : (φ.after withTools calls).MayAct := by
  intro hformatting
  have htools : withTools = false := by simpa [TurnPhase.after] using hformatting
  simp [TurnPhase.after, htools, h htools, List.isEmpty_eq_false_iff.mpr hcalls]

/-- **The loop** makes as many turns as it has iterations left, and stops at the calls of a
finalization turn. -/
theorem follows_agentLoop (policy : Option TokenBudgetPolicy) (remaining iteration : ℕ)
    (s : LoopState) (hturns : φ.turns + remaining ≤ limit)
    (hrepair : s.structuredOutputRepair = true → φ.refused = true) :
    (agentLoop ctx policy remaining iteration s).Follows (turnProtocol limit) ()
      (fun _ _ => True) (fun _ _ => True) φ := by
  induction remaining generalizing φ iteration s with
  | zero => exact follows_raise trivial
  | succ remaining ih =>
    unfold agentLoop
    dsimp only
    by_cases hstop : (decide (ctx.agent.maxIterations < iteration) && !s.structuredOutputRepair &&
        !s.finalizationGrace) = true
    · rw [if_pos hstop]
      exact follows_raise trivial
    rw [if_neg hstop]
    refine follows_plain_bind (Plain.assertNotInterrupted ctx) fun _ => ?_
    refine follows_plain_bind Plain.uuid4 fun modelRequestId => ?_
    refine follows_plain_bind (Plain.recordContextHealth _ _) fun _ => ?_
    set t : LoopState := if (s.finalizationGrace && !s.finalizationPromptAdded) = true then _
      else s with ht
    have hflags : t.structuredOutputRepair = s.structuredOutputRepair ∧
        t.finalizationGrace = s.finalizationGrace := by
      rw [ht]
      split <;> exact ⟨rfl, rfl⟩
    clear_value t
    apply follows_bind
    refine (follows_modelTurn (by omega) _ _ _ _).mono (fun response ψ hψ => ?_)
      fun _ _ _ => trivial
    subst hψ
    split
    next hcalls =>
      apply follows_bind
      refine (follows_toolTurn (fun hgrace => ?_) iteration response).mono
        (fun s' ψ hψ => ?_) fun _ _ _ => trivial
      · -- without tools and without grace it was a schema-repair turn
        refine TurnPhase.mayAct_after hcalls fun htools => hrepair ?_
        rw [hgrace, Bool.or_false, Bool.not_eq_false'] at htools
        rw [← hflags.1, htools]
      · obtain ⟨rfl, hsame⟩ := hψ
        refine ih (iteration + 1) s' ?_ fun hs' => ?_
        · show φ.turns + 1 + remaining ≤ limit
          omega
        · refine TurnPhase.refused_after (.inl (hrepair ?_))
          rw [← hflags.1, ← hsame, hs']
    next hcalls =>
      apply follows_bind
      refine (follows_outputTurn t response).mono (fun outcome ψ hψ => ?_)
        fun _ _ _ => trivial
      subst hψ
      rcases outcome with output | s'
      · exact follows_done trivial
      · refine ih (iteration + 1) s' ?_ fun _ => ?_
        · show φ.turns + 1 + remaining ≤ limit
          omega
        · exact TurnPhase.refused_after (.inr (by simpa using hcalls))

/-- An execution of the task. -/
theorem follows_executeTask (hlimit : ctx.agent.maxIterations + 1 ≤ limit) :
    (executeTask ctx).Follows (turnProtocol limit) () (fun _ _ => True) (fun _ _ => True)
      (turnProtocol limit).start := by
  have hobject : Plain (process (.object ctx.ref)) := Plain.object ctx.ref
  unfold executeTask
  refine follows_plain_bind hobject fun e => ?_
  refine follows_plain_bind (Plain.state _ _) fun st => ?_
  dsimp only
  split
  · refine follows_agentLoop _ _ _ _ ?_ fun hs => by cases hs
    show 0 + _ ≤ limit
    omega
  · -- the calls of a stored transcript are executed before the first turn
    refine follows_bind_of_keeps (follows_of_mayAct (fun hs => by cases hs) ?_) fun messages => ?_
    · exact within_executeToolCalls _ _ (fun call _ => mayExecute_notTurn call) _ _
    · refine follows_agentLoop _ _ _ _ ?_ fun hs => by cases hs
      show 0 + _ ≤ limit
      omega

end Loop

/-! ### Runs -/

/-- The turns of a run so far. -/
def turnPhase (past : List (Event EngineSig)) : TurnPhase := past.foldl TurnPhase.next {}

theorem turnPhase_append (past : List (Event EngineSig)) (e : Event EngineSig) :
    turnPhase (past ++ [e]) = (turnPhase past).next e := by
  rw [turnPhase, List.foldl_append]
  rfl

/-- Nothing is executed for the tool calls of a formatting turn. -/
def QuietWhenFormatting : List (Event EngineSig) → Prop :=
  EveryInput fun past e => e.op.actsOnTools = true → (turnPhase past).formatting = false

/-- An answer to a schema-repair turn had tool calls. -/
def RepairCalled (trace : List (Event EngineSig)) : Prop := (turnPhase trace).repairCalled = true

theorem TurnPhase.next_turns (φ : TurnPhase) (e : Event EngineSig) :
    (φ.next e).turns = φ.turns + if e.op.isTurn then 1 else 0 := by
  obtain ⟨o, r⟩ := e
  rcases hturn : o.isTurn with - | -
  · rw [TurnPhase.next_of_not_turn hturn]
    rfl
  · cases o with
    | service c limit => cases hturn
    | runtime o =>
      cases o with
      | ext o =>
        cases o with
        | generateText agentId messages withTools => rcases r with e | response <;> rfl
        | _ => cases hturn
      | _ => cases hturn

theorem turnPhase_turns (trace : List (Event EngineSig)) :
    (turnPhase trace).turns = trace.countP (·.op.isTurn) := by
  induction trace using List.reverseRecOn with
  | nil => rfl
  | append_singleton past e ih =>
    rw [turnPhase_append, TurnPhase.next_turns, ih, List.countP_append, List.countP_singleton]

theorem TurnPhase.next_repairCalled {φ : TurnPhase} (h : φ.repairCalled = true)
    (e : Event EngineSig) : (φ.next e).repairCalled = true := by
  obtain ⟨o, r⟩ := e
  rcases hturn : o.isTurn with - | -
  · rw [TurnPhase.next_of_not_turn hturn, h]
  · cases o with
    | service c limit => cases hturn
    | runtime o =>
      cases o with
      | ext o =>
        cases o with
        | generateText agentId messages withTools =>
          rcases r with e | response
          · exact h
          · simp [TurnPhase.next, TurnPhase.after, h]
        | _ => cases hturn
      | _ => cases hturn

/-- Later turns do not undo it. -/
theorem RepairCalled.append {past : List (Event EngineSig)} (h : RepairCalled past)
    (rest : List (Event EngineSig)) : RepairCalled (past ++ rest) := by
  induction rest using List.reverseRecOn with
  | nil => rwa [List.append_nil]
  | append_singleton rest e ih =>
    rw [RepairCalled, ← List.append_assoc, turnPhase_append]
    exact TurnPhase.next_repairCalled ih e

variable {trace : List (Event EngineSig)}

theorem turns_le_of_obeyed {limit : ℕ} (h : (turnProtocol limit).Obeyed () {} trace) :
    trace.countP (·.op.isTurn) ≤ limit := by
  induction trace using List.reverseRecOn with
  | nil => exact Nat.zero_le limit
  | append_singleton past e ih =>
    obtain ⟨hpast, hturn, -⟩ := everyInput_append.mp h
    rw [List.countP_append, List.countP_singleton]
    rcases he : e.op.isTurn with - | -
    · exact ih hpast
    · have hroom : (turnPhase past).turns < limit := hturn he
      rw [turnPhase_turns] at hroom
      exact hroom

theorem quiet_of_obeyed {limit : ℕ} (h : (turnProtocol limit).Obeyed () {} trace)
    (hrepair : ¬RepairCalled trace) :
    QuietWhenFormatting trace := by
  intro past e rest hsplit hacts
  obtain ⟨-, hact⟩ := h past e rest hsplit
  by_contra hformatting
  apply hrepair
  rw [hsplit]
  exact RepairCalled.append (hact hacts (Bool.not_eq_false _ ▸ hformatting)) (e :: rest)

/-- **Formatting turns have no effects, unless a repair calls tools.**  Whatever the model
answers, an execution of a task makes at most one turn more than its iterations; and if no
answer to a schema-repair turn has tool calls, then nothing is executed for a call that
comes in a formatting turn. -/
theorem executeTask_formatting {σ : Type} (ctx : TaskContext) (H : Handler EngineSig σ) (s : σ) :
    ((executeTask ctx).trace H s).countP (·.op.isTurn) ≤ ctx.agent.maxIterations + 1 ∧
      (¬RepairCalled ((executeTask ctx).trace H s) →
        QuietWhenFormatting ((executeTask ctx).trace H s)) := by
  have hobeyed : (turnProtocol (ctx.agent.maxIterations + 1)).Obeyed () {}
      ((executeTask ctx).trace H s) :=
    (follows_executeTask (Nat.le_refl _)).obeyed H s fun _ _ _ _ => trivial
  exact ⟨turns_le_of_obeyed hobeyed, quiet_of_obeyed hobeyed⟩

/-! ### A repair that calls a tool -/

namespace FormattingTurns

/-- A task that may send mail, and whose output must not be a string. -/
def reporting : TaskContext where
  cfg := { EngineConfig.bare with
    structuredOutput := fun _ content =>
      match content with
      | some (.str _) => .error ⟨.valueError, "'draft' is not of type 'object'"⟩
      | content => .ok (content.getD .null) }
  state := { executionId := 0, workflowId := "w" }
  ref := 0
  workflow := {
    id := "w"
    name := "w"
    entrypoint := "n"
    toolDefinitions := [{ id := "mail.send", name := "mail_send" }] }
  task := { id := "t", name := "t", toolIds := ["mail.send"] }
  agent := { id := "a", name := "a", maxIterations := 1 }

def mail : ModelResponse :=
  { content := none, toolCalls := [(some "c", "mail_send", .null)], usage := {} }

/-- A model that drafts while it has tools, and calls one when it has none. -/
def drafting : Environment := .counting fun
  | _, .generateText _ _ true => .ok { content := some (.str "draft"), usage := {} }
  | _, .generateText _ _ false => .ok mail
  | n, o => ExtOp.silent n o

/-- A model that calls a tool while it has them, and reports when it has none. -/
def obliging : Environment := .counting fun
  | _, .generateText _ _ true => .ok mail
  | _, .generateText _ _ false => .ok { content := some (.obj []), usage := {} }
  | n, o => ExtOp.silent n o

def started : Execution := { id := 0, workflowId := "w" }

/-- The task is about to be executed. -/
def ready : Session where
  world := {
    db := { executions := Relational.Table.empty.save started }
    proc := { objects := [started] } }

/-- What the execution of the task does. -/
def performed (env : Environment) : List (Event EngineSig) :=
  (executeTask reporting).trace (engineHandler .bare env) ready

end FormattingTurns

open FormattingTurns in
/-- The schema-repair turn has no tools, and its call is executed. -/
theorem repair_sends_mail : ¬QuietWhenFormatting (performed drafting) := by
  intro h
  have hmail : ((performed drafting)[74]?).map (·.op.actsOnTools) = some true := by decide +kernel
  have hformatting : (turnPhase ((performed drafting).take 74)).formatting = true := by
    decide +kernel
  obtain ⟨e, he, hacts⟩ := Option.map_eq_some_iff.mp hmail
  have hquiet := h.at he hacts
  rw [hformatting] at hquiet
  cases hquiet

open FormattingTurns in
/-- Mail sent while there were tools, and a report without them. -/
theorem mail_then_report : ¬RepairCalled (performed obliging) ∧
    QuietWhenFormatting (performed obliging) := by
  have hrepair : ¬RepairCalled (performed obliging) := by
    rw [RepairCalled]
    decide +kernel
  exact ⟨hrepair, (executeTask_formatting reporting (engineHandler .bare obliging) ready).2 hrepair⟩

end OpenAgency
