/-
Containers.lean

The Docker daemon behind `DockerRuntimeManager`, and the programs of the processes
that talk to both the store and the daemon.

The daemon holds the managed containers; whether it answers a command at all, and
how a stopped container ended, is not ours to say.  A command that fails, or names
no container, raises `ContainerRuntimeError`.  Creating and starting containers is
left out, and so are images and logs.
-/
import OpenAgency.Events
import OpenAgency.Lib.Sum

namespace OpenAgency

open Interaction Program

/-! ### The daemon -/

/-- A container as `inspect_container` reports it; `executionId` is its label
`agency.execution_id`. -/
structure RuntimeContainerState where
  containerId : String
  name : String := ""
  image : String := ""
  status : ContainerStatus
  executionId : Option Uuid := none
  startedAt : Option Time := none
  finishedAt : Option Time := none
  exitCode : Option ℤ := none
  deriving DecidableEq

/-- The container of that identifier. -/
def findContainer (cs : List RuntimeContainerState) (containerId : String) :
    Option RuntimeContainerState :=
  cs.find? (·.containerId = containerId)

/-- The managed containers, no two of which have one identifier, and how many commands
have been issued. -/
structure Docker where
  containers : List RuntimeContainerState := []
  unique : (containers.map (·.containerId)).Nodup := by simp
  commands : ℕ := 0

namespace Docker

/-- The container of that identifier. -/
def find (d : Docker) (containerId : String) : Option RuntimeContainerState :=
  findContainer d.containers containerId

/-- One more command has been issued. -/
def tick (d : Docker) : Docker := { d with commands := d.commands + 1 }

/-- One more command has changed containers without changing what they are called. -/
def update (d : Docker) (f : RuntimeContainerState → RuntimeContainerState)
    (hf : ∀ c, (f c).containerId = c.containerId) : Docker where
  containers := d.containers.map f
  unique := by
    have hids : (d.containers.map f).map (·.containerId) = d.containers.map (·.containerId) := by
      rw [List.map_map]
      exact List.map_congr_left fun c _ => hf c
    rw [hids]
    exact d.unique
  commands := d.commands + 1

/-- One more command has removed a container. -/
def remove (d : Docker) (containerId : String) : Docker where
  containers := d.containers.filter (·.containerId ≠ containerId)
  unique := d.unique.sublist (List.filter_sublist.map _)
  commands := d.commands + 1

@[simp] theorem find_tick (d : Docker) (i : String) : d.tick.find i = d.find i := rfl

@[simp] theorem commands_tick (d : Docker) : d.tick.commands = d.commands + 1 := rfl

@[simp] theorem containers_tick (d : Docker) : d.tick.containers = d.containers := rfl

variable {d : Docker}

theorem containerId_of_find {i : String} {c : RuntimeContainerState} (h : d.find i = some c) :
    c.containerId = i := by
  simpa using List.find?_some h

theorem mem_of_find {i : String} {c : RuntimeContainerState} (h : d.find i = some c) :
    c ∈ d.containers := List.mem_of_find?_eq_some h

theorem find_update {f : RuntimeContainerState → RuntimeContainerState}
    {hf : ∀ c, (f c).containerId = c.containerId} (i : String) :
    (d.update f hf).find i = (d.find i).map f := by
  show (d.containers.map f).find? _ = (d.containers.find? _).map f
  rw [List.find?_map]
  congr 2
  funext c
  simp [hf]

theorem find_remove_ne {i j : String} (hj : j ≠ i) : (d.remove i).find j = d.find j := by
  show (d.containers.filter _).find? _ = d.containers.find? _
  rw [List.find?_filter]
  congr 1
  funext c
  by_cases hc : c.containerId = j
  · simp [hc, hj]
  · simp [hc]

end Docker

/-- What the daemon decides: which commands fail, and with which time and exit code a
stopped container ends. -/
structure DockerEnvironment where
  fails : ℕ → Bool
  ends : ℕ → Option Time × Option ℤ

/-- A daemon that answers every command. -/
def DockerEnvironment.reliable : DockerEnvironment where
  fails _ := false
  ends _ := (none, some 0)

inductive DockerOp where
  | listManagedContainers
  | inspectContainer (containerId : String)
  | stopContainer (containerId : String)
  | removeContainer (containerId : String) (force : Bool)

namespace DockerOp

abbrev Ret : DockerOp → Type
  | listManagedContainers => Except RuntimeException (List RuntimeContainerState)
  | inspectContainer _ => Except RuntimeException RuntimeContainerState
  | stopContainer _ => Except RuntimeException RuntimeContainerState
  | removeContainer _ _ => Except RuntimeException Unit

def notFound (containerId : String) : RuntimeException :=
  ⟨.containerRuntime, s!"Container '{containerId}' was not found"⟩

/-- A running container that is stopped has exited. -/
def stopped (ending : Option Time × Option ℤ) (c : RuntimeContainerState) :
    RuntimeContainerState :=
  match c.status with
  | .running | .restarting | .paused =>
    { c with status := .exited, finishedAt := ending.1, exitCode := ending.2 }
  | _ => c

/-- A container that has not ended is only removed by force. -/
def needsForce (c : RuntimeContainerState) : Bool :=
  match c.status with
  | .running | .restarting | .paused => true
  | _ => false

theorem containerId_stopped (ending : Option Time × Option ℤ) (c : RuntimeContainerState) :
    (stopped ending c).containerId = c.containerId := by
  unfold stopped
  split <;> rfl

/-- A stopped container needs no force to be removed. -/
theorem needsForce_stopped (ending : Option Time × Option ℤ) (c : RuntimeContainerState) :
    needsForce (stopped ending c) = false := by
  unfold stopped needsForce
  rcases hs : c.status with _ | _ | _ | _ | _ | _ | _ | _ | _ <;> simp [hs]

variable {c : RuntimeContainerState}

theorem needsForce_of_not_isLive (h : c.status.isLive = false) : needsForce c = false := by
  unfold needsForce
  rcases hs : c.status with _ | _ | _ | _ | _ | _ | _ | _ | _ <;>
    simp [hs, ContainerStatus.isLive] at h ⊢

/-- The container `i` stopped, every other one as it is. -/
def stopOne (i : String) (ending : Option Time × Option ℤ) (c : RuntimeContainerState) :
    RuntimeContainerState :=
  if c.containerId = i then stopped ending c else c

theorem containerId_stopOne (i : String) (ending : Option Time × Option ℤ)
    (c : RuntimeContainerState) : (stopOne i ending c).containerId = c.containerId := by
  unfold stopOne
  split
  · exact containerId_stopped ending c
  · rfl

theorem find_stopOne_ne {d : Docker} {i j : String} (hj : j ≠ i) (ending : Option Time × Option ℤ) :
    (d.update (stopOne i ending) (containerId_stopOne i ending)).find j = d.find j := by
  rw [Docker.find_update]
  rcases hfind : d.find j with - | c
  · rfl
  · have hid : c.containerId ≠ i := by
      rw [Docker.containerId_of_find hfind]
      exact hj
    rw [Option.map_some, stopOne, if_neg hid]

/-- What a command answers and does. -/
def exec (env : DockerEnvironment) : (o : DockerOp) → Docker → o.Ret × Docker
  | listManagedContainers, d =>
    if env.fails d.commands then
      (.error ⟨.containerRuntime, "Failed to list managed containers"⟩, d.tick)
    else (.ok d.containers, d.tick)
  | inspectContainer i, d =>
    match d.find i with
    | none => (.error (notFound i), d.tick)
    | some c => if env.fails d.commands then (.error (notFound i), d.tick) else (.ok c, d.tick)
  | stopContainer i, d =>
    match d.find i with
    | none => (.error (notFound i), d.tick)
    | some c =>
      if env.fails d.commands then
        (.error ⟨.containerRuntime, s!"Failed to stop container '{i}'"⟩, d.tick)
      else
        (.ok (stopped (env.ends d.commands) c),
          d.update (stopOne i (env.ends d.commands)) (containerId_stopOne i _))
  | removeContainer i force, d =>
    match d.find i with
    | none => (.error (notFound i), d.tick)
    | some c =>
      if env.fails d.commands || (needsForce c && !force) then
        (.error ⟨.containerRuntime, s!"Failed to remove container '{i}'"⟩, d.tick)
      else (.ok (), d.remove i)

variable {env : DockerEnvironment}

theorem exec_stop {d : Docker} {i : String} (hfind : d.find i = some c)
    (hok : env.fails d.commands = false) :
    exec env (.stopContainer i) d = (.ok (stopped (env.ends d.commands) c),
      d.update (stopOne i (env.ends d.commands)) (containerId_stopOne i _)) := by
  simp [exec, hfind, hok]

theorem exec_remove {d : Docker} {i : String} {force : Bool} (hfind : d.find i = some c)
    (hok : env.fails d.commands = false) (hforce : needsForce c = false) :
    exec env (.removeContainer i force) d = (.ok (), d.remove i) := by
  simp [exec, hfind, hok, hforce]

/-- The container a command may change. -/
def target : DockerOp → Option String
  | stopContainer i => some i
  | removeContainer i _ => some i
  | _ => none

/-- Every other container is as it was. -/
theorem find_exec {o : DockerOp} {d : Docker} {j : String} (hj : o.target ≠ some j) :
    (exec env o d).2.find j = d.find j := by
  cases o with
  | listManagedContainers =>
    rw [exec]
    split <;> rfl
  | inspectContainer i =>
    rw [exec]
    split
    · rfl
    · split <;> rfl
  | stopContainer i =>
    have hne : j ≠ i := fun h => hj (congrArg some h.symm)
    rw [exec]
    split
    · rfl
    · split
      · rfl
      · exact find_stopOne_ne hne _
  | removeContainer i force =>
    have hne : j ≠ i := fun h => hj (congrArg some h.symm)
    rw [exec]
    split
    · rfl
    · split
      · rfl
      · exact Docker.find_remove_ne hne

theorem commands_exec (env : DockerEnvironment) (o : DockerOp) (d : Docker) :
    (exec env o d).2.commands = d.commands + 1 := by
  cases o with
  | listManagedContainers =>
    rw [exec]
    split <;> rfl
  | inspectContainer i =>
    rw [exec]
    split
    · rfl
    · split <;> rfl
  | stopContainer i =>
    rw [exec]
    split
    · rfl
    · split <;> rfl
  | removeContainer i force =>
    rw [exec]
    split
    · rfl
    · split <;> rfl

end DockerOp

abbrev DockerSig : Signature := ⟨DockerOp, DockerOp.Ret⟩

/-! ### Programs over store and daemon -/

abbrev HostSig : Signature := RuntimeSig.sum DockerSig

/-- A coroutine that also commands the daemon. -/
abbrev HostRun (α : Type) := Program HostSig RuntimeException α

/-- The store and its processes, beside the daemon. -/
abbrev Host := World × Docker

instance : MonadLift (Program RuntimeSig RuntimeException) (Program HostSig RuntimeException) :=
  ⟨Program.inl⟩

def hostHandler (env : Environment) (denv : DockerEnvironment) : Handler HostSig Host :=
  (handler env).sum (T := DockerSig) (DockerOp.exec denv)

/-- One command, and what it raises. -/
def command (o : DockerOp) : HostRun o.Ret := Program.performRight (T := DockerSig) o

/-- `list_managed_containers(all_containers=True)`. -/
def listManagedContainers : HostRun (List RuntimeContainerState) := do
  let answer ← command .listManagedContainers
  Program.ofExcept answer

/-- `inspect_container`. -/
def inspectContainer (containerId : String) : HostRun RuntimeContainerState := do
  let answer ← command (.inspectContainer containerId)
  Program.ofExcept answer

/-- `stop_container`. -/
def stopContainer (containerId : String) : HostRun RuntimeContainerState := do
  let answer ← command (.stopContainer containerId)
  Program.ofExcept answer

/-- `remove_container`. -/
def removeContainer (containerId : String) (force : Bool) : HostRun Unit := do
  let answer ← command (.removeContainer containerId force)
  Program.ofExcept answer

/-- A live container is stopped first. -/
def stopIfLive (containerId : String) (inspected : RuntimeContainerState) :
    HostRun RuntimeContainerState :=
  if inspected.status.isLive then stopContainer containerId else return inspected

/-- Stop a container that has been inspected, and remove it: its last state. -/
def stopInspected (containerId : String) (inspected : RuntimeContainerState) :
    HostRun RuntimeContainerState := do
  let container ← stopIfLive containerId inspected
  removeContainer containerId container.status.isExited
  return container

/-- Stop and remove a container: its last state. -/
def stopAndRemove (containerId : String) : HostRun RuntimeContainerState := do
  let inspected ← inspectContainer containerId
  let container ← stopIfLive containerId inspected
  removeContainer containerId container.status.isExited
  return container

/-- The container an execution is linked to. -/
def Execution.container (e : Execution) : Option String := e.containerId.filter (· ≠ "")

/-- The container's columns once it is removed. -/
def Execution.withRemoved (e : Execution) (c : RuntimeContainerState) (endedAt : Time) :
    Execution :=
  { e with
    containerStatus := some .removed
    containerEndedAt := some endedAt
    containerExitCode := c.exitCode }

/-- `value or utc_now()`. -/
def orUtcNow : Option Time → Coroutine Time
  | some t => return t
  | none => utcNow

/-! ### Events of a state the caller holds -/

/-- `_event_state_for`: a state that continues from the last event of the log. -/
def eventStateFor (executionId : Uuid) (workflowId : String) : Coroutine NativeExecutionState := do
  let events ← query (.listEvents executionId)
  let st : NativeExecutionState := { executionId := executionId, workflowId := workflowId }
  return match events.getLast? with
    | none => st
    | some last => { st with sequence := last.sequence, lastEventId := some last.id }

/-- An emission on such a state, which follows the position of the event. -/
def emitHeld (st : NativeExecutionState) (eventType : ExecutionEventType) :
    Coroutine NativeExecutionState := do
  let saved ← appendEvent { st with sequence := st.sequence + 1 } eventType {}
  return { st with sequence := saved.sequence, lastEventId := some saved.id }

/-! ### What the host's steps need -/

variable {env : Environment} {denv : DockerEnvironment} {w w' : World}

namespace Docker

/-- The daemon answers its next `n` commands. -/
def Answers (denv : DockerEnvironment) (n : ℕ) (d : Docker) : Prop :=
  ∀ k, d.commands ≤ k → k < d.commands + n → denv.fails k = false

/-- Up to `n` more commands have been issued, none of which changed what is known of the
containers outside `S`. -/
structure Kept (S : String → Prop) (n : ℕ) (d d' : Docker) : Prop where
  find : ∀ j, ¬ S j → d'.find j = d.find j
  commands : d.commands ≤ d'.commands
  bound : d'.commands ≤ d.commands + n

end Docker

section Commands

variable {d : Docker} {i : String} {c : RuntimeContainerState}
  {E : RuntimeException → Host → Prop}

variable {Q : RuntimeContainerState → Host → Prop}

theorem wp_inspectContainer (hfind : d.find i = some c) (hok : denv.fails d.commands = false)
    (hQ : Q c (w, d.tick)) :
    (inspectContainer i).wp (hostHandler env denv) Q E (w, d) := by
  rw [inspectContainer, command, hostHandler, wp_performRight_bind]
  simp only [DockerOp.exec, hfind, hok]
  exact wp_of_done hQ

theorem wp_stopContainer (hfind : d.find i = some c) (hok : denv.fails d.commands = false)
    (hQ : ∀ d', d'.commands = d.commands + 1 →
      d'.find i = some (DockerOp.stopped (denv.ends d.commands) c) → (∀ j, j ≠ i →
      d'.find j = d.find j) → Q (DockerOp.stopped (denv.ends d.commands) c) (w, d')) :
    (stopContainer i).wp (hostHandler env denv) Q E (w, d) := by
  rw [stopContainer, command, hostHandler, wp_performRight_bind,
    DockerOp.exec_stop hfind hok]
  apply wp_of_done
  apply hQ
  · rfl
  · rw [Docker.find_update, hfind, Option.map_some, DockerOp.stopOne,
      if_pos (Docker.containerId_of_find hfind)]
  · exact fun j hj => DockerOp.find_stopOne_ne hj _

theorem wp_removeContainer {Q : Unit → Host → Prop} {force : Bool} (hfind : d.find i = some c)
    (hok : denv.fails d.commands = false) (hforce : DockerOp.needsForce c = false)
    (hQ : ∀ d', d'.commands = d.commands + 1 → (∀ j, j ≠ i → d'.find j = d.find j) → Q () (w, d')) :
    (removeContainer i force).wp (hostHandler env denv) Q E (w, d) := by
  rw [removeContainer, command, hostHandler, wp_performRight_bind,
    DockerOp.exec_remove hfind hok hforce]
  apply wp_of_done
  apply hQ
  · rfl
  · intro j hj
    exact Docker.find_remove_ne hj

theorem wp_listManagedContainers {Q : List RuntimeContainerState → Host → Prop}
    (hfails : ∀ exc, E exc (w, d.tick)) (hok : Q d.containers (w, d.tick)) :
    listManagedContainers.wp (hostHandler env denv) Q E (w, d) := by
  rw [listManagedContainers, command, hostHandler, wp_performRight_bind]
  simp only [DockerOp.exec]
  split
  · exact wp_of_raise (hfails _)
  · exact wp_of_done hok

/-- The daemon may fail to answer. -/
theorem wp_attempt_inspectContainer {Q : Except RuntimeException RuntimeContainerState → Host → Prop}
    (hfails : (d.find i = none ∨ denv.fails d.commands = true) →
      Q (.error (DockerOp.notFound i)) (w, d.tick))
    (hok : ∀ c, d.find i = some c → Q (.ok c) (w, d.tick)) :
    (inspectContainer i).attempt.wp (hostHandler env denv) Q E (w, d) := by
  rw [wp_attempt, inspectContainer, command, hostHandler, wp_performRight_bind]
  simp only [DockerOp.exec]
  split
  next hnone => exact wp_of_raise (hfails (.inl hnone))
  next c hfind =>
    split
    next hfail => exact wp_of_raise (hfails (.inr hfail))
    · exact wp_of_done (hok c hfind)

/-- The removal of a container that is there and needs no force. -/
theorem wp_attempt_removeContainer {Q : Except RuntimeException Unit → Host → Prop} {force : Bool}
    (hfind : d.find i = some c) (hforce : DockerOp.needsForce c = false)
    (hfails : denv.fails d.commands = true → ∀ exc, Q (.error exc) (w, d.tick))
    (hok : Q (.ok ()) (w, d.remove i)) :
    (removeContainer i force).attempt.wp (hostHandler env denv) Q E (w, d) := by
  rw [wp_attempt, removeContainer, command, hostHandler, wp_performRight_bind]
  rcases hfail : denv.fails d.commands with - | -
  · rw [DockerOp.exec_remove hfind hfail hforce]
    exact wp_of_done hok
  · have hexec : DockerOp.exec denv (.removeContainer i force) d =
        (.error ⟨.containerRuntime, s!"Failed to remove container '{i}'"⟩, d.tick) := by
      simp [DockerOp.exec, hfind, hfail]
    rw [hexec]
    exact wp_of_raise (hfails hfail _)

end Commands

variable {E : RuntimeException → Host → Prop}

/-- A coroutine in front of what else is done on the host. -/
theorem wp_lift_bind {α β : Type} {p : Coroutine α} {f : α → HostRun β} {d : Docker}
    {Q : β → Host → Prop}
    (h : p.wp (handler env) (fun a w' => (f a).wp (hostHandler env denv) Q E (w', d)) (fun e w' => E
      e (w', d)) w) :
    ((liftM p : HostRun α) >>= f).wp (hostHandler env denv) Q E (w, d) :=
  (wp_inl_bind (T := DockerSig) p f (w, d)).mpr h

theorem wp_lift_query {β : Type} {o : DbOp} {f : o.Ret → HostRun β} {d : Docker}
    {Q : β → Host → Prop}
    (h : (f (o.exec w.db).1).wp (hostHandler env denv) Q E ({ w with db := (o.exec w.db).2 }, d)) :
    ((liftM (query o) : HostRun o.Ret) >>= f).wp (hostHandler env denv) Q E (w, d) := by
  apply wp_lift_bind
  rw [← bind_done (query _), wp_query]
  exact wp_of_done h

/-- A coroutine at the end of what is done on the host. -/
theorem wp_lift {α : Type} {p : Coroutine α} {d : Docker} {Q : α → Host → Prop}
    (h : p.wp (handler env) (fun a w' => Q a (w', d)) (fun e w' => E e (w', d)) w) :
    (liftM p : HostRun α).wp (hostHandler env denv) Q E (w, d) :=
  (wp_inl (T := DockerSig) p (w, d)).mpr h

end OpenAgency
