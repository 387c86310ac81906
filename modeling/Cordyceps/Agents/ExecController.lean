import Cordyceps.Agents.Runtime
import Cordyceps.Foundations.LineFraming
import Cordyceps.Foundations.Slots
import Cordyceps.Foundations.StepMachine

/-!
# The exec controller

`agents/exec-controller.ts` as a step machine. Every `submit` spawns at most
one child, so a submit and its child share a record. An event is one turn of
the event loop: a caller's call, a child's event, a timer, or the continuation
of a submit whose `await` was answered. A continuation may run at any later
turn; this covers every order in which the event loop can run them. A driver's
`buildExec` and the operating system's answer to `spawn` come with the event
that calls them.
-/

namespace Cordyceps.Agents

open Foundations Foundations.LineFraming Drivers

abbrev Signal := JsString

def sigterm : Signal := js "SIGTERM"

/-- The options of `submit` that decide what it does; time is left to timer events. -/
structure SubmitOptions where
  expectMessage : Bool
  interruptIfBusy : Bool
  deriving DecidableEq, Repr

/-- A `ChildProcess` never got a process, has one, or reported the end of it. -/
inductive Life
  | failed
  | running
  | exited
  deriving DecidableEq, Repr

/-- The locals of one `runChild` call. `written`, `code` and `signals` observe what the process
wrote, how it ended and what it was sent while it ran; no handler reads them. -/
structure Child where
  spec : ExecSpec
  env : JsMap JsString JsString
  life : Life
  stdoutBuf : JsString
  timerArmed : Bool
  errorHandled : Bool
  written : JsString
  code : Option ℤ
  signals : List Signal

/-- Why a submit rejects. -/
inductive Rejection
  | agentExited
  | alreadyProcessing
  | buildFailed
  | spawnFailed
  | childError
  | timedOut
  | childExited (code : Option ℤ) (signal : Option Signal)
  deriving DecidableEq, Repr

/-- How the promise of `runChild` was settled. -/
inductive Outcome
  | resolved
  | rejected (reason : Rejection)
  deriving DecidableEq, Repr

/-- Where a call of `submit` stands. While it awaits `runChild` its message listener is on. -/
inductive SubmitPhase
  | suspended
  | awaiting (outcome : Option Outcome)
  | returned (message : Option AssistantMessage)
  | rejected (reason : Rejection)
  deriving DecidableEq, Repr

/-- The message that the call has returned. -/
def SubmitPhase.message : SubmitPhase → Option AssistantMessage
  | .returned message => message
  | _ => none

theorem SubmitPhase.message_eq_some_iff {phase : SubmitPhase} {message : AssistantMessage} :
    phase.message = some message ↔ phase = .returned (some message) := by
  cases phase <;> simp [SubmitPhase.message]

structure ExecSubmit where
  expectMessage : Bool
  phase : SubmitPhase
  messages : List AssistantMessage
  child : Option Child

/-- The controller. `activeChild` is the submit whose child is the active one; `crashed` is set
when a handler lets an exception escape, which ends the daemon. -/
structure ExecAgent (Scratch : Type*) where
  core : AgentCore Scratch
  env : JsMap JsString JsString
  activeChild : Option ℕ
  submits : List ExecSubmit
  crashed : Bool

/-- What `buildExec` and `spawn` did when a submit reached them. A child that could not be
started still becomes the active child and reports an `error` later. -/
inductive Launch
  | buildThrows
  | spawnThrows (spec : ExecSpec)
  | fails (spec : ExecSpec)
  | starts (spec : ExecSpec)

/-- One turn of the event loop; numbers name the submit. -/
inductive ExecEvent
  | submit (opts : SubmitOptions) (launch : Launch)
  | resume (k : ℕ) (launch : Launch)
  | settle (k : ℕ)
  | data (k : ℕ) (now : Timestamp) (chunk : JsString)
  | exit (k : ℕ) (now : Timestamp) (code : Option ℤ) (signal : Option Signal)
  | error (k : ℕ)
  | timer (k : ℕ)
  | interrupt
  | kill (signal : Signal)

namespace ExecSubmit

/-- The child has a process that has not reported its exit. -/
def runs (submit : ExecSubmit) : Bool := submit.child.any fun child ↦ child.life = .running

/-- The child's process was sent a signal. -/
def signalled (submit : ExecSubmit) : Bool := submit.child.any fun child ↦ !child.signals.isEmpty

def onChild (change : Child → Child) (submit : ExecSubmit) : ExecSubmit :=
  { submit with child := submit.child.map change }

/-- Settle the promise of `runChild`, unless it already is. -/
def settlePromise (outcome : Outcome) (submit : ExecSubmit) : ExecSubmit :=
  match submit.phase with
  | .awaiting none => { submit with phase := .awaiting (some outcome) }
  | _ => submit

/-- Hand emitted messages to the submit's listener. -/
def deliver (messages : List AssistantMessage) (submit : ExecSubmit) : ExecSubmit :=
  match submit.phase with
  | .awaiting _ => { submit with messages := submit.messages ++ messages }
  | _ => submit

theorem child_settlePromise (outcome : Outcome) (submit : ExecSubmit) :
    (submit.settlePromise outcome).child = submit.child := by
  unfold settlePromise
  split <;> rfl

theorem child_deliver (messages : List AssistantMessage) (submit : ExecSubmit) :
    (submit.deliver messages).child = submit.child := by
  unfold deliver
  split <;> rfl

theorem phase_deliver (messages : List AssistantMessage) (submit : ExecSubmit) :
    (submit.deliver messages).phase = submit.phase := by
  unfold deliver
  split <;> rfl

end ExecSubmit

namespace Child

/-- The locals of `runChild` after `spawn` returned. -/
def spawned (spec : ExecSpec) (env : JsMap JsString JsString) (life : Life) : Child where
  spec := spec
  env := env
  life := life
  stdoutBuf := []
  timerArmed := true
  errorHandled := false
  written := []
  code := none
  signals := []

/-- `child.kill(signal)`, on a process that may be gone. -/
def kill (signal : Signal) (child : Child) : Child :=
  if child.life = .running then { child with signals := child.signals ++ [signal] } else child

/-- A chunk arrived and left `rest` in the buffer. -/
def received (chunk rest : JsString) (child : Child) : Child :=
  { child with stdoutBuf := rest, written := child.written ++ chunk }

def ended (code : Option ℤ) (child : Child) : Child :=
  { child with timerArmed := false, life := .exited, code := code }

def clearOutput (child : Child) : Child := { child with stdoutBuf := [] }

def disarm (child : Child) : Child := { child with timerArmed := false }

end Child

namespace ExecAgent

variable {Scratch : Type*}

/-- The constructor: idle, with the four bus keys written. -/
def create (parser : DriverParser Scratch) (id driverId cwd : JsString)
    (env : JsMap JsString JsString) : ExecAgent Scratch where
  core := AgentCore.announce ⟨id, parser.initialState.withStatus .idle, [], false, none,
    parser.scratch, []⟩ driverId cwd .exec
  env := env
  activeChild := none
  submits := []
  crashed := false

def onSubmit (k : ℕ) (change : ExecSubmit → ExecSubmit) (agent : ExecAgent Scratch) :
    ExecAgent Scratch :=
  { agent with submits := agent.submits.modify k change }

def push (submit : ExecSubmit) (agent : ExecAgent Scratch) : ExecAgent Scratch :=
  { agent with submits := agent.submits ++ [submit] }

/-- `this.activeChild?.kill(signal)`. -/
def signalActive (signal : Signal) (agent : ExecAgent Scratch) : ExecAgent Scratch :=
  match agent.activeChild with
  | some k => agent.onSubmit k (ExecSubmit.onChild (Child.kill signal))
  | none => agent

/-- A child object exists: it is the active one and the submit awaits it. -/
def spawn (k : ℕ) (spec : ExecSpec) (life : Life) (agent : ExecAgent Scratch) :
    ExecAgent Scratch :=
  { agent with core := agent.core.setStatus .busy, activeChild := some k }.onSubmit k fun submit ↦
    { submit with
      phase := .awaiting none
      -- `{ ...spec.env, ...this.env }`
      child := some (.spawned spec (spec.env.assign agent.env) life) }

/-- `submit` from `buildExec` to the `await` of `runChild`, with the spawn that `runChild` does. -/
def proceed (k : ℕ) (launch : Launch) (agent : ExecAgent Scratch) : ExecAgent Scratch :=
  match launch with
  | .buildThrows =>
    agent.onSubmit k fun submit ↦ { submit with phase := .rejected .buildFailed }
  | .spawnThrows _ =>
    { agent with core := agent.core.setStatus .busy }.onSubmit k fun submit ↦
      { submit with phase := .awaiting (some (.rejected .spawnFailed)) }
  | .fails spec => agent.spawn k spec .failed
  | .starts spec => agent.spawn k spec .running

/-- `submit`, up to its first `await`. -/
def submit (opts : SubmitOptions) (launch : Launch) (agent : ExecAgent Scratch) :
    ExecAgent Scratch :=
  if agent.core.exited then agent.push ⟨opts.expectMessage, .rejected .agentExited, [], none⟩
  else
    match agent.activeChild with
    | some _ =>
      if opts.interruptIfBusy then
        (agent.push ⟨opts.expectMessage, .suspended, [], none⟩).signalActive sigterm
      else agent.push ⟨opts.expectMessage, .rejected .alreadyProcessing, [], none⟩
    | none =>
      (agent.push ⟨opts.expectMessage, .suspended, [], none⟩).proceed agent.submits.length launch

/-- `interrupt`. -/
def interrupt (agent : ExecAgent Scratch) : ExecAgent Scratch :=
  if agent.core.exited then agent else agent.signalActive sigterm

/-- `kill`. -/
def kill (signal : Signal) (agent : ExecAgent Scratch) : ExecAgent Scratch :=
  if agent.core.exited then agent
  else
    let payload := Json.obj [(js "code", .num 0), (js "signal", .str signal)]
    let agent := agent.signalActive signal
    { agent with core := agent.core.markExited 0 payload }

section Output

variable (parser : DriverParser Scratch) (now : Timestamp)

/-- Feed chunks to the parser: the transcript grows by the emitted messages, which every
listening submit receives. -/
def feed (chunks : List JsString) (agent : ExecAgent Scratch) : ExecAgent Scratch :=
  let fed := agent.core.feedAll parser now chunks
  { agent with
    core := fed.1
    submits := agent.submits.map (ExecSubmit.deliver
      (fed.1.transcript.drop agent.core.transcript.length))
    crashed := fed.2 }

/-- Plain-text mode: the trimmed stdout is the message. -/
def say (text : JsString) (agent : ExecAgent Scratch) : ExecAgent Scratch :=
  if text.isEmpty then agent
  else
    { agent with
      core := agent.core.pushMessage ⟨text, now, none⟩
      submits := agent.submits.map (ExecSubmit.deliver [⟨text, now, none⟩]) }

/-- The chunk goes to observers of the raw output. -/
def emitOutput (chunk : JsString) (agent : ExecAgent Scratch) : ExecAgent Scratch :=
  let output := BusCall.emit (agentKey agent.core.id (js "output")) (.text chunk)
  { agent with core := agent.core.record [output] }

/-- The handler of stdout `data`. -/
def onData (k : ℕ) (chunk : JsString) (child : Child) (agent : ExecAgent Scratch) :
    ExecAgent Scratch :=
  let text := child.stdoutBuf ++ chunk
  match child.spec.parseOutput with
  | .jsonl =>
    ((agent.emitOutput chunk).onSubmit k (ExecSubmit.onChild
      (Child.received chunk (rest newline text)))).feed parser now (lines newline text)
  | .json | .text =>
    (agent.emitOutput chunk).onSubmit k (ExecSubmit.onChild (Child.received chunk text))

/-- What the handler of `exit` does with the accumulated stdout. -/
def flushOutput (child : Child) (agent : ExecAgent Scratch) : ExecAgent Scratch :=
  match child.spec.parseOutput with
  | .text => agent.say now (JsString.trimEnd child.stdoutBuf)
  | .json | .jsonl =>
    agent.feed parser now (piece child.stdoutBuf ++ [[]])

/-- The handler of `exit`. When feeding throws, the promise is never settled. -/
def onExit (k : ℕ) (code : Option ℤ) (signal : Option Signal) (child : Child)
    (agent : ExecAgent Scratch) : ExecAgent Scratch :=
  let ended := { agent with activeChild := none }.onSubmit k (ExecSubmit.onChild (Child.ended code))
  let flushed := (ended.flushOutput parser now child).onSubmit k
    (ExecSubmit.onChild Child.clearOutput)
  if flushed.crashed then flushed
  else flushed.onSubmit k (ExecSubmit.settlePromise
    (if code = some 0 ∨ signal = some sigterm then .resolved
      else .rejected (.childExited code signal)))

end Output

/-- The handler of `error`, registered with `once`. -/
def onError (k : ℕ) (child : Child) (agent : ExecAgent Scratch) : ExecAgent Scratch :=
  if child.errorHandled then agent
  else
    { agent with activeChild := none }.onSubmit k fun submit ↦
      (submit.onChild fun child ↦ { child.disarm with errorHandled := true }).settlePromise
        (.rejected .childError)

/-- The submit's timer. -/
def onTimer (k : ℕ) (agent : ExecAgent Scratch) : ExecAgent Scratch :=
  agent.onSubmit k fun submit ↦
    (submit.settlePromise (.rejected .timedOut)).onChild fun child ↦ child.disarm.kill sigterm

/-- The rest of `submit` after `runChild`: the `finally` block and the result. -/
def finish (k : ℕ) (outcome : Outcome) (agent : ExecAgent Scratch) : ExecAgent Scratch :=
  let core := if agent.core.state.status = .busy then agent.core.setStatus .idle else agent.core
  { agent with core }.onSubmit k fun submit ↦
    { submit with phase := match outcome with
        | .resolved => .returned (if submit.expectMessage then submit.messages.getLast? else none)
        | .rejected reason => .rejected reason }

def phaseOf (agent : ExecAgent Scratch) (k : ℕ) : Option SubmitPhase :=
  agent.submits[k]?.map ExecSubmit.phase

def childOf (agent : ExecAgent Scratch) (k : ℕ) : Option Child :=
  agent.submits[k]?.bind ExecSubmit.child

/-- One turn. An event that cannot happen in a state has no successor. -/
def step (parser : DriverParser Scratch) (agent : ExecAgent Scratch) (event : ExecEvent) :
    Option (ExecAgent Scratch) :=
  if agent.crashed then none
  else
    match event with
    | .submit opts launch => some (agent.submit opts launch)
    | .resume k launch =>
      if agent.phaseOf k = some .suspended then some (agent.proceed k launch) else none
    | .settle k =>
      match agent.phaseOf k with
      | some (.awaiting (some outcome)) => some (agent.finish k outcome)
      | _ => none
    | .data k now chunk =>
      match agent.childOf k with
      | some child =>
        if child.life = .failed then none else some (onData parser now k chunk child agent)
      | none => none
    | .exit k now code signal =>
      match agent.childOf k with
      | some child =>
        if child.life = .running then some (onExit parser now k code signal child agent) else none
      | none => none
    | .error k =>
      match agent.childOf k with
      | some child => some (agent.onError k child)
      | none => none
    | .timer k =>
      match agent.childOf k with
      | some child => if child.timerArmed then some (agent.onTimer k) else none
      | none => none
    | .interrupt => some agent.interrupt
    | .kill signal => some (agent.kill signal)

/-- All that one turn can do. -/
inductive Turn (parser : DriverParser Scratch) (agent : ExecAgent Scratch) :
    ExecEvent → ExecAgent Scratch → Prop
  | submit (opts : SubmitOptions) (launch : Launch) :
      Turn parser agent (.submit opts launch) (agent.submit opts launch)
  | resume {k : ℕ} (launch : Launch) (hphase : agent.phaseOf k = some .suspended) :
      Turn parser agent (.resume k launch) (agent.proceed k launch)
  | settle {k : ℕ} {outcome : Outcome} (hphase : agent.phaseOf k = some (.awaiting (some outcome))) :
      Turn parser agent (.settle k) (agent.finish k outcome)
  | data {k : ℕ} (now : Timestamp) (chunk : JsString) {child : Child}
      (hchild : agent.childOf k = some child) (hlife : child.life ≠ .failed) :
      Turn parser agent (.data k now chunk) (onData parser now k chunk child agent)
  | exit {k : ℕ} (now : Timestamp) (code : Option ℤ) (signal : Option Signal) {child : Child}
      (hchild : agent.childOf k = some child) (hlife : child.life = .running) :
      Turn parser agent (.exit k now code signal) (onExit parser now k code signal child agent)
  | error {k : ℕ} {child : Child} (hchild : agent.childOf k = some child) :
      Turn parser agent (.error k) (agent.onError k child)
  | timer {k : ℕ} {child : Child} (hchild : agent.childOf k = some child)
      (harmed : child.timerArmed = true) : Turn parser agent (.timer k) (agent.onTimer k)
  | interrupt : Turn parser agent .interrupt agent.interrupt
  | kill (signal : Signal) : Turn parser agent (.kill signal) (agent.kill signal)

theorem turn_of_step {parser : DriverParser Scratch} {agent next : ExecAgent Scratch}
    {event : ExecEvent} (h : agent.step parser event = some next) :
    agent.crashed = false ∧ Turn parser agent event next := by
  unfold step at h
  split at h
  · cases h
  · refine ⟨Bool.eq_false_iff.mpr ‹_›, ?_⟩
    cases event with
    | submit opts launch =>
      cases h
      exact .submit opts launch
    | resume k launch =>
      simp only at h
      split at h
      · cases h
        exact .resume launch ‹_›
      · cases h
    | settle k =>
      simp only at h
      split at h
      · cases h
        exact .settle ‹_›
      · cases h
    | data k now chunk =>
      simp only at h
      split at h
      · split at h
        · cases h
        · cases h
          exact .data now chunk ‹_› ‹_›
      · cases h
    | exit k now code signal =>
      simp only at h
      split at h
      · split at h
        · cases h
          exact .exit now code signal ‹_› ‹_›
        · cases h
      · cases h
    | error k =>
      simp only at h
      split at h
      · cases h
        exact .error ‹_›
      · cases h
    | timer k =>
      simp only at h
      split at h
      · split at h
        · cases h
          exact .timer ‹_› ‹_›
        · cases h
      · cases h
    | interrupt =>
      cases h
      exact .interrupt
    | kill signal =>
      cases h
      exact .kill signal

section Fields

variable (agent : ExecAgent Scratch)

@[simp]
theorem activeChild_signalActive (signal : Signal) :
    (agent.signalActive signal).activeChild = agent.activeChild := by
  unfold signalActive
  split <;> rfl

@[simp]
theorem core_signalActive (signal : Signal) : (agent.signalActive signal).core = agent.core := by
  unfold signalActive
  split <;> rfl

@[simp]
theorem crashed_signalActive (signal : Signal) :
    (agent.signalActive signal).crashed = agent.crashed := by
  unfold signalActive
  split <;> rfl

end Fields

end ExecAgent

end Cordyceps.Agents
