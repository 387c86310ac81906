import Cordyceps.Agents.ExecController

/-!
# The pty controller

`agents/pty-controller.ts`, with the terminal of `core/pty.ts`, as a step
machine. A submit here is not tied to a process: it runs the driver's control,
whose keystrokes are events of their own, and then waits for the next message.
The server-ws controller repeats this `submit` word for word, so the calls that
wait for a message are stated apart from the controller.
-/

namespace Cordyceps.Agents

open Foundations Drivers

/-! ## Calls that wait for a message -/

/-- Why a submit of an interactive controller rejects. -/
inductive ChatRejection
  | agentExited
  | notReady
  | controlFailed
  deriving DecidableEq, Repr

/-- The message promise of a submit, if it has one. -/
inductive Reply
  | unwanted
  | listening
  | received (message : AssistantMessage)
  | timedOut
  deriving DecidableEq, Repr

/-- Where a call of `submit` stands: awaiting `control.interrupt`, `control.submit` or the message
promise, or done. -/
inductive ChatPhase
  | interrupting
  | controlling
  | waiting
  | returned (message : Option AssistantMessage)
  | rejected (reason : ChatRejection)
  deriving DecidableEq, Repr

structure ChatSubmit where
  expectMessage : Bool
  phase : ChatPhase
  reply : Reply
  deriving DecidableEq, Repr

/-- The turns that only concern the calls of `submit`; numbers name the call. -/
inductive ChatEvent
  | submit (opts : SubmitOptions)
  | interrupted (k : ℕ)
  | interruptThrow (k : ℕ)
  | controlDone (k : ℕ)
  | controlThrow (k : ℕ)
  | timer (k : ℕ)
  | settle (k : ℕ)

namespace ChatSubmit

def create (opts : SubmitOptions) (phase : ChatPhase) : ChatSubmit :=
  ⟨opts.expectMessage, phase, .unwanted⟩

/-- `waitForMessage`, if a message is expected, and the call of `control.submit`. -/
def engage (submit : ChatSubmit) : ChatSubmit :=
  { submit with
    phase := .controlling
    reply := if submit.expectMessage then .listening else .unwanted }

/-- The first emitted message settles the promise. -/
def deliver (messages : List AssistantMessage) (submit : ChatSubmit) : ChatSubmit :=
  match submit.reply, messages with
  | .listening, message :: _ => { submit with reply := .received message }
  | _, _ => submit

def withPhase (phase : ChatPhase) (submit : ChatSubmit) : ChatSubmit := { submit with phase }

/-- What `control.submit` coming back leads to. -/
def controlDone (submit : ChatSubmit) : ChatSubmit :=
  match submit.reply with
  | .unwanted => submit.withPhase (.returned none)
  | _ => submit.withPhase .waiting

/-- The result of `submit` once its message promise is settled. -/
def result (submit : ChatSubmit) : Option (Option AssistantMessage) :=
  match submit.phase, submit.reply with
  | .waiting, .received message => some (some message)
  | .waiting, .timedOut => some none
  | _, _ => none

/-- One turn of the calls. `refusal` is why the controller takes no submit, `busy` whether it has
to interrupt first. The flag tells that a message promise was rejected with nobody awaiting it,
which ends the daemon. -/
def step (refusal : Option ChatRejection) (busy : Bool) (submits : List ChatSubmit) :
    ChatEvent → Option (List ChatSubmit × Bool)
  | .submit opts =>
    match refusal with
    | some reason => some (submits ++ [create opts (.rejected reason)], false)
    | none =>
      if opts.interruptIfBusy && busy then some (submits ++ [create opts .interrupting], false)
      else some (submits ++ [(create opts .controlling).engage], false)
  | .interrupted k =>
    if submits[k]?.map phase = some .interrupting then some (submits.modify k engage, false)
    else none
  | .interruptThrow k =>
    if submits[k]?.map phase = some .interrupting then
      some (submits.modify k (withPhase (.rejected .controlFailed)), false)
    else none
  | .controlDone k =>
    if submits[k]?.map phase = some .controlling then some (submits.modify k controlDone, false)
    else none
  | .controlThrow k =>
    if submits[k]?.map phase = some .controlling then
      -- the listener and its timer stay behind
      some (submits.modify k (withPhase (.rejected .controlFailed)), false)
    else none
  | .timer k =>
    if submits[k]?.map reply = some .listening then
      some (submits.modify k fun submit ↦ { submit with reply := .timedOut },
        decide (submits[k]?.map phase ≠ some .waiting))
    else none
  | .settle k =>
    match submits[k]?.bind result with
    | some message => some (submits.modify k (withPhase (.returned message)), false)
    | none => none

end ChatSubmit

/-! ## The terminal -/

/-- A `PtyProcess` has spawned nothing, has a process, or saw it end. -/
inductive PtyLife
  | absent
  | running
  | exited
  deriving DecidableEq, Repr

/-- `input` and `signals` observe what the process was sent. -/
structure PtyProcess where
  options : SpawnSpec
  life : PtyLife
  input : List JsString
  signals : List Signal

namespace PtyProcess

/-- Write to the terminal; nothing happens without a process. -/
def write (data : JsString) (pty : PtyProcess) : PtyProcess :=
  if pty.life = .running then { pty with input := pty.input ++ [data] } else pty

def kill (signal : Signal) (pty : PtyProcess) : PtyProcess :=
  if pty.life = .running then { pty with signals := pty.signals ++ [signal] } else pty

/-- How many processes were spawned. -/
def launches (pty : PtyProcess) : ℕ := if pty.life = .absent then 0 else 1

@[simp]
theorem life_write (data : JsString) (pty : PtyProcess) : (pty.write data).life = pty.life := by
  unfold write
  split <;> rfl

@[simp]
theorem life_kill (signal : Signal) (pty : PtyProcess) : (pty.kill signal).life = pty.life := by
  unfold kill
  split <;> rfl

end PtyProcess

/-! ## The controller -/

/-- `started` is the outcome of `start`, once it ran. -/
structure PtyAgent (Scratch : Type*) where
  core : AgentCore Scratch
  scrollback : List JsString
  pty : PtyProcess
  started : Option Bool
  submits : List ChatSubmit
  crashed : Bool

/-- One turn of the event loop. `controlWrite` is a keystroke of the driver's control, `rawWrite`
one of a caller. -/
inductive PtyEvent
  | start (spawns : Bool)
  | call (event : ChatEvent)
  | controlWrite (data : JsString)
  | rawWrite (data : JsString)
  | data (now : Timestamp) (chunk : JsString)
  | exit (code signal : ℤ)
  | kill (signal : Signal)

namespace PtyAgent

variable {Scratch : Type*}

def scrollbackMax : ℕ := 500

/-- The constructor, after `buildPtySpawn`: the parser's own initial state, with the four bus
keys written. -/
def create (parser : DriverParser Scratch) (id driverId cwd : JsString) (options : SpawnSpec) :
    PtyAgent Scratch where
  core := AgentCore.announce ⟨id, parser.initialState, [], false, none, parser.scratch, []⟩
    driverId cwd .pty
  scrollback := []
  pty := ⟨options, .absent, [], []⟩
  started := none
  submits := []
  crashed := false

/-- `start`. When `pty.spawn` throws there is no process. -/
def start (spawns : Bool) (agent : PtyAgent Scratch) : PtyAgent Scratch :=
  { agent with
    started := some spawns
    pty := if spawns then { agent.pty with life := .running } else agent.pty }

/-- `submit`, and what follows it. -/
def call (event : ChatEvent) (agent : PtyAgent Scratch) : Option (PtyAgent Scratch) :=
  let refusal := if agent.core.exited then some ChatRejection.agentExited else none
  (ChatSubmit.step refusal (agent.core.state.status = .busy) agent.submits event).map
    fun (submits, crashed) ↦ { agent with submits, crashed }

def controlWrite (data : JsString) (agent : PtyAgent Scratch) : PtyAgent Scratch :=
  { agent with pty := agent.pty.write data }

/-- `rawWrite`. -/
def rawWrite (data : JsString) (agent : PtyAgent Scratch) : PtyAgent Scratch :=
  if agent.core.exited then agent else agent.controlWrite data

/-- `onPtyData`. -/
def onPtyData (parser : DriverParser Scratch) (now : Timestamp) (chunk : JsString)
    (agent : PtyAgent Scratch) : PtyAgent Scratch :=
  let output := BusCall.emit (agentKey agent.core.id (js "output")) (.text chunk)
  let scrollback := agent.scrollback ++ [chunk]
  let fed := (agent.core.record [output]).feedAll parser now [chunk]
  { agent with
    core := fed.1
    scrollback := scrollback.drop (scrollback.length - scrollbackMax)
    submits := agent.submits.map (ChatSubmit.deliver
      (fed.1.transcript.drop agent.core.transcript.length))
    crashed := fed.2 }

/-- `onPtyExit`. -/
def onPtyExit (code signal : ℤ) (agent : PtyAgent Scratch) : PtyAgent Scratch :=
  let payload := Json.obj [(js "code", .num code), (js "signal", .num signal)]
  { agent with
    core := agent.core.markExited code payload
    pty := { agent.pty with life := .exited } }

/-- `kill`, which then waits for the exit. -/
def kill (signal : Signal) (agent : PtyAgent Scratch) : PtyAgent Scratch :=
  if agent.core.exited then agent else { agent with pty := agent.pty.kill signal }

/-- One turn. The factory runs `start` right after the constructor, before anything else can
happen; data may still be delivered after the exit was reported. -/
def step (parser : DriverParser Scratch) (agent : PtyAgent Scratch) (event : PtyEvent) :
    Option (PtyAgent Scratch) :=
  if agent.crashed then none
  else
    match agent.started, event with
    | none, .start spawns => some (agent.start spawns)
    | none, _ => none
    | some _, .start _ => none
    | some _, .call event => agent.call event
    | some _, .controlWrite data => some (agent.controlWrite data)
    | some _, .rawWrite data => some (agent.rawWrite data)
    | some _, .data now chunk =>
      if agent.pty.life = .absent then none else some (agent.onPtyData parser now chunk)
    | some _, .exit code signal =>
      if agent.pty.life = .running then some (agent.onPtyExit code signal) else none
    | some _, .kill signal => some (agent.kill signal)

/-- All that one turn can do. -/
inductive Turn (parser : DriverParser Scratch) (agent : PtyAgent Scratch) :
    PtyEvent → PtyAgent Scratch → Prop
  | start (spawns : Bool) (hstarted : agent.started = none) :
      Turn parser agent (.start spawns) (agent.start spawns)
  | call (event : ChatEvent) {next : PtyAgent Scratch} (hcall : agent.call event = some next) :
      Turn parser agent (.call event) next
  | controlWrite (data : JsString) : Turn parser agent (.controlWrite data) (agent.controlWrite data)
  | rawWrite (data : JsString) : Turn parser agent (.rawWrite data) (agent.rawWrite data)
  | data (now : Timestamp) (chunk : JsString) (hlife : agent.pty.life ≠ .absent) :
      Turn parser agent (.data now chunk) (agent.onPtyData parser now chunk)
  | exit (code signal : ℤ) (hlife : agent.pty.life = .running) :
      Turn parser agent (.exit code signal) (agent.onPtyExit code signal)
  | kill (signal : Signal) : Turn parser agent (.kill signal) (agent.kill signal)

theorem turn_of_step {parser : DriverParser Scratch} {agent next : PtyAgent Scratch}
    {event : PtyEvent} (h : agent.step parser event = some next) :
    (agent.started = none → ∃ spawns, event = .start spawns) ∧ Turn parser agent event next := by
  unfold step at h
  split at h
  · cases h
  · split at h
    · cases h
      exact ⟨fun _ ↦ ⟨_, rfl⟩, .start _ ‹_›⟩
    · cases h
    · cases h
    · exact ⟨by simp [*], .call _ h⟩
    · cases h
      exact ⟨by simp [*], .controlWrite _⟩
    · cases h
      exact ⟨by simp [*], .rawWrite _⟩
    · split at h
      · cases h
      · cases h
        exact ⟨by simp [*], .data _ _ ‹_›⟩
    · split at h
      · cases h
        exact ⟨by simp [*], .exit _ _ ‹_›⟩
      · cases h
    · cases h
      exact ⟨by simp [*], .kill _⟩

/-- The calls of `submit` touch nothing but their own records. -/
theorem call_eq {event : ChatEvent} {agent next : PtyAgent Scratch}
    (h : agent.call event = some next) :
    ∃ submits crashed, next = { agent with submits := submits, crashed := crashed } := by
  obtain ⟨⟨submits, crashed⟩, _, rfl⟩ := Option.map_eq_some_iff.mp h
  exact ⟨submits, crashed, rfl⟩

end PtyAgent

end Cordyceps.Agents
