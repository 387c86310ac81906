import Cordyceps.Agents.PtyController
import Cordyceps.Agents.SharedParser
import Cordyceps.Drivers.ClaudeControl

/-!
# A terminal driven by the Claude control

The pty controller with the scripts of `ClaudeControl` in place of arbitrary
keystrokes. Any number of submits run their scripts side by side, next to
approvals, keys of other operations, output of the process and its end.
-/

namespace Cordyceps.Agents

open Foundations Foundations.StepMachine Drivers

/-- What happened to blocking prompts: the parser found one when there was none, or `y` or `n` was
written. -/
inductive PromptMark
  | detected
  | answered
  deriving DecidableEq, Repr

/-- Who wrote a key for a submit: the script of `control.submit`, or `control.interrupt` before it. -/
inductive Typist
  | submit (k : ℕ)
  | interrupt (k : ℕ)
  deriving DecidableEq, Repr

/-- `calls` has the script of every submit. `writes` observes the writes of the submits, `marks` what
happened to blocking prompts. -/
structure ClaudeTerminal (Scratch : Type*) where
  agent : PtyAgent Scratch
  calls : List ControlCall
  writes : List (Typist × JsString)
  marks : List PromptMark

/-- One turn; numbers name the submit. `keys` is a key of `interrupt`, `switchMode`, `switchModel` or
`quit`, `idleEmitted` an idle state that somebody else emits under the agent's id. -/
inductive ClaudeEvent
  | start (spawns : Bool)
  | submit (opts : SubmitOptions) (text : JsString)
  | interrupted (k : ℕ)
  | proceed (k : ℕ)
  | notReady (k : ℕ)
  | controlDone (k : ℕ)
  | controlThrow (k : ℕ)
  | timer (k : ℕ)
  | settle (k : ℕ)
  | approve
  | reject
  | keys (data : JsString)
  | rawWrite (data : JsString)
  | data (now : Timestamp) (chunk : JsString)
  | exit (code signal : ℤ)
  | kill (signal : Signal)
  | idleEmitted
  deriving DecidableEq, Repr

namespace ClaudeTerminal

variable {Scratch : Type*}

/-- The constructor of the controller. -/
def create (parser : DriverParser Scratch) (id driverId cwd : JsString) (options : SpawnSpec) :
    ClaudeTerminal Scratch :=
  ⟨.create parser id driverId cwd options, [], [], []⟩

/-- A turn of the controller. -/
def turn (parser : DriverParser Scratch) (event : PtyEvent) (terminal : ClaudeTerminal Scratch) :
    Option (ClaudeTerminal Scratch) :=
  (terminal.agent.step parser event).map fun agent ↦ { terminal with agent := agent }

/-- `ctx.write` of a submit. -/
def press (typist : Typist) (data : List JsString) (terminal : ClaudeTerminal Scratch) :
    ClaudeTerminal Scratch :=
  { terminal with
    agent := data.foldl (fun agent key ↦ agent.controlWrite key) terminal.agent
    writes := terminal.writes ++ data.map (Prod.mk typist) }

def onCall (k : ℕ) (change : ControlCall → ControlCall) (terminal : ClaudeTerminal Scratch) :
    ClaudeTerminal Scratch :=
  { terminal with calls := terminal.calls.modify k change }

/-- The last submit was refused, interrupts the agent first, or has called `control.submit`. -/
def enroll (text : JsString) (terminal : ClaudeTerminal Scratch) : ClaudeTerminal Scratch :=
  let call := ControlCall.create text
  match terminal.agent.submits.getLast?.map ChatSubmit.phase with
  | some .interrupting =>
    { terminal with calls := terminal.calls ++ [call] }.press (.interrupt terminal.calls.length)
      [ClaudeKeys.escape]
  | some .controlling =>
    { terminal with calls := terminal.calls ++ [call.begin terminal.agent.core.state] }
  | _ => { terminal with calls := terminal.calls ++ [call] }

/-- A script goes on after a timer or a promise. -/
def proceed (k : ℕ) (terminal : ClaudeTerminal Scratch) : Option (ClaudeTerminal Scratch) :=
  (terminal.calls[k]?.bind ControlCall.next).map fun (stage, data) ↦
    (terminal.onCall k (ControlCall.advance stage terminal.agent.core.transcript.length)).press
      (.submit k) data

/-- `approve` and `reject` throw unless the agent is blocked. -/
def answer (key : JsString) (terminal : ClaudeTerminal Scratch) : ClaudeTerminal Scratch :=
  if terminal.agent.core.exited || terminal.agent.core.state.blocking.isNone then terminal
  else { terminal with
    agent := (terminal.agent.controlWrite key).controlWrite ClaudeKeys.enter
    marks := terminal.marks ++ [.answered] }

/-- The chunk makes the controller publish an idle state. -/
def publishesIdle (parser : DriverParser Scratch) (now : Timestamp) (chunk : JsString)
    (core : AgentCore Scratch) : Bool :=
  (parser.published now [chunk] core.state core.scratch).any (·.status = .idle)

/-- The submits that listen take the first of the messages. -/
def hear (messages : List AssistantMessage) (emitted : ℕ) (submit : ChatSubmit) (call : ControlCall) :
    ControlCall :=
  if submit.reply = .listening ∧ messages ≠ [] then { call with heardAt := some emitted } else call

/-- `onPtyData`. -/
def onData (parser : DriverParser Scratch) (now : Timestamp) (chunk : JsString)
    (terminal : ClaudeTerminal Scratch) (agent : PtyAgent Scratch) : ClaudeTerminal Scratch :=
  let core := terminal.agent.core
  let messages := parser.emitted now [chunk] core.state core.scratch
  let woken := if publishesIdle parser now chunk core then terminal.calls.map ControlCall.wake
    else terminal.calls
  { terminal with
    agent := agent
    calls := List.zipWith (hear messages core.transcript.length) terminal.agent.submits woken
    marks := terminal.marks ++
      if core.state.blocking.isNone && agent.core.state.blocking.isSome then [.detected] else [] }

/-- One turn. -/
def step (parser : DriverParser Scratch) (terminal : ClaudeTerminal Scratch) (event : ClaudeEvent) :
    Option (ClaudeTerminal Scratch) :=
  if terminal.agent.crashed then none
  else
    match event with
    | .start spawns => terminal.turn parser (.start spawns)
    | .submit opts text => (terminal.turn parser (.call (.submit opts))).map (enroll text)
    | .interrupted k => (terminal.turn parser (.call (.interrupted k))).map fun next ↦
        next.onCall k (ControlCall.begin next.agent.core.state)
    | .proceed k => terminal.proceed k
    | .notReady k =>
      match terminal.calls[k]?.map ControlCall.stage with
      | some (.waiting _) => some (terminal.onCall k ControlCall.giveUp)
      | _ => none
    | .controlDone k =>
      if terminal.calls[k]?.map ControlCall.stage = some .entered then
        terminal.turn parser (.call (.controlDone k))
      else none
    | .controlThrow k =>
      if terminal.calls[k]?.map ControlCall.stage = some .unready then
        terminal.turn parser (.call (.controlThrow k))
      else none
    | .timer k => terminal.turn parser (.call (.timer k))
    | .settle k => terminal.turn parser (.call (.settle k))
    | .approve => some (terminal.answer (js "y"))
    | .reject => some (terminal.answer (js "n"))
    | .keys data => terminal.turn parser (.controlWrite data)
    | .rawWrite data => terminal.turn parser (.rawWrite data)
    | .data now chunk =>
      (terminal.agent.step parser (.data now chunk)).map (terminal.onData parser now chunk)
    | .exit code signal => terminal.turn parser (.exit code signal)
    | .kill signal => terminal.turn parser (.kill signal)
    | .idleEmitted => some { terminal with calls := terminal.calls.map ControlCall.wake }

/-- All that one turn can do. -/
inductive Turn (parser : DriverParser Scratch) (terminal : ClaudeTerminal Scratch) :
    ClaudeEvent → ClaudeTerminal Scratch → Prop
  | start (spawns : Bool) {next : ClaudeTerminal Scratch}
      (hturn : terminal.turn parser (.start spawns) = some next) : Turn parser terminal (.start spawns) next
  | submit (opts : SubmitOptions) (text : JsString) {middle : ClaudeTerminal Scratch}
      (hturn : terminal.turn parser (.call (.submit opts)) = some middle) :
      Turn parser terminal (.submit opts text) (middle.enroll text)
  | interrupted (k : ℕ) {middle : ClaudeTerminal Scratch}
      (hturn : terminal.turn parser (.call (.interrupted k)) = some middle) :
      Turn parser terminal (.interrupted k)
        (middle.onCall k (ControlCall.begin middle.agent.core.state))
  | proceed (k : ℕ) {call : ControlCall} {stage : SubmitStage} {data : List JsString}
      (hcall : terminal.calls[k]? = some call) (hnext : call.next = some (stage, data)) :
      Turn parser terminal (.proceed k) ((terminal.onCall k
        (ControlCall.advance stage terminal.agent.core.transcript.length)).press (.submit k) data)
  | notReady (k : ℕ) {wasStarting : Bool}
      (hstage : terminal.calls[k]?.map ControlCall.stage = some (.waiting wasStarting)) :
      Turn parser terminal (.notReady k) (terminal.onCall k ControlCall.giveUp)
  | controlDone (k : ℕ) {next : ClaudeTerminal Scratch}
      (hstage : terminal.calls[k]?.map ControlCall.stage = some .entered)
      (hturn : terminal.turn parser (.call (.controlDone k)) = some next) :
      Turn parser terminal (.controlDone k) next
  | controlThrow (k : ℕ) {next : ClaudeTerminal Scratch}
      (hstage : terminal.calls[k]?.map ControlCall.stage = some .unready)
      (hturn : terminal.turn parser (.call (.controlThrow k)) = some next) :
      Turn parser terminal (.controlThrow k) next
  | timer (k : ℕ) {next : ClaudeTerminal Scratch}
      (hturn : terminal.turn parser (.call (.timer k)) = some next) :
      Turn parser terminal (.timer k) next
  | settle (k : ℕ) {next : ClaudeTerminal Scratch}
      (hturn : terminal.turn parser (.call (.settle k)) = some next) :
      Turn parser terminal (.settle k) next
  | approve : Turn parser terminal .approve (terminal.answer (js "y"))
  | reject : Turn parser terminal .reject (terminal.answer (js "n"))
  | keys (data : JsString) {next : ClaudeTerminal Scratch}
      (hturn : terminal.turn parser (.controlWrite data) = some next) :
      Turn parser terminal (.keys data) next
  | rawWrite (data : JsString) {next : ClaudeTerminal Scratch}
      (hturn : terminal.turn parser (.rawWrite data) = some next) :
      Turn parser terminal (.rawWrite data) next
  | data (now : Timestamp) (chunk : JsString) {agent : PtyAgent Scratch}
      (hagent : terminal.agent.step parser (.data now chunk) = some agent) :
      Turn parser terminal (.data now chunk) (terminal.onData parser now chunk agent)
  | exit (code signal : ℤ) {next : ClaudeTerminal Scratch}
      (hturn : terminal.turn parser (.exit code signal) = some next) :
      Turn parser terminal (.exit code signal) next
  | kill (signal : Signal) {next : ClaudeTerminal Scratch}
      (hturn : terminal.turn parser (.kill signal) = some next) :
      Turn parser terminal (.kill signal) next
  | idleEmitted : Turn parser terminal .idleEmitted
      { terminal with calls := terminal.calls.map ControlCall.wake }

theorem turn_of_step {parser : DriverParser Scratch} {terminal next : ClaudeTerminal Scratch}
    {event : ClaudeEvent} (h : terminal.step parser event = some next) :
    terminal.agent.crashed = false ∧ Turn parser terminal event next := by
  unfold step at h
  split at h
  · cases h
  · rename_i hcrashed
    refine ⟨by simpa using hcrashed, ?_⟩
    cases event with
    | submit opts text =>
      obtain ⟨middle, hturn, rfl⟩ := Option.map_eq_some_iff.mp h
      exact .submit opts text hturn
    | interrupted k =>
      obtain ⟨middle, hturn, rfl⟩ := Option.map_eq_some_iff.mp h
      exact .interrupted k hturn
    | proceed k =>
      obtain ⟨⟨stage, data⟩, hnext, rfl⟩ := Option.map_eq_some_iff.mp h
      obtain ⟨call, hcall, hstage⟩ := Option.bind_eq_some_iff.mp hnext
      exact .proceed k hcall hstage
    | notReady k =>
      simp only at h
      split at h
      · rename_i hstage
        cases h
        exact .notReady k hstage
      · cases h
    | controlDone k =>
      simp only [Option.ite_none_right_eq_some] at h
      exact .controlDone k h.1 h.2
    | controlThrow k =>
      simp only [Option.ite_none_right_eq_some] at h
      exact .controlThrow k h.1 h.2
    | approve =>
      cases h
      exact .approve
    | reject =>
      cases h
      exact .reject
    | data now chunk =>
      obtain ⟨agent, hagent, rfl⟩ := Option.map_eq_some_iff.mp h
      exact .data now chunk hagent
    | idleEmitted =>
      cases h
      exact .idleEmitted
    | timer k => exact .timer k h
    | settle k => exact .settle k h
    | start spawns => exact .start spawns h
    | keys data => exact .keys data h
    | rawWrite data => exact .rawWrite data h
    | exit code signal => exact .exit code signal h
    | kill signal => exact .kill signal h

/-- The parser's memory, which other agents of the driver may have changed. -/
def putScratch (scratch : Scratch) (terminal : ClaudeTerminal Scratch) : ClaudeTerminal Scratch :=
  { terminal with agent := terminal.agent.putScratch scratch }

/-- A Claude agent of the built-in driver. -/
def claudeAgent : ClaudeTerminal ClaudeScratch :=
  create claudeParser (js "x") (js "claude") (js "/") ⟨js "claude", [], js "/", .empty, false⟩

/-! ### Submits and their scripts -/

variable {parser : DriverParser Scratch} {terminal next : ClaudeTerminal Scratch}

/-- Every submit has its script. -/
def Paired (terminal : ClaudeTerminal Scratch) : Prop :=
  terminal.agent.submits.length = terminal.calls.length

/-- A turn of the submits of a controller that was started. -/
theorem call_of_turn {event : ChatEvent} (h : terminal.turn parser (.call event) = some next) :
    ∃ submits crashed, ChatSubmit.step
        (if terminal.agent.core.exited then some ChatRejection.agentExited else none)
        (terminal.agent.core.state.status = .busy) terminal.agent.submits event =
          some (submits, crashed) ∧
      next = { terminal with
        agent := { terminal.agent with submits := submits, crashed := crashed } } := by
  obtain ⟨agent, hstep, rfl⟩ := Option.map_eq_some_iff.mp h
  cases (PtyAgent.turn_of_step hstep).2 with
  | call _ hcall =>
    change Option.map _ _ = _ at hcall
    obtain ⟨⟨submits, crashed⟩, hchat, rfl⟩ := Option.map_eq_some_iff.mp hcall
    exact ⟨submits, crashed, hchat, rfl⟩

/-- Turns that are no calls leave the submits alone, unless they are output of the process. -/
theorem submits_of_turn {event : PtyEvent} (h : terminal.turn parser event = some next)
    (hcall : ∀ chat, event ≠ .call chat) (hdata : ∀ now chunk, event ≠ .data now chunk) :
    next.agent.submits = terminal.agent.submits ∧ next.calls = terminal.calls := by
  obtain ⟨agent, hstep, rfl⟩ := Option.map_eq_some_iff.mp h
  refine ⟨?_, rfl⟩
  cases (PtyAgent.turn_of_step hstep).2 with
  | call event _ => exact absurd rfl (hcall event)
  | data now chunk _ => exact absurd rfl (hdata now chunk)
  | start spawns => rfl
  | controlWrite data => rfl
  | rawWrite data =>
    change (PtyAgent.rawWrite data terminal.agent).submits = _
    unfold PtyAgent.rawWrite
    split <;> rfl
  | exit code signal _ => rfl
  | kill signal =>
    change (PtyAgent.kill signal terminal.agent).submits = _
    unfold PtyAgent.kill
    split <;> rfl

/-- Only output of the process adds to what the agent has told. -/
theorem told_of_turn {event : PtyEvent} (h : terminal.turn parser event = some next)
    (hdata : ∀ now chunk, event ≠ .data now chunk) : next.marks = terminal.marks ∧
      next.agent.core.state.blocking = terminal.agent.core.state.blocking ∧
      next.agent.core.transcript = terminal.agent.core.transcript := by
  obtain ⟨agent, hstep, rfl⟩ := Option.map_eq_some_iff.mp h
  refine ⟨rfl, ?_⟩
  cases (PtyAgent.turn_of_step hstep).2 with
  | data now chunk _ => exact absurd rfl (hdata now chunk)
  | call event hcall =>
    obtain ⟨submits, crashed, rfl⟩ := PtyAgent.call_eq hcall
    exact ⟨rfl, rfl⟩
  | start spawns => exact ⟨rfl, rfl⟩
  | controlWrite data => exact ⟨rfl, rfl⟩
  | rawWrite data =>
    change (PtyAgent.rawWrite data terminal.agent).core.state.blocking = _ ∧ _
    unfold PtyAgent.rawWrite
    split <;> exact ⟨rfl, rfl⟩
  | exit code signal _ => exact ⟨rfl, rfl⟩
  | kill signal =>
    change (PtyAgent.kill signal terminal.agent).core.state.blocking = _ ∧ _
    unfold PtyAgent.kill
    split <;> exact ⟨rfl, rfl⟩

/-- A submit is a new record at the end: refused, interrupting, or with its script begun. -/
theorem enroll_submit {opts : SubmitOptions} (text : JsString)
    (h : terminal.turn parser (.call (.submit opts)) = some next) :
    (∃ reason, terminal.agent.core.exited = true ∧
      next.enroll text = { next with calls := terminal.calls ++ [ControlCall.create text] } ∧
      next.agent.submits = terminal.agent.submits ++ [ChatSubmit.create opts (.rejected reason)]) ∨
    (terminal.agent.core.exited = false ∧ opts.interruptIfBusy = true ∧
      terminal.agent.core.state.status = .busy ∧
      next.enroll text = { next with calls := terminal.calls ++ [ControlCall.create text] }.press
        (.interrupt terminal.calls.length) [ClaudeKeys.escape] ∧
      next.agent.submits = terminal.agent.submits ++ [ChatSubmit.create opts .interrupting]) ∨
    (terminal.agent.core.exited = false ∧
      ¬ (opts.interruptIfBusy = true ∧ terminal.agent.core.state.status = .busy) ∧
      next.enroll text = { next with
        calls := terminal.calls ++ [(ControlCall.create text).begin terminal.agent.core.state] } ∧
      next.agent.submits = terminal.agent.submits ++ [(ChatSubmit.create opts .controlling).engage]) := by
  obtain ⟨submits, crashed, hstep, rfl⟩ := call_of_turn h
  cases hexited : terminal.agent.core.exited with
  | true =>
    simp only [hexited, ChatSubmit.step, Option.some.injEq, Prod.mk.injEq, if_true] at hstep
    obtain ⟨rfl, rfl⟩ := hstep
    exact .inl ⟨_, rfl, by simp [enroll, ChatSubmit.create], rfl⟩
  | false =>
    simp only [hexited, ChatSubmit.step, Bool.false_eq_true, if_false] at hstep
    split at hstep
    · rename_i hinterrupt
      rw [Bool.and_eq_true, decide_eq_true_eq] at hinterrupt
      simp only [Option.some.injEq, Prod.mk.injEq] at hstep
      obtain ⟨rfl, rfl⟩ := hstep
      refine .inr (.inl ⟨rfl, hinterrupt.1, hinterrupt.2, ?_, rfl⟩)
      simp only [enroll, List.getLast?_append, List.getLast?_singleton, Option.some_or, Option.map_some,
        ChatSubmit.create]
    · rename_i hinterrupt
      rw [Bool.and_eq_true, decide_eq_true_eq] at hinterrupt
      simp only [Option.some.injEq, Prod.mk.injEq] at hstep
      obtain ⟨rfl, rfl⟩ := hstep
      exact .inr (.inr ⟨rfl, hinterrupt, by simp [enroll, ChatSubmit.create, ChatSubmit.engage], rfl⟩)

theorem length_call {event : ChatEvent} (h : terminal.turn parser (.call event) = some next)
    (hsubmit : ∀ opts, event ≠ .submit opts) :
    next.agent.submits.length = terminal.agent.submits.length ∧ next.calls = terminal.calls := by
  obtain ⟨submits, crashed, hstep, rfl⟩ := call_of_turn h
  refine ⟨?_, rfl⟩
  unfold ChatSubmit.step at hstep
  cases event with
  | submit opts => exact absurd rfl (hsubmit opts)
  | settle k =>
    simp only at hstep
    split at hstep <;> cases hstep
    exact List.length_modify ..
  | _ =>
    simp only [Option.ite_none_right_eq_some] at hstep
    obtain ⟨_, heq⟩ := hstep
    cases heq
    exact List.length_modify ..

theorem Paired.of_call (h : terminal.Paired) {event : ChatEvent}
    (hturn : terminal.turn parser (.call event) = some next)
    (hsubmit : ∀ opts, event ≠ .submit opts) : next.Paired := by
  obtain ⟨hsubmits, hcalls⟩ := length_call hturn hsubmit
  rw [Paired, hsubmits, hcalls]
  exact h

theorem Paired.of_turn (h : terminal.Paired) {event : PtyEvent}
    (hturn : terminal.turn parser event = some next) (hcall : ∀ chat, event ≠ .call chat)
    (hdata : ∀ now chunk, event ≠ .data now chunk) : next.Paired := by
  obtain ⟨hsubmits, hcalls⟩ := submits_of_turn hturn hcall hdata
  rw [Paired, hsubmits, hcalls]
  exact h

theorem Paired.onCall (h : terminal.Paired) (k : ℕ) (change : ControlCall → ControlCall) :
    (terminal.onCall k change).Paired :=
  h.trans (List.length_modify ..).symm

theorem submits_press (typist : Typist) (data : List JsString) :
    (terminal.press typist data).agent.submits = terminal.agent.submits := by
  change (data.foldl (fun agent key ↦ agent.controlWrite key) terminal.agent).submits = _
  generalize terminal.agent = agent
  induction data generalizing agent with
  | nil => rfl
  | cons key rest ih => exact ih (agent.controlWrite key)

theorem core_press (typist : Typist) (data : List JsString) :
    (terminal.press typist data).agent.core = terminal.agent.core := by
  change (data.foldl (fun agent key ↦ agent.controlWrite key) terminal.agent).core = _
  generalize terminal.agent = agent
  induction data generalizing agent with
  | nil => rfl
  | cons key rest ih => exact ih (agent.controlWrite key)

/-- What the output of the process does to the submits. -/
theorem submits_of_data {now : Timestamp} {chunk : JsString} {agent : PtyAgent Scratch}
    (h : terminal.agent.step parser (.data now chunk) = some agent) :
    agent.core.transcript = terminal.agent.core.transcript ++
        parser.emitted now [chunk] terminal.agent.core.state terminal.agent.core.scratch ∧
      agent.core.state = parser.after now [chunk] terminal.agent.core.state
        terminal.agent.core.scratch ∧
      agent.submits = terminal.agent.submits.map (ChatSubmit.deliver
        (parser.emitted now [chunk] terminal.agent.core.state terminal.agent.core.scratch)) := by
  cases (PtyAgent.turn_of_step h).2 with
  | data now chunk hlife =>
    obtain ⟨scratch, calls, heq, _⟩ := (terminal.agent.core.record [BusCall.emit
      (agentKey terminal.agent.core.id (js "output")) (.text chunk)]).feedAll_eq parser now [chunk]
    simp only [AgentCore.record] at heq
    simp [PtyAgent.onPtyData, AgentCore.record, heq]

theorem Paired.step (h : terminal.Paired) {event : ClaudeEvent}
    (hstep : terminal.step parser event = some next) : next.Paired := by
  cases (turn_of_step hstep).2 with
  | submit opts text hturn =>
    rcases enroll_submit text hturn with ⟨_, _, henroll, hsubmits⟩ | ⟨_, _, _, henroll, hsubmits⟩ |
      ⟨_, _, henroll, hsubmits⟩
    · rw [henroll, Paired, hsubmits]
      simp [Eq.symm h]
    · rw [henroll, Paired, submits_press, hsubmits]
      simp [press, Eq.symm h]
    · rw [henroll, Paired, hsubmits]
      simp [Eq.symm h]
  | interrupted k hturn => exact (h.of_call hturn nofun).onCall k _
  | proceed k hcall hnext =>
    rw [Paired, submits_press]
    exact h.onCall k _
  | notReady k hstage => exact h.onCall k _
  | controlDone k hstage hturn => exact h.of_call hturn nofun
  | controlThrow k hstage hturn => exact h.of_call hturn nofun
  | timer k hturn => exact h.of_call hturn nofun
  | settle k hturn => exact h.of_call hturn nofun
  | approve | reject =>
    unfold answer
    split
    · exact h
    · exact h
  | data now chunk hagent =>
    obtain ⟨_, _, hsubmits⟩ := submits_of_data hagent
    rw [Paired, onData, hsubmits, List.length_map, List.length_zipWith]
    split <;> simp [h.symm]
  | idleEmitted => exact h.trans (List.length_map _).symm
  | start spawns hturn => exact h.of_turn hturn nofun nofun
  | keys data hturn => exact h.of_turn hturn nofun nofun
  | rawWrite data hturn => exact h.of_turn hturn nofun nofun
  | exit code signal hturn => exact h.of_turn hturn nofun nofun
  | kill signal hturn => exact h.of_turn hturn nofun nofun

/-! ### The scripts refine the keystrokes of the controller -/

theorem run_controlWrite {agent : PtyAgent Scratch} (hstarted : agent.started ≠ none)
    (hcrashed : agent.crashed = false) (data : List JsString) :
    run (PtyAgent.step parser) agent (data.map PtyEvent.controlWrite) =
      some (data.foldl (fun agent key ↦ agent.controlWrite key) agent) := by
  induction data generalizing agent with
  | nil => rfl
  | cons key rest ih =>
    obtain ⟨spawns, hspawns⟩ := Option.ne_none_iff_exists'.mp hstarted
    have hstep : agent.step parser (.controlWrite key) = some (agent.controlWrite key) := by
      simp [PtyAgent.step, hcrashed, hspawns]
    rw [List.map_cons, run_cons, hstep, Option.bind_some, List.foldl_cons]
    exact @ih (agent.controlWrite key) hstarted hcrashed

/-- What a script does to the agent are turns of the controller with arbitrary keystrokes. -/
theorem run_of_step (hstarted : terminal.agent.started ≠ none) {event : ClaudeEvent}
    (hstep : terminal.step parser event = some next) :
    ∃ events, run (PtyAgent.step parser) terminal.agent events = some next.agent := by
  have hturn : ∀ {event : PtyEvent} {next : ClaudeTerminal Scratch},
      terminal.turn parser event = some next →
        run (PtyAgent.step parser) terminal.agent [event] = some next.agent := by
    intro event next h
    obtain ⟨agent, hagent, rfl⟩ := Option.map_eq_some_iff.mp h
    rw [run_cons, hagent]
    rfl
  obtain ⟨hcrashed, hturned⟩ := turn_of_step hstep
  cases hturned with
  | @submit opts text middle hmiddle =>
    have hrun := hturn hmiddle
    obtain ⟨submits, crashed, hchat, hsame⟩ := call_of_turn hmiddle
    have hcalm : crashed = false := by
      simp only [ChatSubmit.step] at hchat
      split at hchat
      · cases hchat
        rfl
      · split at hchat <;> cases hchat <;> rfl
    rcases enroll_submit text hmiddle with ⟨_, _, henroll, _⟩ | ⟨_, _, _, henroll, _⟩ |
      ⟨_, _, henroll, _⟩
    · rw [henroll]
      exact ⟨_, hrun⟩
    · refine ⟨[.call (.submit opts)] ++ [ClaudeKeys.escape].map PtyEvent.controlWrite, ?_⟩
      have hwrite := @run_controlWrite _ parser middle.agent (by rw [hsame]; exact hstarted)
        (by rw [hsame]; exact hcalm) [ClaudeKeys.escape]
      rw [run_append, hrun, Option.bind_some, hwrite, henroll]
      rfl
    · rw [henroll]
      exact ⟨_, hrun⟩
  | interrupted k hmiddle =>
    have hrun := hturn hmiddle
    exact ⟨_, hrun⟩
  | proceed k hcall hnext => exact ⟨_, run_controlWrite hstarted hcrashed _⟩
  | notReady k hstage => exact ⟨[], rfl⟩
  | controlDone k hstage hmiddle => exact ⟨_, hturn hmiddle⟩
  | controlThrow k hstage hmiddle => exact ⟨_, hturn hmiddle⟩
  | approve | reject =>
    unfold answer
    split
    · exact ⟨[], rfl⟩
    · exact ⟨_, run_controlWrite hstarted hcrashed [_, _]⟩
  | data now chunk hagent =>
    refine ⟨[.data now chunk], ?_⟩
    rw [run_cons, hagent]
    rfl
  | idleEmitted => exact ⟨[], rfl⟩
  | timer k hmiddle => exact ⟨_, hturn hmiddle⟩
  | settle k hmiddle => exact ⟨_, hturn hmiddle⟩
  | start spawns hmiddle => exact ⟨_, hturn hmiddle⟩
  | keys data hmiddle => exact ⟨_, hturn hmiddle⟩
  | rawWrite data hmiddle => exact ⟨_, hturn hmiddle⟩
  | exit code signal hmiddle => exact ⟨_, hturn hmiddle⟩
  | kill signal hmiddle => exact ⟨_, hturn hmiddle⟩

end ClaudeTerminal

end Cordyceps.Agents
