import Cordyceps.Agents.PtyController

/-!
# The server-ws controller

`agents/server-ws-controller.ts` as a step machine. `start` may launch a server
subprocess, waits for it to bind its port and then opens one WebSocket; the
promise of `start` is settled by the socket's first `open` or `error`, or by the
connect timer. What the operating system and the peer do comes with the events.
-/

namespace Cordyceps.Agents

open Foundations Drivers

/-- The server subprocess. `signals` observes what it was sent while it ran. -/
structure ServerProcess where
  spec : SpawnSpec
  env : JsMap JsString JsString
  life : Life
  signals : List Signal

/-- The `readyState` of a WebSocket. -/
inductive ReadyState
  | connecting
  | open
  | closing
  | closed
  deriving DecidableEq, Repr

/-- The socket and the handlers that `connectWs` put on it with `once`. `sent` observes its
frames. -/
structure Socket where
  url : JsString
  headers : JsMap JsString JsString
  readyState : ReadyState
  timerArmed : Bool
  errorHandled : Bool
  closeHandled : Bool
  sent : List JsString

/-- Why `start` rejects. -/
inductive StartFailure
  | spawnFailed
  | badUrl
  | socketError
  | timedOut
  deriving DecidableEq, Repr

/-- Where `start` stands. -/
inductive StartPhase
  | constructed
  | delaying
  | connecting
  | started
  | failed (reason : StartFailure)
  deriving DecidableEq, Repr

structure WsAgent (Scratch : Type*) where
  core : AgentCore Scratch
  spec : ServerWsSpec
  env : JsMap JsString JsString
  server : Option ServerProcess
  socket : Option Socket
  ready : Bool
  phase : StartPhase
  closing : ℕ
  submits : List ChatSubmit
  crashed : Bool

/-- What `spawn` did with the server command: it threw, made a child object without a process, or
started one. -/
inductive ServerLaunch
  | throws
  | fails
  | starts
  deriving DecidableEq, Repr

/-- One turn of the event loop. `validUrl` tells whether `new WebSocket` takes the URL. -/
inductive WsEvent
  | start (launch : ServerLaunch) (validUrl : Bool)
  | delayOver (validUrl : Bool)
  | serverError
  | serverExit (code : Option ℤ)
  | open
  | error
  | message (now : Timestamp) (text : JsString)
  | close (code : ℤ)
  | connectTimer
  | call (event : ChatEvent)
  | rawWrite (data : JsString)
  | kill (signal : Signal)
  | killTimer

namespace Socket

/-- `new WebSocket(url, { headers })`, with the handlers of `connectWs`. -/
def connect (spec : ServerWsSpec) : Socket where
  url := spec.url
  headers := match spec.authHeader with
    | some header =>
      if header.isEmpty then JsMap.empty else JsMap.empty.set (js "Authorization") header
    | none => JsMap.empty
  readyState := .connecting
  timerArmed := true
  errorHandled := false
  closeHandled := false
  sent := []

/-- `ws.close()`: only a socket that is not already closing reacts. -/
def close (socket : Socket) : Socket :=
  if socket.readyState = .closed then socket else { socket with readyState := .closing }

def disarm (socket : Socket) : Socket := { socket with timerArmed := false }

end Socket

namespace ServerProcess

def kill (signal : Signal) (server : ServerProcess) : ServerProcess :=
  if server.life = .running then { server with signals := server.signals ++ [signal] } else server

end ServerProcess

namespace WsAgent

variable {Scratch : Type*}

/-- The constructor, after `buildServerWs`: the parser's own initial state, with the four bus
keys written. -/
def create (parser : DriverParser Scratch) (id driverId cwd : JsString)
    (env : JsMap JsString JsString) (spec : ServerWsSpec) : WsAgent Scratch where
  core := AgentCore.announce ⟨id, parser.initialState, [], false, none, parser.scratch, []⟩
    driverId cwd .serverWs
  spec := spec
  env := env
  server := none
  socket := none
  ready := false
  phase := .constructed
  closing := 0
  submits := []
  crashed := false

/-- The promise of `start` rejects, unless it is settled. -/
def failStart (reason : StartFailure) (agent : WsAgent Scratch) : WsAgent Scratch :=
  match agent.phase with
  | .constructed | .delaying | .connecting => { agent with phase := .failed reason }
  | .started | .failed _ => agent

/-- `connectWs`, up to its `await`. -/
def connectWs (validUrl : Bool) (agent : WsAgent Scratch) : WsAgent Scratch :=
  if validUrl then { agent with socket := some (.connect agent.spec), phase := .connecting }
  else agent.failStart .badUrl

/-- `start`, up to its first `await`. -/
def start (launch : ServerLaunch) (validUrl : Bool) (agent : WsAgent Scratch) : WsAgent Scratch :=
  match agent.spec.spawnServer with
  | some spec =>
    -- `{ ...s.env, ...this.env }`
    let env := spec.env.assign agent.env
    match launch with
    | .throws => agent.failStart .spawnFailed
    | .fails => { agent with server := some ⟨spec, env, .failed, []⟩, phase := .delaying }
    | .starts => { agent with server := some ⟨spec, env, .running, []⟩, phase := .delaying }
  | none => agent.connectWs validUrl

/-- `onConnectionClosed`. -/
def onConnectionClosed (code : ℤ) (agent : WsAgent Scratch) : WsAgent Scratch :=
  if agent.core.exited then agent
  else { agent with core := agent.core.markExited code (.obj [(js "code", .num code)]) }

/-- The server's `exit`. -/
def onServerExit (code : Option ℤ) (server : ServerProcess) (agent : WsAgent Scratch) :
    WsAgent Scratch :=
  { agent with server := some { server with life := .exited } }.onConnectionClosed (code.getD 0)

/-- The handler of `open`. -/
def onOpen (socket : Socket) (agent : WsAgent Scratch) : WsAgent Scratch :=
  { agent with
    socket := some { socket.disarm with readyState := .open }
    ready := true
    core := if agent.core.state.status = .starting then agent.core.setStatus .idle else agent.core
    phase := if agent.phase = .connecting then .started else agent.phase }

/-- The socket's `error`. A second one finds no handler, which ends the daemon. -/
def onError (socket : Socket) (agent : WsAgent Scratch) : WsAgent Scratch :=
  if socket.errorHandled then { agent with crashed := true }
  else
    { agent with
      socket := some { socket.disarm with errorHandled := true } }.failStart .socketError

/-- The connect timer. -/
def onConnectTimer (socket : Socket) (agent : WsAgent Scratch) : WsAgent Scratch :=
  { agent with socket := some socket.disarm.close }.failStart .timedOut

/-- The handler of `message`: the frame goes to observers, then through `feedChunk`. -/
def onMessage (parser : DriverParser Scratch) (now : Timestamp) (text : JsString)
    (agent : WsAgent Scratch) : WsAgent Scratch :=
  let output := BusCall.emit (agentKey agent.core.id (js "output")) (.text text)
  let fed := (agent.core.record [output]).feedAll parser now [text]
  { agent with
    core := fed.1
    submits := agent.submits.map (ChatSubmit.deliver
      (fed.1.transcript.drop agent.core.transcript.length))
    crashed := fed.2 }

/-- The handler of `close`. -/
def onClose (code : ℤ) (socket : Socket) (agent : WsAgent Scratch) : WsAgent Scratch :=
  { agent with
    socket := some { socket with readyState := .closed, closeHandled := true }
  }.onConnectionClosed code

/-- `submit`, and what follows it. -/
def call (event : ChatEvent) (agent : WsAgent Scratch) : Option (WsAgent Scratch) :=
  let refusal :=
    if agent.core.exited then some ChatRejection.agentExited
    else if agent.ready then none else some ChatRejection.notReady
  (ChatSubmit.step refusal (agent.core.state.status = .busy) agent.submits event).map
    fun (submits, crashed) ↦ { agent with submits, crashed }

/-- `rawWrite`, which the control's writes go through. -/
def rawWrite (data : JsString) (agent : WsAgent Scratch) : WsAgent Scratch :=
  match agent.socket with
  | some socket =>
    if agent.core.exited ∨ socket.readyState ≠ .open then agent
    else { agent with socket := some { socket with sent := socket.sent ++ [data] } }
  | none => agent

/-- `kill`, up to its `await`. -/
def kill (signal : Signal) (agent : WsAgent Scratch) : WsAgent Scratch :=
  if agent.core.exited then agent
  else
    { agent with
      socket := agent.socket.map Socket.close
      server := agent.server.map (ServerProcess.kill signal)
      closing := agent.closing + 1 }

/-- The rest of `kill`, after the close handshake had its time. -/
def onKillTimer (agent : WsAgent Scratch) : WsAgent Scratch :=
  { agent with closing := agent.closing - 1 }.onConnectionClosed 0

/-- One turn once `start` was called. An event that cannot happen in a state has no successor. -/
def react (parser : DriverParser Scratch) (agent : WsAgent Scratch) (event : WsEvent) :
    Option (WsAgent Scratch) :=
  match event with
  | .start _ _ => none
  | .delayOver validUrl =>
    if agent.phase = .delaying then some (agent.connectWs validUrl) else none
  | .serverError =>
    match agent.server with
    -- nobody listens for the `error` of the subprocess
    | some _ => some { agent with crashed := true }
    | none => none
  | .serverExit code =>
    match agent.server with
    | some server =>
      if server.life = .running then some (agent.onServerExit code server) else none
    | none => none
  | .open =>
    match agent.socket with
    | some socket =>
      if socket.readyState = .connecting then some (agent.onOpen socket) else none
    | none => none
  | .error =>
    match agent.socket with
    | some socket => some (agent.onError socket)
    | none => none
  | .message now text =>
    match agent.socket with
    | some socket =>
      if socket.readyState = .open ∨ socket.readyState = .closing then
        some (agent.onMessage parser now text)
      else none
    | none => none
  | .close code =>
    match agent.socket with
    | some socket => if socket.closeHandled then none else some (agent.onClose code socket)
    | none => none
  | .connectTimer =>
    match agent.socket with
    | some socket => if socket.timerArmed then some (agent.onConnectTimer socket) else none
    | none => none
  | .call event => agent.call event
  | .rawWrite data => some (agent.rawWrite data)
  | .kill signal => some (agent.kill signal)
  | .killTimer => if 0 < agent.closing then some agent.onKillTimer else none

/-- One turn. The factory calls `start` right after the constructor, before anything else can
happen. -/
def step (parser : DriverParser Scratch) (agent : WsAgent Scratch) (event : WsEvent) :
    Option (WsAgent Scratch) :=
  if agent.crashed then none
  else
    match agent.phase, event with
    | .constructed, .start launch validUrl => some (agent.start launch validUrl)
    | .constructed, _ => none
    | _, event => agent.react parser event

/-- All that one turn can do. -/
inductive Turn (parser : DriverParser Scratch) (agent : WsAgent Scratch) :
    WsEvent → WsAgent Scratch → Prop
  | start (launch : ServerLaunch) (validUrl : Bool) (hphase : agent.phase = .constructed) :
      Turn parser agent (.start launch validUrl) (agent.start launch validUrl)
  | delayOver (validUrl : Bool) (hphase : agent.phase = .delaying) :
      Turn parser agent (.delayOver validUrl) (agent.connectWs validUrl)
  | serverError {server : ServerProcess} (hserver : agent.server = some server) :
      Turn parser agent .serverError { agent with crashed := true }
  | serverExit (code : Option ℤ) {server : ServerProcess} (hserver : agent.server = some server)
      (hlife : server.life = .running) :
      Turn parser agent (.serverExit code) (agent.onServerExit code server)
  | open {socket : Socket} (hsocket : agent.socket = some socket)
      (hstate : socket.readyState = .connecting) : Turn parser agent .open (agent.onOpen socket)
  | error {socket : Socket} (hsocket : agent.socket = some socket) :
      Turn parser agent .error (agent.onError socket)
  | message (now : Timestamp) (text : JsString) {socket : Socket}
      (hsocket : agent.socket = some socket)
      (hstate : socket.readyState = .open ∨ socket.readyState = .closing) :
      Turn parser agent (.message now text) (agent.onMessage parser now text)
  | close (code : ℤ) {socket : Socket} (hsocket : agent.socket = some socket)
      (hhandled : ¬ socket.closeHandled = true) :
      Turn parser agent (.close code) (agent.onClose code socket)
  | connectTimer {socket : Socket} (hsocket : agent.socket = some socket)
      (harmed : socket.timerArmed = true) :
      Turn parser agent .connectTimer (agent.onConnectTimer socket)
  | call (event : ChatEvent) {next : WsAgent Scratch} (hcall : agent.call event = some next) :
      Turn parser agent (.call event) next
  | rawWrite (data : JsString) : Turn parser agent (.rawWrite data) (agent.rawWrite data)
  | kill (signal : Signal) : Turn parser agent (.kill signal) (agent.kill signal)
  | killTimer (hclosing : 0 < agent.closing) : Turn parser agent .killTimer agent.onKillTimer

theorem turn_of_react {parser : DriverParser Scratch} {agent next : WsAgent Scratch}
    {event : WsEvent} (h : agent.react parser event = some next) :
    Turn parser agent event next := by
  unfold react at h
  cases event with
  | start launch validUrl => cases h
  | call event => exact .call event h
  | rawWrite data =>
    cases h
    exact .rawWrite data
  | kill signal =>
    cases h
    exact .kill signal
  | delayOver validUrl =>
    simp only at h
    split at h
    · cases h
      exact .delayOver validUrl ‹_›
    · cases h
  | killTimer =>
    simp only at h
    split at h
    · cases h
      exact .killTimer ‹_›
    · cases h
  | serverError =>
    simp only at h
    split at h
    · cases h
      exact .serverError ‹_›
    · cases h
  | error =>
    simp only at h
    split at h
    · cases h
      exact .error ‹_›
    · cases h
  | close code =>
    simp only at h
    split at h
    · split at h
      · cases h
      · cases h
        exact .close code ‹_› ‹_›
    · cases h
  | _ =>
    simp only at h
    split at h
    · split at h
      · cases h
        constructor <;> assumption
      · cases h
    · cases h

theorem turn_of_step {parser : DriverParser Scratch} {agent next : WsAgent Scratch}
    {event : WsEvent} (h : agent.step parser event = some next) :
    (agent.phase = .constructed → ∃ launch validUrl, event = .start launch validUrl) ∧
      Turn parser agent event next := by
  unfold step at h
  split at h
  · cases h
  · split at h
    · cases h
      exact ⟨fun _ ↦ ⟨_, _, rfl⟩, .start _ _ ‹_›⟩
    · cases h
    · rename_i hphase _
      exact ⟨fun hconstructed ↦ absurd hconstructed hphase, turn_of_react h⟩

@[simp]
theorem core_failStart (agent : WsAgent Scratch) (reason : StartFailure) :
    (agent.failStart reason).core = agent.core := by
  unfold failStart
  split <;> rfl

@[simp]
theorem submits_failStart (agent : WsAgent Scratch) (reason : StartFailure) :
    (agent.failStart reason).submits = agent.submits := by
  unfold failStart
  split <;> rfl

@[simp]
theorem submits_connectWs (agent : WsAgent Scratch) (validUrl : Bool) :
    (agent.connectWs validUrl).submits = agent.submits := by
  unfold connectWs
  split
  · rfl
  · rw [submits_failStart]

@[simp]
theorem submits_onConnectionClosed (agent : WsAgent Scratch) (code : ℤ) :
    (agent.onConnectionClosed code).submits = agent.submits := by
  unfold onConnectionClosed
  split <;> rfl

/-- The calls of `submit` touch nothing but their own records. -/
theorem call_eq {event : ChatEvent} {agent next : WsAgent Scratch}
    (h : agent.call event = some next) :
    ∃ submits crashed, next = { agent with submits := submits, crashed := crashed } := by
  obtain ⟨⟨submits, crashed⟩, _, rfl⟩ := Option.map_eq_some_iff.mp h
  exact ⟨submits, crashed, rfl⟩

end WsAgent

end Cordyceps.Agents
