import Cordyceps.Agents.Manager
import Cordyceps.Agents.ServerHttpController
import Cordyceps.Agents.ServerWsController
import Cordyceps.Drivers.CodexParser

/-!
# What a failed spawn leaves behind

One call of `spawn` with everything it gets as an answer: the probe, the build
functions of the driver, the terminal, the server subprocess and the network.
The four factories construct a controller, whose constructor publishes four
keys, and two of them then start something that can fail. Nothing takes the keys
back or stops the server, so a failed spawn leaves no trace only if it fails
before the constructor publishes, or if there was nothing new to leave.
-/

namespace Cordyceps.Agents

open Foundations Foundations.StepMachine Drivers

variable {Scratch : Type*}

/-! ## The factories -/

/-- What the build functions of the driver returned (`none`: absent, or they threw) and what
happened while the factory was awaited. `wsRun` are the events from `start` to the moment its
promise is settled. -/
structure Backend where
  buildPtySpawn : Option SpawnSpec
  ptySpawns : Bool
  hasBuildExec : Bool
  buildServerHttp : Option ServerHttpSpec
  buildServerWs : Option ServerWsSpec
  wsRun : List WsEvent

/-- How a factory ended: whether it returned a runtime, what it told the bus, and which of the
processes it started are alive. -/
structure FactoryResult where
  returned : Bool
  calls : List BusCall
  processes : List SpawnSpec

/-- Events that need no reference to the runtime, which nobody has while `start` runs. -/
def WsEvent.fromBackend : WsEvent → Bool
  | .call _ | .rawWrite _ | .kill _ | .killTimer => false
  | _ => true

/-- The end of the server subprocess, or of the connection. -/
def WsEvent.losesConnection : WsEvent → Bool
  | .serverExit _ | .close _ => true
  | _ => false

def WsEvent.startsServer : WsEvent → Bool
  | .start .starts _ => true
  | _ => false

def WsEvent.isServerExit : WsEvent → Bool
  | .serverExit _ => true
  | _ => false

namespace WsAgent

/-- The promise of `start` is settled. -/
def startSettled (agent : WsAgent Scratch) : Bool :=
  match agent.phase with
  | .started | .failed _ => true
  | _ => false

/-- Play the events up to the moment at which the promise of `start` is settled; `none` if they
do not get there or go on after it. -/
def awaitStart (parser : DriverParser Scratch) :
    WsAgent Scratch → List WsEvent → Option (WsAgent Scratch)
  | agent, [] => if agent.startSettled then some agent else none
  | agent, event :: rest =>
    if agent.startSettled || !event.fromBackend then none
    else (agent.step parser event).bind fun next ↦ awaitStart parser next rest

/-- The live subprocess. -/
def processes (agent : WsAgent Scratch) : List SpawnSpec :=
  match agent.server with
  | some server => if server.life = .running then [server.spec] else []
  | none => []

end WsAgent

/-- The runtime factories of the four modes; `none` if the factory is still awaited. -/
def runFactory (parser : DriverParser Scratch) (backend : Backend) (opts : RuntimeFactoryOpts) :
    Option FactoryResult :=
  match opts.mode with
  | .pty =>
    match backend.buildPtySpawn with
    | some options =>
      let agent := (PtyAgent.create parser opts.id opts.driver.id opts.cwd options).start
        backend.ptySpawns
      some ⟨backend.ptySpawns, agent.core.calls,
        if agent.pty.life = .running then [options] else []⟩
    | none => some ⟨false, [], []⟩
  | .exec =>
    if backend.hasBuildExec then
      let agent := ExecAgent.create parser opts.id opts.driver.id opts.cwd opts.env
      some ⟨true, agent.core.calls, []⟩
    else some ⟨false, [], []⟩
  | .serverHttp =>
    match backend.buildServerHttp with
    | some spec =>
      some ⟨true, (HttpAgent.create parser opts.id opts.driver.id opts.cwd spec).core.calls, []⟩
    | none => some ⟨false, [], []⟩
  | .serverWs =>
    match backend.buildServerWs with
    | some spec =>
      let created := WsAgent.create parser opts.id opts.driver.id opts.cwd opts.env spec
      (created.awaitStart parser backend.wsRun).map fun agent ↦
        ⟨decide (agent.phase = .started), agent.core.calls, agent.processes⟩
    | none => some ⟨false, [], []⟩

/-! ## A call of `spawn` -/

/-- The manager, the key/value state of the bus and the live child processes. -/
structure Daemon where
  manager : AgentManager
  keys : JsMap JsString BusValue
  processes : List SpawnSpec

/-- A call of `spawn` and the answers it gets. `probe` is the answer of the driver's own `probe`,
if it is asked. -/
structure SpawnAttempt where
  idOrAlias : JsString
  opts : SpawnOptions
  probe : Option DriverProbe
  names : NameSource
  backend : Backend

/-- The entries that bus calls write. -/
def writesOf (calls : List BusCall) : List (JsString × BusValue) :=
  calls.filterMap fun
    | .set key value => some (key, value)
    | .emit _ _ => none

namespace Daemon

/-- `spawn` up to the call of the factory: the manager and the phase the call is in. -/
def prepare (attempt : SpawnAttempt) (daemon : Daemon) : AgentManager × Option SpawnPhase :=
  let k := daemon.manager.spawns.length
  let called := daemon.manager.spawn attempt.idOrAlias attempt.opts
  match called.phaseOf k with
  | some (.probing driver answer) =>
    let answered := called.probed k ⟨attempt.opts, .probing driver answer⟩ driver answer
      attempt.probe attempt.names
    (answered, answered.phaseOf k)
  | phase => (called, phase)

/-- `spawn`: the error it rejects with, if it does, and the daemon afterwards; `none` if the
factory is still awaited. -/
def spawn (parser : DriverParser Scratch) (attempt : SpawnAttempt) (daemon : Daemon) :
    Option (Option SpawnError × Daemon) :=
  let k := daemon.manager.spawns.length
  match daemon.prepare attempt with
  | (manager, some (.building opts)) =>
    (runFactory parser attempt.backend opts).map fun result ↦
      let keys := daemon.keys.setAll (writesOf result.calls)
      let processes := daemon.processes ++ result.processes
      if result.returned then (none, ⟨manager.register k opts false, keys, processes⟩)
      else (some .factoryFailed, ⟨manager.onSpawn k (.failed .factoryFailed), keys, processes⟩)
  | (manager, some (.failed error)) => some (some error, { daemon with manager })
  | _ => none

/-- The registry, the bus state and the processes are what they were. -/
structure Unchanged (before after : Daemon) : Prop where
  agents : after.manager.agents = before.manager.agents
  objects : after.manager.objects = before.manager.objects
  keys : after.keys = before.keys
  processes : after.processes = before.processes

end Daemon

/-! ## When a failure leaves nothing -/

/-- The four keys of an agent. -/
def agentEntries (id driverId cwd : JsString) (mode : DriverMode) (state : AgentState) :
    List (JsString × BusValue) :=
  [(agentKey id (js "state"), .state state), (agentKey id (js "driver"), .text driverId),
    (agentKey id (js "cwd"), .text cwd), (agentKey id (js "mode"), .mode mode)]

/-- The factory gets past the constructor, and what it starts afterwards can fail. -/
def Backend.constructs (backend : Backend) : DriverMode → Bool
  | .pty => backend.buildPtySpawn.isSome
  | .serverWs => backend.buildServerWs.isSome
  | .exec | .serverHttp => false

/-- The state that a failed `start` leaves published: that of a new agent, exited if the server
or the connection was lost on the way. -/
def Backend.leftState (backend : Backend) (state : AgentState) (mode : DriverMode) : AgentState :=
  if mode = .serverWs ∧ backend.wsRun.any WsEvent.losesConnection then state.withStatus .exited
  else state

/-- A server subprocess was started and has not ended. -/
def Backend.leavesServer (backend : Backend) (mode : DriverMode) : Bool :=
  mode = .serverWs && backend.buildServerWs.any (fun spec ↦ spec.spawnServer.isSome) &&
    backend.wsRun.head?.any WsEvent.startsServer && !backend.wsRun.any WsEvent.isServerExit

/-- If the factory gets past the constructor, the bus already held exactly what is published, and
no server subprocess is left. -/
def Daemon.NothingToLeave (parser : DriverParser Scratch) (attempt : SpawnAttempt)
    (daemon : Daemon) : Prop :=
  ∀ opts, (daemon.prepare attempt).2 = some (.building opts) →
    attempt.backend.constructs opts.mode = true →
      (∀ entry ∈ agentEntries opts.id opts.driver.id opts.cwd opts.mode
        (attempt.backend.leftState parser.initialState opts.mode),
          daemon.keys.get entry.1 = some entry.2) ∧
      attempt.backend.leavesServer opts.mode = false

/-! ## The keys -/

theorem nodup_agentEntries (id driverId cwd : JsString) (mode : DriverMode) (state : AgentState) :
    ((agentEntries id driverId cwd mode state).map Prod.fst).Nodup := by
  have hnames : [js "state", js "driver", js "cwd", js "mode"].Nodup := by decide
  have hkeys : ([js "state", js "driver", js "cwd", js "mode"].map (agentKey id)).Nodup :=
    hnames.map fun _ _ ↦ agentKey_inj.mp
  exact hkeys

/-- What a list of bus calls leaves under the keys of an agent. -/
def Leaves (calls : List BusCall) (entries : List (JsString × BusValue)) : Prop :=
  ∀ key value, JsMap.lastWrite (writesOf calls) key = some value ↔ (key, value) ∈ entries

theorem setAll_eq_self_iff_of_leaves {calls : List BusCall} {entries : List (JsString × BusValue)}
    (h : Leaves calls entries) (keys : JsMap JsString BusValue) :
    keys.setAll (writesOf calls) = keys ↔ ∀ entry ∈ entries, keys.get entry.1 = some entry.2 := by
  rw [JsMap.setAll_eq_self_iff]
  constructor
  · rintro hkeys ⟨key, value⟩ hmem
    exact hkeys key value ((h key value).mpr hmem)
  · intro hkeys key value hlast
    exact hkeys (key, value) ((h key value).mp hlast)

section Core

variable (id driverId cwd : JsString) (mode : DriverMode) (state : AgentState) (scratch : Scratch)

/-- The shared part of a controller right after its constructor. -/
def announced : AgentCore Scratch :=
  AgentCore.announce ⟨id, state, [], false, none, scratch, []⟩ driverId cwd mode

theorem writesOf_announced : writesOf (announced id driverId cwd mode state scratch).calls =
    agentEntries id driverId cwd mode state := rfl

theorem leaves_announced : Leaves (announced id driverId cwd mode state scratch).calls
    (agentEntries id driverId cwd mode state) :=
  JsMap.lastWrite_of_nodup (nodup_agentEntries id driverId cwd mode state)

/-- The mark of the end overwrites the state alone. -/
theorem leaves_markExited (code : ℤ) (payload : Json) :
    Leaves ((announced id driverId cwd mode state scratch).markExited code payload).calls
      (agentEntries id driverId cwd mode (state.withStatus .exited)) := by
  intro key value
  have hwrites : writesOf ((announced id driverId cwd mode state scratch).markExited code payload).calls =
      agentEntries id driverId cwd mode state ++
        [(agentKey id (js "state"), .state (state.withStatus .exited))] := rfl
  rw [hwrites, JsMap.lastWrite_concat]
  by_cases hkey : key = agentKey id (js "state")
  · rw [if_pos hkey, hkey]
    have hother : ∀ name, js "state" ≠ js name → agentKey id (js "state") ≠ agentKey id (js name) :=
      fun name hne heq ↦ hne (agentKey_inj.mp heq)
    simp [agentEntries, hother "driver" (by decide), hother "cwd" (by decide),
      hother "mode" (by decide), eq_comm]
  · rw [if_neg hkey, JsMap.lastWrite_of_nodup (nodup_agentEntries id driverId cwd mode state)]
    simp [agentEntries, hkey]

end Core

/-! ## Starting a server-ws agent -/

namespace WsAgent

/-- While `start` is under way nobody can talk over the socket yet. -/
structure Starting (agent : WsAgent Scratch) : Prop where
  constructed : agent.phase = .constructed ∨ agent.phase = .delaying → agent.socket = none
  unopened : ∀ socket, agent.socket = some socket →
    socket.readyState ≠ .open ∧ socket.readyState ≠ .closing

/-- The server subprocess has a process. -/
def serving (agent : WsAgent Scratch) : Bool := agent.server.any fun server ↦ server.life = .running

theorem processes_eq_nil_iff (agent : WsAgent Scratch) :
    agent.processes = [] ↔ agent.serving = false := by
  unfold processes serving
  cases agent.server with
  | none => simp
  | some server => by_cases hlife : server.life = .running <;> simp [hlife]

/-- The shared part after some events: untouched, or marked exited if one of them lost the
connection of an agent that was not. -/
def Lost (lost : Bool) (before after : AgentCore Scratch) : Prop :=
  (lost = false ∨ before.exited = true) ∧ after = before ∨
    lost = true ∧ before.exited = false ∧ ∃ code payload, after = before.markExited code payload

theorem Lost.refl (core : AgentCore Scratch) : Lost false core core := .inl ⟨.inl rfl, rfl⟩

theorem Lost.trans {first second third : AgentCore Scratch} {lost lost' : Bool}
    (h : Lost lost first second) (h' : Lost lost' second third) :
    Lost (lost || lost') first third := by
  rcases h with ⟨hkept, rfl⟩ | ⟨rfl, hlive, code, payload, rfl⟩
  · rcases h' with ⟨hkept', rfl⟩ | ⟨rfl, hlive, hmarked⟩
    · rcases hkept with rfl | hexited
      · exact .inl ⟨by simpa using hkept', rfl⟩
      · exact .inl ⟨.inr hexited, rfl⟩
    · exact .inr ⟨Bool.or_true _, hlive, hmarked⟩
  · rcases h' with ⟨_, rfl⟩ | ⟨_, hlive', _⟩
    · exact .inr ⟨Bool.true_or _, hlive, code, payload, rfl⟩
    · cases hlive'

theorem lost_onConnectionClosed (agent : WsAgent Scratch) (code : ℤ) :
    Lost true agent.core (agent.onConnectionClosed code).core := by
  unfold onConnectionClosed
  cases hexited : agent.core.exited with
  | true => exact .inl ⟨.inr hexited, rfl⟩
  | false => exact .inr ⟨rfl, hexited, code, _, rfl⟩

theorem startSettled_failStart (agent : WsAgent Scratch) (reason : StartFailure) :
    (agent.failStart reason).startSettled = true := by
  unfold failStart
  split <;> simp [startSettled, *]

/-- What one event may do while `start` is under way: settle it with success, or leave it rejected
or under way, with the effects on the shared part and on the server. -/
structure StartStep (event : WsEvent) (agent next : WsAgent Scratch) : Prop where
  starting : next.startSettled = false → next.Starting ∧ next.phase ≠ .constructed
  core : Lost event.losesConnection agent.core next.core
  serving : next.serving = (agent.serving && !event.isServerExit)

namespace StartStep

variable {agent next : WsAgent Scratch} {event : WsEvent}

/-- An event that rejects `start` without touching the rest. -/
theorem of_failed (hsettled : next.startSettled = true) (hevent : event.losesConnection = false)
    (hexit : event.isServerExit = false) (hcore : next.core = agent.core)
    (hserver : next.server = agent.server) : StartStep event agent next where
  starting h := by simp [hsettled] at h
  core := by
    rw [hevent, hcore]
    exact .refl _
  serving := by
    rw [WsAgent.serving, WsAgent.serving, hserver, hexit, Bool.not_false, Bool.and_true]

/-- An event that leaves `start` where it is. -/
theorem of_phase (h : agent.Starting) (hphase : agent.phase ≠ .constructed)
    (hsame : next.phase = agent.phase) (hnone : agent.socket = none → next.socket = none)
    (hsocket : ∀ socket, next.socket = some socket →
      socket.readyState ≠ .open ∧ socket.readyState ≠ .closing)
    (hcore : Lost event.losesConnection agent.core next.core)
    (hserving : next.serving = (agent.serving && !event.isServerExit)) :
    StartStep event agent next where
  starting _ := by
    refine ⟨⟨fun hearly ↦ ?_, hsocket⟩, hsame ▸ hphase⟩
    apply hnone
    apply h.constructed
    rwa [hsame] at hearly
  core := hcore
  serving := hserving

end StartStep

theorem server_failStart (agent : WsAgent Scratch) (reason : StartFailure) :
    (agent.failStart reason).server = agent.server := by
  unfold failStart
  split <;> rfl

theorem core_failStart_eq (agent : WsAgent Scratch) (reason : StartFailure) :
    (agent.failStart reason).core = agent.core := by
  unfold failStart
  split <;> rfl

theorem onConnectionClosed_eq (agent : WsAgent Scratch) (code : ℤ) :
    ∃ core, agent.onConnectionClosed code = { agent with core := core } := by
  unfold onConnectionClosed
  split <;> exact ⟨_, rfl⟩

theorem step_starting {parser : DriverParser Scratch} {agent next : WsAgent Scratch}
    {event : WsEvent} (h : agent.Starting) (hbackend : event.fromBackend = true)
    (hphase : agent.phase ≠ .constructed) (hunsettled : agent.startSettled = false)
    (hstep : agent.step parser event = some next) :
    next.phase = .started ∨ StartStep event agent next := by
  obtain ⟨_, hturn⟩ := turn_of_step hstep
  cases hturn with
  | start launch validUrl hconstructed => exact absurd hconstructed hphase
  | delayOver validUrl hdelaying =>
    right
    unfold connectWs
    split
    · refine ⟨fun _ ↦ ⟨⟨nofun, ?_⟩, nofun⟩, .refl _, by simp [serving, WsEvent.isServerExit]⟩
      rintro socket hsocket
      cases hsocket
      exact ⟨nofun, nofun⟩
    · exact .of_failed (startSettled_failStart ..) rfl rfl (core_failStart_eq ..)
        (server_failStart ..)
  | serverError hserver =>
    right
    exact .of_phase h hphase rfl id h.unopened (.refl _) (by simp [serving, WsEvent.isServerExit])
  | @serverExit code server hserver hlife =>
    right
    obtain ⟨core, heq⟩ := onConnectionClosed_eq
      { agent with server := some { server with life := .exited } } (code.getD 0)
    have hlost := lost_onConnectionClosed
      { agent with server := some { server with life := .exited } } (code.getD 0)
    unfold onServerExit
    rw [heq] at hlost ⊢
    exact .of_phase h hphase rfl id h.unopened hlost (by simp [serving, WsEvent.isServerExit])
  | «open» hsocket hstate =>
    left
    have hconnecting : agent.phase = .connecting := by
      cases hcase : agent.phase with
      | connecting => rfl
      | constructed => exact absurd hcase hphase
      | delaying =>
        rw [h.constructed (.inr hcase)] at hsocket
        cases hsocket
      | started => simp [startSettled, hcase] at hunsettled
      | failed reason => simp [startSettled, hcase] at hunsettled
    simp [onOpen, hconnecting]
  | error hsocket =>
    right
    unfold onError
    split
    · exact .of_phase h hphase rfl id h.unopened (.refl _) (by simp [serving, WsEvent.isServerExit])
    · exact .of_failed (startSettled_failStart ..) rfl rfl (core_failStart_eq ..)
        (server_failStart ..)
  | message now text hsocket hstate =>
    obtain ⟨hopen, hclosing⟩ := h.unopened _ hsocket
    exact absurd hstate (not_or_intro hopen hclosing)
  | @close code socket hsocket hhandled =>
    right
    obtain ⟨core, heq⟩ := onConnectionClosed_eq
      { agent with socket := some { socket with readyState := .closed, closeHandled := true } } code
    have hlost := lost_onConnectionClosed
      { agent with socket := some { socket with readyState := .closed, closeHandled := true } } code
    unfold onClose
    rw [heq] at hlost ⊢
    refine .of_phase h hphase rfl (by simp [hsocket]) ?_ hlost
      (by simp [serving, WsEvent.isServerExit])
    rintro other hother
    cases hother
    exact ⟨nofun, nofun⟩
  | connectTimer hsocket harmed =>
    right
    exact .of_failed (startSettled_failStart ..) rfl rfl (core_failStart_eq ..)
      (server_failStart ..)
  | call event hcall => cases hbackend
  | rawWrite data => cases hbackend
  | kill signal => cases hbackend
  | killTimer hclosing => cases hbackend

/-- Once `start` has been called, a failure of it leaves the shared part as the lost connection
does, and the server running unless it ended. -/
theorem awaitStart_failed {parser : DriverParser Scratch} {events : List WsEvent}
    {agent final : WsAgent Scratch} (h : agent.startSettled = false → agent.Starting)
    (hphase : agent.startSettled = false → agent.phase ≠ .constructed)
    (hrun : awaitStart parser agent events = some final) (hfailed : final.phase ≠ .started) :
    Lost (events.any WsEvent.losesConnection) agent.core final.core ∧
      final.serving = (agent.serving && !events.any WsEvent.isServerExit) := by
  induction events generalizing agent with
  | nil =>
    unfold awaitStart at hrun
    split at hrun
    · cases hrun
      exact ⟨.refl _, by simp⟩
    · cases hrun
  | cons event rest ih =>
    unfold awaitStart at hrun
    split at hrun
    · cases hrun
    · rename_i hgo
      simp only [Bool.or_eq_true, Bool.not_eq_true', not_or, Bool.not_eq_true,
        Bool.not_eq_false] at hgo
      obtain ⟨hunsettled, hbackend⟩ := hgo
      obtain ⟨next, hstep, hrest⟩ := Option.bind_eq_some_iff.mp hrun
      rcases step_starting (h hunsettled) hbackend (hphase hunsettled) hunsettled hstep with
        hstarted | hfirst
      · -- a started agent is settled, so nothing follows
        exfalso
        apply hfailed
        cases rest with
        | nil =>
          unfold awaitStart at hrest
          split at hrest
          · cases hrest
            exact hstarted
          · cases hrest
        | cons event rest => simp [awaitStart, startSettled, hstarted] at hrest
      · obtain ⟨hlost, hserving⟩ := ih (fun hopen ↦ (hfirst.starting hopen).1)
          (fun hopen ↦ (hfirst.starting hopen).2) hrest
        rw [List.any_cons, List.any_cons]
        refine ⟨hfirst.core.trans hlost, ?_⟩
        rw [hserving, hfirst.serving]
        simp [Bool.and_assoc]

/-- The call of `start` itself: it starts a server or it does not, and tells the bus nothing. -/
theorem start_spec {parser : DriverParser Scratch} {id driverId cwd : JsString}
    {env : JsMap JsString JsString} {spec : ServerWsSpec} {event : WsEvent}
    {next : WsAgent Scratch}
    (hstep : (create parser id driverId cwd env spec).step parser event = some next) :
    (next.startSettled = false → next.Starting ∧ next.phase ≠ .constructed) ∧
      next.core = (create parser id driverId cwd env spec).core ∧
      next.serving = (spec.spawnServer.isSome && event.startsServer) ∧
      event.losesConnection = false ∧ event.isServerExit = false := by
  obtain ⟨hfirst, hturn⟩ := turn_of_step hstep
  obtain ⟨launch, validUrl, rfl⟩ := hfirst rfl
  cases hturn
  have hsettled : ∀ reason, ((create parser id driverId cwd env spec).failStart reason).startSettled
      = false → ((create parser id driverId cwd env spec).failStart reason).Starting ∧
        ((create parser id driverId cwd env spec).failStart reason).phase ≠ .constructed := by
    intro reason hopen
    rw [startSettled_failStart] at hopen
    cases hopen
  have hspawn : (create parser id driverId cwd env spec).spec.spawnServer = spec.spawnServer := rfl
  unfold start
  rw [hspawn]
  cases spec.spawnServer with
  | none =>
    cases validUrl with
    | false => exact ⟨hsettled .badUrl, rfl, rfl, rfl, rfl⟩
    | true =>
      refine ⟨fun _ ↦ ⟨⟨nofun, ?_⟩, nofun⟩, rfl, rfl, rfl, rfl⟩
      rintro socket hsocket
      cases hsocket
      exact ⟨nofun, nofun⟩
  | some server =>
    cases launch with
    | throws => exact ⟨hsettled .spawnFailed, rfl, rfl, rfl, rfl⟩
    | fails => exact ⟨fun _ ↦ ⟨⟨fun _ ↦ rfl, nofun⟩, nofun⟩, rfl, rfl, rfl, rfl⟩
    | starts => exact ⟨fun _ ↦ ⟨⟨fun _ ↦ rfl, nofun⟩, nofun⟩, rfl, rfl, rfl, rfl⟩

/-- What a `start` that was rejected leaves of a new agent. -/
theorem awaitStart_create {parser : DriverParser Scratch} {id driverId cwd : JsString}
    {env : JsMap JsString JsString} {spec : ServerWsSpec} {events : List WsEvent}
    {final : WsAgent Scratch}
    (hrun : awaitStart parser (create parser id driverId cwd env spec) events = some final)
    (hfailed : final.phase ≠ .started) :
    Lost (events.any WsEvent.losesConnection) (create parser id driverId cwd env spec).core
        final.core ∧
      final.serving = (spec.spawnServer.isSome && events.head?.any WsEvent.startsServer &&
        !events.any WsEvent.isServerExit) := by
  cases events with
  | nil => cases hrun
  | cons event rest =>
    unfold awaitStart at hrun
    split at hrun
    · cases hrun
    · obtain ⟨next, hstep, hrest⟩ := Option.bind_eq_some_iff.mp hrun
      obtain ⟨hstarting, hcore, hserving, hloses, hexit⟩ := start_spec hstep
      obtain ⟨hlost, hleft⟩ := awaitStart_failed (fun hopen ↦ (hstarting hopen).1)
        (fun hopen ↦ (hstarting hopen).2) hrest hfailed
      rw [List.any_cons, List.any_cons, hloses, hexit, Bool.false_or, Bool.false_or, ← hcore]
      refine ⟨hlost, ?_⟩
      rw [hleft, hserving]
      rfl

end WsAgent

/-! ## The factories and the spawn -/

/-- A factory that fails either did not get past a constructor and did nothing, or left the
entries of a new agent and perhaps a server. -/
theorem runFactory_failed {parser : DriverParser Scratch} {backend : Backend}
    {opts : RuntimeFactoryOpts} {result : FactoryResult}
    (hrun : runFactory parser backend opts = some result) (hfailed : result.returned = false) :
    (backend.constructs opts.mode = false ∧ result.calls = [] ∧ result.processes = []) ∨
      (backend.constructs opts.mode = true ∧
        Leaves result.calls (agentEntries opts.id opts.driver.id opts.cwd opts.mode
          (backend.leftState parser.initialState opts.mode)) ∧
        (result.processes = [] ↔ backend.leavesServer opts.mode = false)) := by
  unfold runFactory at hrun
  cases hmode : opts.mode with
  | pty =>
    simp only [hmode] at hrun
    cases hbuild : backend.buildPtySpawn with
    | none =>
      simp only [hbuild, Option.some.injEq] at hrun
      subst hrun
      exact .inl ⟨by simp [Backend.constructs, hbuild], rfl, rfl⟩
    | some options =>
      simp only [hbuild, Option.some.injEq] at hrun
      subst hrun
      refine .inr ⟨by simp [Backend.constructs, hbuild], ?_, ?_⟩
      · have hleft : backend.leftState parser.initialState .pty = parser.initialState := by
          simp [Backend.leftState]
        rw [hleft]
        exact leaves_announced _ _ _ _ _ _
      · have hspawns : backend.ptySpawns = false := hfailed
        simp [PtyAgent.start, PtyAgent.create, hspawns, Backend.leavesServer]
  | exec =>
    simp only [hmode] at hrun
    split at hrun <;> cases hrun
    · cases hfailed
    · exact .inl ⟨rfl, rfl, rfl⟩
  | serverHttp =>
    simp only [hmode] at hrun
    split at hrun <;> cases hrun
    · cases hfailed
    · exact .inl ⟨rfl, rfl, rfl⟩
  | serverWs =>
    simp only [hmode] at hrun
    cases hbuild : backend.buildServerWs with
    | none =>
      simp only [hbuild, Option.some.injEq] at hrun
      subst hrun
      exact .inl ⟨by simp [Backend.constructs, hbuild], rfl, rfl⟩
    | some spec =>
      simp only [hbuild, Option.map_eq_some_iff] at hrun
      obtain ⟨final, hawait, rfl⟩ := hrun
      obtain ⟨hlost, hserving⟩ := WsAgent.awaitStart_create hawait (by simpa using hfailed)
      refine .inr ⟨by simp [Backend.constructs, hbuild], ?_, ?_⟩
      · rcases hlost with ⟨hkept, hcore⟩ | ⟨hlost, _, code, payload, hcore⟩
        · have hunlost : backend.wsRun.any WsEvent.losesConnection = false := by
            rcases hkept with hunlost | hexited
            · exact hunlost
            · cases hexited
          simp only [hcore, Backend.leftState, hunlost, Bool.false_eq_true, and_false, if_false]
          exact leaves_announced _ _ _ _ _ _
        · simp only [hcore, Backend.leftState, hlost, and_self, if_true]
          exact leaves_markExited _ _ _ _ _ _ _ _
      · rw [WsAgent.processes_eq_nil_iff, hserving]
        simp [Backend.leavesServer, hbuild]

namespace Daemon

variable {daemon : Daemon} {attempt : SpawnAttempt}

/-- Before the factory is called the registry is only read. -/
theorem prepare_spec : (daemon.prepare attempt).1.agents = daemon.manager.agents ∧
    (daemon.prepare attempt).1.objects = daemon.manager.objects := by
  unfold prepare
  simp only
  split
  · unfold AgentManager.probed
    split <;> exact ⟨rfl, rfl⟩
  · exact ⟨rfl, rfl⟩

/-- A failed spawn leaves the registry, the bus state and the processes as they were exactly when
there was nothing to leave. -/
theorem failed_spawn_unchanged_iff {parser : DriverParser Scratch} {after : Daemon}
    {error : SpawnError} (h : daemon.spawn parser attempt = some (some error, after)) :
    Unchanged daemon after ↔ daemon.NothingToLeave parser attempt := by
  obtain ⟨hagents, hobjects⟩ := @prepare_spec daemon attempt
  unfold spawn at h
  unfold NothingToLeave
  rcases hprepare : daemon.prepare attempt with ⟨manager, phase⟩
  rw [hprepare] at h hagents hobjects
  split at h
  · rename_i opts hphase
    obtain ⟨rfl, rfl⟩ := Prod.mk.inj hphase
    obtain ⟨result, hrun, hresult⟩ := Option.map_eq_some_iff.mp h
    have hfailed : result.returned = false := by
      by_contra hreturned
      rw [Bool.not_eq_false] at hreturned
      rw [if_pos hreturned] at hresult
      cases hresult
    simp only [hfailed, Bool.false_eq_true, if_false, Prod.mk.injEq] at hresult
    obtain ⟨_, rfl⟩ := hresult
    have hunchanged : Unchanged daemon ⟨manager.onSpawn daemon.manager.spawns.length
        (.failed .factoryFailed), daemon.keys.setAll (writesOf result.calls),
        daemon.processes ++ result.processes⟩ ↔
        daemon.keys.setAll (writesOf result.calls) = daemon.keys ∧ result.processes = [] := by
      constructor
      · intro hsame
        exact ⟨hsame.keys, List.append_right_eq_self.mp hsame.processes⟩
      · rintro ⟨hkeys, hprocesses⟩
        exact ⟨hagents, hobjects, hkeys, by rw [hprocesses, List.append_nil]⟩
    rw [hunchanged]
    simp only [Option.some.injEq, SpawnPhase.building.injEq, forall_eq']
    rcases runFactory_failed hrun hfailed with
      ⟨hconstructs, hcalls, hprocesses⟩ | ⟨hconstructs, hleaves, hprocesses⟩
    · refine iff_of_true ⟨?_, hprocesses⟩ fun htrue ↦ ?_
      · rw [hcalls]
        rfl
      · rw [hconstructs] at htrue
        cases htrue
    · rw [setAll_eq_self_iff_of_leaves hleaves, hprocesses]
      simp [hconstructs]
  · rename_i hphase
    obtain ⟨rfl, rfl⟩ := Prod.mk.inj hphase
    cases h
    refine iff_of_true ⟨hagents, hobjects, rfl, rfl⟩ ?_
    intro other hother
    cases hother
  · cases h

/-- A daemon that knows one driver with a terminal, and has run nothing yet. -/
def fresh : Daemon where
  manager := { AgentManager.create
    { DriverRegistry.create with
      drivers := JsMap.empty.set (js "claude-code") ⟨js "claude-code", [], [.pty]⟩ } (js "/") with
    runtimes := [.pty] }
  keys := .empty
  processes := []

/-- The terminal cannot be spawned, for instance because the working directory does not exist. -/
def ptyFails : SpawnAttempt where
  idOrAlias := js "claude-code"
  opts := ⟨some (js "x"), some (js "/gone"), none, none⟩
  probe := some ⟨true, [], [.pty]⟩
  names := ⟨[], 0⟩
  backend := ⟨some ⟨js "claude", [], js "/gone", .empty, false⟩, false, false, none, none, []⟩

/-- A terminal that cannot be spawned leaves the keys of an agent that never existed. -/
theorem failed_pty_spawn_leaves_keys : ∃ after,
    fresh.spawn codexParser ptyFails = some (some .factoryFailed, after) ∧
      ¬ Unchanged fresh after := by
  refine ⟨_, rfl, fun hsame ↦ ?_⟩
  have hmode := congrArg (fun keys ↦ (JsMap.get keys (agentKey (js "x") (js "mode"))).isSome) hsame.keys
  revert hmode
  decide

/-- The characterization, where the terminal cannot be spawned. -/
theorem failed_pty_spawn_unchanged_iff : ∃ after,
    fresh.spawn codexParser ptyFails = some (some .factoryFailed, after) ∧
      (Unchanged fresh after ↔ fresh.NothingToLeave codexParser ptyFails) :=
  ⟨_, rfl, failed_spawn_unchanged_iff rfl⟩

end Daemon

end Cordyceps.Agents
