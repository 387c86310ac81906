import Cordyceps.Core.Names
import Cordyceps.Drivers.Registry
import Cordyceps.Foundations.Slots
import Cordyceps.Foundations.StepMachine

/-!
# The agent manager

`agents/manager.ts` as a step machine. A call of `spawn` runs up to the `await`
of the probe, from there through the id check up to the `await` of the runtime
factory, and from there to the registration; other calls may run in between.
Runtimes are objects with an identity, their position in `objects`. What probes
and factories answer comes with the events.
-/

namespace Cordyceps.Agents

open Foundations Foundations.StepMachine Cordyceps.Core Drivers

/-- `DriverMode` as it stands in a profile. -/
def DriverMode.text : DriverMode → JsString
  | .pty => js "pty"
  | .exec => js "exec"
  | .serverWs => js "server-ws"
  | .serverHttp => js "server-http"

/-- The mode that a profile asks for; any other value is none of the registered ones. -/
def DriverMode.ofJson : Option Json → Option DriverMode
  | some (.str text) =>
    [DriverMode.pty, .exec, .serverWs, .serverHttp].find? fun mode ↦ mode.text = text
  | _ => none

structure SpawnOptions where
  id : Option JsString
  cwd : Option JsString
  profile : Option (List (JsString × Json))
  env : Option (JsMap JsString JsString)

/-- The argument of a runtime factory. -/
structure RuntimeFactoryOpts where
  id : JsString
  driver : Driver
  mode : DriverMode
  profile : List (JsString × Json)
  cwd : JsString
  env : JsMap JsString JsString

/-- Why a spawn rejects. -/
inductive SpawnError
  | unknownDriver (idOrAlias : JsString)
  | probeThrew
  | notAvailable (driverId : JsString) (warnings : List JsString)
  | noRuntime (driverId : JsString) (driverModes supportedModes registered : List DriverMode)
  | idInUse (id : JsString)
  | factoryFailed
  deriving DecidableEq, Repr

/-- What `drivers.probe` is waiting for: nothing, because the result is cached or the driver is
gone, or the driver's own `probe`. -/
inductive ProbeCall
  | answered (probe : Option DriverProbe)
  | underWay
  deriving DecidableEq, Repr

/-- Where a call of `spawn` stands. -/
inductive SpawnPhase
  | probing (driver : Driver) (probe : ProbeCall)
  | building (opts : RuntimeFactoryOpts)
  | succeeded (runtime : ℕ)
  | failed (error : SpawnError)

structure SpawnCall where
  opts : SpawnOptions
  phase : SpawnPhase

/-- A runtime object. `spawnedBy`, `removed` and `signals` observe the call that returned it,
whether `remove` took it out of the registry, and what `kill` was called with. -/
structure RuntimeObject where
  id : JsString
  exited : Bool
  spawnedBy : ℕ
  removed : Bool
  signals : List JsString

structure AgentManager where
  drivers : DriverRegistry
  runtimes : List DriverMode
  agents : JsMap JsString ℕ
  processCwd : JsString
  objects : List RuntimeObject
  spawns : List SpawnCall

/-- The random draws and the clock that one `uniqueName` call reads. -/
structure NameSource where
  draws : List NameDraw
  now : ℕ

/-- One turn of the event loop; numbers name the spawn call or the runtime. `exit` is a runtime
marking itself exited. -/
inductive ManagerEvent
  | spawn (idOrAlias : JsString) (opts : SpawnOptions)
  | probed (k : ℕ) (probe : Option DriverProbe) (names : NameSource)
  | built (k : ℕ) (exited : Bool)
  | buildFailed (k : ℕ)
  | exit (r : ℕ)
  | kill (id : JsString) (signal : JsString)
  | remove (id : JsString)
  | killAll (signal : JsString)
  | registerRuntime (mode : DriverMode)
  | unregisterRuntime (mode : DriverMode)
  | registerDriver (driver : Driver)
  | unregisterDriver (id : JsString)

namespace AgentManager

def create (drivers : DriverRegistry) (processCwd : JsString) : AgentManager :=
  ⟨drivers, [], .empty, processCwd, [], []⟩

/-- `registerRuntime`; a mode that has a factory already makes it throw. -/
def registerRuntime (mode : DriverMode) (manager : AgentManager) : AgentManager :=
  if mode ∈ manager.runtimes then manager
  else { manager with runtimes := manager.runtimes ++ [mode] }

/-- `unregisterRuntime`. -/
def unregisterRuntime (mode : DriverMode) (manager : AgentManager) : AgentManager :=
  { manager with runtimes := manager.runtimes.erase mode }

/-- `uniqueName`: up to fifty draws, then a name with the time. -/
def uniqueName (manager : AgentManager) (names : NameSource) : JsString :=
  (((names.draws.take 50).map generateName).find? fun name ↦ !manager.agents.has name).getD
    (js "agent-" ++ Json.decimal names.now)

def onSpawn (k : ℕ) (phase : SpawnPhase) (manager : AgentManager) : AgentManager :=
  { manager with spawns := manager.spawns.modify k fun call ↦ { call with phase } }

def phaseOf (manager : AgentManager) (k : ℕ) : Option SpawnPhase :=
  manager.spawns[k]?.map SpawnCall.phase

/-- `drivers.probe(driver.id)`, up to its `await`. -/
def startProbe (manager : AgentManager) (driver : Driver) : ProbeCall :=
  match manager.drivers.resolve driver.id with
  | some driver =>
    match manager.drivers.probes.get driver.id with
    | some probe => .answered (some probe)
    | none => .underWay
  | none => .answered none

/-- `spawn`, up to its first `await`. -/
def spawn (idOrAlias : JsString) (opts : SpawnOptions) (manager : AgentManager) : AgentManager :=
  let phase : SpawnPhase := match manager.drivers.resolve idOrAlias with
    | some driver => .probing driver (manager.startProbe driver)
    | none => .failed (.unknownDriver idOrAlias)
  { manager with spawns := manager.spawns ++ [⟨opts, phase⟩] }

/-- `spawn` with the probe result, up to the call of the factory. -/
def prepare (driver : Driver) (opts : SpawnOptions) (probe : Option DriverProbe)
    (names : NameSource) (manager : AgentManager) : SpawnPhase :=
  match probe with
  | none => .failed (.notAvailable driver.id [js "no probe result"])
  | some probe =>
    if !probe.available then .failed (.notAvailable driver.id probe.warnings)
    else
      let profile := opts.profile.getD []
      let preferred := DriverMode.ofJson (Json.lookup (js "mode") profile)
      match DriverRegistry.chooseMode driver preferred probe.supportedModes manager.runtimes with
      | none => .failed (.noRuntime driver.id driver.modes probe.supportedModes manager.runtimes)
      | some mode =>
        let id := opts.id.getD (manager.uniqueName names)
        if manager.agents.has id then .failed (.idInUse id)
        else .building {
          id := id
          driver := driver
          mode := mode
          profile := Json.insert (js "mode") (.str mode.text) profile
          cwd := opts.cwd.getD manager.processCwd
          env := opts.env.getD .empty }

/-- The continuation of `spawn` after `drivers.probe`. A fresh result is cached first. -/
def probed (k : ℕ) (call : SpawnCall) (driver : Driver) (answer : ProbeCall)
    (probe : Option DriverProbe) (names : NameSource) (manager : AgentManager) : AgentManager :=
  match answer, probe with
  | .answered probe, _ => manager.onSpawn k (manager.prepare driver call.opts probe names)
  | .underWay, none => manager.onSpawn k (.failed .probeThrew)
  | .underWay, some probe =>
    let drivers := { manager.drivers with probes := manager.drivers.probes.set driver.id probe }
    { manager with drivers }.onSpawn k (manager.prepare driver call.opts (some probe) names)

/-- The continuation of `spawn` after the factory: the runtime is registered and returned. -/
def register (k : ℕ) (opts : RuntimeFactoryOpts) (exited : Bool) (manager : AgentManager) :
    AgentManager :=
  { manager with
    agents := manager.agents.set opts.id manager.objects.length
    objects := manager.objects ++ [RuntimeObject.mk opts.id exited k false []]
  }.onSpawn k (.succeeded manager.objects.length)

/-- `get`. -/
def get (manager : AgentManager) (id : JsString) : Option ℕ := manager.agents.get id

/-- `list`, as the runtimes whose infos it returns. -/
def list (manager : AgentManager) : List ℕ := manager.agents.values

def onObject (r : ℕ) (change : RuntimeObject → RuntimeObject) (manager : AgentManager) :
    AgentManager :=
  { manager with objects := manager.objects.modify r change }

def exitedOf (manager : AgentManager) (r : ℕ) : Bool :=
  manager.objects[r]?.any RuntimeObject.exited

/-- `agent.kill(signal)`. -/
def killRuntime (signal : JsString) (manager : AgentManager) (r : ℕ) : AgentManager :=
  manager.onObject r fun runtime ↦ { runtime with signals := runtime.signals ++ [signal] }

/-- `kill`; an unknown id makes it throw. -/
def kill (id signal : JsString) (manager : AgentManager) : AgentManager :=
  match manager.get id with
  | some r => manager.killRuntime signal r
  | none => manager

/-- `remove`; a running agent makes it throw. -/
def remove (id : JsString) (manager : AgentManager) : AgentManager :=
  match manager.get id with
  | some r =>
    if manager.exitedOf r then
      { manager with agents := manager.agents.delete id }.onObject r fun runtime ↦
        { runtime with removed := true }
    else manager
  | none => manager

/-- `killAll`. -/
def killAll (signal : JsString) (manager : AgentManager) : AgentManager :=
  (manager.list.filter fun r ↦ !manager.exitedOf r).foldl (killRuntime signal) manager

/-- One turn. An event that cannot happen in a state has no successor. -/
def step (manager : AgentManager) (event : ManagerEvent) : Option AgentManager :=
  match event with
  | .spawn idOrAlias opts => some (manager.spawn idOrAlias opts)
  | .probed k probe names =>
    match manager.spawns[k]? with
    | some ⟨opts, .probing driver answer⟩ =>
      some (manager.probed k ⟨opts, .probing driver answer⟩ driver answer probe names)
    | _ => none
  | .built k exited =>
    match manager.phaseOf k with
    | some (.building opts) => some (manager.register k opts exited)
    | _ => none
  | .buildFailed k =>
    match manager.phaseOf k with
    | some (.building _) => some (manager.onSpawn k (.failed .factoryFailed))
    | _ => none
  | .exit r => some (manager.onObject r fun runtime ↦ { runtime with exited := true })
  | .kill id signal => some (manager.kill id signal)
  | .remove id => some (manager.remove id)
  | .killAll signal => some (manager.killAll signal)
  | .registerRuntime mode => some (manager.registerRuntime mode)
  | .unregisterRuntime mode => some (manager.unregisterRuntime mode)
  | .registerDriver driver =>
    match manager.drivers.register driver with
    | .ok drivers => some { manager with drivers }
    | .error _ => some manager
  | .unregisterDriver id => some { manager with drivers := (manager.drivers.unregister id).1 }

/-- All that one turn can do. Registering drivers and factories moves no agent. -/
inductive Turn (manager : AgentManager) : ManagerEvent → AgentManager → Prop
  | spawn (idOrAlias : JsString) (opts : SpawnOptions) :
      Turn manager (.spawn idOrAlias opts) (manager.spawn idOrAlias opts)
  | probed {k : ℕ} {opts : SpawnOptions} {driver : Driver} {answer : ProbeCall}
      (hcall : manager.spawns[k]? = some ⟨opts, .probing driver answer⟩)
      (probe : Option DriverProbe) (names : NameSource) :
      Turn manager (.probed k probe names)
        (manager.probed k ⟨opts, .probing driver answer⟩ driver answer probe names)
  | built {k : ℕ} {opts : RuntimeFactoryOpts} (hphase : manager.phaseOf k = some (.building opts))
      (exited : Bool) : Turn manager (.built k exited) (manager.register k opts exited)
  | buildFailed {k : ℕ} {opts : RuntimeFactoryOpts}
      (hphase : manager.phaseOf k = some (.building opts)) :
      Turn manager (.buildFailed k) (manager.onSpawn k (.failed .factoryFailed))
  | exit (r : ℕ) :
      Turn manager (.exit r) (manager.onObject r fun runtime ↦ { runtime with exited := true })
  | kill (id signal : JsString) : Turn manager (.kill id signal) (manager.kill id signal)
  | remove (id : JsString) : Turn manager (.remove id) (manager.remove id)
  | killAll (signal : JsString) : Turn manager (.killAll signal) (manager.killAll signal)
  | registry {event : ManagerEvent} {next : AgentManager}
      (hagents : next.agents = manager.agents) (hobjects : next.objects = manager.objects)
      (hspawns : next.spawns = manager.spawns) : Turn manager event next

theorem built_of_step {manager next : AgentManager} {k : ℕ} {exited : Bool}
    (h : manager.step (.built k exited) = some next) : ∃ opts,
      manager.phaseOf k = some (.building opts) ∧ next = manager.register k opts exited := by
  simp only [step] at h
  split at h
  · rename_i hphase
    exact ⟨_, hphase, (Option.some.inj h).symm⟩
  · cases h

theorem buildFailed_of_step {manager next : AgentManager} {k : ℕ}
    (h : manager.step (.buildFailed k) = some next) : ∃ opts,
      manager.phaseOf k = some (.building opts) ∧
        next = manager.onSpawn k (.failed .factoryFailed) := by
  simp only [step] at h
  split at h
  · rename_i hphase
    exact ⟨_, hphase, (Option.some.inj h).symm⟩
  · cases h

theorem registerDriver_of_step {manager next : AgentManager} {driver : Driver}
    (h : manager.step (.registerDriver driver) = some next) :
    ∃ drivers, next = { manager with drivers } := by
  simp only [step] at h
  split at h <;> exact ⟨_, (Option.some.inj h).symm⟩

theorem turn_of_step {manager next : AgentManager} {event : ManagerEvent}
    (h : manager.step event = some next) : Turn manager event next := by
  cases event with
  | spawn idOrAlias opts =>
    cases h
    exact .spawn idOrAlias opts
  | probed k probe names =>
    simp only [step] at h
    split at h
    · rename_i hcall
      cases h
      exact .probed hcall probe names
    · cases h
  | built k exited =>
    obtain ⟨opts, hphase, rfl⟩ := built_of_step h
    exact .built hphase exited
  | buildFailed k =>
    obtain ⟨opts, hphase, rfl⟩ := buildFailed_of_step h
    exact .buildFailed hphase
  | exit r =>
    cases h
    exact .exit r
  | kill id signal =>
    cases h
    exact .kill id signal
  | remove id =>
    cases h
    exact .remove id
  | killAll signal =>
    cases h
    exact .killAll signal
  | registerRuntime mode =>
    cases h
    unfold registerRuntime
    split <;> exact .registry rfl rfl rfl
  | unregisterRuntime mode =>
    cases h
    exact .registry rfl rfl rfl
  | registerDriver driver =>
    obtain ⟨drivers, rfl⟩ := registerDriver_of_step h
    exact .registry rfl rfl rfl
  | unregisterDriver id =>
    cases h
    exact .registry rfl rfl rfl

end AgentManager

end Cordyceps.Agents
