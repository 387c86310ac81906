import Cordyceps.Agents.CoreSteps
import Cordyceps.Agents.Manager
import Cordyceps.Agents.SpawnAtomicity

/-!
# A manager and its runtimes

The manager of `agents/manager.ts` together with the controllers that its
factories construct, and the key/value state of the bus they all write to. A
factory constructs its controller in the turn in which the id was found to be
free; the runtime takes turns of its own from then on, also after it was removed
from the registry, and `spawn` registers it when the factory is done.
-/

namespace Cordyceps.Agents

open Foundations Foundations.StepMachine Drivers

/-- A controller of any mode. -/
inductive Controller (Scratch : Type*)
  | pty (agent : PtyAgent Scratch)
  | exec (agent : ExecAgent Scratch)
  | serverWs (agent : WsAgent Scratch)
  | serverHttp (agent : HttpAgent Scratch)

/-- One turn of a controller. -/
inductive ControllerEvent
  | pty (event : PtyEvent)
  | exec (event : ExecEvent)
  | serverWs (event : WsEvent)
  | serverHttp (event : HttpEvent)

namespace Controller

variable {Scratch : Type*}

def core : Controller Scratch → AgentCore Scratch
  | .pty agent => agent.core
  | .exec agent => agent.core
  | .serverWs agent => agent.core
  | .serverHttp agent => agent.core

def step (parser : DriverParser Scratch) (controller : Controller Scratch)
    (event : ControllerEvent) : Option (Controller Scratch) :=
  match controller, event with
  | .pty agent, .pty event => (agent.step parser event).map .pty
  | .exec agent, .exec event => (agent.step parser event).map .exec
  | .serverWs agent, .serverWs event => (agent.step parser event).map .serverWs
  | .serverHttp agent, .serverHttp event => (agent.step parser event).map .serverHttp
  | _, _ => none

/-- The constructors of the four factories, on what the build functions of the driver return;
`none` if they throw or are missing. -/
def construct (parser : DriverParser Scratch) (backend : Backend) (opts : RuntimeFactoryOpts) :
    Option (Controller Scratch) :=
  match opts.mode with
  | .pty => backend.buildPtySpawn.map fun options ↦
      .pty (.create parser opts.id opts.driver.id opts.cwd options)
  | .exec =>
    if backend.hasBuildExec then
      some (.exec (.create parser opts.id opts.driver.id opts.cwd opts.env))
    else none
  | .serverWs => backend.buildServerWs.map fun spec ↦
      .serverWs (.create parser opts.id opts.driver.id opts.cwd opts.env spec)
  | .serverHttp => backend.buildServerHttp.map fun spec ↦
      .serverHttp (.create parser opts.id opts.driver.id opts.cwd spec)

/-- How the factory ended, once it did: the modes without a `start` are done when they are
constructed. -/
def built : Controller Scratch → Option Bool
  | .pty agent => agent.started
  | .exec _ | .serverHttp _ => some true
  | .serverWs agent =>
    match agent.phase with
    | .started => some true
    | .failed _ => some false
    | _ => none

/-- The memory of the driver's parser, after turns of other agents of the driver. -/
def putScratch (scratch : Scratch) : Controller Scratch → Controller Scratch
  | .pty agent => .pty { agent with core := { agent.core with scratch } }
  | .exec agent => .exec { agent with core := { agent.core with scratch } }
  | .serverWs agent => .serverWs { agent with core := { agent.core with scratch } }
  | .serverHttp agent => .serverHttp { agent with core := { agent.core with scratch } }

@[simp]
theorem core_putScratch (scratch : Scratch) (controller : Controller Scratch) :
    (controller.putScratch scratch).core = { controller.core with scratch } := by
  cases controller <;> rfl

theorem core_step {parser : DriverParser Scratch}
    {relation : AgentCore Scratch → AgentCore Scratch → Prop} (h : CoreClosed parser relation)
    {controller next : Controller Scratch} {event : ControllerEvent}
    (hstep : controller.step parser event = some next) : relation controller.core next.core := by
  unfold step at hstep
  split at hstep
  · obtain ⟨agent, hagent, rfl⟩ := Option.map_eq_some_iff.mp hstep
    exact h.of_turned (PtyAgent.turned_of_step hagent)
  · obtain ⟨agent, hagent, rfl⟩ := Option.map_eq_some_iff.mp hstep
    exact h.of_turned (ExecAgent.turned_of_step hagent)
  · obtain ⟨agent, hagent, rfl⟩ := Option.map_eq_some_iff.mp hstep
    exact h.of_turned (WsAgent.turned_of_step hagent)
  · obtain ⟨agent, hagent, rfl⟩ := Option.map_eq_some_iff.mp hstep
    exact h.of_turned (HttpAgent.turned_of_step hagent)
  · cases hstep

/-- A new controller has announced itself and done nothing else. -/
theorem core_construct {parser : DriverParser Scratch} {backend : Backend}
    {opts : RuntimeFactoryOpts} {controller : Controller Scratch}
    (h : construct parser backend opts = some controller) : ∃ status mode, controller.core =
      announced opts.id opts.driver.id opts.cwd mode (parser.initialState.withStatus status)
        parser.scratch := by
  have hsame : parser.initialState = parser.initialState.withStatus parser.initialState.status := rfl
  unfold construct at h
  split at h
  · obtain ⟨options, _, rfl⟩ := Option.map_eq_some_iff.mp h
    exact ⟨_, .pty, by rw [← hsame]; rfl⟩
  · split at h
    · cases h
      exact ⟨.idle, .exec, rfl⟩
    · cases h
  · obtain ⟨spec, _, rfl⟩ := Option.map_eq_some_iff.mp h
    exact ⟨_, .serverWs, by rw [← hsame]; rfl⟩
  · obtain ⟨spec, _, rfl⟩ := Option.map_eq_some_iff.mp h
    exact ⟨.idle, .serverHttp, rfl⟩

end Controller

/-- A controller with the parser of its driver. -/
structure Runtime (Scratch : Type*) where
  parser : DriverParser Scratch
  controller : Controller Scratch

namespace Runtime

variable {Scratch : Type*}

def core (runtime : Runtime Scratch) : AgentCore Scratch := runtime.controller.core

def step (runtime : Runtime Scratch) (event : ControllerEvent) : Option (Runtime Scratch) :=
  (runtime.controller.step runtime.parser event).map fun controller ↦ { runtime with controller }

/-- The bus calls of the turn that led to `next`. -/
def newCalls (runtime next : Runtime Scratch) : List BusCall :=
  next.core.calls.drop runtime.core.calls.length

end Runtime

/-- `runtimes` holds what each call of `spawn` constructed. In `keys` every value carries the
call whose runtime wrote it. -/
structure Fleet (Scratch : Type*) where
  manager : AgentManager
  runtimes : List (Option (Runtime Scratch))
  keys : JsMap JsString (ℕ × BusValue)

/-- One turn of the event loop; numbers name the spawn call. `turn` is any turn of the runtime that
the call constructed, `kill` included. -/
inductive FleetEvent (Scratch : Type*)
  | spawn (idOrAlias : JsString) (opts : SpawnOptions)
  | probed (k : ℕ) (probe : Option DriverProbe) (names : NameSource) (backend : Backend)
  | built (k : ℕ)
  | buildFailed (k : ℕ)
  | turn (k : ℕ) (event : ControllerEvent)
  | others (k : ℕ) (scratch : Scratch)
  | remove (id : JsString)
  | registerRuntime (mode : DriverMode)
  | unregisterRuntime (mode : DriverMode)
  | registerDriver (driver : Driver)
  | unregisterDriver (id : JsString)

namespace Fleet

variable {Scratch : Type*}

def create (drivers : DriverRegistry) (processCwd : JsString) : Fleet Scratch :=
  ⟨.create drivers processCwd, [], .empty⟩

/-- The runtime that a spawn call constructed. -/
def runtimeAt (fleet : Fleet Scratch) (k : ℕ) : Option (Runtime Scratch) := fleet.runtimes[k]?.join

/-- The bus writes of a runtime. -/
def write (k : ℕ) (calls : List BusCall) (keys : JsMap JsString (ℕ × BusValue)) :
    JsMap JsString (ℕ × BusValue) :=
  keys.setAll ((writesOf calls).map fun entry ↦ (entry.1, k, entry.2))

/-- The runtime of a spawn call is this one now; the bus was told something. -/
def put (k : ℕ) (runtime : Runtime Scratch) (calls : List BusCall) (fleet : Fleet Scratch) :
    Fleet Scratch :=
  { fleet with runtimes := fleet.runtimes.set k (some runtime), keys := write k calls fleet.keys }

/-- The manager sees that a runtime it returned has exited. -/
def noteExit (k : ℕ) (exited : Bool) (manager : AgentManager) : AgentManager :=
  match manager.phaseOf k with
  | some (.succeeded r) =>
    if exited then manager.onObject r fun runtime ↦ { runtime with exited := true } else manager
  | _ => manager

/-- `spawn` after the probe: a call that found its id free runs the factory up to its first
`await`. -/
def probed (parserOf : Driver → DriverParser Scratch) (k : ℕ) (backend : Backend)
    (manager : AgentManager) (fleet : Fleet Scratch) : Fleet Scratch :=
  match manager.phaseOf k with
  | some (.building opts) =>
    match Controller.construct (parserOf opts.driver) backend opts with
    | some controller =>
      { fleet with manager }.put k ⟨parserOf opts.driver, controller⟩ controller.core.calls
    | none => { fleet with manager }
  | _ => { fleet with manager }

/-- One turn. An event that cannot happen in a state has no successor. -/
def step (parserOf : Driver → DriverParser Scratch) (fleet : Fleet Scratch)
    (event : FleetEvent Scratch) : Option (Fleet Scratch) :=
  match event with
  | .spawn idOrAlias opts => some { fleet with
      manager := fleet.manager.spawn idOrAlias opts
      runtimes := fleet.runtimes ++ [none] }
  | .probed k probe names backend =>
    (fleet.manager.step (.probed k probe names)).map fun manager ↦
      fleet.probed parserOf k backend manager
  | .built k =>
    match fleet.runtimeAt k with
    | some runtime =>
      if runtime.controller.built = some true then
        (fleet.manager.step (.built k runtime.core.exited)).map fun manager ↦
          { fleet with manager }
      else none
    | none => none
  | .buildFailed k =>
    if (fleet.runtimeAt k).all fun runtime ↦ runtime.controller.built = some false then
      (fleet.manager.step (.buildFailed k)).map fun manager ↦ { fleet with manager }
    else none
  | .turn k event =>
    match fleet.runtimeAt k with
    | some runtime => (runtime.step event).map fun next ↦
        { fleet with manager := noteExit k next.core.exited fleet.manager }.put k next
          (runtime.newCalls next)
    | none => none
  | .others k scratch =>
    match fleet.runtimeAt k with
    | some runtime => some (fleet.put k
        { runtime with controller := runtime.controller.putScratch scratch } [])
    | none => none
  | .remove id => some { fleet with manager := fleet.manager.remove id }
  | .registerRuntime mode => some { fleet with manager := fleet.manager.registerRuntime mode }
  | .unregisterRuntime mode => some { fleet with manager := fleet.manager.unregisterRuntime mode }
  | .registerDriver driver =>
    (fleet.manager.step (.registerDriver driver)).map fun manager ↦ { fleet with manager }
  | .unregisterDriver id =>
    (fleet.manager.step (.unregisterDriver id)).map fun manager ↦ { fleet with manager }

/-- All that one turn can do. Registering drivers and factories moves no agent. -/
inductive Turn (parserOf : Driver → DriverParser Scratch) (fleet : Fleet Scratch) :
    FleetEvent Scratch → Fleet Scratch → Prop
  | spawn (idOrAlias : JsString) (opts : SpawnOptions) :
      Turn parserOf fleet (.spawn idOrAlias opts) { fleet with
        manager := fleet.manager.spawn idOrAlias opts
        runtimes := fleet.runtimes ++ [none] }
  | probed (k : ℕ) {probe : Option DriverProbe} {names : NameSource} {backend : Backend}
      {manager : AgentManager} (hmanager : fleet.manager.step (.probed k probe names) = some manager) :
      Turn parserOf fleet (.probed k probe names backend) (fleet.probed parserOf k backend manager)
  | built (k : ℕ) {runtime : Runtime Scratch} {opts : RuntimeFactoryOpts}
      (hruntime : fleet.runtimeAt k = some runtime) (hbuilt : runtime.controller.built = some true)
      (hphase : fleet.manager.phaseOf k = some (.building opts)) :
      Turn parserOf fleet (.built k)
        { fleet with manager := fleet.manager.register k opts runtime.core.exited }
  | buildFailed (k : ℕ) {opts : RuntimeFactoryOpts}
      (hruntime : ∀ runtime, fleet.runtimeAt k = some runtime →
        runtime.controller.built = some false)
      (hphase : fleet.manager.phaseOf k = some (.building opts)) :
      Turn parserOf fleet (.buildFailed k)
        { fleet with manager := fleet.manager.onSpawn k (.failed .factoryFailed) }
  | turn (k : ℕ) {event : ControllerEvent} {runtime after : Runtime Scratch}
      (hruntime : fleet.runtimeAt k = some runtime) (hafter : runtime.step event = some after) :
      Turn parserOf fleet (.turn k event)
        (({ fleet with manager := noteExit k after.core.exited fleet.manager } :
          Fleet Scratch).put k after (runtime.newCalls after))
  | others (k : ℕ) (scratch : Scratch) {runtime : Runtime Scratch}
      (hruntime : fleet.runtimeAt k = some runtime) :
      Turn parserOf fleet (.others k scratch) (fleet.put k
        { runtime with controller := runtime.controller.putScratch scratch } [])
  | remove (id : JsString) :
      Turn parserOf fleet (.remove id) { fleet with manager := fleet.manager.remove id }
  | registry {event : FleetEvent Scratch} {manager : AgentManager}
      (hspawns : manager.spawns = fleet.manager.spawns)
      (hagents : manager.agents = fleet.manager.agents)
      (hobjects : manager.objects = fleet.manager.objects)
      (hevent : ∀ k turn, event ≠ .turn k turn) : Turn parserOf fleet event { fleet with manager }

theorem turn_of_step {parserOf : Driver → DriverParser Scratch} {fleet next : Fleet Scratch}
    {event : FleetEvent Scratch} (h : fleet.step parserOf event = some next) :
    Turn parserOf fleet event next := by
  unfold step at h
  cases event with
  | spawn idOrAlias opts =>
    cases h
    exact .spawn idOrAlias opts
  | probed k probe names backend =>
    obtain ⟨manager, hmanager, rfl⟩ := Option.map_eq_some_iff.mp h
    exact .probed k hmanager
  | built k =>
    simp only at h
    split at h
    · rename_i runtime hruntime
      simp only [Option.ite_none_right_eq_some] at h
      obtain ⟨hbuilt, heq⟩ := h
      obtain ⟨manager, hmanager, rfl⟩ := Option.map_eq_some_iff.mp heq
      obtain ⟨opts, hphase, rfl⟩ := AgentManager.built_of_step hmanager
      exact .built k hruntime hbuilt hphase
    · cases h
  | buildFailed k =>
    simp only [Option.ite_none_right_eq_some] at h
    obtain ⟨hfailed, heq⟩ := h
    obtain ⟨manager, hmanager, rfl⟩ := Option.map_eq_some_iff.mp heq
    obtain ⟨opts, hphase, rfl⟩ := AgentManager.buildFailed_of_step hmanager
    refine .buildFailed k (fun runtime hruntime ↦ ?_) hphase
    rw [hruntime, Option.all_some, decide_eq_true_eq] at hfailed
    exact hfailed
  | turn k event =>
    simp only at h
    split at h
    · rename_i runtime hruntime
      obtain ⟨after, hafter, rfl⟩ := Option.map_eq_some_iff.mp h
      exact .turn k hruntime hafter
    · cases h
  | others k scratch =>
    simp only at h
    split at h
    · rename_i runtime hruntime
      cases h
      exact .others k scratch hruntime
    · cases h
  | remove id =>
    cases h
    exact .remove id
  | registerRuntime mode =>
    cases h
    unfold AgentManager.registerRuntime
    split
    · exact .registry rfl rfl rfl nofun
    · exact .registry rfl rfl rfl nofun
  | unregisterRuntime mode =>
    cases h
    exact .registry rfl rfl rfl nofun
  | registerDriver driver =>
    obtain ⟨manager, hmanager, rfl⟩ := Option.map_eq_some_iff.mp h
    obtain ⟨drivers, rfl⟩ := AgentManager.registerDriver_of_step hmanager
    exact .registry rfl rfl rfl nofun
  | unregisterDriver id =>
    obtain ⟨manager, hmanager, rfl⟩ := Option.map_eq_some_iff.mp h
    cases hmanager
    exact .registry rfl rfl rfl nofun

end Fleet

end Cordyceps.Agents
