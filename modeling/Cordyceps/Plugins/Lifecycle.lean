import Cordyceps.Core.LiveListeners
import Cordyceps.Foundations.Json
import Cordyceps.Plugins.Loader

/-!
# Loading plugins

`loadPlugin`, `destroyPlugin` and `loadAll` of `plugins/loader.ts`, with `register`
and `unregister` of the dispatcher. What a plugin does is its own: here `init` is
the calls that it makes on its context, and the error that it throws after them. An
error leaves the dispatcher and the bus as they are at that moment.
-/

namespace Cordyceps.Plugins

open Foundations Cordyceps.Core

variable {Handler Callback Disposer Value : Type*}

/-! ## Configuration -/

/-- A slice of `plugins` in the global config. -/
structure PluginSlice where
  enabled : Option Bool
  settings : Option (JsMap JsString Json)

structure PluginConfig where
  enabled : Bool
  settings : JsMap JsString Json
  flags : JsMap JsString Json

/-- The configuration in `LoaderOpts`. -/
structure LoaderOpts where
  pluginConfigs : JsString → Option PluginSlice
  flagOverrides : Option (JsString → Option (JsMap JsString Json))

/-- `buildPluginConfig`. -/
def buildPluginConfig (globalSlice : Option PluginSlice)
    (flagOverrides : Option (JsMap JsString Json)) : PluginConfig where
  enabled := globalSlice.bind PluginSlice.enabled ≠ some false
  settings := (globalSlice.bind PluginSlice.settings).getD .empty
  flags := flagOverrides.getD .empty

/-- The configuration of the plugin with the given name. -/
def LoaderOpts.config (opts : LoaderOpts) (name : JsString) : PluginConfig :=
  buildPluginConfig (opts.pluginConfigs name)
    (opts.flagOverrides.bind fun overrides ↦ (overrides name).or (overrides (js "*")))

/-! ## Plugins -/

/-- A call on the `PluginContext`. -/
inductive ContextCall (Callback Disposer : Type*)
  | subscribe (event : JsString) (cb : Callback)
  | onDestroy (fn : Disposer)
  deriving DecidableEq, Repr

/-- A run of `init`: its calls, and the message of the error it ends with, if any. -/
structure InitRun (Callback Disposer : Type*) where
  calls : List (ContextCall Callback Disposer)
  thrown : Option JsString

/-- A plugin as the loader reads it. `methods` has the order of `Object.entries`. -/
structure PluginModule (Handler Callback Disposer : Type*) extends CordycepsPlugin where
  methods : JsMap JsString Handler
  init : Option (PluginConfig → InitRun Callback Disposer)

namespace PluginModule

variable (plugin : PluginModule Handler Callback Disposer) (opts : LoaderOpts)

def config : PluginConfig := opts.config plugin.name

/-- `init(ctx)`; a plugin without one does nothing. -/
def run : InitRun Callback Disposer :=
  match plugin.init with
  | some init => init (plugin.config opts)
  | none => ⟨[], none⟩

end PluginModule

/-- What `loadPlugin` keeps for the teardown. -/
inductive Disposable (Disposer : Type*)
  | unsubscribe (handle : ℕ)
  | custom (fn : Disposer)
  deriving DecidableEq, Repr

structure LoadedPlugin (Handler Callback Disposer : Type*) where
  plugin : PluginModule Handler Callback Disposer
  registeredMethods : List JsString
  disposables : List (Disposable Disposer)

inductive LoadError
  | taken (method : JsString)
  | init (message : JsString)
  | sort (error : SortError)
  deriving DecidableEq, Repr

/-- The text of the `Error`. -/
def LoadError.message : LoadError → Option JsString
  | .taken method => some (js "Method already registered: " ++ method)
  | .init message => some message
  | .sort error => error.message

/-! ## The dispatcher and the bus -/

/-- What the plugins of a daemon share: the method table of the dispatcher, and the bus. -/
structure Host (Handler Callback Value : Type*) where
  methods : JsMap JsString Handler
  bus : ServiceBus Callback Value
  wired : bus.Wired

namespace Host

section Dispatcher

variable (host : Host Handler Callback Value)

/-- `RpcDispatcher.register`. -/
def register (method : JsString) (handler : Handler) :
    Except LoadError (Host Handler Callback Value) :=
  if host.methods.has method then .error (.taken method)
  else .ok { host with methods := host.methods.set method handler }

/-- `RpcDispatcher.unregister`. -/
def unregister (method : JsString) : Host Handler Callback Value :=
  { host with methods := host.methods.delete method }

end Dispatcher

variable [DecidableEq Callback] (host : Host Handler Callback Value)

def on (event : JsString) (cb : Callback) : Host Handler Callback Value where
  methods := host.methods
  bus := host.bus.on event (.callback cb)
  wired := host.wired.on (by simp)

def emit (event : JsString) : Host Handler Callback Value where
  methods := host.methods
  bus := (host.bus.emit event).1
  wired := host.wired.perform (.emit event)

def unsubscribe (handle : ℕ) : Host Handler Callback Value where
  methods := host.methods
  bus := host.bus.unsubscribe handle
  wired := host.wired.unsubscribe handle

/-- A call on the context, and what it adds to the `disposables`. -/
def perform : ContextCall Callback Disposer → Host Handler Callback Value × Disposable Disposer
  | .subscribe event cb => (host.on event cb, .unsubscribe host.bus.handles.length)
  | .onDestroy fn => (host, .custom fn)

/-- Run a `Disposable`; what a custom one does to other things is not the loader's. -/
def dispose : Disposable Disposer → Host Handler Callback Value
  | .unsubscribe handle => host.unsubscribe handle
  | .custom _ => host

end Host

variable [DecidableEq Callback]

/-! ## Loading -/

/-- The loop over the methods. It stops at the first name that is taken. -/
def registerMethods : List (JsString × Handler) → Host Handler Callback Value →
    Host Handler Callback Value × Except LoadError (List JsString)
  | [], host => (host, .ok [])
  | (name, handler) :: rest, host =>
    match host.register name handler with
    | .error error => (host, .error error)
    | .ok host => (registerMethods rest host).map id fun names ↦ names.map (name :: ·)

/-- The calls of `init`, in order. -/
def performAll : List (ContextCall Callback Disposer) → Host Handler Callback Value →
    Host Handler Callback Value × List (Disposable Disposer)
  | [], host => (host, [])
  | call :: rest, host =>
    (performAll rest (host.perform call).1).map id ((host.perform call).2 :: ·)

/-- `loadPlugin`: the host afterwards, and the record or the error. -/
def loadPlugin (plugin : PluginModule Handler Callback Disposer) (opts : LoaderOpts)
    (host : Host Handler Callback Value) :
    Host Handler Callback Value × Except LoadError (LoadedPlugin Handler Callback Disposer) :=
  if !(plugin.config opts).enabled then (host, .ok ⟨plugin, [], []⟩)
  else
    match registerMethods plugin.methods.entries host with
    | (host, .error error) => (host, .error error)
    | (host, .ok registeredMethods) =>
      match performAll (plugin.run opts).calls host, (plugin.run opts).thrown with
      | (host, _), some message => (host, .error (.init message))
      | (host, disposables), none =>
        (host.emit (js "plugin.ready"), .ok ⟨plugin, registeredMethods, disposables⟩)

/-- `destroyPlugin`, without the plugin's own `destroy`. -/
def destroyPlugin (loaded : LoadedPlugin Handler Callback Disposer)
    (host : Host Handler Callback Value) : Host Handler Callback Value :=
  loaded.registeredMethods.foldl Host.unregister (loaded.disposables.foldl Host.dispose host)

/-- The loop of `loadAll`. -/
def loadEach (opts : LoaderOpts) : List (PluginModule Handler Callback Disposer) →
    Host Handler Callback Value →
    Host Handler Callback Value × Except LoadError (List (LoadedPlugin Handler Callback Disposer))
  | [], host => (host, .ok [])
  | plugin :: rest, host =>
    match loadPlugin plugin opts host with
    | (host, .error error) => (host, .error error)
    | (host, .ok loaded) =>
      (loadEach opts rest host).map id fun others ↦ others.map (loaded :: ·)

/-- The plugins in load order. -/
def sortModules (plugins : List (PluginModule Handler Callback Disposer)) :
    Except SortError (List (PluginModule Handler Callback Disposer)) :=
  (sortPlugins (plugins.map PluginModule.toCordycepsPlugin)).map fun sorted ↦
    sorted.filterMap fun plugin ↦ plugins.find? fun other ↦ other.toCordycepsPlugin = plugin

/-- `loadAll`. -/
def loadAll (plugins : List (PluginModule Handler Callback Disposer)) (opts : LoaderOpts)
    (host : Host Handler Callback Value) :
    Host Handler Callback Value × Except LoadError (List (LoadedPlugin Handler Callback Disposer)) :=
  match sortModules plugins with
  | .error error => (host, .error (.sort error))
  | .ok sorted => loadEach opts sorted host

end Cordyceps.Plugins
