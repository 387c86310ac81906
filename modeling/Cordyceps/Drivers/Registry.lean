import Cordyceps.Drivers.Api

/-!
# The driver registry

`drivers/registry.ts`: drivers by canonical id, aliases, and cached probe
results. Of a driver the registry reads the id, the aliases and the modes.
-/

namespace Cordyceps.Drivers

open Foundations Agents

/-- A driver, as far as the registry and the manager read it. -/
structure Driver where
  id : JsString
  aliases : List JsString
  modes : List DriverMode
  deriving DecidableEq, Repr

/-- The part of a probe result that decides a spawn. -/
structure DriverProbe where
  available : Bool
  warnings : List JsString
  supportedModes : List DriverMode
  deriving DecidableEq, Repr

/-- Why `register` throws. -/
inductive RegistryError
  | idRegistered (id : JsString)
  | aliasCollides (name : JsString)
  deriving DecidableEq, Repr

structure DriverRegistry where
  drivers : JsMap JsString Driver
  aliases : JsMap JsString JsString
  probes : JsMap JsString DriverProbe

namespace DriverRegistry

def create : DriverRegistry := ⟨.empty, .empty, .empty⟩

/-- `register`: all collisions are looked for before anything is written. -/
def register (driver : Driver) (registry : DriverRegistry) :
    Except RegistryError DriverRegistry :=
  if registry.drivers.has driver.id then .error (.idRegistered driver.id)
  else
    match driver.aliases.find? fun name ↦ registry.drivers.has name || registry.aliases.has name with
    | some name => .error (.aliasCollides name)
    | none => .ok { registry with
        drivers := registry.drivers.set driver.id driver
        aliases := driver.aliases.foldl (fun aliases name ↦ aliases.set name driver.id)
          registry.aliases }

/-- `unregister`. -/
def unregister (id : JsString) (registry : DriverRegistry) : DriverRegistry × Bool :=
  match registry.drivers.get id with
  | some driver =>
    ({ drivers := registry.drivers.delete id
       aliases := driver.aliases.foldl JsMap.delete registry.aliases
       probes := registry.probes.delete id }, true)
  | none => (registry, false)

/-- `resolve`. An empty canonical id is falsy. -/
def resolve (registry : DriverRegistry) (idOrAlias : JsString) : Option Driver :=
  let canonical :=
    if registry.drivers.has idOrAlias then some idOrAlias else registry.aliases.get idOrAlias
  match canonical with
  | some id => if id.isEmpty then none else registry.drivers.get id
  | none => none

/-- `canonicalId`. -/
def canonicalId (registry : DriverRegistry) (idOrAlias : JsString) : Option JsString :=
  if registry.drivers.has idOrAlias then some idOrAlias else registry.aliases.get idOrAlias

/-- `list`. -/
def list (registry : DriverRegistry) : List Driver := registry.drivers.values

/-- `chooseMode`. -/
def chooseMode (driver : Driver) (preferred : Option DriverMode)
    (supportedModes registeredRuntimes : List DriverMode) : Option DriverMode :=
  let viable := driver.modes.filter fun mode ↦ mode ∈ supportedModes ∧ mode ∈ registeredRuntimes
  match preferred with
  | some mode => if mode ∈ viable then some mode else viable.head?
  | none => viable.head?

/-- A mode that was chosen is one the driver, the machine and the manager support. -/
theorem mem_of_chooseMode {driver : Driver} {preferred : Option DriverMode}
    {supportedModes registeredRuntimes : List DriverMode} {mode : DriverMode}
    (h : chooseMode driver preferred supportedModes registeredRuntimes = some mode) :
    mode ∈ driver.modes ∧ mode ∈ supportedModes ∧ mode ∈ registeredRuntimes := by
  have hviable : mode ∈ driver.modes.filter fun mode ↦
      mode ∈ supportedModes ∧ mode ∈ registeredRuntimes := by
    unfold chooseMode at h
    simp only at h
    split at h
    · split at h
      · cases h
        assumption
      · exact List.mem_of_head? h
    · exact List.mem_of_head? h
  simpa using List.mem_filter.mp hviable

end DriverRegistry

end Cordyceps.Drivers
