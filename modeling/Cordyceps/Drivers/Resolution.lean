import Cordyceps.Drivers.Registry
import Cordyceps.Foundations.StepMachine

/-!
# Names of registered drivers

`register` looks for collisions of a new alias with the ids and the aliases, but of a new id with
the ids only. Over all histories of a registry its names lead to their drivers exactly if no
driver is registered under an alias of another one, nor under the empty name, which `resolve`
takes for no name.
-/

namespace Cordyceps.Drivers

open Foundations Foundations.StepMachine

/-! ## Aliases, several at a time -/

theorem get_assignAliases (id : JsString) (names : List JsString)
    (aliases : JsMap JsString JsString) (name : JsString) :
    (names.foldl (fun aliases name ↦ aliases.set name id) aliases).get name =
      if name ∈ names then some id else aliases.get name := by
  induction names generalizing aliases with
  | nil => rfl
  | cons other names ih =>
    rw [List.foldl_cons, ih, JsMap.get_set]
    by_cases hmem : name ∈ names <;> by_cases hother : name = other <;> simp [hmem, hother]

theorem get_deleteAliases (names : List JsString) (aliases : JsMap JsString JsString)
    (name : JsString) :
    (names.foldl JsMap.delete aliases).get name =
      if name ∈ names then none else aliases.get name := by
  induction names generalizing aliases with
  | nil => rfl
  | cons other names ih =>
    rw [List.foldl_cons, ih, JsMap.get_delete]
    by_cases hmem : name ∈ names <;> by_cases hother : name = other <;> simp [hmem, hother]

/-! ## What names lead to -/

/-- The name belongs to the driver. -/
def Driver.Named (driver : Driver) (name : JsString) : Prop :=
  name = driver.id ∨ name ∈ driver.aliases

namespace DriverRegistry

/-- The id under which `probe` looks for a cached result and stores a new one. -/
def probeId (registry : DriverRegistry) (idOrAlias : JsString) : Option JsString :=
  (registry.resolve idOrAlias).map Driver.id

/-- Every name of a registered driver leads to it, and no other name to any driver. -/
structure Resolves (registry : DriverRegistry) : Prop where
  resolve : ∀ driver ∈ registry.list, ∀ name, driver.Named name →
    registry.resolve name = some driver
  canonicalId : ∀ driver ∈ registry.list, ∀ name, driver.Named name →
    registry.canonicalId name = some driver.id
  probeId : ∀ driver ∈ registry.list, ∀ name, driver.Named name →
    registry.probeId name = some driver.id
  unowned : ∀ name, (∀ driver ∈ registry.list, ¬ driver.Named name) →
    registry.resolve name = none

/-- Drivers are stored under their ids, the aliases are theirs, and a name that is both an alias
and an id is so of one driver. -/
structure Coherent (registry : DriverRegistry) : Prop where
  id_eq : ∀ id driver, registry.drivers.get id = some driver → driver.id = id
  id_ne_nil : ∀ id driver, registry.drivers.get id = some driver → id ≠ []
  owner : ∀ name id, registry.aliases.get name = some id ↔
    ∃ driver, registry.drivers.get id = some driver ∧ name ∈ driver.aliases
  plain : ∀ name id, registry.aliases.get name = some id → registry.drivers.has name = true →
    id = name

variable {registry : DriverRegistry}

theorem mem_list_of_get {id : JsString} {driver : Driver}
    (h : registry.drivers.get id = some driver) : driver ∈ registry.list :=
  JsMap.mem_values_of_get h

namespace Coherent

theorem create : Coherent .create where
  id_eq := by
    intro id driver h
    cases h
  id_ne_nil := by
    intro id driver h
    cases h
  owner := by
    intro name id
    simp [DriverRegistry.create]
  plain := by
    intro name id h
    cases h

theorem get_of_mem (h : registry.Coherent) {driver : Driver} (hmem : driver ∈ registry.list) :
    registry.drivers.get driver.id = some driver := by
  obtain ⟨entry, hentry, rfl⟩ := List.mem_map.mp hmem
  have hget : registry.drivers.get entry.1 = some entry.2 := JsMap.get_eq_some_iff.mpr hentry
  rw [h.id_eq _ _ hget]
  exact hget

theorem canonicalId_of_named (h : registry.Coherent) {driver : Driver}
    (hmem : driver ∈ registry.list) {name : JsString} (hname : driver.Named name) :
    registry.canonicalId name = some driver.id := by
  have hget := h.get_of_mem hmem
  rcases hname with rfl | halias
  · rw [canonicalId, if_pos (JsMap.has_of_get hget)]
  · have howned := (h.owner name driver.id).mpr ⟨driver, hget, halias⟩
    by_cases hhas : registry.drivers.has name = true
    · rw [canonicalId, if_pos hhas, h.plain name driver.id howned hhas]
    · rw [canonicalId, if_neg hhas, howned]

theorem resolve_eq (registry : DriverRegistry) (name : JsString) : registry.resolve name =
    (registry.canonicalId name).bind fun id ↦
      if id.isEmpty then none else registry.drivers.get id := by
  rw [resolve, canonicalId]
  split <;> simp_all

theorem resolve_of_named (h : registry.Coherent) {driver : Driver}
    (hmem : driver ∈ registry.list) {name : JsString} (hname : driver.Named name) :
    registry.resolve name = some driver := by
  have hget := h.get_of_mem hmem
  have hne : driver.id.isEmpty = false := by simpa using h.id_ne_nil _ _ hget
  rw [resolve_eq, h.canonicalId_of_named hmem hname, Option.bind_some, hne]
  exact hget

theorem resolve_of_unowned (h : registry.Coherent) {name : JsString}
    (hname : ∀ driver ∈ registry.list, ¬ driver.Named name) : registry.resolve name = none := by
  have hcanonical : registry.canonicalId name = none := by
    by_cases hhas : registry.drivers.has name = true
    · obtain ⟨driver, hget⟩ := JsMap.get_of_has hhas
      exact absurd (Or.inl (h.id_eq _ _ hget).symm) (hname driver (mem_list_of_get hget))
    · rw [canonicalId, if_neg hhas, Option.eq_none_iff_forall_ne_some]
      intro id halias
      obtain ⟨driver, hget, hmem⟩ := (h.owner name id).mp halias
      exact hname driver (mem_list_of_get hget) (Or.inr hmem)
  rw [resolve_eq, hcanonical]
  rfl

theorem resolves (h : registry.Coherent) : registry.Resolves where
  resolve := fun _ hmem _ hname ↦ h.resolve_of_named hmem hname
  canonicalId := fun _ hmem _ hname ↦ h.canonicalId_of_named hmem hname
  probeId := by
    intro driver hmem name hname
    rw [probeId, h.resolve_of_named hmem hname]
    rfl
  unowned := fun _ hname ↦ h.resolve_of_unowned hname

end Coherent

/-! ## Registering and unregistering -/

/-- What `register` checks before it writes. -/
def Admits (registry : DriverRegistry) (driver : Driver) : Prop :=
  registry.drivers.has driver.id = false ∧
    ∀ name ∈ driver.aliases,
      registry.drivers.has name = false ∧ registry.aliases.has name = false

/-- What `register` writes. -/
def enter (driver : Driver) (registry : DriverRegistry) : DriverRegistry :=
  { registry with
    drivers := registry.drivers.set driver.id driver
    aliases := driver.aliases.foldl (fun aliases name ↦ aliases.set name driver.id)
      registry.aliases }

theorem register_cases (driver : Driver) (registry : DriverRegistry) :
    (registry.Admits driver ∧ registry.register driver = .ok (registry.enter driver)) ∨
      (¬ registry.Admits driver ∧ ∃ error, registry.register driver = .error error) := by
  rw [register, Admits]
  by_cases hid : registry.drivers.has driver.id = true
  · rw [if_pos hid, hid]
    exact .inr ⟨by simp, _, rfl⟩
  · rw [if_neg hid]
    cases hfind : driver.aliases.find? fun name ↦
        registry.drivers.has name || registry.aliases.has name with
    | none =>
      refine .inl ⟨⟨by simpa using hid, ?_⟩, rfl⟩
      intro name hname
      simpa using List.find?_eq_none.mp hfind name hname
    | some name =>
      refine .inr ⟨?_, _, rfl⟩
      intro hadmits
      obtain ⟨hdriver, halias⟩ := hadmits.2 name (List.mem_of_find?_eq_some hfind)
      have hcollides := List.find?_some hfind
      simp [hdriver, halias] at hcollides

/-- The id of a new driver is a name, and not another driver's alias. -/
def PlainId (registry : DriverRegistry) (driver : Driver) : Prop :=
  driver.id ≠ [] ∧ registry.aliases.has driver.id = false

theorem get_drivers_enter (driver : Driver) (registry : DriverRegistry) (id : JsString) :
    (registry.enter driver).drivers.get id =
      if id = driver.id then some driver else registry.drivers.get id :=
  JsMap.get_set registry.drivers driver.id id driver

theorem get_aliases_enter (driver : Driver) (registry : DriverRegistry) (name : JsString) :
    (registry.enter driver).aliases.get name =
      if name ∈ driver.aliases then some driver.id else registry.aliases.get name :=
  get_assignAliases driver.id driver.aliases registry.aliases name

namespace Coherent

theorem enter (h : registry.Coherent) {driver : Driver} (hadmits : registry.Admits driver)
    (hplain : registry.PlainId driver) : (registry.enter driver).Coherent := by
  obtain ⟨hid, haliases⟩ := hadmits
  obtain ⟨hne, hfresh⟩ := hplain
  refine ⟨?id_eq, ?id_ne_nil, ?owner, ?plain⟩
  case id_eq =>
    intro id other hget
    rw [get_drivers_enter] at hget
    split at hget
    · rename_i hsame
      cases hget
      exact hsame.symm
    · exact h.id_eq id other hget
  case id_ne_nil =>
    intro id other hget
    rw [get_drivers_enter] at hget
    split at hget
    · rename_i hsame
      exact hsame ▸ hne
    · exact h.id_ne_nil id other hget
  case owner =>
    intro name id
    rw [get_aliases_enter, get_drivers_enter]
    by_cases hname : name ∈ driver.aliases
    · have hunowned := JsMap.get_eq_none_of_has (haliases name hname).2
      rw [if_pos hname]
      by_cases hsame : id = driver.id
      · simp [hsame, hname]
      · have hnone := h.owner name id
        rw [hunowned] at hnone
        simpa [hsame, eq_comm] using hnone
    · rw [if_neg hname]
      by_cases hsame : id = driver.id
      · have hnone := h.owner name driver.id
        rw [JsMap.get_eq_none_of_has hid] at hnone
        simpa [hsame, hname] using hnone
      · rw [if_neg hsame]
        exact h.owner name id
  case plain =>
    intro name id halias hhas
    rw [get_aliases_enter] at halias
    rw [JsMap.has, get_drivers_enter] at hhas
    by_cases hname : name ∈ driver.aliases
    · rw [if_pos hname, Option.some.injEq] at halias
      by_cases hsame : name = driver.id
      · rw [hsame, halias]
      · rw [if_neg hsame, JsMap.get_eq_none_of_has (haliases name hname).1] at hhas
        cases hhas
    · rw [if_neg hname] at halias
      by_cases hsame : name = driver.id
      · rw [hsame, JsMap.get_eq_none_of_has hfresh] at halias
        cases halias
      · rw [if_neg hsame] at hhas
        exact h.plain name id halias hhas

theorem unregister (h : registry.Coherent) (id : JsString) :
    (registry.unregister id).1.Coherent := by
  rw [DriverRegistry.unregister]
  cases hdriver : registry.drivers.get id with
  | none => exact h
  | some driver =>
    have hget : ∀ {other found}, (registry.drivers.delete id).get other = some found →
        registry.drivers.get other = some found := by
      intro other found hfound
      rw [JsMap.get_delete] at hfound
      split at hfound
      · cases hfound
      · exact hfound
    refine ⟨fun other found hfound ↦ h.id_eq other found (hget hfound),
      fun other found hfound ↦ h.id_ne_nil other found (hget hfound), ?owner, ?plain⟩
    case owner =>
      intro name other
      rw [get_deleteAliases, JsMap.get_delete]
      have howner := h.owner name
      by_cases hname : name ∈ driver.aliases
      · have howned := (howner id).mpr ⟨driver, hdriver, hname⟩
        rw [if_pos hname]
        by_cases hsame : other = id
        · simp [hsame]
        · have hother := howner other
          rw [howned] at hother
          simpa [hsame, Ne.symm hsame] using hother
      · rw [if_neg hname, howner other]
        by_cases hsame : other = id
        · simp [hsame, hdriver, hname]
        · rw [if_neg hsame]
    case plain =>
      intro name other halias hhas
      rw [get_deleteAliases] at halias
      split at halias
      · cases halias
      · obtain ⟨found, hfound⟩ := JsMap.get_of_has hhas
        exact h.plain name other halias (JsMap.has_of_get (hget hfound))

/-- A driver under a bad id is not reached, or takes a name of another one. -/
theorem not_resolves (h : registry.Coherent) {driver : Driver} (hadmits : registry.Admits driver)
    (hplain : ¬ registry.PlainId driver) : ¬ (registry.enter driver).Resolves := by
  intro hresolves
  have hnew : (registry.enter driver).drivers.get driver.id = some driver := by
    rw [get_drivers_enter, if_pos rfl]
  have hself := hresolves.resolve driver (mem_list_of_get hnew) driver.id (.inl rfl)
  by_cases hne : driver.id = []
  · rw [resolve_eq, canonicalId, if_pos (JsMap.has_of_get hnew), Option.bind_some, hne] at hself
    cases hself
  · have halias : registry.aliases.has driver.id = true := by
      by_contra hfresh
      exact hplain ⟨hne, by simpa using hfresh⟩
    obtain ⟨id, hid⟩ := JsMap.get_of_has halias
    obtain ⟨other, hother, hmem⟩ := (h.owner driver.id id).mp hid
    have hdiffers : id ≠ driver.id := by
      rintro rfl
      rw [JsMap.get_eq_none_of_has hadmits.1] at hother
      cases hother
    have hkept : (registry.enter driver).drivers.get id = some other := by
      rw [get_drivers_enter, if_neg hdiffers, hother]
    have htaken := hresolves.resolve other (mem_list_of_get hkept) driver.id (.inr hmem)
    rw [hself, Option.some.injEq] at htaken
    exact hdiffers (by rw [htaken, h.id_eq id other hother])

end Coherent

/-! ## Histories -/

/-- A call on the registry. -/
inductive RegistryCall
  | register (driver : Driver)
  | unregister (id : JsString)

/-- A call; one that throws leaves the registry as it was. -/
def step (registry : DriverRegistry) : RegistryCall → Option DriverRegistry
  | .register driver =>
    match registry.register driver with
    | .ok next => some next
    | .error _ => some registry
  | .unregister id => some (registry.unregister id).1

/-- A driver that `register` lets in has a plain id. -/
def EntersPlain (registry : DriverRegistry) : RegistryCall → Prop
  | .register driver => registry.Admits driver → registry.PlainId driver
  | .unregister _ => True

theorem step_register (driver : Driver) (registry : DriverRegistry) :
    (registry.Admits driver ∧ registry.step (.register driver) = some (registry.enter driver)) ∨
      (¬ registry.Admits driver ∧ registry.step (.register driver) = some registry) := by
  rcases register_cases driver registry with ⟨hadmits, hok⟩ | ⟨hadmits, error, herror⟩
  · exact .inl ⟨hadmits, by rw [step, hok]⟩
  · exact .inr ⟨hadmits, by rw [step, herror]⟩

theorem Coherent.step (h : registry.Coherent) {call : RegistryCall} {next : DriverRegistry}
    (hplain : registry.EntersPlain call) (hnext : registry.step call = some next) :
    next.Coherent := by
  cases call with
  | register driver =>
    rcases step_register driver registry with ⟨hadmits, hstep⟩ | ⟨_, hstep⟩
    · rw [hstep, Option.some.injEq] at hnext
      exact hnext ▸ h.enter hadmits (hplain hadmits)
    · rw [hstep, Option.some.injEq] at hnext
      exact hnext ▸ h
  | unregister id =>
    rw [DriverRegistry.step, Option.some.injEq] at hnext
    exact hnext ▸ h.unregister id

theorem Coherent.not_resolves_step (h : registry.Coherent) {call : RegistryCall}
    {next : DriverRegistry} (hplain : ¬ registry.EntersPlain call)
    (hnext : registry.step call = some next) : ¬ next.Resolves := by
  cases call with
  | register driver =>
    rw [EntersPlain, Classical.not_imp] at hplain
    rcases step_register driver registry with ⟨hadmits, hstep⟩ | ⟨hadmits, _⟩
    · rw [hstep, Option.some.injEq] at hnext
      exact hnext ▸ h.not_resolves hadmits hplain.2
    · exact absurd hplain.1 hadmits
  | unregister id => exact absurd trivial hplain

/-- The names lead to their drivers after every call of a history exactly if all drivers enter
under plain ids. -/
theorem resolves_throughout_iff (calls : List RegistryCall) :
    Throughout step Resolves create calls ↔ StepsMeet step EntersPlain create calls :=
  throughout_iff (fun _ _ _ h hplain hnext ↦ h.step hplain hnext)
    (fun _ _ _ h hplain hnext ↦ h.not_resolves_step hplain hnext)
    (fun _ h ↦ h.resolves) Coherent.create calls

/-- A driver `x` takes the alias `x` of a driver that is registered before it. -/
theorem resolves_counterexample :
    ¬ Throughout step Resolves create
      [.register ⟨js "a", [js "x"], []⟩, .register ⟨js "x", [], []⟩] := by
  intro h
  have hlast := h.last rfl
  have hresolve := hlast.resolve ⟨js "a", [js "x"], []⟩ List.mem_cons_self (js "x")
    (.inr List.mem_cons_self)
  revert hresolve
  decide

end DriverRegistry

end Cordyceps.Drivers
