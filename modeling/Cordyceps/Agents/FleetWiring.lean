import Cordyceps.Agents.BusKeys
import Cordyceps.Agents.Fleet
import Cordyceps.Agents.SpawnIds

/-!
# What the fleet keeps in order

Whatever is spawned, removed or registered again: the registry leads to runtimes
with the ids they are registered under, and under each key of the bus stands
what the last writer of the key left there.
-/

namespace Cordyceps.Agents

open Foundations Foundations.StepMachine Drivers

variable {Scratch : Type*}

/-- The call of `spawn` whose runtime is registered under an id. -/
def AgentManager.ownerOf (manager : AgentManager) (id : JsString) : Option ℕ :=
  (manager.get id).bind fun r ↦ manager.objects[r]?.map RuntimeObject.spawnedBy

/-- A turn keeps the runtime's keys up to date, and tells the bus about nothing else. -/
theorem Runtime.step_publishes {runtime after : Runtime Scratch} {event : ControllerEvent}
    (h : runtime.step event = some after) : runtime.core.Publishes after.core ∧
      after.core.calls = runtime.core.calls ++ runtime.newCalls after ∧
      ∀ entry ∈ writesOf (runtime.newCalls after),
        entry.1 = agentKey runtime.core.id (js "state") ∨
          entry.1 = agentKey runtime.core.id (js "transcript") := by
  obtain ⟨controller, hcontroller, rfl⟩ := Option.map_eq_some_iff.mp h
  have hpublishes := Controller.core_step (AgentCore.publishes_closed runtime.parser) hcontroller
  obtain ⟨calls, hcalls, hkeys⟩ := hpublishes.calls
  have hnew : runtime.newCalls { runtime with controller } = calls := by
    change controller.core.calls.drop _ = calls
    rw [hcalls]
    exact List.drop_left
  rw [hnew]
  exact ⟨hpublishes, hcalls, hkeys⟩

namespace Fleet

/-- A call has a runtime once its factory constructed one, the registry leads to runtimes, and each
key of the bus has what its last writer left there. -/
structure Wired (fleet : Fleet Scratch) : Prop where
  lengths : fleet.runtimes.length = fleet.manager.spawns.length
  probing : ∀ k driver answer, fleet.manager.phaseOf k = some (.probing driver answer) →
    fleet.runtimeAt k = none
  building : ∀ k opts runtime, fleet.manager.phaseOf k = some (.building opts) →
    fleet.runtimeAt k = some runtime → runtime.core.id = opts.id
  listed : ∀ id, fleet.manager.agents.has id = true → ∃ k r runtime,
    fleet.manager.ownerOf id = some k ∧ fleet.manager.phaseOf k = some (.succeeded r) ∧
      fleet.runtimeAt k = some runtime ∧ runtime.core.id = id
  mirrors : ∀ k runtime, fleet.runtimeAt k = some runtime →
    Mirrors runtime.core.wrote runtime.core
  tagged : ∀ key k value, fleet.keys.get key = some (k, value) →
    ∃ runtime, fleet.runtimeAt k = some runtime ∧ runtime.core.wrote key = some value
  kept : ∀ key k runtime, fleet.runtimeAt k = some runtime → runtime.core.wrote key ≠ none →
    fleet.keys.get key ≠ none

namespace Wired

variable {fleet next : Fleet Scratch}

/-- A turn of the manager that registers nothing. -/
theorem of_manager (h : fleet.Wired) (hkeys : next.keys = fleet.keys)
    (hruntimes : ∀ k, next.runtimeAt k = fleet.runtimeAt k)
    (hlengths : next.runtimes.length = next.manager.spawns.length)
    (hphases : ∀ k, next.manager.phaseOf k = fleet.manager.phaseOf k ∨ fleet.runtimeAt k = none ∨
      ∃ error, next.manager.phaseOf k = some (.failed error))
    (hreturned : ∀ k r, fleet.manager.phaseOf k = some (.succeeded r) →
      next.manager.phaseOf k = some (.succeeded r))
    (howner : ∀ id, next.manager.agents.has id = true → fleet.manager.agents.has id = true ∧
      next.manager.ownerOf id = fleet.manager.ownerOf id) : next.Wired where
  lengths := hlengths
  probing k driver answer hk := by
    rw [hruntimes]
    rcases hphases k with hsame | hnone | ⟨error, hfailed⟩
    · exact h.probing k driver answer (hsame ▸ hk)
    · exact hnone
    · rw [hk] at hfailed
      cases hfailed
  building k opts runtime hk hruntime := by
    rw [hruntimes] at hruntime
    rcases hphases k with hsame | hnone | ⟨error, hfailed⟩
    · exact h.building k opts runtime (hsame ▸ hk) hruntime
    · rw [hruntime] at hnone
      cases hnone
    · rw [hk] at hfailed
      cases hfailed
  listed id hhas := by
    obtain ⟨hbefore, hsame⟩ := howner id hhas
    obtain ⟨k, r, runtime, hk, hphase, hruntime, hid⟩ := h.listed id hbefore
    exact ⟨k, r, runtime, hsame.trans hk, hreturned k r hphase, (hruntimes k).trans hruntime, hid⟩
  mirrors k runtime hruntime := h.mirrors k runtime (hruntimes k ▸ hruntime)
  tagged key k value hkey := by
    rw [hkeys] at hkey
    obtain ⟨runtime, hruntime, hwrote⟩ := h.tagged key k value hkey
    exact ⟨runtime, (hruntimes k).trans hruntime, hwrote⟩
  kept key k runtime hruntime hwrote := by
    rw [hkeys]
    exact h.kept key k runtime (hruntimes k ▸ hruntime) hwrote

end Wired

/-! ## Writing -/

section Writing

variable {fleet : Fleet Scratch} {k : ℕ} {runtime : Runtime Scratch} {calls : List BusCall}

theorem get_write (keys : JsMap JsString (ℕ × BusValue)) (key : JsString) :
    (write k calls keys).get key =
      ((JsMap.lastWrite (writesOf calls) key).map fun value ↦ (k, value)).or (keys.get key) := by
  rw [write, JsMap.get_setAll, JsMap.lastWrite_map]

theorem runtimeAt_put (hlt : k < fleet.runtimes.length) (j : ℕ) :
    (fleet.put k runtime calls).runtimeAt j = if k = j then some runtime else fleet.runtimeAt j := by
  unfold runtimeAt put
  rw [List.getElem?_set]
  by_cases hk : k = j
  · subst hk
    simp [hlt]
  · simp [hk]

theorem runtimeAt_put_of_ne {j : ℕ} (hne : k ≠ j) :
    (fleet.put k runtime calls).runtimeAt j = fleet.runtimeAt j := by
  rw [runtimeAt, Fleet.put, List.getElem?_set_ne hne]
  rfl

/-- A call of `spawn` constructs nothing before its probe. -/
theorem runtimeAt_spawn (fleet : Fleet Scratch) (manager : AgentManager) (k : ℕ) :
    ({ fleet with manager, runtimes := fleet.runtimes ++ [none] } : Fleet Scratch).runtimeAt k =
      fleet.runtimeAt k := by
  change (fleet.runtimes ++ [none])[k]?.join = fleet.runtimes[k]?.join
  rcases Nat.lt_trichotomy k fleet.runtimes.length with hlt | rfl | hgt
  · rw [List.getElem?_append_left hlt]
  · simp
  · rw [List.getElem?_eq_none (by simp; omega), List.getElem?_eq_none (by omega)]

/-- The bus calls of the runtime of a spawn call, if it has one. -/
def callsAt (fleet : Fleet Scratch) (k : ℕ) : List BusCall :=
  ((fleet.runtimeAt k).map fun runtime ↦ runtime.core.calls).getD []

/-- A runtime takes a turn, or is constructed. -/
theorem Wired.put (h : fleet.Wired) (hlt : k < fleet.runtimes.length)
    (hprobing : ∀ driver answer, fleet.manager.phaseOf k ≠ some (.probing driver answer))
    (hbuilding : ∀ opts, fleet.manager.phaseOf k = some (.building opts) → runtime.core.id = opts.id)
    (hcalls : runtime.core.calls = fleet.callsAt k ++ calls)
    (hid : ∀ old, fleet.runtimeAt k = some old → runtime.core.id = old.core.id)
    (hmirrors : Mirrors runtime.core.wrote runtime.core) :
    (fleet.put k runtime calls).Wired where
  lengths := by
    rw [Fleet.put, List.length_set]
    exact h.lengths
  probing j driver answer hj := by
    rw [runtimeAt_put hlt, if_neg]
    · exact h.probing j driver answer hj
    · rintro rfl
      exact hprobing driver answer hj
  building j opts other hj hother := by
    rw [runtimeAt_put hlt] at hother
    split at hother
    · rename_i hk
      cases hother
      exact hbuilding opts (hk ▸ hj)
    · exact h.building j opts other hj hother
  listed id hhas := by
    obtain ⟨j, r, other, hj, hphase, hother, hsame⟩ := h.listed id hhas
    by_cases hk : k = j
    · subst hk
      exact ⟨k, r, runtime, hj, hphase, by rw [runtimeAt_put hlt, if_pos rfl],
        (hid other hother).trans hsame⟩
    · exact ⟨j, r, other, hj, hphase, by rw [runtimeAt_put hlt, if_neg hk, hother], hsame⟩
  mirrors j other hother := by
    rw [runtimeAt_put hlt] at hother
    split at hother
    · cases hother
      exact hmirrors
    · exact h.mirrors j other hother
  tagged key j value hkey := by
    change (write k calls fleet.keys).get key = some (j, value) at hkey
    rw [get_write] at hkey
    have hwrote : runtime.core.wrote key = (JsMap.lastWrite (writesOf calls) key).or
        (JsMap.lastWrite (writesOf (fleet.callsAt k)) key) := by
      rw [AgentCore.wrote, hcalls, AgentCore.writesOf_append, JsMap.lastWrite_append]
    cases hlast : JsMap.lastWrite (writesOf calls) key with
    | some last =>
      rw [hlast] at hkey hwrote
      cases hkey
      exact ⟨runtime, by rw [runtimeAt_put hlt, if_pos rfl], hwrote⟩
    | none =>
      rw [hlast] at hkey hwrote
      obtain ⟨other, hother, hleft⟩ := h.tagged key j value hkey
      by_cases hk : k = j
      · subst hk
        refine ⟨runtime, by rw [runtimeAt_put hlt, if_pos rfl], ?_⟩
        rw [hwrote, Option.none_or, callsAt, hother]
        exact hleft
      · exact ⟨other, by rw [runtimeAt_put hlt, if_neg hk, hother], hleft⟩
  kept key j other hother hwrote := by
    change (write k calls fleet.keys).get key ≠ none
    rw [get_write]
    cases hlast : JsMap.lastWrite (writesOf calls) key with
    | some last => simp
    | none =>
      rw [Option.map_none, Option.none_or]
      rw [runtimeAt_put hlt] at hother
      split at hother
      · cases hother
        rw [AgentCore.wrote, hcalls, AgentCore.writesOf_append, JsMap.lastWrite_append, hlast,
          Option.none_or, callsAt] at hwrote
        cases hold : fleet.runtimeAt k with
        | none =>
          rw [hold] at hwrote
          exact absurd rfl hwrote
        | some old =>
          rw [hold] at hwrote
          exact h.kept key k old hold hwrote
      · exact h.kept key j other hother hwrote

end Writing

/-! ## Steps -/

section Manager

variable {manager : AgentManager}

theorem ownerOf_onObject {r : ℕ} {change : RuntimeObject → RuntimeObject}
    (h : ∀ object, (change object).spawnedBy = object.spawnedBy) (id : JsString) :
    (manager.onObject r change).ownerOf id = manager.ownerOf id := by
  unfold AgentManager.ownerOf
  change (manager.get id).bind _ = _
  congr 1
  funext position
  simp only [AgentManager.onObject, List.getElem?_modify]
  cases manager.objects[position]? with
  | none => rfl
  | some object =>
    by_cases hr : r = position
    · simp [hr, h]
    · simp [hr]

theorem ownerOf_congr {other : AgentManager} (hagents : other.agents = manager.agents)
    (hobjects : other.objects = manager.objects) (id : JsString) :
    other.ownerOf id = manager.ownerOf id := by
  rw [AgentManager.ownerOf, AgentManager.ownerOf, AgentManager.get, AgentManager.get, hagents,
    hobjects]

/-- The part of `spawn` before the factory rejects, or finds the id free. -/
theorem prepare_cases (driver : Driver) (opts : SpawnOptions) (probe : Option DriverProbe)
    (names : NameSource) :
    (∃ error, manager.prepare driver opts probe names = .failed error) ∨
      ∃ built, manager.prepare driver opts probe names = .building built ∧
        manager.agents.has built.id = false := by
  unfold AgentManager.prepare
  split
  · exact .inl ⟨_, rfl⟩
  · split
    · exact .inl ⟨_, rfl⟩
    · simp only
      split
      · exact .inl ⟨_, rfl⟩
      · split
        · exact .inl ⟨_, rfl⟩
        · rename_i hfree
          exact .inr ⟨_, rfl, by simpa using hfree⟩

/-- What the continuation after the probe does to the manager. -/
theorem probed_cases {k : ℕ} {probe : Option DriverProbe} {names : NameSource}
    {next : AgentManager} (h : manager.step (.probed k probe names) = some next) :
    (∃ driver answer, manager.phaseOf k = some (.probing driver answer)) ∧
      ∃ drivers phase, next = { manager with drivers }.onSpawn k phase ∧
        ((∃ error, phase = .failed error) ∨
          ∃ opts, phase = .building opts ∧ manager.agents.has opts.id = false) := by
  simp only [AgentManager.step] at h
  split at h
  · rename_i opts driver answer hcall
    cases h
    refine ⟨⟨driver, answer, by simp [AgentManager.phaseOf, hcall]⟩, ?_⟩
    unfold AgentManager.probed
    split
    · exact ⟨_, _, rfl, prepare_cases _ _ _ _⟩
    · exact ⟨_, _, rfl, .inl ⟨_, rfl⟩⟩
    · exact ⟨_, _, rfl, prepare_cases _ _ _ _⟩
  · cases h

theorem get_register (k : ℕ) (opts : RuntimeFactoryOpts) (exited : Bool) (id : JsString) :
    (manager.register k opts exited).get id =
      if id = opts.id then some manager.objects.length else manager.get id :=
  JsMap.get_set ..

theorem ownerOf_register_self {k : ℕ} {opts : RuntimeFactoryOpts} {exited : Bool} :
    (manager.register k opts exited).ownerOf opts.id = some k := by
  rw [AgentManager.ownerOf, get_register, if_pos rfl]
  simp [AgentManager.register, AgentManager.onSpawn]

theorem ownerOf_register_of_ne {k owner : ℕ} {opts : RuntimeFactoryOpts} {exited : Bool}
    {id : JsString} (hid : id ≠ opts.id) (howner : manager.ownerOf id = some owner) :
    (manager.register k opts exited).ownerOf id = some owner := by
  obtain ⟨r, hr, hobject⟩ := Option.bind_eq_some_iff.mp howner
  obtain ⟨object, hsome, hspawned⟩ := Option.map_eq_some_iff.mp hobject
  have hlt : r < manager.objects.length := (List.getElem?_eq_some_iff.mp hsome).1
  rw [AgentManager.ownerOf, get_register, if_neg hid, hr, Option.bind_some]
  change Option.map _ (manager.objects ++ [_])[r]? = some owner
  rw [List.getElem?_append_left hlt]
  exact hobject

theorem ownerOf_eq_none {id : JsString} (h : manager.agents.has id = false) :
    manager.ownerOf id = none := by
  rw [AgentManager.ownerOf, AgentManager.get, JsMap.get_eq_none_of_has h, Option.bind_none]

end Manager

namespace Wired

variable {fleet next : Fleet Scratch}

/-- A turn that concerns drivers and factories, or marks an object. -/
theorem of_registry (h : fleet.Wired) {manager : AgentManager}
    (hspawns : manager.spawns = fleet.manager.spawns) (hagents : manager.agents = fleet.manager.agents)
    (hobjects : ∀ id, manager.ownerOf id = fleet.manager.ownerOf id) :
    ({ fleet with manager } : Fleet Scratch).Wired := by
  have hphase : ∀ k, manager.phaseOf k = fleet.manager.phaseOf k := by
    intro k
    rw [AgentManager.phaseOf, hspawns]
    rfl
  refine h.of_manager rfl (fun _ ↦ rfl) ?_ (fun k ↦ .inl (hphase k)) ?_ ?_
  · rw [hspawns]
    exact h.lengths
  · intro k r hk
    exact (hphase k).trans hk
  · intro id hhas
    exact ⟨hagents ▸ hhas, hobjects id⟩

theorem spawn (h : fleet.Wired) (idOrAlias : JsString) (opts : SpawnOptions) :
    ({ fleet with
      manager := fleet.manager.spawn idOrAlias opts
      runtimes := fleet.runtimes ++ [none] } : Fleet Scratch).Wired := by
  have hphases : ∀ k, k ≠ fleet.manager.spawns.length →
      (fleet.manager.spawn idOrAlias opts).phaseOf k = fleet.manager.phaseOf k := by
    intro k hk
    unfold AgentManager.spawn AgentManager.phaseOf
    rcases Nat.lt_or_gt_of_ne hk with hlt | hgt
    · simp [List.getElem?_append_left hlt]
    · rw [List.getElem?_eq_none (by simp; omega), List.getElem?_eq_none (by omega)]
  refine h.of_manager rfl (runtimeAt_spawn fleet _) ?_ ?_ ?_ fun _ hhas ↦ ⟨hhas, rfl⟩
  · simp [AgentManager.spawn, h.lengths]
  · intro k
    by_cases hk : k = fleet.manager.spawns.length
    · refine .inr (.inl ?_)
      rw [runtimeAt, List.getElem?_eq_none (by rw [h.lengths]; omega)]
      rfl
    · exact .inl (hphases k hk)
  · intro k r hk
    rw [hphases k]
    · exact hk
    · rintro rfl
      simp [AgentManager.phaseOf] at hk

/-- The runtime object of a registration is new, and so is its id in the registry. -/
theorem register (h : fleet.Wired) {k : ℕ} {opts : RuntimeFactoryOpts} {runtime : Runtime Scratch}
    (hphase : fleet.manager.phaseOf k = some (.building opts))
    (hruntime : fleet.runtimeAt k = some runtime) (exited : Bool) :
    ({ fleet with manager := fleet.manager.register k opts exited } : Fleet Scratch).Wired := by
  have hphases : ∀ j, (fleet.manager.register k opts exited).phaseOf j =
      if k = j then some (.succeeded fleet.manager.objects.length) else fleet.manager.phaseOf j :=
    AgentManager.phaseOf_onSpawn_of_some hphase _
  exact {
    lengths := by
      rw [h.lengths]
      exact (List.length_modify ..).symm
    probing := by
      intro j driver answer hj
      rw [hphases] at hj
      split at hj
      · cases hj
      · exact h.probing j driver answer hj
    building := by
      intro j other runtime hj
      rw [hphases] at hj
      split at hj
      · cases hj
      · exact h.building j other runtime hj
    listed := by
      intro id hhas
      by_cases hid : id = opts.id
      · subst hid
        exact ⟨k, _, runtime, ownerOf_register_self, by rw [hphases, if_pos rfl], hruntime,
          h.building k opts runtime hphase hruntime⟩
      · have hhas' : fleet.manager.agents.has id = true := by
          obtain ⟨r, hr⟩ := Option.isSome_iff_exists.mp hhas
          have hsame := @get_register fleet.manager k opts exited id
          rw [if_neg hid] at hsame
          exact Option.isSome_iff_exists.mpr ⟨r, hsame.symm.trans hr⟩
        obtain ⟨j, r, other, howner, hreturned, hother, hname⟩ := h.listed id hhas'
        refine ⟨j, r, other, ownerOf_register_of_ne hid howner, ?_, hother, hname⟩
        rw [hphases, if_neg]
        · exact hreturned
        · rintro rfl
          rw [hphase] at hreturned
          cases hreturned
    mirrors := h.mirrors
    tagged := h.tagged
    kept := h.kept }

theorem remove (h : fleet.Wired) (id : JsString) :
    ({ fleet with manager := fleet.manager.remove id } : Fleet Scratch).Wired := by
  unfold AgentManager.remove
  split
  · split
    · refine h.of_manager rfl (fun _ ↦ rfl) h.lengths (fun _ ↦ .inl rfl) (fun _ _ hk ↦ hk) ?_
      intro name hhas
      have hne : name ≠ id := by
        rintro rfl
        simp [AgentManager.onObject, JsMap.has] at hhas
      have hget : (fleet.manager.agents.delete id).get name = fleet.manager.agents.get name := by
        rw [JsMap.get_delete, if_neg hne]
      constructor
      · unfold JsMap.has at hhas ⊢
        rw [← hget]
        exact hhas
      · apply (ownerOf_onObject _ name).trans
        · rw [AgentManager.ownerOf, AgentManager.ownerOf, AgentManager.get, AgentManager.get, hget]
        · exact fun _ ↦ rfl
    · exact h
  · exact h

theorem noteExit (h : fleet.Wired) (k : ℕ) (exited : Bool) :
    ({ fleet with manager := Fleet.noteExit k exited fleet.manager } : Fleet Scratch).Wired := by
  unfold Fleet.noteExit
  split
  · split
    · exact h.of_registry rfl rfl fun id ↦ ownerOf_onObject (by exact fun _ ↦ rfl) id
    · exact h
  · exact h

theorem ownerOf_noteExit (manager : AgentManager) (k : ℕ) (exited : Bool) (id : JsString) :
    (Fleet.noteExit k exited manager).ownerOf id = manager.ownerOf id := by
  unfold Fleet.noteExit
  split
  · split
    · exact ownerOf_onObject (by exact fun _ ↦ rfl) id
    · rfl
  · rfl

theorem phaseOf_noteExit (manager : AgentManager) (k j : ℕ) (exited : Bool) :
    (Fleet.noteExit k exited manager).phaseOf j = manager.phaseOf j := by
  unfold Fleet.noteExit
  split
  · split <;> rfl
  · rfl

theorem lt_of_runtimeAt {k : ℕ} {runtime : Runtime Scratch}
    (h : fleet.runtimeAt k = some runtime) : k < fleet.runtimes.length := by
  by_contra hge
  rw [runtimeAt, List.getElem?_eq_none (Nat.le_of_not_lt hge)] at h
  cases h

/-- A spawn call that has not returned moves on. A runtime that it has constructed is left where the
call fails. -/
theorem onSpawn (h : fleet.Wired) {k : ℕ} {before after : SpawnPhase} (drivers : DriverRegistry)
    (hphase : fleet.manager.phaseOf k = some before) (hbefore : ∀ r, before ≠ .succeeded r)
    (hafter : fleet.runtimeAt k = none ∨ ∃ error, after = .failed error) :
    ({ fleet with manager := ({ fleet.manager with drivers } : AgentManager).onSpawn k after } :
      Fleet Scratch).Wired := by
  have hphases : ∀ j, (({ fleet.manager with drivers } : AgentManager).onSpawn k after).phaseOf j =
      if k = j then some after else fleet.manager.phaseOf j :=
    AgentManager.phaseOf_onSpawn_of_some hphase _
  refine h.of_manager rfl (fun _ ↦ rfl) ?_ ?_ ?_ fun _ hhas ↦ ⟨hhas, rfl⟩
  · rw [h.lengths]
    exact (List.length_modify ..).symm
  · intro j
    rw [hphases]
    by_cases hj : k = j
    · subst hj
      rw [if_pos rfl]
      exact .inr (hafter.imp_right fun ⟨error, heq⟩ ↦ ⟨error, congrArg some heq⟩)
    · rw [if_neg hj]
      exact .inl rfl
  · intro j r hj
    rw [hphases, if_neg]
    · exact hj
    · rintro rfl
      exact hbefore r (Option.some.inj (hphase.symm.trans hj))

/-- A new runtime has published its state and has no transcript. -/
theorem mirrors_construct {parser : DriverParser Scratch} {backend : Backend}
    {opts : RuntimeFactoryOpts} {controller : Controller Scratch}
    (h : Controller.construct parser backend opts = some controller) :
    controller.core.id = opts.id ∧ Mirrors controller.core.wrote controller.core := by
  obtain ⟨status, mode, hcore⟩ := Controller.core_construct h
  have hid : controller.core.id = opts.id := by
    rw [hcore]
    rfl
  have hleaves : Leaves controller.core.calls (agentEntries opts.id opts.driver.id opts.cwd mode
      (parser.initialState.withStatus status)) := by
    rw [hcore]
    exact leaves_announced _ _ _ _ _ _
  refine ⟨hid, ?_, .inl ⟨?_, by rw [hcore]; rfl⟩⟩
  · apply (hleaves _ _).mpr
    rw [agentEntries, hid, hcore]
    exact List.mem_cons_self
  · rw [Option.eq_none_iff_forall_ne_some]
    intro value hwrote
    have hmem := (hleaves _ _).mp hwrote
    have hname : ∀ name, name ≠ js "transcript" →
        agentKey opts.id (js "transcript") ≠ agentKey opts.id name :=
      fun name hne heq ↦ hne (agentKey_inj.mp heq).symm
    rw [hid] at hmem
    simp [agentEntries, hname (js "state") (by decide), hname (js "driver") (by decide),
      hname (js "cwd") (by decide), hname (js "mode") (by decide)] at hmem

theorem probed (h : fleet.Wired) {parserOf : Driver → DriverParser Scratch} {k : ℕ}
    {probe : Option DriverProbe} {names : NameSource} {backend : Backend} {manager : AgentManager}
    (hmanager : fleet.manager.step (.probed k probe names) = some manager) :
    (fleet.probed parserOf k backend manager).Wired := by
  obtain ⟨⟨driver, answer, hphase⟩, drivers, phase, rfl, hcase⟩ := probed_cases hmanager
  have hnone := h.probing k driver answer hphase
  have hphases : ∀ j, (({ fleet.manager with drivers } : AgentManager).onSpawn k phase).phaseOf j =
      if k = j then some phase else fleet.manager.phaseOf j :=
    AgentManager.phaseOf_onSpawn_of_some hphase _
  have hmoved : ({ fleet with
      manager := ({ fleet.manager with drivers } : AgentManager).onSpawn k phase } :
        Fleet Scratch).Wired :=
    h.onSpawn drivers hphase nofun (.inl hnone)
  unfold Fleet.probed
  rw [hphases, if_pos rfl]
  rcases hcase with ⟨error, rfl⟩ | ⟨opts, rfl, hfree⟩
  · exact hmoved
  · simp only
    split
    · rename_i controller hcontroller
      obtain ⟨hid, hmirrors⟩ := mirrors_construct hcontroller
      have hlt : k < fleet.runtimes.length := by
        rw [h.lengths]
        exact AgentManager.lt_of_phaseOf hphase
      apply hmoved.put hlt
      · intro driver answer hprobing
        rw [hphases, if_pos rfl] at hprobing
        cases hprobing
      · intro other hother
        rw [hphases, if_pos rfl] at hother
        cases hother
        exact hid
      · rw [callsAt]
        change _ = ((fleet.runtimeAt k).map _).getD [] ++ _
        rw [hnone]
        rfl
      · intro old hold
        cases hnone.symm.trans hold
      · exact hmirrors
    · exact hmoved

theorem turn (h : fleet.Wired) {k : ℕ} {event : ControllerEvent} {runtime after : Runtime Scratch}
    (hruntime : fleet.runtimeAt k = some runtime) (hstep : runtime.step event = some after) :
    (({ fleet with manager := Fleet.noteExit k after.core.exited fleet.manager } :
      Fleet Scratch).put k after (runtime.newCalls after)).Wired := by
  obtain ⟨hpublishes, hcalls, _⟩ := Runtime.step_publishes hstep
  apply (h.noteExit k after.core.exited).put (lt_of_runtimeAt hruntime)
  · intro driver answer hprobing
    rw [phaseOf_noteExit] at hprobing
    have hnone := h.probing k driver answer hprobing
    rw [hruntime] at hnone
    cases hnone
  · intro opts hbuilding
    rw [phaseOf_noteExit] at hbuilding
    exact hpublishes.id.trans (h.building k opts runtime hbuilding hruntime)
  · rw [callsAt]
    change _ = ((fleet.runtimeAt k).map _).getD [] ++ _
    rw [hruntime]
    exact hcalls
  · intro old hold
    obtain rfl : runtime = old := Option.some.inj (hruntime.symm.trans hold)
    exact hpublishes.id
  · exact hpublishes.mirrors (h.mirrors k runtime hruntime)

theorem others (h : fleet.Wired) {k : ℕ} {runtime : Runtime Scratch}
    (hruntime : fleet.runtimeAt k = some runtime) (scratch : Scratch) :
    (fleet.put k { runtime with controller := runtime.controller.putScratch scratch } []).Wired := by
  have hcore : ({ runtime with controller := runtime.controller.putScratch scratch } :
      Runtime Scratch).core = { runtime.core with scratch } := Controller.core_putScratch _ _
  apply h.put (lt_of_runtimeAt hruntime)
  · intro driver answer hprobing
    have hnone := h.probing k driver answer hprobing
    rw [hruntime] at hnone
    cases hnone
  · intro opts hbuilding
    rw [hcore]
    exact h.building k opts runtime hbuilding hruntime
  · rw [hcore, callsAt, hruntime, List.append_nil]
    rfl
  · intro old hold
    rw [hcore, Option.some.inj (hruntime.symm.trans hold)]
  · rw [hcore]
    have hmirrors := h.mirrors k runtime hruntime
    exact ⟨hmirrors.state, hmirrors.transcript⟩

/-- The factory of a spawn call rejects. -/
theorem buildFailed (h : fleet.Wired) {k : ℕ} {opts : RuntimeFactoryOpts}
    (hphase : fleet.manager.phaseOf k = some (.building opts)) :
    ({ fleet with manager := fleet.manager.onSpawn k (.failed .factoryFailed) } :
      Fleet Scratch).Wired := by
  exact h.onSpawn fleet.manager.drivers hphase nofun (.inr ⟨_, rfl⟩)

theorem step (h : fleet.Wired) {parserOf : Driver → DriverParser Scratch}
    {event : FleetEvent Scratch} (hstep : fleet.step parserOf event = some next) : next.Wired := by
  cases turn_of_step hstep with
  | spawn idOrAlias opts => exact h.spawn idOrAlias opts
  | probed k hmanager => exact h.probed hmanager
  | built k hruntime hbuilt hphase => exact h.register hphase hruntime _
  | buildFailed k hruntime hphase => exact h.buildFailed hphase
  | turn k hruntime hafter => exact h.turn hruntime hafter
  | others k scratch hruntime => exact h.others hruntime scratch
  | remove id => exact h.remove id
  | registry hspawns hagents hobjects hevent =>
    exact h.of_registry hspawns hagents (ownerOf_congr hagents hobjects)

theorem create (drivers : DriverRegistry) (processCwd : JsString) :
    (Fleet.create drivers processCwd : Fleet Scratch).Wired where
  lengths := rfl
  probing _ _ _ hk := by cases hk
  building _ _ _ hk := by cases hk
  listed _ hhas := by cases hhas
  mirrors _ _ hruntime := by cases hruntime
  tagged _ _ _ hkey := by cases hkey
  kept _ _ _ hruntime := by cases hruntime

/-- What one turn makes of a runtime: its own turn, its driver's other agents, or nothing. -/
theorem runtimeAt_step (h : fleet.Wired) {parserOf : Driver → DriverParser Scratch}
    {event : FleetEvent Scratch} (hstep : fleet.step parserOf event = some next) {k : ℕ}
    {runtime : Runtime Scratch} (hruntime : fleet.runtimeAt k = some runtime) :
    (∃ turn after, event = .turn k turn ∧ runtime.step turn = some after ∧
      next.runtimeAt k = some after) ∨
    (∀ turn, event ≠ .turn k turn) ∧ (next.runtimeAt k = some runtime ∨ ∃ scratch,
      next.runtimeAt k =
        some { runtime with controller := runtime.controller.putScratch scratch }) := by
  cases turn_of_step hstep with
  | spawn idOrAlias opts =>
    refine .inr ⟨nofun, .inl ?_⟩
    rw [runtimeAt, List.getElem?_append_left (lt_of_runtimeAt hruntime)]
    exact hruntime
  | probed j hmanager =>
    refine .inr ⟨nofun, .inl ?_⟩
    have hne : k ≠ j := by
      rintro rfl
      obtain ⟨⟨driver, answer, hphase⟩, _⟩ := probed_cases hmanager
      rw [h.probing k driver answer hphase] at hruntime
      cases hruntime
    unfold Fleet.probed
    split
    · split
      · exact (runtimeAt_put_of_ne (Ne.symm hne)).trans hruntime
      · exact hruntime
    · exact hruntime
  | @turn j turn other after hget hafter =>
    by_cases hj : k = j
    · subst hj
      obtain rfl : runtime = other := Option.some.inj (hruntime.symm.trans hget)
      refine .inl ⟨turn, after, rfl, hafter, ?_⟩
      rw [runtimeAt_put (by exact lt_of_runtimeAt hruntime), if_pos rfl]
    · refine .inr ⟨fun _ heq ↦ ?_, .inl ((runtimeAt_put_of_ne (Ne.symm hj)).trans hruntime)⟩
      cases heq
      exact hj rfl
  | @others j scratch other hget =>
    by_cases hj : k = j
    · subst hj
      obtain rfl : runtime = other := Option.some.inj (hruntime.symm.trans hget)
      refine .inr ⟨nofun, .inr ⟨scratch, ?_⟩⟩
      rw [runtimeAt_put (by exact lt_of_runtimeAt hruntime), if_pos rfl]
    · exact .inr ⟨nofun, .inl ((runtimeAt_put_of_ne (Ne.symm hj)).trans hruntime)⟩
  | built j _ _ _ => exact .inr ⟨nofun, .inl hruntime⟩
  | buildFailed j _ _ => exact .inr ⟨nofun, .inl hruntime⟩
  | remove id => exact .inr ⟨nofun, .inl hruntime⟩
  | registry _ _ _ hevent => exact .inr ⟨fun turn ↦ hevent k turn, .inl hruntime⟩

end Wired

end Fleet

end Cordyceps.Agents
