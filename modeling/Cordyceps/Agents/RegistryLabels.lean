import Cordyceps.Agents.SpawnIds

/-!
# Ids in the registry

What holds of the manager in every run, whatever spawns run at the same time: a runtime is
listed under its own id only, a spawn that asks for an id gets a runtime with that id, and a
runtime that is no longer listed is never listed again.
-/

namespace Cordyceps.Agents

open Foundations Foundations.StepMachine Cordyceps.Core Drivers

namespace AgentManager

structure Labelled (manager : AgentManager) : Prop where
  listed : ∀ id r, manager.get id = some r →
    ∃ runtime, manager.objects[r]? = some runtime ∧ runtime.id = id
  building : ∀ (k : ℕ) (call : SpawnCall) opts, manager.spawns[k]? = some call → call.phase = .building opts →
    ∀ id ∈ call.opts.id, opts.id = id
  returned : ∀ (k : ℕ) (call : SpawnCall) r, manager.spawns[k]? = some call → call.phase = .succeeded r →
    ∃ runtime, manager.objects[r]? = some runtime ∧ ∀ id ∈ call.opts.id, runtime.id = id

/-- The runtime is not in the registry. -/
def Unlisted (manager : AgentManager) (r : ℕ) : Prop := ∀ id, manager.get id ≠ some r

/-- What later states keep of earlier ones. -/
structure Extends (before after : AgentManager) : Prop where
  opts : ∀ (k : ℕ) (call : SpawnCall), before.spawns[k]? = some call →
    ∃ later : SpawnCall, after.spawns[k]? = some later ∧ later.opts = call.opts
  returned : ∀ k r, before.phaseOf k = some (.succeeded r) → after.phaseOf k = some (.succeeded r)
  ids : ∀ (r : ℕ) (runtime : RuntimeObject), before.objects[r]? = some runtime →
    ∃ later : RuntimeObject, after.objects[r]? = some later ∧ later.id = runtime.id ∧
      (runtime.exited = true → later.exited = true)
  unlisted : ∀ r, r < before.objects.length → before.Unlisted r → after.Unlisted r

namespace Extends

variable {first second third : AgentManager}

theorem refl (manager : AgentManager) : Extends manager manager where
  opts _ call hcall := ⟨call, hcall, rfl⟩
  returned _ _ h := h
  ids _ runtime hget := ⟨runtime, hget, rfl, id⟩
  unlisted _ _ h := h

theorem trans (h : Extends first second) (h' : Extends second third) : Extends first third where
  opts k call hcall := by
    obtain ⟨later, hlater, hopts⟩ := h.opts k call hcall
    obtain ⟨last, hlast, hopts'⟩ := h'.opts k later hlater
    exact ⟨last, hlast, hopts'.trans hopts⟩
  returned k r hr := h'.returned k r (h.returned k r hr)
  ids r runtime hget := by
    obtain ⟨later, hlater, hid, hexited⟩ := h.ids r runtime hget
    obtain ⟨last, hlast, hid', hexited'⟩ := h'.ids r later hlater
    exact ⟨last, hlast, hid'.trans hid, fun hgone ↦ hexited' (hexited hgone)⟩
  unlisted r hr hgone := by
    have hlater : r < second.objects.length := by
      obtain ⟨later, hget, -⟩ := h.ids r _ (List.getElem?_eq_getElem hr)
      exact (List.getElem?_eq_some_iff.mp hget).1
    exact h'.unlisted r hlater (h.unlisted r hr hgone)

end Extends

/-- A state that goes on from a labelled one. -/
structure Continues (before after : AgentManager) : Prop where
  labelled : after.Labelled
  grown : before.Extends after

variable {manager next : AgentManager}

/-- A turn that leaves registry and runtimes alone. -/
theorem Labelled.of_spawns (h : manager.Labelled) (hagents : next.agents = manager.agents)
    (hobjects : next.objects = manager.objects)
    (hopts : ∀ (k : ℕ) (call : SpawnCall), manager.spawns[k]? = some call →
      ∃ later : SpawnCall, next.spawns[k]? = some later ∧ later.opts = call.opts)
    (hkept : ∀ k r, manager.phaseOf k = some (.succeeded r) → next.phaseOf k = some (.succeeded r))
    (hphases : ∀ (k : ℕ) (call : SpawnCall), next.spawns[k]? = some call → manager.spawns[k]? = some call ∨
      (∀ r, call.phase ≠ .succeeded r) ∧
        ∀ opts, call.phase = .building opts → ∀ id ∈ call.opts.id, opts.id = id) :
    manager.Continues next := by
  have hget : ∀ id, next.get id = manager.get id := fun id ↦ by rw [get, hagents, get]
  refine ⟨⟨?_, ?_, ?_⟩, ⟨hopts, hkept, ?_, ?_⟩⟩
  · intro id r hid
    rw [hobjects]
    exact h.listed id r (hget id ▸ hid)
  · intro k call opts hcall hphase
    rcases hphases k call hcall with hsame | ⟨-, hbuilding⟩
    · exact h.building k call opts hsame hphase
    · exact hbuilding opts hphase
  · intro k call r hcall hphase
    rw [hobjects]
    rcases hphases k call hcall with hsame | ⟨hreturned, -⟩
    · exact h.returned k call r hsame hphase
    · exact absurd hphase (hreturned r)
  · intro r runtime hruntime
    exact ⟨runtime, hobjects ▸ hruntime, rfl, id⟩
  · intro r _ hgone id
    rw [hget]
    exact hgone id

theorem Labelled.of_eq (h : manager.Labelled) (hagents : next.agents = manager.agents)
    (hobjects : next.objects = manager.objects) (hspawns : next.spawns = manager.spawns) :
    manager.Continues next :=
  h.of_spawns hagents hobjects (fun _ call hcall ↦ ⟨call, hspawns ▸ hcall, rfl⟩)
    (fun k r hr ↦ by rwa [phaseOf, hspawns])
    fun k call hcall ↦ Or.inl (hspawns ▸ hcall)

theorem Continues.trans {first second third : AgentManager} (h : first.Continues second)
    (h' : second.Continues third) : first.Continues third :=
  ⟨h'.labelled, h.grown.trans h'.grown⟩

theorem Labelled.spawn (h : manager.Labelled) (idOrAlias : JsString) (opts : SpawnOptions) :
    manager.Continues (manager.spawn idOrAlias opts) := by
  have hold : ∀ (k : ℕ) call, manager.spawns[k]? = some call →
      (manager.spawn idOrAlias opts).spawns[k]? = some call := by
    intro k call hcall
    exact (List.getElem?_append_left (List.getElem?_eq_some_iff.mp hcall).1).trans hcall
  refine h.of_spawns rfl rfl (fun k call hcall ↦ ⟨call, hold k call hcall, rfl⟩) ?_ ?_
  · intro k r hr
    obtain ⟨call, hcall, hphase⟩ := Option.map_eq_some_iff.mp hr
    rw [phaseOf, hold k call hcall]
    exact congrArg some hphase
  · intro k call hcall
    rcases Nat.lt_or_ge k manager.spawns.length with hlt | hge
    · left
      rwa [AgentManager.spawn, List.getElem?_append_left hlt] at hcall
    · right
      rw [AgentManager.spawn, List.getElem?_append_right hge, List.getElem?_singleton] at hcall
      split at hcall
      · cases Option.some.inj hcall
        constructor
        · intro r hr
          cases hdriver : manager.drivers.resolve idOrAlias <;> rw [hdriver] at hr <;> cases hr
        · intro building hbuilding
          cases hdriver : manager.drivers.resolve idOrAlias <;> rw [hdriver] at hbuilding <;>
            cases hbuilding
      · exact absurd hcall (by simp)

/-- A call that has not returned moves on without returning. -/
theorem Labelled.onSpawn (h : manager.Labelled) {k : ℕ} {call : SpawnCall} {phase : SpawnPhase}
    (hcall : manager.spawns[k]? = some call) (hold : ∀ r, call.phase ≠ .succeeded r)
    (hnew : ∀ r, phase ≠ .succeeded r)
    (hbuilding : ∀ opts, phase = .building opts → ∀ id ∈ call.opts.id, opts.id = id) :
    manager.Continues (manager.onSpawn k phase) := by
  have hget : ∀ j, (manager.onSpawn k phase).spawns[j]? = manager.spawns[j]?.map fun other ↦
      if k = j then { other with phase } else other := fun j ↦ by
    rw [AgentManager.onSpawn, List.getElem?_modify]
    rfl
  refine h.of_spawns rfl rfl ?_ ?_ ?_
  · intro j other hother
    rw [hget, hother]
    refine ⟨_, rfl, ?_⟩
    split <;> rfl
  · intro j r hr
    obtain ⟨other, hother, hphase⟩ := Option.map_eq_some_iff.mp hr
    have hne : k ≠ j := by
      rintro rfl
      rw [hcall] at hother
      cases hother
      exact hold r hphase
    rw [phaseOf, hget, hother]
    simpa [hne] using hphase
  · intro j later hlater
    rw [hget] at hlater
    obtain ⟨other, hother, rfl⟩ := Option.map_eq_some_iff.mp hlater
    by_cases hj : k = j
    · subst hj
      rw [hcall] at hother
      cases hother
      right
      rw [if_pos rfl]
      exact ⟨hnew, hbuilding⟩
    · left
      rw [if_neg hj]
      exact hother

/-- A spawn that asks for an id builds a runtime with that id. -/
theorem prepare_building {driver : Driver} {opts : SpawnOptions} {probe : Option DriverProbe}
    {names : NameSource} {factoryOpts : RuntimeFactoryOpts}
    (h : manager.prepare driver opts probe names = .building factoryOpts) :
    ∀ id ∈ opts.id, factoryOpts.id = id := by
  intro id hid
  unfold prepare at h
  split at h
  · cases h
  · split at h
    · cases h
    · simp only at h
      split at h
      · cases h
      · split at h
        · cases h
        · cases h
          rw [Option.mem_def.mp hid]
          rfl

theorem Labelled.probed (h : manager.Labelled) {k : ℕ} {opts : SpawnOptions} {driver : Driver}
    {answer : ProbeCall} (hcall : manager.spawns[k]? = some ⟨opts, .probing driver answer⟩)
    (probe : Option DriverProbe) (names : NameSource) :
    manager.Continues
      (manager.probed k ⟨opts, .probing driver answer⟩ driver answer probe names) := by
  unfold AgentManager.probed
  split
  · exact h.onSpawn hcall nofun (prepare_ne_succeeded _ _ _ _) fun _ ↦ prepare_building
  · exact h.onSpawn hcall nofun nofun nofun
  · rename_i cached
    have hdrivers : manager.Continues
        { manager with
          drivers := { manager.drivers with probes := manager.drivers.probes.set driver.id cached } } :=
      h.of_eq rfl rfl rfl
    exact hdrivers.trans
      (hdrivers.labelled.onSpawn hcall nofun (prepare_ne_succeeded _ _ _ _) fun _ ↦ prepare_building)

/-- A turn that changes runtimes without their ids, and may take some out of the registry. -/
theorem Labelled.of_objects (h : manager.Labelled)
    (hspawns : next.spawns = manager.spawns)
    (hlisted : ∀ id r, next.get id = some r → manager.get id = some r)
    (hobjects : ∀ (r : ℕ) (runtime : RuntimeObject), manager.objects[r]? = some runtime →
      ∃ later : RuntimeObject, next.objects[r]? = some later ∧ later.id = runtime.id ∧
        (runtime.exited = true → later.exited = true)) : manager.Continues next := by
  refine ⟨⟨?_, ?_, ?_⟩, ⟨?_, ?_, hobjects, ?_⟩⟩
  · intro id r hid
    obtain ⟨runtime, hget, hruntime⟩ := h.listed id r (hlisted id r hid)
    obtain ⟨later, hlater, hsame, -⟩ := hobjects r runtime hget
    exact ⟨later, hlater, hsame.trans hruntime⟩
  · intro k call opts hcall
    exact h.building k call opts (hspawns ▸ hcall)
  · intro k call r hcall hphase
    obtain ⟨runtime, hget, hids⟩ := h.returned k call r (hspawns ▸ hcall) hphase
    obtain ⟨later, hlater, hsame, -⟩ := hobjects r runtime hget
    exact ⟨later, hlater, fun id hid ↦ hsame.trans (hids id hid)⟩
  · intro k call hcall
    exact ⟨call, hspawns ▸ hcall, rfl⟩
  · intro k r hr
    rwa [phaseOf, hspawns]
  · intro r _ hgone id hid
    exact hgone id (hlisted id r hid)

theorem Labelled.onObject (h : manager.Labelled) (r : ℕ) {change : RuntimeObject → RuntimeObject}
    (hid : ∀ runtime, (change runtime).id = runtime.id)
    (hexited : ∀ runtime, runtime.exited = true → (change runtime).exited = true) :
    manager.Continues (manager.onObject r change) := by
  refine h.of_objects rfl (fun _ _ hget ↦ hget) fun position runtime hget ↦ ?_
  by_cases hposition : r = position
  · refine ⟨change runtime, ?_, hid runtime, hexited runtime⟩
    simp [AgentManager.onObject, hposition, hget]
  · refine ⟨runtime, ?_, rfl, id⟩
    simp [AgentManager.onObject, hposition, hget]

theorem Labelled.killRuntime (h : manager.Labelled) (signal : JsString) (r : ℕ) :
    manager.Continues (manager.killRuntime signal r) :=
  h.onObject r (fun _ ↦ rfl) fun _ hexited ↦ hexited

theorem Labelled.foldl_killRuntime (h : manager.Labelled) (signal : JsString) (targets : List ℕ) :
    manager.Continues (targets.foldl (AgentManager.killRuntime signal) manager) := by
  induction targets generalizing manager with
  | nil => exact ⟨h, .refl manager⟩
  | cons target rest ih =>
    have hfirst := h.killRuntime signal target
    exact hfirst.trans (ih hfirst.labelled)

theorem Labelled.remove (h : manager.Labelled) (id : JsString) :
    manager.Continues (manager.remove id) := by
  unfold AgentManager.remove
  split
  · rename_i r hid
    split
    · have hdeleted : manager.Continues { manager with agents := manager.agents.delete id } := by
        refine h.of_objects rfl (fun other s hother ↦ ?_) fun _ runtime hget ↦
          ⟨runtime, hget, rfl, fun hexited ↦ hexited⟩
        rw [get, JsMap.get_delete] at hother
        split at hother
        · exact absurd hother (by simp)
        · exact hother
      exact hdeleted.trans (hdeleted.labelled.onObject r (fun _ ↦ rfl) fun _ hexited ↦ hexited)
    · exact ⟨h, .refl manager⟩
  · exact ⟨h, .refl manager⟩

/-- The runtime of a spawn call takes the next place, under the id of the call. -/
theorem Labelled.register (h : manager.Labelled) {k : ℕ} {call : SpawnCall}
    {opts : RuntimeFactoryOpts} (hcall : manager.spawns[k]? = some call)
    (hphase : call.phase = .building opts) (exited : Bool) :
    manager.Continues (manager.register k opts exited) := by
  have hspawns : ∀ j, (manager.register k opts exited).spawns[j]? = manager.spawns[j]?.map
      fun other ↦ if k = j then { other with phase := .succeeded manager.objects.length }
        else other := fun j ↦ by
    rw [AgentManager.register, AgentManager.onSpawn, List.getElem?_modify]
    rfl
  have hkept : ∀ (r : ℕ) runtime, manager.objects[r]? = some runtime →
      (manager.register k opts exited).objects[r]? = some runtime := by
    intro r runtime hget
    exact (List.getElem?_append_left (List.getElem?_eq_some_iff.mp hget).1).trans hget
  have hnew : (manager.register k opts exited).objects[manager.objects.length]? =
      some ⟨opts.id, exited, k, false, []⟩ := List.getElem?_concat_length
  have hget : ∀ id, (manager.register k opts exited).get id =
      if id = opts.id then some manager.objects.length else manager.get id :=
    fun id ↦ JsMap.get_set _ _ _ _
  refine ⟨⟨?_, ?_, ?_⟩, ⟨?_, ?_, ?_, ?_⟩⟩
  · intro id r hid
    rw [hget] at hid
    split at hid
    case isTrue hsame =>
      cases hid
      exact ⟨_, hnew, hsame.symm⟩
    case isFalse hother =>
      obtain ⟨runtime, hruntime, hlabel⟩ := h.listed id r hid
      exact ⟨runtime, hkept r runtime hruntime, hlabel⟩
  · intro j later factoryOpts hlater hbuilding
    rw [hspawns] at hlater
    obtain ⟨other, hother, rfl⟩ := Option.map_eq_some_iff.mp hlater
    split at hbuilding
    · cases hbuilding
    · rename_i hne
      rw [if_neg hne]
      exact h.building j other factoryOpts hother hbuilding
  · intro j later r hlater hreturned
    rw [hspawns] at hlater
    obtain ⟨other, hother, rfl⟩ := Option.map_eq_some_iff.mp hlater
    split at hreturned
    · rename_i hsame
      subst hsame
      rw [hcall] at hother
      cases hother
      cases hreturned
      rw [if_pos rfl]
      exact ⟨_, hnew, h.building k call opts hcall hphase⟩
    · rename_i hne
      rw [if_neg hne]
      obtain ⟨runtime, hruntime, hids⟩ := h.returned j other r hother hreturned
      exact ⟨runtime, hkept r runtime hruntime, hids⟩
  · intro j other hother
    rw [hspawns, hother]
    refine ⟨_, rfl, ?_⟩
    split <;> rfl
  · intro j r hr
    obtain ⟨other, hother, hsucceeded⟩ := Option.map_eq_some_iff.mp hr
    have hne : k ≠ j := by
      rintro rfl
      rw [hcall] at hother
      cases hother
      rw [hphase] at hsucceeded
      cases hsucceeded
    rw [phaseOf, hspawns, hother]
    simpa [hne] using hsucceeded
  · intro r runtime hruntime
    exact ⟨runtime, hkept r runtime hruntime, rfl, id⟩
  · intro r hr hgone id
    rw [hget]
    split
    · intro hfresh
      have hlength := Option.some.inj hfresh
      omega
    · exact hgone id

/-- Every turn of the manager goes on from what was there. -/
theorem Labelled.step (h : manager.Labelled) {event : ManagerEvent}
    (hnext : manager.step event = some next) : manager.Continues next := by
  cases turn_of_step hnext with
  | spawn idOrAlias opts => exact h.spawn idOrAlias opts
  | probed hcall probe names => exact h.probed hcall probe names
  | built hphase exited =>
    obtain ⟨call, hcall, hbuilding⟩ := Option.map_eq_some_iff.mp hphase
    exact h.register hcall hbuilding exited
  | buildFailed hphase =>
    obtain ⟨call, hcall, hbuilding⟩ := Option.map_eq_some_iff.mp hphase
    refine h.onSpawn hcall ?_ ?_ ?_
    · intro r hr
      rw [hbuilding] at hr
      cases hr
    · intro r hr
      cases hr
    · intro other hother
      cases hother
  | exit r => exact h.onObject r (fun _ ↦ rfl) fun _ _ ↦ rfl
  | kill id signal =>
    unfold AgentManager.kill
    split
    · exact h.killRuntime signal _
    · exact ⟨h, .refl manager⟩
  | remove id => exact h.remove id
  | killAll signal => exact h.foldl_killRuntime signal _
  | registry hagents hobjects hspawns => exact h.of_eq hagents hobjects hspawns

theorem labelled_create (drivers : DriverRegistry) (processCwd : JsString) :
    (create drivers processCwd).Labelled where
  listed := by
    intro id r hlisted
    cases hlisted
  building := by
    intro k call opts hcall
    cases hcall
  returned := by
    intro k call r hcall
    cases hcall

/-- An exited runtime is not listed any more once its id has been removed. -/
theorem Labelled.unlisted_remove (h : manager.Labelled) {r : ℕ} {runtime : RuntimeObject}
    (hget : manager.objects[r]? = some runtime) (hexited : runtime.exited = true) :
    (manager.remove runtime.id).Unlisted r := by
  have hown : ∀ id, manager.get id = some r → id = runtime.id := by
    intro id hid
    obtain ⟨listed, hlisted, hlabel⟩ := h.listed id r hid
    rw [hget] at hlisted
    cases hlisted
    exact hlabel.symm
  intro id hid
  unfold AgentManager.remove at hid
  split at hid
  · rename_i s hs
    split at hid
    · rename_i hgone
      change (manager.agents.delete runtime.id).get id = some r at hid
      rw [JsMap.get_delete] at hid
      split at hid
      · exact absurd hid (by simp)
      · rename_i hne
        exact hne (hown id hid)
    · rename_i hlive
      obtain rfl := hown id hid
      rw [hs] at hid
      cases hid
      simp [exitedOf, hget, hexited] at hlive
  · rename_i hnone
    obtain rfl := hown id hid
    rw [hnone] at hid
    exact absurd hid (by simp)

end AgentManager

end Cordyceps.Agents
