import Cordyceps.Agents.Manager

/-!
# One id for each runtime

The manager promises that ids of its agents do not clash and that a runtime it
returned can be reached, and killed, until it is removed. The id is checked
before the factory is awaited and the registration comes after it, so the
promise hinges on one step: when a factory answers, the id must still be free.
-/

namespace Cordyceps.Agents

open Foundations Foundations.StepMachine Cordyceps.Core Drivers

namespace AgentManager

/-- What the callers of `spawn`, `get`, `list` and `killAll` rely on. -/
structure Tracked (manager : AgentManager) : Prop where
  distinct : ∀ j k r s first second, j ≠ k →
    manager.phaseOf j = some (.succeeded r) → manager.phaseOf k = some (.succeeded s) →
    manager.objects[r]? = some first → manager.objects[s]? = some second →
    first.id = second.id → first.removed = true ∨ second.removed = true
  reachable : ∀ k r, manager.phaseOf k = some (.succeeded r) →
    ∃ runtime, manager.objects[r]? = some runtime ∧
      (runtime.removed = false → manager.get runtime.id = some r ∧ r ∈ manager.list)
  killable : ∀ signal k r runtime, manager.phaseOf k = some (.succeeded r) →
    manager.objects[r]? = some runtime → runtime.exited = false →
    ∃ killed, (manager.killAll signal).objects[r]? = some killed ∧ signal ∈ killed.signals

/-- When a factory answers, the id of its spawn is still free. -/
def FindsIdFree (manager : AgentManager) : ManagerEvent → Prop
  | .built k _ => ∀ opts, manager.phaseOf k = some (.building opts) →
      manager.agents.has opts.id = false
  | _ => True

/-! ## The invariant -/

/-- What is known of a runtime object: it is registered until it is removed, it is only removed
once it exited, and the spawn that made it returned it. -/
structure Kept (manager : AgentManager) (r : ℕ) (runtime : RuntimeObject) : Prop where
  registered : runtime.removed = false → manager.get runtime.id = some r
  exited : runtime.removed = true → runtime.exited = true
  spawned : manager.phaseOf runtime.spawnedBy = some (.succeeded r)

structure Sound (manager : AgentManager) : Prop where
  kept : Each (Kept manager) manager.objects
  returned : ∀ k r, manager.phaseOf k = some (.succeeded r) →
    ∃ runtime, manager.objects[r]? = some runtime ∧ runtime.spawnedBy = k
  listed : ∀ id r, manager.get id = some r →
    ∃ runtime, manager.objects[r]? = some runtime ∧ runtime.id = id ∧ runtime.removed = false

section Killing

/-- Killing leaves alone what the invariant speaks about. -/
structure SameButSignals (before after : RuntimeObject) : Prop where
  id : after.id = before.id
  exited : after.exited = before.exited
  spawnedBy : after.spawnedBy = before.spawnedBy
  removed : after.removed = before.removed
  signals : ∀ signal ∈ before.signals, signal ∈ after.signals

theorem SameButSignals.refl (runtime : RuntimeObject) : SameButSignals runtime runtime :=
  ⟨rfl, rfl, rfl, rfl, fun _ hmem ↦ hmem⟩

theorem SameButSignals.trans {first second third : RuntimeObject}
    (h : SameButSignals first second) (h' : SameButSignals second third) :
    SameButSignals first third where
  id := h'.id.trans h.id
  exited := h'.exited.trans h.exited
  spawnedBy := h'.spawnedBy.trans h.spawnedBy
  removed := h'.removed.trans h.removed
  signals signal hmem := h'.signals signal (h.signals signal hmem)

variable {manager : AgentManager}

theorem getElem?_killRuntime (signal : JsString) (target r : ℕ) {runtime : RuntimeObject}
    (hget : manager.objects[r]? = some runtime) :
    ∃ killed, (manager.killRuntime signal target).objects[r]? = some killed ∧
      SameButSignals runtime killed ∧ (target = r → signal ∈ killed.signals) := by
  by_cases htarget : target = r
  · refine ⟨{ runtime with signals := runtime.signals ++ [signal] }, ?_, ?_, by simp⟩
    · simp [killRuntime, onObject, htarget, hget]
    · exact ⟨rfl, rfl, rfl, rfl, fun _ hmem ↦ List.mem_append_left _ hmem⟩
  · refine ⟨runtime, ?_, .refl runtime, fun h ↦ absurd h htarget⟩
    simp [killRuntime, onObject, htarget, hget]

/-- Every runtime that is killed receives the signal, and nothing else changes. -/
theorem getElem?_foldl_killRuntime (signal : JsString) (targets : List ℕ) (r : ℕ)
    {runtime : RuntimeObject} (hget : manager.objects[r]? = some runtime) :
    ∃ killed, (targets.foldl (killRuntime signal) manager).objects[r]? = some killed ∧
      SameButSignals runtime killed ∧ (r ∈ targets → signal ∈ killed.signals) := by
  induction targets generalizing manager runtime with
  | nil => exact ⟨runtime, hget, .refl runtime, nofun⟩
  | cons target rest ih =>
    obtain ⟨first, hfirst, hsame, hreached⟩ := getElem?_killRuntime signal target r hget
    obtain ⟨last, hlast, hsame', hreached'⟩ := ih hfirst
    refine ⟨last, hlast, hsame.trans hsame', fun hmem ↦ ?_⟩
    rcases List.mem_cons.mp hmem with rfl | hmem
    · exact hsame'.signals signal (hreached rfl)
    · exact hreached' hmem

end Killing

namespace Sound

variable {manager next : AgentManager}

/-- What was promised follows from the invariant. -/
theorem tracked (h : manager.Sound) : manager.Tracked where
  distinct := by
    intro j k r s first second hne hj hk hfirst hsecond hid
    by_contra hlive
    simp only [not_or, Bool.not_eq_true] at hlive
    have hr := (h.kept r first hfirst).registered hlive.1
    have hs := (h.kept s second hsecond).registered hlive.2
    have hsame : r = s := by
      rw [hid, hs] at hr
      exact (Option.some.inj hr).symm
    obtain ⟨_, hget, hspawned⟩ := h.returned j r hj
    obtain ⟨_, hget', hspawned'⟩ := h.returned k s hk
    rw [hsame, hget', Option.some.injEq] at hget
    exact hne (by rw [← hspawned, ← hspawned', hget])
  reachable := by
    intro k r hk
    obtain ⟨runtime, hget, _⟩ := h.returned k r hk
    refine ⟨runtime, hget, fun hlive ↦ ?_⟩
    have hregistered := (h.kept r runtime hget).registered hlive
    exact ⟨hregistered, JsMap.mem_values_of_get hregistered⟩
  killable := by
    intro signal k r runtime _ hget hlive
    have hkept := h.kept r runtime hget
    have hunremoved : runtime.removed = false := by
      by_contra hremoved
      simp [hkept.exited (by simpa using hremoved)] at hlive
    obtain ⟨killed, hkilled, _, hreached⟩ := getElem?_foldl_killRuntime signal
      (manager.list.filter fun r ↦ !manager.exitedOf r) r hget
    refine ⟨killed, hkilled, hreached (List.mem_filter.mpr ⟨?_, ?_⟩)⟩
    · exact JsMap.mem_values_of_get (hkept.registered hunremoved)
    · simp [exitedOf, hget, hlive]

/-- A turn that neither registers, removes, returns nor loses a runtime. -/
theorem of_objects (h : manager.Sound) (hagents : next.agents = manager.agents)
    (hphases : ∀ k r, next.phaseOf k = some (.succeeded r) ↔
      manager.phaseOf k = some (.succeeded r))
    (hobjects : ∀ r : ℕ, (∃ runtime, next.objects[r]? = some runtime) →
      ∃ runtime, manager.objects[r]? = some runtime)
    (hsame : ∀ (r : ℕ) runtime, manager.objects[r]? = some runtime →
      ∃ after, next.objects[r]? = some after ∧ after.id = runtime.id ∧
        after.spawnedBy = runtime.spawnedBy ∧ after.removed = runtime.removed ∧
        (runtime.exited = true → after.exited = true)) : next.Sound where
  kept := by
    intro r after hafter
    obtain ⟨runtime, hget⟩ := hobjects r ⟨after, hafter⟩
    obtain ⟨same, hsome, hid, hspawned, hremoved, hexited⟩ := hsame r runtime hget
    obtain rfl : same = after := Option.some.inj (hsome.symm.trans hafter)
    have hkept := h.kept r runtime hget
    refine ⟨fun hlive ↦ ?_, fun hgone ↦ ?_, ?_⟩
    · rw [get, hagents, hid]
      exact hkept.registered (hremoved ▸ hlive)
    · exact hexited (hkept.exited (hremoved ▸ hgone))
    · rw [hspawned]
      exact (hphases _ _).mpr hkept.spawned
  returned := by
    intro k r hk
    obtain ⟨runtime, hget, hspawned⟩ := h.returned k r ((hphases k r).mp hk)
    obtain ⟨after, hafter, _, hsame, _⟩ := hsame r runtime hget
    exact ⟨after, hafter, hsame.trans hspawned⟩
  listed := by
    intro id r hid
    rw [get, hagents] at hid
    obtain ⟨runtime, hget, hruntime, hlive⟩ := h.listed id r hid
    obtain ⟨after, hafter, hsameId, _, hremoved, _⟩ := hsame r runtime hget
    exact ⟨after, hafter, hsameId.trans hruntime, hremoved.trans hlive⟩

/-- A turn that only concerns calls that have not returned, drivers or factories. -/
theorem of_phases (h : manager.Sound) (hagents : next.agents = manager.agents)
    (hobjects : next.objects = manager.objects)
    (hphases : ∀ k r, next.phaseOf k = some (.succeeded r) ↔
      manager.phaseOf k = some (.succeeded r)) : next.Sound :=
  h.of_objects hagents hphases (fun _ hget ↦ hobjects ▸ hget) fun _ runtime hget ↦
    ⟨runtime, hobjects ▸ hget, rfl, rfl, rfl, id⟩

end Sound

/-! ## Steps -/

section Phases

variable {manager : AgentManager}

theorem lt_of_phaseOf {k : ℕ} {phase : SpawnPhase} (h : manager.phaseOf k = some phase) :
    k < manager.spawns.length := by
  obtain ⟨call, hcall, -⟩ := Option.map_eq_some_iff.mp h
  exact (List.getElem?_eq_some_iff.mp hcall).1

theorem phaseOf_onSpawn (k j : ℕ) (phase : SpawnPhase) :
    (manager.onSpawn k phase).phaseOf j =
      if k = j then (manager.phaseOf j).map fun _ ↦ phase else manager.phaseOf j := by
  unfold phaseOf onSpawn
  rw [List.getElem?_modify]
  by_cases hk : k = j
  · simp only [hk, if_true]
    cases manager.spawns[j]? <;> rfl
  · simp [hk]

/-- A spawn call that exists goes on to another phase. -/
theorem phaseOf_onSpawn_of_some {k : ℕ} {before : SpawnPhase} (hphase : manager.phaseOf k = some before)
    (after : SpawnPhase) (j : ℕ) :
    (manager.onSpawn k after).phaseOf j = if k = j then some after else manager.phaseOf j := by
  rw [phaseOf_onSpawn]
  by_cases hj : k = j
  · subst hj
    rw [if_pos rfl, if_pos rfl, hphase]
    rfl
  · rw [if_neg hj, if_neg hj]

/-- The part of `spawn` before the factory does not return a runtime. -/
theorem prepare_ne_succeeded (driver : Driver) (opts : SpawnOptions) (probe : Option DriverProbe)
    (names : NameSource) (r : ℕ) : manager.prepare driver opts probe names ≠ .succeeded r := by
  unfold prepare
  split
  · nofun
  · split
    · nofun
    · simp only
      split
      · nofun
      · split <;> nofun

theorem ne_succeeded_of_phaseOf {k : ℕ} {phase : SpawnPhase}
    (hphase : manager.phaseOf k = some phase) (hne : ∀ r, phase ≠ .succeeded r) (r : ℕ) :
    manager.phaseOf k ≠ some (.succeeded r) := by
  rw [hphase]
  intro h
  exact hne r (Option.some.inj h)

end Phases

namespace Sound

variable {manager : AgentManager}

/-- A call moves on without returning. -/
theorem onSpawn (h : manager.Sound) {k : ℕ} {phase : SpawnPhase}
    (hold : ∀ r, manager.phaseOf k ≠ some (.succeeded r)) (hnew : ∀ r, phase ≠ .succeeded r) :
    (manager.onSpawn k phase).Sound := by
  refine h.of_phases rfl rfl fun j r ↦ ?_
  rw [phaseOf_onSpawn]
  by_cases hj : k = j
  · subst hj
    rw [if_pos rfl]
    refine iff_of_false ?_ (hold r)
    cases manager.phaseOf k <;> simp [hnew r]
  · rw [if_neg hj]

theorem spawn (h : manager.Sound) (idOrAlias : JsString) (opts : SpawnOptions) :
    (manager.spawn idOrAlias opts).Sound := by
  refine h.of_phases rfl rfl fun k r ↦ ?_
  unfold AgentManager.spawn phaseOf
  rcases Nat.lt_trichotomy k manager.spawns.length with hlt | rfl | hgt
  · simp [List.getElem?_append_left hlt]
  · cases manager.drivers.resolve idOrAlias <;> simp
  · rw [List.getElem?_eq_none (by simp; omega), List.getElem?_eq_none (by omega)]

theorem probed (h : manager.Sound) {k : ℕ} {opts : SpawnOptions} {driver : Driver}
    {answer : ProbeCall} (hget : manager.spawns[k]? = some ⟨opts, .probing driver answer⟩)
    (probe : Option DriverProbe) (names : NameSource) :
    (manager.probed k ⟨opts, .probing driver answer⟩ driver answer probe names).Sound := by
  have hphase : manager.phaseOf k = some (.probing driver answer) := by simp [phaseOf, hget]
  have hold : ∀ r, manager.phaseOf k ≠ some (.succeeded r) := ne_succeeded_of_phaseOf hphase nofun
  unfold AgentManager.probed
  split
  · exact h.onSpawn hold (prepare_ne_succeeded _ _ _ _)
  · exact h.onSpawn hold nofun
  · have hsame : ∀ drivers, ({ manager with drivers } : AgentManager).Sound :=
      fun drivers ↦ h.of_phases rfl rfl fun _ _ ↦ .rfl
    exact (hsame _).onSpawn hold (prepare_ne_succeeded _ _ _ _)

/-- Changing a runtime without touching what the registry relies on. -/
theorem onObject (h : manager.Sound) (r : ℕ) {change : RuntimeObject → RuntimeObject}
    (hid : ∀ runtime, (change runtime).id = runtime.id)
    (hspawned : ∀ runtime, (change runtime).spawnedBy = runtime.spawnedBy)
    (hremoved : ∀ runtime, (change runtime).removed = runtime.removed)
    (hexited : ∀ runtime, runtime.exited = true → (change runtime).exited = true) :
    (manager.onObject r change).Sound := by
  refine h.of_objects rfl (fun _ _ ↦ .rfl) ?_ ?_
  · rintro position ⟨runtime, hget⟩
    have hlt : position < manager.objects.length := by
      have hlt := (List.getElem?_eq_some_iff.mp hget).1
      rwa [AgentManager.onObject, List.length_modify] at hlt
    exact ⟨_, List.getElem?_eq_getElem hlt⟩
  · intro position runtime hget
    by_cases hposition : r = position
    · refine ⟨change runtime, ?_, hid runtime, hspawned runtime, hremoved runtime,
        hexited runtime⟩
      simp [AgentManager.onObject, hposition, hget]
    · refine ⟨runtime, ?_, rfl, rfl, rfl, id⟩
      simp [AgentManager.onObject, hposition, hget]

theorem killRuntime (h : manager.Sound) (signal : JsString) (r : ℕ) :
    (manager.killRuntime signal r).Sound :=
  h.onObject r (fun _ ↦ rfl) (fun _ ↦ rfl) (fun _ ↦ rfl) fun _ hexited ↦ hexited

theorem foldl_killRuntime (h : manager.Sound) (signal : JsString) (targets : List ℕ) :
    (targets.foldl (AgentManager.killRuntime signal) manager).Sound := by
  induction targets generalizing manager with
  | nil => exact h
  | cons target rest ih => exact ih (h.killRuntime signal target)

/-- Only an exited runtime is removed, and no other one was reachable under its id. -/
theorem remove (h : manager.Sound) (id : JsString) : (manager.remove id).Sound := by
  unfold AgentManager.remove
  split
  · rename_i r hid
    split
    · rename_i hexited
      obtain ⟨gone, hgone, hgoneId, _⟩ := h.listed id r hid
      have hother : ∀ (position : ℕ) runtime, position ≠ r →
          manager.objects[position]? = some runtime → runtime.removed = false →
          runtime.id ≠ id := by
        intro position runtime hne hget hlive hsame
        have hregistered := (h.kept position runtime hget).registered hlive
        rw [hsame, hid] at hregistered
        exact hne (Option.some.inj hregistered).symm
      refine ⟨?_, ?_, ?_⟩
      · intro position after hafter
        simp only [AgentManager.onObject, List.getElem?_modify] at hafter
        obtain ⟨runtime, hget, rfl⟩ := Option.map_eq_some_iff.mp hafter
        have hkept := h.kept position runtime hget
        by_cases hposition : r = position
        · subst hposition
          rw [if_pos rfl]
          refine ⟨nofun, fun _ ↦ ?_, hkept.spawned⟩
          simpa [exitedOf, hget] using hexited
        · rw [if_neg hposition]
          refine ⟨fun hlive ↦ ?_, hkept.exited, hkept.spawned⟩
          have hne := hother position runtime (Ne.symm hposition) hget hlive
          change (manager.agents.delete id).get runtime.id = some position
          rw [JsMap.get_delete, if_neg hne]
          exact hkept.registered hlive
      · intro k position hk
        obtain ⟨runtime, hget, hspawned⟩ := h.returned k position hk
        refine ⟨_, List.getElem?_modify .. |>.trans (congrArg _ hget), ?_⟩
        by_cases hposition : r = position <;> simp [hposition, hspawned]
      · intro name position hname
        change (manager.agents.delete id).get name = some position at hname
        rw [JsMap.get_delete] at hname
        split at hname
        · cases hname
        · rename_i hne
          obtain ⟨runtime, hget, hruntime, hlive⟩ := h.listed name position hname
          have hposition : r ≠ position := by
            intro hsame
            rw [hsame, hget, Option.some.injEq] at hgone
            exact hne (by rw [← hruntime, hgone, hgoneId])
          refine ⟨runtime, ?_, hruntime, hlive⟩
          simp [AgentManager.onObject, hposition, hget]
    · exact h
  · exact h

/-- Registering a runtime under a free id. -/
theorem register (h : manager.Sound) {k : ℕ} {opts : RuntimeFactoryOpts}
    (hphase : manager.phaseOf k = some (.building opts)) (hfree : manager.agents.has opts.id = false)
    (exited : Bool) : (manager.register k opts exited).Sound := by
  have hget : ∀ id, (manager.register k opts exited).get id =
      if id = opts.id then some manager.objects.length else manager.get id :=
    fun id ↦ JsMap.get_set ..
  have hphaseOf : ∀ j, (manager.register k opts exited).phaseOf j =
      if k = j then some (.succeeded manager.objects.length) else manager.phaseOf j :=
    phaseOf_onSpawn_of_some hphase _
  have hnone : manager.get opts.id = none := JsMap.get_eq_none_of_has hfree
  have hbound : ∀ r runtime, manager.objects[r]? = some runtime → r < manager.objects.length :=
    fun r runtime hsome ↦ (List.getElem?_eq_some_iff.mp hsome).1
  refine ⟨?_, ?_, ?_⟩
  · apply Each.concat
    · refine h.kept.mono fun r runtime hkept ↦ ⟨fun hlive ↦ ?_, hkept.exited, ?_⟩
      · have hregistered := hkept.registered hlive
        rw [hget, if_neg fun hid ↦ ?_]
        · exact hregistered
        · rw [hid, hnone] at hregistered
          cases hregistered
      · rw [hphaseOf, if_neg fun hk ↦ ?_]
        · exact hkept.spawned
        · have hspawned := hkept.spawned
          rw [← hk, hphase] at hspawned
          cases hspawned
    · refine ⟨fun _ ↦ ?_, fun hremoved ↦ ?_, ?_⟩
      · rw [hget, if_pos rfl]
      · cases hremoved
      · rw [hphaseOf, if_pos rfl]
  · intro j r hj
    rw [hphaseOf] at hj
    split at hj
    · rename_i hk
      cases hj
      exact ⟨⟨opts.id, exited, k, false, []⟩, by simp [AgentManager.register, AgentManager.onSpawn], hk⟩
    · obtain ⟨runtime, hsome, hspawned⟩ := h.returned j r hj
      refine ⟨runtime, ?_, hspawned⟩
      exact (List.getElem?_append_left (hbound r runtime hsome)).trans hsome
  · intro id r hid
    rw [hget] at hid
    split at hid
    · rename_i hsame
      cases hid
      exact ⟨⟨opts.id, exited, k, false, []⟩, by simp [AgentManager.register, AgentManager.onSpawn],
        hsame.symm, rfl⟩
    · obtain ⟨runtime, hsome, hruntime, hlive⟩ := h.listed id r hid
      refine ⟨runtime, ?_, hruntime, hlive⟩
      exact (List.getElem?_append_left (hbound r runtime hsome)).trans hsome

/-- A step that finds the id free keeps the invariant. -/
theorem step (h : manager.Sound) {event : ManagerEvent} (hfree : FindsIdFree manager event)
    {next : AgentManager} (hstep : manager.step event = some next) : next.Sound := by
  cases AgentManager.turn_of_step hstep with
  | spawn idOrAlias opts => exact h.spawn idOrAlias opts
  | probed hcall probe names => exact h.probed hcall probe names
  | built hphase exited => exact h.register hphase (hfree _ hphase) exited
  | buildFailed hphase => exact h.onSpawn (ne_succeeded_of_phaseOf hphase nofun) nofun
  | exit r => exact h.onObject r (fun _ ↦ rfl) (fun _ ↦ rfl) (fun _ ↦ rfl) fun _ _ ↦ rfl
  | kill id signal =>
    unfold AgentManager.kill
    split
    · exact h.killRuntime signal _
    · exact h
  | remove id => exact h.remove id
  | killAll signal => exact h.foldl_killRuntime signal _
  | registry hagents hobjects hspawns =>
    refine h.of_phases hagents hobjects fun k r ↦ ?_
    rw [AgentManager.phaseOf, AgentManager.phaseOf, hspawns]

theorem create (drivers : DriverRegistry) (processCwd : JsString) :
    (AgentManager.create drivers processCwd).Sound where
  kept := Each.nil
  returned _ _ hk := by cases hk
  listed _ _ hid := by cases hid

end Sound

/-- Registering under an id that is taken makes the runtime that held it unreachable. -/
theorem not_tracked_step {manager next : AgentManager} (h : manager.Sound) {event : ManagerEvent}
    (htaken : ¬ FindsIdFree manager event) (hstep : manager.step event = some next) :
    ¬ next.Tracked := by
  cases event with
  | built k exited =>
    simp only [FindsIdFree, not_forall, Bool.not_eq_false] at htaken
    obtain ⟨opts, hphase, hhas⟩ := htaken
    have hnext : next = manager.register k opts exited := by
      simp only [AgentManager.step, hphase, Option.some.injEq] at hstep
      exact hstep.symm
    obtain ⟨r, hid⟩ := Option.isSome_iff_exists.mp hhas
    obtain ⟨runtime, hget, hruntime, hlive⟩ := h.listed opts.id r hid
    have hlt : r < manager.objects.length := (List.getElem?_eq_some_iff.mp hget).1
    have hspawned := (h.kept r runtime hget).spawned
    have hother : k ≠ runtime.spawnedBy := by
      intro hk
      rw [← hk, hphase] at hspawned
      cases hspawned
    intro htracked
    -- the call that returned the earlier runtime, in the state after the registration
    have hstill : next.phaseOf runtime.spawnedBy = some (.succeeded r) := by
      rw [hnext]
      apply (phaseOf_onSpawn k _ _).trans
      rw [if_neg hother]
      exact hspawned
    obtain ⟨same, hsame, hreachable⟩ := htracked.reachable _ r hstill
    have hsome : next.objects[r]? = some runtime := by
      rw [hnext]
      exact (List.getElem?_append_left hlt).trans hget
    obtain rfl : runtime = same := Option.some.inj (hsome.symm.trans hsame)
    have hlast : next.get runtime.id = some manager.objects.length := by
      rw [hnext, hruntime]
      exact (JsMap.get_set ..).trans (if_pos rfl)
    rw [(hreachable hlive).1, Option.some.injEq] at hlast
    omega
  | _ => exact absurd trivial htaken

/-- The callers' view is kept in every state of a run exactly when every factory that answers
finds its id free. -/
theorem runtimes_tracked_iff (drivers : DriverRegistry) (processCwd : JsString)
    (schedule : List ManagerEvent) :
    Throughout AgentManager.step Tracked (create drivers processCwd) schedule ↔
      StepsMeet AgentManager.step FindsIdFree (create drivers processCwd) schedule :=
  @throughout_iff _ _ AgentManager.step FindsIdFree Sound Tracked
    (fun _ _ _ hsound hfree hstep ↦ hsound.step hfree hstep)
    (fun _ _ _ hsound htaken hstep ↦ not_tracked_step hsound htaken hstep)
    (fun _ hsound ↦ hsound.tracked) _ (Sound.create drivers processCwd) schedule

/-- Two spawns ask for one id while it is free and both find it so: the runtime that was returned
first cannot be reached any more. -/
theorem concurrent_spawns_take_one_id :
    ¬ Throughout AgentManager.step Tracked (create .create (js "/"))
        [.registerDriver ⟨js "claude-code", [], [.pty]⟩, .registerRuntime .pty,
          .spawn (js "claude-code") ⟨some (js "x"), none, none, none⟩,
          .spawn (js "claude-code") ⟨some (js "x"), none, none, none⟩,
          .probed 0 (some ⟨true, [], [.pty]⟩) ⟨[], 0⟩, .probed 1 (some ⟨true, [], [.pty]⟩) ⟨[], 0⟩,
          .built 0 false, .built 1 false] := by
  intro h
  obtain ⟨runtime, hget, hreachable⟩ := (h.last rfl).reachable 0 0 rfl
  cases hget
  have hfirst := (hreachable rfl).1
  revert hfirst
  decide

end AgentManager

end Cordyceps.Agents
