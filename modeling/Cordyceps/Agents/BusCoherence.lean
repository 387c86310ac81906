import Cordyceps.Agents.FleetWiring

/-!
# The bus mirrors the registered runtime

Runtimes that share an id share its keys on the bus, and nothing deletes a key
or silences a runtime that was removed. So the keys show the registered runtime
as long as the last writer is that runtime.
-/

namespace Cordyceps.Agents

open Foundations Foundations.StepMachine Drivers

variable {Scratch : Type*}

namespace Fleet

/-- `bus.get`. -/
def busGet (fleet : Fleet Scratch) (key : JsString) : Option BusValue :=
  (fleet.keys.get key).map Prod.snd

/-- Under each id of the registry there is a runtime, and the bus shows what it has. -/
def Coherent (fleet : Fleet Scratch) : Prop :=
  ∀ id, fleet.manager.agents.has id = true → ∃ k runtime, fleet.manager.ownerOf id = some k ∧
    fleet.runtimeAt k = some runtime ∧ runtime.core.id = id ∧ Mirrors fleet.busGet runtime.core

/-- What the bus has under the two keys was written by the runtime of this call. -/
structure OwnKeys (fleet : Fleet Scratch) (k : ℕ) (id : JsString) : Prop where
  state : ∃ value, fleet.keys.get (agentKey id (js "state")) = some (k, value)
  transcript : ∀ writer value,
    fleet.keys.get (agentKey id (js "transcript")) = some (writer, value) → writer = k

/-- A runtime is registered while it is the last writer of its keys, and once an id is registered
no other runtime with that id takes a turn that writes. -/
def OwnerWrites (fleet : Fleet Scratch) : FleetEvent Scratch → Prop
  | .built k => ∀ opts, fleet.manager.phaseOf k = some (.building opts) → fleet.OwnKeys k opts.id
  | .turn k event => ∀ runtime next, fleet.runtimeAt k = some runtime →
      runtime.step event = some next → writesOf (runtime.newCalls next) ≠ [] →
      ∀ owner, fleet.manager.ownerOf runtime.core.id = some owner → owner = k
  | _ => True

/-! ## The invariant -/

/-- The last writer of the keys of a registered id is the registered runtime. -/
def Owned (fleet : Fleet Scratch) : Prop :=
  ∀ id k, fleet.manager.ownerOf id = some k → fleet.OwnKeys k id

/-- The writes do not touch the keys of an id that another runtime is registered under. -/
def Spares (fleet : Fleet Scratch) (k : ℕ) (calls : List BusCall) : Prop :=
  ∀ id owner, fleet.manager.ownerOf id = some owner → owner ≠ k → ∀ entry ∈ writesOf calls,
    entry.1 ≠ agentKey id (js "state") ∧ entry.1 ≠ agentKey id (js "transcript")

variable {fleet next : Fleet Scratch}

/-- The last writer of the keys is the registered runtime, and what it wrote is what it has. -/
theorem Owned.coherent (howned : fleet.Owned) (h : fleet.Wired) : fleet.Coherent := by
  intro id hhas
  obtain ⟨k, r, runtime, howner, _, hruntime, rfl⟩ := h.listed id hhas
  have hown := howned _ k howner
  have hmirrors := h.mirrors k runtime hruntime
  have hwriter : ∀ key value, fleet.keys.get key = some (k, value) →
      runtime.core.wrote key = some value := by
    intro key value hkey
    obtain ⟨writer, hwriter, hwrote⟩ := h.tagged key k value hkey
    obtain rfl : writer = runtime := Option.some.inj (hwriter.symm.trans hruntime)
    exact hwrote
  refine ⟨k, runtime, howner, hruntime, rfl, ?_, ?_⟩
  · obtain ⟨value, hkey⟩ := hown.state
    rw [busGet, hkey, Option.map_some, ← hwriter _ value hkey]
    exact hmirrors.state
  · cases hkey : fleet.keys.get (agentKey runtime.core.id (js "transcript")) with
    | none =>
      rcases hmirrors.transcript with ⟨_, hempty⟩ | hwrote
      · exact .inl ⟨by rw [busGet, hkey]; rfl, hempty⟩
      · exact absurd hkey (h.kept _ k runtime hruntime (by simp [hwrote]))
    | some entry =>
      obtain ⟨writer, value⟩ := entry
      obtain rfl := hown.transcript writer value hkey
      have hwrote := hwriter _ value hkey
      rcases hmirrors.transcript with ⟨hnone, _⟩ | hsome
      · rw [hnone] at hwrote
        cases hwrote
      · refine .inr ?_
        rw [busGet, hkey, Option.map_some, ← hwrote]
        exact hsome

namespace Owned

/-- A turn that neither registers nor writes. -/
theorem of_manager (h : fleet.Owned) (hkeys : next.keys = fleet.keys)
    (howner : ∀ id k, next.manager.ownerOf id = some k → fleet.manager.ownerOf id = some k) :
    next.Owned := by
  intro id k hk
  have hown := h id k (howner id k hk)
  exact ⟨hkeys ▸ hown.state, hkeys ▸ hown.transcript⟩

theorem write (h : fleet.Owned) {k : ℕ} {calls : List BusCall} (hspares : fleet.Spares k calls)
    (hkeys : next.keys = Fleet.write k calls fleet.keys)
    (hmanager : ∀ id, next.manager.ownerOf id = fleet.manager.ownerOf id) : next.Owned := by
  intro id owner howner
  rw [hmanager] at howner
  have hown := h id owner howner
  have hother : owner ≠ k → ∀ name, name = js "state" ∨ name = js "transcript" →
      JsMap.lastWrite (writesOf calls) (agentKey id name) = none := by
    intro hne name hname
    apply JsMap.lastWrite_eq_none
    intro entry hmem
    obtain ⟨hstate, htranscript⟩ := hspares id owner howner hne entry hmem
    rcases hname with rfl | rfl
    · exact hstate
    · exact htranscript
  constructor
  · obtain ⟨value, hkey⟩ := hown.state
    rw [hkeys, get_write]
    by_cases hne : owner = k
    · subst hne
      cases JsMap.lastWrite (writesOf calls) (agentKey id (js "state")) with
      | none => exact ⟨value, hkey⟩
      | some last => exact ⟨last, rfl⟩
    · rw [hother hne _ (.inl rfl)]
      exact ⟨value, hkey⟩
  · intro writer value hkey
    rw [hkeys, get_write] at hkey
    by_cases hne : owner = k
    · subst hne
      cases hlast : JsMap.lastWrite (writesOf calls) (agentKey id (js "transcript")) with
      | none =>
        rw [hlast] at hkey
        exact hown.transcript writer value hkey
      | some last =>
        rw [hlast] at hkey
        cases hkey
        rfl
    · rw [hother hne _ (.inr rfl)] at hkey
      exact hown.transcript writer value hkey

theorem register (h : fleet.Owned) (hwired : fleet.Wired) {k : ℕ} {opts : RuntimeFactoryOpts}
    (hown : fleet.OwnKeys k opts.id) (exited : Bool) :
    ({ fleet with manager := fleet.manager.register k opts exited } : Fleet Scratch).Owned := by
  intro id owner howner
  by_cases hid : id = opts.id
  · subst hid
    obtain rfl : k = owner := Option.some.inj (ownerOf_register_self.symm.trans howner)
    exact ⟨hown.state, hown.transcript⟩
  · have hhas : fleet.manager.agents.has id = true := by
      obtain ⟨r, hr, _⟩ := Option.bind_eq_some_iff.mp howner
      rw [get_register, if_neg hid] at hr
      exact Option.isSome_iff_exists.mpr ⟨r, hr⟩
    obtain ⟨j, r, other, hj, _⟩ := hwired.listed id hhas
    obtain rfl : j = owner :=
      Option.some.inj ((ownerOf_register_of_ne hid hj).symm.trans howner)
    have hown' := h id j hj
    exact ⟨hown'.state, hown'.transcript⟩

theorem remove (h : fleet.Owned) (id : JsString) :
    ({ fleet with manager := fleet.manager.remove id } : Fleet Scratch).Owned := by
  refine h.of_manager rfl fun name k hk ↦ ?_
  change (fleet.manager.remove id).ownerOf name = some k at hk
  unfold AgentManager.remove at hk
  split at hk
  · split at hk
    · rw [ownerOf_onObject (by exact fun _ ↦ rfl)] at hk
      obtain ⟨r, hr, hobject⟩ := Option.bind_eq_some_iff.mp hk
      rw [AgentManager.get, JsMap.get_delete] at hr
      split at hr
      · cases hr
      · exact Option.bind_eq_some_iff.mpr ⟨r, hr, hobject⟩
    · exact hk
  · exact hk

/-- A new runtime writes its own keys only, and its id is not registered. -/
theorem probed (h : fleet.Owned) {parserOf : Driver → DriverParser Scratch} {k : ℕ}
    {probe : Option DriverProbe} {names : NameSource} {backend : Backend} {manager : AgentManager}
    (hmanager : fleet.manager.step (.probed k probe names) = some manager) :
    (fleet.probed parserOf k backend manager).Owned := by
  obtain ⟨⟨driver, answer, hphase⟩, drivers, phase, rfl, hcase⟩ := probed_cases hmanager
  have hmoved : (({ fleet.manager with drivers } : AgentManager).onSpawn k phase).phaseOf k =
      some phase := (AgentManager.phaseOf_onSpawn_of_some hphase phase k).trans (if_pos rfl)
  unfold Fleet.probed
  rw [hmoved]
  rcases hcase with ⟨error, rfl⟩ | ⟨opts, rfl, hfree⟩
  · exact h.of_manager rfl fun _ _ hk ↦ hk
  · simp only
    split
    · rename_i controller hcontroller
      obtain ⟨status, mode, hcore⟩ := Controller.core_construct hcontroller
      refine h.write ?_ rfl fun _ ↦ rfl
      intro id owner howner _ entry hmem
      have hne : opts.id ≠ id := by
        rintro rfl
        exact absurd ((ownerOf_eq_none hfree).symm.trans howner) nofun
      rw [hcore, writesOf_announced] at hmem
      have hnames : ∃ name, entry.1 = agentKey opts.id name ∧ (0x2E : CodeUnit) ∉ name := by
        simp only [agentEntries, List.mem_cons, List.not_mem_nil, or_false] at hmem
        rcases hmem with rfl | rfl | rfl | rfl <;> exact ⟨_, rfl, by decide⟩
      obtain ⟨name, hkey, hdotless⟩ := hnames
      rw [hkey]
      exact ⟨agentKey_ne hne hdotless dotless_state, agentKey_ne hne hdotless dotless_transcript⟩
    · exact h.of_manager rfl fun _ _ hk ↦ hk

/-- A runtime that writes is the registered one, or nobody is registered under its id. -/
theorem turn (h : fleet.Owned) {k : ℕ} {event : ControllerEvent} {runtime after : Runtime Scratch}
    (hstep : runtime.step event = some after)
    (howner : writesOf (runtime.newCalls after) ≠ [] →
      ∀ owner, fleet.manager.ownerOf runtime.core.id = some owner → owner = k) :
    (({ fleet with manager := Fleet.noteExit k after.core.exited fleet.manager } :
      Fleet Scratch).put k after (runtime.newCalls after)).Owned := by
  refine h.write ?_ rfl (Wired.ownerOf_noteExit fleet.manager k after.core.exited)
  obtain ⟨_, _, hkeys⟩ := Runtime.step_publishes hstep
  intro id owner hid hne entry hmem
  have hother : runtime.core.id ≠ id := by
    rintro rfl
    exact hne (howner (List.ne_nil_of_mem hmem) owner hid)
  rcases hkeys entry hmem with hkey | hkey <;> rw [hkey]
  · exact ⟨agentKey_ne hother dotless_state dotless_state,
      agentKey_ne hother dotless_state dotless_transcript⟩
  · exact ⟨agentKey_ne hother dotless_transcript dotless_state,
      agentKey_ne hother dotless_transcript dotless_transcript⟩

theorem step (h : fleet.Owned) (hwired : fleet.Wired) {parserOf : Driver → DriverParser Scratch}
    {event : FleetEvent Scratch} (howner : fleet.OwnerWrites event)
    (hstep : fleet.step parserOf event = some next) : next.Owned := by
  cases turn_of_step hstep with
  | spawn idOrAlias opts => exact h.of_manager rfl fun _ _ hk ↦ hk
  | probed k hmanager => exact h.probed hmanager
  | built k hruntime hbuilt hphase => exact h.register hwired (howner _ hphase) _
  | buildFailed k hruntime hphase => exact h.of_manager rfl fun _ _ hk ↦ hk
  | turn k hruntime hafter => exact h.turn hafter (howner _ _ hruntime hafter)
  | others k scratch hruntime => exact h.of_manager rfl fun _ _ hk ↦ hk
  | remove id => exact h.remove id
  | registry hspawns hagents hobjects hevent =>
    exact h.of_manager rfl fun id _ hk ↦ (ownerOf_congr hagents hobjects id) ▸ hk

theorem create (drivers : DriverRegistry) (processCwd : JsString) :
    (Fleet.create drivers processCwd : Fleet Scratch).Owned := by
  intro _ _ howner
  cases howner

end Owned

/-- The bus shows the registered runtimes in every state of a run in which only registered runtimes
write the keys of registered ids. -/
theorem bus_coherent (parserOf : Driver → DriverParser Scratch) (drivers : DriverRegistry)
    (processCwd : JsString) (schedule : List (FleetEvent Scratch))
    (howner : StepsMeet (Fleet.step parserOf) OwnerWrites (.create drivers processCwd) schedule) :
    Throughout (Fleet.step parserOf) Coherent (.create drivers processCwd) schedule := by
  have hkeep : ∀ (fleet : Fleet Scratch) event next, fleet.Wired ∧ fleet.Owned →
      fleet.OwnerWrites event → fleet.step parserOf event = some next → next.Wired ∧ next.Owned :=
    fun _ _ _ h howner hstep ↦ ⟨h.1.step hstep, h.2.step h.1 howner hstep⟩
  have hrun := throughout_of_invariant hkeep
    ⟨Wired.create drivers processCwd, Owned.create drivers processCwd⟩ howner
  exact hrun.mono fun _ h ↦ h.2.coherent h.1

/-- What the driver and the system answer while a Codex agent is constructed. -/
def codexBackend : Backend where
  buildPtySpawn := none
  ptySpawns := false
  hasBuildExec := true
  buildServerHttp := none
  buildServerWs := none
  wsRun := []

/-- A Codex agent with the id `x` is spawned by call `k`. -/
def spawnCodex (k : ℕ) : List (FleetEvent Scratch) :=
  [.spawn (js "codex") ⟨some (js "x"), none, none, none⟩,
    .probed k (some ⟨true, [], [.exec]⟩) ⟨[], 0⟩ codexBackend, .built k]

/-- A spawned agent is the last writer of its keys, and its own turns are allowed. -/
theorem bus_coherent_killed :
    Throughout (Fleet.step fun _ ↦ codexParser) Coherent (.create .create (js "/"))
      ([.registerDriver ⟨js "codex", [], [.exec]⟩, .registerRuntime .exec] ++ spawnCodex 0 ++
        [.turn 0 (.exec (.kill (js "SIGTERM")))]) := by
  apply bus_coherent
  refine along_of_step rfl trivial (along_of_step rfl trivial (along_of_step rfl trivial
    (along_of_step rfl trivial (along_of_step rfl ?_ (along_of_step rfl ?_ trivial)))))
  · intro opts hphase
    cases hphase
    exact ⟨⟨_, rfl⟩, fun writer value hkey ↦ by cases hkey⟩
  · intro runtime after hruntime _ _ owner howner
    cases hruntime
    cases howner
    rfl

/-- A Codex answer. -/
def codexAnswer : JsString :=
  js "\x7b\"type\":\"item.completed\",\"item\":\x7b\"type\":\"agent_message\",\"text\":\"hi\"\x7d\x7d\n"

/-- An agent that answered once is killed and removed, and its id is spawned again: the new agent has
said nothing, but the bus shows the transcript of the old one. -/
theorem respawned_id_shows_old_transcript :
    ¬ Throughout (Fleet.step fun _ ↦ codexParser) Coherent (.create .create (js "/"))
      ([.registerDriver ⟨js "codex", [], [.exec]⟩, .registerRuntime .exec] ++ spawnCodex 0 ++
        [.turn 0 (.exec (.submit ⟨true, false⟩
            (.starts ⟨js "codex", [], js "/", .empty, none, .jsonl⟩))),
          .turn 0 (.exec (.data 0 0 codexAnswer)), .turn 0 (.exec (.kill (js "SIGTERM"))),
          .remove (js "x")] ++ spawnCodex 1) := by
  intro h
  have hstale : (run (Fleet.step fun _ ↦ codexParser) (.create .create (js "/"))
      ([.registerDriver ⟨js "codex", [], [.exec]⟩, .registerRuntime .exec] ++ spawnCodex 0 ++
        [.turn 0 (.exec (.submit ⟨true, false⟩
            (.starts ⟨js "codex", [], js "/", .empty, none, .jsonl⟩))),
          .turn 0 (.exec (.data 0 0 codexAnswer)), .turn 0 (.exec (.kill (js "SIGTERM"))),
          .remove (js "x")] ++ spawnCodex 1)).any (fun fleet ↦
            fleet.manager.agents.has (js "x") &&
              fleet.busGet (agentKey (js "x") (js "transcript")) ==
                some (.transcript [⟨js "hi", 0, none⟩]) &&
              ((fleet.manager.ownerOf (js "x")).bind fleet.runtimeAt).any fun runtime ↦
                runtime.core.transcript == []) = true := by
    decide +kernel
  obtain ⟨fleet, hrun, hcheck⟩ := (Option.any_eq_true _ _).mp hstale
  rw [Bool.and_eq_true, Bool.and_eq_true, beq_iff_eq] at hcheck
  obtain ⟨⟨hhas, hbus⟩, hempty⟩ := hcheck
  obtain ⟨k, runtime, howner, hruntime, hid, hmirrors⟩ := h.last hrun _ hhas
  rw [howner, Option.bind_some, hruntime, Option.any_some, beq_iff_eq] at hempty
  have htranscript := hmirrors.transcript
  rw [hid, hbus, hempty] at htranscript
  simp at htranscript

end Fleet

end Cordyceps.Agents
