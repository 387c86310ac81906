import Cordyceps.Agents.FleetWiring
import Cordyceps.Agents.SubmitFate

/-!
# Submits that nobody awaits

`peer.tell` of the peer plugin and `manager.spawn` of the manager plugin call
`submit` and drop the promise it returns. An error in one of their handlers is
caught by the dispatcher that awaits the handler, but a rejection of the dropped
promise is caught by nobody.
-/

namespace Cordyceps.Plugins

open Foundations Foundations.StepMachine Drivers Agents

variable {Scratch : Type*}

/-! ## The methods -/

/-- The parameters `from`, `to` and `text` of `peer.tell`; `none` is a missing one. -/
structure TellParams where
  sender : Option JsString
  recipient : Option JsString
  text : Option JsString

/-- The parameters of `manager.spawn`. -/
structure ManagerSpawnParams where
  driverId : Option JsString
  task : Option JsString
  model : Option JsString
  name : Option JsString

/-- What `peer.message` tells the bus and the clients. -/
structure PeerMessage where
  sender : JsString
  recipient : JsString
  text : JsString
  ts : Timestamp

/-- A parameter that passes the check for a missing or empty one. -/
def given (param : Option JsString) : Option JsString :=
  match param with
  | some text => if text.isEmpty then none else some text
  | none => none

/-- `MANAGER_PROMPT`. -/
def managerPrompt : JsString := (js "\n").intercalate
  [js "You are a **cordy manager**. Your job is to accomplish user tasks by coordinating peer agents via the cordy control plane.",
    js "",
    js "You have the following MCP tools (prefixed `cordy_` in your tool list):",
    js "",
    js "  cordy_agents_spawn      — spawn a new agent (claude, codex, gemini, ollama)",
    js "  cordy_agents_submit     — send a prompt to an agent, await its reply",
    js "  cordy_agents_state      — read an agent's current state",
    js "  cordy_agents_transcript — read an agent's message history",
    js "  cordy_agents_interrupt  — interrupt a busy agent",
    js "  cordy_agents_kill       — terminate an agent",
    js "  cordy_drivers_list      — list available drivers + their probe status",
    js "  cordy_bus_get           — read a cordy service-bus key",
    js "  cordy_bus_get_by_prefix — list bus entries under a prefix",
    js "",
    js "Approach:",
    js "1. Break the user's task into subtasks that can be delegated.",
    js "2. Pick appropriate drivers for each subtask (Claude for code work, Codex for",
    js "   quick exec tasks, Ollama for cheap local reasoning).",
    js "3. Spawn peer agents, submit prompts, collect replies.",
    js "4. Compose their results into a final answer for the user.",
    js "5. Kill agents when you're done (unused agents consume memory).",
    js "",
    js "Stay focused on the user's task. Don't spawn more agents than necessary.",
    js ""]

/-- `buildManagerProfile`. -/
def buildManagerProfile (driverId : JsString) (model : Option JsString) :
    List (JsString × Json) :=
  let model := match given model with
    | some model => [(js "model", .str model)]
    | none => []
  if driverId = js "claude" ∨ driverId = js "claude-code" then
    let server := Json.obj [(js "command", .str (js "cordy")),
      (js "args", .arr [.str (js "mcp-stdio")])]
    [(js "mcpConfig", .obj [(js "mcpServers", .obj [(js "cordy", server)])]),
      (js "appendSystemPrompt", .str managerPrompt)] ++ model
  else model

/-- `managing` are the calls of `spawn` that a `manager.spawn` awaits, with its task; `detached`
names the submits whose promise was dropped, by the spawn call of the runtime and the number of the
submit. -/
structure Desk (Scratch : Type*) where
  fleet : Fleet Scratch
  managing : List (ℕ × JsString)
  detached : List (ℕ × ℕ)
  messages : List PeerMessage

/-- One turn of the event loop: any turn of the fleet, a request for one of the two methods, or the
continuation of `manager.spawn` after the `await` of call `k`. -/
inductive DeskEvent (Scratch : Type*)
  | fleet (event : FleetEvent Scratch)
  | tell (params : TellParams) (now : Timestamp) (launch : Launch)
  | managerSpawn (params : ManagerSpawnParams)
  | managerSubmit (k : ℕ) (launch : Launch)

namespace Desk

def create (drivers : DriverRegistry) (processCwd : JsString) : Desk Scratch :=
  ⟨.create drivers processCwd, [], [], []⟩

/-- `ctx.agents.get(id)`, with the call of `spawn` that made the runtime. -/
def get (desk : Desk Scratch) (id : JsString) : Option (ℕ × Runtime Scratch) :=
  (desk.fleet.manager.ownerOf id).bind fun k ↦
    (desk.fleet.runtimeAt k).map fun runtime ↦ (k, runtime)

section Methods

variable (parserOf : Driver → DriverParser Scratch)

/-- `void runtime.submit(prompt, { expectMessage: false })`. -/
def detach (target : ℕ × Runtime Scratch) (prompt : JsString) (launch : Launch)
    (desk : Desk Scratch) : Option (Desk Scratch) :=
  let controller := target.2.controller
  (desk.fleet.step parserOf (.turn target.1 (controller.submitEvent .unattended prompt launch))).map
    fun fleet ↦ { desk with fleet, detached := desk.detached ++ [(target.1, controller.submitCount)] }

/-- The target of `peer.tell`; without one it throws. -/
def tellTarget (desk : Desk Scratch) (params : TellParams) :
    Option (PeerMessage × ℕ × Runtime Scratch) :=
  match given params.sender, given params.recipient, given params.text with
  | some sender, some recipient, some text =>
    (desk.get recipient).map fun target ↦ (⟨sender, recipient, text, 0⟩, target)
  | _, _, _ => none

/-- `peer.tell`. -/
def tell (params : TellParams) (now : Timestamp) (launch : Launch) (desk : Desk Scratch) :
    Option (Desk Scratch) :=
  match desk.tellTarget params with
  | some (message, target) =>
    let wrapped := js "[from peer '" ++ message.sender ++ js "'] " ++ message.text
    { desk with messages := desk.messages ++ [{ message with ts := now }] }.detach parserOf target
      wrapped launch
  | none => some desk

/-- `manager.spawn`, up to its `await`; without a task it throws. -/
def managerSpawn (params : ManagerSpawnParams) (desk : Desk Scratch) : Option (Desk Scratch) :=
  match given params.task with
  | some task =>
    let driverId := params.driverId.getD (js "claude")
    let profile := buildManagerProfile driverId params.model
    (desk.fleet.step parserOf (.spawn driverId ⟨params.name, none, some profile, none⟩)).map
      fun fleet ↦ { desk with
        fleet
        managing := desk.managing ++ [(desk.fleet.manager.spawns.length, task)] }
  | none => some desk

/-- The task of a `manager.spawn` whose call of `spawn` has returned, and the runtime that it looks
up under the returned id; without one it throws. -/
def managerTarget (desk : Desk Scratch) (k : ℕ) :
    Option (JsString × Option (ℕ × Runtime Scratch)) :=
  match desk.managing.lookup k, desk.fleet.manager.phaseOf k with
  | some task, some (.succeeded r) =>
    some (task, desk.fleet.manager.objects[r]?.bind fun object ↦ desk.get object.id)
  | _, _ => none

/-- The rest of `manager.spawn`. -/
def managerSubmit (k : ℕ) (launch : Launch) (desk : Desk Scratch) : Option (Desk Scratch) :=
  let rest := { desk with managing := desk.managing.filter fun entry ↦ entry.1 ≠ k }
  match desk.managerTarget k with
  | some (task, some target) => rest.detach parserOf target task launch
  | some (_, none) => some rest
  | none => none

/-- One turn. -/
def step (desk : Desk Scratch) (event : DeskEvent Scratch) : Option (Desk Scratch) :=
  match event with
  | .fleet event => (desk.fleet.step parserOf event).map fun fleet ↦ { desk with fleet }
  | .tell params now launch => desk.tell parserOf params now launch
  | .managerSpawn params => desk.managerSpawn parserOf params
  | .managerSubmit k launch => desk.managerSubmit parserOf k launch

end Methods

/-! ## What is promised -/

/-- The promise of a detached submit; nobody ever attaches a handler. -/
def promiseOf (desk : Desk Scratch) (call : ℕ × ℕ) :
    Option (Promise (Option AssistantMessage) SubmitFailure) :=
  ((desk.fleet.runtimeAt call.1).bind fun runtime ↦ runtime.controller.submitFate call.2).map
    fun fate ↦ ⟨fate, false⟩

/-- No detached submit has rejected. -/
def Contained (desk : Desk Scratch) : Prop :=
  ∀ call ∈ desk.detached, ∀ promise, desk.promiseOf call = some promise → ¬ promise.Unobserved

/-- The target of a detached submit takes it, and the submit does not fail afterwards. -/
def Serves (desk : Desk Scratch) : DeskEvent Scratch → Prop
  | .fleet (.turn k event) => ∀ n, (k, n) ∈ desk.detached → ∀ runtime,
      desk.fleet.runtimeAt k = some runtime → ¬ runtime.controller.Fails n event
  | .fleet _ | .managerSpawn _ => True
  | .tell params _ launch => ∀ message target, desk.tellTarget params = some (message, target) →
      ¬ target.2.controller.Declines launch
  | .managerSubmit k launch => ∀ task target, desk.managerTarget k = some (task, some target) →
      ¬ target.2.controller.Declines launch

/-! ## Steps -/

/-- The fleet is in order, and every detached submit is under way or returned. -/
structure Engaged (desk : Desk Scratch) : Prop where
  wired : desk.fleet.Wired
  calls : ∀ call ∈ desk.detached, ∃ runtime, desk.fleet.runtimeAt call.1 = some runtime ∧
    runtime.controller.Engaged call.2

namespace Engaged

variable {desk next : Desk Scratch} {parserOf : Driver → DriverParser Scratch}

theorem contained (h : desk.Engaged) : desk.Contained := by
  rintro call hmem promise hpromise ⟨-, reason, hfate⟩
  obtain ⟨runtime, hruntime, hengaged⟩ := h.calls call hmem
  rw [promiseOf, hruntime, Option.bind_some] at hpromise
  obtain ⟨fate, hsubmit, rfl⟩ := Option.map_eq_some_iff.mp hpromise
  have hrejected : fate = .rejected reason := hfate
  exact hengaged.not_failed ⟨reason, by rw [hsubmit, hrejected]⟩

theorem not_contained {call : ℕ × ℕ} (hmem : call ∈ desk.detached) {runtime : Runtime Scratch}
    (hruntime : desk.fleet.runtimeAt call.1 = some runtime)
    (hfailed : runtime.controller.Failed call.2) : ¬ desk.Contained := by
  intro hcontained
  obtain ⟨reason, hfate⟩ := hfailed
  refine hcontained call hmem ⟨.rejected reason, false⟩ ?_ ⟨rfl, reason, rfl⟩
  rw [promiseOf, hruntime, Option.bind_some, hfate, Option.map_some]

/-- A turn of the fleet keeps a submit alive, except the one in which it fails. -/
theorem fleet_step (h : desk.Engaged) {event : FleetEvent Scratch} {fleet : Fleet Scratch}
    (hstep : desk.fleet.step parserOf event = some fleet) {call : ℕ × ℕ}
    (hmem : call ∈ desk.detached) : ∃ runtime after, desk.fleet.runtimeAt call.1 = some runtime ∧
      fleet.runtimeAt call.1 = some after ∧
      ((∀ turn, event = .turn call.1 turn → ¬ runtime.controller.Fails call.2 turn) →
        after.controller.Engaged call.2) ∧
      ∀ turn, event = .turn call.1 turn → runtime.controller.Fails call.2 turn →
        after.controller.Failed call.2 := by
  obtain ⟨runtime, hruntime, hengaged⟩ := h.calls call hmem
  rcases h.wired.runtimeAt_step hstep hruntime with
    ⟨turn, after, rfl, hturn, hafter⟩ | ⟨hother, hsame | ⟨scratch, hafter⟩⟩
  · obtain ⟨controller, hcontroller, rfl⟩ := Option.map_eq_some_iff.mp hturn
    obtain ⟨hfine, hfails⟩ := Controller.engaged_step hengaged hcontroller
    refine ⟨runtime, _, hruntime, hafter, fun hnot ↦ hfine (hnot turn rfl), ?_⟩
    intro other heq
    cases heq
    exact hfails
  · exact ⟨runtime, runtime, hruntime, hsame, fun _ ↦ hengaged,
      fun turn heq ↦ absurd heq (hother turn)⟩
  · exact ⟨runtime, _, hruntime, hafter, fun _ ↦ Controller.engaged_putScratch hengaged scratch,
      fun turn heq ↦ absurd heq (hother turn)⟩

/-- A dropped submit is under way, or was declined. -/
theorem detach (h : desk.Engaged) {target : ℕ × Runtime Scratch} {prompt : JsString}
    {launch : Launch} (htarget : desk.fleet.runtimeAt target.1 = some target.2)
    (hstep : desk.detach parserOf target prompt launch = some next) :
    (¬ target.2.controller.Declines launch → next.Engaged) ∧
      (target.2.controller.Declines launch → ¬ next.Contained) := by
  obtain ⟨fleet, hfleet, rfl⟩ := Option.map_eq_some_iff.mp hstep
  have hnever : ∀ n, ¬ target.2.controller.Fails n
      (target.2.controller.submitEvent .unattended prompt launch) := by
    intro n
    cases target.2.controller <;> exact id
  have hnew : ∃ after, fleet.runtimeAt target.1 = some after ∧
      (¬ target.2.controller.Declines launch →
        after.controller.Engaged target.2.controller.submitCount) ∧
      (target.2.controller.Declines launch →
        after.controller.Failed target.2.controller.submitCount) := by
    rcases h.wired.runtimeAt_step hfleet htarget with
      ⟨turn, after, heq, hturn, hafter⟩ | ⟨hother, _⟩
    · cases heq
      obtain ⟨controller, hcontroller, rfl⟩ := Option.map_eq_some_iff.mp hturn
      exact ⟨_, hafter, Controller.engaged_submitEvent hcontroller⟩
    · exact absurd rfl (hother _)
  obtain ⟨after, hafter, hfine, hdeclined⟩ := hnew
  constructor
  · intro htakes
    refine ⟨h.wired.step hfleet, fun call hmem ↦ ?_⟩
    rcases List.mem_append.mp hmem with hold | hlast
    · obtain ⟨runtime, other, hruntime, hother, hkeep, _⟩ := h.fleet_step hfleet hold
      refine ⟨other, hother, hkeep fun turn heq ↦ ?_⟩
      obtain ⟨hk, rfl⟩ := FleetEvent.turn.inj heq
      rw [← hk, htarget] at hruntime
      cases hruntime
      exact hnever _
    · obtain rfl := List.mem_singleton.mp hlast
      exact ⟨after, hafter, hfine htakes⟩
  · intro hdeclines
    exact not_contained (List.mem_append_right _ List.mem_cons_self) hafter (hdeclined hdeclines)

/-- The runtime that `get` finds belongs to the call that is named with it. -/
theorem runtimeAt_of_get {id : JsString} {target : ℕ × Runtime Scratch}
    (h : desk.get id = some target) : desk.fleet.runtimeAt target.1 = some target.2 := by
  obtain ⟨k, _, hk⟩ := Option.bind_eq_some_iff.mp h
  obtain ⟨runtime, hruntime, rfl⟩ := Option.map_eq_some_iff.mp hk
  exact hruntime

theorem runtimeAt_tellTarget {params : TellParams} {message : PeerMessage}
    {target : ℕ × Runtime Scratch} (h : desk.tellTarget params = some (message, target)) :
    desk.fleet.runtimeAt target.1 = some target.2 := by
  unfold tellTarget at h
  split at h
  · obtain ⟨other, hother, heq⟩ := Option.map_eq_some_iff.mp h
    cases heq
    exact runtimeAt_of_get hother
  · cases h

theorem runtimeAt_managerTarget {k : ℕ} {task : JsString} {target : ℕ × Runtime Scratch}
    (h : desk.managerTarget k = some (task, some target)) :
    desk.fleet.runtimeAt target.1 = some target.2 := by
  unfold managerTarget at h
  split at h
  · rw [Option.some.injEq, Prod.mk.injEq] at h
    obtain ⟨object, -, hget⟩ := Option.bind_eq_some_iff.mp h.2
    exact runtimeAt_of_get hget
  · cases h

/-- A turn of the fleet in which no detached submit fails keeps all of them; any other leaves one
rejected. -/
theorem fleet (h : desk.Engaged) {event : FleetEvent Scratch}
    (hstep : desk.step parserOf (.fleet event) = some next) :
    (desk.Serves (.fleet event) → next.Engaged) ∧
      (¬ desk.Serves (.fleet event) → ¬ next.Contained) := by
  obtain ⟨fleet, hfleet, rfl⟩ := Option.map_eq_some_iff.mp hstep
  constructor
  · intro hserves
    refine ⟨h.wired.step hfleet, fun call hmem ↦ ?_⟩
    obtain ⟨runtime, after, hruntime, hafter, hkeep, _⟩ := h.fleet_step hfleet hmem
    refine ⟨after, hafter, hkeep fun turn heq ↦ ?_⟩
    subst heq
    exact hserves call.2 hmem runtime hruntime
  · intro hnot
    cases event with
    | turn k turn =>
      simp only [Serves, not_forall, not_not] at hnot
      obtain ⟨n, hmem, runtime, hruntime, hfails⟩ := hnot
      obtain ⟨other, after, hother, hafter, _, hbreak⟩ := h.fleet_step hfleet hmem
      obtain rfl : runtime = other := Option.some.inj (hruntime.symm.trans hother)
      exact @not_contained _ ⟨fleet, desk.managing, desk.detached, desk.messages⟩ _ hmem _ hafter
        (hbreak turn rfl hfails)
    | _ => exact absurd trivial hnot

/-- A message to a runtime that declines leaves a rejected submit. -/
theorem tell (h : desk.Engaged) {params : TellParams} {now : Timestamp} {launch : Launch}
    (hstep : desk.step parserOf (.tell params now launch) = some next) :
    (desk.Serves (.tell params now launch) → next.Engaged) ∧
      (¬ desk.Serves (.tell params now launch) → ¬ next.Contained) := by
  simp only [Desk.step, Desk.tell] at hstep
  simp only [Serves]
  cases htarget : desk.tellTarget params with
  | none =>
    rw [htarget] at hstep
    cases hstep
    exact ⟨fun _ ↦ h, fun hnot ↦ absurd (fun _ _ heq ↦ by cases heq) hnot⟩
  | some found =>
    obtain ⟨message, target⟩ := found
    rw [htarget] at hstep
    have htold : ({ desk with
        messages := desk.messages ++ [{ message with ts := now }] } : Desk Scratch).Engaged :=
      ⟨h.wired, h.calls⟩
    obtain ⟨hfine, hdeclined⟩ := htold.detach (runtimeAt_tellTarget htarget) hstep
    constructor
    · exact fun hserves ↦ hfine (hserves message target rfl)
    · intro hnot
      apply hdeclined
      by_contra htakes
      refine hnot fun other otherTarget heq ↦ ?_
      cases heq
      exact htakes

/-- A call of `manager.spawn` submits nothing before its `await`. -/
theorem managerSpawn (h : desk.Engaged) {params : ManagerSpawnParams}
    (hstep : desk.step parserOf (.managerSpawn params) = some next) : next.Engaged := by
  simp only [Desk.step, Desk.managerSpawn] at hstep
  split at hstep
  · obtain ⟨fleet, hfleet, rfl⟩ := Option.map_eq_some_iff.mp hstep
    refine ⟨h.wired.step hfleet, fun call hmem ↦ ?_⟩
    obtain ⟨runtime, after, hruntime, hafter, hkeep, _⟩ := h.fleet_step hfleet hmem
    exact ⟨after, hafter, hkeep nofun⟩
  · cases hstep
    exact h

/-- A task for a runtime that declines leaves a rejected submit. -/
theorem managerSubmit (h : desk.Engaged) {k : ℕ} {launch : Launch}
    (hstep : desk.step parserOf (.managerSubmit k launch) = some next) :
    (desk.Serves (.managerSubmit k launch) → next.Engaged) ∧
      (¬ desk.Serves (.managerSubmit k launch) → ¬ next.Contained) := by
  simp only [Desk.step, Desk.managerSubmit] at hstep
  simp only [Serves]
  cases htarget : desk.managerTarget k with
  | none => simp [htarget] at hstep
  | some found =>
    obtain ⟨task, target⟩ := found
    rw [htarget] at hstep
    have hrest : ({ desk with
        managing := desk.managing.filter fun entry ↦ entry.1 ≠ k } : Desk Scratch).Engaged :=
      ⟨h.wired, h.calls⟩
    cases target with
    | none =>
      cases hstep
      exact ⟨fun _ ↦ hrest, fun hnot ↦ absurd (fun _ _ heq ↦ by cases heq) hnot⟩
    | some target =>
      have hruntime := runtimeAt_managerTarget htarget
      obtain ⟨hfine, hdeclined⟩ := hrest.detach hruntime hstep
      constructor
      · exact fun hserves ↦ hfine (hserves task target rfl)
      · intro hnot
        apply hdeclined
        by_contra htakes
        refine hnot fun other otherTarget heq ↦ ?_
        cases heq
        exact htakes

/-- A turn in which every target serves keeps all detached submits from rejecting; any other leaves
one rejected. -/
theorem step (h : desk.Engaged) {event : DeskEvent Scratch}
    (hstep : desk.step parserOf event = some next) :
    (desk.Serves event → next.Engaged) ∧ (¬ desk.Serves event → ¬ next.Contained) := by
  cases event with
  | fleet event => exact h.fleet hstep
  | tell params now launch => exact h.tell hstep
  | managerSpawn params => exact ⟨fun _ ↦ h.managerSpawn hstep, fun hnot ↦ absurd trivial hnot⟩
  | managerSubmit k launch => exact h.managerSubmit hstep

theorem create (drivers : DriverRegistry) (processCwd : JsString) :
    (Desk.create drivers processCwd : Desk Scratch).Engaged :=
  ⟨Fleet.Wired.create drivers processCwd, nofun⟩

end Engaged

/-- In every run of the daemon no submit of the two methods rejects exactly if each of them finds a
target that takes it and does not fail afterwards. -/
theorem fire_and_forget_contained_iff (parserOf : Driver → DriverParser Scratch)
    (drivers : DriverRegistry) (processCwd : JsString) (schedule : List (DeskEvent Scratch)) :
    Throughout (Desk.step parserOf) Contained (.create drivers processCwd) schedule ↔
      StepsMeet (Desk.step parserOf) Serves (.create drivers processCwd) schedule :=
  throughout_iff (fun _ _ _ hengaged hserves hstep ↦ (hengaged.step hstep).1 hserves)
    (fun _ _ _ hengaged hnot hstep ↦ (hengaged.step hstep).2 hnot)
    (fun _ hengaged ↦ hengaged.contained) (Engaged.create drivers processCwd) schedule

/-- A codex agent was killed, is still registered, and is told something. -/
theorem telling_exited_agent_rejects :
    ¬ Throughout (Desk.step fun _ ↦ codexParser) Contained (.create .create (js "/"))
      [.fleet (.registerDriver ⟨js "codex", [], [.exec]⟩), .fleet (.registerRuntime .exec),
        .fleet (.spawn (js "codex") ⟨some (js "x"), none, none, none⟩),
        .fleet (.probed 0 (some ⟨true, [], [.exec]⟩) ⟨[], 0⟩ ⟨none, false, true, none, none, []⟩),
        .fleet (.built 0), .fleet (.turn 0 (.exec (.kill (js "SIGTERM")))),
        .tell ⟨some (js "a"), some (js "x"), some (js "hi")⟩ 0 .buildThrows] := by
  intro h
  have hcontained := h.last rfl
  exact hcontained (0, 0) List.mem_cons_self ⟨.rejected (.exec .agentExited), false⟩ rfl
    ⟨rfl, _, rfl⟩

end Desk

end Cordyceps.Plugins
