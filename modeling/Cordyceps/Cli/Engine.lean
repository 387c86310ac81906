import Cordyceps.Agents.BusCoherence
import Cordyceps.Agents.MessageMirror
import Cordyceps.Transport.Hearing

/-!
# The engine

`startEngine` of `cli/engine.ts` puts the agents and the transport on one bus. What an agent tells
the bus in a turn runs the listeners of the transport before the turn ends, so a client that
listens follows the agent: it is sent every entry of the transcript, once and in order.
-/

namespace Cordyceps.Agents

open Foundations Drivers

variable {Scratch : Type*}

/-! ## What a turn announces -/

/-- The payload of a bus call that emits this event. -/
def BusCall.emitted (key : JsString) : BusCall → Option BusValue
  | .emit event value => if event = key then some value else none
  | .set _ _ => none

/-- The entry of the transcript that a payload is. The parser's own events carry data. -/
def BusValue.entry : BusValue → Option AssistantMessage
  | .message said => some said
  | _ => none

theorem BusValue.filterMap_entry_message (messages : List AssistantMessage) :
    (messages.map BusValue.message).filterMap BusValue.entry = messages := by
  rw [List.filterMap_map]
  exact List.filterMap_some

theorem BusValue.filterMap_entry_data (payloads : List Json) :
    (payloads.map BusValue.data).filterMap BusValue.entry = [] := by
  simp [BusValue.entry, List.filterMap_map]

namespace AgentCore

theorem messagePayload_eq (id : JsString) :
    messagePayload id = BusCall.emitted (agentKey id (js "message")) := by
  funext call
  cases call <;> rfl

/-- New entries of the transcript, each announced once, whatever the parser announces besides. -/
structure Announces (core next : AgentCore Scratch) (messages : List AssistantMessage) : Prop where
  transcript : next.transcript = core.transcript ++ messages
  entries : next.messagePayloads.filterMap BusValue.entry =
    core.messagePayloads.filterMap BusValue.entry ++ messages

theorem Says.announces {core next : AgentCore Scratch} {messages : List AssistantMessage}
    (h : Says core next messages) : Announces core next messages where
  transcript := h.transcript
  entries := by rw [h.payloads, List.filterMap_append, BusValue.filterMap_entry_message]

theorem Announces.trans {first second third : AgentCore Scratch}
    {messages more : List AssistantMessage} (h : Announces first second messages)
    (h' : Announces second third more) : Announces first third (messages ++ more) where
  transcript := by rw [h'.transcript, h.transcript, List.append_assoc]
  entries := by rw [h'.entries, h.entries, List.append_assoc]

theorem announces_forwardEvents (core : AgentCore Scratch) (events : List ParserEvent) :
    Announces core (core.forwardEvents events) [] where
  transcript := (List.append_nil _).symm
  entries := by
    rw [messagePayloads_forwardEvents, List.filterMap_append, BusValue.filterMap_entry_data]

theorem announces_absorb (core : AgentCore Scratch) (result : ParseResult) (scratch : Scratch) :
    Announces core (core.absorb result scratch) result.messages := by
  have hadopt : Says core (adoptState result.state { core with scratch }) [] :=
    (says_adoptState { core with scratch } result.state).congr rfl rfl rfl
  have hforward := announces_forwardEvents (adoptState result.state { core with scratch }) result.events
  have hpush := (says_pushMessages ((adoptState result.state
    { core with scratch }).forwardEvents result.events) result.messages).silent (says_announceStatus _)
  exact (hadopt.announces.trans hforward).trans hpush.announces

theorem announces_feedAll (core : AgentCore Scratch) (parser : DriverParser Scratch) (now : Timestamp)
    (chunks : List JsString) :
    ∃ messages, Announces core (core.feedAll parser now chunks).1 messages := by
  induction chunks generalizing core with
  | nil => exact ⟨[], (Says.refl core).announces⟩
  | cons chunk rest ih =>
    unfold feedAll feedChunk
    cases parser.feed now chunk core.state core.scratch with
    | error thrown =>
      have hleft : Says core { core with scratch := thrown.scratch } [] :=
        (Says.refl { core with scratch := thrown.scratch }).congr rfl rfl rfl
      exact ⟨[], hleft.announces⟩
    | ok answer =>
      obtain ⟨messages, hrest⟩ := ih (core.absorb answer.1 answer.2)
      exact ⟨_, (announces_absorb core answer.1 answer.2).trans hrest⟩

theorem Turned.announces {parser : DriverParser Scratch} {core next : AgentCore Scratch}
    {fed : Timestamp × List JsString} (h : Turned parser core fed next) :
    ∃ messages, Announces core next messages := by
  cases h with
  | keeps hkept now => exact ⟨[], hkept.says_nothing.announces⟩
  | pushes message now => exact ⟨[message], (says_pushMessage core message).announces⟩
  | @feeds before hkept hstate hscratch now chunks =>
    obtain ⟨messages, hfed⟩ := announces_feedAll before parser now chunks
    exact ⟨_, hkept.says_nothing.announces.trans hfed⟩

end AgentCore

theorem Controller.turned_of_step {parser : DriverParser Scratch}
    {controller next : Controller Scratch} {event : ControllerEvent}
    (hstep : controller.step parser event = some next) :
    ∃ fed, AgentCore.Turned parser controller.core fed next.core := by
  unfold step at hstep
  split at hstep
  · obtain ⟨agent, hagent, rfl⟩ := Option.map_eq_some_iff.mp hstep
    exact ⟨_, PtyAgent.turned_of_step hagent⟩
  · obtain ⟨agent, hagent, rfl⟩ := Option.map_eq_some_iff.mp hstep
    exact ⟨_, ExecAgent.turned_of_step hagent⟩
  · obtain ⟨agent, hagent, rfl⟩ := Option.map_eq_some_iff.mp hstep
    exact ⟨_, WsAgent.turned_of_step hagent⟩
  · obtain ⟨agent, hagent, rfl⟩ := Option.map_eq_some_iff.mp hstep
    exact ⟨_, HttpAgent.turned_of_step hagent⟩
  · cases hstep

/-- The entries that a turn adds to the transcript are those that it announces. -/
theorem Runtime.step_announces {runtime after : Runtime Scratch} {event : ControllerEvent}
    (h : runtime.step event = some after) :
    after.core.transcript = runtime.core.transcript ++
      ((runtime.newCalls after).filterMap
        (BusCall.emitted (agentKey runtime.core.id (js "message")))).filterMap BusValue.entry := by
  obtain ⟨hpublishes, hcalls, _⟩ := step_publishes h
  obtain ⟨controller, hcontroller, rfl⟩ := Option.map_eq_some_iff.mp h
  obtain ⟨fed, hturned⟩ := Controller.turned_of_step hcontroller
  obtain ⟨messages, hannounces⟩ := hturned.announces
  have hentries := hannounces.entries
  change List.filterMap _ (AgentCore.messagePayloads
    ({ runtime with controller } : Runtime Scratch).core) =
      List.filterMap _ runtime.core.messagePayloads ++ messages at hentries
  rw [AgentCore.messagePayloads, hcalls, hpublishes.id, List.filterMap_append,
    List.filterMap_append, AgentCore.messagePayloads, List.append_cancel_left_eq,
    AgentCore.messagePayload_eq] at hentries
  rw [hentries]
  exact hannounces.transcript

namespace Fleet

/-- What the runtime in a turn tells the bus. A runtime that is constructed tells about itself. -/
def told (fleet next : Fleet Scratch) : FleetEvent Scratch → List BusCall
  | .probed k _ _ _ | .turn k _ => (next.callsAt k).drop (fleet.callsAt k).length
  | _ => []

/-- The transcript of the runtime of a spawn call. -/
def transcriptAt (fleet : Fleet Scratch) (j : ℕ) : List AssistantMessage :=
  ((fleet.runtimeAt j).map fun runtime ↦ runtime.core.transcript).getD []

/-- Turns of other agents leave the transcript alone. -/
theorem transcriptAt_of_same {next : Fleet Scratch} {j : ℕ} {runtime : Runtime Scratch}
    (h : next.runtimeAt j = some runtime ∨ ∃ scratch, next.runtimeAt j =
      some { runtime with controller := runtime.controller.putScratch scratch }) :
    (∃ after, next.runtimeAt j = some after ∧ after.core.id = runtime.core.id) ∧
      next.transcriptAt j = runtime.core.transcript := by
  rcases h with hnext | ⟨scratch, hnext⟩
  · exact ⟨⟨runtime, hnext, rfl⟩, by rw [transcriptAt, hnext]; rfl⟩
  · have hcore : ({ runtime with controller := runtime.controller.putScratch scratch } :
        Runtime Scratch).core = { runtime.core with scratch } := Controller.core_putScratch _ _
    refine ⟨⟨_, hnext, by rw [hcore]⟩, ?_⟩
    rw [transcriptAt, hnext, Option.map_some, Option.getD_some, hcore]

end Fleet

end Cordyceps.Agents

namespace Cordyceps.Transport.TransportServer

open Foundations Cordyceps.Agents

/-- The listeners run on what is emitted, in order. -/
def publish (server : TransportServer BusValue) (calls : List BusCall) : TransportServer BusValue :=
  calls.foldl (fun server call ↦
    match call with
    | .emit event value => server.emit event value []
    | .set _ _ => server) server

/-- A client that listens hears what is emitted under the event. -/
theorem hears_publish {kind : AgentEvent} {id : JsString} {k : ℕ} {server : TransportServer BusValue}
    (h : server.Forwarding) (hlistens : Listens kind id k server) (calls : List BusCall) :
    Hears kind id k server (server.publish calls)
      (calls.filterMap (BusCall.emitted (kind.key id))) := by
  induction calls generalizing server with
  | nil => exact .refl server
  | cons call rest ih =>
    cases call with
    | set key value => exact ih h hlistens
    | emit event value =>
      have hfirst := hears_emit h hlistens event value [] fun _ ↦ rfl
      have hrest := hfirst.trans (ih (h.emit event value) (hfirst.listens hlistens))
      rw [List.filterMap_cons]
      by_cases hevent : event = kind.key id
      · simp only [BusCall.emitted, if_pos hevent] at hrest ⊢
        exact hrest
      · simp only [BusCall.emitted, if_neg hevent] at hrest ⊢
        exact hrest

theorem forwarding_publish {server : TransportServer BusValue} (h : server.Forwarding)
    (calls : List BusCall) : (server.publish calls).Forwarding := by
  induction calls generalizing server with
  | nil => exact h
  | cons call rest ih =>
    cases call with
    | set key value => exact ih h
    | emit event value => exact ih (h.emit event value)

end Cordyceps.Transport.TransportServer

namespace Cordyceps.Cli

open Foundations Foundations.StepMachine Cordyceps.Agents Cordyceps.Transport Drivers

/-- The agents and the transport. -/
structure Engine (Scratch : Type*) where
  fleet : Fleet Scratch
  server : TransportServer BusValue

/-- One turn. `registered` is the turn in which `spawn` registers the runtime of its factory and
emits `agent.created`; of the payload, which `runtime.info()` returned, the transport reads the id.
A turn of the server is one of a client, or of a plugin on the bus. -/
inductive EngineEvent (Scratch : Type*)
  | fleet (event : FleetEvent Scratch)
  | registered (k : ℕ) (info : BusValue)
  | server (event : ServerEvent BusValue)

namespace Engine

variable {Scratch : Type*}

def start (drivers : DriverRegistry) (processCwd : JsString) : Engine Scratch :=
  ⟨.create drivers processCwd, .start⟩

/-- One turn. An event that cannot happen in a state has no successor. -/
def step (parserOf : Driver → DriverParser Scratch) (engine : Engine Scratch)
    (event : EngineEvent Scratch) : Option (Engine Scratch) :=
  match event with
  | .fleet (.built _) => none
  | .fleet event => (engine.fleet.step parserOf event).map fun fleet ↦
      ⟨fleet, engine.server.publish (engine.fleet.told fleet event)⟩
  | .registered k info =>
    (engine.fleet.step parserOf (.built k)).bind fun fleet ↦
      (fleet.runtimeAt k).bind fun runtime ↦
        (engine.server.step (.created runtime.core.id info)).map fun server ↦ ⟨fleet, server⟩
  | .server (.created _ _) => none
  | .server event => (engine.server.step event).map fun server ↦ { engine with server }

/-- All that one turn can do. -/
inductive Turn (parserOf : Driver → DriverParser Scratch) (engine : Engine Scratch) :
    EngineEvent Scratch → Engine Scratch → Prop
  | fleet {event : FleetEvent Scratch} {fleet : Fleet Scratch}
      (hstep : engine.fleet.step parserOf event = some fleet) :
      Turn parserOf engine (.fleet event)
        ⟨fleet, engine.server.publish (engine.fleet.told fleet event)⟩
  | registered {k : ℕ} {info : BusValue} {fleet : Fleet Scratch} {id : JsString}
      {server : TransportServer BusValue}
      (hstep : engine.fleet.step parserOf (.built k) = some fleet)
      (hserver : engine.server.step (.created id info) = some server) :
      Turn parserOf engine (.registered k info) ⟨fleet, server⟩
  | server {event : ServerEvent BusValue} {server : TransportServer BusValue}
      (hserver : engine.server.step event = some server) :
      Turn parserOf engine (.server event) { engine with server }

variable {parserOf : Driver → DriverParser Scratch} {engine next : Engine Scratch}
  {event : EngineEvent Scratch}

theorem turn_of_step (h : engine.step parserOf event = some next) :
    Turn parserOf engine event next := by
  unfold step at h
  split at h
  · cases h
  · obtain ⟨fleet, hfleet, rfl⟩ := Option.map_eq_some_iff.mp h
    exact .fleet hfleet
  · obtain ⟨fleet, hfleet, hrest⟩ := Option.bind_eq_some_iff.mp h
    obtain ⟨runtime, _, hlast⟩ := Option.bind_eq_some_iff.mp hrest
    obtain ⟨server, hserver, rfl⟩ := Option.map_eq_some_iff.mp hlast
    exact .registered hfleet hserver
  · cases h
  · obtain ⟨server, hserver, rfl⟩ := Option.map_eq_some_iff.mp h
    exact .server hserver

/-- What keeps the two parts in order. -/
structure Sound (engine : Engine Scratch) : Prop where
  wired : engine.fleet.Wired
  forwarding : engine.server.Forwarding

theorem Sound.step (h : engine.Sound) (hstep : engine.step parserOf event = some next) :
    next.Sound := by
  cases turn_of_step hstep with
  | fleet hfleet => exact ⟨h.wired.step hfleet, TransportServer.forwarding_publish h.forwarding _⟩
  | registered hfleet hserver => exact ⟨h.wired.step hfleet, h.forwarding.step hserver⟩
  | server hserver => exact ⟨h.wired, h.forwarding.step hserver⟩

theorem sound_start (drivers : DriverRegistry) (processCwd : JsString) :
    (start drivers processCwd : Engine Scratch).Sound :=
  ⟨.create drivers processCwd, .start⟩

theorem sound_of_run {drivers : DriverRegistry} {processCwd : JsString}
    {schedule : List (EngineEvent Scratch)}
    (hrun : run (step parserOf) (start drivers processCwd) schedule = some engine) : engine.Sound := by
  have hkeep : ∀ (engine : Engine Scratch) event next, engine.Sound → True →
      engine.step parserOf event = some next → next.Sound := fun _ _ _ h _ hstep ↦ h.step hstep
  exact (throughout_of_invariant hkeep (sound_start drivers processCwd)
    (stepsMeet_true _ schedule)).last hrun

/-! ## What a client hears -/

/-- The payloads that a turn emits under an event of an agent. -/
def payloads (parserOf : Driver → DriverParser Scratch) (kind : AgentEvent) (id : JsString)
    (engine : Engine Scratch) : EngineEvent Scratch → List BusValue
  | .fleet event => ((engine.fleet.step parserOf event).map fun fleet ↦
      (engine.fleet.told fleet event).filterMap (BusCall.emitted (kind.key id))).getD []
  | .registered _ _ => []
  | .server event => TransportServer.payloads kind id event

/-- The client listens when the turn begins. -/
abbrev Heard (kind : AgentEvent) (id : JsString) (k : ℕ) (engine : Engine Scratch)
    (_ : EngineEvent Scratch) : Prop :=
  engine.server.Listens kind id k

/-- A client that listens hears what a turn emits. -/
theorem heardAt_step (h : engine.Sound) {kind : AgentEvent} {id : JsString} {k : ℕ}
    (hlistens : engine.server.Listens kind id k) (hstep : engine.step parserOf event = some next) :
    next.server.heardAt kind id k =
      engine.server.heardAt kind id k ++ engine.payloads parserOf kind id event := by
  have hknown := h.forwarding.known k hlistens.client
  cases turn_of_step hstep with
  | fleet hfleet =>
    rw [(TransportServer.hears_publish h.forwarding hlistens _).heardAt hknown, payloads, hfleet,
      Option.map_some, Option.getD_some]
  | registered hfleet hserver =>
    exact TransportServer.heardAt_step h.forwarding hlistens hserver
  | server hserver => exact TransportServer.heardAt_step h.forwarding hlistens hserver

/-- From any reachable state on, a client that stays connected and subscribed to one kind of event
of an agent, which was announced once, is sent exactly what is emitted under it, in order. -/
theorem heard_emitted (parserOf : Driver → DriverParser Scratch) (drivers : DriverRegistry)
    (processCwd : JsString) (kind : AgentEvent) (id : JsString) (k : ℕ)
    {before during : List (EngineEvent Scratch)} {first last : Engine Scratch}
    (hfirst : run (step parserOf) (start drivers processCwd) before = some first)
    (hlistens : StepsMeet (step parserOf) (Heard kind id k) first during)
    (hlast : run (step parserOf) first during = some last) :
    last.server.heardAt kind id k = first.server.heardAt kind id k ++
      collect (step parserOf) (payloads parserOf kind id) first during :=
  collect_of_invariant (fun _ _ _ h hheard hstep ↦ ⟨h.step hstep, heardAt_step h hheard hstep⟩)
    (sound_of_run hfirst) hlistens hlast

section Spawned

/-- The engine after a schedule. -/
def after (schedule : List (EngineEvent Unit)) : Engine Unit :=
  (run (step fun _ ↦ codexParser) (start .create (js "/")) schedule).getD (start .create (js "/"))

theorem run_after {before rest : List (EngineEvent Unit)}
    (h : (run (step fun _ ↦ codexParser) (start .create (js "/")) (before ++ rest)).isSome = true) :
    run (step fun _ ↦ codexParser) (start .create (js "/")) before = some (after before) ∧
      run (step fun _ ↦ codexParser) (after before) rest = some (after (before ++ rest)) :=
  run_getD h

/-- A Codex agent is spawned and a client connects. -/
def spawned : List (EngineEvent Unit) :=
  [.fleet (.registerDriver ⟨js "codex", [], [.exec]⟩), .fleet (.registerRuntime .exec),
    .fleet (.spawn (js "codex") ⟨some (js "x"), none, none, none⟩),
    .fleet (.probed 0 (some ⟨true, [], [.exec]⟩) ⟨[], 0⟩ Fleet.codexBackend),
    .registered 0 (.text (js "x")), .server .connect]

/-- It is asked once, and answers. -/
def answered : List (EngineEvent Unit) :=
  [.fleet (.turn 0 (.exec (.submit ⟨true, false⟩
      (.starts ⟨js "codex", [], js "/", .empty, none, .jsonl⟩)))),
    .fleet (.turn 0 (.exec (.data 0 0 Fleet.codexAnswer)))]

theorem heard_emitted_answered :
    (after (spawned ++ answered)).server.heardAt .message (js "x") 0 =
      (after spawned).server.heardAt .message (js "x") 0 ++
        collect (step fun _ ↦ codexParser) (payloads (fun _ ↦ codexParser) .message (js "x"))
          (after spawned) answered :=
  have hrun := @run_after spawned answered (by decide +kernel)
  heard_emitted _ _ _ .message (js "x") 0 hrun.1 (by decide +kernel) hrun.2

end Spawned

/-! ## What a client hears of a transcript -/

/-- Only the runtime of the call emits the messages of the agent: no runtime that had the id before,
and no plugin. -/
def SpokenBy (j : ℕ) (id : JsString) (engine : Engine Scratch) : EngineEvent Scratch → Prop
  | .fleet (.turn i turn) => i ≠ j → ∀ runtime after, engine.fleet.runtimeAt i = some runtime →
      runtime.step turn = some after →
        (runtime.newCalls after).filterMap (BusCall.emitted (AgentEvent.message.key id)) = []
  | .server (.emit name _) => name ≠ AgentEvent.message.key id
  | _ => True

/-- The client listens to the messages of the agent, which are those of the runtime. -/
def Follows (j : ℕ) (id : JsString) (k : ℕ) (engine : Engine Scratch) (event : EngineEvent Scratch) :
    Prop :=
  engine.server.Listens .message id k ∧ engine.SpokenBy j id event

/-- A runtime that is constructed says nothing yet. -/
theorem emitted_construct {parser : DriverParser Scratch} {backend : Backend}
    {opts : RuntimeFactoryOpts} {controller : Controller Scratch}
    (h : Controller.construct parser backend opts = some controller) (id : JsString) :
    controller.core.calls.filterMap (BusCall.emitted (AgentEvent.message.key id)) = [] := by
  obtain ⟨status, mode, hcore⟩ := Controller.core_construct h
  have hkey : agentKey opts.id (js "state") ≠ AgentEvent.message.key id := fun heq ↦
    nomatch (AgentEvent.key_inj (show AgentEvent.state.key opts.id = AgentEvent.message.key id from heq)).1
  have hcalls : controller.core.calls = [.set (agentKey opts.id (js "state"))
        (.state (parser.initialState.withStatus status)),
      .emit (agentKey opts.id (js "state")) (.state (parser.initialState.withStatus status)),
      .set (agentKey opts.id (js "driver")) (.text opts.driver.id),
      .set (agentKey opts.id (js "cwd")) (.text opts.cwd),
      .set (agentKey opts.id (js "mode")) (.mode mode)] := by
    rw [hcore]
    rfl
  rw [hcalls]
  simp [BusCall.emitted, hkey]

/-- What runs other than the runtime of the call announces none of the agent's messages. -/
theorem emitted_told {fleet next : Fleet Scratch} (h : fleet.Wired) {event : FleetEvent Scratch}
    (hstep : fleet.step parserOf event = some next) {id : JsString}
    (hothers : ∀ i turn runtime after, event = .turn i turn → fleet.runtimeAt i = some runtime →
      runtime.step turn = some after →
        (runtime.newCalls after).filterMap (BusCall.emitted (AgentEvent.message.key id)) = []) :
    (fleet.told next event).filterMap (BusCall.emitted (AgentEvent.message.key id)) = [] := by
  cases Fleet.turn_of_step hstep with
  | probed i hmanager =>
    obtain ⟨⟨driver, answer, hphase⟩, _⟩ := Fleet.probed_cases hmanager
    have hnone := h.probing i driver answer hphase
    have hlt : i < fleet.runtimes.length := by
      rw [h.lengths]
      exact AgentManager.lt_of_phaseOf hphase
    have hbefore : fleet.callsAt i = [] := by rw [Fleet.callsAt, hnone]; rfl
    rw [Fleet.told, hbefore, List.length_nil, List.drop_zero]
    unfold Fleet.probed
    split
    · split
      · rename_i controller hcontroller
        rw [Fleet.callsAt, Fleet.runtimeAt_put (by exact hlt), if_pos rfl]
        exact emitted_construct hcontroller id
      · exact (congrArg _ hbefore).trans rfl
    · exact (congrArg _ hbefore).trans rfl
  | @turn i turn runtime after hruntime hafter =>
    have hcalls := hothers i turn runtime after rfl hruntime hafter
    rw [Fleet.told, Fleet.callsAt, Fleet.callsAt, hruntime,
      Fleet.runtimeAt_put (by exact Fleet.Wired.lt_of_runtimeAt hruntime), if_pos rfl]
    exact hcalls
  | registry hspawns hagents hobjects hevent =>
    cases event with
    | probed i probe names backend => exact congrArg _ (List.drop_length)
    | turn i turn => exact absurd rfl (hevent i turn)
    | _ => rfl
  | _ => rfl

/-- A turn adds to the transcript what it emits of it. -/
theorem transcriptAt_step (h : engine.Sound) {j : ℕ} {runtime : Runtime Scratch}
    (hruntime : engine.fleet.runtimeAt j = some runtime)
    (hspoken : engine.SpokenBy j runtime.core.id event)
    (hstep : engine.step parserOf event = some next) :
    (∃ after, next.fleet.runtimeAt j = some after ∧ after.core.id = runtime.core.id) ∧
      next.fleet.transcriptAt j = engine.fleet.transcriptAt j ++
        (engine.payloads parserOf .message runtime.core.id event).filterMap BusValue.entry := by
  have hbefore : engine.fleet.transcriptAt j = runtime.core.transcript := by
    rw [Fleet.transcriptAt, hruntime]
    rfl
  rw [hbefore]
  cases turn_of_step hstep with
  | @fleet event fleet hfleet =>
    rw [payloads, hfleet, Option.map_some, Option.getD_some]
    rcases h.wired.runtimeAt_step hfleet hruntime with ⟨turn, after, rfl, hafter, hnext⟩ |
      ⟨hother, hsame⟩
    · refine ⟨⟨after, hnext, (Runtime.step_publishes hafter).1.id⟩, ?_⟩
      rw [Fleet.transcriptAt, hnext, Fleet.told, Fleet.callsAt, Fleet.callsAt, hnext, hruntime]
      exact Runtime.step_announces hafter
    · have hquiet : (engine.fleet.told fleet event).filterMap
          (BusCall.emitted (AgentEvent.message.key runtime.core.id)) = [] := by
        refine emitted_told h.wired hfleet fun i turn other after heq hget hafter ↦ ?_
        subst heq
        exact hspoken (fun heq ↦ hother turn (heq ▸ rfl)) other after hget hafter
      rw [hquiet, List.filterMap_nil, List.append_nil]
      exact Fleet.transcriptAt_of_same hsame
  | @registered i info fleet id server hfleet hserver =>
    rw [payloads, List.filterMap_nil, List.append_nil]
    rcases h.wired.runtimeAt_step hfleet hruntime with ⟨turn, after, heq, _⟩ | ⟨_, hsame⟩
    · cases heq
    · exact Fleet.transcriptAt_of_same hsame
  | @server event server hserver =>
    have hquiet : TransportServer.payloads .message runtime.core.id event = [] := by
      cases event with
      | emit name data => exact if_neg hspoken
      | _ => rfl
    rw [payloads, hquiet, List.filterMap_nil, List.append_nil]
    exact Fleet.transcriptAt_of_same (.inl hruntime)

/-- From any reachable state on, a client that stays connected and subscribed to the messages of an
agent is sent each new entry of the transcript once, in order, as long as only its runtime emits
them. What the parser emits under the same event comes besides. -/
theorem heard_transcript (parserOf : Driver → DriverParser Scratch) (drivers : DriverRegistry)
    (processCwd : JsString) (k j : ℕ) {before during : List (EngineEvent Scratch)}
    {first last : Engine Scratch} {runtime : Runtime Scratch}
    (hfirst : run (step parserOf) (start drivers processCwd) before = some first)
    (hruntime : first.fleet.runtimeAt j = some runtime)
    (hfollows : StepsMeet (step parserOf) (Follows j runtime.core.id k) first during)
    (hlast : run (step parserOf) first during = some last) :
    ∃ messages, last.fleet.transcriptAt j = first.fleet.transcriptAt j ++ messages ∧
      (last.server.heardAt .message runtime.core.id k).filterMap BusValue.entry =
        (first.server.heardAt .message runtime.core.id k).filterMap BusValue.entry ++ messages := by
  have hkeep : ∀ (engine : Engine Scratch) event next,
      (engine.Sound ∧ ∃ after, engine.fleet.runtimeAt j = some after ∧
        after.core.id = runtime.core.id) → Follows j runtime.core.id k engine event →
      engine.step parserOf event = some next →
        (next.Sound ∧ ∃ after, next.fleet.runtimeAt j = some after ∧
          after.core.id = runtime.core.id) ∧
        next.fleet.transcriptAt j = engine.fleet.transcriptAt j ++
          (engine.payloads parserOf .message runtime.core.id event).filterMap BusValue.entry := by
    rintro engine event next ⟨h, after, hafter, hid⟩ ⟨_, hspoken⟩ hstep
    rw [← hid] at hspoken ⊢
    obtain ⟨hruntime, htranscript⟩ := transcriptAt_step h hafter hspoken hstep
    exact ⟨⟨h.step hstep, hruntime⟩, htranscript⟩
  have hheard : ∀ (engine : Engine Scratch) event next, engine.Sound →
      Follows j runtime.core.id k engine event → engine.step parserOf event = some next →
        next.Sound ∧ (next.server.heardAt .message runtime.core.id k).filterMap BusValue.entry =
          (engine.server.heardAt .message runtime.core.id k).filterMap BusValue.entry ++
            (engine.payloads parserOf .message runtime.core.id event).filterMap BusValue.entry := by
    intro engine event next h hfollows hstep
    refine ⟨h.step hstep, ?_⟩
    rw [heardAt_step h hfollows.1 hstep, List.filterMap_append]
  have hsound := sound_of_run hfirst
  exact ⟨_, collect_of_invariant hkeep ⟨hsound, runtime, hruntime, rfl⟩ hfollows hlast,
    collect_of_invariant hheard hsound hfollows hlast⟩

theorem heard_transcript_answered : ∃ runtime messages,
    (after spawned).fleet.runtimeAt 0 = some runtime ∧
      (after (spawned ++ answered)).fleet.transcriptAt 0 =
        (after spawned).fleet.transcriptAt 0 ++ messages ∧
      ((after (spawned ++ answered)).server.heardAt .message runtime.core.id 0).filterMap
          BusValue.entry =
        ((after spawned).server.heardAt .message runtime.core.id 0).filterMap BusValue.entry ++
          messages := by
  have hsome : ((after spawned).fleet.runtimeAt 0).isSome = true := by decide +kernel
  obtain ⟨runtime, hruntime⟩ := Option.isSome_iff_exists.mp hsome
  have hmap : ((after spawned).fleet.runtimeAt 0).map (fun runtime ↦ runtime.core.id) =
      some (js "x") := by decide +kernel
  have hid : runtime.core.id = js "x" := by
    rw [hruntime, Option.map_some, Option.some.injEq] at hmap
    exact hmap
  obtain ⟨hfirst, hlast⟩ := @run_after spawned answered (by decide +kernel)
  have hlistens : StepsMeet (step fun _ ↦ codexParser) (Heard .message runtime.core.id 0)
      (after spawned) answered := by
    rw [hid]
    decide +kernel
  have hspoken : StepsMeet (step fun _ ↦ codexParser) (SpokenBy 0 runtime.core.id)
      (after spawned) answered :=
    fun _ _ ↦ ⟨fun hne ↦ absurd rfl hne, fun _ _ ↦ ⟨fun hne ↦ absurd rfl hne, trivial⟩⟩
  obtain ⟨messages, hboth⟩ := heard_transcript _ _ _ 0 0 hfirst hruntime (hlistens.and hspoken) hlast
  exact ⟨runtime, messages, hruntime, hboth⟩

end Engine

end Cordyceps.Cli
