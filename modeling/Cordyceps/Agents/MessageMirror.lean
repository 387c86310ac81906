import Cordyceps.Agents.CoreSteps
import Cordyceps.Agents.SharedParser
import Cordyceps.Drivers.Echo

/-!
# One bus message for each transcript entry

The transcript of an agent grows by one entry whenever its controller pushes a
message, and the push announces the entry as `agent.<id>.message`. But events of
the parser go to the bus under their own kind, and all parsers have events of
the kind `message`: a message that a parser emits is announced twice, first
without a time. So the bus mirrors the transcript as long as no chunk that
is fed completes a message.
-/

namespace Cordyceps.Agents

open Foundations Foundations.LineFraming Foundations.StepMachine Drivers

namespace AgentCore

variable {Scratch : Type*}

/-- The payload of a bus call that emits `agent.<id>.message`. -/
def messagePayload (id : JsString) : BusCall → Option BusValue
  | .emit event value => if event = agentKey id (js "message") then some value else none
  | .set _ _ => none

/-- The payloads emitted under `agent.<id>.message` so far, in order. -/
def messagePayloads (core : AgentCore Scratch) : List BusValue :=
  core.calls.filterMap (messagePayload core.id)

/-- The payloads are the entries of the transcript. -/
def Mirrored (core : AgentCore Scratch) : Prop :=
  core.messagePayloads = core.transcript.map BusValue.message

/-! ## What each method announces -/

/-- New messages, each announced once. -/
structure Says (core next : AgentCore Scratch) (messages : List AssistantMessage) : Prop where
  transcript : next.transcript = core.transcript ++ messages
  payloads : next.messagePayloads = core.messagePayloads ++ messages.map BusValue.message

namespace Says

variable {first second third : AgentCore Scratch} {messages others : List AssistantMessage}

theorem refl (core : AgentCore Scratch) : Says core core [] :=
  ⟨(List.append_nil _).symm, (List.append_nil _).symm⟩

theorem trans (h : Says first second messages) (h' : Says second third others) :
    Says first third (messages ++ others) where
  transcript := by rw [h'.transcript, h.transcript, List.append_assoc]
  payloads := by rw [h'.payloads, h.payloads, List.map_append, List.append_assoc]

/-- A step that says nothing, after another. -/
theorem silent (h : Says first second messages) (h' : Says second third []) :
    Says first third messages := by
  have hboth := h.trans h'
  rwa [List.append_nil] at hboth

/-- Only the id, the calls and the transcript matter. -/
theorem congr (h : Says second third messages) (hid : second.id = first.id)
    (hcalls : second.calls = first.calls) (htranscript : second.transcript = first.transcript) :
    Says first third messages where
  transcript := by rw [h.transcript, htranscript]
  payloads := by rw [h.payloads, messagePayloads, hid, hcalls, messagePayloads]

theorem mirrored (h : Says first second messages) (hfirst : first.Mirrored) : second.Mirrored := by
  rw [Mirrored, h.payloads, h.transcript, hfirst, List.map_append]

end Says

section Methods

variable (core : AgentCore Scratch)

theorem messagePayloads_record (calls : List BusCall) : (core.record calls).messagePayloads =
    core.messagePayloads ++ calls.filterMap (messagePayload core.id) := by
  simp [messagePayloads, record]

theorem says_record {calls : List BusCall}
    (hcalls : calls.filterMap (messagePayload core.id) = []) : Says core (core.record calls) [] where
  transcript := (List.append_nil _).symm
  payloads := by rw [messagePayloads_record, hcalls, List.map_nil]

theorem messagePayload_emit {name : JsString} (hname : name ≠ js "message") (value : BusValue) :
    messagePayload core.id (.emit (agentKey core.id name) value) = none := by
  have hkey : agentKey core.id name ≠ agentKey core.id (js "message") := by rwa [Ne, agentKey_inj]
  exact if_neg hkey

theorem says_emit (name : JsString) (hname : name ≠ js "message") (value : BusValue) :
    Says core (core.record [.emit (agentKey core.id name) value]) [] := by
  apply says_record
  rw [List.filterMap_cons, messagePayload_emit core hname]
  rfl

theorem says_publishState : Says core core.publishState [] := by
  apply says_record
  rw [List.filterMap_cons, messagePayload, List.filterMap_cons,
    messagePayload_emit core (by decide)]
  rfl

theorem says_setStatus (status : Status) : Says core (core.setStatus status) [] := by
  unfold setStatus
  split
  · exact .refl core
  · exact (says_publishState { core with state := core.state.withStatus status }).congr rfl rfl rfl

theorem says_markExited (code : ℤ) (payload : Json) : Says core (core.markExited code payload) [] := by
  have hpublish := says_publishState { core with
    exited := true
    exitCode := some code
    state := core.state.withStatus .exited }
  exact (hpublish.silent (says_emit _ (js "exited") (by decide) _)).congr rfl rfl rfl

theorem says_pushMessage (message : AssistantMessage) :
    Says core (core.pushMessage message) [message] where
  transcript := rfl
  payloads := by
    rw [pushMessage, messagePayloads_record]
    simp [messagePayload, messagePayloads]

theorem says_pushMessages (messages : List AssistantMessage) :
    Says core (messages.foldl pushMessage core) messages := by
  induction messages generalizing core with
  | nil => exact .refl core
  | cons message rest ih => exact (says_pushMessage core message).trans (ih _)

theorem says_announceStatus : Says core core.announceStatus [] := by
  have hidle : ∀ blocked : AgentCore Scratch, Says core blocked [] → blocked.id = core.id →
      Says core (if core.state.status = .idle then
        blocked.record [.emit (agentKey core.id (js "idle")) (.state core.state)]
        else blocked) [] := by
    intro blocked hblocked hid
    split
    · rw [← hid]
      exact hblocked.silent (says_emit blocked (js "idle") (by decide) _)
    · exact hblocked
  unfold announceStatus
  cases core.state.blocking with
  | none => exact hidle core (.refl core) rfl
  | some blocking => exact hidle _ (says_emit core (js "blocked") (by decide) _) rfl

theorem says_adoptState (state : Option AgentState) : Says core (core.adoptState state) [] := by
  cases state with
  | none => exact .refl core
  | some state => exact (says_publishState { core with state }).congr rfl rfl rfl

/-- Events of the parser are announced under their kind. -/
theorem messagePayloads_forwardEvents (events : List ParserEvent) :
    (core.forwardEvents events).messagePayloads =
      core.messagePayloads ++ (echoes events).map BusValue.data := by
  rw [forwardEvents, messagePayloads_record]
  congr 1
  induction events with
  | nil => rfl
  | cons ev rest ih =>
    rw [List.map_cons, List.filterMap_cons, ih]
    by_cases hkind : ev.kind = js "message"
    · simp [messagePayload, echoes, hkind]
    · simp [messagePayload, agentKey_inj, echoes, hkind]

end Methods

end AgentCore

/-! ## What a feed announces -/

/-- No chunk of the list completes a message, up to the first on which the parser throws. -/
def Quiet {Scratch : Type*} (parser : DriverParser Scratch)
    (Completes : JsString → AgentState → Scratch → Prop) (now : Timestamp) :
    List JsString → AgentState → Scratch → Prop
  | [], _, _ => True
  | chunk :: rest, state, scratch =>
    match parser.feed now chunk state scratch with
    | .ok (result, next) =>
      ¬ Completes chunk state scratch ∧ Quiet parser Completes now rest (result.state.getD state) next
    | .error _ => True

section Feed

variable {Scratch : Type*} {parser : DriverParser Scratch}
  {Completes : JsString → AgentState → Scratch → Prop}

theorem quiet_iff (hecho : Echoing parser Completes) (now : Timestamp) (chunks : List JsString)
    (state : AgentState) (scratch : Scratch) :
    Quiet parser Completes now chunks state scratch ↔
      parser.emitted now chunks state scratch = [] := by
  induction chunks generalizing state scratch with
  | nil => exact iff_of_true trivial rfl
  | cons chunk rest ih =>
    unfold Quiet
    cases hfeed : parser.feed now chunk state scratch with
    | error error =>
      exact iff_of_true trivial (by simp [DriverParser.emitted, parser.answers_cons_error now hfeed])
    | ok answer =>
      obtain ⟨result, next⟩ := answer
      have hcomplete := (hecho now chunk state scratch result next hfeed).complete
      rw [parser.emitted_cons now hfeed, List.append_eq_nil_iff, ← ih, hcomplete, not_not]

namespace AgentCore

/-- The bus is told every emitted message twice. -/
theorem feedAll_payloads (hecho : Echoing parser Completes) (core : AgentCore Scratch)
    (now : Timestamp) (chunks : List JsString) : ∃ added,
    (core.feedAll parser now chunks).1.messagePayloads = core.messagePayloads ++ added ∧
      added.length = 2 * (parser.emitted now chunks core.state core.scratch).length := by
  induction chunks generalizing core with
  | nil => exact ⟨[], (List.append_nil _).symm, rfl⟩
  | cons chunk rest ih =>
    unfold feedAll feedChunk
    cases hfeed : parser.feed now chunk core.state core.scratch with
    | error error =>
      exact ⟨[], (List.append_nil _).symm,
        by simp [DriverParser.emitted, parser.answers_cons_error now hfeed]⟩
    | ok answer =>
      obtain ⟨result, next⟩ := answer
      obtain ⟨calls, habsorb, _⟩ := core.absorb_eq result next
      obtain ⟨added, hrest, hlength⟩ := ih (core.absorb result next)
      have hstate : (core.absorb result next).state = result.state.getD core.state := by rw [habsorb]
      have hscratch : (core.absorb result next).scratch = next := by rw [habsorb]
      have habsorbed : (core.absorb result next).messagePayloads = core.messagePayloads ++
          ((echoes result.events).map BusValue.data ++ result.messages.map BusValue.message) := by
        have hadopt := says_adoptState { core with scratch := next } result.state
        have hpush := (says_pushMessages ((adoptState result.state
          { core with scratch := next }).forwardEvents result.events) result.messages).silent
            (says_announceStatus _)
        rw [absorb, hpush.payloads, messagePayloads_forwardEvents, hadopt.payloads, List.map_nil,
          List.append_nil, List.append_assoc]
        rfl
      have htold : (core.absorb result next |>.feedAll parser now rest).1.messagePayloads =
          core.messagePayloads ++ (((echoes result.events).map BusValue.data ++
            result.messages.map BusValue.message) ++ added) := by
        rw [hrest, habsorbed, List.append_assoc]
      refine ⟨_, htold, ?_⟩
      have hechoed := (hecho now chunk core.state core.scratch result next hfeed).echoed
      rw [parser.emitted_cons now hfeed, List.length_append, List.length_append, hlength, hstate,
        hscratch, hechoed]
      simp only [List.length_append, List.length_map]
      omega

theorem Housekeeping.says_nothing {core next : AgentCore Scratch} (h : Housekeeping core next) :
    Says core next [] := by
  cases h with
  | refl => exact .refl core
  | output chunk => exact says_emit core (js "output") (by decide) _
  | setStatus status => exact says_setStatus core status
  | markExited code payload => exact says_markExited core code payload

/-- What is said besides the chunks that a turn feeds is announced once. -/
theorem Turned.split {core next : AgentCore Scratch} {fed : Timestamp × List JsString}
    (h : Turned parser core fed next) : ∃ before messages, Says core before [] ∧
      before.state = core.state ∧ before.scratch = core.scratch ∧
        Says (before.feedAll parser fed.1 fed.2).1 next messages := by
  cases h with
  | keeps hkept now => exact ⟨core, [], .refl core, rfl, rfl, hkept.says_nothing⟩
  | pushes message now => exact ⟨core, [message], .refl core, rfl, rfl, says_pushMessage core message⟩
  | @feeds before hkept hstate hscratch now chunks =>
    exact ⟨before, [], hkept.says_nothing, hstate, hscratch, .refl _⟩

/-- After a turn the bus mirrors the transcript exactly if no fed chunk completed a message. -/
theorem Turned.mirrored_iff (hecho : Echoing parser Completes) {core next : AgentCore Scratch}
    {fed : Timestamp × List JsString} (h : Turned parser core fed next) (hcore : core.Mirrored) :
    next.Mirrored ↔ Quiet parser Completes fed.1 fed.2 core.state core.scratch := by
  obtain ⟨before, messages, hbefore, hstate, hscratch, hafter⟩ := h.split
  obtain ⟨added, hpayloads, hlength⟩ := feedAll_payloads hecho before fed.1 fed.2
  have htranscript : (before.feedAll parser fed.1 fed.2).1.transcript =
      before.transcript ++ parser.emitted fed.1 fed.2 before.state before.scratch := by
    obtain ⟨scratch, calls, heq, _⟩ := before.feedAll_eq parser fed.1 fed.2
    rw [heq]
  have hmirrored : before.messagePayloads = before.transcript.map BusValue.message :=
    hbefore.mirrored hcore
  rw [quiet_iff hecho, ← hstate, ← hscratch]
  constructor
  · intro hnext
    have hcount := congrArg List.length hnext
    rw [hafter.payloads, hafter.transcript, hpayloads, htranscript, hmirrored] at hcount
    simp only [List.length_append, List.length_map, hlength] at hcount
    apply List.eq_nil_of_length_eq_zero
    omega
  · intro hemitted
    rw [hemitted, List.length_nil, Nat.mul_zero, List.length_eq_zero_iff] at hlength
    apply hafter.mirrored
    rw [Mirrored, hpayloads, htranscript, hemitted, hlength, List.append_nil, List.append_nil]
    exact hmirrored

end AgentCore

end Feed

/-! ## New agents -/

open AgentCore

section Create

variable {Scratch : Type*}

theorem says_announce (core : AgentCore Scratch) (driverId cwd : JsString) (mode : DriverMode) :
    Says core (core.announce driverId cwd mode) [] :=
  (says_publishState core).silent (says_record _ rfl)

theorem mirrored_announce {core : AgentCore Scratch} (hcalls : core.calls = [])
    (htranscript : core.transcript = []) (driverId cwd : JsString) (mode : DriverMode) :
    (core.announce driverId cwd mode).Mirrored := by
  apply (says_announce core driverId cwd mode).mirrored
  rw [Mirrored, messagePayloads, hcalls, htranscript]
  rfl

end Create

/-! ## Whole runs -/

/-- The chunks that a turn feeds complete no message of the driver. -/
abbrev QuietTurn (driver : BuiltinDriver) (core : AgentCore driver.Scratch)
    (fed : Timestamp × List JsString) : Prop :=
  Quiet driver.parser driver.Completes fed.1 fed.2 core.state core.scratch

/-- The bus mirrors the transcript of a controller, in all states of a run next to other agents of
the driver, exactly if no turn of the run feeds a chunk that completes a message. -/
def MirrorsWhileQuiet {Agent Event : Type*} (driver : BuiltinDriver)
    (turn : Agent → Event → Option Agent) (put : driver.Scratch → Agent → Agent)
    (core : Agent → AgentCore driver.Scratch) (fed : Agent → Event → Timestamp × List JsString)
    (agent : Agent) : Prop :=
  ∀ schedule, Throughout (SharedEvent.step turn put) (fun agent ↦ (core agent).Mirrored) agent
      schedule ↔
    StepsMeet (SharedEvent.step turn put)
      (SharedEvent.OnOwn fun agent event ↦ QuietTurn driver (core agent) (fed agent event)) agent
      schedule

/-- It is enough that the controller uses the methods of the shared part. -/
theorem mirrorsWhileQuiet {Agent Event : Type*} {driver : BuiltinDriver}
    {turn : Agent → Event → Option Agent} {put : driver.Scratch → Agent → Agent}
    {core : Agent → AgentCore driver.Scratch} {fed : Agent → Event → Timestamp × List JsString}
    (hturned : ∀ agent event next, turn agent event = some next →
      Turned driver.parser (core agent) (fed agent event) (core next))
    (hput : ∀ scratch agent, core (put scratch agent) = { core agent with scratch })
    {agent : Agent} (hagent : (core agent).Mirrored) :
    MirrorsWhileQuiet driver turn put core fed agent := by
  intro schedule
  apply @SharedEvent.throughout_iff _ _ _ turn put _ (fun agent ↦ (core agent).Mirrored)
  · intro agent event next hmirrored hquiet hnext
    exact ((hturned agent event next hnext).mirrored_iff driver.echoing hmirrored).mpr hquiet
  · intro agent event next hmirrored hloud hnext hlater
    exact hloud (((hturned agent event next hnext).mirrored_iff driver.echoing hmirrored).mp hlater)
  · intro scratch agent hmirrored
    rw [hput]
    exact hmirrored
  · exact fun _ hmirrored ↦ hmirrored
  · exact hagent

/-- For each of the four controllers under any driver: in all states of a run, what was emitted
under `agent.<id>.message` is the transcript, exactly if no turn of the run feeds a chunk that
completes a message. -/
theorem message_mirror_iff (driver : BuiltinDriver) (id driverId cwd : JsString) :
    (∀ env, MirrorsWhileQuiet driver (ExecAgent.step driver.parser) ExecAgent.putScratch
      ExecAgent.core ExecAgent.fed (.create driver.parser id driverId cwd env)) ∧
    (∀ spec, MirrorsWhileQuiet driver (HttpAgent.step driver.parser) HttpAgent.putScratch
      HttpAgent.core HttpAgent.fed (.create driver.parser id driverId cwd spec)) ∧
    (∀ options, MirrorsWhileQuiet driver (PtyAgent.step driver.parser) PtyAgent.putScratch
      PtyAgent.core (fun _ ↦ PtyAgent.fed) (.create driver.parser id driverId cwd options)) ∧
    ∀ env spec, MirrorsWhileQuiet driver (WsAgent.step driver.parser) WsAgent.putScratch
      WsAgent.core (fun _ ↦ WsAgent.fed) (.create driver.parser id driverId cwd env spec) := by
  refine ⟨?_, ?_, ?_, ?_⟩
  · intro env
    exact mirrorsWhileQuiet (fun _ _ _ ↦ ExecAgent.turned_of_step) (fun _ _ ↦ rfl)
      (mirrored_announce rfl rfl driverId cwd .exec)
  · intro spec
    exact mirrorsWhileQuiet (fun _ _ _ ↦ HttpAgent.turned_of_step) (fun _ _ ↦ rfl)
      (mirrored_announce rfl rfl driverId cwd .serverHttp)
  · intro options
    exact mirrorsWhileQuiet (fun _ _ _ ↦ PtyAgent.turned_of_step) (fun _ _ ↦ rfl)
      (mirrored_announce rfl rfl driverId cwd .pty)
  · intro env spec
    exact mirrorsWhileQuiet (fun _ _ _ ↦ WsAgent.turned_of_step) (fun _ _ ↦ rfl)
      (mirrored_announce rfl rfl driverId cwd .serverWs)

/-- A line of `codex exec --json` with a complete answer. -/
def completedItem : JsString :=
  js "\x7b\"type\":\"item.completed\",\"item\":\x7b\"type\":\"agent_message\",\"text\":\"hi\"\x7d\x7d\n"

/-- One answer of Codex is one entry of the transcript and two messages on the bus, the first of
them without a time. -/
theorem completed_item_announced_twice :
    ¬ Throughout (ExecAgent.step codexParser) (fun agent ↦ agent.core.Mirrored)
        (.create codexParser (js "a") (js "codex") (js "/") .empty)
        [.submit ⟨true, false⟩ (.starts ⟨js "codex", [], js "/", .empty, none, .jsonl⟩),
          .data 0 0 completedItem] := by
  intro h
  have hannounced : (run (ExecAgent.step codexParser)
      (.create codexParser (js "a") (js "codex") (js "/") .empty)
      [.submit ⟨true, false⟩ (.starts ⟨js "codex", [], js "/", .empty, none, .jsonl⟩),
        .data 0 0 completedItem]).any (fun agent ↦
          agent.core.messagePayloads == [.data (.obj [(js "text", .str (js "hi"))]),
            .message ⟨js "hi", 0, none⟩] && agent.core.transcript == [⟨js "hi", 0, none⟩]) = true := by
    decide +kernel
  obtain ⟨agent, hrun, hboth⟩ := (Option.any_eq_true _ _).mp hannounced
  rw [Bool.and_eq_true, beq_iff_eq, beq_iff_eq] at hboth
  have hmirrored := h.last hrun
  rw [Mirrored, hboth.1, hboth.2] at hmirrored
  simp at hmirrored

end Cordyceps.Agents
