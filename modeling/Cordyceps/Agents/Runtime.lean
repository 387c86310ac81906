import Cordyceps.Drivers.Api

/-!
# What the four controllers share

Every controller keeps an `AgentState`, a transcript and the exited mark, feeds
backend chunks to the driver's parser and mirrors what happens to the bus. The
controllers repeat these methods word for word; here they are stated once, on
the part of the controller they touch. Bus writes are recorded in order, so
what a listener saw can be read off a finished run.
-/

namespace Cordyceps.Agents

open Foundations Drivers

/-- A value written to the bus or carried by a bus event. -/
inductive BusValue
  | text (value : JsString)
  | mode (value : DriverMode)
  | state (value : AgentState)
  | message (value : AssistantMessage)
  | transcript (entries : List AssistantMessage)
  | blocking (value : Blocking)
  | data (value : Json)
  deriving DecidableEq, Repr

/-- One call of `bus.set` or `bus.emit`. -/
inductive BusCall
  | set (key : JsString) (value : BusValue)
  | emit (event : JsString) (value : BusValue)
  deriving DecidableEq, Repr

/-- `agent.<id>.<name>`. -/
def agentKey (id name : JsString) : JsString := js "agent." ++ id ++ js "." ++ name

theorem agentKey_inj {id first second : JsString} :
    agentKey id first = agentKey id second ↔ first = second := by
  unfold agentKey
  exact List.append_right_inj _

/-- The keys of different ids are different, whatever their names are. -/
theorem agentKey_ne {id id' name name' : JsString} (h : id ≠ id')
    (hname : (0x2E : CodeUnit) ∉ name) (hname' : (0x2E : CodeUnit) ∉ name') :
    agentKey id name ≠ agentKey id' name' := by
  have hdot : js "." = [0x2E] := rfl
  intro hkey
  simp only [agentKey, hdot, List.append_assoc, List.singleton_append, List.append_cancel_left_eq] at hkey
  -- whichever id is longer, its rest would start inside the other name
  rcases List.append_eq_append_iff.mp hkey with ⟨rest, hid, hrest⟩ | ⟨rest, hid, hrest⟩
  · cases rest with
    | nil => exact h (by rw [hid, List.append_nil])
    | cons unit rest =>
      obtain ⟨_, rfl⟩ := List.cons.inj hrest
      exact hname (by simp)
  · cases rest with
    | nil => exact h (by rw [hid, List.append_nil])
    | cons unit rest =>
      obtain ⟨_, rfl⟩ := List.cons.inj hrest
      exact hname' (by simp)

/-- The part of a controller that its methods share. `scratch` is the parser's own memory and
`calls` lists what was told to the bus, oldest first. -/
structure AgentCore (Scratch : Type*) where
  id : JsString
  state : AgentState
  transcript : List AssistantMessage
  exited : Bool
  exitCode : Option ℤ
  scratch : Scratch
  calls : List BusCall

namespace AgentCore

variable {Scratch : Type*}

def record (core : AgentCore Scratch) (calls : List BusCall) : AgentCore Scratch :=
  { core with calls := core.calls ++ calls }

/-- `publishState`. -/
def publishState (core : AgentCore Scratch) : AgentCore Scratch :=
  core.record [.set (agentKey core.id (js "state")) (.state core.state),
    .emit (agentKey core.id (js "state")) (.state core.state)]

/-- The constructor's last block: the four keys of a new agent. -/
def announce (core : AgentCore Scratch) (driverId cwd : JsString) (mode : DriverMode) :
    AgentCore Scratch :=
  core.publishState.record [.set (agentKey core.id (js "driver")) (.text driverId),
    .set (agentKey core.id (js "cwd")) (.text cwd), .set (agentKey core.id (js "mode")) (.mode mode)]

/-- `setStatus`. -/
def setStatus (status : Status) (core : AgentCore Scratch) : AgentCore Scratch :=
  if core.state.status = status then core
  else { core with state := core.state.withStatus status }.publishState

/-- Push a message to the transcript and announce it. -/
def pushMessage (core : AgentCore Scratch) (message : AssistantMessage) : AgentCore Scratch :=
  { core with transcript := core.transcript ++ [message] }.record
    [.emit (agentKey core.id (js "message")) (.message message),
      .set (agentKey core.id (js "transcript")) (.transcript (core.transcript ++ [message]))]

/-- The announcements that depend on the state after a feed. -/
def announceStatus (core : AgentCore Scratch) : AgentCore Scratch :=
  let blocked := match core.state.blocking with
    | some blocking => core.record [.emit (agentKey core.id (js "blocked")) (.blocking blocking)]
    | none => core
  if core.state.status = .idle then
    blocked.record [.emit (agentKey core.id (js "idle")) (.state core.state)]
  else blocked

/-- `if (result.state !== this._state) { this._state = result.state; this.publishState(); }`. -/
def adoptState (state : Option AgentState) (core : AgentCore Scratch) : AgentCore Scratch :=
  match state with
  | some state => { core with state }.publishState
  | none => core

/-- Mirror the parser's events to the bus. -/
def forwardEvents (events : List ParserEvent) (core : AgentCore Scratch) : AgentCore Scratch :=
  core.record (events.map fun ev ↦ .emit (agentKey core.id ev.kind) (.data ev.data))

/-- What `feedChunk` does with the parser's answer. -/
def absorb (result : ParseResult) (scratch : Scratch) (core : AgentCore Scratch) :
    AgentCore Scratch :=
  let core := forwardEvents result.events (adoptState result.state { core with scratch })
  (result.messages.foldl pushMessage core).announceStatus

/-- `feedChunk`. -/
def feedChunk (parser : DriverParser Scratch) (now : Timestamp) (chunk : JsString)
    (core : AgentCore Scratch) : Except (FeedError Scratch) (AgentCore Scratch) :=
  (parser.feed now chunk core.state core.scratch).map fun (result, scratch) ↦
    core.absorb result scratch

/-- Feed chunks in order until one throws; the flag tells whether one did. -/
def feedAll (parser : DriverParser Scratch) (now : Timestamp) :
    List JsString → AgentCore Scratch → AgentCore Scratch × Bool
  | [], core => (core, false)
  | chunk :: rest, core =>
    match core.feedChunk parser now chunk with
    | .ok core => feedAll parser now rest core
    | .error thrown => ({ core with scratch := thrown.scratch }, true)

/-- The end of an agent, as every controller marks it. -/
def markExited (code : ℤ) (payload : Json) (core : AgentCore Scratch) : AgentCore Scratch :=
  { core with
    exited := true
    exitCode := some code
    state := core.state.withStatus .exited }.publishState.record
      [.emit (agentKey core.id (js "exited")) (.data payload)]

/-! ## What each method does to the shared part -/

/-- The state that a bus call announces under `agent.<id>.state`. -/
def announcedState (id : JsString) : BusCall → Option AgentState
  | .emit event (.state state) => if event = agentKey id (js "state") then some state else none
  | _ => none

/-- The states announced on the bus so far, in order. -/
def announced (core : AgentCore Scratch) : List AgentState :=
  core.calls.filterMap (announcedState core.id)

theorem agentKey_idle_ne_state (id : JsString) :
    agentKey id (js "idle") ≠ agentKey id (js "state") := by
  rw [Ne, agentKey_inj]
  decide

section Effects

variable (core : AgentCore Scratch)

theorem announced_record (calls : List BusCall) :
    (core.record calls).announced = core.announced ++ calls.filterMap (announcedState core.id) := by
  simp [announced, record]

@[simp]
theorem announced_publishState : core.publishState.announced = core.announced ++ [core.state] := by
  simp [publishState, announced_record, announcedState, List.filterMap_cons]

theorem setStatus_eq (status : Status) : ∃ calls, core.setStatus status =
    { core with state := core.state.withStatus status, calls := calls } := by
  unfold setStatus
  split
  · rename_i h
    refine ⟨core.calls, ?_⟩
    rw [← h]
    rfl
  · exact ⟨_, rfl⟩

/-- Pushing messages appends them and announces no state. -/
theorem pushMessages_eq (messages : List AssistantMessage) : ∃ calls,
    messages.foldl pushMessage core =
      { core with transcript := core.transcript ++ messages, calls := calls } ∧
    (messages.foldl pushMessage core).announced = core.announced := by
  induction messages generalizing core with
  | nil => exact ⟨core.calls, by simp, rfl⟩
  | cons message rest ih =>
    obtain ⟨calls, heq, hannounced⟩ := ih (core.pushMessage message)
    refine ⟨calls, ?_, ?_⟩
    · rw [List.foldl_cons, heq]
      simp [pushMessage, record]
    · rw [List.foldl_cons, hannounced, pushMessage, announced_record]
      simp [announcedState, List.filterMap_cons, announced]

/-- The status announcements are no state announcements. -/
theorem announceStatus_eq : ∃ calls, core.announceStatus = { core with calls := calls } ∧
    core.announceStatus.announced = core.announced := by
  have hblocked : ∃ calls, calls.filterMap (announcedState core.id) = [] ∧
      (match core.state.blocking with
        | some blocking =>
          core.record [.emit (agentKey core.id (js "blocked")) (.blocking blocking)]
        | none => core) = core.record calls := by
    cases core.state.blocking with
    | none => exact ⟨[], rfl, by simp [record]⟩
    | some blocking => exact ⟨_, rfl, rfl⟩
  obtain ⟨calls, hsilent, heq⟩ := hblocked
  unfold announceStatus
  simp only [heq]
  split
  · refine ⟨_, rfl, ?_⟩
    have hidle : [BusCall.emit (agentKey core.id (js "idle")) (.state core.state)].filterMap
        (announcedState core.id) = [] := by
      simp [announcedState, agentKey_idle_ne_state]
    rw [announced_record, announced_record, hsilent, List.append_nil]
    exact (congrArg _ hidle).trans (List.append_nil _)
  · refine ⟨_, rfl, ?_⟩
    rw [announced_record, hsilent, List.append_nil]

theorem adoptState_eq (state : Option AgentState) : ∃ calls,
    core.adoptState state = { core with state := state.getD core.state, calls := calls } ∧
    (core.adoptState state).announced = core.announced ++ state.toList := by
  cases state with
  | none => exact ⟨core.calls, rfl, (List.append_nil _).symm⟩
  | some state => exact ⟨_, rfl, announced_publishState { core with state }⟩

/-- Parser events carry data, not states. -/
theorem announced_forwardEvents (events : List ParserEvent) :
    (core.forwardEvents events).announced = core.announced := by
  have hsilent : (events.map fun ev ↦ BusCall.emit (agentKey core.id ev.kind)
      (.data ev.data)).filterMap (announcedState core.id) = [] := by
    simp [announcedState, List.filterMap_map]
  rw [forwardEvents, announced_record, hsilent, List.append_nil]

/-- All that a feed changes: the memory, the state if the parser answered a new one, the
transcript, and the record of the bus. -/
theorem absorb_eq (result : ParseResult) (scratch : Scratch) : ∃ calls,
    core.absorb result scratch =
      { core with
        scratch := scratch
        state := result.state.getD core.state
        transcript := core.transcript ++ result.messages
        calls := calls } ∧
    (core.absorb result scratch).announced = core.announced ++ result.state.toList := by
  obtain ⟨_, hadopt, hadopted⟩ := adoptState_eq { core with scratch } result.state
  obtain ⟨_, hpush, hpushed⟩ := pushMessages_eq
    (forwardEvents result.events (adoptState result.state { core with scratch })) result.messages
  obtain ⟨calls, hstatus, hsilent⟩ := announceStatus_eq (result.messages.foldl pushMessage
    (forwardEvents result.events (adoptState result.state { core with scratch })))
  refine ⟨calls, ?_, ?_⟩
  · rw [absorb, hstatus, hpush, forwardEvents, hadopt]
    rfl
  · rw [absorb, hsilent, hpushed, announced_forwardEvents, hadopted]
    rfl

/-- What a list of feeds does, in terms of the parser's answers alone. -/
theorem feedAll_eq (parser : DriverParser Scratch) (now : Timestamp) (chunks : List JsString) :
    ∃ scratch calls, (core.feedAll parser now chunks).1 =
      { core with
        scratch := scratch
        state := parser.after now chunks core.state core.scratch
        transcript := core.transcript ++ parser.emitted now chunks core.state core.scratch
        calls := calls } ∧
    (core.feedAll parser now chunks).1.announced =
      core.announced ++ parser.published now chunks core.state core.scratch := by
  induction chunks generalizing core with
  | nil => exact ⟨core.scratch, core.calls, by simp [feedAll, DriverParser.emitted,
      DriverParser.after, DriverParser.published, DriverParser.answers]⟩
  | cons chunk rest ih =>
    unfold feedAll feedChunk
    cases hfeed : parser.feed now chunk core.state core.scratch with
    | error thrown =>
      have hanswers : parser.answers now (chunk :: rest) core.state core.scratch = [] :=
        parser.answers_cons_error now hfeed
      exact ⟨thrown.scratch, core.calls, by simp [Except.map, DriverParser.emitted,
        DriverParser.after, DriverParser.published, hanswers, announced]⟩
    | ok answer =>
      obtain ⟨result, scratch⟩ := answer
      obtain ⟨calls, habsorb, habsorbed⟩ := core.absorb_eq result scratch
      obtain ⟨last, calls', hrest, hpublished⟩ := ih (core.absorb result scratch)
      refine ⟨last, calls', ?_, ?_⟩
      · simp only [Except.map, hrest]
        simp only [habsorb, parser.after_cons now hfeed, parser.emitted_cons now hfeed,
          List.append_assoc]
      · simp only [Except.map, hpublished, habsorbed]
        simp only [habsorb, parser.published_cons now hfeed, List.append_assoc]

@[simp]
theorem exited_record (calls : List BusCall) : (core.record calls).exited = core.exited := rfl

@[simp]
theorem state_record (calls : List BusCall) : (core.record calls).state = core.state := rfl

@[simp]
theorem scratch_record (calls : List BusCall) : (core.record calls).scratch = core.scratch := rfl

@[simp]
theorem exited_setStatus (status : Status) : (core.setStatus status).exited = core.exited := by
  obtain ⟨calls, heq⟩ := core.setStatus_eq status
  rw [heq]

@[simp]
theorem state_setStatus (status : Status) :
    (core.setStatus status).state = core.state.withStatus status := by
  obtain ⟨calls, heq⟩ := core.setStatus_eq status
  rw [heq]

@[simp]
theorem scratch_setStatus (status : Status) : (core.setStatus status).scratch = core.scratch := by
  obtain ⟨calls, heq⟩ := core.setStatus_eq status
  rw [heq]

@[simp]
theorem exited_pushMessage (message : AssistantMessage) :
    (core.pushMessage message).exited = core.exited := rfl

@[simp]
theorem state_pushMessage (message : AssistantMessage) :
    (core.pushMessage message).state = core.state := rfl

@[simp]
theorem snd_feedAll (parser : DriverParser Scratch) (now : Timestamp) (chunks : List JsString) :
    (core.feedAll parser now chunks).2 = parser.throws now chunks core.state core.scratch := by
  induction chunks generalizing core with
  | nil => rfl
  | cons chunk rest ih =>
    unfold feedAll feedChunk DriverParser.throws
    cases parser.feed now chunk core.state core.scratch with
    | error _ => rfl
    | ok answer =>
      obtain ⟨calls, habsorb, _⟩ := core.absorb_eq answer.1 answer.2
      simp only [Except.map, ih]
      rw [habsorb]

@[simp]
theorem exited_feedAll (parser : DriverParser Scratch) (now : Timestamp) (chunks : List JsString) :
    (core.feedAll parser now chunks).1.exited = core.exited := by
  obtain ⟨scratch, calls, heq, _⟩ := core.feedAll_eq parser now chunks
  rw [heq]

@[simp]
theorem state_feedAll (parser : DriverParser Scratch) (now : Timestamp) (chunks : List JsString) :
    (core.feedAll parser now chunks).1.state =
      parser.after now chunks core.state core.scratch := by
  obtain ⟨scratch, calls, heq, _⟩ := core.feedAll_eq parser now chunks
  rw [heq]

@[simp]
theorem exited_markExited (code : ℤ) (payload : Json) :
    (core.markExited code payload).exited = true := rfl

@[simp]
theorem state_markExited (code : ℤ) (payload : Json) :
    (core.markExited code payload).state = core.state.withStatus .exited := rfl

end Effects

end AgentCore

end Cordyceps.Agents
