import Cordyceps.Agents.CoreSteps
import Cordyceps.Agents.SharedParser
import Cordyceps.Drivers.CodexParser

/-!
# One idle event for each transition to idle

The contract of `AgentRuntime` says that `idle` is emitted when the agent transitioned to idle.
The event is emitted at the end of every feed that leaves the status idle, and nowhere else. So a
feed that finds the agent idle already repeats the event, and the controllers' own `setStatus`,
after a run or when the socket opens, makes the transition without one.
-/

namespace Cordyceps.Agents

open Foundations Foundations.LineFraming Foundations.StepMachine Drivers

/-! ## What the bus tells about idleness -/

/-- The published status turned idle, or `agent.<id>.idle` was emitted. -/
inductive IdleMark
  | transition
  | event
  deriving DecidableEq, Repr

/-- Each transition is followed by exactly one event, and there are no other events. -/
inductive Paired : List IdleMark → Prop
  | nil : Paired []
  | cons {rest : List IdleMark} (h : Paired rest) : Paired (.transition :: .event :: rest)

@[simp]
theorem not_paired_event (rest : List IdleMark) : ¬ Paired (.event :: rest) := nofun

@[simp]
theorem not_paired_transition : ¬ Paired [.transition] := nofun

@[simp]
theorem paired_cons (rest : List IdleMark) :
    Paired (.transition :: .event :: rest) ↔ Paired rest := by
  constructor
  · intro h
    cases h with
    | cons h => exact h
  · exact .cons

theorem Paired.append_iff {marks : List IdleMark} (h : Paired marks) (added : List IdleMark) :
    Paired (marks ++ added) ↔ Paired added := by
  induction h with
  | nil => rfl
  | cons h ih =>
    rw [List.cons_append, List.cons_append, paired_cons]
    exact ih

/-- The published status changes from one to the other. -/
def turns (old new : Status) : List IdleMark :=
  if new = .idle ∧ old ≠ .idle then [.transition] else []

/-- What was heard on the bus: the last published status, and the marks in order. -/
structure IdleLog where
  published : Option Status
  marks : List IdleMark
  deriving DecidableEq

/-- `agent.<id>.idle`, whatever it carries. -/
def isIdleEvent (id : JsString) : BusCall → Bool
  | .emit event _ => event = agentKey id (js "idle")
  | .set _ _ => false

/-- The first published status is that of the constructor, which is no transition. -/
def IdleLog.hear (id : JsString) (log : IdleLog) (call : BusCall) : IdleLog :=
  match AgentCore.announcedState id call with
  | some state =>
    ⟨some state.status, log.marks ++ (log.published.map fun old ↦ turns old state.status).getD []⟩
  | none => if isIdleEvent id call then { log with marks := log.marks ++ [.event] } else log

namespace AgentCore

variable {Scratch : Type*}

def idleLog (core : AgentCore Scratch) : IdleLog :=
  core.calls.foldl (IdleLog.hear core.id) ⟨none, []⟩

/-- On the bus, every transition to idle is followed by one idle event, which has no other use. -/
def IdlesPaired (core : AgentCore Scratch) : Prop := Paired core.idleLog.marks

/-- The bus knows the status, and hears these marks on the way to `next`. -/
def Hears (core : AgentCore Scratch) (added : List IdleMark) (next : AgentCore Scratch) : Prop :=
  ∀ marks, core.idleLog = ⟨some core.state.status, marks⟩ →
    next.idleLog = ⟨some next.state.status, marks ++ added⟩

namespace Hears

variable {first second third : AgentCore Scratch} {added others : List IdleMark}

theorem refl (core : AgentCore Scratch) : Hears core [] core := by
  intro marks hlog
  rw [hlog, List.append_nil]

theorem trans (h : Hears first added second) (hnext : Hears second others third) :
    Hears first (added ++ others) third := by
  intro marks hlog
  rw [hnext _ (h marks hlog), List.append_assoc]

/-- Fields that are neither heard nor the status may differ. -/
theorem congr (h : Hears first added second) {other : AgentCore Scratch}
    (hlog : other.idleLog = first.idleLog) (hstatus : other.state.status = first.state.status) :
    Hears other added second := by
  intro marks hother
  rw [hlog, hstatus] at hother
  exact h marks hother

end Hears

section Methods

variable (core : AgentCore Scratch)

theorem idleLog_record (calls : List BusCall) :
    (core.record calls).idleLog = calls.foldl (IdleLog.hear core.id) core.idleLog := by
  unfold idleLog record
  exact List.foldl_append

/-- A call under another name is not heard. -/
theorem hear_emit {name : JsString} (hstate : name ≠ js "state") (hidle : name ≠ js "idle")
    (value : BusValue) (log : IdleLog) :
    log.hear core.id (.emit (agentKey core.id name) value) = log := by
  have hsilent : announcedState core.id (.emit (agentKey core.id name) value) = none := by
    cases value <;> simp [announcedState, agentKey_inj, hstate]
  have hother : isIdleEvent core.id (.emit (agentKey core.id name) value) = false := by
    simp [isIdleEvent, agentKey_inj, hidle]
  simp only [IdleLog.hear, hsilent, hother]
  rfl

theorem hears_emit {name : JsString} (hstate : name ≠ js "state") (hidle : name ≠ js "idle")
    (value : BusValue) : Hears core [] (core.record [.emit (agentKey core.id name) value]) := by
  intro marks hlog
  rw [idleLog_record, List.foldl_cons, hear_emit core hstate hidle, List.append_nil]
  exact hlog

/-- Another state is published. -/
theorem hears_publishState (state : AgentState) :
    Hears core (turns core.state.status state.status) { core with state }.publishState := by
  intro marks hlog
  have hstate : ({ core with state : AgentCore Scratch }).idleLog = core.idleLog := rfl
  rw [publishState, idleLog_record, hstate, hlog]
  simp [IdleLog.hear, announcedState, isIdleEvent]

theorem hears_setStatus (status : Status) :
    Hears core (turns core.state.status status) (core.setStatus status) := by
  unfold setStatus
  split
  · rename_i hsame
    have hturns : turns core.state.status status = [] := by simp [turns, hsame]
    rw [hturns]
    exact .refl core
  · exact hears_publishState core (core.state.withStatus status)

theorem hears_markExited (code : ℤ) (payload : Json) :
    Hears core [] (core.markExited code payload) := by
  have hpublish := hears_publishState { core with exited := true, exitCode := some code }
    (core.state.withStatus .exited)
  exact (hpublish.trans (hears_emit _ (by decide) (by decide) (.data payload))).congr rfl rfl

theorem hears_pushMessage (message : AssistantMessage) :
    Hears core [] (core.pushMessage message) := by
  intro marks hlog
  rw [pushMessage, idleLog_record, List.foldl_cons, hear_emit _ (by decide) (by decide),
    List.append_nil]
  exact hlog

theorem hears_pushMessages (messages : List AssistantMessage) :
    Hears core [] (messages.foldl pushMessage core) := by
  induction messages generalizing core with
  | nil => exact .refl core
  | cons message rest ih => exact (hears_pushMessage core message).trans (ih _)

theorem hears_adoptState (state : Option AgentState) :
    Hears core (turns core.state.status (state.getD core.state).status) (core.adoptState state) := by
  cases state with
  | none =>
    have hturns : turns core.state.status core.state.status = [] := by simp [turns]
    rw [Option.getD_none, hturns]
    exact .refl core
  | some state => exact hears_publishState core state

/-- Events of the parser are heard if they are called `idle`. -/
def idleEvents (events : List ParserEvent) : List IdleMark :=
  (events.filter fun ev ↦ ev.kind = js "idle").map fun _ ↦ .event

theorem hear_forwarded (events : List ParserEvent) (log : IdleLog) :
    (events.map fun ev ↦ BusCall.emit (agentKey core.id ev.kind) (.data ev.data)).foldl
      (IdleLog.hear core.id) log = { log with marks := log.marks ++ idleEvents events } := by
  induction events generalizing log with
  | nil => simp [idleEvents]
  | cons ev rest ih =>
    rw [List.map_cons, List.foldl_cons, ih]
    by_cases hkind : ev.kind = js "idle"
    · simp [IdleLog.hear, announcedState, isIdleEvent, idleEvents, hkind]
    · simp [IdleLog.hear, announcedState, isIdleEvent, idleEvents, agentKey_inj, hkind]

theorem hears_forwardEvents (events : List ParserEvent) :
    Hears core (idleEvents events) (core.forwardEvents events) := by
  intro marks hlog
  rw [forwardEvents, idleLog_record, hear_forwarded, hlog]
  rfl

/-- What is heard at the end of a feed. -/
def idleNow (status : Status) : List IdleMark := if status = .idle then [.event] else []

theorem hears_announceStatus : Hears core (idleNow core.state.status) core.announceStatus := by
  have hblocked : ∃ blocked : AgentCore Scratch, Hears core [] blocked ∧ blocked.id = core.id ∧
      blocked.state = core.state ∧ core.announceStatus =
        if core.state.status = .idle then
          blocked.record [.emit (agentKey core.id (js "idle")) (.state core.state)]
        else blocked := by
    unfold announceStatus
    cases core.state.blocking with
    | none => exact ⟨core, .refl core, rfl, rfl, rfl⟩
    | some blocking =>
      exact ⟨_, hears_emit core (by decide) (by decide) (.blocking blocking), rfl, rfl, rfl⟩
  obtain ⟨blocked, hsilent, hid, hstate, heq⟩ := hblocked
  rw [heq]
  intro marks hlog
  have hbefore := hsilent marks hlog
  rw [List.append_nil, hstate] at hbefore
  by_cases hidle : core.state.status = .idle
  · rw [if_pos hidle, idleNow, if_pos hidle, idleLog_record, hbefore, state_record, hstate]
    simp [IdleLog.hear, announcedState, isIdleEvent, agentKey_idle_ne_state, hid]
  · rw [if_neg hidle, idleNow, if_neg hidle, hbefore, List.append_nil, hstate]

/-- What is heard of a feed, from the parser's answer. -/
def answerMarks (result : ParseResult) (state : AgentState) : List IdleMark :=
  turns state.status (result.state.getD state).status ++
    (idleEvents result.events ++ idleNow (result.state.getD state).status)

theorem hears_absorb (result : ParseResult) (scratch : Scratch) :
    Hears core (answerMarks result core.state) (core.absorb result scratch) := by
  have hadopt := hears_adoptState { core with scratch } result.state
  have hforward := hears_forwardEvents (adoptState result.state { core with scratch }) result.events
  have hpush := hears_pushMessages
    ((adoptState result.state { core with scratch }).forwardEvents result.events) result.messages
  have hannounce := hears_announceStatus (result.messages.foldl pushMessage
    ((adoptState result.state { core with scratch }).forwardEvents result.events))
  have hstatus : (result.messages.foldl pushMessage ((adoptState result.state
      { core with scratch }).forwardEvents result.events)).state = result.state.getD core.state := by
    obtain ⟨_, hadopted, _⟩ := adoptState_eq { core with scratch } result.state
    obtain ⟨_, hpushed, _⟩ := pushMessages_eq
      ((adoptState result.state { core with scratch }).forwardEvents result.events) result.messages
    rw [hpushed, forwardEvents, hadopted]
    rfl
  rw [hstatus] at hannounce
  exact (hadopt.trans (hforward.trans (hpush.trans hannounce))).congr rfl rfl

end Methods

end AgentCore

/-! ## Feeds -/

/-- The answer leaves the agent idle only if it was not, and the parser has no idle events of its
own. -/
structure IdlesOnce (result : ParseResult) (state : AgentState) : Prop where
  turned : (result.state.getD state).status = .idle → state.status ≠ .idle
  quiet : ∀ ev ∈ result.events, ev.kind ≠ js "idle"

/-- All answers do so, up to the first throw. -/
def FeedsIdleOnce {Scratch : Type*} (parser : DriverParser Scratch) (now : Timestamp) :
    List JsString → AgentState → Scratch → Prop
  | [], _, _ => True
  | chunk :: rest, state, scratch =>
    match parser.feed now chunk state scratch with
    | .ok (result, next) =>
      IdlesOnce result state ∧ FeedsIdleOnce parser now rest (result.state.getD state) next
    | .error _ => True

namespace AgentCore

theorem idleEvents_eq_nil_iff (events : List ParserEvent) :
    idleEvents events = [] ↔ ∀ ev ∈ events, ev.kind ≠ js "idle" := by
  simp [idleEvents, List.filter_eq_nil_iff]

theorem idleEvents_cons_of_ne_nil {events : List ParserEvent} (h : idleEvents events ≠ []) :
    ∃ n, idleEvents events = .event :: List.replicate n .event := by
  have hall : idleEvents events = List.replicate (idleEvents events).length .event := by
    rw [idleEvents, List.map_const', List.length_replicate]
  cases hcount : (idleEvents events).length with
  | zero => exact absurd (List.eq_nil_of_length_eq_zero hcount) h
  | succ n =>
    rw [hcount, List.replicate_succ] at hall
    exact ⟨n, hall⟩

theorem paired_answerMarks_iff (result : ParseResult) (state : AgentState) (rest : List IdleMark) :
    Paired (answerMarks result state ++ rest) ↔ IdlesOnce result state ∧ Paired rest := by
  by_cases hquiet : idleEvents result.events = []
  · have hnone := (idleEvents_eq_nil_iff result.events).mp hquiet
    have honce : IdlesOnce result state ↔
        ((result.state.getD state).status = .idle → state.status ≠ .idle) :=
      ⟨IdlesOnce.turned, fun h ↦ ⟨h, hnone⟩⟩
    rw [honce, answerMarks, hquiet, List.nil_append, turns, idleNow]
    by_cases hidle : (result.state.getD state).status = .idle
    · by_cases hbefore : state.status = .idle
      · simp [hidle, hbefore]
      · simp [hidle, hbefore]
    · simp [hidle]
  · obtain ⟨n, hevents⟩ := idleEvents_cons_of_ne_nil hquiet
    have hloud : ¬ IdlesOnce result state :=
      fun h ↦ hquiet ((idleEvents_eq_nil_iff result.events).mpr h.quiet)
    rw [answerMarks, hevents, turns, idleNow]
    by_cases hturned : (result.state.getD state).status = .idle ∧ state.status ≠ .idle
    · rw [if_pos hturned, if_pos hturned.1]
      simp only [hloud, false_and, iff_false]
      cases n <;> simp [List.replicate_succ]
    · rw [if_neg hturned]
      simp [hloud]

variable {Scratch : Type*} {parser : DriverParser Scratch}

/-- The idle events of a list of feeds pair with transitions exactly if each feed idles once. -/
theorem hears_feedAll (core : AgentCore Scratch) (now : Timestamp) (chunks : List JsString) :
    ∃ added, Hears core added (core.feedAll parser now chunks).1 ∧
      (Paired added ↔ FeedsIdleOnce parser now chunks core.state core.scratch) := by
  induction chunks generalizing core with
  | nil => exact ⟨[], .refl core, iff_of_true .nil trivial⟩
  | cons chunk rest ih =>
    unfold feedAll feedChunk FeedsIdleOnce
    cases hfeed : parser.feed now chunk core.state core.scratch with
    | error error => exact ⟨[], .refl core, iff_of_true .nil trivial⟩
    | ok answer =>
      obtain ⟨result, next⟩ := answer
      obtain ⟨calls, habsorb, _⟩ := core.absorb_eq result next
      obtain ⟨added, hrest, hpaired⟩ := ih (core.absorb result next)
      have hstate : (core.absorb result next).state = result.state.getD core.state := by
        rw [habsorb]
      have hscratch : (core.absorb result next).scratch = next := by rw [habsorb]
      refine ⟨_, (hears_absorb core result next).trans hrest, ?_⟩
      rw [paired_answerMarks_iff, hpaired, hstate, hscratch]

/-! ## Turns -/

/-- What keeping house changes in the status is heard. -/
theorem Housekeeping.hears {core next : AgentCore Scratch} (h : Housekeeping core next) :
    Hears core (turns core.state.status next.state.status) next := by
  have hsame : turns core.state.status core.state.status = [] := by simp [turns]
  cases h with
  | refl =>
    rw [hsame]
    exact .refl core
  | output chunk =>
    rw [state_record, hsame]
    exact hears_emit core (by decide) (by decide) _
  | setStatus status =>
    rw [state_setStatus]
    exact hears_setStatus core status
  | markExited code payload =>
    have hexited : turns core.state.status (core.markExited code payload).state.status = [] := by
      simp [turns, AgentState.withStatus]
    rw [hexited]
    exact hears_markExited core code payload

/-- A turn either feeds, or what it does to the status is all that is heard. -/
theorem Turned.hears {core next : AgentCore Scratch} {fed : Timestamp × List JsString}
    (h : Turned parser core fed next) : ∃ added, Hears core added next ∧
      (Paired added ↔ FeedsIdleOnce parser fed.1 fed.2 core.state core.scratch ∧
        (fed.2 = [] → turns core.state.status next.state.status = [])) := by
  cases h with
  | keeps hkept now =>
    refine ⟨_, hkept.hears, ?_⟩
    simp only [FeedsIdleOnce, true_and, forall_const]
    unfold turns
    split <;> simp [Paired.nil]
  | pushes message now =>
    refine ⟨[], hears_pushMessage core message, iff_of_true .nil ⟨trivial, fun _ ↦ ?_⟩⟩
    rw [state_pushMessage]
    simp [turns]
  | @feeds before hkept hstate hscratch now chunks =>
    have hbefore := hkept.hears
    have hsame : turns core.state.status core.state.status = [] := by simp [turns]
    rw [hstate, hsame] at hbefore
    obtain ⟨added, hfed, hpaired⟩ := @hears_feedAll _ parser before now chunks
    refine ⟨_, hbefore.trans hfed, ?_⟩
    rw [List.nil_append, hpaired, hstate, hscratch, iff_self_and]
    rintro - (hnone : chunks = [])
    rw [hnone, feedAll, hstate, hsame]

end AgentCore

open AgentCore

/-! ## The controllers' own transitions -/

section Own

variable {Scratch : Type*} {parser : DriverParser Scratch}

theorem turns_eq_nil_iff (old new : Status) : turns old new = [] ↔ (new = .idle → old = .idle) := by
  unfold turns
  split <;> simp_all

namespace ExecAgent

/-- The `finally` block of a submit drops a busy agent to idle. -/
def SetsIdle (agent : ExecAgent Scratch) : ExecEvent → Prop
  | .settle _ => agent.core.state.status = .busy
  | _ => False

theorem state_proceed (agent : ExecAgent Scratch) (k : ℕ) (launch : Launch)
    (hidle : (agent.proceed k launch).core.state.status = .idle) :
    agent.core.state.status = .idle := by
  cases launch with
  | buildThrows => exact hidle
  | spawnThrows spec => simp [proceed, onSubmit, AgentState.withStatus] at hidle
  | fails spec => simp [proceed, spawn, onSubmit, AgentState.withStatus] at hidle
  | starts spec => simp [proceed, spawn, onSubmit, AgentState.withStatus] at hidle

theorem state_submit (agent : ExecAgent Scratch) (opts : SubmitOptions) (launch : Launch)
    (hidle : (agent.submit opts launch).core.state.status = .idle) :
    agent.core.state.status = .idle := by
  unfold submit at hidle
  split at hidle
  · exact hidle
  · split at hidle
    · split at hidle
      · rw [core_signalActive] at hidle
        exact hidle
      · exact hidle
    · exact state_proceed (agent.push _) _ _ hidle

theorem turns_of_step {agent next : ExecAgent Scratch} {event : ExecEvent}
    (hstep : agent.step parser event = some next) (hfed : (agent.fed event).2 = []) :
    turns agent.core.state.status next.core.state.status = [] ↔ ¬ agent.SetsIdle event := by
  rw [turns_eq_nil_iff]
  cases (turn_of_step hstep).2 with
  | settle hphase =>
    simp only [SetsIdle, finish, onSubmit]
    by_cases hbusy : agent.core.state.status = .busy
    · simp [hbusy, AgentState.withStatus]
    · simp [hbusy]
  | submit opts launch => exact iff_of_true (agent.state_submit opts launch) id
  | resume launch hphase => exact iff_of_true (agent.state_proceed _ launch) id
  | data now chunk hchild hlife =>
    rename_i k child
    simp only [fed, hchild] at hfed
    refine iff_of_true ?_ id
    unfold onData
    cases hparse : child.spec.parseOutput with
    | jsonl =>
      rw [if_pos hparse] at hfed
      simp only [hfed]
      exact id
    | json => exact id
    | text => exact id
  | exit now code signal hchild hlife =>
    rename_i k child
    simp only [fed, hchild] at hfed
    refine iff_of_true ?_ id
    rw [core_onExit, flushOutput]
    cases hparse : child.spec.parseOutput with
    | text =>
      simp only [say]
      split <;> exact id
    | json => simp [hparse] at hfed
    | jsonl => simp [hparse] at hfed
  | error hchild =>
    refine iff_of_true (fun hidle ↦ ?_) id
    unfold onError at hidle
    split at hidle <;> exact hidle
  | timer hchild harmed => exact iff_of_true id id
  | interrupt =>
    refine iff_of_true (fun hidle ↦ ?_) id
    unfold interrupt at hidle
    split at hidle
    · exact hidle
    · rw [core_signalActive] at hidle
      exact hidle
  | kill signal =>
    refine iff_of_true (fun hidle ↦ ?_) id
    unfold kill at hidle
    split at hidle
    · exact hidle
    · simp [markExited, publishState, AgentState.withStatus] at hidle

end ExecAgent

namespace HttpAgent

/-- The `finally` block of a submit drops a busy agent to idle. -/
def SetsIdle (agent : HttpAgent Scratch) : HttpEvent → Prop
  | .settle _ => agent.core.state.status = .busy
  | _ => False

theorem turns_of_step {agent next : HttpAgent Scratch} {event : HttpEvent}
    (hstep : agent.step parser event = some next) (hfed : (agent.fed event).2 = []) :
    turns agent.core.state.status next.core.state.status = [] ↔ ¬ agent.SetsIdle event := by
  rw [turns_eq_nil_iff]
  cases turn_of_step hstep with
  | settle hphase =>
    simp only [SetsIdle, finish, onSubmit]
    by_cases hbusy : agent.core.state.status = .busy
    · simp [hbusy, AgentState.withStatus]
    · simp [hbusy]
  | submit opts prompt =>
    rw [core_submit]
    exact iff_of_true id id
  | controlDone hphase =>
    refine iff_of_true (fun hidle ↦ ?_) id
    simp [post, onSubmit, AgentState.withStatus] at hidle
  | response now ok contentType hasBody hphase =>
    refine iff_of_true ?_ id
    unfold onResponse
    cases ok with
    | false => exact id
    | true =>
      cases hasBody with
      | true => exact id
      | false => simp [fed] at hfed
  | chunk now text hphase =>
    rename_i k ndjson buffer
    simp only [fed, hphase] at hfed
    refine iff_of_true ?_ id
    unfold onChunk
    cases ndjson with
    | false => exact id
    | true =>
      rw [if_pos rfl] at hfed
      simp only [hfed]
      exact id
  | streamEnd now hphase => simp [fed, hphase] at hfed
  | interrupt =>
    refine iff_of_true (fun hidle ↦ ?_) id
    unfold interrupt at hidle
    split at hidle
    · exact hidle
    · rw [core_abortActive] at hidle
      exact hidle
  | kill signal =>
    refine iff_of_true (fun hidle ↦ ?_) id
    unfold kill at hidle
    split at hidle
    · exact hidle
    · simp [markExited, publishState, AgentState.withStatus] at hidle
  | resume hphase => exact iff_of_true id id
  | write data hphase => exact iff_of_true id id
  | controlThrow hphase => exact iff_of_true id id
  | fetchFail hphase => exact iff_of_true id id
  | readFail hphase => exact iff_of_true id id
  | timer hphase => exact iff_of_true id id
  | rawWrite data => exact iff_of_true id id

end HttpAgent

namespace PtyAgent

theorem turns_of_step {agent next : PtyAgent Scratch} {event : PtyEvent}
    (hstep : agent.step parser event = some next) (hfed : (fed event).2 = []) :
    turns agent.core.state.status next.core.state.status = [] := by
  rw [turns_eq_nil_iff]
  cases (turn_of_step hstep).2 with
  | start spawns hstarted => exact id
  | call event hcall =>
    obtain ⟨submits, crashed, rfl⟩ := call_eq hcall
    exact id
  | controlWrite data => exact id
  | rawWrite data =>
    unfold rawWrite
    split <;> exact id
  | data now chunk hlife => cases hfed
  | exit code signal hlife =>
    intro hidle
    simp [onPtyExit, markExited, publishState, AgentState.withStatus] at hidle
  | kill signal =>
    unfold kill
    split <;> exact id

end PtyAgent

namespace WsAgent

/-- An open socket makes a starting agent idle. -/
def SetsIdle (agent : WsAgent Scratch) : WsEvent → Prop
  | .open => agent.core.state.status = .starting
  | _ => False

theorem idle_onConnectionClosed {agent : WsAgent Scratch} {code : ℤ}
    (hidle : (agent.onConnectionClosed code).core.state.status = .idle) :
    agent.core.state.status = .idle := by
  unfold onConnectionClosed at hidle
  split at hidle
  · exact hidle
  · simp [markExited, publishState, AgentState.withStatus] at hidle

theorem turns_of_step {agent next : WsAgent Scratch} {event : WsEvent}
    (hstep : agent.step parser event = some next) (hfed : (fed event).2 = []) :
    turns agent.core.state.status next.core.state.status = [] ↔ ¬ agent.SetsIdle event := by
  rw [turns_eq_nil_iff]
  cases (turn_of_step hstep).2 with
  | «open» hsocket hstate =>
    simp only [SetsIdle, onOpen]
    by_cases hstarting : agent.core.state.status = .starting
    · simp [hstarting, AgentState.withStatus]
    · simp [hstarting]
  | start launch validUrl hphase =>
    rw [core_start]
    exact iff_of_true id id
  | delayOver validUrl hphase =>
    rw [core_connectWs]
    exact iff_of_true id id
  | serverError hserver => exact iff_of_true id id
  | serverExit code hserver hlife => exact iff_of_true idle_onConnectionClosed id
  | error hsocket =>
    refine iff_of_true ?_ id
    unfold onError
    split
    · exact id
    · rw [core_failStart]
      exact id
  | message now text hsocket hstate => cases hfed
  | close code hsocket hhandled => exact iff_of_true idle_onConnectionClosed id
  | connectTimer hsocket harmed =>
    refine iff_of_true ?_ id
    unfold onConnectTimer
    rw [core_failStart]
    exact id
  | call event hcall =>
    obtain ⟨submits, crashed, rfl⟩ := call_eq hcall
    exact iff_of_true id id
  | rawWrite data =>
    refine iff_of_true ?_ id
    unfold rawWrite
    split
    · split <;> exact id
    · exact id
  | kill signal =>
    refine iff_of_true ?_ id
    unfold kill
    split <;> exact id
  | killTimer hclosing => exact iff_of_true idle_onConnectionClosed id

end WsAgent

end Own

/-! ## Whole runs -/

section Runs

variable {Scratch Agent Event : Type*}

/-- A turn does not set the status idle itself, and every chunk it feeds idles at most once. -/
def IdlesByFeeds (parser : DriverParser Scratch) (core : Agent → AgentCore Scratch)
    (fed : Agent → Event → Timestamp × List JsString) (setsIdle : Agent → Event → Prop)
    (agent : Agent) (event : Event) : Prop :=
  ¬ setsIdle agent event ∧
    FeedsIdleOnce parser (fed agent event).1 (fed agent event).2 (core agent).state
      (core agent).scratch

/-- Idle events mark idle transitions, in all states of a run of the controller next to other agents
of the driver, exactly if all turns of the run idle by feeds. -/
def IdlesPairedIff (parser : DriverParser Scratch) (turn : Agent → Event → Option Agent)
    (put : Scratch → Agent → Agent) (core : Agent → AgentCore Scratch)
    (fed : Agent → Event → Timestamp × List JsString) (setsIdle : Agent → Event → Prop)
    (agent : Agent) : Prop :=
  ∀ schedule, Throughout (SharedEvent.step turn put) (fun agent ↦ (core agent).IdlesPaired) agent
      schedule ↔
    StepsMeet (SharedEvent.step turn put)
      (SharedEvent.OnOwn (IdlesByFeeds parser core fed setsIdle)) agent schedule

/-- The bus knows the status, and its idle events pair with transitions. -/
def AgentCore.IdleSound (core : AgentCore Scratch) : Prop :=
  ∃ marks, core.idleLog = ⟨some core.state.status, marks⟩ ∧ Paired marks

/-- A turn keeps this, or breaks it at once. -/
theorem idleSound_of_turned {parser : DriverParser Scratch} {core next : AgentCore Scratch}
    {fed : Timestamp × List JsString} (h : Turned parser core fed next) (hsound : core.IdleSound) :
    (next.IdleSound ↔ FeedsIdleOnce parser fed.1 fed.2 core.state core.scratch ∧
      (fed.2 = [] → turns core.state.status next.state.status = [])) ∧
    (next.IdlesPaired → next.IdleSound) := by
  obtain ⟨marks, hlog, hpaired⟩ := hsound
  obtain ⟨added, hheard, hiff⟩ := h.hears
  have hnext := hheard marks hlog
  have hadded : next.IdlesPaired ↔ Paired added := by
    rw [IdlesPaired, hnext]
    exact hpaired.append_iff added
  have hsound : next.IdlesPaired → next.IdleSound := by
    intro hidles
    rw [IdlesPaired, hnext] at hidles
    exact ⟨_, hnext, hidles⟩
  refine ⟨?_, hsound⟩
  rw [← hiff, ← hadded]
  refine ⟨?_, hsound⟩
  rintro ⟨others, hothers, hall⟩
  rw [IdlesPaired, hothers]
  exact hall

theorem idleSound_announce {core : AgentCore Scratch} (hcalls : core.calls = [])
    (driverId cwd : JsString) (mode : DriverMode) :
    (core.announce driverId cwd mode).IdleSound := by
  have hlog : core.idleLog = ⟨none, []⟩ := by
    rw [idleLog, hcalls]
    rfl
  refine ⟨[], ?_, .nil⟩
  simp only [announce, publishState, idleLog_record, hlog]
  simp [IdleLog.hear, announcedState, isIdleEvent]

/-- It is enough to know when the controller sets the status idle without a feed. -/
theorem idlesPairedIff {parser : DriverParser Scratch} {turn : Agent → Event → Option Agent}
    {put : Scratch → Agent → Agent} {core : Agent → AgentCore Scratch}
    {fed : Agent → Event → Timestamp × List JsString} {setsIdle : Agent → Event → Prop}
    (hturned : ∀ agent event next, turn agent event = some next →
      Turned parser (core agent) (fed agent event) (core next))
    (hturns : ∀ agent event next, turn agent event = some next → (fed agent event).2 = [] →
      (turns (core agent).state.status (core next).state.status = [] ↔ ¬ setsIdle agent event))
    (hfed : ∀ agent event, setsIdle agent event → (fed agent event).2 = [])
    (hput : ∀ scratch agent, core (put scratch agent) = { core agent with scratch })
    {agent : Agent} (hagent : (core agent).IdleSound) :
    IdlesPairedIff parser turn put core fed setsIdle agent := by
  have hkeeps : ∀ agent event next, (core agent).IdleSound → turn agent event = some next →
      ((core next).IdleSound ↔ IdlesByFeeds parser core fed setsIdle agent event) := by
    intro agent event next hsound hnext
    rw [(idleSound_of_turned (hturned agent event next hnext) hsound).1, IdlesByFeeds, and_comm]
    refine and_congr_left' ⟨fun hquiet hsets ↦ ?_, fun hquiet hnone ↦ ?_⟩
    · exact (hturns agent event next hnext (hfed agent event hsets)).mp
        (hquiet (hfed agent event hsets)) hsets
    · exact (hturns agent event next hnext hnone).mpr hquiet
  intro schedule
  apply @SharedEvent.throughout_iff _ _ _ turn put _ (fun agent ↦ (core agent).IdleSound)
  · intro agent event next hsound hidles hnext
    exact (hkeeps agent event next hsound hnext).mpr hidles
  · intro agent event next hsound hidles hnext hpaired
    exact hidles ((hkeeps agent event next hsound hnext).mp
      ((idleSound_of_turned (hturned agent event next hnext) hsound).2 hpaired))
  · intro scratch agent hsound
    rw [hput]
    exact hsound
  · rintro agent ⟨marks, hlog, hpaired⟩
    rw [IdlesPaired, hlog]
    exact hpaired
  · exact hagent

end Runs

/-- For each of the four controllers under any driver: in all states of a run, every transition of
the published status to idle was followed by exactly one idle event, and no other idle event
occurred, exactly if every feed of the run that leaves the agent idle found it otherwise, the
parser emits no event called `idle`, no submit drops the status to idle by itself, and no socket
opens on a starting agent. -/
theorem idle_events_iff {Scratch : Type*} (parser : DriverParser Scratch)
    (id driverId cwd : JsString) :
    (∀ env, IdlesPairedIff parser (ExecAgent.step parser) ExecAgent.putScratch ExecAgent.core
      ExecAgent.fed ExecAgent.SetsIdle (.create parser id driverId cwd env)) ∧
    (∀ spec, IdlesPairedIff parser (HttpAgent.step parser) HttpAgent.putScratch HttpAgent.core
      HttpAgent.fed HttpAgent.SetsIdle (.create parser id driverId cwd spec)) ∧
    (∀ options, IdlesPairedIff parser (PtyAgent.step parser) PtyAgent.putScratch PtyAgent.core
      (fun _ ↦ PtyAgent.fed) (fun _ _ ↦ False) (.create parser id driverId cwd options)) ∧
    ∀ env spec, IdlesPairedIff parser (WsAgent.step parser) WsAgent.putScratch WsAgent.core
      (fun _ ↦ WsAgent.fed) WsAgent.SetsIdle (.create parser id driverId cwd env spec) := by
  refine ⟨?_, ?_, ?_, ?_⟩
  · intro env
    refine idlesPairedIff (fun _ _ _ ↦ ExecAgent.turned_of_step)
      (fun _ _ _ ↦ ExecAgent.turns_of_step) ?_ (fun _ _ ↦ rfl) (idleSound_announce rfl _ _ _)
    intro agent event hsets
    cases event with
    | settle k => rfl
    | _ => cases hsets
  · intro spec
    refine idlesPairedIff (fun _ _ _ ↦ HttpAgent.turned_of_step)
      (fun _ _ _ ↦ HttpAgent.turns_of_step) ?_ (fun _ _ ↦ rfl) (idleSound_announce rfl _ _ _)
    intro agent event hsets
    cases event with
    | settle k => rfl
    | _ => cases hsets
  · intro options
    refine idlesPairedIff (fun _ _ _ ↦ PtyAgent.turned_of_step) ?_ (fun _ _ ↦ False.elim)
      (fun _ _ ↦ rfl) (idleSound_announce rfl _ _ _)
    intro agent event next hstep hfed
    exact iff_of_true (PtyAgent.turns_of_step hstep hfed) not_false
  · intro env spec
    refine idlesPairedIff (fun _ _ _ ↦ WsAgent.turned_of_step)
      (fun _ _ _ ↦ WsAgent.turns_of_step) ?_ (fun _ _ ↦ rfl) (idleSound_announce rfl _ _ _)
    intro agent event hsets
    cases event with
    | «open» => rfl
    | _ => cases hsets

/-- A run of plain text ends without an idle event: the agent is idle before it and after it, and
nothing was emitted. -/
theorem text_run_without_idle_event :
    ¬ Throughout (ExecAgent.step codexParser) (fun agent ↦ agent.core.IdlesPaired)
        (.create codexParser (js "a") (js "codex") (js "/") .empty)
        [.submit ⟨true, false⟩ (.starts ⟨js "codex", [], js "/", .empty, none, .text⟩),
          .data 0 0 (js "hi"), .exit 0 0 (some 0) none, .settle 0] := by
  intro h
  have hmarks : (run (ExecAgent.step codexParser)
      (.create codexParser (js "a") (js "codex") (js "/") .empty)
      [.submit ⟨true, false⟩ (.starts ⟨js "codex", [], js "/", .empty, none, .text⟩),
        .data 0 0 (js "hi"), .exit 0 0 (some 0) none, .settle 0]).any (fun agent ↦
          agent.core.idleLog.marks == [.transition]) = true := by
    decide +kernel
  obtain ⟨agent, hrun, hlast⟩ := (Option.any_eq_true _ _).mp hmarks
  have hpaired := h.last hrun
  rw [IdlesPaired, beq_iff_eq.mp hlast] at hpaired
  exact not_paired_transition hpaired

end Cordyceps.Agents
