import Cordyceps.Agents.CoreSteps
import Cordyceps.Agents.SpawnAtomicity

/-!
# The two keys of an agent

Clients read an agent's state and transcript from the bus, under keys made of
its id. Every runtime keeps its own two keys up to date: what it last wrote is
what it has, after each of its turns.
-/

namespace Cordyceps.Agents

open Foundations Drivers

variable {Scratch : Type*}

/-- The two keys show what the agent has. -/
structure Mirrors (bus : JsString → Option BusValue) (core : AgentCore Scratch) : Prop where
  state : bus (agentKey core.id (js "state")) = some (.state core.state)
  transcript : bus (agentKey core.id (js "transcript")) = none ∧ core.transcript = [] ∨
    bus (agentKey core.id (js "transcript")) = some (.transcript core.transcript)

namespace AgentCore

/-- What the agent itself left under a key. -/
def wrote (core : AgentCore Scratch) (key : JsString) : Option BusValue :=
  JsMap.lastWrite (writesOf core.calls) key

/-- Code between two turns: the keys that are written are the two, and they are up to date
afterwards if they were before. -/
structure Publishes (before after : AgentCore Scratch) : Prop where
  id : after.id = before.id
  calls : ∃ calls, after.calls = before.calls ++ calls ∧ ∀ entry ∈ writesOf calls,
    entry.1 = agentKey before.id (js "state") ∨ entry.1 = agentKey before.id (js "transcript")
  mirrors : Mirrors before.wrote before → Mirrors after.wrote after

theorem writesOf_append (first second : List BusCall) :
    writesOf (first ++ second) = writesOf first ++ writesOf second :=
  List.filterMap_append

theorem state_ne_transcript (id : JsString) :
    agentKey id (js "state") ≠ agentKey id (js "transcript") := by
  rw [Ne, agentKey_inj]
  decide

namespace Publishes

variable {before after : AgentCore Scratch}

theorem wrote_eq {calls : List BusCall} (h : after.calls = before.calls ++ calls) (key : JsString) :
    after.wrote key = (JsMap.lastWrite (writesOf calls) key).or (before.wrote key) := by
  rw [wrote, h, writesOf_append, JsMap.lastWrite_append]
  rfl

theorem wrote_write {calls : List BusCall} {written : JsString} {value : BusValue}
    (h : after.calls = before.calls ++ calls) (hwrites : writesOf calls = [(written, value)])
    (key : JsString) :
    after.wrote key = if key = written then some value else before.wrote key := by
  rw [wrote_eq h, hwrites, ← List.nil_append [_], JsMap.lastWrite_concat]
  split <;> rfl

theorem trans {first second third : AgentCore Scratch} (h : Publishes first second)
    (h' : Publishes second third) : Publishes first third where
  id := h'.id.trans h.id
  calls := by
    obtain ⟨calls, hcalls, hwrites⟩ := h.calls
    obtain ⟨calls', hcalls', hwrites'⟩ := h'.calls
    refine ⟨calls ++ calls', by rw [hcalls', hcalls, List.append_assoc], ?_⟩
    intro entry hmem
    rw [writesOf_append, List.mem_append] at hmem
    rcases hmem with hmem | hmem
    · exact hwrites entry hmem
    · rw [← h.id]
      exact hwrites' entry hmem
  mirrors hold := h'.mirrors (h.mirrors hold)

/-- Only events are emitted. -/
theorem of_silent (hid : after.id = before.id) (hstate : after.state = before.state)
    (htranscript : after.transcript = before.transcript) {calls : List BusCall}
    (hcalls : after.calls = before.calls ++ calls) (hsilent : writesOf calls = []) :
    Publishes before after where
  id := hid
  calls := ⟨calls, hcalls, by simp [hsilent]⟩
  mirrors hold := by
    have hwrote : after.wrote = before.wrote := by
      funext key
      rw [wrote_eq hcalls, hsilent]
      rfl
    constructor
    · rw [hwrote, hid, hstate]
      exact hold.state
    · rw [hwrote, hid, htranscript]
      exact hold.transcript

/-- The state is written after it changed. -/
theorem of_state (hid : after.id = before.id) (htranscript : after.transcript = before.transcript)
    {calls : List BusCall} (hcalls : after.calls = before.calls ++ calls)
    (hwrites : writesOf calls = [(agentKey before.id (js "state"), .state after.state)]) :
    Publishes before after where
  id := hid
  calls := ⟨calls, hcalls, by simp [hwrites]⟩
  mirrors hold := by
    have hwrote := wrote_write hcalls hwrites
    constructor
    · rw [hid, hwrote, if_pos rfl]
    · rw [hid, hwrote, if_neg (state_ne_transcript _).symm, htranscript]
      exact hold.transcript

/-- The transcript is written after it grew. -/
theorem of_transcript (hid : after.id = before.id) (hstate : after.state = before.state)
    {calls : List BusCall} (hcalls : after.calls = before.calls ++ calls)
    (hwrites : writesOf calls =
      [(agentKey before.id (js "transcript"), .transcript after.transcript)]) :
    Publishes before after where
  id := hid
  calls := ⟨calls, hcalls, by simp [hwrites]⟩
  mirrors hold := by
    have hwrote := wrote_write hcalls hwrites
    constructor
    · rw [hid, hwrote, if_neg (state_ne_transcript _), hstate]
      exact hold.state
    · rw [hid, hwrote, if_pos rfl]
      exact .inr rfl

theorem refl (core : AgentCore Scratch) : Publishes core core :=
  of_silent rfl rfl rfl (List.append_nil _).symm rfl

end Publishes

section Methods

variable (core : AgentCore Scratch)

theorem publishes_emit (event : JsString) (value : BusValue) :
    Publishes core (core.record [.emit event value]) :=
  .of_silent rfl rfl rfl rfl rfl

theorem publishes_setStatus (status : Status) : Publishes core (core.setStatus status) := by
  unfold setStatus
  split
  · exact .refl core
  · exact .of_state rfl rfl rfl rfl

theorem publishes_pushMessage (message : AssistantMessage) :
    Publishes core (core.pushMessage message) :=
  .of_transcript rfl rfl rfl rfl

theorem publishes_markExited (code : ℤ) (payload : Json) :
    Publishes core (core.markExited code payload) := by
  refine .of_state (by rfl) (by rfl) (List.append_assoc _ _ _) ?_
  rfl

theorem publishes_pushMessages (messages : List AssistantMessage) :
    Publishes core (messages.foldl pushMessage core) := by
  induction messages generalizing core with
  | nil => exact .refl core
  | cons message rest ih => exact (publishes_pushMessage core message).trans (ih _)

theorem publishes_announceStatus : Publishes core core.announceStatus := by
  unfold announceStatus
  cases core.state.blocking with
  | none =>
    simp only
    split
    · exact publishes_emit core _ _
    · exact .refl core
  | some blocking =>
    have hblocked : Publishes core
        (core.record [.emit (agentKey core.id (js "blocked")) (.blocking blocking)]) :=
      publishes_emit core _ _
    simp only
    split
    · exact hblocked.trans (publishes_emit _ _ _)
    · exact hblocked

theorem publishes_absorb (result : ParseResult) (scratch : Scratch) :
    Publishes core (core.absorb result scratch) := by
  have hadopt : Publishes core (adoptState result.state { core with scratch }) := by
    unfold adoptState
    split
    · exact .of_state rfl rfl rfl rfl
    · exact .of_silent rfl rfl rfl (List.append_nil _).symm rfl
  have hforward : ∀ core : AgentCore Scratch, Publishes core (core.forwardEvents result.events) :=
    fun core ↦ .of_silent rfl rfl rfl rfl (by simp [writesOf])
  unfold absorb
  exact ((hadopt.trans (hforward _)).trans (publishes_pushMessages _ _)).trans
    (publishes_announceStatus _)

theorem publishes_feedAll (parser : DriverParser Scratch) (now : Timestamp)
    (chunks : List JsString) : Publishes core (core.feedAll parser now chunks).1 := by
  induction chunks generalizing core with
  | nil => exact .refl core
  | cons chunk rest ih =>
    unfold feedAll feedChunk
    cases parser.feed now chunk core.state core.scratch with
    | error thrown => exact .of_silent rfl rfl rfl (List.append_nil _).symm rfl
    | ok answer => exact (publishes_absorb core answer.1 answer.2).trans (ih _)

end Methods

/-- Every turn keeps a runtime's own keys up to date. -/
theorem publishes_closed (parser : DriverParser Scratch) :
    CoreClosed parser (@Publishes Scratch) where
  refl := .refl
  trans := .trans
  emit core _ _ := publishes_emit core _ _
  setStatus := publishes_setStatus
  pushMessage := publishes_pushMessage
  feedAll core := publishes_feedAll core parser
  markExited := publishes_markExited

end AgentCore

theorem dotless_state : (0x2E : CodeUnit) ∉ js "state" := by decide

theorem dotless_transcript : (0x2E : CodeUnit) ∉ js "transcript" := by decide

end Cordyceps.Agents
