import Cordyceps.Agents.Types
import Cordyceps.Foundations.JsMap

/-!
# The driver interface

A driver adapts one CLI family. Its parser is one object per driver, so memory
that the parser keeps between feeds is a second argument and a second result of
`feed`, next to the `AgentState` that each controller threads.
-/

namespace Cordyceps.Drivers

open Foundations Agents

/-- A driver-defined event, e.g. `mode.changed`. -/
structure ParserEvent where
  kind : JsString
  data : Json
  deriving DecidableEq, Repr

/-- The answer of a feed. `state` is `none` when the parser returned the very object it was
given, which controllers take as "nothing changed". -/
structure ParseResult where
  state : Option AgentState
  events : List ParserEvent
  messages : List AssistantMessage
  deriving DecidableEq, Repr

/-- `{ state, events, messages }` with the caller's own state and nothing to announce. -/
def ParseResult.unchanged : ParseResult := ⟨none, [], []⟩

/-- A feed that does not return: the parser read a property of `null`, or used a value without a
text as an operand of `+`. `scratch` is the memory as it was by then. -/
structure FeedError (Scratch : Type*) where
  typeError ::
  scratch : Scratch
  deriving DecidableEq, Repr

/-- `DriverParser`. The clock is read when a message is emitted. -/
structure DriverParser (Scratch : Type*) where
  scratch : Scratch
  initialState : AgentState
  feed : Timestamp → JsString → AgentState → Scratch →
    Except (FeedError Scratch) (ParseResult × Scratch)

/-! ## Reading one JSON event -/

/-- `JSON.parse(chunk.trim())`; blank chunks and lines that are not JSON carry no event. -/
def readEvent (chunk : JsString) : Option Json :=
  let trimmed := JsString.trim chunk
  if trimmed.isEmpty then none else Json.parse trimmed

/-- `ev.type === name`. -/
def hasType (ev : Json) (name : JsString) : Bool := ev.field (js "type") = some (.str name)

/-- The text of a value if it is a string: `typeof value === "string"`. -/
def stringOf : Option Json → Option JsString
  | some (.str text) => some text
  | _ => none

/-- `{ ...state, extra: { ...(state.extra ?? {}) } }`. -/
def copyState (state : AgentState) : AgentState :=
  { state with extra := some (state.extra.getD []) }

/-- `next.extra[key] = value`. -/
def setExtra (key : JsString) (value : Json) (next : AgentState) : AgentState :=
  { next with extra := some (Json.insert key value (next.extra.getD [])) }

/-- `{ kind: "message", data: { text } }`. -/
def messageEvent (text : JsString) : ParserEvent :=
  ⟨js "message", .obj [(js "text", .str text)]⟩

/-! ## Feeding several chunks -/

namespace DriverParser

variable {Scratch : Type*} (parser : DriverParser Scratch) (now : Timestamp)

/-- The answers to a list of chunks, with state and memory threaded, up to a throw. -/
def answers : List JsString → AgentState → Scratch → List ParseResult
  | [], _, _ => []
  | chunk :: rest, state, scratch =>
    match parser.feed now chunk state scratch with
    | .ok (result, scratch) => result :: answers rest (result.state.getD state) scratch
    | .error _ => []

/-- The state objects that the feeds answered with. -/
def published (chunks : List JsString) (state : AgentState) (scratch : Scratch) :
    List AgentState :=
  (parser.answers now chunks state scratch).filterMap ParseResult.state

/-- The messages that the feeds emitted. -/
def emitted (chunks : List JsString) (state : AgentState) (scratch : Scratch) :
    List AssistantMessage :=
  (parser.answers now chunks state scratch).flatMap ParseResult.messages

/-- The state after the feeds. -/
def after (chunks : List JsString) (state : AgentState) (scratch : Scratch) : AgentState :=
  (parser.published now chunks state scratch).getLast?.getD state

/-- Whether one of the feeds throws. -/
def throws : List JsString → AgentState → Scratch → Bool
  | [], _, _ => false
  | chunk :: rest, state, scratch =>
    match parser.feed now chunk state scratch with
    | .ok (result, scratch) => throws rest (result.state.getD state) scratch
    | .error _ => true

section Answers

variable {chunk : JsString} {rest : List JsString} {state : AgentState} {scratch next : Scratch}
  {result : ParseResult} {error : FeedError Scratch}

theorem published_cons (h : parser.feed now chunk state scratch = .ok (result, next)) :
    parser.published now (chunk :: rest) state scratch =
      result.state.toList ++ parser.published now rest (result.state.getD state) next := by
  simp only [published, answers, h, List.filterMap_cons]
  cases result.state <;> rfl

theorem emitted_cons (h : parser.feed now chunk state scratch = .ok (result, next)) :
    parser.emitted now (chunk :: rest) state scratch =
      result.messages ++ parser.emitted now rest (result.state.getD state) next := by
  simp only [emitted, answers, h, List.flatMap_cons]

theorem after_cons (h : parser.feed now chunk state scratch = .ok (result, next)) :
    parser.after now (chunk :: rest) state scratch =
      parser.after now rest (result.state.getD state) next := by
  rw [after, parser.published_cons now h, List.getLast?_append, after]
  cases result.state <;> simp

theorem answers_cons_error (h : parser.feed now chunk state scratch = .error error) :
    parser.answers now (chunk :: rest) state scratch = [] := by
  simp only [answers, h]

end Answers

end DriverParser

/-! ## What a driver builds -/

/-- How to interpret stdout of a one-shot child. -/
inductive ParseOutput
  | text
  | json
  | jsonl
  deriving DecidableEq, Repr

structure ExecSpec where
  command : JsString
  args : List JsString
  cwd : JsString
  env : JsMap JsString JsString
  stdin : Option JsString
  parseOutput : ParseOutput

structure SpawnSpec where
  command : JsString
  args : List JsString
  cwd : JsString
  env : JsMap JsString JsString
  cleanEnv : Bool

structure ServerWsSpec where
  url : JsString
  authHeader : Option JsString
  spawnServer : Option SpawnSpec

structure ServerHttpSpec where
  baseUrl : JsString
  defaultHeaders : Option (JsMap JsString JsString)
  submitPath : JsString

end Cordyceps.Drivers
