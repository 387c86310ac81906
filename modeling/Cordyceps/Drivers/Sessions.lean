import Cordyceps.Drivers.Api
import Cordyceps.Foundations.StepMachine

/-!
# Parser sessions

A session is a parser at work: every feed is given the state that the feed before it
returned, and what the parser remembers and emits is kept. A feed that throws has no
successor.
-/

namespace Cordyceps.Drivers

open Foundations Foundations.StepMachine Agents

/-- The state last returned, the parser's own memory, and all messages emitted so far. -/
structure Session (Scratch : Type*) where
  state : AgentState
  scratch : Scratch
  messages : List AssistantMessage

namespace Session

variable {Scratch : Type*}

/-- The texts of the messages emitted so far. -/
def texts (session : Session Scratch) : List JsString :=
  session.messages.map AssistantMessage.text

/-- A session after an answer. -/
def answered (session : Session Scratch) (answer : ParseResult × Scratch) : Session Scratch :=
  ⟨answer.1.state.getD session.state, answer.2, session.messages ++ answer.1.messages⟩

end Session

namespace DriverParser

variable {Scratch : Type*} (parser : DriverParser Scratch)

/-- A new parser with its initial state. -/
def fresh : Session Scratch := ⟨parser.initialState, parser.scratch, []⟩

/-- One feed, at a time of the clock. -/
def hear (session : Session Scratch) (feed : Timestamp × JsString) : Option (Session Scratch) :=
  match parser.feed feed.1 feed.2 session.state session.scratch with
  | .ok answer => some (session.answered answer)
  | .error _ => none

theorem hear_of_feed {session : Session Scratch} {feed : Timestamp × JsString}
    {answer : ParseResult × Scratch}
    (h : parser.feed feed.1 feed.2 session.state session.scratch = .ok answer) :
    parser.hear session feed = some (session.answered answer) := by
  rw [hear, h]

end DriverParser

end Cordyceps.Drivers
