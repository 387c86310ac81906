import Cordyceps.Foundations.Json

/-!
# Agent state and messages

The types of `agents/types.ts` that drivers and controllers share. Fields that
a driver fills from unchecked backend JSON keep the JSON value. Timestamps are
clock readings; their ISO rendering carries no information of its own.
-/

namespace Cordyceps.Agents

open Foundations

/-- The transport mode backing an agent session. -/
inductive DriverMode
  | pty
  | exec
  | serverWs
  | serverHttp
  deriving DecidableEq, Repr

/-- What kind of thing is blocking an agent's progress. -/
inductive BlockKind
  | toolApproval
  | planApproval
  | confirmation
  | picker
  | auth
  | unknown
  deriving DecidableEq, Repr

inductive Status
  | starting
  | idle
  | busy
  | blocked
  | exited
  | unknown
  deriving DecidableEq, Repr

/-- Current activity if busy. -/
structure Activity where
  label : JsString
  duration : Option JsString
  tokens : Option JsString
  deriving DecidableEq, Repr

structure Blocking where
  kind : BlockKind
  prompt : Option JsString
  deriving DecidableEq, Repr

structure Tokens where
  used : Json
  contextRemaining : Option ℕ
  deriving DecidableEq, Repr

/-- Current state of an agent. `extra` is the driver's own bag, in key order. -/
structure AgentState where
  status : Status
  model : Option Json
  mode : Option JsString
  lastMessage : Option JsString
  activity : Option Activity
  blocking : Option Blocking
  tokens : Option Tokens
  extra : Option (List (JsString × Json))
  deriving DecidableEq, Repr

abbrev Timestamp := ℕ

structure AssistantMessage where
  text : JsString
  ts : Timestamp
  tokens : Option Json
  deriving DecidableEq, Repr

/-- `{ ...state, status }`. -/
def AgentState.withStatus (state : AgentState) (status : Status) : AgentState :=
  { state with status := status }

@[simp]
theorem AgentState.status_withStatus (state : AgentState) (status : Status) :
    (state.withStatus status).status = status := rfl

@[simp]
theorem AgentState.lastMessage_withStatus (state : AgentState) (status : Status) :
    (state.withStatus status).lastMessage = state.lastMessage := rfl

end Cordyceps.Agents
