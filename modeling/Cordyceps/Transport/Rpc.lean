import Cordyceps.Drivers.Api

/-!
# JSON-RPC dispatch

`transport/types.ts`, `RpcDispatcher.dispatch` of `transport/rpc.ts` and the
message listener of `handleClient`. A frame is the value that its text stands
for. The methods that are registered are known by name; what a handler does
before it returns or throws is its own business.
-/

namespace Cordyceps.Transport

open Foundations Drivers

/-! ## Envelopes -/

/-- `JSON.stringify` of an object literal: members that are `undefined` are left out. -/
def jsonObject (members : List (JsString × Option Json)) : Json :=
  .obj (members.filterMap fun (key, value) ↦ value.map (Prod.mk key))

/-- `{ jsonrpc: "2.0", ... }`. -/
def envelope (members : List (JsString × Option Json)) : Json :=
  jsonObject ((js "jsonrpc", some (.str (js "2.0"))) :: members)

namespace JsonRpcError

def parseError : ℤ := -32700

def invalidRequest : ℤ := -32600

def methodNotFound : ℤ := -32601

def internalError : ℤ := -32603

end JsonRpcError

def success (result id : Json) : Json := envelope [(js "result", some result), (js "id", some id)]

def failure (code : ℤ) (message : JsString) (data : Option Json) (id : Json) : Json :=
  envelope [(js "error", some (jsonObject [(js "code", some (.num code)),
    (js "message", some (.str message)), (js "data", data)])), (js "id", some id)]

def notification (method : JsString) (params : Option Json) : Json :=
  envelope [(js "method", some (.str method)), (js "params", params)]

/-! ## Type guards -/

/-- `typeof value === "number" || typeof value === "string"`. -/
def isId : Json → Bool
  | .num _ | .str _ => true
  | .null | .bool _ | .arr _ | .obj _ => false

/-- `m.jsonrpc === "2.0" && typeof m.method === "string"`. -/
def isCall (msg : Json) : Bool :=
  msg.field (js "jsonrpc") = some (.str (js "2.0")) && (stringOf (msg.field (js "method"))).isSome

def isRequest (msg : Json) : Bool := isCall msg && (msg.field (js "id")).any isId

def isNotification (msg : Json) : Bool := isCall msg && (msg.field (js "id")).isNone

/-! ## Dispatch -/

/-- What a handler throws: a `JsonRpcMethodError`, or anything else with the text of its message. -/
inductive Thrown
  | methodError (code : ℤ) (message : JsString) (data : Option Json)
  | error (text : JsString)
  deriving DecidableEq, Repr

/-- What became of a handler; `none` is `undefined`. -/
inductive Outcome
  | returned (result : Option Json)
  | thrown (error : Thrown)
  deriving DecidableEq, Repr

def Outcome.response (id : Json) : Outcome → Json
  | .returned result => success (result.getD .null) id
  | .thrown (.methodError code message data) => failure code message data id
  | .thrown (.error text) =>
    failure JsonRpcError.internalError (js "Internal error") (some (.str text)) id

/-- How far the daemon has got with a frame: it was no JSON, a notification, no request, a request
for a method that does not exist, or one whose handler was called. -/
inductive Work
  | unparsable
  | notification
  | invalid
  | unknownMethod
  | running
  | finished (outcome : Outcome)
  deriving DecidableEq, Repr

/-- The part of the listener that runs at once, with the call of the handler. -/
def dispatch (methods : List JsString) : Option Json → Work
  | none => .unparsable
  | some raw =>
    if isNotification raw then .notification
    else if isRequest raw then
      if (stringOf (raw.field (js "method"))).any (· ∈ methods) then .running else .unknownMethod
    else .invalid

/-- A frame of a connection. `produced` observes what was handed to the session for it. -/
structure Received where
  conn : ℕ
  raw : Option Json
  work : Work
  answered : Bool
  produced : List Json

namespace Received

def idOf (received : Received) : Json := ((received.raw.bind (Json.field (js "id"))).getD .null)

def methodOf (received : Received) : JsString :=
  ((received.raw.bind fun raw ↦ stringOf (raw.field (js "method"))).getD [])

/-- The response, once the handler is done; a notification has none. -/
def response (received : Received) : Option Json :=
  match received.work with
  | .unparsable => some (failure JsonRpcError.parseError (js "Parse error") none .null)
  | .invalid => some (failure JsonRpcError.invalidRequest (js "Invalid Request") none .null)
  | .unknownMethod => some (failure JsonRpcError.methodNotFound
      (js "Method not found: " ++ received.methodOf) none received.idOf)
  | .finished outcome => some (outcome.response received.idOf)
  | .notification | .running => none

def finish (outcome : Outcome) (received : Received) : Received :=
  { received with work := .finished outcome }

/-- The rest of the listener: the response goes to the session. -/
def respond (received : Received) : Received :=
  { received with answered := true, produced := received.produced ++ received.response.toList }

end Received

/-! ### Members of the envelopes -/

theorem field_success (result id : Json) : (success result id).field (js "id") = some id := rfl

theorem field_failure (code : ℤ) (message : JsString) (data : Option Json) (id : Json) :
    (failure code message data id).field (js "id") = some id := by
  cases data <;> rfl

theorem field_notification (method : JsString) (params : Option Json) :
    (notification method params).field (js "id") = none := by
  cases params <;> rfl

end Cordyceps.Transport
