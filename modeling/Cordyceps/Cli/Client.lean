import Cordyceps.Foundations.Promise
import Cordyceps.Transport.Rpc

/-!
# The RPC client

The object that `openClient` of `cli/client.ts` returns, once its socket is
open. A call is told from another by its position; its id is one more.
-/

namespace Cordyceps.Cli

open Foundations Cordyceps.Transport

/-- Why a call rejects: `RpcError` with the members of the server's error, the timer, the end of the
connection, or parameters that `JSON.stringify` throws on. -/
inductive CallError
  | rpcError (code message data : Option Json)
  | timedOut
  | connectionClosed
  | notSerialisable
  deriving DecidableEq, Repr

abbrev CallFate := Fate (Option Json) CallError

/-- A call of `call` with the frame that it sends. -/
structure Call where
  id : ℕ
  request : Json
  promise : Promise (Option Json) CallError
  timer : Bool

namespace Call

/-- The frame: `{ jsonrpc: "2.0", method, params, id }`. -/
def frame (method : JsString) (params : Option Json) (id : ℕ) : Json :=
  envelope [(js "method", some (.str method)), (js "params", params), (js "id", some (.num id))]

def settle (fate : CallFate) (call : Call) : Call :=
  { call with promise := call.promise.settle fate }

/-- `clearTimeout(p.timer)`, and `resolve` or `reject`. -/
def finish (fate : CallFate) (call : Call) : Call :=
  { call with promise := call.promise.settle fate, timer := false }

end Call

/-- `pending` maps an id to the call. -/
structure RpcClient where
  nextId : ℕ
  pending : JsMap Json ℕ
  calls : List Call

namespace RpcClient

def create : RpcClient := ⟨1, .empty, []⟩

/-- `call`, up to `ws.send`. -/
def call (method : JsString) (params : Option Json) (client : RpcClient) : RpcClient where
  nextId := client.nextId + 1
  pending := client.pending.set (.num client.nextId) client.calls.length
  calls := client.calls ++ [⟨client.nextId, Call.frame method params client.nextId, .create, true⟩]

/-- `call` with parameters that `JSON.stringify` throws on: the promise rejects, and the entry and its
timer stay. -/
def callThrows (method : JsString) (client : RpcClient) : RpcClient :=
  let called := client.call method none
  { called with
    calls := called.calls.modify client.calls.length (Call.settle (.rejected .notSerialisable)) }

/-- What the answer to a pending call makes of its promise. -/
def fateOf (msg : Json) : CallFate :=
  match Json.ifTruthy (msg.field (js "error")) with
  | some error => .rejected (.rpcError (error.field (js "code")) (error.field (js "message"))
      (error.field (js "data")))
  | none => .fulfilled (msg.field (js "result"))

/-- The call that a frame is for. -/
def pendingFor (msg : Json) (client : RpcClient) : Option ℕ :=
  (msg.field (js "id")).bind client.pending.get

/-- The message listener. Frames for no pending call go to the subscribed callbacks. -/
def onMessage (msg : Json) (client : RpcClient) : RpcClient :=
  match msg.field (js "id"), client.pendingFor msg with
  | some id, some k =>
    { client with
      pending := client.pending.delete id
      calls := client.calls.modify k (Call.finish (fateOf msg)) }
  | _, _ => client

/-- The close listener. -/
def onClose (client : RpcClient) : RpcClient :=
  { client with
    pending := .empty
    calls := client.pending.values.foldl
      (fun calls k ↦ calls.modify k (Call.finish (.rejected .connectionClosed))) client.calls }

/-- The timer of a call fires. -/
def timeOut (k : ℕ) (client : RpcClient) : RpcClient :=
  match client.calls[k]? with
  | some call =>
    { client with
      pending := client.pending.delete (.num call.id)
      calls := client.calls.modify k (Call.finish (.rejected .timedOut)) }
  | none => client

end RpcClient

end Cordyceps.Cli
