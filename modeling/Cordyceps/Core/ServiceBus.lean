import Cordyceps.Foundations.JsMap
import Cordyceps.Foundations.JsString
import Mathlib.Logic.Function.Basic

/-!
# The in-process service bus

Event subscriptions and key/value state of `core/bus.ts`. Listener sets are
objects with an identity: a subscription that finds no set for its event
allocates one, and the returned unsubscribe handle closes over the set that was
current when it was created, even after the event map has dropped that set.
Callbacks are compared by identity and run to completion, so an `emit` is one
synchronous step.
-/

namespace Cordyceps.Core

open Foundations

/-- A function object held by a listener set: a caller's callback, or the wrapper that `once`
allocates around one. A wrapper knows the handle it has to call when it fires. -/
inductive Listener (Callback : Type*)
  | callback (cb : Callback)
  | wrapper (unsub : ℕ) (cb : Callback)
  deriving DecidableEq, Repr

/-- The caller's function that runs when the listener is invoked. -/
def Listener.target {Callback : Type*} : Listener Callback → Callback
  | .callback cb => cb
  | .wrapper _ cb => cb

/-- The closure behind an unsubscribe handle. -/
structure Unsubscribe (Callback : Type*) where
  event : JsString
  set : ℕ
  listener : Listener Callback
  deriving Repr

/-- The bus. `sets` is the heap of listener sets by address, `handles` lists the closures that
`on` and `once` have returned so far. -/
structure ServiceBus (Callback Value : Type*) where
  sets : ℕ → List (Listener Callback)
  nextSet : ℕ
  listeners : JsString → Option ℕ
  handles : List (Unsubscribe Callback)
  state : JsMap JsString Value

variable {Callback Value : Type*}

def createServiceBus : ServiceBus Callback Value where
  sets _ := []
  nextSet := 0
  listeners _ := none
  handles := []
  state := JsMap.empty

namespace ServiceBus

/-! ## Key/value state -/

/-- `bus.get`. -/
def get (bus : ServiceBus Callback Value) (key : JsString) : Option Value := bus.state.get key

/-- `bus.set`. -/
def set (bus : ServiceBus Callback Value) (key : JsString) (value : Value) :
    ServiceBus Callback Value :=
  { bus with state := bus.state.set key value }

/-- `bus.delete`. -/
def delete (bus : ServiceBus Callback Value) (key : JsString) : ServiceBus Callback Value :=
  { bus with state := bus.state.delete key }

/-- `bus.getByPrefix`: the entries in insertion order. -/
def getByPrefix (bus : ServiceBus Callback Value) (start : JsString) : List (JsString × Value) :=
  bus.state.entries.filter fun entry ↦ JsString.startsWith entry.1 start

/-! ## Events -/

/-- The listeners an `emit` of the event would take its snapshot of. -/
def current (bus : ServiceBus Callback Value) (event : JsString) : List (Listener Callback) :=
  match bus.listeners event with
  | none => []
  | some address => bus.sets address

variable [DecidableEq Callback]

/-- `Set.prototype.add`. -/
def addTo (listener : Listener Callback) (members : List (Listener Callback)) :
    List (Listener Callback) :=
  if listener ∈ members then members else members ++ [listener]

/-- `set.delete(cb); if (set.size === 0) listeners.delete(event)`, as both `off` and a handle
run it on the set they hold. -/
def deleteFrom (bus : ServiceBus Callback Value) (event : JsString) (address : ℕ)
    (listener : Listener Callback) : ServiceBus Callback Value :=
  let members := (bus.sets address).erase listener
  { bus with
    sets := Function.update bus.sets address members
    listeners :=
      if members = [] then Function.update bus.listeners event none else bus.listeners }

/-- `on`: the returned handle is the last entry of `handles`. -/
def on (bus : ServiceBus Callback Value) (event : JsString) (listener : Listener Callback) :
    ServiceBus Callback Value :=
  match bus.listeners event with
  | some address =>
    { bus with
      sets := Function.update bus.sets address (addTo listener (bus.sets address))
      handles := bus.handles ++ [⟨event, address, listener⟩] }
  | none =>
    { bus with
      sets := Function.update bus.sets bus.nextSet (addTo listener [])
      nextSet := bus.nextSet + 1
      listeners := Function.update bus.listeners event (some bus.nextSet)
      handles := bus.handles ++ [⟨event, bus.nextSet, listener⟩] }

/-- `once`: `on` with a fresh wrapper that calls the handle `on` is about to return. -/
def once (bus : ServiceBus Callback Value) (event : JsString) (cb : Callback) :
    ServiceBus Callback Value :=
  bus.on event (.wrapper bus.handles.length cb)

/-- `off`. -/
def off (bus : ServiceBus Callback Value) (event : JsString) (cb : Callback) :
    ServiceBus Callback Value :=
  match bus.listeners event with
  | none => bus
  | some address => bus.deleteFrom event address (.callback cb)

/-- A call of the handle at the given position; positions that were never returned do nothing. -/
def unsubscribe (bus : ServiceBus Callback Value) (handle : ℕ) : ServiceBus Callback Value :=
  match bus.handles[handle]? with
  | none => bus
  | some closure => bus.deleteFrom closure.event closure.set closure.listener

/-- Invoke one listener: a wrapper calls its own handle before the caller's function. -/
def invoke (bus : ServiceBus Callback Value) : Listener Callback → ServiceBus Callback Value
  | .callback _ => bus
  | .wrapper unsub _ => bus.unsubscribe unsub

/-- `emit` over a snapshot of the listeners: the bus afterwards and the functions that ran. -/
def emit (bus : ServiceBus Callback Value) (event : JsString) :
    ServiceBus Callback Value × List Callback :=
  ((bus.current event).foldl invoke bus, (bus.current event).map Listener.target)

end ServiceBus

end Cordyceps.Core
