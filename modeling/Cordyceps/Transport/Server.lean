import Cordyceps.Agents.Runtime
import Cordyceps.Core.ServiceBus
import Cordyceps.Transport.ClientSession

/-!
# The transport server

`startTransport` of `transport/server.ts`: how events on the bus become
notifications. Every call of `bus.on` in it passes a function of its own, told
from others by the number of subscriptions that were made before. A turn emits
an event, starts or ends a subscription of somebody else on the bus, or concerns
one client. Emitting runs all listeners before it returns.
-/

namespace Cordyceps.Transport

open Foundations Cordyceps.Core

/-- The events of an agent that clients are told about. -/
inductive AgentEvent
  | state
  | message
  | blocked
  | idle
  | exited
  | output
  deriving DecidableEq, Repr

namespace AgentEvent

def all : List AgentEvent := [.state, .message, .blocked, .idle, .exited, .output]

def name : AgentEvent → JsString
  | .state => js "state"
  | .message => js "message"
  | .blocked => js "blocked"
  | .idle => js "idle"
  | .exited => js "exited"
  | .output => js "output"

/-- `agent.<id>.<name>`. -/
def key (event : AgentEvent) (agentId : JsString) : JsString := Agents.agentKey agentId event.name

def method (event : AgentEvent) : JsString := js "agent." ++ event.name

variable {Value : Type*}

def params (event : AgentEvent) (agentId : JsString) (data : Value) : NoticeParams Value :=
  match event with
  | .state => .agent agentId (js "state") data
  | .message => .agent agentId (js "message") data
  | .blocked => .agent agentId (js "blocking") data
  | .idle => .agent agentId (js "state") data
  | .exited => .spread agentId data
  | .output => .agent agentId (js "data") data

def notice (event : AgentEvent) (agentId : JsString) (data : Value) : Notice Value :=
  ⟨event.method, event.params agentId data⟩

end AgentEvent

/-- The functions that are subscribed to the bus: those of `forwardBusEvent`, the handler of
`agent.created`, the forwarders that it subscribes, and anybody else's. -/
inductive Forwarder
  | busEvent (name : JsString)
  | onCreated
  | agent (n : ℕ) (event : AgentEvent) (agentId : JsString)
  | other (n : ℕ)
  deriving DecidableEq, Repr

/-- `cleanups` are the handles of the transport's own subscriptions. `announced` observes the ids of
the `agent.created` events since the start. -/
structure TransportServer (Value : Type*) where
  bus : ServiceBus Forwarder Value
  cleanups : List ℕ
  running : Bool
  sessions : List (ClientSession Value)
  clients : List ℕ
  announced : List JsString

/-- One turn; numbers name the session. `created` is the emission of `agent.created`, whose payload
has the agent's id; `closing` is a socket that leaves the state in which it sends. -/
inductive ServerEvent (Value : Type*)
  | created (id : JsString) (info : Value)
  | emit (name : JsString) (data : Value)
  | listen (name : JsString) (once : Bool)
  | unlisten (handle : ℕ)
  | connect
  | subscribe (k : ℕ) (events : List JsString)
  | unsubscribe (k : ℕ) (events : List JsString)
  | closing (k : ℕ)
  | closed (k : ℕ)
  | stop

namespace TransportServer

variable {Value : Type*}

/-- `cleanups.push(bus.on(name, forwarder))`. -/
def on (name : JsString) (forwarder : Forwarder) (server : TransportServer Value) :
    TransportServer Value :=
  { server with
    bus := server.bus.on name (.callback forwarder)
    cleanups := server.cleanups ++ [server.bus.handles.length] }

/-- `startTransport`, on the bus that the engine has just created. -/
def start : TransportServer Value :=
  let fresh : TransportServer Value := ⟨createServiceBus, [], true, [], [], []⟩
  (((fresh.on (js "agent.created") (.busEvent (js "agent.created"))).on (js "plugin.ready")
    (.busEvent (js "plugin.ready"))).on (js "daemon.stopping") (.busEvent (js "daemon.stopping"))).on
    (js "agent.created") .onCreated

/-- The handler of `agent.created`. -/
def wire (agentId : JsString) (server : TransportServer Value) : TransportServer Value :=
  if agentId.isEmpty then server
  else AgentEvent.all.foldl (fun server event ↦
    server.on (event.key agentId) (.agent server.bus.handles.length event agentId)) server

/-- `dispatcher.broadcast`. -/
def broadcast (notice : Notice Value) (server : TransportServer Value) : TransportServer Value :=
  { server with
    sessions := Cordyceps.Transport.broadcast notice server.clients server.sessions }

/-- Run one listener on a payload; `createdId` is the id in it. -/
def fire (data : Value) (createdId : JsString) (server : TransportServer Value) :
    Forwarder → TransportServer Value
  | .busEvent name => server.broadcast ⟨name, .plain data⟩
  | .onCreated => server.wire createdId
  | .agent _ event agentId => server.broadcast (event.notice agentId data)
  | .other _ => server

/-- `bus.emit`. -/
def emit (name : JsString) (data : Value) (createdId : JsString) (server : TransportServer Value) :
    TransportServer Value :=
  let emitted := server.bus.emit name
  emitted.2.foldl (fire data createdId) { server with bus := emitted.1 }

def onSession (k : ℕ) (change : ClientSession Value → ClientSession Value)
    (server : TransportServer Value) : TransportServer Value :=
  { server with sessions := server.sessions.modify k change }

/-- `stop`: the subscriptions end and the sockets of the connected clients are closed. -/
def stop (server : TransportServer Value) : TransportServer Value :=
  { server with
    bus := server.cleanups.foldl ServiceBus.unsubscribe server.bus
    running := false
    sessions := server.clients.foldl
      (fun sessions k ↦ sessions.modify k fun session ↦ { session with opened := false })
      server.sessions }

/-- The handle belongs to somebody else, and its listener is still subscribed. -/
def foreignAndLive (server : TransportServer Value) (handle : ℕ) : Bool :=
  match server.bus.handles[handle]? with
  | some closure =>
    server.bus.listeners closure.event = some closure.set &&
      closure.listener ∈ server.bus.sets closure.set &&
      match closure.listener.target with
      | .other _ => true
      | _ => false
  | none => false

/-- One turn. An event that cannot happen in a state has no successor. Others listen with functions
of their own and end a subscription once. -/
def step (server : TransportServer Value) (event : ServerEvent Value) : Option (TransportServer Value) :=
  match event with
  | .created id info =>
    let emitted := server.emit (js "agent.created") info id
    some { emitted with announced := emitted.announced ++ [id] }
  | .emit name data =>
    if name = js "agent.created" then none else some (server.emit name data [])
  | .listen name once =>
    let forwarder := Forwarder.other server.bus.handles.length
    some { server with bus :=
      if once then server.bus.once name forwarder
      else server.bus.on name (.callback forwarder) }
  | .unlisten handle =>
    if server.foreignAndLive handle then
      some { server with bus := server.bus.unsubscribe handle }
    else none
  | .connect => if server.running then some { server with
      sessions := server.sessions ++ [.create]
      clients := server.clients ++ [server.sessions.length] } else none
  | .subscribe k events => some (server.onSession k (ClientSession.subscribe events))
  | .unsubscribe k events => some (server.onSession k (ClientSession.unsubscribe events))
  | .closing k => some (server.onSession k fun session ↦ { session with opened := false })
  | .closed k => some { server.onSession k fun session ↦ { session with opened := false } with
      clients := server.clients.erase k }
  | .stop => if server.running then some server.stop else none

end TransportServer

end Cordyceps.Transport
