import Cordyceps.Cli.Client

/-!
# Clients and the daemon

Connections between the daemon and its clients, as a step machine. Each has a
queue of frames in both directions; the socket delivers them in order and once,
or not at all after it was closed. A client is one of `openClient`, or a foreign
program that sends what it likes.
-/

namespace Cordyceps.Transport

open Foundations Cordyceps.Cli

/-- `sending` and `opened` are the `readyState` of the two ends, `listening` and `attached` tell that
their close event has not come yet. -/
structure Connection where
  foreign : Bool
  client : RpcClient
  sending : Bool
  listening : Bool
  toServer : List (Option Json)
  toClient : List Json
  opened : Bool
  attached : Bool

namespace Connection

def create (foreign : Bool) : Connection := ⟨foreign, .create, true, true, [], [], true, true⟩

/-- `ws.send` of the client. -/
def post (raw : Option Json) (connection : Connection) : Connection :=
  if connection.sending then { connection with toServer := connection.toServer ++ [raw] }
  else connection

/-- `session.send`. -/
def send (connection : Connection) (frame : Json) : Connection :=
  if connection.opened then { connection with toClient := connection.toClient ++ [frame] }
  else connection

def onClient (change : RpcClient → RpcClient) (connection : Connection) : Connection :=
  { connection with client := change connection.client }

def call (method : JsString) (params : Option Json) (connection : Connection) : Connection :=
  (connection.onClient (RpcClient.call method params)).post
    (some (Call.frame method params connection.client.nextId))

/-- The client hears the next frame. -/
def deliver (frame : Json) (rest : List Json) (connection : Connection) : Connection :=
  { connection with toClient := rest }.onClient (RpcClient.onMessage frame)

/-- The close event of the client. -/
def close (connection : Connection) : Connection :=
  { connection with sending := false, listening := false }.onClient RpcClient.onClose

end Connection

/-- `received` are all frames that the daemon took, in order. -/
structure RpcWorld where
  methods : List JsString
  connections : List Connection
  received : List Received

/-- One turn; numbers name the connection, the frame that was received, or the call. -/
inductive RpcEvent
  | register (method : JsString)
  | unregister (method : JsString)
  | connect (foreign : Bool)
  | call (c : ℕ) (method : JsString) (params : Option Json)
  | callThrows (c : ℕ) (method : JsString)
  | foreign (c : ℕ) (raw : Option Json)
  | receive (c : ℕ)
  | finish (n : ℕ) (outcome : Outcome)
  | respond (n : ℕ)
  | notify (c : ℕ) (method : JsString) (params : Option Json)
  | deliver (c : ℕ)
  | timer (c k : ℕ)
  | hangUp (c : ℕ)
  | closing (c : ℕ)
  | clientClose (c : ℕ)
  | serverClose (c : ℕ)

namespace RpcWorld

def start : RpcWorld := ⟨[], [], []⟩

def onConnection (c : ℕ) (change : Connection → Connection) (world : RpcWorld) : RpcWorld :=
  { world with connections := world.connections.modify c change }

/-- Change a connection that is in the right state. -/
def turn (c : ℕ) (ready : Connection → Bool) (change : Connection → Connection) (world : RpcWorld) :
    Option RpcWorld :=
  if world.connections[c]?.any ready then some (world.onConnection c change) else none

/-- The message listener of `handleClient`, up to its first `await`. -/
def receive (c : ℕ) (world : RpcWorld) : Option RpcWorld :=
  match world.connections[c]? with
  | some connection =>
    match connection.attached, connection.toServer with
    | true, raw :: rest => some {
        world.onConnection c fun connection ↦ { connection with toServer := rest } with
        received := world.received ++ [⟨c, raw, dispatch world.methods raw, false, []⟩] }
    | _, _ => none
  | none => none

def finish (n : ℕ) (outcome : Outcome) (world : RpcWorld) : Option RpcWorld :=
  if world.received[n]?.map Received.work = some .running then
    some { world with received := world.received.modify n (Received.finish outcome) }
  else none

/-- The listener goes on once the dispatcher has answered. A parse error, which it sends at once, may
come later here. -/
def respond (n : ℕ) (world : RpcWorld) : Option RpcWorld :=
  match world.received[n]? with
  | some received =>
    if received.answered || received.work = .running then none
    else some {
      world.onConnection received.conn fun connection ↦
        received.response.toList.foldl Connection.send connection with
      received := world.received.modify n Received.respond }
  | none => none

def deliver (c : ℕ) (world : RpcWorld) : Option RpcWorld :=
  match world.connections[c]? with
  | some connection =>
    match connection.listening, connection.toClient with
    | true, frame :: rest => some (world.onConnection c (Connection.deliver frame rest))
    | _, _ => none
  | none => none

/-- One turn. An event that cannot happen in a state has no successor. -/
def step (world : RpcWorld) : RpcEvent → Option RpcWorld
  | .register method =>
    if method ∈ world.methods then none
    else some { world with methods := world.methods ++ [method] }
  | .unregister method => some { world with methods := world.methods.erase method }
  | .connect foreign => some { world with connections := world.connections ++ [.create foreign] }
  | .call c method params =>
    world.turn c (fun connection ↦ !connection.foreign) (Connection.call method params)
  | .callThrows c method => world.turn c (fun connection ↦ !connection.foreign)
      (Connection.onClient (RpcClient.callThrows method))
  | .foreign c raw => world.turn c Connection.foreign (Connection.post raw)
  | .receive c => world.receive c
  | .finish n outcome => world.finish n outcome
  | .respond n => world.respond n
  | .notify c method params => world.turn c (fun _ ↦ true) fun connection ↦
      connection.send (notification method params)
  | .deliver c => world.deliver c
  | .timer c k => world.turn c
      (fun connection ↦ connection.client.calls[k]?.any Call.timer)
      (Connection.onClient (RpcClient.timeOut k))
  | .hangUp c => world.turn c (fun _ ↦ true) fun connection ↦ { connection with sending := false }
  | .closing c => world.turn c (fun _ ↦ true) fun connection ↦ { connection with opened := false }
  | .clientClose c => world.turn c Connection.listening Connection.close
  | .serverClose c => world.turn c Connection.attached fun connection ↦
      { connection with opened := false, attached := false }

/-! ### What a turn does -/

variable {world next : RpcWorld}

theorem turn_cases {c : ℕ} {ready : Connection → Bool} {change : Connection → Connection}
    (h : world.turn c ready change = some next) :
    (∃ connection, world.connections[c]? = some connection ∧ ready connection = true) ∧
      next = world.onConnection c change := by
  unfold RpcWorld.turn at h
  split at h
  · rename_i hready
    exact ⟨(Option.any_eq_true ready _).mp hready, (Option.some.inj h).symm⟩
  · cases h

theorem receive_cases {c : ℕ} (h : world.receive c = some next) :
    ∃ connection raw rest, world.connections[c]? = some connection ∧ connection.attached = true ∧
      connection.toServer = raw :: rest ∧
      next = {
        world.onConnection c fun connection ↦ { connection with toServer := rest } with
        received := world.received ++ [⟨c, raw, dispatch world.methods raw, false, []⟩] } := by
  unfold RpcWorld.receive at h
  split at h
  · rename_i connection hconnection
    split at h
    · rename_i raw rest hattached htoServer
      exact ⟨connection, raw, rest, hconnection, hattached, htoServer, (Option.some.inj h).symm⟩
    · cases h
  · cases h

theorem finish_cases {n : ℕ} {outcome : Outcome} (h : world.finish n outcome = some next) :
    ∃ taken, world.received[n]? = some taken ∧ taken.work = .running ∧
      next = { world with received := world.received.modify n (Received.finish outcome) } := by
  unfold RpcWorld.finish at h
  split at h
  · rename_i hrunning
    obtain ⟨taken, hget, hwork⟩ := Option.map_eq_some_iff.mp hrunning
    exact ⟨taken, hget, hwork, (Option.some.inj h).symm⟩
  · cases h

theorem respond_cases {n : ℕ} (h : world.respond n = some next) :
    ∃ taken, world.received[n]? = some taken ∧ taken.answered = false ∧ taken.work ≠ .running ∧
      next = ({ world with received := world.received.modify n Received.respond } : RpcWorld).onConnection
        taken.conn fun connection ↦ taken.response.toList.foldl Connection.send connection := by
  unfold RpcWorld.respond at h
  split at h
  · rename_i taken hget
    split at h
    · cases h
    · rename_i hready
      rw [Bool.or_eq_true, decide_eq_true_eq, not_or, Bool.not_eq_true] at hready
      exact ⟨taken, hget, hready.1, hready.2, (Option.some.inj h).symm⟩
  · cases h

theorem deliver_cases {c : ℕ} (h : world.deliver c = some next) :
    ∃ connection frame rest, world.connections[c]? = some connection ∧
      connection.listening = true ∧ connection.toClient = frame :: rest ∧
      next = world.onConnection c (Connection.deliver frame rest) := by
  unfold RpcWorld.deliver at h
  split at h
  · rename_i connection hconnection
    split at h
    · rename_i frame rest hlistening hframe
      exact ⟨connection, frame, rest, hconnection, hlistening, hframe, (Option.some.inj h).symm⟩
    · cases h
  · cases h

end RpcWorld

end Cordyceps.Transport
