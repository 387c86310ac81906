import Cordyceps.Cli.Engine
import Cordyceps.Cli.Handlers

/-!
# From an agent to a callback

The engine, its sockets and the clients at their other ends. What a session was sent is on the way
until the client hears it, between the answers to its calls. A callback that stays subscribed is
called with what the agent emits.
-/

namespace Cordyceps.Transport

open Foundations

/-! ## What is on the way to a client -/

namespace RpcWorld

variable {world next : RpcWorld} {event : RpcEvent} {k : ℕ}

/-- A turn of the connections sends responses, which have no method, and what it was told to. -/
def Sent (event : RpcEvent) (k : ℕ) (frame : Json) : Prop :=
  frame.field (js "method") = none ∨
    ∃ method params, event = .notify k method params ∧ frame = notification method params

/-- A connection after a turn in which its client heard nothing. -/
def Forwards (event : RpcEvent) (k : ℕ) (before after : Connection) : Prop :=
  after.foreign = before.foreign ∧
    ∃ frames, after.toClient = before.toClient ++ frames ∧ ∀ frame ∈ frames, Sent event k frame

theorem forwards_of_eq {before after : Connection} (hforeign : after.foreign = before.foreign)
    (htoClient : after.toClient = before.toClient) : Forwards event k before after :=
  ⟨hforeign, [], by rw [htoClient, List.append_nil], fun _ hmem ↦ absurd hmem List.not_mem_nil⟩

theorem forwards_send (connection : Connection) {frame : Json} (h : Sent event k frame) :
    Forwards event k connection (connection.send frame) := by
  unfold Connection.send
  split
  · exact ⟨rfl, [frame], rfl, fun other hmem ↦ List.mem_singleton.mp hmem ▸ h⟩
  · exact forwards_of_eq rfl rfl

theorem forwards_post (connection : Connection) (raw : Option Json) :
    Forwards event k connection (connection.post raw) := by
  unfold Connection.post
  split
  · exact forwards_of_eq rfl rfl
  · exact forwards_of_eq rfl rfl

theorem method_success (result id : Json) : (success result id).field (js "method") = none := rfl

theorem method_failure (code : ℤ) (message : JsString) (data : Option Json) (id : Json) :
    (failure code message data id).field (js "method") = none := by
  cases data <;> rfl

theorem method_outcome (outcome : Outcome) (id : Json) :
    (outcome.response id).field (js "method") = none := by
  cases outcome with
  | returned result => exact method_success _ id
  | thrown error =>
    cases error with
    | methodError code message data => exact method_failure code message data id
    | error text => exact method_failure _ _ _ id

/-- No response has a method. -/
theorem method_response {received : Received} {response : Json}
    (h : received.response = some response) : response.field (js "method") = none := by
  unfold Received.response at h
  split at h
  · cases h
    exact method_failure ..
  · cases h
    exact method_failure ..
  · cases h
    exact method_failure ..
  · cases h
    exact method_outcome ..
  · cases h
  · cases h

/-- The connections after a turn in which no client heard anything. -/
def ForwardsAll (event : RpcEvent) (world next : RpcWorld) : Prop :=
  next.connections.length = world.connections.length ∧
    ∀ k connection, world.connections[k]? = some connection →
      ∃ after, next.connections[k]? = some after ∧ Forwards event k connection after

theorem forwardsAll_of_connections (h : next.connections = world.connections) :
    ForwardsAll event world next :=
  ⟨congrArg List.length h, fun k connection hget ↦
    ⟨connection, (congrArg (·[k]?) h).trans hget, forwards_of_eq rfl rfl⟩⟩

theorem forwardsAll_modify {c : ℕ} {change : Connection → Connection}
    (h : ∀ connection, Forwards event c connection (change connection))
    (hnext : next.connections = world.connections.modify c change) :
    ForwardsAll event world next := by
  refine ⟨by rw [hnext, List.length_modify], fun k connection hget ↦ ?_⟩
  rw [hnext, List.getElem?_modify, hget]
  by_cases hc : c = k
  · subst hc
    exact ⟨change connection, by simp, h connection⟩
  · exact ⟨connection, by simp [hc], forwards_of_eq rfl rfl⟩

theorem forwardsAll_turn {c : ℕ} {ready : Connection → Bool} {change : Connection → Connection}
    (h : ∀ connection, Forwards event c connection (change connection))
    (hstep : world.turn c ready change = some next) : ForwardsAll event world next := by
  obtain ⟨_, rfl⟩ := turn_cases hstep
  exact forwardsAll_modify h rfl

theorem forwardsAll_step (hconnect : ∀ foreign, event ≠ .connect foreign)
    (hdeliver : ∀ c, event ≠ .deliver c) (hstep : world.step event = some next) :
    ForwardsAll event world next := by
  cases event with
  | register method =>
    rw [RpcWorld.step, Option.ite_none_left_eq_some] at hstep
    obtain ⟨_, hnext⟩ := hstep
    cases hnext
    exact forwardsAll_of_connections rfl
  | unregister method =>
    cases hstep
    exact forwardsAll_of_connections rfl
  | connect foreign => exact absurd rfl (hconnect foreign)
  | call c method params =>
    refine forwardsAll_turn (fun connection ↦ ?_) hstep
    exact @forwards_post _ c (connection.onClient _) _
  | callThrows c method => exact forwardsAll_turn (fun _ ↦ by exact forwards_of_eq rfl rfl) hstep
  | foreign c raw => exact forwardsAll_turn (fun connection ↦ forwards_post connection raw) hstep
  | receive c =>
    obtain ⟨_, _, rest, _, _, _, rfl⟩ := receive_cases hstep
    exact @forwardsAll_modify _ _ _ c (fun connection ↦ { connection with toServer := rest })
      (fun _ ↦ forwards_of_eq rfl rfl) rfl
  | finish n outcome =>
    obtain ⟨_, _, _, rfl⟩ := finish_cases hstep
    exact forwardsAll_of_connections rfl
  | respond n =>
    obtain ⟨taken, _, _, _, rfl⟩ := respond_cases hstep
    refine forwardsAll_modify (fun connection ↦ ?_) rfl
    cases hresponse : taken.response with
    | none => exact forwards_of_eq rfl rfl
    | some response => exact forwards_send connection (.inl (method_response hresponse))
  | notify c method params =>
    exact forwardsAll_turn (fun connection ↦ forwards_send connection (.inr ⟨_, _, rfl, rfl⟩)) hstep
  | deliver c => exact absurd rfl (hdeliver c)
  | timer c k => exact forwardsAll_turn (fun _ ↦ by exact forwards_of_eq rfl rfl) hstep
  | hangUp c => exact forwardsAll_turn (fun _ ↦ by exact forwards_of_eq rfl rfl) hstep
  | closing c => exact forwardsAll_turn (fun _ ↦ by exact forwards_of_eq rfl rfl) hstep
  | clientClose c => exact forwardsAll_turn (fun _ ↦ by exact forwards_of_eq rfl rfl) hstep
  | serverClose c => exact forwardsAll_turn (fun _ ↦ by exact forwards_of_eq rfl rfl) hstep

/-- The client of the connection hears the next frame; nothing is put on the way. -/
theorem deliver_step {c : ℕ} (hstep : world.deliver c = some next) :
    ∃ connection frame rest, world.connections[c]? = some connection ∧
      connection.toClient = frame :: rest ∧
      next = world.onConnection c (Connection.deliver frame rest) := by
  obtain ⟨connection, frame, rest, hget, _, htoClient, hnext⟩ := deliver_cases hstep
  exact ⟨connection, frame, rest, hget, htoClient, hnext⟩

/-- A notification has no id, and an answer has no method. -/
def Plain (frame : Json) : Prop :=
  frame.field (js "id") = none ∨ frame.field (js "method") = none

theorem Sent.plain {frame : Json} (h : Sent event k frame) : Plain frame := by
  rcases h with hnone | ⟨method, params, _, rfl⟩
  · exact .inr hnone
  · exact .inl (field_notification method params)

end RpcWorld

end Cordyceps.Transport

namespace Cordyceps.Cli

open Foundations Foundations.StepMachine Cordyceps.Agents Cordyceps.Transport Drivers

variable {Scratch Callback : Type*}

/-- The daemon and its clients. The `k`-th connection and the `k`-th callbacks are those of the
`k`-th session. -/
structure System (Scratch Callback : Type*) where
  engine : Engine Scratch
  world : RpcWorld
  handlers : List (Handlers Callback)

/-- One turn; numbers name the connection. What a client sends, and what the daemon does with it, is
a turn of the connections. -/
inductive SystemEvent (Scratch Callback : Type*)
  | engine (event : EngineEvent Scratch)
  | connect (foreign : Bool)
  | closed (k : ℕ)
  | rpc (event : RpcEvent)
  | on (k : ℕ) (method : JsString) (cb : Callback)
  | off (k : ℕ) (method : JsString) (cb : Callback)

namespace System

def start (drivers : DriverRegistry) (processCwd : JsString) : System Scratch Callback :=
  ⟨.start drivers processCwd, .start, []⟩

/-- A session and its connection share the socket: what the session was sent is on the way. -/
def carry (json : BusValue → Json) (session session' : Option (ClientSession BusValue))
    (connection : Connection) : Connection :=
  match session, session' with
  | some before, some after => { connection with
      toClient := connection.toClient ++
        (after.received.drop before.received.length).map (Notice.frame json)
      opened := after.opened }
  | _, _ => connection

def carryAll (json : BusValue → Json) (engine next : Engine Scratch) (world : RpcWorld) : RpcWorld where
  methods := world.methods
  connections := world.connections.mapIdx fun k connection ↦
    carry json engine.server.sessions[k]? next.server.sessions[k]? connection
  received := world.received

/-- The callbacks of a connection, when its client hears the next frame. -/
def hearNext (throws : Callback → Option Json → Bool) (connection : Option Connection)
    (handlers : Handlers Callback) : Handlers Callback :=
  match connection with
  | some connection =>
    match connection.foreign, connection.toClient with
    | false, frame :: _ => handlers.hear throws connection.client frame
    | _, _ => handlers
  | none => handlers

variable [DecidableEq Callback]

/-- One turn. An event that cannot happen in a state has no successor. `json` tells what
`JSON.stringify` reads off a payload, and `throws` which callbacks end the loop over their set. -/
def step (parserOf : Driver → DriverParser Scratch) (json : BusValue → Json)
    (throws : Callback → Option Json → Bool) (system : System Scratch Callback)
    (event : SystemEvent Scratch Callback) : Option (System Scratch Callback) :=
  match event with
  | .engine (.server .connect) | .engine (.server (.closed _)) => none
  | .engine event => (system.engine.step parserOf event).map fun engine ↦
      { system with engine, world := carryAll json system.engine engine system.world }
  | .connect foreign => (system.engine.step parserOf (.server .connect)).bind fun engine ↦
      (system.world.step (.connect foreign)).map fun world ↦
        ⟨engine, world, system.handlers ++ [.create]⟩
  | .closed k => (system.engine.step parserOf (.server (.closed k))).bind fun engine ↦
      (system.world.step (.serverClose k)).map fun world ↦ { system with engine, world }
  | .rpc (.connect _) | .rpc (.closing _) | .rpc (.serverClose _) => none
  | .rpc (.deliver k) => (system.world.deliver k).map fun world ↦
      ⟨system.engine, world,
        system.handlers.modify k (hearNext throws system.world.connections[k]?)⟩
  | .rpc event => (system.world.step event).map fun world ↦ { system with world }
  | .on k method cb => some
      { system with handlers := system.handlers.modify k (Handlers.on method cb) }
  | .off k method cb => some
      { system with handlers := system.handlers.modify k (Handlers.off method cb) }

variable {parserOf : Driver → DriverParser Scratch} {json : BusValue → Json}
  {throws : Callback → Option Json → Bool} {system next : System Scratch Callback}
  {event : SystemEvent Scratch Callback}

/-- All that one turn can do. -/
inductive Turn (parserOf : Driver → DriverParser Scratch) (json : BusValue → Json)
    (throws : Callback → Option Json → Bool) (system : System Scratch Callback) :
    SystemEvent Scratch Callback → System Scratch Callback → Prop
  | engine {event : EngineEvent Scratch} {engine : Engine Scratch}
      (hconnect : event ≠ .server .connect) (hstep : system.engine.step parserOf event = some engine) :
      Turn parserOf json throws system (.engine event)
        { system with engine, world := carryAll json system.engine engine system.world }
  | connect {foreign : Bool} {engine : Engine Scratch}
      (hstep : system.engine.step parserOf (.server .connect) = some engine) :
      Turn parserOf json throws system (.connect foreign) ⟨engine,
        { system.world with connections := system.world.connections ++ [.create foreign] },
        system.handlers ++ [.create]⟩
  | closed {k : ℕ} {engine : Engine Scratch} {world : RpcWorld}
      (hstep : system.engine.step parserOf (.server (.closed k)) = some engine)
      (hworld : system.world.step (.serverClose k) = some world) :
      Turn parserOf json throws system (.closed k) { system with engine, world }
  | deliver {k : ℕ} {world : RpcWorld} (hworld : system.world.deliver k = some world) :
      Turn parserOf json throws system (.rpc (.deliver k)) ⟨system.engine, world,
        system.handlers.modify k (hearNext throws system.world.connections[k]?)⟩
  | rpc {event : RpcEvent} {world : RpcWorld} (hconnect : ∀ foreign, event ≠ .connect foreign)
      (hdeliver : ∀ k, event ≠ .deliver k) (hworld : system.world.step event = some world) :
      Turn parserOf json throws system (.rpc event) { system with world }
  | on (k : ℕ) (method : JsString) (cb : Callback) :
      Turn parserOf json throws system (.on k method cb)
        { system with handlers := system.handlers.modify k (Handlers.on method cb) }
  | off (k : ℕ) (method : JsString) (cb : Callback) :
      Turn parserOf json throws system (.off k method cb)
        { system with handlers := system.handlers.modify k (Handlers.off method cb) }

theorem turn_of_step (h : system.step parserOf json throws event = some next) :
    Turn parserOf json throws system event next := by
  unfold step at h
  split at h
  · cases h
  · cases h
  · rename_i event hconnect _
    obtain ⟨engine, hengine, rfl⟩ := Option.map_eq_some_iff.mp h
    exact .engine hconnect hengine
  · obtain ⟨engine, hengine, hrest⟩ := Option.bind_eq_some_iff.mp h
    obtain ⟨world, hworld, rfl⟩ := Option.map_eq_some_iff.mp hrest
    cases hworld
    exact .connect hengine
  · obtain ⟨engine, hengine, hrest⟩ := Option.bind_eq_some_iff.mp h
    obtain ⟨world, hworld, rfl⟩ := Option.map_eq_some_iff.mp hrest
    exact .closed hengine hworld
  · cases h
  · cases h
  · cases h
  · obtain ⟨world, hworld, rfl⟩ := Option.map_eq_some_iff.mp h
    exact .deliver hworld
  · rename_i event hconnect _ _ hdeliver
    obtain ⟨world, hworld, rfl⟩ := Option.map_eq_some_iff.mp h
    exact .rpc hconnect hdeliver hworld
  · cases h
    exact .on ..
  · cases h
    exact .off ..

/-! ## What a session is sent in a turn of the engine -/

theorem kept_publish (server : TransportServer BusValue) (calls : List BusCall) :
    TransportServer.Kept server (server.publish calls) := by
  apply TransportServer.kept_foldl
  intro server call
  cases call with
  | set key value => exact .refl server
  | emit event value => exact TransportServer.kept_emit event value [] server

theorem tells_publish {server : TransportServer BusValue} (h : server.Forwarding)
    (hrunning : server.running = true) (k : ℕ) (calls : List BusCall) :
    TransportServer.Tells k server (server.publish calls) := by
  induction calls generalizing server with
  | nil => exact .refl server
  | cons call rest ih =>
    cases call with
    | set key value => exact ih h hrunning
    | emit event value =>
      have hkept := TransportServer.kept_emit event value [] server
      apply (TransportServer.tells_emit h hrunning event value []).trans
      exact ih (h.emit event value) (hkept.running.trans hrunning)

theorem tells_engine {engine after : Engine Scratch} (h : engine.Sound)
    (hrunning : engine.server.running = true) (k : ℕ) {event : EngineEvent Scratch}
    (hstep : engine.step parserOf event = some after) :
    TransportServer.Tells k engine.server after.server := by
  cases Engine.turn_of_step hstep with
  | fleet hfleet => exact tells_publish h.forwarding hrunning k _
  | registered hfleet hserver => exact TransportServer.tells_step h.forwarding hrunning hserver
  | server hserver => exact TransportServer.tells_step h.forwarding hrunning hserver

theorem length_sessions_engine {engine after : Engine Scratch} {event : EngineEvent Scratch}
    (hconnect : event ≠ .server .connect) (hstep : engine.step parserOf event = some after) :
    after.server.sessions.length = engine.server.sessions.length := by
  cases Engine.turn_of_step hstep with
  | fleet hfleet => exact (kept_publish engine.server _).length
  | registered hfleet hserver => exact TransportServer.length_sessions_step (by nofun) hserver
  | server hserver =>
    exact TransportServer.length_sessions_step (fun heq ↦ hconnect (congrArg _ heq)) hserver

theorem length_sessions_connect {engine after : Engine Scratch}
    (hstep : engine.step parserOf (.server .connect) = some after) :
    after.server.sessions.length = engine.server.sessions.length + 1 := by
  cases Engine.turn_of_step hstep with
  | server hserver =>
    rw [TransportServer.step, Option.ite_none_right_eq_some] at hserver
    obtain ⟨_, hnext⟩ := hserver
    cases hnext
    exact List.length_append

/-! ## Turns -/

/-- Each session has its connection and its callbacks, and what is on the way is plain. -/
structure Sound (system : System Scratch Callback) : Prop where
  engine : system.engine.Sound
  connections : system.world.connections.length = system.engine.server.sessions.length
  handlers : system.handlers.length = system.engine.server.sessions.length
  plain : ∀ connection ∈ system.world.connections, ∀ frame ∈ connection.toClient, RpcWorld.Plain frame

theorem plain_of_forwardsAll {world after : RpcWorld} {event : RpcEvent}
    (h : ∀ connection ∈ world.connections, ∀ frame ∈ connection.toClient, RpcWorld.Plain frame)
    (hforwards : RpcWorld.ForwardsAll event world after) :
    ∀ connection ∈ after.connections, ∀ frame ∈ connection.toClient, RpcWorld.Plain frame := by
  intro connection hmem frame hframe
  obtain ⟨k, hk⟩ := List.mem_iff_getElem?.mp hmem
  have hlt : k < world.connections.length := by
    rw [← hforwards.1]
    exact (List.getElem?_eq_some_iff.mp hk).1
  obtain ⟨other, hother, _, frames, htoClient, hsent⟩ :=
    hforwards.2 k _ (List.getElem?_eq_getElem hlt)
  obtain rfl : other = connection := Option.some.inj (hother.symm.trans hk)
  rw [htoClient] at hframe
  rcases List.mem_append.mp hframe with hold | hnew
  · exact h _ (List.getElem_mem hlt) frame hold
  · exact (hsent frame hnew).plain

theorem plain_carry (json : BusValue → Json) (session session' : Option (ClientSession BusValue))
    {connection : Connection} (h : ∀ frame ∈ connection.toClient, RpcWorld.Plain frame) :
    ∀ frame ∈ (carry json session session' connection).toClient, RpcWorld.Plain frame := by
  unfold carry
  split
  · intro frame hframe
    rcases List.mem_append.mp hframe with hold | hnew
    · exact h frame hold
    · obtain ⟨notice, _, rfl⟩ := List.mem_map.mp hnew
      exact .inl (field_notification notice.method _)
  · exact h

theorem Sound.step (h : system.Sound) (hstep : system.step parserOf json throws event = some next) :
    next.Sound := by
  cases turn_of_step hstep with
  | @engine event engine hconnect hengine =>
    have hlength := length_sessions_engine hconnect hengine
    refine ⟨h.engine.step hengine, ?_, ?_, ?_⟩
    · rw [hlength, ← h.connections]
      exact List.length_mapIdx
    · rw [hlength, ← h.handlers]
    · intro connection hmem
      obtain ⟨k, hk⟩ := List.mem_iff_getElem?.mp hmem
      rw [carryAll, List.getElem?_mapIdx] at hk
      obtain ⟨before, hbefore, rfl⟩ := Option.map_eq_some_iff.mp hk
      exact plain_carry json _ _ (h.plain before (List.mem_of_getElem? hbefore))
  | connect hengine =>
    have hlength := length_sessions_connect hengine
    refine ⟨h.engine.step hengine, ?_, ?_, ?_⟩
    · rw [hlength, ← h.connections]
      exact List.length_append
    · rw [hlength, ← h.handlers]
      exact List.length_append
    · intro connection hmem
      rcases List.mem_append.mp hmem with hold | hlast
      · exact h.plain connection hold
      · rw [List.mem_singleton.mp hlast]
        exact fun _ hframe ↦ absurd hframe List.not_mem_nil
  | closed hengine hworld =>
    have hlength := length_sessions_engine (by nofun) hengine
    have hforwards := RpcWorld.forwardsAll_step (by nofun) (by nofun) hworld
    exact ⟨h.engine.step hengine, hforwards.1.trans (h.connections.trans hlength.symm),
      h.handlers.trans hlength.symm, plain_of_forwardsAll h.plain hforwards⟩
  | deliver hworld =>
    obtain ⟨connection, frame, rest, hget, htoClient, rfl⟩ := RpcWorld.deliver_step hworld
    refine ⟨h.engine, ?_, ?_, ?_⟩
    · exact (List.length_modify ..).trans h.connections
    · exact (List.length_modify ..).trans h.handlers
    · intro other hmem
      obtain ⟨j, hj⟩ := List.mem_iff_getElem?.mp hmem
      rw [RpcWorld.onConnection, List.getElem?_modify] at hj
      obtain ⟨before, hbefore, rfl⟩ := Option.map_eq_some_iff.mp hj
      have hplain := h.plain before (List.mem_of_getElem? hbefore)
      split
      · rename_i hk
        obtain rfl : connection = before := Option.some.inj (hget.symm.trans (hk ▸ hbefore))
        rw [htoClient] at hplain
        exact fun frame hframe ↦ hplain frame (List.mem_cons_of_mem _ hframe)
      · exact hplain
  | rpc hconnect hdeliver hworld =>
    have hforwards := RpcWorld.forwardsAll_step hconnect hdeliver hworld
    exact ⟨h.engine, hforwards.1.trans h.connections, h.handlers,
      plain_of_forwardsAll h.plain hforwards⟩
  | on k method cb => exact ⟨h.engine, h.connections, (List.length_modify ..).trans h.handlers, h.plain⟩
  | off k method cb => exact ⟨h.engine, h.connections, (List.length_modify ..).trans h.handlers, h.plain⟩

omit [DecidableEq Callback] in
theorem sound_start (drivers : DriverRegistry) (processCwd : JsString) :
    (start drivers processCwd : System Scratch Callback).Sound :=
  ⟨Engine.sound_start drivers processCwd, rfl, rfl, fun _ hmem ↦ absurd hmem List.not_mem_nil⟩

theorem sound_of_run {drivers : DriverRegistry} {processCwd : JsString}
    {schedule : List (SystemEvent Scratch Callback)}
    (hrun : run (step parserOf json throws) (start drivers processCwd) schedule = some system) :
    system.Sound := by
  have hkeep : ∀ (system : System Scratch Callback) event next, system.Sound → True →
      system.step parserOf json throws event = some next → next.Sound :=
    fun _ _ _ h _ hstep ↦ h.step hstep
  exact (throughout_of_invariant hkeep (sound_start drivers processCwd)
    (stepsMeet_true _ schedule)).last hrun

omit [DecidableEq Callback] in
/-- The two ends of a connected client's socket, and its callbacks. -/
theorem Sound.ends (h : system.Sound) {k : ℕ} (hclient : k ∈ system.engine.server.clients) :
    ∃ session connection own, system.engine.server.sessions[k]? = some session ∧
      system.world.connections[k]? = some connection ∧ system.handlers[k]? = some own := by
  have hknown := h.engine.forwarding.known k hclient
  have hconnection : k < system.world.connections.length := h.connections ▸ hknown
  have hhandlers : k < system.handlers.length := h.handlers ▸ hknown
  exact ⟨_, _, _, List.getElem?_eq_getElem hknown, List.getElem?_eq_getElem hconnection,
    List.getElem?_eq_getElem hhandlers⟩

/-! ## What a callback is called with -/

section Called

variable (kind : AgentEvent) (id : JsString) (cb : Callback) (k : ℕ)

/-- The payloads that the callback was called with. -/
def called (system : System Scratch Callback) : List Json :=
  ((system.handlers[k]?).map (Handlers.heard kind id cb)).getD []

omit [DecidableEq Callback] in
/-- The payloads that the client has not heard yet. -/
def onTheWay (system : System Scratch Callback) : List Json :=
  ((system.world.connections[k]?).map fun connection ↦
    connection.toClient.filterMap (kind.dataIn id)).getD []

/-- The payloads that a turn emits. -/
def payloads (parserOf : Driver → DriverParser Scratch) (system : System Scratch Callback) :
    SystemEvent Scratch Callback → List BusValue
  | .engine event => system.engine.payloads parserOf kind id event
  | _ => []

/-- When the client hears a notification of the event, the callback is subscribed and no callback in
front of it throws. -/
def Reached (throws : Callback → Option Json → Bool) (system : System Scratch Callback) :
    SystemEvent Scratch Callback → Prop
  | .rpc (.deliver j) => j = k → ∀ connection ∈ system.world.connections[k]?,
      ∀ own ∈ system.handlers[k]?, ∀ frame ∈ connection.toClient.head?,
        (kind.dataIn id frame).isSome = true →
          cb ∈ Handlers.reached throws (frame.field (js "params")) (own.setOf kind.method)
  | .rpc (.notify j method _) => j = k → method ≠ kind.method
  | _ => True

/-- The client is one of `openClient`, listens to the event, and has the callback called. Nobody
else sends it notifications of the event. -/
structure Follows (throws : Callback → Option Json → Bool) (system : System Scratch Callback)
    (event : SystemEvent Scratch Callback) : Prop where
  listens : system.engine.server.Listens kind id k
  own : ∀ connection ∈ system.world.connections[k]?, connection.foreign = false
  reached : Reached kind id cb k throws system event

instance (throws : Callback → Option Json → Bool) (system : System Scratch Callback)
    (event : SystemEvent Scratch Callback) : Decidable (Reached kind id cb k throws system event) := by
  unfold Reached
  split <;> infer_instance

instance (throws : Callback → Option Json → Bool) (system : System Scratch Callback)
    (event : SystemEvent Scratch Callback) : Decidable (Follows kind id cb k throws system event) :=
  decidable_of_iff (system.engine.server.Listens kind id k ∧
      (∀ connection ∈ system.world.connections[k]?, connection.foreign = false) ∧
      Reached kind id cb k throws system event)
    ⟨fun h ↦ ⟨h.1, h.2.1, h.2.2⟩, fun h ↦ ⟨h.listens, h.own, h.reached⟩⟩

end Called

variable {kind : AgentEvent} {id : JsString} {cb : Callback} {k : ℕ}

omit [DecidableEq Callback] in
/-- A turn of the engine puts what it emits on the way. -/
theorem onTheWay_engine (h : system.Sound) (hkind : kind ≠ .exited)
    (hlistens : system.engine.server.Listens kind id k) {event : EngineEvent Scratch}
    {engine : Engine Scratch} (hstep : system.engine.step parserOf event = some engine) :
    onTheWay kind id k
        ({ system with engine, world := carryAll json system.engine engine system.world } :
          System Scratch Callback) =
      system.onTheWay kind id k ++ (system.engine.payloads parserOf kind id event).map json := by
  obtain ⟨session, connection, _, hsession, hconnection, _⟩ := h.ends hlistens.client
  obtain ⟨session', notices, hsession', hreceived, hgenuine⟩ :=
    tells_engine h.engine hlistens.running k hstep session hsession
  have hheard := Engine.heardAt_step h.engine hlistens hstep
  rw [TransportServer.heardAt, TransportServer.heardAt, hsession', hsession, Option.map_some,
    Option.map_some, Option.getD_some, Option.getD_some, ClientSession.heard, ClientSession.heard,
    hreceived, List.filterMap_append, List.append_cancel_left_eq] at hheard
  have hframes : (notices.map (Notice.frame json)).filterMap (kind.dataIn id) =
      (notices.filterMap (Notice.dataOf kind id)).map json := by
    rw [List.filterMap_map, List.map_filterMap]
    exact List.filterMap_congr fun notice hmem ↦
      AgentEvent.dataIn_frame json kind id hkind (hgenuine notice hmem)
  have hcarried : (carryAll json system.engine engine system.world).connections[k]? =
      some (carry json (some session) (some session') connection) := by
    rw [carryAll, List.getElem?_mapIdx, hconnection, hsession, hsession', Option.map_some]
  rw [onTheWay, onTheWay, hcarried, hconnection, Option.map_some, Option.map_some, Option.getD_some,
    Option.getD_some, carry, hreceived, List.drop_left, List.filterMap_append, hframes, hheard]

/-- What was on the way is what was heard now and what still is. -/
theorem line_deliver (h : system.Sound) (hfollows : Follows kind id cb k throws system
      (.rpc (.deliver k))) {world : RpcWorld} (hworld : system.world.deliver k = some world) :
    let next : System Scratch Callback := ⟨system.engine, world,
      system.handlers.modify k (hearNext throws system.world.connections[k]?)⟩
    next.called kind id cb k ++ next.onTheWay kind id k =
      system.called kind id cb k ++ system.onTheWay kind id k := by
  obtain ⟨connection, frame, rest, hget, htoClient, rfl⟩ := RpcWorld.deliver_step hworld
  obtain ⟨_, _, own, _, _, hown⟩ := h.ends hfollows.listens.client
  have hplain := h.plain connection (List.mem_of_getElem? hget) frame
    (htoClient ▸ List.mem_cons_self)
  have hheard : (hearNext throws (some connection) own).heard kind id cb =
      own.heard kind id cb ++ (kind.dataIn id frame).toList := by
    rw [hearNext, hfollows.own connection hget, htoClient]
    exact Handlers.heard_hear throws connection.client own hplain
      (hfollows.reached rfl connection hget own hown frame (htoClient ▸ rfl))
  have hnext : (system.handlers.modify k (hearNext throws (some connection)))[k]? =
      some (hearNext throws (some connection) own) := by
    rw [List.getElem?_modify, hown]
    simp
  have hway : (system.world.onConnection k (Connection.deliver frame rest)).connections[k]? =
      some (connection.deliver frame rest) := by
    rw [RpcWorld.onConnection, List.getElem?_modify, hget]
    simp
  calc
    _ = (own.heard kind id cb ++ (kind.dataIn id frame).toList) ++
          rest.filterMap (kind.dataIn id) := by
        simp only [called, onTheWay, hget, hnext, hway, Option.map_some, Option.getD_some, hheard]
        rfl
    _ = own.heard kind id cb ++ (frame :: rest).filterMap (kind.dataIn id) := by
        rw [List.append_assoc, List.filterMap_cons]
        cases kind.dataIn id frame <;> rfl
    _ = system.called kind id cb k ++ system.onTheWay kind id k := by
        rw [called, onTheWay, hown, hget, Option.map_some, Option.map_some, Option.getD_some,
          Option.getD_some, htoClient]

omit [DecidableEq Callback] in
/-- What the connections send of themselves is no notification of the event. -/
theorem onTheWay_forwards (h : system.Sound) (hclient : k ∈ system.engine.server.clients)
    {event : RpcEvent} (hquiet : ∀ method params, event = .notify k method params →
      method ≠ kind.method) (engine : Engine Scratch) {world : RpcWorld}
    (hforwards : RpcWorld.ForwardsAll event system.world world) :
    onTheWay kind id k (⟨engine, world, system.handlers⟩ : System Scratch Callback) =
      system.onTheWay kind id k := by
  obtain ⟨_, connection, _, _, hconnection, _⟩ := h.ends hclient
  obtain ⟨after, hafter, _, frames, htoClient, hsent⟩ := hforwards.2 k connection hconnection
  have hnone : frames.filterMap (kind.dataIn id) = [] := by
    refine List.filterMap_eq_nil_iff.mpr fun frame hmem ↦ if_neg fun hmethod ↦ ?_
    rcases hsent frame hmem with hnone | ⟨method, params, hevent, rfl⟩
    · exact Option.some_ne_none _ (hmethod.symm.trans hnone)
    · exact hquiet method params hevent (Json.str.inj (Option.some.inj hmethod))
  rw [onTheWay, onTheWay, hafter, hconnection, Option.map_some, Option.map_some, Option.getD_some,
    Option.getD_some, htoClient, List.filterMap_append, hnone, List.append_nil]

/-- A change of the callbacks' sets is no call. -/
theorem called_modify (system : System Scratch Callback) (j : ℕ)
    {change : Handlers Callback → Handlers Callback}
    (h : ∀ own, (change own).heard kind id cb = own.heard kind id cb) :
    called kind id cb k
        ({ system with handlers := system.handlers.modify j change } : System Scratch Callback) =
      system.called kind id cb k := by
  rw [called, called, List.getElem?_modify]
  cases system.handlers[k]? with
  | none => rfl
  | some own =>
    by_cases hj : j = k
    · simp [hj, h]
    · simp [hj]

/-- In a turn the calls and what is on the way grow by what is emitted. -/
theorem line_step (h : system.Sound) (hkind : kind ≠ .exited)
    (hfollows : Follows kind id cb k throws system event)
    (hstep : system.step parserOf json throws event = some next) :
    next.called kind id cb k ++ next.onTheWay kind id k =
      (system.called kind id cb k ++ system.onTheWay kind id k) ++
        (system.payloads kind id parserOf event).map json := by
  have hclient := hfollows.listens.client
  cases turn_of_step hstep with
  | engine hconnect hengine =>
    rw [onTheWay_engine h hkind hfollows.listens hengine, List.append_assoc]
    rfl
  | @connect foreign engine hengine =>
    obtain ⟨_, connection, own, _, hconnection, hown⟩ := h.ends hclient
    have hconnections : (system.world.connections ++ [.create foreign])[k]? =
        system.world.connections[k]? :=
      List.getElem?_append_left (List.getElem?_eq_some_iff.mp hconnection).1
    have hhandlers : (system.handlers ++ [.create])[k]? = system.handlers[k]? :=
      List.getElem?_append_left (List.getElem?_eq_some_iff.mp hown).1
    rw [called, called, onTheWay, onTheWay, hconnections, hhandlers]
    exact (List.append_nil _).symm
  | @closed j engine world hengine hworld =>
    have hforwards := RpcWorld.forwardsAll_step (by nofun) (by nofun) hworld
    rw [onTheWay_forwards h hclient (by nofun) engine hforwards]
    exact (List.append_nil _).symm
  | @deliver j world hworld =>
    refine Eq.trans ?_ (List.append_nil _).symm
    by_cases hj : j = k
    · subst hj
      exact line_deliver h hfollows hworld
    · obtain ⟨connection, frame, rest, _, _, rfl⟩ := RpcWorld.deliver_step hworld
      have hhandlers : (system.handlers.modify j (hearNext throws system.world.connections[j]?))[k]? =
          system.handlers[k]? := by
        rw [List.getElem?_modify]
        simp [hj]
      have hworld : (system.world.onConnection j (Connection.deliver frame rest)).connections[k]? =
          system.world.connections[k]? := by
        rw [RpcWorld.onConnection, List.getElem?_modify]
        simp [hj]
      rw [called, called, onTheWay, onTheWay, hhandlers, hworld]
  | @rpc event world hconnect hdeliver hworld =>
    have hforwards := RpcWorld.forwardsAll_step hconnect hdeliver hworld
    have hquiet : ∀ method params, event = .notify k method params → method ≠ kind.method := by
      rintro method params rfl
      exact hfollows.reached rfl
    rw [onTheWay_forwards h hclient hquiet system.engine hforwards]
    exact (List.append_nil _).symm
  | on j method other =>
    have hcalled := @called_modify _ _ _ kind id cb k system j (Handlers.on method other) fun _ ↦ rfl
    rw [hcalled]
    exact (List.append_nil _).symm
  | off j method other =>
    have hcalled := @called_modify _ _ _ kind id cb k system j (Handlers.off method other) fun _ ↦ rfl
    rw [hcalled]
    exact (List.append_nil _).symm

/-- From any reachable state on, a callback that stays subscribed at a client that listens is called
with what was on the way and with what is emitted, each once and in order, but for what is still on
the way. -/
theorem called_emitted (parserOf : Driver → DriverParser Scratch) (json : BusValue → Json)
    (throws : Callback → Option Json → Bool) (drivers : DriverRegistry) (processCwd : JsString)
    {kind : AgentEvent} (hkind : kind ≠ .exited) (id : JsString) (cb : Callback) (k : ℕ)
    {before during : List (SystemEvent Scratch Callback)} {first last : System Scratch Callback}
    (hfirst : run (step parserOf json throws) (start drivers processCwd) before = some first)
    (hfollows : StepsMeet (step parserOf json throws) (Follows kind id cb k throws) first during)
    (hlast : run (step parserOf json throws) first during = some last) :
    last.called kind id cb k ++ last.onTheWay kind id k =
      (first.called kind id cb k ++ first.onTheWay kind id k) ++
        (collect (step parserOf json throws) (payloads kind id parserOf) first during).map json := by
  rw [← collect_hom List.map_nil fun _ _ ↦ List.map_append]
  exact collect_of_invariant
    (fun _ _ _ h hfollows hstep ↦ ⟨h.step hstep, line_step h hkind hfollows hstep⟩)
    (sound_of_run hfirst) hfollows hlast

section Subscribed

/-- A message is an object with its text. -/
def plainJson : BusValue → Json
  | .message message => .obj [(js "text", .str message.text)]
  | _ => .null

/-- No callback throws. -/
def plainStep : System Unit ℕ → SystemEvent Unit ℕ → Option (System Unit ℕ) :=
  step (fun _ ↦ codexParser) plainJson fun _ _ ↦ false

/-- The system after a schedule. -/
def after (schedule : List (SystemEvent Unit ℕ)) : System Unit ℕ :=
  (run plainStep (start .create (js "/")) schedule).getD (start .create (js "/"))

/-- A Codex agent is spawned, and a client connects and subscribes a callback. -/
def subscribed : List (SystemEvent Unit ℕ) :=
  Engine.spawned.dropLast.map .engine ++ [.connect false, .on 0 (js "agent.message") 7]

/-- The agent is asked once and answers, and the client hears all of it. -/
def heardAll : List (SystemEvent Unit ℕ) :=
  Engine.answered.map .engine ++ List.replicate 4 (.rpc (.deliver 0))

theorem run_after : run plainStep (start .create (js "/")) subscribed = some (after subscribed) ∧
    run plainStep (after subscribed) heardAll = some (after (subscribed ++ heardAll)) :=
  run_getD (by decide +kernel)

theorem called_emitted_heard :
    (after (subscribed ++ heardAll)).called .message (js "x") 7 0 ++
        (after (subscribed ++ heardAll)).onTheWay .message (js "x") 0 =
      ((after subscribed).called .message (js "x") 7 0 ++
        (after subscribed).onTheWay .message (js "x") 0) ++
        (collect plainStep (payloads .message (js "x") fun _ ↦ codexParser) (after subscribed)
          heardAll).map plainJson :=
  called_emitted _ _ _ _ _ (by decide) (js "x") 7 0 run_after.1 (by decide +kernel) run_after.2

end Subscribed

/-! ## What a callback hears of a transcript -/

/-- Only the runtime of the spawn call emits the messages of the agent. -/
def SpokenBy (j : ℕ) (id : JsString) (system : System Scratch Callback) :
    SystemEvent Scratch Callback → Prop
  | .engine event => system.engine.SpokenBy j id event
  | _ => True

/-- A turn adds to the transcript what it emits of it. -/
theorem transcriptAt_step (h : system.Sound) {j : ℕ} {runtime : Runtime Scratch}
    (hruntime : system.engine.fleet.runtimeAt j = some runtime)
    (hspoken : system.SpokenBy j runtime.core.id event)
    (hstep : system.step parserOf json throws event = some next) :
    (∃ after, next.engine.fleet.runtimeAt j = some after ∧ after.core.id = runtime.core.id) ∧
      next.engine.fleet.transcriptAt j = system.engine.fleet.transcriptAt j ++
        (system.payloads .message runtime.core.id parserOf event).filterMap BusValue.entry := by
  have hsame : (∃ after, system.engine.fleet.runtimeAt j = some after ∧
      after.core.id = runtime.core.id) ∧ system.engine.fleet.transcriptAt j =
        system.engine.fleet.transcriptAt j ++ ([] : List BusValue).filterMap BusValue.entry :=
    ⟨⟨runtime, hruntime, rfl⟩, (List.append_nil _).symm⟩
  cases turn_of_step hstep with
  | engine hconnect hengine => exact Engine.transcriptAt_step h.engine hruntime hspoken hengine
  | connect hengine =>
    exact @Engine.transcriptAt_step _ _ _ _ (.server .connect) h.engine j runtime hruntime trivial hengine
  | @closed k engine world hengine hworld =>
    exact @Engine.transcriptAt_step _ _ _ _ (.server (.closed k)) h.engine j runtime hruntime trivial
      hengine
  | _ => exact hsame

/-- From any reachable state on, what a callback hears under the messages of an agent, with what is
still on the way, follows the agent's transcript: each new entry comes once, in order, as long as
only its runtime emits them. -/
theorem called_transcript (parserOf : Driver → DriverParser Scratch) (json : BusValue → Json)
    (throws : Callback → Option Json → Bool) (drivers : DriverRegistry) (processCwd : JsString)
    (cb : Callback) (k j : ℕ) {before during : List (SystemEvent Scratch Callback)}
    {first last : System Scratch Callback} {runtime : Runtime Scratch}
    (hfirst : run (step parserOf json throws) (start drivers processCwd) before = some first)
    (hruntime : first.engine.fleet.runtimeAt j = some runtime)
    (hfollows : StepsMeet (step parserOf json throws)
      (Follows .message runtime.core.id cb k throws) first during)
    (hspoken : StepsMeet (step parserOf json throws) (SpokenBy j runtime.core.id) first during)
    (hlast : run (step parserOf json throws) first during = some last) :
    ∃ emitted : List BusValue,
      last.engine.fleet.transcriptAt j =
        first.engine.fleet.transcriptAt j ++ emitted.filterMap BusValue.entry ∧
      last.called .message runtime.core.id cb k ++ last.onTheWay .message runtime.core.id k =
        (first.called .message runtime.core.id cb k ++
          first.onTheWay .message runtime.core.id k) ++ emitted.map json := by
  have hkeep : ∀ (system : System Scratch Callback) event next,
      (system.Sound ∧ ∃ after, system.engine.fleet.runtimeAt j = some after ∧
        after.core.id = runtime.core.id) → system.SpokenBy j runtime.core.id event →
      system.step parserOf json throws event = some next →
        (next.Sound ∧ ∃ after, next.engine.fleet.runtimeAt j = some after ∧
          after.core.id = runtime.core.id) ∧
        next.engine.fleet.transcriptAt j = system.engine.fleet.transcriptAt j ++
          (system.payloads .message runtime.core.id parserOf event).filterMap BusValue.entry := by
    rintro system event next ⟨h, after, hafter, hid⟩ hspoken hstep
    rw [← hid] at hspoken ⊢
    obtain ⟨hruntime, htranscript⟩ := transcriptAt_step h hafter hspoken hstep
    exact ⟨⟨h.step hstep, hruntime⟩, htranscript⟩
  have hsound := sound_of_run hfirst
  refine ⟨collect (step parserOf json throws) (payloads .message runtime.core.id parserOf) first
    during, ?_, ?_⟩
  · rw [← collect_hom List.filterMap_nil fun _ _ ↦ List.filterMap_append]
    exact collect_of_invariant hkeep ⟨hsound, runtime, hruntime, rfl⟩ hspoken hlast
  · have hkind : AgentEvent.message ≠ .exited := nofun
    rw [← collect_hom List.map_nil fun _ _ ↦ List.map_append]
    exact collect_of_invariant
      (fun _ _ _ h hfollows hstep ↦ ⟨h.step hstep, line_step h hkind hfollows hstep⟩) hsound hfollows
      hlast

theorem called_transcript_heard : ∃ (runtime : Runtime Unit) (emitted : List BusValue),
    (after subscribed).engine.fleet.runtimeAt 0 = some runtime ∧
      (after (subscribed ++ heardAll)).engine.fleet.transcriptAt 0 =
        (after subscribed).engine.fleet.transcriptAt 0 ++ emitted.filterMap BusValue.entry ∧
      (after (subscribed ++ heardAll)).called .message runtime.core.id 7 0 ++
          (after (subscribed ++ heardAll)).onTheWay .message runtime.core.id 0 =
        ((after subscribed).called .message runtime.core.id 7 0 ++
          (after subscribed).onTheWay .message runtime.core.id 0) ++ emitted.map plainJson := by
  have hsome : ((after subscribed).engine.fleet.runtimeAt 0).isSome = true := by decide +kernel
  obtain ⟨runtime, hruntime⟩ := Option.isSome_iff_exists.mp hsome
  have hmap : ((after subscribed).engine.fleet.runtimeAt 0).map (fun runtime ↦ runtime.core.id) =
      some (js "x") := by decide +kernel
  have hid : runtime.core.id = js "x" := by
    rw [hruntime, Option.map_some, Option.some.injEq] at hmap
    exact hmap
  have hfollows : StepsMeet plainStep (Follows .message runtime.core.id 7 0 fun _ _ ↦ false)
      (after subscribed) heardAll := by
    rw [hid]
    decide +kernel
  have hspoken : StepsMeet plainStep (SpokenBy 0 runtime.core.id) (after subscribed) heardAll := by
    refine stepsMeet_of_forall (fun event hmem system ↦ ?_) _
    rcases List.mem_append.mp hmem with hengine | hrpc
    · obtain ⟨turn, hturn, rfl⟩ := List.mem_map.mp hengine
      rcases List.mem_cons.mp hturn with rfl | hlast
      · exact fun hne ↦ absurd rfl hne
      · rw [List.mem_singleton.mp hlast]
        exact fun hne ↦ absurd rfl hne
    · rw [List.eq_of_mem_replicate hrpc]
      trivial
  obtain ⟨emitted, hboth⟩ :=
    called_transcript _ _ _ _ _ 7 0 0 run_after.1 hruntime hfollows hspoken run_after.2
  exact ⟨runtime, emitted, hruntime, hboth⟩

end System

end Cordyceps.Cli
