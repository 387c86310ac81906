import Cordyceps.Foundations.JsonRoundTrip
import Cordyceps.Foundations.StepMachine
import Cordyceps.Transport.Connections

/-!
# The frames as texts

On the socket a frame is a text: `session.send` and `call` write it with `JSON.stringify`, and the
message listeners of both ends read it with `JSON.parse`. Here the queues of a connection hold the
texts. Read, they are the queues of `Connections`, and what the two ends do is the same.
-/

namespace Cordyceps.Transport

open Foundations Foundations.Json Foundations.StepMachine Cordyceps.Cli

/-- `Connection` with texts on the way. -/
structure TextConnection where
  foreign : Bool
  client : RpcClient
  sending : Bool
  listening : Bool
  toServer : List JsString
  toClient : List JsString
  opened : Bool
  attached : Bool

namespace TextConnection

def create (foreign : Bool) : TextConnection := ⟨foreign, .create, true, true, [], [], true, true⟩

/-- `ws.send` of the client. -/
def post (text : JsString) (connection : TextConnection) : TextConnection :=
  if connection.sending then { connection with toServer := connection.toServer ++ [text] }
  else connection

/-- `session.send`. -/
def send (connection : TextConnection) (payload : Json) : TextConnection :=
  if connection.opened then
    { connection with toClient := connection.toClient ++ [stringify payload] }
  else connection

def onClient (change : RpcClient → RpcClient) (connection : TextConnection) : TextConnection :=
  { connection with client := change connection.client }

def call (method : JsString) (params : Option Json) (connection : TextConnection) : TextConnection :=
  (connection.onClient (RpcClient.call method params)).post
    (stringify (Call.frame method params connection.client.nextId))

/-- The client hears the next frame; one that is no JSON is ignored. -/
def deliver (text : JsString) (rest : List JsString) (connection : TextConnection) : TextConnection :=
  match parse text with
  | some msg => { connection with toClient := rest }.onClient (RpcClient.onMessage msg)
  | none => { connection with toClient := rest }

/-- The close event of the client. -/
def close (connection : TextConnection) : TextConnection :=
  { connection with sending := false, listening := false }.onClient RpcClient.onClose

end TextConnection

/-- `received` are all frames that the daemon took, in order. -/
structure TextWorld where
  methods : List JsString
  connections : List TextConnection
  received : List Received

/-- A foreign program sends something. -/
def RpcEvent.isForeign : RpcEvent → Bool
  | .foreign _ _ => true
  | _ => false

/-- One turn. What a foreign program sends is any text. -/
inductive TextEvent
  | foreign (c : ℕ) (text : JsString)
  | turn (event : RpcEvent) (own : event.isForeign = false)

namespace TextWorld

def start : TextWorld := ⟨[], [], []⟩

def onConnection (c : ℕ) (change : TextConnection → TextConnection) (world : TextWorld) : TextWorld :=
  { world with connections := world.connections.modify c change }

/-- Change a connection that is in the right state. -/
def turn (c : ℕ) (ready : TextConnection → Bool) (change : TextConnection → TextConnection)
    (world : TextWorld) : Option TextWorld :=
  if world.connections[c]?.any ready then some (world.onConnection c change) else none

/-- The message listener of `handleClient`, up to its first `await`. -/
def receive (c : ℕ) (world : TextWorld) : Option TextWorld :=
  match world.connections[c]? with
  | some connection =>
    match connection.attached, connection.toServer with
    | true, text :: rest => some {
        world.onConnection c fun connection ↦ { connection with toServer := rest } with
        received := world.received ++
          [⟨c, parse text, dispatch world.methods (parse text), false, []⟩] }
    | _, _ => none
  | none => none

def finish (n : ℕ) (outcome : Outcome) (world : TextWorld) : Option TextWorld :=
  if world.received[n]?.map Received.work = some .running then
    some { world with received := world.received.modify n (Received.finish outcome) }
  else none

/-- The listener goes on once the dispatcher has answered. -/
def respond (n : ℕ) (world : TextWorld) : Option TextWorld :=
  match world.received[n]? with
  | some received =>
    if received.answered || received.work = .running then none
    else some {
      world.onConnection received.conn fun connection ↦
        received.response.toList.foldl TextConnection.send connection with
      received := world.received.modify n Received.respond }
  | none => none

def deliver (c : ℕ) (world : TextWorld) : Option TextWorld :=
  match world.connections[c]? with
  | some connection =>
    match connection.listening, connection.toClient with
    | true, text :: rest => some (world.onConnection c (TextConnection.deliver text rest))
    | _, _ => none
  | none => none

/-- One turn. An event that cannot happen in a state has no successor. -/
def step (world : TextWorld) : TextEvent → Option TextWorld
  | .foreign c text => world.turn c TextConnection.foreign (TextConnection.post text)
  | .turn (.register method) _ =>
    if method ∈ world.methods then none
    else some { world with methods := world.methods ++ [method] }
  | .turn (.unregister method) _ => some { world with methods := world.methods.erase method }
  | .turn (.connect foreign) _ =>
    some { world with connections := world.connections ++ [.create foreign] }
  | .turn (.call c method params) _ =>
    world.turn c (fun connection ↦ !connection.foreign) (TextConnection.call method params)
  | .turn (.callThrows c method) _ => world.turn c (fun connection ↦ !connection.foreign)
      (TextConnection.onClient (RpcClient.callThrows method))
  | .turn (.receive c) _ => world.receive c
  | .turn (.finish n outcome) _ => world.finish n outcome
  | .turn (.respond n) _ => world.respond n
  | .turn (.notify c method params) _ => world.turn c (fun _ ↦ true) fun connection ↦
      connection.send (notification method params)
  | .turn (.deliver c) _ => world.deliver c
  | .turn (.timer c k) _ => world.turn c
      (fun connection ↦ connection.client.calls[k]?.any Call.timer)
      (TextConnection.onClient (RpcClient.timeOut k))
  | .turn (.hangUp c) _ => world.turn c (fun _ ↦ true) fun connection ↦
      { connection with sending := false }
  | .turn (.closing c) _ => world.turn c (fun _ ↦ true) fun connection ↦
      { connection with opened := false }
  | .turn (.clientClose c) _ => world.turn c TextConnection.listening TextConnection.close
  | .turn (.serverClose c) _ => world.turn c TextConnection.attached fun connection ↦
      { connection with opened := false, attached := false }

end TextWorld

/-! ## Reading the texts -/

namespace TextConnection

/-- The connection with the values that the texts stand for. -/
def read (connection : TextConnection) : Connection where
  foreign := connection.foreign
  client := connection.client
  sending := connection.sending
  listening := connection.listening
  toServer := connection.toServer.map parse
  toClient := connection.toClient.map fun text ↦ (parse text).getD .null
  opened := connection.opened
  attached := connection.attached

theorem read_post (text : JsString) (connection : TextConnection) :
    (connection.post text).read = connection.read.post (parse text) := by
  unfold post Connection.post
  cases hsending : connection.sending with
  | true => simp [read, hsending]
  | false => simp [read, hsending]

theorem read_send (connection : TextConnection) {payload : Json} (h : Exact payload) :
    (connection.send payload).read = connection.read.send payload := by
  unfold send Connection.send
  cases hopened : connection.opened with
  | true => simp [read, hopened, parse_stringify h]
  | false => simp [read, hopened]

end TextConnection

namespace TextWorld

def read (world : TextWorld) : RpcWorld :=
  ⟨world.methods, world.connections.map TextConnection.read, world.received⟩

end TextWorld

def TextEvent.read : TextEvent → RpcEvent
  | .foreign c text => .foreign c (parse text)
  | .turn event _ => event

/-! ## Values that a text keeps -/

theorem exactMembers_iff {members : List (JsString × Json)} :
    ExactMembers members ↔ ∀ entry ∈ members, Exact entry.2 := by
  induction members with
  | nil => simp [ExactMembers]
  | cons entry rest ih => simp [ExactMembers, ih]

theorem exact_of_lookup {members : List (JsString × Json)} {key : JsString} {value : Json}
    (h : ExactMembers members) (hlookup : lookup key members = some value) : Exact value := by
  induction members with
  | nil => cases hlookup
  | cons entry rest ih =>
    rw [lookup] at hlookup
    split at hlookup
    · cases hlookup
      exact h.1
    · exact ih h.2 hlookup

theorem exact_field {object value : Json} {key : JsString} (h : Exact object)
    (hfield : object.field key = some value) : Exact value := by
  cases object with
  | obj members => exact exact_of_lookup h.2 hfield
  | _ => cases hfield

/-- An object literal of different keys. -/
theorem exact_jsonObject {members : List (JsString × Option Json)}
    (hkeys : (members.map Prod.fst).Nodup) (hvalues : ∀ entry ∈ members, ∀ value ∈ entry.2, Exact value) :
    Exact (jsonObject members) := by
  refine ⟨?_, exactMembers_iff.mpr fun entry hmem ↦ ?_⟩
  · refine hkeys.sublist ?_
    clear hkeys hvalues
    induction members with
    | nil => exact List.Sublist.refl _
    | cons entry rest ih =>
      obtain ⟨key, value⟩ := entry
      cases value with
      | none => exact ih.cons _
      | some value => exact ih.cons_cons _
  · obtain ⟨⟨key, value⟩, hentry, hsome⟩ := List.mem_filterMap.mp hmem
    obtain ⟨found, hfound, rfl⟩ := Option.map_eq_some_iff.mp hsome
    exact hvalues _ hentry found hfound

theorem decimalFraction_intCast (places : ℕ) (value : ℤ) : DecimalFraction places value := by
  have hcast : (value : ℚ) * 10 ^ places = ((value * 10 ^ places : ℤ) : ℚ) := by
    push_cast
    rfl
  rw [DecimalFraction, hcast]
  exact Rat.den_intCast _

theorem exact_some {value : Json} (h : Exact value) : ∀ other ∈ some value, Exact other :=
  fun _ hmem ↦ Option.mem_some_iff.mp hmem ▸ h

theorem exact_envelope {members : List (JsString × Option Json)}
    (hkeys : (js "jsonrpc" :: members.map Prod.fst).Nodup)
    (hvalues : ∀ entry ∈ members, ∀ value ∈ entry.2, Exact value) : Exact (envelope members) :=
  exact_jsonObject hkeys (List.forall_mem_cons.mpr ⟨exact_some trivial, hvalues⟩)

theorem exact_notification (method : JsString) {params : Option Json}
    (h : ∀ value ∈ params, Exact value) : Exact (notification method params) := by
  refine exact_envelope (by decide : [js "jsonrpc", js "method", js "params"].Nodup) ?_
  simp only [List.forall_mem_cons]
  exact ⟨exact_some trivial, h, fun _ hmem ↦ absurd hmem List.not_mem_nil⟩

theorem exact_frame (method : JsString) {params : Option Json} (id : ℕ)
    (h : ∀ value ∈ params, Exact value) : Exact (Call.frame method params id) := by
  refine exact_envelope (by decide : [js "jsonrpc", js "method", js "params", js "id"].Nodup) ?_
  simp only [List.forall_mem_cons]
  exact ⟨exact_some trivial, h, exact_some (decimalFraction_natCast 400 id),
    fun _ hmem ↦ absurd hmem List.not_mem_nil⟩

theorem exact_success {result id : Json} (hresult : Exact result) (hid : Exact id) :
    Exact (success result id) := by
  refine exact_envelope (by decide : [js "jsonrpc", js "result", js "id"].Nodup) ?_
  simp only [List.forall_mem_cons]
  exact ⟨exact_some hresult, exact_some hid, fun _ hmem ↦ absurd hmem List.not_mem_nil⟩

theorem exact_failure (code : ℤ) (message : JsString) {data : Option Json} {id : Json}
    (hdata : ∀ value ∈ data, Exact value) (hid : Exact id) :
    Exact (failure code message data id) := by
  have herror : Exact (jsonObject [(js "code", some (.num code)),
      (js "message", some (.str message)), (js "data", data)]) := by
    refine exact_jsonObject (by decide : [js "code", js "message", js "data"].Nodup) ?_
    simp only [List.forall_mem_cons]
    exact ⟨exact_some (decimalFraction_intCast 400 code), exact_some trivial, hdata,
      fun _ hmem ↦ absurd hmem List.not_mem_nil⟩
  refine exact_envelope (by decide : [js "jsonrpc", js "error", js "id"].Nodup) ?_
  simp only [List.forall_mem_cons]
  exact ⟨exact_some herror, exact_some hid, fun _ hmem ↦ absurd hmem List.not_mem_nil⟩

/-- What a handler answers is kept. -/
def Outcome.Exact : Outcome → Prop
  | .returned result => ∀ value ∈ result, Json.Exact value
  | .thrown (.methodError _ _ data) => ∀ value ∈ data, Json.Exact value
  | .thrown (.error _) => True

/-- The values that enter in a turn are kept: those of JavaScript are, whose numbers are doubles. -/
def TextEvent.Exact : TextEvent → Prop
  | .foreign _ text => ∀ raw, parse text = some raw → Json.Exact raw
  | .turn (.call _ _ params) _ | .turn (.notify _ _ params) _ => ∀ value ∈ params, Json.Exact value
  | .turn (.finish _ outcome) _ => outcome.Exact
  | .turn _ _ => True

theorem Outcome.exact_response {outcome : Outcome} (h : outcome.Exact) {id : Json}
    (hid : Json.Exact id) : Json.Exact (outcome.response id) := by
  cases outcome with
  | returned result =>
    refine exact_success ?_ hid
    cases result with
    | none => trivial
    | some value => exact h value rfl
  | thrown error =>
    cases error with
    | methodError code message data => exact exact_failure code message h hid
    | error text => exact exact_failure _ _ (fun value hvalue ↦ by cases hvalue; trivial) hid

/-- What the daemon took is kept, and what its handler answered. -/
def Received.Kept (received : Received) : Prop :=
  (∀ raw, received.raw = some raw → Exact raw) ∧
    ∀ outcome, received.work = .finished outcome → outcome.Exact

theorem Received.Kept.response {received : Received} (h : received.Kept) {response : Json}
    (hresponse : received.response = some response) : Exact response := by
  have hid : Exact received.idOf := by
    unfold idOf
    cases hraw : received.raw with
    | none => trivial
    | some raw =>
      cases hfield : raw.field (js "id") with
      | none =>
        rw [Option.bind_some, hfield]
        trivial
      | some id =>
        rw [Option.bind_some, hfield]
        exact exact_field (h.1 raw hraw) hfield
  have hnone : ∀ value ∈ (none : Option Json), Exact value := fun _ hvalue ↦ by cases hvalue
  unfold Received.response at hresponse
  split at hresponse
  · cases hresponse
    exact exact_failure _ _ hnone trivial
  · cases hresponse
    exact exact_failure _ _ hnone trivial
  · cases hresponse
    exact exact_failure _ _ hnone hid
  · rename_i outcome hwork
    cases hresponse
    exact Outcome.exact_response (h.2 outcome hwork) hid
  · cases hresponse
  · cases hresponse

/-! ## Turns -/

namespace TextConnection

/-- The texts on the way can be read, and those for the daemon are kept. -/
structure Readable (connection : TextConnection) : Prop where
  toServer : ∀ text ∈ connection.toServer, ∀ raw, parse text = some raw → Exact raw
  toClient : ∀ text ∈ connection.toClient, (parse text).isSome = true

variable {connection : TextConnection}

theorem Readable.post (h : connection.Readable) {text : JsString}
    (htext : ∀ raw, parse text = some raw → Exact raw) : (connection.post text).Readable := by
  unfold TextConnection.post
  split
  · refine ⟨fun other hmem ↦ ?_, h.toClient⟩
    rcases List.mem_append.mp hmem with hold | hlast
    · exact h.toServer other hold
    · rw [List.mem_singleton.mp hlast]
      exact htext
  · exact h

theorem Readable.send (h : connection.Readable) {payload : Json} (hpayload : Exact payload) :
    (connection.send payload).Readable := by
  unfold TextConnection.send
  split
  · refine ⟨h.toServer, fun other hmem ↦ ?_⟩
    rcases List.mem_append.mp hmem with hold | hlast
    · exact h.toClient other hold
    · rw [List.mem_singleton.mp hlast, parse_stringify hpayload]
      rfl
  · exact h

theorem Readable.onClient (h : connection.Readable) (change : RpcClient → RpcClient) :
    (connection.onClient change).Readable := ⟨h.toServer, h.toClient⟩

theorem exact_of_stringify {value : Json} (h : Exact value) :
    ∀ raw, parse (stringify value) = some raw → Exact raw := by
  intro raw hraw
  rw [parse_stringify h] at hraw
  cases hraw
  exact h

theorem read_call (connection : TextConnection) (method : JsString) {params : Option Json}
    (h : ∀ value ∈ params, Exact value) :
    (connection.call method params).read = connection.read.call method params := by
  rw [call, read_post, parse_stringify (exact_frame method _ h)]
  rfl

theorem Readable.call (h : connection.Readable) (method : JsString) {params : Option Json}
    (hparams : ∀ value ∈ params, Exact value) : (connection.call method params).Readable :=
  (h.onClient _).post (exact_of_stringify (exact_frame method _ hparams))

theorem read_deliver (connection : TextConnection) {text : JsString} (rest : List JsString)
    (h : (parse text).isSome = true) : (connection.deliver text rest).read =
      connection.read.deliver ((parse text).getD .null)
        (rest.map fun text ↦ (parse text).getD .null) := by
  obtain ⟨msg, hmsg⟩ := Option.isSome_iff_exists.mp h
  rw [deliver, hmsg]
  rfl

theorem Readable.deliver (h : connection.Readable) {text : JsString} {rest : List JsString}
    (htoClient : connection.toClient = text :: rest) : (connection.deliver text rest).Readable := by
  have hrest : ∀ other ∈ rest, (parse other).isSome = true :=
    fun other hmem ↦ h.toClient other (htoClient ▸ List.mem_cons_of_mem _ hmem)
  unfold TextConnection.deliver
  split <;> exact ⟨h.toServer, hrest⟩

theorem read_foldl_send (connection : TextConnection) {payload : Option Json}
    (h : ∀ value ∈ payload, Exact value) : (payload.toList.foldl send connection).read =
      payload.toList.foldl Connection.send connection.read := by
  cases payload with
  | none => rfl
  | some value => exact connection.read_send (h value rfl)

theorem Readable.foldl_send (h : connection.Readable) {payload : Option Json}
    (hpayload : ∀ value ∈ payload, Exact value) :
    (payload.toList.foldl TextConnection.send connection).Readable := by
  cases payload with
  | none => exact h
  | some value => exact h.send (hpayload value rfl)

end TextConnection

namespace TextWorld

/-- What is on the way and what the daemon took is kept. -/
structure Readable (world : TextWorld) : Prop where
  connections : ∀ connection ∈ world.connections, connection.Readable
  received : ∀ received ∈ world.received, received.Kept

variable {world next : TextWorld}

theorem getElem?_read (world : TextWorld) (c : ℕ) :
    world.read.connections[c]? = world.connections[c]?.map TextConnection.read :=
  List.getElem?_map ..

theorem read_onConnection {c : ℕ} {change : TextConnection → TextConnection}
    {change' : Connection → Connection}
    (h : ∀ connection, world.connections[c]? = some connection →
      (change connection).read = change' connection.read) :
    (world.onConnection c change).read = world.read.onConnection c change' := by
  have hconnections : (world.connections.modify c change).map TextConnection.read =
      (world.connections.map TextConnection.read).modify c change' := by
    apply List.ext_getElem?
    intro k
    rw [List.getElem?_map, List.getElem?_modify, List.getElem?_modify, List.getElem?_map]
    by_cases hk : c = k
    · subst hk
      cases hget : world.connections[c]? with
      | none => rfl
      | some connection => simpa using h connection hget
    · cases world.connections[k]? <;> simp [hk]
  rw [onConnection, read, hconnections]
  rfl

theorem Readable.onConnection (h : world.Readable) {c : ℕ} {change : TextConnection → TextConnection}
    (hchange : ∀ connection, world.connections[c]? = some connection → connection.Readable →
      (change connection).Readable) : (world.onConnection c change).Readable := by
  refine ⟨fun connection hmem ↦ ?_, h.received⟩
  obtain ⟨k, hk⟩ := List.mem_iff_getElem?.mp hmem
  rw [TextWorld.onConnection, List.getElem?_modify] at hk
  obtain ⟨old, hold, hnew⟩ := Option.map_eq_some_iff.mp hk
  have hreadable := h.connections old (List.mem_of_getElem? hold)
  by_cases hc : c = k
  · subst hc
    rw [if_pos rfl] at hnew
    exact hnew ▸ hchange old hold hreadable
  · rw [if_neg hc] at hnew
    exact hnew ▸ hreadable

/-- A turn of one connection. -/
theorem read_turn {c : ℕ} {ready : TextConnection → Bool} {ready' : Connection → Bool}
    {change : TextConnection → TextConnection} {change' : Connection → Connection}
    (hready : ∀ connection, ready connection = ready' connection.read)
    (h : ∀ connection, (change connection).read = change' connection.read) :
    (world.turn c ready change).map read = world.read.turn c ready' change' := by
  have hany : world.read.connections[c]?.any ready' = world.connections[c]?.any ready := by
    rw [getElem?_read]
    cases world.connections[c]? with
    | none => rfl
    | some connection => exact (hready connection).symm
  rw [turn, RpcWorld.turn, hany]
  split
  · exact congrArg some (read_onConnection fun connection _ ↦ h connection)
  · rfl

theorem Readable.turn (h : world.Readable) {c : ℕ} {ready : TextConnection → Bool}
    {change : TextConnection → TextConnection}
    (hchange : ∀ connection, connection.Readable → (change connection).Readable)
    (hstep : world.turn c ready change = some next) : next.Readable := by
  rw [TextWorld.turn, Option.ite_none_right_eq_some, Option.some.injEq] at hstep
  obtain ⟨_, rfl⟩ := hstep
  exact h.onConnection fun connection _ ↦ hchange connection

theorem dispatch_ne_finished (methods : List JsString) (raw : Option Json) (outcome : Outcome) :
    dispatch methods raw ≠ .finished outcome := by
  cases raw with
  | none => exact nofun
  | some raw =>
    unfold dispatch
    simp only
    split
    · exact nofun
    · split
      · split <;> exact nofun
      · exact nofun

theorem read_receive (world : TextWorld) (c : ℕ) :
    (world.receive c).map read = world.read.receive c := by
  rw [receive, RpcWorld.receive, getElem?_read]
  cases hget : world.connections[c]? with
  | none => rfl
  | some connection =>
    rw [Option.map_some]
    cases htoServer : connection.toServer with
    | nil =>
      have hread : connection.read.toServer = [] := by rw [TextConnection.read, htoServer]; rfl
      cases hattached : connection.attached <;> simp [hattached, htoServer, hread]
    | cons text rest =>
      have hread : connection.read.toServer = parse text :: rest.map parse := by
        rw [TextConnection.read, htoServer]
        rfl
      have hsame : connection.read.attached = connection.attached := rfl
      cases hattached : connection.attached with
      | false => simp [hattached, htoServer, hread, hsame]
      | true =>
        simp only [hattached, htoServer, hread, hsame, Option.map_some]
        have hconnections := congrArg RpcWorld.connections (@read_onConnection world c
          (fun connection ↦ { connection with toServer := rest })
          (fun connection ↦ { connection with toServer := rest.map parse }) fun _ _ ↦ rfl)
        exact congrArg some (congrArg (RpcWorld.mk _ · _) hconnections)

theorem Readable.receive (h : world.Readable) {c : ℕ} (hstep : world.receive c = some next) :
    next.Readable := by
  unfold TextWorld.receive at hstep
  split at hstep
  · rename_i connection hget
    split at hstep
    · rename_i text rest hattached htoServer
      cases hstep
      have hreadable := h.connections connection (List.mem_of_getElem? hget)
      have hmoved : (world.onConnection c fun connection ↦
          { connection with toServer := rest }).Readable := by
        refine h.onConnection fun other hother _ ↦ ?_
        obtain rfl : connection = other := Option.some.inj (hget.symm.trans hother)
        exact ⟨fun text hmem ↦ hreadable.toServer text (htoServer ▸ List.mem_cons_of_mem _ hmem),
          hreadable.toClient⟩
      refine ⟨hmoved.connections, fun received hmem ↦ ?_⟩
      rcases List.mem_append.mp hmem with hold | hlast
      · exact h.received received hold
      · rw [List.mem_singleton.mp hlast]
        refine ⟨hreadable.toServer text (htoServer ▸ List.mem_cons_self), fun outcome hwork ↦ ?_⟩
        exact absurd hwork (dispatch_ne_finished _ _ outcome)
    · cases hstep
  · cases hstep

theorem read_finish (world : TextWorld) (n : ℕ) (outcome : Outcome) :
    (world.finish n outcome).map read = world.read.finish n outcome := by
  by_cases hwork : world.received[n]?.map Received.work = some Work.running
  · rw [finish, if_pos hwork]
    exact (if_pos hwork).symm
  · rw [finish, if_neg hwork]
    exact (if_neg hwork).symm

theorem Readable.modify (h : world.Readable) {n : ℕ} {change : Received → Received}
    (hchange : ∀ received, received.Kept → (change received).Kept) :
    Readable { world with received := world.received.modify n change } := by
  refine ⟨h.connections, fun received hmem ↦ ?_⟩
  obtain ⟨k, hk⟩ := List.mem_iff_getElem?.mp hmem
  rw [List.getElem?_modify] at hk
  obtain ⟨old, hold, rfl⟩ := Option.map_eq_some_iff.mp hk
  have hkept := h.received old (List.mem_of_getElem? hold)
  split
  · exact hchange old hkept
  · exact hkept

theorem Readable.finish (h : world.Readable) {n : ℕ} {outcome : Outcome} (houtcome : outcome.Exact)
    (hstep : world.finish n outcome = some next) : next.Readable := by
  rw [TextWorld.finish, Option.ite_none_right_eq_some, Option.some.injEq] at hstep
  obtain ⟨_, rfl⟩ := hstep
  refine h.modify fun received hkept ↦ ⟨hkept.1, fun other hother ↦ ?_⟩
  cases hother
  exact houtcome

theorem read_respond (h : world.Readable) (n : ℕ) :
    (world.respond n).map read = world.read.respond n := by
  have hsame : world.read.received[n]? = world.received[n]? := rfl
  rw [respond, RpcWorld.respond, hsame]
  cases hget : world.received[n]? with
  | none => rfl
  | some received =>
    have hkept := h.received received (List.mem_of_getElem? hget)
    by_cases hready : (received.answered || received.work = .running) = true
    · simp only [if_pos hready]
      rfl
    · simp only [if_neg hready]
      have hconnections := congrArg RpcWorld.connections (@read_onConnection world received.conn
        (fun connection ↦ received.response.toList.foldl TextConnection.send connection)
        (fun connection ↦ received.response.toList.foldl Connection.send connection)
        fun connection _ ↦ connection.read_foldl_send fun value hvalue ↦ hkept.response hvalue)
      exact congrArg some (congrArg (RpcWorld.mk _ · _) hconnections)

theorem Readable.respond (h : world.Readable) {n : ℕ} (hstep : world.respond n = some next) :
    next.Readable := by
  unfold TextWorld.respond at hstep
  split at hstep
  · rename_i received hget
    rw [Option.ite_none_left_eq_some, Option.some.injEq] at hstep
    obtain ⟨_, rfl⟩ := hstep
    have hkept := h.received received (List.mem_of_getElem? hget)
    have hmoved : (world.onConnection received.conn fun connection ↦
        received.response.toList.foldl TextConnection.send connection).Readable :=
      h.onConnection fun connection _ hreadable ↦
        hreadable.foldl_send fun value hvalue ↦ hkept.response hvalue
    exact hmoved.modify fun _ hother ↦ ⟨hother.1, hother.2⟩
  · cases hstep

theorem read_deliver (h : world.Readable) (c : ℕ) :
    (world.deliver c).map read = world.read.deliver c := by
  rw [deliver, RpcWorld.deliver, getElem?_read]
  cases hget : world.connections[c]? with
  | none => rfl
  | some connection =>
    have hreadable := h.connections connection (List.mem_of_getElem? hget)
    have hsame : connection.read.listening = connection.listening := rfl
    rw [Option.map_some]
    cases htoClient : connection.toClient with
    | nil =>
      have hread : connection.read.toClient = [] := by rw [TextConnection.read, htoClient]; rfl
      cases hlistening : connection.listening <;> simp [hlistening, htoClient, hread]
    | cons text rest =>
      have hread : connection.read.toClient =
          (parse text).getD .null :: rest.map fun text ↦ (parse text).getD .null := by
        rw [TextConnection.read, htoClient]
        rfl
      cases hlistening : connection.listening with
      | false => simp [hlistening, htoClient, hread, hsame]
      | true =>
        simp only [hlistening, htoClient, hread, hsame, Option.map_some]
        exact congrArg some (read_onConnection fun other hother ↦
          other.read_deliver rest (hreadable.toClient text (htoClient ▸ List.mem_cons_self)))

theorem Readable.deliver (h : world.Readable) {c : ℕ} (hstep : world.deliver c = some next) :
    next.Readable := by
  unfold TextWorld.deliver at hstep
  split at hstep
  · rename_i connection hget
    split at hstep
    · rename_i text rest hlistening htoClient
      cases hstep
      refine h.onConnection fun other hother hreadable ↦ ?_
      obtain rfl : connection = other := Option.some.inj (hget.symm.trans hother)
      exact hreadable.deliver htoClient
    · cases hstep
  · cases hstep

theorem readable_start : start.Readable :=
  ⟨fun _ hmem ↦ absurd hmem List.not_mem_nil, fun _ hmem ↦ absurd hmem List.not_mem_nil⟩

/-- A turn on the texts is a turn on what they stand for. -/
theorem read_step (h : world.Readable) {event : TextEvent} (hexact : event.Exact) :
    (world.step event).map read = world.read.step event.read := by
  cases event with
  | foreign c text => exact read_turn (fun _ ↦ rfl) (TextConnection.read_post text)
  | turn event own =>
    cases event with
    | register method =>
      change (if method ∈ world.methods then none else _ : Option TextWorld).map read =
        if method ∈ world.methods then none else _
      split <;> rfl
    | unregister method => rfl
    | connect foreign =>
      refine congrArg some ?_
      rw [read, List.map_append]
      rfl
    | call c method params =>
      exact read_turn (fun _ ↦ rfl) fun connection ↦ connection.read_call method hexact
    | callThrows c method => exact read_turn (fun _ ↦ rfl) fun _ ↦ rfl
    | foreign c raw => cases own
    | receive c => exact world.read_receive c
    | finish n outcome => exact world.read_finish n outcome
    | respond n => exact read_respond h n
    | notify c method params =>
      exact read_turn (fun _ ↦ rfl) fun connection ↦
        connection.read_send (exact_notification method hexact)
    | deliver c => exact read_deliver h c
    | timer c k => exact read_turn (fun _ ↦ rfl) fun _ ↦ rfl
    | hangUp c => exact read_turn (fun _ ↦ rfl) fun _ ↦ rfl
    | closing c => exact read_turn (fun _ ↦ rfl) fun _ ↦ rfl
    | clientClose c => exact read_turn (fun _ ↦ rfl) fun _ ↦ rfl
    | serverClose c => exact read_turn (fun _ ↦ rfl) fun _ ↦ rfl

theorem Readable.step (h : world.Readable) {event : TextEvent} (hexact : event.Exact)
    (hstep : world.step event = some next) : next.Readable := by
  cases event with
  | foreign c text => exact h.turn (fun _ hreadable ↦ hreadable.post hexact) hstep
  | turn event own =>
    cases event with
    | register method =>
      rw [TextWorld.step, Option.ite_none_left_eq_some, Option.some.injEq] at hstep
      obtain ⟨_, rfl⟩ := hstep
      exact ⟨h.connections, h.received⟩
    | unregister method =>
      cases hstep
      exact ⟨h.connections, h.received⟩
    | connect foreign =>
      cases hstep
      refine ⟨fun connection hmem ↦ ?_, h.received⟩
      rcases List.mem_append.mp hmem with hold | hlast
      · exact h.connections connection hold
      · rw [List.mem_singleton.mp hlast]
        exact ⟨fun _ hmem ↦ absurd hmem List.not_mem_nil, fun _ hmem ↦ absurd hmem List.not_mem_nil⟩
    | call c method params => exact h.turn (fun _ hreadable ↦ hreadable.call method hexact) hstep
    | callThrows c method => exact h.turn (fun _ hreadable ↦ hreadable.onClient _) hstep
    | foreign c raw => cases own
    | receive c => exact h.receive hstep
    | finish n outcome => exact h.finish hexact hstep
    | respond n => exact h.respond hstep
    | notify c method params =>
      exact h.turn (fun _ hreadable ↦ hreadable.send (exact_notification method hexact)) hstep
    | deliver c => exact h.deliver hstep
    | timer c k => exact h.turn (fun _ hreadable ↦ hreadable.onClient _) hstep
    | hangUp c =>
      exact @turn _ _ h c _ (fun connection ↦ { connection with sending := false })
        (fun _ hreadable ↦ ⟨hreadable.toServer, hreadable.toClient⟩) hstep
    | closing c =>
      exact @turn _ _ h c _ (fun connection ↦ { connection with opened := false })
        (fun _ hreadable ↦ ⟨hreadable.toServer, hreadable.toClient⟩) hstep
    | clientClose c =>
      exact @turn _ _ h c _ TextConnection.close
        (fun _ hreadable ↦ ⟨hreadable.toServer, hreadable.toClient⟩) hstep
    | serverClose c =>
      exact @turn _ _ h c _ (fun connection ↦ { connection with opened := false, attached := false })
        (fun _ hreadable ↦ ⟨hreadable.toServer, hreadable.toClient⟩) hstep

/-- **The wire is faithful.** Clients and the daemon that exchange texts do what they do with the
values: every run is a run of the machine over values, if the values that enter it are kept by
`JSON.stringify` and `JSON.parse`. -/
theorem read_run {schedule : List TextEvent} (h : ∀ event ∈ schedule, event.Exact) :
    (run step start schedule).map read = run RpcWorld.step .start (schedule.map TextEvent.read) :=
  @map_run _ _ step _ _ RpcWorld.step read TextEvent.read TextEvent.Exact Readable
    (fun _ _ hreadable hexact ↦ read_step hreadable hexact)
    (fun _ _ _ hreadable hexact ↦ hreadable.step hexact) start schedule readable_start h

/-- A call of `status` that comes back with `null`. -/
theorem read_run_answered :
    (run step start [.turn (.register (js "status")) rfl, .turn (.connect false) rfl,
      .turn (.call 0 (js "status") none) rfl, .turn (.receive 0) rfl,
      .turn (.finish 0 (.returned none)) rfl, .turn (.respond 0) rfl,
      .turn (.deliver 0) rfl]).map read =
    run RpcWorld.step .start [.register (js "status"), .connect false,
      .call 0 (js "status") none, .receive 0, .finish 0 (.returned none), .respond 0, .deliver 0] :=
  read_run (by simp [TextEvent.Exact, Outcome.Exact])

end TextWorld

end Cordyceps.Transport
