import Cordyceps.Transport.Connections
import Cordyceps.Transport.Hearing

/-!
# Notifications on the wire

The frames that `broadcast` puts on the socket. A client tells those of one kind of event of one
agent by their method and by the `agentId` of their parameters, and finds the payload in a member
that the kind has to itself.
-/

namespace Cordyceps.Transport

open Foundations Cordyceps.Core

variable {Value : Type*}

/-! ## Frames -/

namespace NoticeParams

/-- What `...value` spreads over an object literal. -/
def spreadMembers : Json → List (JsString × Json)
  | .obj members => members
  | .arr elements => elements.mapIdx fun i element ↦ (Json.decimal i, element)
  | .str text => text.mapIdx fun i unit ↦ (Json.decimal i, .str [unit])
  | .null | .bool _ | .num _ => []

/-- The parameters as the transport builds them from the id and the payload. -/
def object (json : Value → Json) : NoticeParams Value → Json
  | .plain data => json data
  | .agent agentId field data =>
    jsonObject [(js "agentId", some (.str agentId)), (field, some (json data))]
  | .spread agentId data => .obj ((spreadMembers (json data)).foldl
      (fun members entry ↦ Json.insert entry.1 entry.2 members) [(js "agentId", .str agentId)])

end NoticeParams

namespace Notice

/-- The frame that a broadcast sends. -/
def frame (json : Value → Json) (notice : Notice Value) : Json :=
  notification notice.method (some (notice.params.object json))

/-- What the transport broadcasts: an event of an agent, or one that it forwards as it is. -/
def Genuine (notice : Notice Value) : Prop :=
  (∃ (event : AgentEvent) (id : JsString) (data : Value), notice = event.notice id data) ∨
    ∃ name data, notice = ⟨name, .plain data⟩ ∧
      name ∈ [js "agent.created", js "plugin.ready", js "daemon.stopping"]

end Notice

namespace AgentEvent

/-- The member with the payload; that of `exited` is spread over the parameters. -/
def field : AgentEvent → Option JsString
  | .state | .idle => some (js "state")
  | .message => some (js "message")
  | .blocked => some (js "blocking")
  | .output => some (js "data")
  | .exited => none

/-- The payload in the parameters of a notification of this kind, if they are of the agent. -/
def payloadOf (kind : AgentEvent) (id : JsString) (params : Option Json) : Option Json :=
  params.bind fun object ↦
    if object.field (js "agentId") = some (.str id) then kind.field.bind object.field else none

/-- The payload in a frame, if it is a notification of this kind and agent. -/
def dataIn (kind : AgentEvent) (id : JsString) (frame : Json) : Option Json :=
  if frame.field (js "method") = some (.str kind.method) then
    kind.payloadOf id (frame.field (js "params"))
  else none

variable (json : Value → Json) (kind : AgentEvent) (id : JsString)

theorem method_ne_static :
    kind.method ∉ [js "agent.created", js "plugin.ready", js "daemon.stopping"] := by
  cases kind <;> decide

theorem dataIn_of_method_ne {notice : Notice Value} (h : notice.method ≠ kind.method) :
    kind.dataIn id (notice.frame json) = none := by
  refine if_neg fun hmethod ↦ h ?_
  have hfield : (notice.frame json).field (js "method") = some (.str notice.method) := rfl
  rw [hfield, Option.some.injEq, Json.str.injEq] at hmethod
  exact hmethod

theorem payloadOf_agent {field : JsString} (hfield : kind.field = some field) (agentId : JsString)
    (data : Value) (hne : field ≠ js "agentId") :
    kind.payloadOf id (some ((NoticeParams.agent agentId field data).object json)) =
      if agentId = id then some (json data) else none := by
  have hagent : ((NoticeParams.agent agentId field data).object json).field (js "agentId") =
      some (.str agentId) := rfl
  have hdata : ((NoticeParams.agent agentId field data).object json).field field =
      some (json data) := by
    change Json.lookup field [(js "agentId", .str agentId), (field, json data)] = _
    rw [Json.lookup, if_neg hne.symm, Json.lookup, if_pos rfl]
  rw [payloadOf, Option.bind_some, hagent, hfield, Option.bind_some, hdata]
  by_cases hid : agentId = id
  · rw [hid, if_pos rfl, if_pos rfl]
  · rw [if_neg hid]
    exact if_neg fun heq ↦ hid (Json.str.inj (Option.some.inj heq))

/-- A client finds in a frame what the session was told. -/
theorem dataIn_frame (hkind : kind ≠ .exited) [DecidableEq Value] {notice : Notice Value}
    (h : notice.Genuine) :
    kind.dataIn id (notice.frame json) = (notice.dataOf kind id).map json := by
  rcases h with ⟨event, agentId, data, rfl⟩ | ⟨name, data, rfl, hname⟩
  · by_cases hevent : event = kind
    · subst hevent
      have hpayload : event.dataIn id ((event.notice agentId data).frame json) =
          if agentId = id then some (json data) else none := by
        have hmethod : ((event.notice agentId data).frame json).field (js "method") =
            some (.str event.method) := rfl
        rw [dataIn, if_pos hmethod]
        cases event with
        | exited => exact absurd rfl hkind
        | _ => exact payloadOf_agent json _ id rfl agentId data (by decide)
      rw [hpayload]
      by_cases hid : agentId = id
      · subst hid
        rw [if_pos rfl, Notice.dataOf_notice, Option.map_some]
      · rw [if_neg hid, Notice.dataOf_notice_ne data fun h ↦ hid h.2, Option.map_none]
    · rw [Notice.dataOf_notice_ne data fun h ↦ hevent h.1, Option.map_none]
      exact dataIn_of_method_ne json kind id fun hmethod ↦ hevent (Notice.method_inj hmethod)
  · rw [Notice.dataOf_plain, Option.map_none]
    apply dataIn_of_method_ne
    rintro rfl
    exact kind.method_ne_static hname

end AgentEvent

/-! ## What a session is sent -/

namespace TransportServer

variable {server next third : TransportServer Value} {k : ℕ}

/-- The session of a client, after a turn in which the transport may have told it something. -/
def Tells (k : ℕ) (server next : TransportServer Value) : Prop :=
  ∀ session, server.sessions[k]? = some session → ∃ session' notices,
    next.sessions[k]? = some session' ∧ session'.received = session.received ++ notices ∧
      ∀ notice ∈ notices, notice.Genuine

/-- Nothing is sent. -/
theorem tells_of_received (h : ∀ session, server.sessions[k]? = some session → ∃ session',
    next.sessions[k]? = some session' ∧ session'.received = session.received) :
    Tells k server next := by
  intro session hsession
  obtain ⟨session', hsession', hreceived⟩ := h session hsession
  exact ⟨session', [], hsession', by rw [hreceived, List.append_nil],
    fun _ hmem ↦ absurd hmem List.not_mem_nil⟩

theorem Tells.refl (server : TransportServer Value) : Tells k server server :=
  tells_of_received fun session hsession ↦ ⟨session, hsession, rfl⟩

theorem Tells.trans (h : Tells k server next) (h' : Tells k next third) : Tells k server third := by
  intro session hsession
  obtain ⟨second, notices, hsecond, hreceived, hgenuine⟩ := h session hsession
  obtain ⟨last, more, hlast, hreceived', hgenuine'⟩ := h' second hsecond
  refine ⟨last, notices ++ more, hlast, ?_, fun notice hmem ↦ ?_⟩
  · rw [hreceived', hreceived, List.append_assoc]
  · rcases List.mem_append.mp hmem with hold | hnew
    · exact hgenuine notice hold
    · exact hgenuine' notice hnew

theorem tells_broadcast (hnodup : server.clients.Nodup) {notice : Notice Value}
    (hgenuine : notice.Genuine) : Tells k server (server.broadcast notice) := by
  intro session hsession
  have hnext : (server.broadcast notice).sessions[k]? =
      some (if k ∈ server.clients then session.notify notice else session) := by
    change (Cordyceps.Transport.broadcast notice server.clients server.sessions)[k]? = _
    rw [getElem?_broadcast notice hnodup, hsession, Option.map_some]
  by_cases hmem : k ∈ server.clients
  · rw [if_pos hmem, ClientSession.notify_eq] at hnext
    refine ⟨_, _, hnext, rfl, fun other hother ↦ ?_⟩
    split at hother
    · exact List.mem_singleton.mp hother ▸ hgenuine
    · exact absurd hother List.not_mem_nil
  · rw [if_neg hmem] at hnext
    exact ⟨session, [], hnext, (List.append_nil _).symm, fun _ hmem ↦ absurd hmem List.not_mem_nil⟩

/-- The listener forwards only what the transport subscribed it for. -/
def Forwards : Forwarder → Prop
  | .busEvent name => name ∈ [js "agent.created", js "plugin.ready", js "daemon.stopping"]
  | _ => True

theorem tells_fire (hnodup : server.clients.Nodup) (data : Value) (createdId : JsString)
    {cb : Forwarder} (h : Forwards cb) : Tells k server (server.fire data createdId cb) := by
  cases cb with
  | busEvent name => exact tells_broadcast hnodup (.inr ⟨name, data, rfl, h⟩)
  | agent n event agentId => exact tells_broadcast hnodup (.inl ⟨event, agentId, data, rfl⟩)
  | other n => exact .refl server
  | onCreated =>
    apply tells_of_received
    intro session hsession
    refine ⟨session, ?_, rfl⟩
    change (server.wire createdId).sessions[k]? = some session
    rw [sessions_wire, hsession]

theorem tells_foldl_fire (data : Value) (createdId : JsString) {fired : List Forwarder}
    (h : ∀ cb ∈ fired, Forwards cb) (hnodup : server.clients.Nodup) :
    Tells k server (fired.foldl (fire data createdId) server) := by
  induction fired generalizing server with
  | nil => exact .refl server
  | cons cb rest ih =>
    have hkept := kept_fire data createdId server cb
    apply (tells_fire hnodup data createdId (h cb List.mem_cons_self)).trans
    exact ih (fun other hmem ↦ h other (List.mem_cons_of_mem _ hmem)) (hkept.clients ▸ hnodup)

theorem tells_emit (h : server.Forwarding) (hrunning : server.running = true) (name : JsString)
    (data : Value) (createdId : JsString) : Tells k server (server.emit name data createdId) := by
  obtain ⟨ledger, hwiring⟩ := h.wiring hrunning
  have hbus : Tells k server { server with bus := (server.bus.emit name).1 } :=
    tells_of_received fun session hsession ↦ ⟨session, hsession, rfl⟩
  refine hbus.trans (tells_foldl_fire data createdId (fun cb hmem ↦ ?_) h.nodup)
  rw [hwiring.refines.independent] at hmem
  obtain ⟨subscription, hserved, rfl⟩ := List.mem_map.mp hmem
  have hplaced := hwiring.placed subscription (Ledger.mem_subscribers.mp hserved).1
  unfold Forwarder.Placed at hplaced
  cases hcb : subscription.cb with
  | busEvent other =>
    rw [hcb] at hplaced
    exact hplaced.2.2
  | _ => trivial

theorem tells_onSession (i : ℕ) {change : ClientSession Value → ClientSession Value}
    (h : ∀ session, (change session).received = session.received) :
    Tells k server (server.onSession i change) := by
  apply tells_of_received
  intro session hsession
  refine ⟨if i = k then change session else session, ?_, ?_⟩
  · rw [onSession, List.getElem?_modify, hsession]
    split <;> rfl
  · split
    · exact h session
    · rfl

theorem tells_stop (server : TransportServer Value) : Tells k server server.stop := by
  have hfold : ∀ (clients : List ℕ) (sessions : List (ClientSession Value)) session,
      sessions[k]? = some session → ∃ session', (clients.foldl (fun sessions i ↦
        sessions.modify i fun session ↦ { session with opened := false }) sessions)[k]? =
          some session' ∧ session'.received = session.received := by
    intro clients
    induction clients with
    | nil => exact fun _ session hsession ↦ ⟨session, hsession, rfl⟩
    | cons client rest ih =>
      intro sessions session hsession
      have hmodified : (sessions.modify client fun session ↦ { session with opened := false })[k]? =
          some (if client = k then { session with opened := false } else session) := by
        rw [List.getElem?_modify, hsession]
        split <;> rfl
      obtain ⟨session', hsession', hreceived⟩ := ih _ _ hmodified
      refine ⟨session', hsession', hreceived.trans ?_⟩
      split <;> rfl
  exact tells_of_received fun session hsession ↦ hfold server.clients server.sessions session hsession

/-- In every turn a session is sent what the transport broadcasts, and nothing else. -/
theorem tells_step (h : server.Forwarding) (hrunning : server.running = true)
    {event : ServerEvent Value} (hstep : server.step event = some next) : Tells k server next := by
  cases event with
  | created createdId info =>
    cases hstep
    have hemit := tells_emit (k := k) h hrunning (js "agent.created") info createdId
    exact hemit.trans (tells_of_received fun session hsession ↦ ⟨session, hsession, rfl⟩)
  | emit name data =>
    rw [TransportServer.step, Option.ite_none_left_eq_some] at hstep
    obtain ⟨_, hnext⟩ := hstep
    cases hnext
    exact tells_emit h hrunning name data []
  | listen name once =>
    cases hstep
    exact tells_of_received fun session hsession ↦ ⟨session, hsession, rfl⟩
  | unlisten handle =>
    rw [TransportServer.step, Option.ite_none_right_eq_some] at hstep
    obtain ⟨_, hnext⟩ := hstep
    cases hnext
    exact tells_of_received fun session hsession ↦ ⟨session, hsession, rfl⟩
  | connect =>
    rw [TransportServer.step, Option.ite_none_right_eq_some] at hstep
    obtain ⟨_, hnext⟩ := hstep
    cases hnext
    apply tells_of_received
    intro session hsession
    exact ⟨session, List.getElem?_append_left (List.getElem?_eq_some_iff.mp hsession).1 ▸ hsession, rfl⟩
  | subscribe i events =>
    cases hstep
    exact tells_onSession i fun _ ↦ rfl
  | unsubscribe i events =>
    cases hstep
    exact tells_onSession i fun _ ↦ rfl
  | closing i =>
    cases hstep
    exact tells_onSession i fun _ ↦ rfl
  | closed i =>
    cases hstep
    exact tells_onSession i fun _ ↦ rfl
  | stop =>
    rw [TransportServer.step, Option.ite_none_right_eq_some] at hstep
    obtain ⟨_, hnext⟩ := hstep
    cases hnext
    exact tells_stop server

/-- Only a client that connects brings a session. -/
theorem length_sessions_step {event : ServerEvent Value} (hconnect : event ≠ .connect)
    (hstep : server.step event = some next) : next.sessions.length = server.sessions.length := by
  cases event with
  | created createdId info =>
    cases hstep
    exact (kept_emit (js "agent.created") info createdId server).length
  | emit name data =>
    rw [TransportServer.step, Option.ite_none_left_eq_some] at hstep
    obtain ⟨_, hnext⟩ := hstep
    cases hnext
    exact (kept_emit name data [] server).length
  | listen name once =>
    cases hstep
    rfl
  | unlisten handle =>
    rw [TransportServer.step, Option.ite_none_right_eq_some] at hstep
    obtain ⟨_, hnext⟩ := hstep
    cases hnext
    rfl
  | connect => exact absurd rfl hconnect
  | stop =>
    rw [TransportServer.step, Option.ite_none_right_eq_some] at hstep
    obtain ⟨_, hnext⟩ := hstep
    cases hnext
    change (server.clients.foldl _ server.sessions).length = _
    generalize server.sessions = sessions
    induction server.clients generalizing sessions with
    | nil => rfl
    | cons client rest ih => rw [List.foldl_cons, ih, List.length_modify]
  | _ =>
    cases hstep
    exact List.length_modify ..

end TransportServer

end Cordyceps.Transport
