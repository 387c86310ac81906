import Cordyceps.Transport.Forwarding

/-!
# What a client hears of an agent

The payloads of one kind of event of one agent among the notifications that a session received. Of
all that is emitted on the bus, only the event of that kind and agent adds to them.
-/

namespace Cordyceps.Transport

open Foundations Cordyceps.Core

variable {Value : Type*}

namespace Notice

variable [DecidableEq Value]

/-- The payload, if the notification is one of this kind and agent. -/
def dataOf (kind : AgentEvent) (id : JsString) (notice : Notice Value) : Option Value :=
  match notice.params with
  | .plain _ => none
  | .agent _ _ data | .spread _ data => if notice = kind.notice id data then some data else none

theorem dataOf_plain (kind : AgentEvent) (id method : JsString) (data : Value) :
    dataOf kind id ⟨method, .plain data⟩ = none := rfl

theorem dataOf_notice (kind : AgentEvent) (id : JsString) (data : Value) :
    dataOf kind id (kind.notice id data) = some data := by
  cases kind <;> exact if_pos rfl

theorem method_inj {first second : AgentEvent} (h : first.method = second.method) :
    first = second :=
  AgentEvent.name_inj (List.append_cancel_left h)

theorem dataOf_notice_ne {kind other : AgentEvent} {id otherId : JsString} (data : Value)
    (h : ¬ (other = kind ∧ otherId = id)) : dataOf kind id (other.notice otherId data) = none := by
  have hne : ∀ data', other.notice otherId data ≠ kind.notice id data' := by
    intro data' heq
    have hkind := method_inj (congrArg Notice.method heq)
    subst hkind
    refine h ⟨rfl, ?_⟩
    have hparams := congrArg Notice.params heq
    cases other <;> simp [AgentEvent.notice, AgentEvent.params] at hparams <;> exact hparams.1
  cases other <;> exact if_neg (hne data)

end Notice

namespace ClientSession

/-- The payloads of the event that a session received, in order. -/
def heard [DecidableEq Value] (kind : AgentEvent) (id : JsString) (session : ClientSession Value) : List Value :=
  session.received.filterMap (Notice.dataOf kind id)

/-- Only what a session received may differ. -/
def SameEnds (session session' : ClientSession Value) : Prop :=
  session'.subscriptions = session.subscriptions ∧ session'.opened = session.opened

theorem SameEnds.reachable {session session' : ClientSession Value} (h : SameEnds session session')
    (method : JsString) : session'.reachable method = session.reachable method := by
  rw [ClientSession.reachable, ClientSession.reachable, isSubscribed, isSubscribed, h.1, h.2]

end ClientSession

namespace TransportServer

variable {server next : TransportServer Value} {kind : AgentEvent} {id : JsString} {k : ℕ}

/-- The client is connected and subscribed to the event, and the agent was announced once. -/
structure Listens (kind : AgentEvent) (id : JsString) (k : ℕ) (server : TransportServer Value) :
    Prop where
  running : server.running = true
  nonempty : id ≠ []
  once : server.announced.count id = 1
  client : k ∈ server.clients
  reachable : ∀ session, server.sessions[k]? = some session → session.reachable kind.method = true

instance : Decidable (Listens kind id k server) :=
  decidable_of_iff (server.running = true ∧ id ≠ [] ∧ server.announced.count id = 1 ∧
      k ∈ server.clients ∧ (server.sessions[k]?).all (fun s ↦ s.reachable kind.method) = true)
    ⟨fun h ↦ ⟨h.1, h.2.1, h.2.2.1, h.2.2.2.1, (Option.all_eq_true _ _).mp h.2.2.2.2⟩,
      fun h ↦ ⟨h.running, h.nonempty, h.once, h.client, (Option.all_eq_true _ _).mpr h.reachable⟩⟩

/-- The listener sends no notification of the event. -/
def Unrelated (kind : AgentEvent) (id : JsString) : Forwarder → Prop
  | .agent _ other otherId => ¬ (other = kind ∧ otherId = id)
  | _ => True

theorem sessions_wire (agentId : JsString) (server : TransportServer Value) :
    (server.wire agentId).sessions = server.sessions := by
  unfold wire
  split
  · rfl
  · induction AgentEvent.all generalizing server with
    | nil => rfl
    | cons event rest ih =>
      rw [List.foldl_cons, ih]
      rfl

/-- A listener of the transport that runs on another event sends no notification of this one. -/
theorem unrelated_of_emit {weight : AgentEvent → JsString → ℕ} {ledger : Ledger Forwarder}
    {bus : ServiceBus Forwarder Value} (h : Wiring bus weight ledger) {name : JsString}
    (hname : name ≠ kind.key id) : ∀ cb ∈ (bus.emit name).2, Unrelated kind id cb := by
  rw [h.refines.independent]
  intro cb hmem
  obtain ⟨subscription, hserved, rfl⟩ := List.mem_map.mp hmem
  obtain ⟨hlive, hevent⟩ := Ledger.mem_subscribers.mp hserved
  have hplaced := h.placed subscription hlive
  cases hcb : subscription.cb with
  | agent n other otherId =>
    rintro ⟨rfl, rfl⟩
    rw [Forwarder.Placed, hcb, hevent] at hplaced
    exact hname hplaced.1
  | busEvent _ => trivial
  | onCreated => trivial
  | other _ => trivial

variable [DecidableEq Value]

/-- The payloads of the event that a client received. -/
def heardAt (kind : AgentEvent) (id : JsString) (k : ℕ) (server : TransportServer Value) : List Value :=
  ((server.sessions[k]?).map (ClientSession.heard kind id)).getD []

/-- The session of a client, after a turn in which it heard more. -/
structure Hears (kind : AgentEvent) (id : JsString) (k : ℕ) (server next : TransportServer Value)
    (payloads : List Value) : Prop where
  kept : Kept server next
  session : ∀ session, server.sessions[k]? = some session → ∃ session',
    next.sessions[k]? = some session' ∧ session.SameEnds session' ∧
      session'.heard kind id = session.heard kind id ++ payloads

theorem Hears.refl (server : TransportServer Value) : Hears kind id k server server [] where
  kept := .refl server
  session session hsession := ⟨session, hsession, ⟨rfl, rfl⟩, (List.append_nil _).symm⟩

theorem Hears.trans {third : TransportServer Value} {payloads more : List Value}
    (h : Hears kind id k server next payloads) (h' : Hears kind id k next third more) :
    Hears kind id k server third (payloads ++ more) where
  kept := h.kept.trans h'.kept
  session session hsession := by
    obtain ⟨second, hsecond, hends, hheard⟩ := h.session session hsession
    obtain ⟨third, hthird, hends', hheard'⟩ := h'.session second hsecond
    refine ⟨third, hthird, ⟨hends'.1.trans hends.1, hends'.2.trans hends.2⟩, ?_⟩
    rw [hheard', hheard, List.append_assoc]

theorem Hears.listens {payloads : List Value} (h : Hears kind id k server next payloads)
    (hlistens : Listens kind id k server) : Listens kind id k next where
  running := h.kept.running.trans hlistens.running
  nonempty := hlistens.nonempty
  once := h.kept.announced ▸ hlistens.once
  client := h.kept.clients ▸ hlistens.client
  reachable session' hsession' := by
    have hlt : k < server.sessions.length := by
      rw [← h.kept.length]
      exact (List.getElem?_eq_some_iff.mp hsession').1
    obtain ⟨other, hother, hends, _⟩ := h.session _ (List.getElem?_eq_getElem hlt)
    rw [hother] at hsession'
    cases hsession'
    rw [hends.reachable]
    exact hlistens.reachable _ (List.getElem?_eq_getElem hlt)

theorem Hears.heardAt {payloads : List Value} (h : Hears kind id k server next payloads)
    (hlt : k < server.sessions.length) :
    next.heardAt kind id k = server.heardAt kind id k ++ payloads := by
  have hsession := List.getElem?_eq_getElem hlt
  obtain ⟨session', hsession', _, hheard⟩ := h.session _ hsession
  rw [TransportServer.heardAt, TransportServer.heardAt, hsession', hsession, Option.map_some,
    Option.map_some, Option.getD_some, Option.getD_some, hheard]

/-! ## Emissions of something else -/

theorem hears_broadcast (hnodup : server.clients.Nodup) {notice : Notice Value}
    (hnotice : notice.dataOf kind id = none) : Hears kind id k server (server.broadcast notice) [] where
  kept := kept_broadcast notice server
  session session hsession := by
    refine ⟨if k ∈ server.clients then session.notify notice else session, ?_, ?_, ?_⟩
    · change (Cordyceps.Transport.broadcast notice server.clients server.sessions)[k]? = _
      rw [getElem?_broadcast notice hnodup, hsession, Option.map_some]
    · split
      · rw [ClientSession.notify_eq]
        exact ⟨rfl, rfl⟩
      · exact ⟨rfl, rfl⟩
    · rw [List.append_nil]
      split
      · rw [ClientSession.notify_eq, ClientSession.heard, List.filterMap_append]
        split
        · simp [hnotice, ClientSession.heard]
        · simp [ClientSession.heard]
      · rfl

theorem hears_fire (hnodup : server.clients.Nodup) (data : Value) (createdId : JsString)
    {cb : Forwarder} (h : Unrelated kind id cb) :
    Hears kind id k server (server.fire data createdId cb) [] := by
  cases cb with
  | busEvent name => exact hears_broadcast hnodup (Notice.dataOf_plain ..)
  | onCreated =>
    refine ⟨kept_fire data createdId server .onCreated, fun session hsession ↦ ?_⟩
    refine ⟨session, ?_, ⟨rfl, rfl⟩, (List.append_nil _).symm⟩
    change (server.wire createdId).sessions[k]? = some session
    rw [sessions_wire, hsession]
  | agent n other otherId => exact hears_broadcast hnodup (Notice.dataOf_notice_ne data h)
  | other n => exact .refl server

theorem hears_foldl_fire (data : Value) (createdId : JsString) {fired : List Forwarder}
    (h : ∀ cb ∈ fired, Unrelated kind id cb) (hnodup : server.clients.Nodup) :
    Hears kind id k server (fired.foldl (fire data createdId) server) [] := by
  induction fired generalizing server with
  | nil => exact .refl server
  | cons cb rest ih =>
    have hfire := hears_fire (k := k) hnodup data createdId (h cb List.mem_cons_self)
    have hrest := ih (fun other hmem ↦ h other (List.mem_cons_of_mem _ hmem))
      (hfire.kept.clients ▸ hnodup)
    exact hfire.trans hrest

/-! ## Turns of the server -/

/-- The payloads that a turn emits under the event. -/
def payloads (kind : AgentEvent) (id : JsString) : ServerEvent Value → List Value
  | .emit name data => if name = kind.key id then [data] else []
  | _ => []

theorem hears_emit (h : server.Forwarding) (hlistens : Listens kind id k server) (name : JsString)
    (data : Value) (createdId : JsString) (hcreated : name = kind.key id → createdId = []) :
    Hears kind id k server (server.emit name data createdId)
      (if name = kind.key id then [data] else []) := by
  by_cases hname : name = kind.key id
  · rw [if_pos hname, hcreated hname, hname]
    refine ⟨kept_emit _ data [] server, fun session hsession ↦ ?_⟩
    refine ⟨_, getElem?_emit h hlistens.running kind id data hsession, ⟨rfl, rfl⟩, ?_⟩
    have hmany : announcements server.announced kind id = 1 := by
      rw [announcements, if_neg hlistens.nonempty, hlistens.once]
    rw [ClientSession.heard, List.filterMap_append,
      if_pos ⟨hlistens.client, hlistens.reachable session hsession⟩, hmany]
    simp [Notice.dataOf_notice, ClientSession.heard]
  · rw [if_neg hname]
    obtain ⟨ledger, hwiring⟩ := h.wiring hlistens.running
    have hbus : Hears kind id k server { server with bus := (server.bus.emit name).1 } [] :=
      ⟨⟨rfl, rfl, rfl, rfl⟩, fun session hsession ↦
        ⟨session, hsession, ⟨rfl, rfl⟩, (List.append_nil _).symm⟩⟩
    exact hbus.trans (hears_foldl_fire data createdId (unrelated_of_emit hwiring hname) h.nodup)

/-- A session after something that leaves what it received alone. -/
theorem heardAt_onSession (server : TransportServer Value) (i : ℕ)
    {change : ClientSession Value → ClientSession Value}
    (h : ∀ session, (change session).received = session.received) :
    (server.onSession i change).heardAt kind id k = server.heardAt kind id k := by
  rw [heardAt, heardAt, onSession, List.getElem?_modify]
  cases server.sessions[k]? with
  | none => rfl
  | some session =>
    by_cases hi : i = k
    · simp [hi, ClientSession.heard, h]
    · simp [hi]

theorem heardAt_stop (server : TransportServer Value) :
    server.stop.heardAt kind id k = server.heardAt kind id k := by
  have hfold : ∀ (clients : List ℕ) (server : TransportServer Value),
      (clients.foldl (fun server i ↦ server.onSession i fun session ↦
        { session with opened := false }) server).heardAt kind id k = server.heardAt kind id k := by
    intro clients
    induction clients with
    | nil => exact fun _ ↦ rfl
    | cons client rest ih => exact fun server ↦ (ih _).trans (server.heardAt_onSession client fun _ ↦ rfl)
  have hsessions : ∀ (clients : List ℕ) (server : TransportServer Value),
      (clients.foldl (fun server i ↦ server.onSession i fun session ↦
        { session with opened := false }) server).sessions = clients.foldl (fun sessions i ↦
          sessions.modify i fun session ↦ { session with opened := false }) server.sessions := by
    intro clients
    induction clients with
    | nil => exact fun _ ↦ rfl
    | cons client rest ih => exact fun server ↦ ih _
  rw [← hfold server.clients server, heardAt, heardAt, hsessions]
  rfl

/-- A client that listens hears what a turn emits, and nothing else. -/
theorem heardAt_step (h : server.Forwarding) (hlistens : Listens kind id k server)
    {event : ServerEvent Value} (hstep : server.step event = some next) :
    next.heardAt kind id k = server.heardAt kind id k ++ payloads kind id event := by
  have hknown := h.known k hlistens.client
  cases event with
  | created createdId info =>
    cases hstep
    have hname : js "agent.created" ≠ kind.key id := (kind.key_ne_created id).symm
    have hemit := hears_emit h hlistens (js "agent.created") info createdId fun heq ↦ absurd heq hname
    rw [if_neg hname] at hemit
    exact hemit.heardAt hknown
  | emit name data =>
    simp only [TransportServer.step, Option.ite_none_left_eq_some] at hstep
    obtain ⟨_, hnext⟩ := hstep
    cases hnext
    exact (hears_emit h hlistens name data [] fun _ ↦ rfl).heardAt hknown
  | listen name once =>
    cases hstep
    exact (List.append_nil _).symm
  | unlisten handle =>
    simp only [TransportServer.step, Option.ite_none_right_eq_some] at hstep
    obtain ⟨_, hnext⟩ := hstep
    cases hnext
    exact (List.append_nil _).symm
  | connect =>
    simp only [TransportServer.step, Option.ite_none_right_eq_some] at hstep
    obtain ⟨_, hnext⟩ := hstep
    cases hnext
    rw [heardAt, List.getElem?_append_left hknown]
    exact (List.append_nil _).symm
  | subscribe i events =>
    cases hstep
    refine Eq.trans ?_ (List.append_nil _).symm
    exact server.heardAt_onSession i fun _ ↦ rfl
  | unsubscribe i events =>
    cases hstep
    refine Eq.trans ?_ (List.append_nil _).symm
    exact server.heardAt_onSession i fun _ ↦ rfl
  | closing i =>
    cases hstep
    refine Eq.trans ?_ (List.append_nil _).symm
    exact server.heardAt_onSession i fun _ ↦ rfl
  | closed i =>
    cases hstep
    refine Eq.trans ?_ (List.append_nil _).symm
    exact server.heardAt_onSession i fun _ ↦ rfl
  | stop =>
    simp only [TransportServer.step, Option.ite_none_right_eq_some] at hstep
    obtain ⟨_, hnext⟩ := hstep
    cases hnext
    exact server.heardAt_stop.trans (List.append_nil _).symm

end TransportServer

end Cordyceps.Transport
