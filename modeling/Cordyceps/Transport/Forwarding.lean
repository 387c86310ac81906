import Cordyceps.Core.Subscriptions
import Cordyceps.Transport.Server

/-!
# One notification for each event

A client that listens wants each event of an agent once. The transport adds its
forwarders whenever `agent.created` is emitted and keeps them until it stops, so
an event comes as often as its agent's id was announced.
-/

namespace Cordyceps.Transport

open Foundations Foundations.StepMachine Cordyceps.Core Agents

variable {Value : Type*}

/-! ## Names -/

namespace AgentEvent

theorem name_inj {first second : AgentEvent} (h : first.name = second.name) : first = second := by
  revert h
  cases first <;> cases second <;> decide

theorem dotless_name (event : AgentEvent) : (0x2E : CodeUnit) ∉ event.name := by
  cases event <;> decide

theorem key_inj {first second : AgentEvent} {id id' : JsString}
    (h : first.key id = second.key id') : first = second ∧ id = id' := by
  have hid : id = id' := by
    by_contra hne
    exact agentKey_ne hne first.dotless_name second.dotless_name h
  subst hid
  exact ⟨name_inj (agentKey_inj.mp h), rfl⟩

/-- An event of an agent has two dots in its name. -/
theorem key_ne_created (event : AgentEvent) (id : JsString) : event.key id ≠ js "agent.created" := by
  have hcreated : js "agent.created" = js "agent." ++ js "created" := rfl
  have hdot : js "." = [0x2E] := rfl
  rw [key, agentKey, hcreated, List.append_assoc, List.append_assoc, hdot]
  intro h
  have hrest := List.append_cancel_left h
  have hmem : (0x2E : CodeUnit) ∈ js "created" := by
    rw [← hrest]
    simp
  revert hmem
  decide

theorem key_ne_static (event : AgentEvent) (id : JsString) :
    event.key id ∉ [js "agent.created", js "plugin.ready", js "daemon.stopping"] := by
  have hagent : js "agent." = 0x61 :: js "gent." := rfl
  have hplugin : js "plugin.ready" = 0x70 :: js "lugin.ready" := rfl
  have hdaemon : js "daemon.stopping" = 0x64 :: js "aemon.stopping" := rfl
  simp only [List.mem_cons, List.not_mem_nil, or_false, not_or]
  refine ⟨event.key_ne_created id, ?_, ?_⟩
  · rw [key, agentKey, hagent, hplugin]
    intro h
    exact absurd (List.cons.inj h).1 (by decide)
  · rw [key, agentKey, hagent, hdaemon]
    intro h
    exact absurd (List.cons.inj h).1 (by decide)

end AgentEvent

/-! ## What is promised -/

namespace TransportServer

/-- The emission of an event of an announced agent reaches every client that is connected and
subscribed to its method once, and no other. -/
def ForwardsOnce (server : TransportServer Value) (event : ServerEvent Value)
    (next : TransportServer Value) : Prop :=
  match event with
  | .emit name data => server.running = true → ∀ kind id, name = AgentEvent.key kind id →
      id ∈ server.announced → ∀ k session, server.sessions[k]? = some session →
        ∃ after, next.sessions[k]? = some after ∧ after.received = session.received ++
          if k ∈ server.clients ∧ session.reachable kind.method = true
          then [kind.notice id data] else []
  | _ => True

/-- The id was announced once and is not empty, or nobody listens. -/
def AnnouncedOnce (server : TransportServer Value) : ServerEvent Value → Prop
  | .emit name _ => server.running = true → ∀ kind id, name = AgentEvent.key kind id →
      id ∈ server.announced → id ≠ [] ∧ server.announced.count id = 1 ∨
        ∀ k ∈ server.clients, ∀ session, server.sessions[k]? = some session →
          session.reachable kind.method = false
  | _ => True

end TransportServer

/-! ## The subscriptions of the transport -/

namespace Forwarder

def isAgent : Forwarder → Bool
  | .agent _ _ _ => true
  | _ => false

/-- The number by which a function is told from others, if it has one. -/
def number : Forwarder → Option ℕ
  | .agent n _ _ | .other n => some n
  | .busEvent _ | .onCreated => none

/-- A function of the transport listens to the event that it was made for, for good. -/
def Placed (subscription : Subscription Forwarder) : Prop :=
  match subscription.cb with
  | .busEvent name => subscription.event = name ∧ subscription.once = false ∧
      name ∈ [js "agent.created", js "plugin.ready", js "daemon.stopping"]
  | .onCreated => subscription.event = js "agent.created" ∧ subscription.once = false
  | .agent _ event id => subscription.event = event.key id ∧ subscription.once = false
  | .other _ => True

end Forwarder

/-- The bus serves a ledger in which the transport listens to `agent.created` once, and to each
event of an agent with as many forwarders as `weight` tells. -/
structure Wiring (bus : ServiceBus Forwarder Value) (weight : AgentEvent → JsString → ℕ)
    (ledger : Ledger Forwarder) : Prop where
  refines : Refines bus ledger
  placed : ∀ subscription ∈ ledger.live, Forwarder.Placed subscription
  fresh : ∀ subscription ∈ ledger.live, ∀ n, subscription.cb.number = some n → n < ledger.next
  heard : (ledger.subscribers (js "agent.created")).countP (fun s ↦ s.cb = .onCreated) = 1
  forwarders : ∀ event id,
    (ledger.subscribers (AgentEvent.key event id)).countP (fun s ↦ s.cb.isAgent) = weight event id

namespace Wiring

variable {bus after : ServiceBus Forwarder Value} {weight : AgentEvent → JsString → ℕ}
  {ledger : Ledger Forwarder}

/-- Only subscriptions of others end. -/
theorem retire (h : Wiring bus weight ledger) {dies : Subscription Forwarder → Bool}
    (hdies : ∀ subscription ∈ ledger.live, dies subscription = true →
      ∃ n, subscription.cb = .other n)
    (hrefines : Refines after (ledger.retire dies)) : Wiring after weight (ledger.retire dies) := by
  have hsub : ∀ subscription ∈ (ledger.retire dies).live, subscription ∈ ledger.live :=
    fun subscription hmem ↦ (List.mem_filter.mp hmem).1
  have hcount : ∀ event (counted : Forwarder → Bool), (∀ n, counted (.other n) = false) →
      ((ledger.retire dies).subscribers event).countP (fun s ↦ counted s.cb) =
        (ledger.subscribers event).countP fun s ↦ counted s.cb := by
    intro event counted hother
    rw [Ledger.subscribers_retire, List.countP_filter]
    apply List.countP_congr
    intro subscription hmem
    obtain ⟨hlive, _⟩ := Ledger.mem_subscribers.mp hmem
    cases hdead : dies subscription with
    | false => simp
    | true =>
      obtain ⟨n, hcb⟩ := hdies subscription hlive hdead
      simp [hcb, hother]
  exact {
    refines := hrefines
    placed := fun subscription hmem ↦ h.placed subscription (hsub subscription hmem)
    fresh := fun subscription hmem ↦ h.fresh subscription (hsub subscription hmem)
    heard := (hcount _ (fun cb ↦ cb = .onCreated) (by simp)).trans h.heard
    forwarders := fun event id ↦ (hcount _ Forwarder.isAgent fun _ ↦ rfl).trans (h.forwarders event id) }

/-- A new function is subscribed, in a place that it was made for. -/
theorem subscribe (h : Wiring bus weight ledger) {name : JsString} {cb : Forwarder} {once : Bool}
    (hnumber : cb.number = some bus.handles.length)
    (hplaced : Forwarder.Placed ⟨ledger.next, name, cb, once⟩)
    (hrefines : Refines after (ledger.subscribe name cb once)) :
    Wiring after (fun event id ↦
      weight event id + if cb.isAgent = true ∧ name = event.key id then 1 else 0)
      (ledger.subscribe name cb once) := by
  have hcb : cb ≠ .onCreated := by
    rintro rfl
    cases hnumber
  refine ⟨hrefines, ?_, ?_, ?_, ?_⟩
  · intro subscription hmem
    rcases List.mem_append.mp hmem with hold | hlast
    · exact h.placed subscription hold
    · rw [List.mem_singleton.mp hlast]
      exact hplaced
  · intro subscription hmem n hn
    rcases List.mem_append.mp hmem with hold | hlast
    · exact Nat.lt_succ_of_lt (h.fresh subscription hold n hn)
    · rw [List.mem_singleton.mp hlast, hnumber] at hn
      cases hn
      rw [h.refines.length_handles]
      exact Nat.lt_succ_self _
  · rw [Ledger.subscribers_subscribe, List.countP_append, h.heard]
    split <;> simp [hcb]
  · intro event id
    rw [Ledger.subscribers_subscribe, List.countP_append, h.forwarders]
    by_cases hname : name = event.key id
    · cases hagent : cb.isAgent <;> simp [hname, hagent]
    · simp [hname]

/-- The listener that `on` is given is not served yet. -/
theorem undisturbed_on (h : Wiring bus weight ledger) {cb : Forwarder} (name : JsString)
    (hnumber : cb.number = some bus.handles.length) : Undisturbed (bus, ledger) (.on name cb) := by
  rintro subscription hmem rfl
  have hlt := h.fresh subscription (Ledger.mem_subscribers.mp hmem).1 _ hnumber
  rw [h.refines.length_handles] at hlt
  exact absurd hlt (Nat.lt_irrefl _)

/-- Weights are told apart by their values only. -/
theorem congr (h : Wiring bus weight ledger) {other : AgentEvent → JsString → ℕ}
    (hsame : ∀ event id, weight event id = other event id) : Wiring bus other ledger := by
  have hweight : weight = other := funext fun event ↦ funext fun id ↦ hsame event id
  exact hweight ▸ h

/-- The transport adds one forwarder. -/
theorem on_agent (h : Wiring bus weight ledger) (event : AgentEvent) (id : JsString) :
    ∃ ledger', Wiring (bus.on (event.key id) (.callback (.agent bus.handles.length event id)))
      (fun kind name ↦ weight kind name + if kind = event ∧ name = id then 1 else 0) ledger' := by
  have hrefines := refines_step h.refines (h.undisturbed_on (event.key id)
    (by rfl : (Forwarder.agent bus.handles.length event id).number = some bus.handles.length))
  refine ⟨_, (h.subscribe (by rfl) (by exact ⟨rfl, rfl⟩) hrefines).congr fun kind name ↦ ?_⟩
  have hkey : event.key id = kind.key name ↔ kind = event ∧ name = id :=
    ⟨fun heq ↦ ⟨(AgentEvent.key_inj heq).1.symm, (AgentEvent.key_inj heq).2.symm⟩,
      fun heq ↦ by rw [heq.1, heq.2]⟩
  simp only [Forwarder.isAgent, true_and, hkey]

/-- Somebody else subscribes. -/
theorem listen (h : Wiring bus weight ledger) (name : JsString) (once : Bool) :
    ∃ ledger', Wiring (if once then bus.once name (.other bus.handles.length)
      else bus.on name (.callback (.other bus.handles.length))) weight ledger' := by
  cases once with
  | true =>
    have hrefines := @refines_step _ _ _ (bus, ledger) (.once name (.other bus.handles.length))
      h.refines trivial
    exact ⟨_, (h.subscribe (by rfl) (by exact trivial) hrefines).congr fun _ _ ↦ by
      simp [Forwarder.isAgent]⟩
  | false =>
    have hrefines := refines_step h.refines (h.undisturbed_on name
      (by rfl : (Forwarder.other bus.handles.length).number = some bus.handles.length))
    exact ⟨_, (h.subscribe (by rfl) (by exact trivial) hrefines).congr fun _ _ ↦ by
      simp [Forwarder.isAgent]⟩

/-- Somebody else ends a subscription that is live. -/
theorem unlisten (h : Wiring bus weight ledger) {handle n : ℕ} {closure : Unsubscribe Forwarder}
    (hclosure : bus.handles[handle]? = some closure)
    (hevent : bus.listeners closure.event = some closure.set)
    (hother : closure.listener.target = .other n) :
    ∃ ledger', Wiring (bus.unsubscribe handle) weight ledger' := by
  have hretire : Refines (bus.unsubscribe handle) (ledger.retire fun subscription ↦
      subscription.event = closure.event && subscription.listener = closure.listener) := by
    simp only [ServiceBus.unsubscribe, hclosure]
    exact h.refines.retire hevent (by simp)
  refine ⟨_, h.retire ?_ hretire⟩
  intro subscription _ hdies
  rw [Bool.and_eq_true, decide_eq_true_eq, decide_eq_true_eq] at hdies
  refine ⟨n, ?_⟩
  rw [← subscription.target_listener, hdies.2, hother]

/-- An emission ends one-shot subscriptions, which are not the transport's. -/
theorem emit (h : Wiring bus weight ledger) (name : JsString) :
    ∃ ledger', Wiring (bus.emit name).1 weight ledger' := by
  refine ⟨_, h.retire ?_ (h.refines.emit name)⟩
  intro subscription hlive hdies
  rw [Bool.and_eq_true] at hdies
  have hplaced := h.placed subscription hlive
  unfold Forwarder.Placed at hplaced
  split at hplaced
  · rw [hplaced.2.1] at hdies
    cases hdies.2
  · rw [hplaced.2] at hdies
    cases hdies.2
  · rw [hplaced.2] at hdies
    cases hdies.2
  · exact ⟨_, ‹_›⟩

/-- The handler of `agent.created` runs once for each emission. -/
theorem count_onCreated (h : Wiring bus weight ledger) :
    (bus.emit (js "agent.created")).2.countP (· = .onCreated) = 1 := by
  rw [h.refines.independent, List.countP_map]
  exact h.heard

theorem count_onCreated_ne (h : Wiring bus weight ledger) {name : JsString}
    (hname : name ≠ js "agent.created") : (bus.emit name).2.countP (· = .onCreated) = 0 := by
  rw [h.refines.independent, List.countP_map, List.countP_eq_zero]
  intro subscription hserved hcb
  obtain ⟨hlive, hevent⟩ := Ledger.mem_subscribers.mp hserved
  have hplaced := h.placed subscription hlive
  rw [Forwarder.Placed, of_decide_eq_true hcb] at hplaced
  exact hname (hevent ▸ hplaced.1)

/-- The forwarders of an event run once each, and nothing else of the transport runs. -/
theorem fired (h : Wiring bus weight ledger) (event : AgentEvent) (id : JsString) :
    (bus.emit (event.key id)).2.countP Forwarder.isAgent = weight event id ∧
      ∀ cb ∈ (bus.emit (event.key id)).2, (∃ n, cb = .other n) ∨ ∃ n, cb = .agent n event id := by
  rw [h.refines.independent, List.countP_map]
  refine ⟨h.forwarders event id, fun cb hmem ↦ ?_⟩
  obtain ⟨subscription, hserved, rfl⟩ := List.mem_map.mp hmem
  obtain ⟨hlive, hevent⟩ := Ledger.mem_subscribers.mp hserved
  have hplaced := h.placed subscription hlive
  unfold Forwarder.Placed at hplaced
  rw [hevent] at hplaced
  split at hplaced
  · exact absurd (hplaced.1 ▸ hplaced.2.2) (event.key_ne_static id)
  · exact absurd hplaced.1 (event.key_ne_created id)
  · rename_i n kind name hcb
    obtain ⟨rfl, rfl⟩ := AgentEvent.key_inj hplaced.1
    exact .inr ⟨n, hcb⟩
  · exact .inl ⟨_, ‹_›⟩

end Wiring

/-! ## Turns -/

namespace TransportServer

variable {server next : TransportServer Value} {weight : AgentEvent → JsString → ℕ}
  {ledger : Ledger Forwarder}

/-- What listeners of the transport leave alone. -/
structure Kept (before after : TransportServer Value) : Prop where
  running : after.running = before.running
  clients : after.clients = before.clients
  announced : after.announced = before.announced
  length : after.sessions.length = before.sessions.length

theorem Kept.refl (server : TransportServer Value) : Kept server server := ⟨rfl, rfl, rfl, rfl⟩

theorem Kept.trans {first second third : TransportServer Value} (h : Kept first second)
    (h' : Kept second third) : Kept first third :=
  ⟨h'.running.trans h.running, h'.clients.trans h.clients, h'.announced.trans h.announced,
    h'.length.trans h.length⟩

theorem kept_broadcast (notice : Notice Value) (server : TransportServer Value) :
    Kept server (server.broadcast notice) := by
  refine ⟨rfl, rfl, rfl, ?_⟩
  change (server.clients.foldl _ server.sessions).length = _
  generalize server.sessions = sessions
  induction server.clients generalizing sessions with
  | nil => rfl
  | cons client rest ih =>
    rw [List.foldl_cons, ih, List.length_modify]

theorem kept_foldl {α : Type*} {run : TransportServer Value → α → TransportServer Value}
    (h : ∀ server x, Kept server (run server x)) (server : TransportServer Value) (xs : List α) :
    Kept server (xs.foldl run server) := by
  induction xs generalizing server with
  | nil => exact .refl server
  | cons x rest ih => exact (h server x).trans (ih (run server x))

theorem kept_fire (data : Value) (id : JsString) (server : TransportServer Value) (cb : Forwarder) :
    Kept server (server.fire data id cb) := by
  cases cb with
  | busEvent name => exact kept_broadcast _ _
  | agent n event agentId => exact kept_broadcast _ _
  | other n => exact .refl server
  | onCreated =>
    change Kept server (server.wire id)
    unfold wire
    split
    · exact .refl server
    · refine kept_foldl (fun server event ↦ ?_) server AgentEvent.all
      exact ⟨rfl, rfl, rfl, rfl⟩

theorem kept_emit (name : JsString) (data : Value) (id : JsString) (server : TransportServer Value) :
    Kept server (server.emit name data id) :=
  have hbus : Kept server { server with bus := (server.bus.emit name).1 } := ⟨rfl, rfl, rfl, rfl⟩
  hbus.trans (kept_foldl (kept_fire data id) _ _)

/-- Each event that is wired gets one forwarder. -/
theorem wire_foldl (h : Wiring server.bus weight ledger) (id : JsString) (events : List AgentEvent) :
    ∃ ledger', Wiring (events.foldl (fun server event ↦
        server.on (event.key id) (.agent server.bus.handles.length event id)) server).bus
      (fun kind name ↦ weight kind name + if name = id then events.count kind else 0) ledger' := by
  induction events generalizing server weight ledger with
  | nil => exact ⟨ledger, h.congr fun _ _ ↦ by simp⟩
  | cons event rest ih =>
    obtain ⟨ledger', hwired⟩ := h.on_agent event id
    obtain ⟨ledger'', hrest⟩ := @ih (server.on (event.key id)
      (.agent server.bus.handles.length event id)) _ _ hwired
    refine ⟨ledger'', hrest.congr fun kind name ↦ ?_⟩
    rw [List.count_cons]
    by_cases hname : name = id
    · by_cases hkind : kind = event
      · simp only [hname, hkind, and_self, if_true, beq_self_eq_true]
        omega
      · simp [hname, hkind, Ne.symm hkind]
    · simp [hname]

theorem count_all (event : AgentEvent) : AgentEvent.all.count event = 1 := by
  cases event <;> decide

/-- One listener runs: the handler of `agent.created` adds a forwarder for each event. -/
theorem fire_wiring (h : Wiring server.bus weight ledger) (data : Value) (id : JsString)
    (cb : Forwarder) : ∃ ledger', Wiring (server.fire data id cb).bus (fun kind name ↦
      weight kind name + if name = id ∧ id ≠ [] ∧ cb = .onCreated then 1 else 0) ledger' := by
  cases cb with
  | busEvent name => exact ⟨ledger, h.congr fun _ _ ↦ by simp⟩
  | agent n event agentId => exact ⟨ledger, h.congr fun _ _ ↦ by simp⟩
  | other n => exact ⟨ledger, h.congr fun _ _ ↦ by simp⟩
  | onCreated =>
    change ∃ ledger', Wiring (server.wire id).bus _ ledger'
    by_cases hempty : id = []
    · subst hempty
      exact ⟨ledger, h.congr fun _ _ ↦ by simp⟩
    · have hwire : server.wire id = AgentEvent.all.foldl (fun server event ↦
          server.on (event.key id) (.agent server.bus.handles.length event id)) server :=
        if_neg (by simpa using hempty)
      obtain ⟨ledger', hwired⟩ := wire_foldl h id AgentEvent.all
      rw [hwire]
      exact ⟨ledger', hwired.congr fun kind name ↦ by simp [count_all, hempty]⟩

theorem fire_foldl (h : Wiring server.bus weight ledger) (data : Value) (id : JsString)
    (fired : List Forwarder) :
    ∃ ledger', Wiring (fired.foldl (fire data id) server).bus (fun kind name ↦
      weight kind name + if name = id ∧ id ≠ [] then fired.countP (· = .onCreated) else 0)
      ledger' := by
  induction fired generalizing server weight ledger with
  | nil => exact ⟨ledger, h.congr fun _ _ ↦ by simp⟩
  | cons cb rest ih =>
    obtain ⟨ledger', hwired⟩ := fire_wiring h data id cb
    obtain ⟨ledger'', hrest⟩ := ih hwired
    refine ⟨ledger'', hrest.congr fun kind name ↦ ?_⟩
    rw [List.countP_cons]
    by_cases hname : name = id ∧ id ≠ []
    · by_cases hcb : cb = .onCreated
      · simp [hname, hcb, Nat.add_assoc, Nat.add_comm]
      · simp [hname, hcb]
    · have hnot : ¬ (name = id ∧ id ≠ [] ∧ cb = .onCreated) := fun h ↦ hname ⟨h.1, h.2.1⟩
      rw [if_neg hname, if_neg hname, if_neg hnot]

/-- Nothing that an emission runs announces an agent, unless it is `agent.created`. -/
theorem emit_wiring (h : Wiring server.bus weight ledger) (name : JsString) (data : Value)
    (id : JsString) :
    ∃ ledger', Wiring (server.emit name data id).bus (fun kind agentId ↦ weight kind agentId +
      if agentId = id ∧ id ≠ [] ∧ name = js "agent.created" then 1 else 0) ledger' := by
  obtain ⟨emitted, hemitted⟩ := h.emit name
  obtain ⟨ledger', hfired⟩ := @fire_foldl _ { server with bus := (server.bus.emit name).1 } _ _
    hemitted data id (server.bus.emit name).2
  refine ⟨ledger', hfired.congr fun kind agentId ↦ ?_⟩
  by_cases hname : name = js "agent.created"
  · subst hname
    simp [h.count_onCreated]
  · rw [h.count_onCreated_ne hname]
    simp [hname]

/-- Forwarders of one event send the same notification one after the other. -/
theorem fire_sessions {event : AgentEvent} {id createdId : JsString} {data : Value}
    {fired : List Forwarder}
    (hfired : ∀ cb ∈ fired, (∃ n, cb = .other n) ∨ ∃ n, cb = .agent n event id) :
    (fired.foldl (fire data createdId) server).sessions =
      (Cordyceps.Transport.broadcast (event.notice id data) server.clients)^[
        fired.countP Forwarder.isAgent] server.sessions := by
  induction fired generalizing server with
  | nil => rfl
  | cons cb rest ih =>
    have hrest := @ih (server.fire data createdId cb) fun other hmem ↦
      hfired other (List.mem_cons_of_mem _ hmem)
    rw [List.foldl_cons, hrest, List.countP_cons]
    rcases hfired cb List.mem_cons_self with ⟨n, rfl⟩ | ⟨n, rfl⟩
    · rfl
    · simp only [Forwarder.isAgent, if_true, Function.iterate_succ_apply]
      rfl

/-- How often the id counts: not at all if it is empty. -/
def announcements (announced : List JsString) (_ : AgentEvent) (id : JsString) : ℕ :=
  if id = [] then 0 else announced.count id

theorem refines_on {bus : ServiceBus Forwarder Value} (h : Refines bus ledger) (name : JsString)
    (cb : Forwarder) (hnew : ∀ subscription ∈ ledger.subscribers name, subscription.cb ≠ cb) :
    Refines (bus.on name (.callback cb)) (ledger.subscribe name cb false) :=
  @refines_step _ _ _ (bus, ledger) (.on name cb) h fun subscription hmem heq ↦
    absurd heq (hnew subscription hmem)

/-- What the transport listens to when it has started. -/
theorem startLedger_live : ((((Ledger.empty.subscribe (js "agent.created")
      (.busEvent (js "agent.created")) false).subscribe (js "plugin.ready")
      (.busEvent (js "plugin.ready")) false).subscribe (js "daemon.stopping")
      (.busEvent (js "daemon.stopping")) false).subscribe (js "agent.created") .onCreated false :
      Ledger Forwarder).live =
    [⟨0, js "agent.created", .busEvent (js "agent.created"), false⟩,
      ⟨1, js "plugin.ready", .busEvent (js "plugin.ready"), false⟩,
      ⟨2, js "daemon.stopping", .busEvent (js "daemon.stopping"), false⟩,
      ⟨3, js "agent.created", .onCreated, false⟩] := rfl

/-- Clients are known sessions, and there is a forwarder for each announcement. -/
structure Forwarding (server : TransportServer Value) : Prop where
  nodup : server.clients.Nodup
  known : ∀ k ∈ server.clients, k < server.sessions.length
  wiring : server.running = true →
    ∃ ledger, Wiring server.bus (announcements server.announced) ledger

namespace Forwarding

/-- A turn that leaves the clients alone. -/
theorem of_kept (h : server.Forwarding) (hkept : Kept server next)
    (hwiring : next.running = true →
      ∃ ledger, Wiring next.bus (announcements next.announced) ledger) : next.Forwarding where
  nodup := hkept.clients ▸ h.nodup
  known := by
    rw [hkept.clients, hkept.length]
    exact h.known
  wiring := hwiring

theorem onSession (h : server.Forwarding) (k : ℕ)
    (change : ClientSession Value → ClientSession Value) : (server.onSession k change).Forwarding :=
  h.of_kept ⟨rfl, rfl, rfl, List.length_modify ..⟩ h.wiring

/-- A turn of somebody else on the bus. -/
theorem withBus (h : server.Forwarding) {bus : ServiceBus Forwarder Value}
    (hbus : ∀ ledger, Wiring server.bus (announcements server.announced) ledger →
      ∃ ledger', Wiring bus (announcements server.announced) ledger') :
    ({ server with bus := bus } : TransportServer Value).Forwarding :=
  h.of_kept ⟨rfl, rfl, rfl, rfl⟩ fun hrunning ↦
    (h.wiring hrunning).elim fun ledger hwiring ↦ hbus ledger hwiring

theorem created (h : server.Forwarding) (id : JsString) (info : Value) :
    ({ server.emit (js "agent.created") info id with
        announced := (server.emit (js "agent.created") info id).announced ++ [id] } :
      TransportServer Value).Forwarding := by
  have hkept := kept_emit (js "agent.created") info id server
  refine ⟨hkept.clients ▸ h.nodup, ?_, fun hrunning ↦ ?_⟩
  · rw [hkept.clients, hkept.length]
    exact h.known
  obtain ⟨ledger, hwiring⟩ := h.wiring (hkept.running ▸ hrunning)
  obtain ⟨ledger', hemitted⟩ := emit_wiring hwiring (js "agent.created") info id
  refine ⟨ledger', hemitted.congr fun kind agentId ↦ ?_⟩
  rw [hkept.announced, announcements, announcements, List.count_append, List.count_singleton]
  by_cases hid : agentId = id
  · subst hid
    by_cases hempty : agentId = [] <;> simp [hempty]
  · simp [hid, Ne.symm hid]

theorem emit (h : server.Forwarding) (name : JsString) (data : Value) :
    (server.emit name data []).Forwarding := by
  have hkept := kept_emit name data [] server
  refine h.of_kept hkept fun hrunning ↦ ?_
  obtain ⟨ledger, hwiring⟩ := h.wiring (hkept.running ▸ hrunning)
  obtain ⟨ledger', hemitted⟩ := emit_wiring hwiring name data []
  rw [hkept.announced]
  exact ⟨ledger', hemitted.congr fun _ _ ↦ by simp⟩

theorem unlisten (h : server.Forwarding) {handle : ℕ}
    (hforeign : server.foreignAndLive handle = true) :
    ({ server with bus := server.bus.unsubscribe handle } : TransportServer Value).Forwarding := by
  unfold foreignAndLive at hforeign
  split at hforeign
  · rename_i closure hclosure
    simp only [Bool.and_eq_true, decide_eq_true_eq] at hforeign
    obtain ⟨⟨hevent, _⟩, hother⟩ := hforeign
    split at hother
    · exact h.withBus fun ledger hwiring ↦ hwiring.unlisten hclosure hevent ‹_›
    · cases hother
  · cases hforeign

theorem connect (h : server.Forwarding) : ({ server with
    sessions := server.sessions ++ [.create]
    clients := server.clients ++ [server.sessions.length] } : TransportServer Value).Forwarding where
  nodup := by
    have hfresh : server.sessions.length ∉ server.clients :=
      fun hmem ↦ Nat.lt_irrefl _ (h.known _ hmem)
    have hnodup := List.Nodup.concat hfresh h.nodup
    rw [List.concat_eq_append] at hnodup
    exact hnodup
  known := by
    intro k hk
    rw [List.length_append]
    rcases List.mem_append.mp hk with hold | hlast
    · exact Nat.lt_succ_of_lt (h.known k hold)
    · rw [List.mem_singleton.mp hlast]
      exact Nat.lt_succ_self _
  wiring := h.wiring

theorem closed (h : server.Forwarding) (k : ℕ) :
    ({ server.onSession k fun session ↦ { session with opened := false } with
      clients := server.clients.erase k } : TransportServer Value).Forwarding where
  nodup := h.nodup.erase k
  known := fun other hmem ↦ (h.onSession k _).known other (List.mem_of_mem_erase hmem)
  wiring := h.wiring

theorem stop (h : server.Forwarding) : server.stop.Forwarding where
  nodup := h.nodup
  known := by
    intro k hk
    have hlength : ∀ (clients : List ℕ) (sessions : List (ClientSession Value)),
        (clients.foldl (fun sessions k ↦ sessions.modify k fun session ↦
          { session with opened := false }) sessions).length = sessions.length := by
      intro clients
      induction clients with
      | nil => exact fun _ ↦ rfl
      | cons client rest ih =>
        intro sessions
        rw [List.foldl_cons, ih, List.length_modify]
    exact (hlength server.clients server.sessions).symm ▸ h.known k hk
  wiring := nofun

theorem step (h : server.Forwarding) {event : ServerEvent Value}
    (hstep : server.step event = some next) : next.Forwarding := by
  cases event with
  | created id info =>
    cases hstep
    exact h.created id info
  | emit name data =>
    simp only [TransportServer.step, Option.ite_none_left_eq_some] at hstep
    obtain ⟨_, hnext⟩ := hstep
    cases hnext
    exact h.emit name data
  | listen name once =>
    cases hstep
    exact h.withBus fun ledger hwiring ↦ hwiring.listen name once
  | unlisten handle =>
    simp only [TransportServer.step, Option.ite_none_right_eq_some] at hstep
    obtain ⟨hforeign, hnext⟩ := hstep
    cases hnext
    exact h.unlisten hforeign
  | connect =>
    simp only [TransportServer.step, Option.ite_none_right_eq_some] at hstep
    obtain ⟨_, hnext⟩ := hstep
    cases hnext
    exact h.connect
  | subscribe k events =>
    cases hstep
    exact h.onSession k _
  | unsubscribe k events =>
    cases hstep
    exact h.onSession k _
  | closing k =>
    cases hstep
    exact h.onSession k _
  | closed k =>
    cases hstep
    exact h.closed k
  | stop =>
    simp only [TransportServer.step, Option.ite_none_right_eq_some] at hstep
    obtain ⟨_, hnext⟩ := hstep
    cases hnext
    exact h.stop

/-- The bus that the engine has just created, with the four subscriptions of the transport. -/
theorem start : (TransportServer.start : TransportServer Value).Forwarding where
  nodup := List.nodup_nil
  known := nofun
  wiring := fun _ ↦ by
    have hempty : Refines (createServiceBus : ServiceBus Forwarder Value) Ledger.empty :=
      refines_create
    have hcreated := refines_on hempty (js "agent.created") (.busEvent (js "agent.created")) nofun
    have hready := refines_on hcreated (js "plugin.ready") (.busEvent (js "plugin.ready"))
      (by decide)
    have hstopping := refines_on hready (js "daemon.stopping") (.busEvent (js "daemon.stopping"))
      (by decide)
    have hon := refines_on hstopping (js "agent.created") .onCreated (by decide)
    refine ⟨_, hon, ?_, ?_, by decide, fun kind id ↦ ?_⟩
    · rw [startLedger_live]
      rintro subscription hmem
      simp only [List.mem_cons, List.not_mem_nil, or_false] at hmem
      rcases hmem with rfl | rfl | rfl | rfl <;> simp [Forwarder.Placed]
    · rw [startLedger_live]
      rintro subscription hmem n hn
      simp only [List.mem_cons, List.not_mem_nil, or_false] at hmem
      rcases hmem with rfl | rfl | rfl | rfl <;> cases hn
    · rw [List.countP_eq_zero.mpr]
      · exact (ite_self 0).symm
      · intro subscription hmem
        obtain ⟨hlive, _⟩ := Ledger.mem_subscribers.mp hmem
        rw [startLedger_live] at hlive
        simp only [List.mem_cons, List.not_mem_nil, or_false] at hlive
        rcases hlive with rfl | rfl | rfl | rfl <;> simp [Forwarder.isAgent]

end Forwarding

/-- Each client gets as many notifications of an emission as the id was announced. -/
theorem getElem?_emit (h : server.Forwarding) (hrunning : server.running = true)
    (kind : AgentEvent) (id : JsString) (data : Value) {k : ℕ} {session : ClientSession Value}
    (hk : server.sessions[k]? = some session) :
    (server.emit (kind.key id) data []).sessions[k]? = some { session with
      received := session.received ++ if k ∈ server.clients ∧ session.reachable kind.method = true
        then List.replicate (announcements server.announced kind id) (kind.notice id data)
        else [] } := by
  obtain ⟨ledger, hwiring⟩ := h.wiring hrunning
  obtain ⟨hcount, hfired⟩ := hwiring.fired kind id
  have hsessions := @fire_sessions _ { server with bus := (server.bus.emit (kind.key id)).1 }
    kind id [] data _ hfired
  rw [TransportServer.emit, hsessions, hcount, getElem?_iterate_broadcast _ h.nodup]
  change server.sessions[k]?.map _ = _
  rw [hk, Option.map_some]
  by_cases hmem : k ∈ server.clients
  · rw [if_pos hmem, ClientSession.iterate_notify]
    simp only [hmem, true_and]
    rfl
  · simp [hmem]

theorem forwardsOnce (h : server.Forwarding) {event : ServerEvent Value}
    (hmeet : server.AnnouncedOnce event) (hstep : server.step event = some next) :
    server.ForwardsOnce event next := by
  cases event with
  | emit name data =>
    rintro hrunning kind id rfl hannounced k session hk
    simp only [TransportServer.step, Option.ite_none_left_eq_some] at hstep
    obtain ⟨_, hnext⟩ := hstep
    cases hnext
    refine ⟨_, getElem?_emit h hrunning kind id data hk, ?_⟩
    rcases hmeet hrunning kind id rfl hannounced with ⟨hne, hcount⟩ | hquiet
    · simp [announcements, hne, hcount]
    · by_cases hmem : k ∈ server.clients
      · simp [hquiet k hmem session hk]
      · simp [hmem]
  | _ => trivial

theorem not_forwardsOnce (h : server.Forwarding) {event : ServerEvent Value}
    (hmiss : ¬ server.AnnouncedOnce event) (hstep : server.step event = some next) :
    ¬ server.ForwardsOnce event next := by
  cases event with
  | emit name data =>
    intro hforwards
    refine hmiss fun hrunning kind id hname hannounced ↦ ?_
    subst hname
    simp only [TransportServer.step, Option.ite_none_left_eq_some] at hstep
    obtain ⟨_, hnext⟩ := hstep
    cases hnext
    by_contra hnot
    rw [not_or] at hnot
    obtain ⟨hoften, hheard⟩ := hnot
    push Not at hheard
    obtain ⟨k, hmem, session, hk, hreachable⟩ := hheard
    rw [ne_eq, Bool.not_eq_false] at hreachable
    obtain ⟨after, hafter, hreceived⟩ := hforwards hrunning kind id rfl hannounced k session hk
    rw [getElem?_emit h hrunning kind id data hk] at hafter
    cases hafter
    rw [if_pos ⟨hmem, hreachable⟩, if_pos ⟨hmem, hreachable⟩, List.append_cancel_left_eq] at hreceived
    have hlength := congrArg List.length hreceived
    rw [List.length_replicate, announcements, List.length_singleton] at hlength
    by_cases hid : id = []
    · rw [if_pos hid] at hlength
      cases hlength
    · rw [if_neg hid] at hlength
      exact hoften ⟨hid, hlength⟩
  | _ => exact absurd trivial hmiss

/-- Every emission of an agent's event comes once to each client that listens exactly if each such
event is of an agent whose id was announced once. -/
theorem forwards_once_iff (schedule : List (ServerEvent Value)) :
    Along TransportServer.step ForwardsOnce start schedule ↔
      StepsMeet TransportServer.step AnnouncedOnce start schedule := by
  have hkeep : ∀ (server : TransportServer Value) event next, server.Forwarding →
      server.AnnouncedOnce event → server.step event = some next →
        next.Forwarding ∧ server.ForwardsOnce event next :=
    fun server event next hinv hmeet hstep ↦ ⟨hinv.step hstep, forwardsOnce hinv hmeet hstep⟩
  have hbreak : ∀ (server : TransportServer Value) event next, server.Forwarding →
      ¬ server.AnnouncedOnce event → server.step event = some next →
        ¬ server.ForwardsOnce event next :=
    fun server event next hinv hmiss hstep ↦ not_forwardsOnce hinv hmiss hstep
  exact along_iff hkeep hbreak Forwarding.start schedule

/-- An agent is spawned again under the id of one that was killed and removed. -/
def respawned : List (ServerEvent ℕ) :=
  [.created (js "x") 0, .connect, .created (js "x") 1, .emit (js "agent.x.state") 2]

/-- A client gets two notifications of the one event. -/
theorem respawned_agent_notifies_twice :
    ((run TransportServer.step start respawned).bind fun server ↦
        (server.sessions[0]?).map fun session ↦
          session.received.filter fun notice ↦ notice.method = js "agent.state") =
      some [AgentEvent.state.notice (js "x") 2, AgentEvent.state.notice (js "x") 2] ∧
    ¬ Along TransportServer.step ForwardsOnce start respawned := by
  refine ⟨by decide +kernel, fun halong ↦ ?_⟩
  have hcreated := (halong _ rfl).2
  have hconnected := (hcreated _ rfl).2
  have hagain := (hconnected _ rfl).2
  obtain ⟨after, hafter, hreceived⟩ := (hagain _ rfl).1 rfl .state (js "x") rfl
    (by decide +kernel) 0 _ rfl
  cases hafter
  exact absurd (congrArg List.length hreceived) (by decide +kernel)

end TransportServer

end Cordyceps.Transport
