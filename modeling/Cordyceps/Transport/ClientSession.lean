import Cordyceps.Foundations.JsString
import Mathlib.Data.List.Nodup

/-!
# Client sessions

`transport/client-session.ts` and the broadcast of `transport/rpc.ts`. A session
is told from another by its position; the dispatcher holds the set of those that
are connected. `received` observes the frames that were handed to the socket.
-/

namespace Cordyceps.Transport

open Foundations

/-- The parameters of a notification: those of an agent's event are made of its id and of the
payload, under a name or spread over the object. -/
inductive NoticeParams (Value : Type*)
  | plain (data : Value)
  | agent (agentId field : JsString) (data : Value)
  | spread (agentId : JsString) (data : Value)
  deriving DecidableEq, Repr

structure Notice (Value : Type*) where
  method : JsString
  params : NoticeParams Value
  deriving DecidableEq, Repr

/-- `DEFAULT_SUBSCRIPTIONS`. -/
def defaultSubscriptions : List JsString :=
  [js "agent.created", js "agent.state", js "agent.message", js "agent.blocked", js "agent.idle",
    js "agent.exited", js "plugin.ready", js "daemon.stopping"]

/-- A session; `opened` is the socket's `readyState === OPEN`. -/
structure ClientSession (Value : Type*) where
  subscriptions : List JsString
  opened : Bool
  received : List (Notice Value)

namespace ClientSession

variable {Value : Type*}

/-- The constructor, on a socket that has just been upgraded. -/
def create : ClientSession Value := ⟨defaultSubscriptions, true, []⟩

/-- `isSubscribed`. -/
def isSubscribed (session : ClientSession Value) (event : JsString) : Bool :=
  decide (event ∈ session.subscriptions)

/-- `Set.prototype.add`. -/
def addEvent (events : List JsString) (event : JsString) : List JsString :=
  if event ∈ events then events else events ++ [event]

/-- `subscribe`. -/
def subscribe (events : List JsString) (session : ClientSession Value) : ClientSession Value :=
  { session with subscriptions := events.foldl addEvent session.subscriptions }

/-- `unsubscribe`. -/
def unsubscribe (events : List JsString) (session : ClientSession Value) : ClientSession Value :=
  { session with subscriptions := events.foldl List.erase session.subscriptions }

/-- `send`. -/
def send (notice : Notice Value) (session : ClientSession Value) : ClientSession Value :=
  if session.opened then { session with received := session.received ++ [notice] } else session

/-- What a broadcast does with a connected client. -/
def notify (notice : Notice Value) (session : ClientSession Value) : ClientSession Value :=
  if session.isSubscribed notice.method then session.send notice else session

/-- The client gets a broadcast if it is connected. -/
def reachable (session : ClientSession Value) (method : JsString) : Bool :=
  session.isSubscribed method && session.opened

theorem notify_eq (notice : Notice Value) (session : ClientSession Value) :
    session.notify notice = { session with
      received := session.received ++ if session.reachable notice.method then [notice] else [] } := by
  obtain ⟨subscriptions, opened, received⟩ := session
  unfold notify send reachable
  cases ClientSession.isSubscribed ⟨subscriptions, opened, received⟩ notice.method <;>
    cases opened <;> simp

/-- Several equal broadcasts. -/
theorem iterate_notify (notice : Notice Value) (count : ℕ) (session : ClientSession Value) :
    (notify notice)^[count] session = { session with
      received := session.received ++
        if session.reachable notice.method then List.replicate count notice else [] } := by
  induction count generalizing session with
  | zero => simp
  | succ count ih =>
    rw [Function.iterate_succ_apply, ih, notify_eq]
    by_cases hreachable : session.reachable notice.method = true
    · simp only [hreachable, if_true, List.append_assoc]
      have hsame : ({ session with received := session.received ++ [notice] } :
          ClientSession Value).reachable notice.method = true := hreachable
      rw [if_pos hsame, List.singleton_append, List.replicate_succ]
    · simp only [hreachable, if_false, List.append_nil, Bool.false_eq_true]

end ClientSession

section Broadcast

variable {Value : Type*}

/-- `broadcast`: the connected clients in the order in which they connected. -/
def broadcast (notice : Notice Value) (clients : List ℕ) (sessions : List (ClientSession Value)) :
    List (ClientSession Value) :=
  clients.foldl (fun sessions k ↦ sessions.modify k (ClientSession.notify notice)) sessions

theorem getElem?_broadcast (notice : Notice Value) {clients : List ℕ} (h : clients.Nodup)
    (sessions : List (ClientSession Value)) (k : ℕ) :
    (broadcast notice clients sessions)[k]? =
      sessions[k]?.map fun session ↦ if k ∈ clients then session.notify notice else session := by
  induction clients generalizing sessions with
  | nil => simp [broadcast]
  | cons client rest ih =>
    obtain ⟨hfresh, hrest⟩ := List.nodup_cons.mp h
    rw [broadcast, List.foldl_cons]
    change (broadcast notice rest _)[k]? = _
    rw [ih hrest, List.getElem?_modify]
    by_cases hk : client = k
    · subst hk
      cases sessions[client]? with
      | none => rfl
      | some session => simp [hfresh]
    · have hmem : k ∈ client :: rest ↔ k ∈ rest := by simp [Ne.symm hk]
      cases sessions[k]? with
      | none => rfl
      | some session => simp [hk, hmem]

/-- Each connected client gets every copy, and nobody else gets any. -/
theorem getElem?_iterate_broadcast (notice : Notice Value) {clients : List ℕ} (h : clients.Nodup)
    (sessions : List (ClientSession Value)) (count k : ℕ) :
    ((broadcast notice clients)^[count] sessions)[k]? = sessions[k]?.map fun session ↦
      if k ∈ clients then (ClientSession.notify notice)^[count] session else session := by
  induction count generalizing sessions with
  | zero => simp
  | succ count ih =>
    rw [Function.iterate_succ_apply, ih, getElem?_broadcast notice h, Option.map_map]
    congr 1
    funext session
    by_cases hk : k ∈ clients <;> simp [hk]

end Broadcast

end Cordyceps.Transport
