import Cordyceps.Transport.Broadcasts

/-!
# Callbacks of a client

`on` of `openClient`, and the part of its message listener that runs the subscribed callbacks. A
frame that answers a pending call is not for them, and an error that a callback throws ends the
loop over its set.
-/

namespace Cordyceps.Cli

open Foundations Cordyceps.Transport

variable {Callback : Type*}

/-- `handlers`: the callbacks by method, in the order in which they came. `called` observes their
calls. -/
structure Handlers (Callback : Type*) where
  sets : JsMap JsString (List Callback)
  called : List (JsString × Callback × Option Json)
  nodup : ∀ method set, sets.get method = some set → set.Nodup

namespace Handlers

def create : Handlers Callback := ⟨.empty, [], nofun⟩

/-- The callbacks of a method. -/
def setOf (handlers : Handlers Callback) (method : JsString) : List Callback :=
  (handlers.sets.get method).getD []

theorem nodup_setOf (handlers : Handlers Callback) (method : JsString) :
    (handlers.setOf method).Nodup := by
  unfold setOf
  cases hset : handlers.sets.get method with
  | none => exact List.nodup_nil
  | some set => exact handlers.nodup method set hset

/-- The callbacks of one method change. -/
def withSet (method : JsString) (set : List Callback) (h : set.Nodup) (handlers : Handlers Callback) :
    Handlers Callback where
  sets := handlers.sets.set method set
  called := handlers.called
  nodup name other hother := by
    rw [JsMap.get_set] at hother
    split at hother
    · cases hother
      exact h
    · exact handlers.nodup name other hother

section Subscribe

variable [DecidableEq Callback]

/-- `Set.prototype.add`. -/
def addCallback (cb : Callback) (set : List Callback) : List Callback :=
  if cb ∈ set then set else set ++ [cb]

theorem nodup_addCallback (cb : Callback) {set : List Callback} (h : set.Nodup) :
    (addCallback cb set).Nodup := by
  unfold addCallback
  split
  · exact h
  · rename_i hfresh
    have hconcat := List.Nodup.concat hfresh h
    rw [List.concat_eq_append] at hconcat
    exact hconcat

/-- `on`. -/
def on (method : JsString) (cb : Callback) (handlers : Handlers Callback) : Handlers Callback :=
  handlers.withSet method (addCallback cb (handlers.setOf method))
    (nodup_addCallback cb (handlers.nodup_setOf method))

/-- The function that `on` returned. The set stays in the map when it is empty. -/
def off (method : JsString) (cb : Callback) (handlers : Handlers Callback) : Handlers Callback :=
  handlers.withSet method ((handlers.setOf method).erase cb) ((handlers.nodup_setOf method).erase cb)

end Subscribe

/-- The loop over the set. -/
def reached (throws : Callback → Option Json → Bool) (params : Option Json) :
    List Callback → List Callback
  | [] => []
  | cb :: rest => cb :: if throws cb params then [] else reached throws params rest

theorem reached_sublist (throws : Callback → Option Json → Bool) (params : Option Json)
    (set : List Callback) : (reached throws params set).Sublist set := by
  induction set with
  | nil => exact .refl _
  | cons cb rest ih =>
    rw [reached]
    split
    · exact (List.nil_sublist rest).cons_cons cb
    · exact ih.cons_cons cb

/-- The message listener, as far as the callbacks are concerned. -/
def hear (throws : Callback → Option Json → Bool) (client : RpcClient) (msg : Json)
    (handlers : Handlers Callback) : Handlers Callback :=
  if (client.pendingFor msg).isSome then handlers
  else
    match Json.ifTruthy (msg.field (js "method")) with
    | some (.str method) => { handlers with
        called := handlers.called ++
          (reached throws (msg.field (js "params")) (handlers.setOf method)).map fun cb ↦
            (method, cb, msg.field (js "params")) }
    | _ => handlers

/-! ## What a callback hears -/

variable [DecidableEq Callback]

/-- The payload that one call brought to a callback. -/
def heardIn (kind : AgentEvent) (id : JsString) (cb : Callback) :
    JsString × Callback × Option Json → Option Json
  | (method, other, params) =>
    if method = kind.method ∧ other = cb then kind.payloadOf id params else none

/-- The payloads of one kind of event of an agent that a callback was called with, in order. -/
def heard (kind : AgentEvent) (id : JsString) (cb : Callback) (handlers : Handlers Callback) :
    List Json :=
  handlers.called.filterMap (heardIn kind id cb)

/-- A callback runs once for a frame. -/
theorem filterMap_once {callbacks : List Callback} {cb : Callback} (hnodup : callbacks.Nodup)
    (data : Option Json) (h : data.isSome = true → cb ∈ callbacks) :
    callbacks.filterMap (fun other ↦ if other = cb then data else none) = data.toList := by
  cases data with
  | none => simp
  | some value =>
    have hmem := h rfl
    clear h
    induction callbacks with
    | nil => exact absurd hmem List.not_mem_nil
    | cons head rest ih =>
      obtain ⟨hfresh, hrest⟩ := List.nodup_cons.mp hnodup
      by_cases hhead : head = cb
      · subst hhead
        have hnone : rest.filterMap (fun other ↦ if other = head then some value else none) = [] :=
          List.filterMap_eq_nil_iff.mpr fun other hother ↦
            if_neg fun heq : other = head ↦ hfresh (heq ▸ hother)
        rw [List.filterMap_cons, if_pos rfl, hnone]
        rfl
      · rw [List.filterMap_cons, if_neg hhead]
        exact ih hrest ((List.mem_cons.mp hmem).resolve_left (Ne.symm hhead))

/-- A callback that is reached hears the payload of the frame. Frames with an id have no method. -/
theorem heard_hear {kind : AgentEvent} {id : JsString} {cb : Callback} {msg : Json}
    (throws : Callback → Option Json → Bool) (client : RpcClient) (handlers : Handlers Callback)
    (hplain : msg.field (js "id") = none ∨ msg.field (js "method") = none)
    (hreached : (kind.dataIn id msg).isSome = true →
      cb ∈ reached throws (msg.field (js "params")) (handlers.setOf kind.method)) :
    (handlers.hear throws client msg).heard kind id cb =
      handlers.heard kind id cb ++ (kind.dataIn id msg).toList := by
  by_cases hmethod : msg.field (js "method") = some (.str kind.method)
  · have hid : msg.field (js "id") = none :=
      hplain.resolve_right fun hnone ↦ Option.some_ne_none _ (hmethod.symm.trans hnone)
    have hpending : client.pendingFor msg = none := by rw [RpcClient.pendingFor, hid]; rfl
    have htruthy : Json.ifTruthy (msg.field (js "method")) = some (.str kind.method) := by
      rw [hmethod]
      cases kind <;> rfl
    have hdata : kind.dataIn id msg = kind.payloadOf id (msg.field (js "params")) := if_pos hmethod
    have hnodup := (handlers.nodup_setOf kind.method).sublist
      (reached_sublist throws (msg.field (js "params")) _)
    rw [hear, hpending, htruthy]
    calc
      (handlers.called ++ (reached throws (msg.field (js "params")) (handlers.setOf kind.method)).map
          fun cb ↦ (kind.method, cb, msg.field (js "params"))).filterMap (heardIn kind id cb)
        = handlers.heard kind id cb ++
            (reached throws (msg.field (js "params")) (handlers.setOf kind.method)).filterMap
              fun other ↦ if other = cb then kind.dataIn id msg else none := by
          rw [List.filterMap_append, List.filterMap_map]
          congr 2
          funext other
          rw [hdata]
          simp [heardIn]
      _ = handlers.heard kind id cb ++ (kind.dataIn id msg).toList := by
          rw [filterMap_once hnodup (kind.dataIn id msg) hreached]
  · have hdata : kind.dataIn id msg = none := if_neg hmethod
    rw [hdata, Option.toList_none, List.append_nil, hear]
    split
    · rfl
    · split
      · rename_i method htruthy
        have hne : method ≠ kind.method := by
          rintro rfl
          apply hmethod
          unfold Json.ifTruthy at htruthy
          split at htruthy
          · split at htruthy
            · cases htruthy
              assumption
            · cases htruthy
          · cases htruthy
        rw [heard, List.filterMap_append, List.filterMap_map]
        have hnone : (reached throws (msg.field (js "params")) (handlers.setOf method)).filterMap
            (heardIn kind id cb ∘ fun cb ↦ (method, cb, msg.field (js "params"))) = [] :=
          List.filterMap_eq_nil_iff.mpr fun other _ ↦ if_neg fun h ↦ hne h.1
        rw [hnone, List.append_nil]
        rfl
      · rfl

end Handlers

end Cordyceps.Cli
