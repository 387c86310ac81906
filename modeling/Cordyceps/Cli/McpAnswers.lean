import Cordyceps.Cli.McpStdio
import Cordyceps.Foundations.Slots
import Cordyceps.Foundations.StepMachine

/-!
# One answer for each request

A bridge owes every request one response with its id, a notification none, and anything else one
error. Only the branch for unknown methods asks whether the request has an id, and only a text that
does not parse is taken for an error: a notification of a method that the bridge knows is answered,
a request under the name of a notification is not, and a value that is no object is either passed
over or, if it is `null`, makes the handler throw.
-/

namespace Cordyceps.Cli

open Foundations Foundations.StepMachine Cordyceps.Transport

/-! ## What is owed to a line -/

/-- One error response without an id. -/
def ErrorToNull (responses : List Json) : Prop :=
  ∃ response : Json, responses = [response] ∧ response.field (js "id") = some .null ∧
    (response.field (js "error")).isSome

/-- These responses are what a line calls for. Nothing is said of objects without a method. -/
def Answered (line : JsString) (responses : List Json) : Prop :=
  match Json.parse line with
  | some (.obj members) =>
    match Json.lookup (js "method") members, Json.lookup (js "id") members with
    | some _, some id => ∃ response : Json, responses = [response] ∧
        response.field (js "id") = some id
    | some _, none => responses = []
    | none, _ => True
  | _ => ErrorToNull responses

namespace HandlerPhase

def awaits : HandlerPhase → Bool
  | .awaiting _ _ _ => true
  | .returned | .threw | .ended _ => false

/-- `handleLine` rejected its promise. -/
def rejects : HandlerPhase → Bool
  | .threw | .ended true => true
  | .awaiting _ _ _ | .returned | .ended false => false

/-- The `finally` block of the handler is still to run. -/
def unsettled : HandlerPhase → Bool
  | .ended _ => false
  | .awaiting _ _ _ | .returned | .threw => true

end HandlerPhase

/-- Every handler that does not wait for the daemon has written what its line calls for, those that
wait have written nothing yet, none rejects, and none waits once the bridge has returned. -/
structure AnswersOnce (bridge : Bridge) : Prop where
  waiting : ∀ handler ∈ bridge.handlers, handler.phase.awaits = true → handler.responses = []
  answered : ∀ handler ∈ bridge.handlers, handler.phase.awaits = false →
    Answered handler.line handler.responses
  observed : ∀ handler ∈ bridge.handlers, handler.phase.rejects = false
  complete : bridge.returned = true → ∀ handler ∈ bridge.handlers, handler.phase.awaits = false

/-! ## Which lines get it -/

def knownMethods : List Json :=
  [.str (js "initialize"), .str (js "tools/list"), .str (js "ping")]

/-- The line is no JSON value but an object; it has an id unless its method is unknown, or a tool
call that the daemon is asked for; and it has none if it is the notification of the source. -/
def Regular (connected : Bool) (line : JsString) : Prop :=
  match Json.parse line with
  | none => True
  | some (.obj members) =>
    match Json.lookup (js "method") members, Json.lookup (js "id") members with
    | some method, some _ => method ≠ .str (js "notifications/initialized")
    | some method, none => method ∉ knownMethods ∧ (method = .str (js "tools/call") →
        connected = true ∧ (findTool ((Json.lookup (js "params") members).bind
          (Json.field (js "name")))).isSome = true)
    | none, _ => True
  | some _ => False

/-- A tool call of this id. -/
def CallsTool (line : JsString) (id : Option Json) : Prop :=
  ∃ members, Json.parse line = some (.obj members) ∧
    Json.lookup (js "method") members = some (.str (js "tools/call")) ∧
      Json.lookup (js "id") members = id

/-! ### Responses -/

theorem id_okResponse (id : Option Json) (result : Json) :
    (okResponse id result).field (js "id") = some (idOrNull id) := rfl

theorem id_errResponse (id : Option Json) (code : ℤ) (message : JsString) :
    (errResponse id code message).field (js "id") = some (idOrNull id) := rfl

theorem id_errWithValue (id : Option Json) (code : ℤ) (message : JsString) (value : Option Json) :
    (errWithValue id code message value).field (js "id") = some (idOrNull id) := by
  unfold errWithValue
  split
  · rfl
  · split <;> rfl

@[simp]
theorem idOrNull_some (id : Json) : idOrNull (some id) = id := by
  cases id <;> rfl

/-- One response to a request with a method. -/
theorem answered_one {line : JsString} {members : List (JsString × Json)} {method response : Json}
    {id : Option Json} (hparse : Json.parse line = some (.obj members))
    (hmethod : Json.lookup (js "method") members = some method)
    (hid : Json.lookup (js "id") members = id)
    (hresponse : response.field (js "id") = some (idOrNull id)) :
    Answered line [response] ↔ id.isSome = true := by
  unfold Answered
  simp only [hparse, hmethod, hid]
  cases id with
  | none => simp
  | some id => simpa using hresponse

/-- No response to a request with a method. -/
theorem answered_none {line : JsString} {members : List (JsString × Json)} {method : Json}
    {id : Option Json} (hparse : Json.parse line = some (.obj members))
    (hmethod : Json.lookup (js "method") members = some method)
    (hid : Json.lookup (js "id") members = id) : Answered line [] ↔ id = none := by
  unfold Answered
  simp only [hparse, hmethod, hid]
  cases id <;> simp

/-! ### Handlers -/

section Handle

variable {version line rpc : JsString} {connected : Bool} {responses : List Json} {args : Json}
  {id : Option Json}

/-- A line that is no object: the parse error is one, and no other value gets a response. -/
theorem answered_of_no_object (hnone : ∀ members, Json.parse line ≠ some (.obj members))
    (h : handleLine version connected line = .returns responses) :
    Answered line responses ↔ Regular connected line := by
  unfold handleLine at h
  cases hparse : Json.parse line with
  | none =>
    rw [hparse] at h
    cases h
    simp only [Answered, Regular, hparse, iff_true]
    exact ⟨_, rfl, rfl, rfl⟩
  | some req =>
    rw [hparse] at h
    cases req with
    | null => cases h
    | obj members => exact absurd hparse (hnone members)
    | _ =>
      cases h
      simp [Answered, Regular, hparse, ErrorToNull]

/-- An object without a method may be handled in any way. -/
theorem answered_of_no_method {members : List (JsString × Json)}
    (hparse : Json.parse line = some (.obj members))
    (hmethod : Json.lookup (js "method") members = none) :
    Answered line responses ↔ Regular connected line := by
  simp only [Answered, Regular, hparse, hmethod]

/-- A tool call that the daemon is not asked for. -/
theorem answered_callTool {members : List (JsString × Json)}
    (hparse : Json.parse line = some (.obj members))
    (hmethod : Json.lookup (js "method") members = some (.str (js "tools/call")))
    (hid : Json.lookup (js "id") members = id)
    (h : callTool connected id (Json.lookup (js "params") members) = .returns responses) :
    Answered line responses ↔ Regular connected line := by
  have hregular : Regular connected line ↔ id.isSome = true := by
    simp only [Regular, hparse, hmethod, hid]
    unfold callTool at h
    cases id with
    | some id =>
      simp only [Option.isSome_some, iff_true]
      decide
    | none =>
      simp only [Option.isSome_none, Bool.false_eq_true, iff_false, not_and]
      rintro - hasked
      obtain ⟨hconnected, htool⟩ := hasked trivial
      obtain ⟨tool, htool⟩ := Option.isSome_iff_exists.mp htool
      simp only [htool, hconnected, if_true] at h
      cases h
  rw [hregular]
  unfold callTool at h
  simp only at h
  split at h
  · cases h
    exact answered_one hparse hmethod hid (id_errWithValue _ _ _ _)
  · split at h
    · cases h
    · cases h
      exact answered_one hparse hmethod hid (id_errResponse _ _ _)

/-- A method of the bridge that takes an id. -/
theorem answered_known {members : List (JsString × Json)} {method response : Json}
    (hparse : Json.parse line = some (.obj members))
    (hmethod : Json.lookup (js "method") members = some method) (hknown : method ∈ knownMethods)
    (hid : Json.lookup (js "id") members = id)
    (hresponse : response.field (js "id") = some (idOrNull id)) :
    Answered line [response] ↔ Regular connected line := by
  rw [answered_one hparse hmethod hid hresponse]
  simp only [Regular, hparse, hmethod, hid]
  cases id with
  | none => simp [hknown]
  | some id =>
    have hne : method ≠ .str (js "notifications/initialized") := by
      rintro rfl
      revert hknown
      decide
    simp [hne]

theorem handleLine_returns (h : handleLine version connected line = .returns responses) :
    Answered line responses ↔ Regular connected line := by
  by_cases hobject : ∀ members, Json.parse line ≠ some (.obj members)
  · exact answered_of_no_object hobject h
  simp only [not_forall, not_not] at hobject
  obtain ⟨members, hparse⟩ := hobject
  cases hmethod : Json.lookup (js "method") members with
  | none => exact answered_of_no_method hparse hmethod
  | some method =>
    simp only [handleLine, hparse, handleRequest, Json.isNull, Json.field, hmethod,
      Bool.false_eq_true, if_false, Option.some.injEq] at h
    split at h
    · cases h
      rename_i heq
      exact answered_known hparse hmethod (by simp [heq, knownMethods]) rfl (id_okResponse _ _)
    split at h
    · cases h
      rename_i heq
      rw [answered_none hparse hmethod rfl]
      simp only [Regular, hparse, hmethod, heq]
      cases Json.lookup (js "id") members with
      | none => exact iff_of_true rfl ⟨by decide, fun hcall ↦ absurd hcall (by decide)⟩
      | some id => simp
    split at h
    · cases h
      rename_i heq
      exact answered_known hparse hmethod (by simp [heq, knownMethods]) rfl (id_okResponse _ _)
    split at h
    · rename_i heq
      exact answered_callTool hparse (by rw [hmethod, heq]) rfl h
    split at h
    · cases h
      rename_i heq
      exact answered_known hparse hmethod (by simp [heq, knownMethods]) rfl (id_okResponse _ _)
    · rename_i hinitialize hinitialized hlist hcall hping
      unfold unknownMethod at h
      cases hid : Json.lookup (js "id") members with
      | none =>
        rw [hid] at h
        cases h
        rw [answered_none hparse hmethod hid]
        simp only [Regular, hparse, hmethod, hid, true_iff]
        exact ⟨by simp [knownMethods, hinitialize, hlist, hping], fun hcall' ↦ absurd hcall' hcall⟩
      | some id =>
        rw [hid] at h
        cases h
        rw [answered_one hparse hmethod hid (id_errWithValue _ _ _ _)]
        simp only [Regular, hparse, hmethod, hid, Option.isSome_some, true_iff]
        exact hinitialized

theorem unknownMethod_returns (id method : Option Json) :
    ∃ responses, unknownMethod id method = .returns responses := by
  unfold unknownMethod
  split <;> exact ⟨_, rfl⟩

/-- A request that waits or makes the handler throw is a tool call, or `null`. -/
theorem handleRequest_cases (req : Json) : req = .null ∨
    (∃ responses, handleRequest version connected req = .returns responses) ∨
    req.field (js "method") = some (.str (js "tools/call")) ∧
      handleRequest version connected req =
        callTool connected (req.field (js "id")) (req.field (js "params")) := by
  unfold handleRequest
  simp only
  split
  · rename_i hnull
    cases req <;> simp [Json.isNull] at hnull
    exact .inl rfl
  right
  split
  · exact .inl ⟨_, rfl⟩
  split
  · exact .inl ⟨_, rfl⟩
  split
  · exact .inl ⟨_, rfl⟩
  split
  · rename_i hcall
    exact .inr ⟨hcall, rfl⟩
  split
  · exact .inl ⟨_, rfl⟩
  · exact .inl (unknownMethod_returns _ _)

theorem callTool_calls {id' params : Option Json}
    (h : callTool connected id' params = .calls rpc args id) :
    id' = id ∧ connected = true ∧ (findTool (params.bind (Json.field (js "name")))).isSome = true := by
  unfold callTool at h
  simp only at h
  split at h
  · cases h
  · rename_i tool htool
    split at h
    · rename_i hconnected
      cases h
      exact ⟨rfl, hconnected, by rw [htool]; rfl⟩
    · cases h

theorem callTool_ne_throws (params : Option Json) : callTool connected id params ≠ .throws := by
  unfold callTool
  simp only
  split
  · exact nofun
  · split <;> exact nofun

/-- What waits for the daemon is a tool call, with or without an id. -/
theorem handleLine_calls (h : handleLine version connected line = .calls rpc args id) :
    Regular connected line ∧ CallsTool line id := by
  unfold handleLine at h
  cases hparse : Json.parse line with
  | none =>
    rw [hparse] at h
    cases h
  | some req =>
    rw [hparse] at h
    simp only at h
    rcases @handleRequest_cases version connected req with rfl | ⟨responses, hreturns⟩ |
      ⟨hmethod, hcall⟩
    · cases h
    · rw [hreturns] at h
      cases h
    · rw [hcall] at h
      obtain ⟨hid, hconnected, htool⟩ := callTool_calls h
      cases req with
      | obj members =>
        have hmember : Json.lookup (js "method") members = some (.str (js "tools/call")) := hmethod
        refine ⟨?_, members, hparse, hmember, hid⟩
        simp only [Regular, hparse, hmember]
        cases Json.lookup (js "id") members with
        | none => exact ⟨by decide, fun _ ↦ ⟨hconnected, htool⟩⟩
        | some id => exact show Json.str _ ≠ Json.str _ by decide
      | _ => cases hmethod

/-- Only `null` makes the handler throw. -/
theorem handleLine_throws (h : handleLine version connected line = .throws) :
    ¬ Regular connected line := by
  unfold handleLine at h
  cases hparse : Json.parse line with
  | none =>
    rw [hparse] at h
    cases h
  | some req =>
    rw [hparse] at h
    simp only at h
    rcases @handleRequest_cases version connected req with rfl | ⟨responses, hreturns⟩ |
      ⟨hmethod, hcall⟩
    · simp [Regular, hparse]
    · rw [hreturns] at h
      cases h
    · rw [hcall] at h
      exact absurd h (callTool_ne_throws _)

end Handle

/-! ## The bridge -/

/-- What a handler has written, where it stands. -/
structure LineHandler.Sound (handler : LineHandler) : Prop where
  waiting : ∀ call rpc id, handler.phase = .awaiting call rpc id →
    handler.responses = [] ∧ CallsTool handler.line id
  answered : handler.phase.awaits = false → Answered handler.line handler.responses
  observed : handler.phase.rejects = false

/-- A handler that does not wait has to have given its answer. -/
theorem LineHandler.Sound.of_answered {handler : LineHandler} (hawaits : handler.phase.awaits = false)
    (hobserved : handler.phase.rejects = false)
    (hanswered : Answered handler.line handler.responses) : handler.Sound where
  waiting := by
    intro call rpc id hphase
    rw [hphase] at hawaits
    cases hawaits
  answered := fun _ ↦ hanswered
  observed := hobserved

namespace Bridge

def counts (handler : LineHandler) : Bool := handler.phase.unsettled

variable {bridge next : Bridge} {version : JsString} {client : Option RpcClient} {k : ℕ}
  {event : BridgeEvent}

/-! ### The count of pending handlers -/

/-- `pending` counts the handlers that are not settled, and the bridge goes on to return once stdin is
closed and the count is zero, not before. -/
structure Counted (bridge : Bridge) : Prop where
  pending : bridge.pending = bridge.handlers.countP counts
  allDone : bridge.allDone = true ↔ bridge.closed = true ∧ bridge.pending = 0
  returned : bridge.returned = true → bridge.allDone = true

@[simp]
theorem handlers_maybeFinish (bridge : Bridge) : bridge.maybeFinish.handlers = bridge.handlers := by
  unfold maybeFinish
  split <;> rfl

theorem counted_start (version : JsString) (client : Option RpcClient) :
    Counted (start version client) :=
  ⟨rfl, by simp [start], nofun⟩

theorem counted_maybeFinish (hpending : bridge.pending = bridge.handlers.countP counts)
    (hdone : bridge.allDone = true → bridge.closed = true ∧ bridge.pending = 0)
    (hreturned : bridge.returned = true → bridge.allDone = true) : bridge.maybeFinish.Counted := by
  unfold maybeFinish
  split
  · rename_i hnow
    exact ⟨hpending, iff_of_true rfl hnow, fun _ ↦ rfl⟩
  · rename_i hlater
    exact ⟨hpending, ⟨hdone, fun hnow ↦ absurd hnow hlater⟩, hreturned⟩

theorem Counted.push (h : bridge.Counted) (hclosed : bridge.closed = false) {handler : LineHandler}
    (hcounts : counts handler = true) (client : Option RpcClient) :
    Counted { bridge with
      client
      pending := bridge.pending + 1
      handlers := bridge.handlers ++ [handler] } where
  pending := by
    rw [List.countP_append, ← h.pending, List.countP_singleton, if_pos hcounts]
  allDone := by
    rw [h.allDone, hclosed]
    simp
  returned := h.returned

theorem Counted.onLine (h : bridge.Counted) (hclosed : bridge.closed = false) (text : JsString) :
    (bridge.onLine text).Counted := by
  unfold Bridge.onLine
  cases handleLine bridge.version bridge.client.isSome text with
  | returns responses => exact h.push hclosed rfl bridge.client
  | throws => exact h.push hclosed rfl bridge.client
  | calls rpc args id => exact h.push hclosed rfl _

theorem Counted.settle (h : bridge.Counted) {handler : LineHandler}
    (hget : bridge.handlers[k]? = some handler) (hcounts : counts handler = true) (rejected : Bool) :
    (bridge.settle k rejected).Counted := by
  have hcount : (bridge.handlers.modify k fun handler ↦
      { handler with phase := .ended rejected }).countP counts + 1 = bridge.handlers.countP counts :=
    countP_modify_add_one hget hcounts rfl
  have hpending := h.pending
  refine counted_maybeFinish ?_ (fun hdone ↦ ?_) h.returned
  · simp only [onHandler]
    omega
  · have hzero := (h.allDone.mp hdone).2
    omega

/-- A waiting handler is resumed, and responds with the id of its request. -/
theorem resume_cases (hresume : bridge.resume k = some next) :
    ∃ handler call rpc id, ∃ response : Json, bridge.handlers[k]? = some handler ∧
      handler.phase = .awaiting call rpc id ∧ response.field (js "id") = some (idOrNull id) ∧
        next = bridge.onHandler k (respond response) := by
  unfold Bridge.resume at hresume
  split at hresume
  · rename_i call rpc id hphase
    obtain ⟨handler, hget, hawaiting⟩ := Option.map_eq_some_iff.mp hphase
    split at hresume
    · cases hresume
    · cases hresume
      exact ⟨handler, call, rpc, id, _, hget, hawaiting, rfl, rfl⟩
    · cases hresume
      exact ⟨handler, call, rpc, id, _, hget, hawaiting, rfl, rfl⟩
  · cases hresume

theorem Counted.resume (h : bridge.Counted) (hresume : bridge.resume k = some next) :
    next.Counted := by
  obtain ⟨handler, call, rpc, id, response, hget, hphase, -, rfl⟩ := resume_cases hresume
  refine ⟨h.pending.trans (countP_modify fun other hother ↦ ?_).symm, h.allDone, h.returned⟩
  rw [hget] at hother
  cases hother
  simp [counts, respond, hphase, HandlerPhase.unsettled]

theorem Counted.step (h : bridge.Counted) (hstep : bridge.step event = some next) :
    next.Counted := by
  unfold Bridge.step at hstep
  split at hstep
  · cases hstep
  cases event with
  | line text =>
    simp only at hstep
    split at hstep
    · cases hstep
    · rename_i hclosed
      cases hstep
      exact h.onLine (by simpa using hclosed) text
  | resume k => exact h.resume hstep
  | settled k =>
    simp only at hstep
    split at hstep
    · rename_i hphase
      obtain ⟨handler, hget, hreturned⟩ := Option.map_eq_some_iff.mp hphase
      cases hstep
      exact h.settle hget (by rw [counts, hreturned]; rfl) false
    · rename_i hphase
      obtain ⟨handler, hget, hthrew⟩ := Option.map_eq_some_iff.mp hphase
      cases hstep
      exact h.settle hget (by rw [counts, hthrew]; rfl) true
    · cases hstep
  | closed =>
    cases hstep
    exact counted_maybeFinish h.pending (fun hdone ↦ ⟨rfl, (h.allDone.mp hdone).2⟩) h.returned
  | finish =>
    simp only at hstep
    split at hstep
    · rename_i hdone
      cases hstep
      exact ⟨h.pending, h.allDone, fun _ ↦ hdone⟩
    · cases hstep
  | unhandled k =>
    simp only at hstep
    split at hstep
    · cases hstep
      exact ⟨h.pending, h.allDone, h.returned⟩
    · cases hstep
  | _ =>
    obtain ⟨client, _, rfl⟩ := Option.map_eq_some_iff.mp hstep
    exact ⟨h.pending, h.allDone, h.returned⟩

/-- In any run, the bridge may return exactly if stdin is closed and every handler is settled. -/
theorem allDone_iff {schedule : List BridgeEvent}
    (hrun : run Bridge.step (start version client) schedule = some bridge) :
    bridge.allDone = true ↔ bridge.closed = true ∧ ∀ handler ∈ bridge.handlers,
      ∃ rejected, handler.phase = .ended rejected := by
  have h : bridge.Counted := (throughout_of_invariant
    (fun _ _ _ hcounted _ hstep ↦ hcounted.step hstep) (counted_start version client)
    (stepsMeet_true _ schedule)).last hrun
  rw [h.allDone, h.pending, List.countP_eq_zero]
  refine and_congr_right' (forall₂_congr fun handler _ ↦ ?_)
  cases hphase : handler.phase <;> simp [counts, hphase, HandlerPhase.unsettled]

/-! ### What the handlers have written -/

structure Sound (bridge : Bridge) : Prop where
  counted : bridge.Counted
  handlers : ∀ handler ∈ bridge.handlers, handler.Sound

theorem sound_start : Sound (start version client) := ⟨counted_start version client, nofun⟩

theorem Sound.answersOnce (h : bridge.Sound) : AnswersOnce bridge where
  waiting := by
    intro handler hmem hawaits
    cases hphase : handler.phase with
    | awaiting call rpc id => exact ((h.handlers handler hmem).waiting call rpc id hphase).1
    | _ => simp [hphase, HandlerPhase.awaits] at hawaits
  answered := fun handler hmem ↦ (h.handlers handler hmem).answered
  observed := fun handler hmem ↦ (h.handlers handler hmem).observed
  complete := by
    intro hreturned handler hmem
    have hzero := (h.counted.allDone.mp (h.counted.returned hreturned)).2
    rw [h.counted.pending] at hzero
    have hsettled := List.countP_eq_zero.mp hzero handler hmem
    cases hphase : handler.phase with
    | ended rejected => rfl
    | _ => simp [counts, hphase, HandlerPhase.unsettled] at hsettled

/-- The step takes a line that it can answer, or the answer to a tool call with an id. -/
def AnswersRegularly (bridge : Bridge) : BridgeEvent → Prop
  | .line text => Regular bridge.client.isSome text
  | .resume k => ∀ call rpc, bridge.handlers[k]?.map LineHandler.phase ≠
      some (.awaiting call rpc none)
  | _ => True

/-- A new handler. -/
theorem Sound.concat (h : bridge.Sound) {handler : LineHandler} (hhandler : handler.Sound) :
    ∀ other ∈ bridge.handlers ++ [handler], other.Sound := by
  intro other hmem
  rcases List.mem_append.mp hmem with hold | hnew
  · exact h.handlers other hold
  · rw [List.mem_singleton.mp hnew]
    exact hhandler

/-- A handler goes on. -/
theorem Sound.modify (h : bridge.Sound) {change : LineHandler → LineHandler}
    (hchange : ∀ handler, bridge.handlers[k]? = some handler → (change handler).Sound) :
    ∀ other ∈ bridge.handlers.modify k change, other.Sound := by
  intro other hmem
  obtain ⟨position, hget⟩ := List.mem_iff_getElem?.mp hmem
  rw [List.getElem?_modify] at hget
  obtain ⟨handler, hold, rfl⟩ := Option.map_eq_some_iff.mp hget
  split
  · rename_i hposition
    exact hchange handler (hposition ▸ hold)
  · exact h.handlers handler (List.mem_of_getElem? hold)

theorem Sound.onLine (h : bridge.Sound) {text : JsString}
    (hregular : Regular bridge.client.isSome text) :
    ∀ other ∈ (bridge.onLine text).handlers, other.Sound := by
  unfold Bridge.onLine
  cases hline : handleLine bridge.version bridge.client.isSome text with
  | returns responses =>
    exact h.concat (.of_answered rfl rfl ((handleLine_returns hline).mpr hregular))
  | throws => exact absurd hregular (handleLine_throws hline)
  | calls rpc args id =>
    refine h.concat ⟨fun _ _ _ hphase ↦ ?_, fun hawaits ↦ ?_, rfl⟩
    · cases hphase
      exact ⟨rfl, (handleLine_calls hline).2⟩
    · cases hawaits

/-- Otherwise the new handler gives the line what it does not call for. -/
theorem not_answersOnce_onLine {text : JsString}
    (hirregular : ¬ Regular bridge.client.isSome text) : ¬ AnswersOnce (bridge.onLine text) := by
  intro h
  unfold Bridge.onLine at h
  cases hline : handleLine bridge.version bridge.client.isSome text with
  | returns responses =>
    simp only [hline] at h
    have hlast := h.answered ⟨text, .returned, responses⟩ (by simp) rfl
    exact hirregular ((handleLine_returns hline).mp hlast)
  | throws =>
    simp only [hline] at h
    have hlast := h.observed ⟨text, .threw, []⟩ (by simp)
    cases hlast
  | calls rpc args id => exact hirregular (handleLine_calls hline).1

/-- One response for a tool call, which it calls for exactly if it has an id. -/
theorem answered_callsTool {line : JsString} {id : Option Json} {response : Json}
    (hcall : CallsTool line id) (hresponse : response.field (js "id") = some (idOrNull id)) :
    Answered line [response] ↔ id.isSome = true := by
  obtain ⟨members, hparse, hmethod, hid⟩ := hcall
  exact answered_one hparse hmethod hid hresponse

theorem Sound.resume (h : bridge.Sound) (hids : bridge.AnswersRegularly (.resume k))
    (hresume : bridge.resume k = some next) : ∀ other ∈ next.handlers, other.Sound := by
  obtain ⟨handler, call, rpc, id, response, hget, hphase, hresponse, rfl⟩ := resume_cases hresume
  obtain ⟨hnone, hcall⟩ := (h.handlers handler (List.mem_of_getElem? hget)).waiting call rpc id hphase
  refine h.modify fun other hother ↦ ?_
  rw [hget] at hother
  cases hother
  have hid : id.isSome = true := by
    cases id with
    | none => exact absurd (by rw [hget, Option.map_some, hphase]) (hids call rpc)
    | some id => rfl
  have hone := (answered_callsTool hcall hresponse).mpr hid
  exact .of_answered rfl rfl (by simpa [respond, hnone] using hone)

/-- The answer to a tool call without an id is one too many. -/
theorem not_answersOnce_resume (h : bridge.Sound)
    (hids : ¬ bridge.AnswersRegularly (.resume k)) (hresume : bridge.resume k = some next) :
    ¬ AnswersOnce next := by
  intro honce
  simp only [AnswersRegularly, not_forall, not_not] at hids
  obtain ⟨call', rpc', hawaiting⟩ := hids
  obtain ⟨handler, call, rpc, id, response, hget, hphase, hresponse, rfl⟩ := resume_cases hresume
  obtain ⟨hnone, hcall⟩ := (h.handlers handler (List.mem_of_getElem? hget)).waiting call rpc id hphase
  rw [hget, Option.map_some, hphase] at hawaiting
  cases hawaiting
  have hmem : respond response handler ∈ (bridge.onHandler k (respond response)).handlers := by
    refine List.mem_of_getElem? (i := k) ?_
    simp [Bridge.onHandler, hget]
  have hanswered := honce.answered _ hmem rfl
  simp only [respond, hnone, List.nil_append] at hanswered
  exact absurd ((answered_callsTool hcall hresponse).mp hanswered) (by decide)

/-- The `finally` block of a handler changes nothing of what it wrote. -/
theorem Sound.settle (h : bridge.Sound)
    (hphase : bridge.handlers[k]?.map LineHandler.phase = some .returned) :
    ∀ other ∈ (bridge.settle k false).handlers, other.Sound := by
  unfold Bridge.settle
  rw [handlers_maybeFinish]
  refine h.modify fun handler hget ↦ ?_
  rw [hget] at hphase
  have hreturned : handler.phase = .returned := Option.some.inj hphase
  exact .of_answered rfl rfl
    ((h.handlers handler (List.mem_of_getElem? hget)).answered (by rw [hreturned]; rfl))

theorem Sound.step (h : bridge.Sound) (hevent : bridge.AnswersRegularly event)
    (hstep : bridge.step event = some next) : next.Sound := by
  refine ⟨h.counted.step hstep, ?_⟩
  unfold Bridge.step at hstep
  split at hstep
  · cases hstep
  cases event with
  | line text =>
    simp only at hstep
    split at hstep
    · cases hstep
    · cases hstep
      exact h.onLine hevent
  | resume k => exact h.resume hevent hstep
  | settled k =>
    simp only at hstep
    split at hstep
    · rename_i hphase
      cases hstep
      exact h.settle hphase
    · rename_i hphase
      obtain ⟨handler, hget, hthrew⟩ := Option.map_eq_some_iff.mp hphase
      have hobserved := (h.handlers handler (List.mem_of_getElem? hget)).observed
      rw [hthrew] at hobserved
      cases hobserved
    · cases hstep
  | closed =>
    cases hstep
    rw [handlers_maybeFinish]
    exact h.handlers
  | finish =>
    simp only at hstep
    split at hstep <;> cases hstep
    exact h.handlers
  | unhandled k =>
    simp only at hstep
    split at hstep <;> cases hstep
    exact h.handlers
  | _ =>
    obtain ⟨client, _, rfl⟩ := Option.map_eq_some_iff.mp hstep
    exact h.handlers

/-- A step that does not answer regularly is seen at once. -/
theorem Sound.not_answersOnce (h : bridge.Sound)
    (hevent : ¬ bridge.AnswersRegularly event) (hstep : bridge.step event = some next) :
    ¬ AnswersOnce next := by
  unfold Bridge.step at hstep
  split at hstep
  · cases hstep
  cases event with
  | line text =>
    simp only at hstep
    split at hstep
    · cases hstep
    · cases hstep
      exact not_answersOnce_onLine hevent
  | resume k => exact not_answersOnce_resume h hevent hstep
  | _ => exact absurd trivial hevent

/-- In all states of a run, whatever the order of lines, answers and the end of stdin, every line
that the bridge does not ask the daemon for has exactly the responses that it calls for, no handler
rejects, and the bridge has returned only if all of them are written; exactly if every line of the
run is regular and no answer goes to a tool call without an id. -/
theorem answersOnce_iff (version : JsString) (client : Option RpcClient)
    (schedule : List BridgeEvent) :
    Throughout Bridge.step AnswersOnce (start version client) schedule ↔
      StepsMeet Bridge.step AnswersRegularly (start version client) schedule :=
  @throughout_iff _ _ Bridge.step AnswersRegularly Sound AnswersOnce
    (fun _ _ _ hsound hevent hstep ↦ hsound.step hevent hstep)
    (fun _ _ _ hsound hevent hstep ↦ hsound.not_answersOnce hevent hstep)
    (fun _ hsound ↦ hsound.answersOnce) _ sound_start schedule

/-- A line that is `null`: no response, and a rejection that nobody observes. -/
theorem null_line_rejects :
    ¬ Throughout Bridge.step AnswersOnce (start (js "0.0.0") none) [.line (js "null")] := by
  intro h
  have hrejects : (run Bridge.step (start (js "0.0.0") none) [.line (js "null")]).any (fun bridge ↦
      bridge.handlers.any fun handler ↦ handler.phase.rejects && handler.responses.isEmpty) =
        true := by
    decide +kernel
  obtain ⟨bridge, hrun, hany⟩ := (Option.any_eq_true _ _).mp hrejects
  obtain ⟨handler, hmem, hboth⟩ := List.any_eq_true.mp hany
  rw [Bool.and_eq_true, (h.last hrun).observed handler hmem] at hboth
  cases hboth.1

end Bridge

end Cordyceps.Cli
