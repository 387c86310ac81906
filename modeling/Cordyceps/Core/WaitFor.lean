import Cordyceps.Core.LiveListeners
import Cordyceps.Foundations.Decimal
import Cordyceps.Foundations.Promise

/-!
# Waiting for an event

`waitFor` of `core/bus.ts`. A call subscribes a function of its own and starts a timer; whichever of
a matching event and the timer comes first settles the promise, ends the subscription and clears the
other. Everybody else calls `on`, `once`, `off` and handles as they like, with any function and as
often as they like. Callbacks here do not call back into the bus while it emits.
-/

namespace Cordyceps.Core

open Foundations Foundations.StepMachine

/-! ## The bus under handles that are in date -/

namespace ServiceBus

variable {Callback Value : Type*} {bus : ServiceBus Callback Value}

/-- The listener waits for the event, and the handle closes over its set. -/
def Holds (bus : ServiceBus Callback Value) (event : JsString) (handle : ℕ)
    (listener : Listener Callback) : Prop :=
  ∃ address, bus.listeners event = some address ∧ listener ∈ bus.sets address ∧
    bus.handles[handle]? = some ⟨event, address, listener⟩

/-- The handle does not close over a set that its event has dropped for another one. -/
def InDate (bus : ServiceBus Callback Value) (handle : ℕ) : Prop :=
  ∀ closure ∈ bus.handles[handle]?, bus.listeners closure.event = none ∨
    bus.listeners closure.event = some closure.set

instance (handle : ℕ) : Decidable (bus.InDate handle) :=
  inferInstanceAs (Decidable (∀ closure ∈ bus.handles[handle]?,
    bus.listeners closure.event = none ∨ bus.listeners closure.event = some closure.set))

theorem Holds.mem_current {event : JsString} {handle : ℕ} {listener : Listener Callback}
    (h : bus.Holds event handle listener) : listener ∈ bus.current event := by
  obtain ⟨address, hevent, hmem, _⟩ := h
  rw [current_of_some hevent]
  exact hmem

variable [DecidableEq Callback]

theorem Sound.off (h : bus.Sound) (event : JsString) (cb : Callback) : (bus.off event cb).Sound := by
  unfold ServiceBus.off
  split
  · exact h
  · exact h.sound_deleteFrom ‹_› _

/-- A handle in date takes its listener out of the set of its event, if there is one. -/
theorem Sound.unsubscribe_cases (h : bus.Sound) {handle : ℕ} (hdate : bus.InDate handle) :
    bus.unsubscribe handle = bus ∨ ∃ closure, bus.handles[handle]? = some closure ∧
      bus.listeners closure.event = some closure.set ∧
        bus.unsubscribe handle = bus.deleteFrom closure.event closure.set closure.listener := by
  unfold ServiceBus.unsubscribe
  split
  · exact .inl rfl
  · rename_i closure hclosure
    rcases hdate closure hclosure with hnone | hset
    · have hnil : bus.sets closure.set = [] :=
        h.sets_eq_nil_of_stale hclosure (by simp [hnone])
      exact .inl (h.deleteFrom_of_not_mem (by simp [hnil]) (.inr hnone))
    · exact .inr ⟨closure, hclosure, hset, rfl⟩

namespace Holds

variable {event : JsString} {handle : ℕ} {listener : Listener Callback}

theorem unsubscribe (h : bus.Holds event handle listener) : ∃ address,
    bus.listeners event = some address ∧
      bus.unsubscribe handle = bus.deleteFrom event address listener := by
  obtain ⟨address, hevent, _, hclosure⟩ := h
  refine ⟨address, hevent, ?_⟩
  rw [ServiceBus.unsubscribe, hclosure]

/-- A new subscription leaves the others alone. -/
theorem on (h : bus.Holds event handle listener) (hbus : bus.Addressed) (name : JsString)
    (other : Listener Callback) : (bus.on name other).Holds event handle listener := by
  obtain ⟨address, hevent, hmem, hclosure⟩ := h
  obtain ⟨place, next, _, _, hplace, heq⟩ := hbus.on_eq name other
  have hhandle : (bus.handles ++ [⟨name, place, other⟩])[handle]? =
      some ⟨event, address, listener⟩ := getElem?_concat_eq_some.mpr (.inl hclosure)
  rw [heq]
  by_cases hname : event = name
  · subst hname
    rcases hplace with hsome | ⟨hnone, _⟩
    · obtain rfl : address = place := Option.some.inj (hevent.symm.trans hsome)
      refine ⟨address, Function.update_self .., ?_, hhandle⟩
      simp only [Function.update_self]
      exact Wired.mem_addTo.mpr (.inl (current_of_some hevent ▸ hmem))
    · rw [hevent] at hnone
      cases hnone
  · have hne : address ≠ place := hbus.ne_of_fresh hplace hevent hname
    refine ⟨address, ?_, ?_, hhandle⟩
    · simp only [Function.update_of_ne hname, hevent]
    · simp only [Function.update_of_ne hne]
      exact hmem

/-- So does the end of another subscription. -/
theorem deleteFrom (h : bus.Holds event handle listener) {name : JsString} {place : ℕ}
    {other : Listener Callback} (hplace : bus.listeners name = some place)
    (hother : listener ≠ other) : (bus.deleteFrom name place other).Holds event handle listener := by
  obtain ⟨address, hevent, hmem, hclosure⟩ := h
  have hstays : listener ∈ (bus.deleteFrom name place other).sets address := by
    simp only [ServiceBus.deleteFrom, Function.update_apply]
    split
    · rename_i heq
      exact (List.mem_erase_of_ne hother).mpr (heq ▸ hmem)
    · exact hmem
  refine ⟨address, ?_, hstays, hclosure⟩
  by_cases hname : event = name
  · subst hname
    obtain rfl : address = place := Option.some.inj (hevent.symm.trans hplace)
    have hfull : (bus.sets address).erase other ≠ [] :=
      List.ne_nil_of_mem ((List.mem_erase_of_ne hother).mpr hmem)
    simp only [ServiceBus.deleteFrom, if_neg hfull]
    exact hevent
  · simp only [ServiceBus.deleteFrom]
    split
    · simp only [Function.update_of_ne hname, hevent]
    · exact hevent

end Holds

end ServiceBus

/-! ## Calls of `waitFor` -/

variable {Value : Type*}

/-- The function of the `k`-th call of `waitFor`, or anybody else's. -/
inductive WaitCallback
  | wait (k : ℕ)
  | other (n : ℕ)
  deriving DecidableEq, Repr

/-- A call of `waitFor`. `predicate` answers nothing where it throws, and `handle` is what `on`
returned. -/
structure Wait (Value : Type*) where
  event : JsString
  predicate : Value → Option Bool
  timeoutMs : ℕ
  handle : ℕ
  timer : Bool
  promise : Promise Value JsString

namespace Wait

/-- The message of the error. -/
def timedOut (event : JsString) (timeoutMs : ℕ) : JsString :=
  js "waitFor(\"" ++ event ++ js "\") timed out after " ++ Json.decimal timeoutMs ++ js "ms"

def finish (fate : Fate Value JsString) (wait : Wait Value) : Wait Value :=
  { wait with timer := false, promise := wait.promise.settle fate }

end Wait

/-- The bus, and all calls of `waitFor` so far. -/
structure Waits (Value : Type*) where
  bus : ServiceBus WaitCallback Value
  waits : List (Wait Value)

/-- One turn. In `on`, `once` and `off` the function is not that of a call of `waitFor`, which
nobody else can get at, and neither is the handle in `call`. -/
inductive WaitEvent (Value : Type*)
  | waitFor (event : JsString) (predicate : Value → Option Bool) (timeoutMs : ℕ)
  | emit (event : JsString) (data : Value)
  | timer (k : ℕ)
  | on (event : JsString) (n : ℕ)
  | once (event : JsString) (n : ℕ)
  | off (event : JsString) (n : ℕ)
  | call (handle : ℕ)

namespace Waits

def start : Waits Value := ⟨createServiceBus, []⟩

/-- `unsub()`, and the end of the promise and the timer. -/
def settle (k : ℕ) (wait : Wait Value) (fate : Fate Value JsString) (state : Waits Value) : Waits Value :=
  ⟨state.bus.unsubscribe wait.handle, state.waits.modify k (Wait.finish fate)⟩

/-- The listener of a call. -/
def onData (data : Value) (k : ℕ) (state : Waits Value) : Waits Value :=
  match state.waits[k]? with
  | some wait =>
    if wait.predicate data = some true then state.settle k wait (.fulfilled data) else state
  | none => state

/-- Run one listener: that of a call, or somebody else's, whose one-shot wrapper ends its own
subscription first. -/
def fire (data : Value) (state : Waits Value) : Listener WaitCallback → Waits Value
  | .callback (.wait k) => onData data k state
  | listener => { state with bus := state.bus.invoke listener }

def emit (event : JsString) (data : Value) (state : Waits Value) : Waits Value :=
  (state.bus.current event).foldl (fire data) state

/-- The handle is not that of a call of `waitFor`. -/
def foreign (state : Waits Value) (handle : ℕ) : Bool :=
  match state.bus.handles[handle]? with
  | some closure =>
    match closure.listener.target with
    | .other _ => true
    | .wait _ => false
  | none => false

/-- One turn. An event that cannot happen in a state has no successor. -/
def step (state : Waits Value) : WaitEvent Value → Option (Waits Value)
  | .waitFor event predicate timeoutMs => some {
      bus := state.bus.on event (.callback (.wait state.waits.length))
      waits := state.waits ++
        [⟨event, predicate, timeoutMs, state.bus.handles.length, true, .create⟩] }
  | .emit event data => some (state.emit event data)
  | .timer k =>
    match state.waits[k]? with
    | some wait =>
      if wait.timer then
        some (state.settle k wait (.rejected (Wait.timedOut wait.event wait.timeoutMs)))
      else none
    | none => none
  | .on event n => some { state with bus := state.bus.on event (.callback (.other n)) }
  | .once event n => some { state with bus := state.bus.once event (.other n) }
  | .off event n => some { state with bus := state.bus.off event (.other n) }
  | .call handle =>
    if state.foreign handle then some { state with bus := state.bus.unsubscribe handle } else none

/-- A handle that is called is in date. -/
def Careful (state : Waits Value) : WaitEvent Value → Prop
  | .call handle => state.bus.InDate handle
  | _ => True

instance (state : Waits Value) : (event : WaitEvent Value) → Decidable (state.Careful event)
  | .call handle => inferInstanceAs (Decidable (state.bus.InDate handle))
  | .waitFor _ _ _ => isTrue trivial
  | .emit _ _ => isTrue trivial
  | .timer _ => isTrue trivial
  | .on _ _ => isTrue trivial
  | .once _ _ => isTrue trivial
  | .off _ _ => isTrue trivial

/-- How an event settles the `k`-th call, if it is still pending. -/
def settles (k : ℕ) (event : JsString) (predicate : Value → Option Bool) (timeoutMs : ℕ) :
    WaitEvent Value → Option (Fate Value JsString)
  | .emit name data =>
    if name = event ∧ predicate data = some true then some (.fulfilled data) else none
  | .timer j => if j = k then some (.rejected (Wait.timedOut event timeoutMs)) else none
  | _ => none

/-- What the turn does to the bus but for the calls that it settles. -/
def plain (state : Waits Value) : WaitEvent Value → ServiceBus WaitCallback Value
  | .waitFor event _ _ => state.bus.on event (.callback (.wait state.waits.length))
  | .emit event _ => (state.bus.emit event).1
  | .timer _ => state.bus
  | .on event n => state.bus.on event (.callback (.other n))
  | .once event n => state.bus.once event (.other n)
  | .off event n => state.bus.off event (.other n)
  | .call handle => state.bus.unsubscribe handle

/-- The listener is that of a call which the turn settles. -/
def ends (state : Waits Value) (event : WaitEvent Value) : Listener WaitCallback → Bool
  | .callback (.wait k) => (state.waits[k]?).any fun wait ↦
      (settles k wait.event wait.predicate wait.timeoutMs event).isSome
  | _ => false

/-- The calls that are settled take their own listeners away and nothing else. -/
def EndsOwn (state : Waits Value) (event : WaitEvent Value) (next : Waits Value) : Prop :=
  ∀ name, next.bus.current name =
    ((state.plain event).current name).filter fun listener ↦ !state.ends event listener

/-! ## What is subscribed -/

/-- The calls that are pending have their listener on the bus, and no other call has one. -/
structure Serves (state : Waits Value) : Prop where
  sound : state.bus.Sound
  wired : state.bus.Wired
  pending : ∀ (k : ℕ) (wait : Wait Value), state.waits[k]? = some wait → wait.promise.fate = .pending →
    state.bus.Holds wait.event wait.handle (.callback (.wait k))
  served : ∀ (k : ℕ) (name : JsString), .callback (.wait k) ∈ state.bus.current name →
    ∃ wait, state.waits[k]? = some wait ∧ wait.promise.fate = .pending ∧ name = wait.event
  timers : ∀ (k : ℕ) (wait : Wait Value), state.waits[k]? = some wait →
    (wait.timer = true ↔ wait.promise.fate = .pending)

variable {state next : Waits Value} {data : Value} {event name : JsString}

theorem fate_settle {promise : Promise Value JsString} {fate : Fate Value JsString}
    (hfate : fate ≠ .pending) : (promise.settle fate).fate ≠ .pending := by
  rcases Promise.settle_cases fate promise with ⟨_, hsame⟩ | ⟨hsettled, hsame⟩
  · rw [hsame]
    exact hfate
  · rw [hsame]
    exact hsettled

theorem finish_finish {fate : Fate Value JsString} (hfate : fate ≠ .pending) (wait : Wait Value) :
    (wait.finish fate).finish fate = wait.finish fate := by
  simp only [Wait.finish, Promise.settle_of_settled (fate_settle hfate)]

theorem waits_settle_self {k : ℕ} {wait : Wait Value} (h : state.waits[k]? = some wait)
    (fate : Fate Value JsString) :
    (state.settle k wait fate).waits[k]? = some (wait.finish fate) := by
  rw [settle, List.getElem?_modify, h]
  simp

theorem waits_settle_ne {k j : ℕ} (h : k ≠ j) (wait : Wait Value) (fate : Fate Value JsString) :
    (state.settle k wait fate).waits[j]? = state.waits[j]? := by
  rw [settle, List.getElem?_modify]
  simp [h]

namespace Serves

/-- A call has its listener under its event, as long as it is pending. -/
theorem mem_current (h : state.Serves) {k : ℕ} {wait : Wait Value}
    (hwait : state.waits[k]? = some wait) (name : JsString) :
    Listener.callback (.wait k) ∈ state.bus.current name ↔
      name = wait.event ∧ wait.promise.fate = .pending := by
  constructor
  · intro hmem
    obtain ⟨other, hother, hpending, hname⟩ := h.served k name hmem
    obtain rfl : wait = other := Option.some.inj (hwait.symm.trans hother)
    exact ⟨hname, hpending⟩
  · rintro ⟨rfl, hpending⟩
    exact (h.pending k wait hwait hpending).mem_current

/-- A call that is settled is not changed any more. -/
theorem finish_of_settled (h : state.Serves) {k : ℕ} {wait : Wait Value}
    (hwait : state.waits[k]? = some wait) (hsettled : wait.promise.fate ≠ .pending)
    (fate : Fate Value JsString) : wait.finish fate = wait := by
  have htimer : wait.timer = false := Bool.not_eq_true _ ▸ fun htimer ↦
    hsettled ((h.timers k wait hwait).mp htimer)
  rw [Wait.finish, Promise.settle_of_settled hsettled, ← htimer]

/-! ### Somebody else's listeners -/

/-- Somebody else's listener comes. -/
theorem subscribe (h : state.Serves) {listener : Listener WaitCallback}
    (hforeign : ∀ k, listener ≠ .callback (.wait k))
    (hwrapper : ∀ unsub cb, listener = .wrapper unsub cb → unsub = state.bus.handles.length) :
    Serves { state with bus := state.bus.on name listener } where
  sound := h.sound.sound_on hwrapper
  wired := h.wired.on hwrapper
  pending k wait hwait hpending := (h.pending k wait hwait hpending).on h.sound.addressed name listener
  served k other hmem := by
    rw [h.sound.addressed.current_on] at hmem
    split at hmem
    · rename_i hother
      rcases ServiceBus.Wired.mem_addTo.mp hmem with hbefore | heq
      · exact h.served k other (hother ▸ hbefore)
      · exact absurd heq.symm (hforeign k)
    · exact h.served k other hmem
  timers := h.timers

/-- Somebody else's listener goes. -/
theorem remove (h : state.Serves) {place : ℕ} {listener : Listener WaitCallback}
    (hplace : state.bus.listeners name = some place)
    (hforeign : ∀ k, listener ≠ .callback (.wait k)) :
    Serves { state with bus := state.bus.deleteFrom name place listener } where
  sound := h.sound.sound_deleteFrom hplace listener
  wired := h.wired.deleteFrom name place listener
  pending k wait hwait hpending :=
    (h.pending k wait hwait hpending).deleteFrom hplace (hforeign k).symm
  served k other hmem := by
    rw [h.sound.addressed.current_deleteFrom hplace] at hmem
    split at hmem
    · rename_i hother
      exact h.served k other (hother ▸ List.mem_of_mem_erase hmem)
    · exact h.served k other hmem
  timers := h.timers

theorem off (h : state.Serves) (name : JsString) (n : ℕ) :
    Serves { state with bus := state.bus.off name (.other n) } := by
  unfold ServiceBus.off
  split
  · exact h
  · exact h.remove ‹_› fun k heq ↦ by cases heq

theorem call (h : state.Serves) {handle : ℕ} (hforeign : state.foreign handle = true)
    (hdate : state.bus.InDate handle) :
    Serves { state with bus := state.bus.unsubscribe handle } := by
  rcases h.sound.unsubscribe_cases hdate with hsame | ⟨closure, hclosure, hset, heq⟩
  · rw [hsame]
    exact h
  · rw [heq]
    refine h.remove hset fun k hlistener ↦ ?_
    rw [foreign, hclosure] at hforeign
    simp only [hlistener, Listener.target] at hforeign
    cases hforeign

/-! ### The listeners of calls -/

theorem waitFor (h : state.Serves) (name : JsString) (predicate : Value → Option Bool)
    (timeoutMs : ℕ) : Serves {
      bus := state.bus.on name (.callback (.wait state.waits.length))
      waits := state.waits ++
        [⟨name, predicate, timeoutMs, state.bus.handles.length, true, .create⟩] } := by
  have hplain : ∀ unsub cb, Listener.callback (WaitCallback.wait state.waits.length) =
      .wrapper unsub cb → unsub = state.bus.handles.length := fun unsub cb heq ↦ by cases heq
  constructor
  case sound => exact h.sound.sound_on hplain
  case wired => exact h.wired.on hplain
  case pending =>
    intro k wait hwait hpending
    rcases getElem?_concat_eq_some.mp hwait with hbefore | ⟨rfl, rfl⟩
    · exact (h.pending k wait hbefore hpending).on h.sound.addressed name _
    · obtain ⟨address, _, _, _, _, heq⟩ :=
        h.sound.addressed.on_eq name (.callback (.wait state.waits.length))
      rw [heq]
      refine ⟨address, Function.update_self .., ?_, List.getElem?_concat_length⟩
      simp only [Function.update_self]
      exact ServiceBus.Wired.mem_addTo.mpr (.inr rfl)
  case served =>
    intro k other hmem
    have hbefore : Listener.callback (.wait k) ∈ state.bus.current other →
        ∃ wait, (state.waits ++ [⟨name, predicate, timeoutMs, state.bus.handles.length, true,
          .create⟩])[k]? = some wait ∧ wait.promise.fate = .pending ∧ other = wait.event := by
      intro hold
      obtain ⟨wait, hwait, hrest⟩ := h.served k other hold
      exact ⟨wait, getElem?_concat_eq_some.mpr (.inl hwait), hrest⟩
    rw [h.sound.addressed.current_on] at hmem
    split at hmem
    · rename_i hother
      subst hother
      rcases ServiceBus.Wired.mem_addTo.mp hmem with hold | heq
      · exact hbefore hold
      · cases heq
        exact ⟨_, List.getElem?_concat_length, rfl, rfl⟩
    · exact hbefore hmem
  case timers =>
    intro k wait hwait
    rcases getElem?_concat_eq_some.mp hwait with hbefore | ⟨rfl, rfl⟩
    · exact h.timers k wait hbefore
    · exact iff_of_true rfl rfl

/-- Under other events a call has no listener. -/
theorem filter_of_ne (h : state.Serves) {k : ℕ} {wait : Wait Value}
    (hwait : state.waits[k]? = some wait) (hname : name ≠ wait.event) :
    ((state.bus.current name).filter fun listener ↦ !decide (listener = .callback (.wait k))) =
      state.bus.current name := by
  apply List.filter_eq_self.mpr
  intro listener hmem
  rw [Bool.not_eq_true', decide_eq_false_iff_not]
  rintro rfl
  exact hname ((h.mem_current hwait name).mp hmem).1

/-- A call that is pending takes its own listener away. -/
theorem current_settle (h : state.Serves) {k : ℕ} {wait : Wait Value}
    (hwait : state.waits[k]? = some wait) (hpending : wait.promise.fate = .pending)
    (fate : Fate Value JsString) (name : JsString) :
    (state.settle k wait fate).bus.current name =
      (state.bus.current name).filter fun listener ↦ !decide (listener = .callback (.wait k)) := by
  obtain ⟨address, hevent, heq⟩ := (h.pending k wait hwait hpending).unsubscribe
  rw [settle, heq, h.sound.addressed.current_deleteFrom hevent]
  split
  · rename_i hname
    rw [hname, (h.sound.nodup_current _).erase_eq_filter]
    apply List.filter_congr
    intro listener _
    rfl
  · rename_i hname
    exact (h.filter_of_ne hwait hname).symm

theorem settle (h : state.Serves) {k : ℕ} {wait : Wait Value}
    (hwait : state.waits[k]? = some wait) (hpending : wait.promise.fate = .pending)
    {fate : Fate Value JsString} (hfate : fate ≠ .pending) : Serves (state.settle k wait fate) := by
  have hcurrent := h.current_settle hwait hpending fate
  obtain ⟨address, hevent, heq⟩ := (h.pending k wait hwait hpending).unsubscribe
  constructor
  case sound =>
    rw [Waits.settle, heq]
    exact h.sound.sound_deleteFrom hevent _
  case wired =>
    rw [Waits.settle, heq]
    exact h.wired.deleteFrom _ _ _
  case pending =>
    intro j other hother hopen
    by_cases hj : k = j
    · subst hj
      rw [waits_settle_self hwait] at hother
      cases hother
      exact absurd hopen (fate_settle hfate)
    · rw [waits_settle_ne hj] at hother
      have hne : Listener.callback (WaitCallback.wait j) ≠ .callback (.wait k) := fun hsame ↦ by
        cases hsame
        exact hj rfl
      rw [Waits.settle, heq]
      exact (h.pending j other hother hopen).deleteFrom hevent hne
  case served =>
    intro j name hmem
    rw [hcurrent, List.mem_filter, Bool.not_eq_true', decide_eq_false_iff_not] at hmem
    obtain ⟨other, hother, hrest⟩ := h.served j name hmem.1
    have hne : k ≠ j := fun hsame ↦ hmem.2 (hsame ▸ rfl)
    exact ⟨other, (waits_settle_ne hne _ _).trans hother, hrest⟩
  case timers =>
    intro j other hother
    by_cases hj : k = j
    · subst hj
      rw [waits_settle_self hwait] at hother
      cases hother
      exact iff_of_false Bool.false_ne_true (fate_settle hfate)
    · rw [waits_settle_ne hj] at hother
      exact h.timers j other hother

end Serves

/-! ## An emission -/

/-- The listener is that of a call whose predicate accepts the data. -/
def accepts (state : Waits Value) (data : Value) : Listener WaitCallback → Bool
  | .callback (.wait k) => (state.waits[k]?).any fun wait ↦ wait.predicate data = some true
  | _ => false

/-- The listener takes itself away when the data comes. -/
def leaves (state : Waits Value) (data : Value) (listener : Listener WaitCallback) : Bool :=
  listener.oneShot || state.accepts data listener

/-- What it does to run some listeners of an event. -/
structure Fired (data : Value) (name : JsString) (fired : List (Listener WaitCallback))
    (state next : Waits Value) : Prop where
  serves : next.Serves
  current : ∀ other, next.bus.current other =
    if other = name then (state.bus.current name).filter fun listener ↦
      !(decide (listener ∈ fired) && state.leaves data listener)
    else state.bus.current other
  accepts : ∀ listener, next.accepts data listener = state.accepts data listener
  waits : ∀ (k : ℕ) (wait : Wait Value), state.waits[k]? = some wait →
    next.waits[k]? = some (if .callback (.wait k) ∈ fired ∧ wait.predicate data = some true
      then wait.finish (.fulfilled data) else wait)

theorem leaves_call {k : ℕ} {wait : Wait Value} (hwait : state.waits[k]? = some wait) (data : Value) :
    state.leaves data (.callback (.wait k)) = decide (wait.predicate data = some true) := by
  rw [leaves, accepts, hwait]
  exact Bool.false_or _

theorem accepts_settle (data : Value) {k : ℕ} {wait : Wait Value}
    (hwait : state.waits[k]? = some wait) (fate : Fate Value JsString)
    (listener : Listener WaitCallback) :
    (state.settle k wait fate).accepts data listener = state.accepts data listener := by
  unfold accepts
  split
  · rename_i j
    by_cases hj : k = j
    · subst hj
      rw [waits_settle_self hwait, hwait]
      rfl
    · rw [waits_settle_ne hj]
  · rfl

/-- To run one listener that leaves is to take it away. -/
theorem filter_of_leaves {listener : Listener WaitCallback}
    (hleaves : state.leaves data listener = true) (listeners : List (Listener WaitCallback)) :
    (listeners.filter fun same ↦ !decide (same = listener)) = listeners.filter fun same ↦
      !(decide (same ∈ [listener]) && state.leaves data same) := by
  apply List.filter_congr
  intro same _
  by_cases hsame : same = listener
  · simp [hsame, hleaves]
  · simp [hsame]

namespace Fired

variable {fired rest : List (Listener WaitCallback)} {listener : Listener WaitCallback}

theorem nil (h : state.Serves) : Fired data name [] state state where
  serves := h
  current other := by
    split
    · rename_i hother
      simp [hother]
    · rfl
  accepts _ := rfl
  waits k wait hwait := by simpa using hwait

/-- A listener that does nothing to its subscription. -/
theorem keep (h : state.Serves) (hstays : state.leaves data listener = false)
    (hwaits : ∀ (k : ℕ) (wait : Wait Value), state.waits[k]? = some wait →
      listener = .callback (.wait k) → wait.predicate data ≠ some true) :
    Fired data name [listener] state state where
  serves := h
  current other := by
    split
    · rename_i hother
      rw [hother]
      symm
      apply List.filter_eq_self.mpr
      intro same _
      by_cases hsame : same = listener
      · rw [hsame, hstays, Bool.and_false, Bool.not_false]
      · simp [hsame]
    · rfl
  accepts _ := rfl
  waits k wait hwait := by
    rw [if_neg, hwait]
    rintro ⟨hmem, haccepted⟩
    exact hwaits k wait hwait (List.mem_singleton.mp hmem).symm haccepted

/-- A one-shot listener. -/
theorem wrapper (h : state.Serves) {unsub : ℕ} {cb : WaitCallback}
    (hmem : .wrapper unsub cb ∈ state.bus.current name) :
    Fired data name [.wrapper unsub cb] state (fire data state (.wrapper unsub cb)) := by
  have hcurrent := h.wired.current_invoke hmem
  have hfire : fire data state (.wrapper unsub cb) =
      { state with bus := state.bus.invoke (.wrapper unsub cb) } := rfl
  have hserves : (fire data state (.wrapper unsub cb)).Serves := by
    cases hevent : state.bus.listeners name with
    | none =>
      rw [ServiceBus.current_of_none hevent] at hmem
      cases hmem
    | some address =>
      obtain ⟨other, hclosure, hname⟩ :=
        h.wired.wrapper address unsub cb (ServiceBus.current_of_some hevent ▸ hmem)
      obtain rfl := hname name hevent
      rw [hfire]
      simp only [ServiceBus.invoke, ServiceBus.unsubscribe, hclosure]
      exact h.remove hevent fun k heq ↦ by cases heq
  refine ⟨hserves, fun other ↦ ?_, fun _ ↦ rfl, fun k wait hwait ↦ ?_⟩
  · rw [hfire, hcurrent]
    simp only [Listener.oneShot, and_true]
    split
    · rw [(h.wired.nodup_current name).erase_eq_filter]
      exact filter_of_leaves rfl _
    · rfl
  · rw [if_neg, hfire, hwait]
    rintro ⟨hsame, -⟩
    cases List.mem_singleton.mp hsame

/-- The listener of a call. -/
theorem wait (h : state.Serves) {k : ℕ} (hmem : .callback (.wait k) ∈ state.bus.current name) :
    Fired data name [.callback (.wait k)] state (fire data state (.callback (.wait k))) := by
  obtain ⟨wait, hwait, hpending, rfl⟩ := h.served k name hmem
  by_cases haccepted : wait.predicate data = some true
  · have hfire : fire data state (.callback (.wait k)) =
        state.settle k wait (.fulfilled data) := by
      rw [fire, onData, hwait]
      exact if_pos haccepted
    have hleaves : state.leaves data (.callback (.wait k)) = true := by
      rw [leaves_call hwait, haccepted]
      rfl
    rw [hfire]
    refine ⟨h.settle hwait hpending (fun heq ↦ by cases heq), fun other ↦ ?_,
      accepts_settle data hwait _, fun j other hother ↦ ?_⟩
    · rw [h.current_settle hwait hpending]
      split
      · rename_i hname
        rw [hname]
        exact filter_of_leaves hleaves _
      · rename_i hname
        exact h.filter_of_ne hwait hname
    · by_cases hj : k = j
      · subst hj
        obtain rfl : wait = other := Option.some.inj (hwait.symm.trans hother)
        rw [waits_settle_self hwait, if_pos ⟨List.mem_singleton_self _, haccepted⟩]
      · rw [waits_settle_ne hj, hother, if_neg]
        rintro ⟨hsame, -⟩
        cases List.mem_singleton.mp hsame
        exact hj rfl
  · have hfire : fire data state (.callback (.wait k)) = state := by
      rw [fire, onData, hwait]
      exact if_neg haccepted
    rw [hfire]
    apply keep h
    · rw [leaves_call hwait, decide_eq_false haccepted]
    · intro j other hother hsame
      cases hsame
      obtain rfl : wait = other := Option.some.inj (hwait.symm.trans hother)
      exact haccepted

theorem single (h : state.Serves) (hmem : listener ∈ state.bus.current name) :
    Fired data name [listener] state (fire data state listener) := by
  cases listener with
  | wrapper unsub cb => exact wrapper h hmem
  | callback cb =>
    cases cb with
    | wait k => exact wait h hmem
    | other n => exact keep h rfl fun k wait _ hsame ↦ by cases hsame

/-- First one listener, then others. -/
theorem cons {second : Waits Value} (hfirst : Fired data name [listener] state second)
    (hrest : Fired data name rest second next) : Fired data name (listener :: rest) state next where
  serves := hrest.serves
  current other := by
    have hleaves : second.leaves data = state.leaves data := by
      funext same
      rw [leaves, leaves, hfirst.accepts]
    rw [hrest.current, hfirst.current, hfirst.current, hleaves, if_pos rfl]
    split
    · rw [List.filter_filter]
      apply List.filter_congr
      intro same _
      have hmem : decide (same ∈ listener :: rest) =
          (decide (same ∈ rest) || decide (same ∈ [listener])) := by
        rw [← Bool.decide_or, decide_eq_decide, List.mem_cons, List.mem_singleton, or_comm]
      rw [hmem, Bool.and_or_distrib_right, Bool.not_or]
    · rfl
  accepts same := (hrest.accepts same).trans (hfirst.accepts same)
  waits k wait hwait := by
    have hboth := hrest.waits k _ (hfirst.waits k wait hwait)
    by_cases hfired : .callback (.wait k) = listener ∧ wait.predicate data = some true
    · have hfulfilled : (.fulfilled data : Fate Value JsString) ≠ .pending := fun heq ↦ by cases heq
      have hsingle : Listener.callback (.wait k) ∈ [listener] ∧ wait.predicate data = some true :=
        ⟨List.mem_singleton.mpr hfired.1, hfired.2⟩
      have hcons : Listener.callback (.wait k) ∈ listener :: rest ∧ wait.predicate data = some true :=
        ⟨hfired.1 ▸ List.mem_cons_self, hfired.2⟩
      rw [if_pos hsingle, finish_finish hfulfilled, ite_self] at hboth
      rw [hboth, if_pos hcons]
    · have hnot : ¬ (Listener.callback (.wait k) ∈ [listener] ∧ wait.predicate data = some true) :=
        fun hboth ↦ hfired ⟨List.mem_singleton.mp hboth.1, hboth.2⟩
      have hiff : (Listener.callback (.wait k) ∈ listener :: rest ∧ wait.predicate data = some true) ↔
          Listener.callback (.wait k) ∈ rest ∧ wait.predicate data = some true := by
        rw [List.mem_cons, or_and_right, or_iff_right hfired]
      simp only [if_neg hnot] at hboth
      simp only [hboth, hiff]

/-- The listeners of a snapshot, none of which is there twice. -/
theorem foldl (h : state.Serves) (hnodup : fired.Nodup)
    (hfired : ∀ listener ∈ fired, listener ∈ state.bus.current name) :
    Fired data name fired state (fired.foldl (fire data) state) := by
  induction fired generalizing state with
  | nil => exact nil h
  | cons listener rest ih =>
    obtain ⟨hnew, hlater⟩ := List.nodup_cons.mp hnodup
    obtain ⟨hlistener, hrest⟩ := List.forall_mem_cons.mp hfired
    have hfirst : Fired data name [listener] state (fire data state listener) := single h hlistener
    apply hfirst.cons
    apply ih hfirst.serves hlater
    intro other hother
    have hne : other ≠ listener := fun heq ↦ hnew (heq ▸ hother)
    rw [hfirst.current, if_pos rfl, List.mem_filter]
    exact ⟨hrest other hother, by simp [hne]⟩

end Fired

theorem Serves.fired (h : state.Serves) (name : JsString) (data : Value) :
    Fired data name (state.bus.current name) state (state.emit name data) :=
  Fired.foldl h (h.sound.nodup_current name) fun _ hmem ↦ hmem

/-! ## Turns -/

/-- What an event makes of the `k`-th call. -/
def after (k : ℕ) (event : WaitEvent Value) (wait : Wait Value) : Wait Value :=
  match settles k wait.event wait.predicate wait.timeoutMs event with
  | some fate => wait.finish fate
  | none => wait

/-- What a turn does to the calls and to the bus. -/
structure Turned (state : Waits Value) (event : WaitEvent Value) (next : Waits Value) : Prop where
  serves : next.Serves
  waits : ∀ (k : ℕ) (wait : Wait Value), state.waits[k]? = some wait →
    next.waits[k]? = some (after k event wait)
  endsOwn : state.EndsOwn event next

/-- A turn that settles no call. -/
theorem endsOwn_of_quiet {event : WaitEvent Value}
    (hquiet : ∀ k name predicate timeoutMs, settles k name predicate timeoutMs event = none)
    (hbus : next.bus = state.plain event) : state.EndsOwn event next := by
  intro name
  rw [hbus]
  symm
  apply List.filter_eq_self.mpr
  intro listener hmem
  unfold ends
  split
  · rename_i k
    simp only [hquiet, Option.isSome_none]
    cases state.waits[k]? <;> rfl
  · rfl

namespace Serves

theorem after_of_settled (h : state.Serves) {k : ℕ} {wait : Wait Value}
    (hwait : state.waits[k]? = some wait) {event : WaitEvent Value}
    (hsettled : wait.promise.fate ≠ .pending) : after k event wait = wait := by
  unfold after
  split
  · exact h.finish_of_settled hwait hsettled _
  · rfl

/-- Under the event that is emitted, the calls that end are those that accept. -/
theorem ends_emit (h : state.Serves) {other : JsString} {listener : Listener WaitCallback}
    (hmem : listener ∈ state.bus.current other) :
    state.ends (.emit name data) listener = (decide (name = other) && state.accepts data listener) := by
  unfold ends accepts
  split
  · rename_i k
    obtain ⟨wait, hwait, _, rfl⟩ := h.served k other hmem
    rw [hwait, Option.any_some, Option.any_some, settles, ← Bool.decide_and]
    split
    · rename_i hboth
      simp [hboth]
    · rename_i hboth
      simp [hboth]
  · exact (Bool.and_false _).symm

theorem emit (h : state.Serves) (name : JsString) (data : Value) :
    Turned state (.emit name data) (state.emit name data) := by
  have hfired := h.fired name data
  refine ⟨hfired.serves, fun k wait hwait ↦ ?_, fun other ↦ ?_⟩
  · rw [hfired.waits k wait hwait, Option.some.injEq]
    by_cases hpending : wait.promise.fate = .pending
    · have hmem : Listener.callback (.wait k) ∈ state.bus.current name ↔ name = wait.event := by
        rw [h.mem_current hwait, and_iff_left hpending]
      simp only [hmem]
      rw [after, settles]
      split <;> rfl
    · rw [h.after_of_settled hwait hpending, h.finish_of_settled hwait hpending, ite_self]
  · rw [hfired.current, plain, h.wired.current_emit]
    split
    · rename_i hother
      subst hother
      rw [List.filter_filter]
      apply List.filter_congr
      intro listener hmem
      rw [h.ends_emit hmem, leaves]
      simp [hmem, Bool.and_comm]
    · rename_i hother
      symm
      apply List.filter_eq_self.mpr
      intro listener hmem
      rw [h.ends_emit hmem, decide_eq_false (Ne.symm hother)]
      rfl

theorem ends_timer {k : ℕ} {wait : Wait Value} (hwait : state.waits[k]? = some wait)
    (listener : Listener WaitCallback) :
    state.ends (.timer k) listener = decide (listener = .callback (.wait k)) := by
  unfold ends
  split
  · rename_i j
    by_cases hj : k = j
    · subst hj
      simp [hwait, settles]
    · have hne : Listener.callback (WaitCallback.wait j) ≠ .callback (.wait k) := fun heq ↦ by
        cases heq
        exact hj rfl
      simp only [settles, if_neg hj, decide_eq_false hne, Option.isSome_none]
      cases state.waits[j]? <;> rfl
  · rename_i hother
    symm
    exact decide_eq_false fun heq ↦ hother k heq

theorem timer (h : state.Serves) {k : ℕ} {wait : Wait Value} (hwait : state.waits[k]? = some wait)
    (htimer : wait.timer = true) : Turned state (.timer k)
      (state.settle k wait (.rejected (Wait.timedOut wait.event wait.timeoutMs))) := by
  have hpending := (h.timers k wait hwait).mp htimer
  refine ⟨h.settle hwait hpending (fun heq ↦ by cases heq), fun j other hother ↦ ?_, fun name ↦ ?_⟩
  · by_cases hj : k = j
    · subst hj
      obtain rfl : wait = other := Option.some.inj (hwait.symm.trans hother)
      rw [waits_settle_self hwait, after, settles, if_pos rfl]
    · rw [waits_settle_ne hj, hother, after, settles, if_neg hj]
  · rw [h.current_settle hwait hpending, plain]
    apply List.filter_congr
    intro listener _
    rw [ends_timer hwait]

theorem step (h : state.Serves) {event : WaitEvent Value} (hcareful : state.Careful event)
    (hstep : state.step event = some next) : Turned state event next := by
  cases event with
  | waitFor name predicate timeoutMs =>
    cases hstep
    refine ⟨h.waitFor name predicate timeoutMs, fun k wait hwait ↦ ?_,
      endsOwn_of_quiet (fun _ _ _ _ ↦ rfl) rfl⟩
    exact getElem?_concat_eq_some.mpr (.inl hwait)
  | emit name data =>
    cases hstep
    exact h.emit name data
  | timer k =>
    simp only [Waits.step] at hstep
    split at hstep
    · rename_i wait hwait
      rw [Option.ite_none_right_eq_some, Option.some.injEq] at hstep
      obtain ⟨htimer, rfl⟩ := hstep
      exact h.timer hwait htimer
    · cases hstep
  | on name n =>
    cases hstep
    exact ⟨h.subscribe (fun k heq ↦ by cases heq) (fun _ _ heq ↦ by cases heq),
      fun _ _ hwait ↦ hwait, endsOwn_of_quiet (fun _ _ _ _ ↦ rfl) rfl⟩
  | once name n =>
    cases hstep
    exact ⟨h.subscribe (fun k heq ↦ by cases heq) (fun _ _ heq ↦ by cases heq; rfl),
      fun _ _ hwait ↦ hwait, endsOwn_of_quiet (fun _ _ _ _ ↦ rfl) rfl⟩
  | off name n =>
    cases hstep
    exact ⟨h.off name n, fun _ _ hwait ↦ hwait, endsOwn_of_quiet (fun _ _ _ _ ↦ rfl) rfl⟩
  | call handle =>
    rw [Waits.step, Option.ite_none_right_eq_some, Option.some.injEq] at hstep
    obtain ⟨hforeign, rfl⟩ := hstep
    exact ⟨h.call hforeign hcareful, fun _ _ hwait ↦ hwait,
      endsOwn_of_quiet (fun _ _ _ _ ↦ rfl) rfl⟩

end Serves

theorem serves_start : Serves (start : Waits Value) where
  sound := ServiceBus.sound_create
  wired := ServiceBus.wired_create
  pending _ _ hwait := by cases hwait
  served _ _ hmem := by cases hmem
  timers _ _ hwait := by cases hwait

/-! ## Whole runs -/

/-- The invariant, and the calls, over a run. -/
theorem serves_run {schedule : List (WaitEvent Value)} (h : state.Serves)
    (hcareful : StepsMeet step Careful state schedule) (hrun : run step state schedule = some next) :
    next.Serves ∧ ∀ (k : ℕ) (wait : Wait Value), state.waits[k]? = some wait →
      next.waits[k]? = some (schedule.foldl (fun wait event ↦ after k event wait) wait) := by
  induction schedule generalizing state with
  | nil =>
    cases hrun
    exact ⟨h, fun _ _ hwait ↦ hwait⟩
  | cons event rest ih =>
    rw [run_cons, Option.bind_eq_some_iff] at hrun
    obtain ⟨second, hsecond, hrest⟩ := hrun
    obtain ⟨hguard, hlater⟩ := hcareful second hsecond
    have hturned := h.step hguard hsecond
    obtain ⟨hlast, hall⟩ := ih hturned.serves hlater hrest
    exact ⟨hlast, fun k wait hwait ↦ hall k _ (hturned.waits k wait hwait)⟩

theorem settles_ne_pending {k timeoutMs : ℕ} {predicate : Value → Option Bool}
    {event : WaitEvent Value} {fate : Fate Value JsString}
    (h : settles k name predicate timeoutMs event = some fate) : fate ≠ .pending := by
  unfold settles at h
  split at h
  · obtain ⟨_, hfate⟩ := Option.ite_none_right_eq_some.mp h
    cases hfate
    exact nofun
  · obtain ⟨_, hfate⟩ := Option.ite_none_right_eq_some.mp h
    cases hfate
    exact nofun
  · cases h

theorem event_foldl (k : ℕ) (wait : Wait Value) (schedule : List (WaitEvent Value)) :
    (schedule.foldl (fun wait event ↦ after k event wait) wait).event = wait.event := by
  induction schedule generalizing wait with
  | nil => rfl
  | cons event rest ih =>
    rw [List.foldl_cons, ih, after]
    split <;> rfl

/-- What is settled stays as it is. -/
theorem promise_foldl_settled {k : ℕ} {wait : Wait Value} (h : wait.promise.fate ≠ .pending)
    (schedule : List (WaitEvent Value)) :
    (schedule.foldl (fun wait event ↦ after k event wait) wait).promise = wait.promise := by
  induction schedule generalizing wait with
  | nil => rfl
  | cons event rest ih =>
    have hsame : (after k event wait).promise = wait.promise := by
      unfold after
      split
      · exact Promise.settle_of_settled h _
      · rfl
    rw [List.foldl_cons, ih (hsame ▸ h), hsame]

/-- The first event that settles a call is the one that counts. -/
theorem fate_foldl_pending {k : ℕ} {wait : Wait Value} (h : wait.promise.fate = .pending)
    (schedule : List (WaitEvent Value)) :
    (schedule.foldl (fun wait event ↦ after k event wait) wait).promise.fate =
      ((schedule.filterMap
        (settles k wait.event wait.predicate wait.timeoutMs)).head?).getD .pending := by
  induction schedule with
  | nil => exact h
  | cons event rest ih =>
    rw [List.foldl_cons, List.filterMap_cons]
    cases hsettles : settles k wait.event wait.predicate wait.timeoutMs event with
    | none =>
      have hsame : after k event wait = wait := by rw [after, hsettles]
      rw [hsame, ih]
    | some fate =>
      have hfate : (wait.finish fate).promise.fate = fate := by
        rw [Wait.finish, Promise.settle, h]
      have hsettled : (wait.finish fate).promise.fate ≠ .pending := by
        rw [hfate]
        exact settles_ne_pending hsettles
      calc
        (rest.foldl (fun wait event ↦ after k event wait) (after k event wait)).promise.fate =
            (rest.foldl (fun wait event ↦ after k event wait) (wait.finish fate)).promise.fate := by
          rw [after, hsettles]
        _ = (wait.finish fate).promise.fate := by rw [promise_foldl_settled hsettled]
        _ = fate := hfate

/-- **The first event counts.** A call of `waitFor` is settled by the first that comes of an event
with its name whose data its predicate accepts, and its timeout, and never again; as long as neither
came, and no longer, its listener is on the bus, under its event only, and its timer runs. Meanwhile
the calls that are settled take their own listeners off the bus and nobody else's. -/
theorem waitFor_first {before rest : List (WaitEvent Value)} {event : JsString}
    {predicate : Value → Option Bool} {timeoutMs : ℕ} {first last : Waits Value}
    (hcareful : StepsMeet step Careful start before)
    (hlater : StepsMeet step Careful first (.waitFor event predicate timeoutMs :: rest))
    (hfirst : run step start before = some first)
    (hlast : run step first (.waitFor event predicate timeoutMs :: rest) = some last) :
    Along step EndsOwn first (.waitFor event predicate timeoutMs :: rest) ∧
      ∃ wait, last.waits[first.waits.length]? = some wait ∧
        wait.promise.fate = ((rest.filterMap
          (settles first.waits.length event predicate timeoutMs)).head?).getD .pending ∧
        (wait.timer = true ↔ wait.promise.fate = .pending) ∧
        ∀ name, Listener.callback (.wait first.waits.length) ∈ last.bus.current name ↔
          name = event ∧ wait.promise.fate = .pending := by
  obtain ⟨hserves, _⟩ := serves_run serves_start hcareful hfirst
  have hown : Along step EndsOwn first (.waitFor event predicate timeoutMs :: rest) :=
    along_of_invariant (fun state turn next hstate hguard hnext ↦
      ⟨(hstate.step hguard hnext).serves, (hstate.step hguard hnext).endsOwn⟩) hserves hlater
  rw [run_cons] at hlast
  obtain ⟨called, hcalled, hrun⟩ := Option.bind_eq_some_iff.mp hlast
  obtain ⟨-, hmeet⟩ := hlater called hcalled
  cases hcalled
  obtain ⟨hfinal, hwaits⟩ := serves_run (hserves.waitFor event predicate timeoutMs) hmeet hrun
  have hwait := hwaits first.waits.length _ List.getElem?_concat_length
  refine ⟨hown, _, hwait, fate_foldl_pending rfl rest, hfinal.timers _ _ hwait, fun name ↦ ?_⟩
  rw [hfinal.mem_current hwait, event_foldl]

/-- One function listens twice, another once; the former is taken off, comes back and is called
off by a handle. The second of three emissions is accepted, and another call times out. -/
theorem waitFor_first_accepted : ∃ first last wait,
    run step (start : Waits ℕ) [.on (js "x") 0, .on (js "x") 0, .once (js "x") 1,
        .waitFor (js "x") (fun _ ↦ none) 10, .emit (js "x") 1, .off (js "x") 0] = some first ∧
      run step first [.waitFor (js "x") (fun data ↦ some (decide (1 < data))) 30000,
        .on (js "x") 0, .emit (js "x") 1, .timer 0, .emit (js "x") 2, .call 0, .emit (js "x") 3] =
        some last ∧
      last.waits[1]? = some wait ∧ wait.promise.fate = .fulfilled 2 ∧
        last.bus.current (js "x") = [] := by
  obtain ⟨_, wait, hwait, hfate, _⟩ := @waitFor_first ℕ [.on (js "x") 0, .on (js "x") 0,
      .once (js "x") 1, .waitFor (js "x") (fun _ ↦ none) 10, .emit (js "x") 1, .off (js "x") 0]
    [.on (js "x") 0, .emit (js "x") 1, .timer 0, .emit (js "x") 2, .call 0, .emit (js "x") 3]
    (js "x") (fun data ↦ some (decide (1 < data))) 30000 _ _ (by decide) (by decide) rfl rfl
  exact ⟨_, _, wait, rfl, rfl, hwait, hfate.trans (by decide), by decide⟩

end Waits

end Cordyceps.Core
