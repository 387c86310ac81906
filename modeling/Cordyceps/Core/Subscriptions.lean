import Cordyceps.Core.ServiceBus
import Cordyceps.Foundations.StepMachine
import Mathlib.Data.List.Nodup

/-!
# Bus subscriptions against an abstract ledger

The ledger is the purpose of the subscription interface: one entry a call of
`on` or `once`, which dies by its own handle, by `off` with its callback or by
having fired. The bus refines the ledger as long as three things do not
happen: a callback is subscribed again while its plain subscription is live, a
callback with a live one-shot subscription is passed to `off`, or the handle of
a dead subscription reaches a listener set that now serves others. Each of the
three breaks the refinement at once, so the characterization is exact.
-/

namespace Cordyceps.Core

open Foundations Foundations.StepMachine

variable {Callback Value : Type*}

/-! ## The abstract ledger -/

/-- One live subscription. `handle` counts the calls of `on` and `once` before it. -/
structure Subscription (Callback : Type*) where
  handle : ℕ
  event : JsString
  cb : Callback
  once : Bool
  deriving DecidableEq, Repr

/-- The listener that represents a subscription on the bus. -/
def Subscription.listener (subscription : Subscription Callback) : Listener Callback :=
  if subscription.once then .wrapper subscription.handle subscription.cb
  else .callback subscription.cb

/-- The live subscriptions, oldest first, and the number of handles returned so far. -/
structure Ledger (Callback : Type*) where
  next : ℕ
  live : List (Subscription Callback)

namespace Ledger

def empty : Ledger Callback := ⟨0, []⟩

def subscribe (ledger : Ledger Callback) (event : JsString) (cb : Callback) (once : Bool) :
    Ledger Callback :=
  ⟨ledger.next + 1, ledger.live ++ [⟨ledger.next, event, cb, once⟩]⟩

/-- The subscriptions that satisfy `dies` end. -/
def retire (ledger : Ledger Callback) (dies : Subscription Callback → Bool) : Ledger Callback :=
  ⟨ledger.next, ledger.live.filter fun subscription ↦ !dies subscription⟩

/-- The live subscriptions to one event. -/
def subscribers (ledger : Ledger Callback) (event : JsString) : List (Subscription Callback) :=
  ledger.live.filter fun subscription ↦ subscription.event = event

theorem mem_subscribers {ledger : Ledger Callback} {event : JsString}
    {subscription : Subscription Callback} : subscription ∈ ledger.subscribers event ↔
      subscription ∈ ledger.live ∧ subscription.event = event := by
  simp [subscribers]

theorem subscribers_retire (ledger : Ledger Callback) (dies : Subscription Callback → Bool)
    (event : JsString) : (ledger.retire dies).subscribers event =
      (ledger.subscribers event).filter fun subscription ↦ !dies subscription := by
  simp only [subscribers, retire, List.filter_filter]
  congr 1
  funext subscription
  exact Bool.and_comm _ _

theorem retire_none (ledger : Ledger Callback) {dies : Subscription Callback → Bool}
    (h : ∀ subscription ∈ ledger.live, dies subscription = false) : ledger.retire dies = ledger := by
  have hlive : ledger.live.filter (fun subscription ↦ !dies subscription) = ledger.live :=
    List.filter_eq_self.mpr fun subscription hmem ↦ by simp [h subscription hmem]
  simp only [retire, hlive]

theorem retire_retire (ledger : Ledger Callback) (first second : Subscription Callback → Bool) :
    (ledger.retire first).retire second =
      ledger.retire fun subscription ↦ first subscription || second subscription := by
  simp only [retire, List.filter_filter, Bool.not_or, Bool.and_comm]

theorem retire_congr {ledger : Ledger Callback} {first second : Subscription Callback → Bool}
    (h : ∀ subscription ∈ ledger.live, first subscription = second subscription) :
    ledger.retire first = ledger.retire second := by
  have hlive : ledger.live.filter (fun subscription ↦ !first subscription) =
      ledger.live.filter fun subscription ↦ !second subscription :=
    List.filter_congr fun subscription hmem ↦ by rw [h subscription hmem]
  simp only [retire, hlive]

theorem subscribers_subscribe (ledger : Ledger Callback) (event name : JsString) (cb : Callback)
    (once : Bool) : (ledger.subscribe event cb once).subscribers name =
      ledger.subscribers name ++
        if event = name then [⟨ledger.next, event, cb, once⟩] else [] := by
  by_cases hname : event = name <;> simp [subscribers, subscribe, hname]

end Ledger

theorem Subscription.target_listener (subscription : Subscription Callback) :
    subscription.listener.target = subscription.cb := by
  unfold Subscription.listener
  split <;> rfl

theorem Subscription.listener_eq_callback {subscription : Subscription Callback} {cb : Callback} :
    subscription.listener = .callback cb ↔ subscription.once = false ∧ subscription.cb = cb := by
  unfold Subscription.listener
  split <;> simp_all

theorem Subscription.listener_eq_wrapper {subscription : Subscription Callback} {unsub : ℕ}
    {cb : Callback} : subscription.listener = .wrapper unsub cb ↔
      subscription.once = true ∧ subscription.handle = unsub ∧ subscription.cb = cb := by
  unfold Subscription.listener
  split <;> simp_all

/-! ## The heap of listener sets -/

theorem getElem?_concat_eq_some {Entry : Type*} {entries : List Entry} {last entry : Entry}
    {position : ℕ} : (entries ++ [last])[position]? = some entry ↔
      entries[position]? = some entry ∨ position = entries.length ∧ entry = last := by
  rcases lt_trichotomy position entries.length with hlt | heq | hgt
  · simp [List.getElem?_append_left hlt, hlt.ne]
  · simp [heq, eq_comm]
  · have beyond : (entries ++ [last])[position]? = none :=
      List.getElem?_eq_none (by simpa using Nat.succ_le_of_lt hgt)
    simp [beyond, List.getElem?_eq_none hgt.le, hgt.ne']

namespace ServiceBus

/-- A listener set has been allocated before it is held, and is held for one event. -/
structure Addressed (bus : ServiceBus Callback Value) : Prop where
  allocated : ∀ event address, bus.listeners event = some address → address < bus.nextSet
  separate : ∀ event name address, bus.listeners event = some address →
    bus.listeners name = some address → event = name

/-- What every operation keeps of the listener sets and the returned handles: a set that the
event map does not hold is empty, a set that it holds serves one event and is not empty, and
every handle keeps the address its event had when it was returned. -/
structure Sound (bus : ServiceBus Callback Value) : Prop where
  allocated : ∀ event address, bus.listeners event = some address → address < bus.nextSet
  separate : ∀ event name address, bus.listeners event = some address →
    bus.listeners name = some address → event = name
  dropped : ∀ address, (∀ event, bus.listeners event ≠ some address) → bus.sets address = []
  nonempty : ∀ event address, bus.listeners event = some address → bus.sets address ≠ []
  nodup : ∀ address, (bus.sets address).Nodup
  closure_set : ∀ (handle : ℕ) (closure : Unsubscribe Callback),
    bus.handles[handle]? = some closure → closure.set < bus.nextSet ∧
      ∀ event, bus.listeners event = some closure.set → event = closure.event
  closure_wrapper : ∀ (handle : ℕ) (closure : Unsubscribe Callback),
    bus.handles[handle]? = some closure →
      ∀ unsub cb, closure.listener = .wrapper unsub cb → unsub = handle

theorem sound_create : (createServiceBus : ServiceBus Callback Value).Sound := by
  constructor <;> simp [createServiceBus]

theorem current_of_some {bus : ServiceBus Callback Value} {event : JsString} {address : ℕ}
    (h : bus.listeners event = some address) : bus.current event = bus.sets address := by
  unfold current
  rw [h]

theorem current_of_none {bus : ServiceBus Callback Value} {event : JsString}
    (h : bus.listeners event = none) : bus.current event = [] := by
  unfold current
  rw [h]

section AddTo

variable [DecidableEq Callback]

theorem nodup_addTo (listener : Listener Callback) {members : List (Listener Callback)}
    (h : members.Nodup) : (addTo listener members).Nodup := by
  unfold addTo
  split
  · exact h
  · rename_i hnew
    exact List.concat_eq_append ▸ List.Nodup.concat hnew h

theorem addTo_ne_nil (listener : Listener Callback) (members : List (Listener Callback)) :
    addTo listener members ≠ [] := by
  unfold addTo
  split
  · exact List.ne_nil_of_mem ‹_›
  · simp

end AddTo

namespace Addressed

variable {bus : ServiceBus Callback Value}

/-- The address that `on` writes belongs to no other event. -/
theorem ne_of_fresh (h : bus.Addressed) {event name : JsString} {address other : ℕ}
    (hevent : bus.listeners event = some address ∨
      bus.listeners event = none ∧ bus.nextSet ≤ address)
    (hother : bus.listeners name = some other) (hname : name ≠ event) : other ≠ address := by
  rintro rfl
  rcases hevent with hevent | ⟨_, hfresh⟩
  · exact hname (h.separate name event other hother hevent)
  · exact absurd (h.allocated name other hother) (Nat.not_lt.mpr hfresh)

variable [DecidableEq Callback]

/-- All that `on` does, whether or not the event already has a listener set. -/
theorem on_eq (h : bus.Addressed) (event : JsString) (listener : Listener Callback) :
    ∃ address next, bus.nextSet ≤ next ∧ address < next ∧
      (bus.listeners event = some address ∨
        bus.listeners event = none ∧ bus.nextSet ≤ address) ∧
      bus.on event listener =
        { bus with
          sets := Function.update bus.sets address (addTo listener (bus.current event))
          nextSet := next
          listeners := Function.update bus.listeners event (some address)
          handles := bus.handles ++ [⟨event, address, listener⟩] } := by
  cases hevent : bus.listeners event with
  | some address =>
    refine ⟨address, bus.nextSet, le_rfl, h.allocated event address hevent, .inl rfl, ?_⟩
    have hsame : Function.update bus.listeners event (some address) = bus.listeners := by
      rw [← hevent, Function.update_eq_self]
    simp [on, current, hevent, hsame]
  | none =>
    refine ⟨bus.nextSet, bus.nextSet + 1, Nat.le_succ _, Nat.lt_succ_self _,
      .inr ⟨rfl, le_rfl⟩, ?_⟩
    simp [on, current, hevent]

theorem current_on (h : bus.Addressed) (event name : JsString) (listener : Listener Callback) :
    (bus.on event listener).current name =
      if name = event then addTo listener (bus.current event) else bus.current name := by
  obtain ⟨address, next, _, _, hevent, heq⟩ := h.on_eq event listener
  rw [heq]
  by_cases hname : name = event
  · subst hname
    simp [current]
  · cases hother : bus.listeners name with
    | none => simp [current, hother, hname]
    | some other =>
      have hne : other ≠ address := h.ne_of_fresh hevent hother hname
      simp [current, hother, hname, Function.update_of_ne hne]

theorem current_deleteFrom (h : bus.Addressed) {event : JsString} {address : ℕ}
    (hevent : bus.listeners event = some address) (name : JsString)
    (listener : Listener Callback) : (bus.deleteFrom event address listener).current name =
      if name = event then (bus.current event).erase listener else bus.current name := by
  by_cases hname : name = event
  · subst hname
    by_cases hempty : (bus.sets address).erase listener = []
    · simp [deleteFrom, current, hevent, hempty]
    · simp [deleteFrom, current, hevent, hempty]
  · cases hother : bus.listeners name with
    | none =>
      by_cases hempty : (bus.sets address).erase listener = [] <;>
        simp [deleteFrom, current, hother, hempty, hname]
    | some other =>
      have hne : other ≠ address := fun heq ↦
        hname (h.separate name event address (heq ▸ hother) hevent)
      by_cases hempty : (bus.sets address).erase listener = [] <;>
        simp [deleteFrom, current, hother, hempty, hname, Function.update_of_ne hne]

/-- After a removal an event keeps its set, or it was the last listener's event. -/
theorem listeners_deleteFrom {event name : JsString} {address other : ℕ}
    {listener : Listener Callback}
    (hother : (bus.deleteFrom event address listener).listeners name = some other) :
    bus.listeners name = some other ∧
      ((bus.sets address).erase listener = [] → name ≠ event) := by
  unfold deleteFrom at hother
  by_cases hempty : (bus.sets address).erase listener = []
  · simp only [hempty, if_true, Function.update_apply] at hother
    split at hother
    · cases hother
    · exact ⟨hother, fun _ ↦ ‹_›⟩
  · simp only [hempty, if_false] at hother
    exact ⟨hother, fun hnil ↦ absurd hnil hempty⟩

theorem on (h : bus.Addressed) (event : JsString) (listener : Listener Callback) :
    (bus.on event listener).Addressed := by
  obtain ⟨address, next, hnext, haddress, hevent, heq⟩ := h.on_eq event listener
  have hother : ∀ name other, name ≠ event → bus.listeners name = some other →
      other ≠ address := fun name other hname hother ↦ h.ne_of_fresh hevent hother hname
  rw [heq]
  constructor
  case allocated =>
    intro name other hname
    by_cases heq : name = event
    · simp only [heq, Function.update_self, Option.some.injEq] at hname
      exact hname ▸ haddress
    · simp only [Function.update_of_ne heq] at hname
      exact (h.allocated name other hname).trans_le hnext
  case separate =>
    intro first second other hfirst hsecond
    simp only [Function.update_apply] at hfirst hsecond
    split at hfirst <;> split at hsecond
    · simp_all
    · cases hfirst
      exact absurd rfl (hother second _ ‹_› hsecond)
    · cases hsecond
      exact absurd rfl (hother first _ ‹_› hfirst)
    · exact h.separate first second other hfirst hsecond

theorem deleteFrom (h : bus.Addressed) (event : JsString) (address : ℕ)
    (listener : Listener Callback) : (bus.deleteFrom event address listener).Addressed := by
  constructor
  case allocated =>
    intro name other hname
    exact h.allocated name other (Addressed.listeners_deleteFrom hname).1
  case separate =>
    intro first second other hfirst hsecond
    exact h.separate first second other (Addressed.listeners_deleteFrom hfirst).1
      (Addressed.listeners_deleteFrom hsecond).1

end Addressed

namespace Sound

variable {bus : ServiceBus Callback Value}

theorem addressed (h : bus.Sound) : bus.Addressed := ⟨h.allocated, h.separate⟩

theorem nodup_current (h : bus.Sound) (event : JsString) : (bus.current event).Nodup := by
  unfold current
  split
  · exact List.nodup_nil
  · exact h.nodup _

/-- A set that a handle holds and that its event has left serves nobody. -/
theorem sets_eq_nil_of_stale (h : bus.Sound) {handle : ℕ} {closure : Unsubscribe Callback}
    (hclosure : bus.handles[handle]? = some closure)
    (hstale : bus.listeners closure.event ≠ some closure.set) : bus.sets closure.set = [] := by
  apply h.dropped
  intro event hevent
  have hname := (h.closure_set handle closure hclosure).2 event hevent
  rw [hname] at hevent
  exact hstale hevent

variable [DecidableEq Callback]

/-! ### Adding a listener -/

theorem sound_on (h : bus.Sound) {event : JsString} {listener : Listener Callback}
    (hwrapper : ∀ unsub cb, listener = .wrapper unsub cb → unsub = bus.handles.length) :
    (bus.on event listener).Sound := by
  obtain ⟨address, next, hnext, haddress, hevent, heq⟩ := h.addressed.on_eq event listener
  have hother : ∀ name other, name ≠ event → bus.listeners name = some other →
      other ≠ address := fun name other hname hother ↦ h.addressed.ne_of_fresh hevent hother hname
  rw [heq]
  constructor
  case allocated => exact heq ▸ (h.addressed.on event listener).allocated
  case separate => exact heq ▸ (h.addressed.on event listener).separate
  case dropped =>
    intro other hdropped
    have hne : other ≠ address := by
      rintro rfl
      exact hdropped event (by simp)
    simp only [Function.update_of_ne hne]
    apply h.dropped
    intro name hname
    by_cases heq : name = event
    · rcases hevent with hevent | ⟨hevent, _⟩ <;> simp_all
    · exact hdropped name (by simpa only [Function.update_of_ne heq] using hname)
  case nonempty =>
    intro name other hname
    simp only [Function.update_apply] at hname ⊢
    split
    · exact addTo_ne_nil listener _
    · split at hname
      · simp_all
      · exact h.nonempty name other hname
  case nodup =>
    intro other
    simp only [Function.update_apply]
    split
    · exact nodup_addTo listener (h.nodup_current event)
    · exact h.nodup other
  case closure_set =>
    intro handle closure hclosure
    rcases getElem?_concat_eq_some.mp hclosure with hold | ⟨_, rfl⟩
    · obtain ⟨hlt, hserves⟩ := h.closure_set handle closure hold
      refine ⟨hlt.trans_le hnext, fun name hname ↦ ?_⟩
      by_cases hsame : name = event
      · subst hsame
        simp only [Function.update_self, Option.some.injEq] at hname
        subst hname
        rcases hevent with hevent | ⟨_, hfresh⟩
        · exact hserves name hevent
        · exact absurd hlt (Nat.not_lt.mpr hfresh)
      · exact hserves name (by simpa only [Function.update_of_ne hsame] using hname)
    · refine ⟨haddress, fun name hname ↦ ?_⟩
      by_contra hne
      simp only [Function.update_of_ne hne] at hname
      exact hother name address hne hname rfl
  case closure_wrapper =>
    intro handle closure hclosure unsub cb hlistener
    rcases getElem?_concat_eq_some.mp hclosure with hold | ⟨rfl, rfl⟩
    · exact h.closure_wrapper handle closure hold unsub cb hlistener
    · exact hwrapper unsub cb hlistener

/-! ### Removing a listener -/

theorem sound_deleteFrom (h : bus.Sound) {event : JsString} {address : ℕ}
    (hevent : bus.listeners event = some address) (listener : Listener Callback) :
    (bus.deleteFrom event address listener).Sound := by
  constructor
  case allocated => exact (h.addressed.deleteFrom event address listener).allocated
  case separate => exact (h.addressed.deleteFrom event address listener).separate
  case dropped =>
    intro other hdropped
    by_cases hne : other = address
    · subst hne
      have hempty : (bus.sets other).erase listener = [] := by
        by_contra hempty
        apply hdropped event
        simp [deleteFrom, hempty, hevent]
      simp [deleteFrom, hempty]
    · simp only [deleteFrom, Function.update_of_ne hne]
      apply h.dropped
      intro name hname
      have hother : name ≠ event := by
        rintro rfl
        exact hne (Option.some.inj (hname.symm.trans hevent))
      apply hdropped name
      simp only [deleteFrom]
      split
      · rw [Function.update_of_ne hother, hname]
      · exact hname
  case nonempty =>
    intro name other hname
    obtain ⟨hold, hlast⟩ := Addressed.listeners_deleteFrom hname
    by_cases hne : other = address
    · subst hne
      have hsame : name = event := h.separate name event other hold hevent
      simp only [deleteFrom, Function.update_self]
      exact fun hempty ↦ hlast hempty hsame
    · simp only [deleteFrom, Function.update_of_ne hne]
      exact h.nonempty name other hold
  case nodup =>
    intro other
    simp only [deleteFrom, Function.update_apply]
    split
    · exact (h.nodup address).erase listener
    · exact h.nodup other
  case closure_set =>
    intro handle closure hclosure
    obtain ⟨hlt, hserves⟩ := h.closure_set handle closure hclosure
    exact ⟨hlt, fun name hname ↦ hserves name (Addressed.listeners_deleteFrom hname).1⟩
  case closure_wrapper => exact h.closure_wrapper

/-- A removal of a listener that its set does not hold changes nothing, unless it makes the
event drop a set that others are served from. -/
theorem deleteFrom_of_not_mem (h : bus.Sound) {event : JsString} {address : ℕ}
    {listener : Listener Callback} (hmem : listener ∉ bus.sets address)
    (hevent : bus.listeners event = some address ∨ bus.listeners event = none) :
    bus.deleteFrom event address listener = bus := by
  simp only [deleteFrom]
  rw [List.erase_of_not_mem hmem, Function.update_eq_self]
  rcases hevent with hevent | hevent
  · rw [if_neg (h.nonempty event address hevent)]
  · have hnone : Function.update bus.listeners event none = bus.listeners := by
      rw [← hevent, Function.update_eq_self]
    rw [hnone, ite_self]

end Sound

end ServiceBus

/-! ## The refinement -/

/-- The bus serves exactly the live subscriptions, and each live subscription can still be
reached through its handle. -/
structure Refines (bus : ServiceBus Callback Value) (ledger : Ledger Callback) : Prop where
  sound : bus.Sound
  length_handles : bus.handles.length = ledger.next
  handle_lt : ∀ subscription ∈ ledger.live, subscription.handle < ledger.next
  handles_nodup : (ledger.live.map Subscription.handle).Nodup
  current_eq : ∀ event,
    bus.current event = (ledger.subscribers event).map Subscription.listener
  live_closure : ∀ subscription ∈ ledger.live, ∃ address,
    bus.listeners subscription.event = some address ∧
      bus.handles[subscription.handle]? =
        some ⟨subscription.event, address, subscription.listener⟩

theorem refines_create :
    Refines (createServiceBus : ServiceBus Callback Value) (Ledger.empty : Ledger Callback) where
  sound := ServiceBus.sound_create
  length_handles := rfl
  handle_lt := by simp [Ledger.empty]
  handles_nodup := by simp [Ledger.empty]
  current_eq event := by
    simp [createServiceBus, ServiceBus.current, Ledger.empty, Ledger.subscribers]
  live_closure := by simp [Ledger.empty]

namespace Refines

variable {bus : ServiceBus Callback Value} {ledger : Ledger Callback}

theorem eq_of_handle_eq (h : Refines bus ledger) {first second : Subscription Callback}
    (hfirst : first ∈ ledger.live) (hsecond : second ∈ ledger.live)
    (heq : first.handle = second.handle) : first = second :=
  List.inj_on_of_nodup_map h.handles_nodup hfirst hsecond heq

theorem eq_of_listener_eq (h : Refines bus ledger) {first second : Subscription Callback}
    (hfirst : first ∈ ledger.live) (hsecond : second ∈ ledger.live)
    (hevent : first.event = second.event) (heq : first.listener = second.listener) :
    first = second := by
  have hnodup := h.sound.nodup_current second.event
  rw [h.current_eq] at hnodup
  exact List.inj_on_of_nodup_map hnodup (Ledger.mem_subscribers.mpr ⟨hfirst, hevent⟩)
    (Ledger.mem_subscribers.mpr ⟨hsecond, rfl⟩) heq

/-- A listener waits in the set of an event exactly for a live subscription. -/
theorem mem_current (h : Refines bus ledger) {event : JsString} {listener : Listener Callback} :
    listener ∈ bus.current event ↔
      ∃ subscription ∈ ledger.live, subscription.event = event ∧
        subscription.listener = listener := by
  rw [h.current_eq, List.mem_map]
  simp only [Ledger.mem_subscribers, and_assoc]

variable [DecidableEq Callback]

/-- A subscription whose listener is not served yet becomes the youngest entry. -/
theorem subscribe (h : Refines bus ledger) {event : JsString} {cb : Callback} {once : Bool}
    {listener : Listener Callback}
    (hlistener : listener = (⟨ledger.next, event, cb, once⟩ : Subscription Callback).listener)
    (hfresh : listener ∉ bus.current event) :
    Refines (bus.on event listener) (ledger.subscribe event cb once) := by
  obtain ⟨address, next, _, _, hevent, heq⟩ := h.sound.addressed.on_eq event listener
  have hwrapper : ∀ unsub target, listener = .wrapper unsub target →
      unsub = bus.handles.length := by
    intro unsub target hwrapper
    rw [hlistener, Subscription.listener_eq_wrapper] at hwrapper
    rw [h.length_handles, ← hwrapper.2.1]
  constructor
  case sound => exact h.sound.sound_on hwrapper
  case length_handles => simp [heq, Ledger.subscribe, h.length_handles]
  case handle_lt =>
    intro subscription hmem
    simp only [Ledger.subscribe, List.mem_append, List.mem_singleton] at hmem ⊢
    rcases hmem with hmem | rfl
    · exact Nat.lt_succ_of_lt (h.handle_lt subscription hmem)
    · exact Nat.lt_succ_self _
  case handles_nodup =>
    simp only [Ledger.subscribe, List.map_append, List.map_cons, List.map_nil]
    refine List.nodup_append.mpr ⟨h.handles_nodup, List.nodup_singleton _, ?_⟩
    intro handle hmem last hlast
    obtain ⟨subscription, hlive, rfl⟩ := List.mem_map.mp hmem
    rw [List.mem_singleton.mp hlast]
    exact (h.handle_lt subscription hlive).ne
  case current_eq =>
    intro name
    rw [h.sound.addressed.current_on, Ledger.subscribers_subscribe, List.map_append]
    by_cases hname : name = event
    · subst hname
      rw [if_pos rfl, if_pos rfl, ServiceBus.addTo, if_neg hfresh, h.current_eq, hlistener]
      rfl
    · rw [if_neg hname, if_neg (Ne.symm hname), h.current_eq, List.map_nil, List.append_nil]
  case live_closure =>
    intro subscription hmem
    simp only [Ledger.subscribe, List.mem_append, List.mem_singleton] at hmem
    simp only [heq]
    rcases hmem with hmem | rfl
    · obtain ⟨other, hother, hhandle⟩ := h.live_closure subscription hmem
      have hpresent : (bus.handles ++ [⟨event, address, listener⟩])[subscription.handle]? =
          some ⟨subscription.event, other, subscription.listener⟩ :=
        getElem?_concat_eq_some.mpr (.inl hhandle)
      refine ⟨other, ?_, hpresent⟩
      by_cases hname : subscription.event = event
      · rw [hname] at hother ⊢
        rcases hevent with hevent | ⟨hevent, _⟩
        · rw [Function.update_self, ← hevent, hother]
        · rw [hevent] at hother
          cases hother
      · rw [Function.update_of_ne hname, hother]
    · refine ⟨address, Function.update_self .., ?_⟩
      rw [← hlistener, ← h.length_handles]
      exact List.getElem?_concat_length

/-- Deleting a listener from the current set of its event ends its subscription alone. -/
theorem retire (h : Refines bus ledger) {event : JsString} {address : ℕ}
    {listener : Listener Callback} {dies : Subscription Callback → Bool}
    (hevent : bus.listeners event = some address)
    (hdies : ∀ subscription ∈ ledger.live, dies subscription = true ↔
      subscription.event = event ∧ subscription.listener = listener) :
    Refines (bus.deleteFrom event address listener) (ledger.retire dies) := by
  have hsub : (ledger.retire dies).live.Sublist ledger.live := List.filter_sublist
  have hlives : ∀ subscription ∈ ledger.live,
      ¬(subscription.event = event ∧ subscription.listener = listener) →
        dies subscription = false :=
    fun subscription hmem hnot ↦ Bool.eq_false_iff.mpr (mt (hdies subscription hmem).mp hnot)
  constructor
  case sound => exact h.sound.sound_deleteFrom hevent listener
  case length_handles => exact h.length_handles
  case handle_lt => exact fun subscription hmem ↦ h.handle_lt subscription (hsub.subset hmem)
  case handles_nodup => exact h.handles_nodup.sublist (hsub.map Subscription.handle)
  case current_eq =>
    intro name
    rw [h.sound.addressed.current_deleteFrom hevent, Ledger.subscribers_retire]
    by_cases hname : name = event
    · subst hname
      rw [if_pos rfl, (h.sound.nodup_current name).erase_eq_filter, h.current_eq, List.filter_map]
      congr 1
      apply List.filter_congr
      intro subscription hmem
      obtain ⟨hlive, hsame⟩ := Ledger.mem_subscribers.mp hmem
      by_cases heq : subscription.listener = listener
      · simp [heq, (hdies subscription hlive).mpr ⟨hsame, heq⟩]
      · simp [heq, hlives subscription hlive fun hboth ↦ heq hboth.2]
    · rw [if_neg hname, h.current_eq]
      congr 1
      symm
      apply List.filter_eq_self.mpr
      intro subscription hmem
      obtain ⟨hlive, hsame⟩ := Ledger.mem_subscribers.mp hmem
      have hlives := hlives subscription hlive fun hboth ↦ hname (hsame.symm.trans hboth.1)
      rw [hlives, Bool.not_false]
  case live_closure =>
    intro subscription hmem
    obtain ⟨hlive, hstays⟩ := List.mem_filter.mp hmem
    obtain ⟨other, hother, hhandle⟩ := h.live_closure subscription hlive
    refine ⟨other, ?_, hhandle⟩
    by_cases hempty : (bus.sets address).erase listener = []
    · have hname : subscription.event ≠ event := by
        intro hname
        have hmemcur : subscription.listener ∈ bus.current event :=
          h.mem_current.mpr ⟨subscription, hlive, hname, rfl⟩
        rw [ServiceBus.current_of_some hevent] at hmemcur
        have hne : subscription.listener ≠ listener := by
          intro heq
          have := (hdies subscription hlive).mpr ⟨hname, heq⟩
          simp [this] at hstays
        have hleft := (List.mem_erase_of_ne hne).mpr hmemcur
        rw [hempty] at hleft
        cases hleft
      simp [ServiceBus.deleteFrom, hempty, hname, hother]
    · simp [ServiceBus.deleteFrom, hempty, hother]

/-- A handle whose subscription is live ends that subscription. -/
theorem unsubscribe_live (h : Refines bus ledger) {subscription : Subscription Callback}
    (hlive : subscription ∈ ledger.live) :
    Refines (bus.unsubscribe subscription.handle)
      (ledger.retire fun other ↦ other.handle = subscription.handle) := by
  obtain ⟨address, hevent, hclosure⟩ := h.live_closure subscription hlive
  simp only [ServiceBus.unsubscribe, hclosure]
  apply h.retire hevent
  intro other hother
  rw [decide_eq_true_iff]
  constructor
  · intro heq
    rw [h.eq_of_handle_eq hother hlive heq]
    exact ⟨rfl, rfl⟩
  · rintro ⟨hname, heq⟩
    rw [h.eq_of_listener_eq hother hlive hname heq]

/-- A dead handle whose listener set has no use for it changes nothing. -/
theorem unsubscribe_dead (h : Refines bus ledger) {handle : ℕ}
    (hquiet : ∀ closure : Unsubscribe Callback, bus.handles[handle]? = some closure →
      bus.listeners closure.event = none ∨
        bus.listeners closure.event = some closure.set ∧
          closure.listener ∉ bus.sets closure.set) : bus.unsubscribe handle = bus := by
  unfold ServiceBus.unsubscribe
  cases hclosure : bus.handles[handle]? with
  | none => rfl
  | some closure =>
    rcases hquiet closure hclosure with hnone | ⟨hsome, hmem⟩
    · have hnil : bus.sets closure.set = [] :=
        h.sound.sets_eq_nil_of_stale hclosure (by simp [hnone])
      exact h.sound.deleteFrom_of_not_mem (by simp [hnil]) (.inr hnone)
    · exact h.sound.deleteFrom_of_not_mem hmem (.inl hsome)

theorem off (h : Refines bus ledger) {event : JsString} {cb : Callback}
    (hplain : ∀ subscription ∈ ledger.subscribers event,
      subscription.cb = cb → subscription.once = false) :
    Refines (bus.off event cb) (ledger.retire fun subscription ↦
      subscription.event = event && subscription.cb = cb) := by
  unfold ServiceBus.off
  cases hevent : bus.listeners event with
  | none =>
    rw [Ledger.retire_none]
    · exact h
    · intro subscription hmem
      have hnone := h.mem_current.mpr ⟨subscription, hmem, rfl, rfl⟩
      by_contra hdies
      simp only [Bool.not_eq_false, Bool.and_eq_true, decide_eq_true_eq] at hdies
      rw [hdies.1, ServiceBus.current_of_none hevent] at hnone
      cases hnone
  | some address =>
    apply h.retire hevent
    intro subscription hmem
    rw [Bool.and_eq_true, decide_eq_true_eq, decide_eq_true_eq,
      Subscription.listener_eq_callback]
    constructor
    · rintro ⟨hname, hcb⟩
      exact ⟨hname, hplain subscription (Ledger.mem_subscribers.mpr ⟨hmem, hname⟩) hcb, hcb⟩
    · rintro ⟨hname, _, hcb⟩
      exact ⟨hname, hcb⟩

/-- Firing a list of live subscriptions ends its one-shot members. -/
theorem foldl_invoke (h : Refines bus ledger) {pending : List (Subscription Callback)}
    (hlive : ∀ subscription ∈ pending, subscription ∈ ledger.live)
    (hnodup : (pending.map Subscription.handle).Nodup) :
    Refines ((pending.map Subscription.listener).foldl ServiceBus.invoke bus)
      (ledger.retire fun subscription ↦
        pending.any fun fired ↦ fired.once && subscription.handle = fired.handle) := by
  induction pending generalizing bus ledger with
  | nil =>
    rw [Ledger.retire_none ledger (by simp)]
    exact h
  | cons fired rest ih =>
    rw [List.map_cons, List.nodup_cons] at hnodup
    have hfired : fired ∈ ledger.live := hlive fired List.mem_cons_self
    have hrest : ∀ subscription ∈ rest, subscription ∈ ledger.live :=
      fun subscription hmem ↦ hlive subscription (List.mem_cons_of_mem _ hmem)
    rw [List.map_cons, List.foldl_cons]
    cases honce : fired.once with
    | false =>
      have hstep : bus.invoke fired.listener = bus := by
        simp [Subscription.listener, honce, ServiceBus.invoke]
      rw [hstep]
      simpa [honce] using ih h hrest hnodup.2
    | true =>
      have hstep : bus.invoke fired.listener = bus.unsubscribe fired.handle := by
        simp [Subscription.listener, honce, ServiceBus.invoke]
      have hstill : ∀ subscription ∈ rest, subscription ∈
          (ledger.retire fun other ↦ other.handle = fired.handle).live := by
        intro subscription hmem
        have hne : subscription.handle ≠ fired.handle := fun heq ↦
          hnodup.1 (heq ▸ List.mem_map_of_mem hmem)
        simp [Ledger.retire, hrest subscription hmem, hne]
      have hdone := ih (h.unsubscribe_live hfired) hstill hnodup.2
      rw [Ledger.retire_retire] at hdone
      rw [hstep]
      simpa [honce] using hdone

theorem emit (h : Refines bus ledger) (event : JsString) :
    Refines (bus.emit event).1 (ledger.retire fun subscription ↦
      subscription.event = event && subscription.once) := by
  have hlive : ∀ subscription ∈ ledger.subscribers event, subscription ∈ ledger.live :=
    fun subscription hmem ↦ (Ledger.mem_subscribers.mp hmem).1
  have hnodup : ((ledger.subscribers event).map Subscription.handle).Nodup :=
    h.handles_nodup.sublist (List.filter_sublist.map Subscription.handle)
  have hfired := h.foldl_invoke hlive hnodup
  rw [← h.current_eq] at hfired
  rw [Ledger.retire_congr]
  · exact hfired
  · intro subscription hmem
    rw [Bool.eq_iff_iff, List.any_eq_true]
    simp only [Bool.and_eq_true, decide_eq_true_eq, Ledger.mem_subscribers]
    constructor
    · rintro ⟨hname, honce⟩
      exact ⟨subscription, ⟨hmem, hname⟩, honce, rfl⟩
    · rintro ⟨fired, ⟨hfired, hname⟩, honce, heq⟩
      rw [h.eq_of_handle_eq hmem hfired heq]
      exact ⟨hname, honce⟩

theorem independent (h : Refines bus ledger) (event : JsString) :
    (bus.emit event).2 = (ledger.subscribers event).map Subscription.cb := by
  simp only [ServiceBus.emit, h.current_eq, List.map_map]
  congr 1
  funext subscription
  exact subscription.target_listener

end Refines

/-! ## Programs over the subscription interface -/

/-- One call of the interface. `call` runs a previously returned handle. -/
inductive BusOp (Callback : Type*)
  | on (event : JsString) (cb : Callback)
  | once (event : JsString) (cb : Callback)
  | off (event : JsString) (cb : Callback)
  | emit (event : JsString)
  | call (handle : ℕ)
  deriving DecidableEq, Repr

variable [DecidableEq Callback]

def ServiceBus.perform (bus : ServiceBus Callback Value) : BusOp Callback → ServiceBus Callback Value
  | .on event cb => bus.on event (.callback cb)
  | .once event cb => bus.once event cb
  | .off event cb => bus.off event cb
  | .emit event => (bus.emit event).1
  | .call handle => bus.unsubscribe handle

/-- What each call means for the live subscriptions. -/
def Ledger.perform (ledger : Ledger Callback) : BusOp Callback → Ledger Callback
  | .on event cb => ledger.subscribe event cb false
  | .once event cb => ledger.subscribe event cb true
  | .off event cb => ledger.retire fun subscription ↦
      subscription.event = event && subscription.cb = cb
  | .emit event => ledger.retire fun subscription ↦
      subscription.event = event && subscription.once
  | .call handle => ledger.retire fun subscription ↦ subscription.handle = handle

/-- The bus and the ledger perform the same program. -/
def subscriptionStep (pair : ServiceBus Callback Value × Ledger Callback) (op : BusOp Callback) :
    Option (ServiceBus Callback Value × Ledger Callback) :=
  some (pair.1.perform op, pair.2.perform op)

/-- Whatever event were emitted now, exactly its live subscriptions would be served, in the order
in which they were made. -/
def Independent (pair : ServiceBus Callback Value × Ledger Callback) : Prop :=
  ∀ event, (pair.1.emit event).2 = (pair.2.subscribers event).map Subscription.cb

/-- The step does not take one of the three ways in which subscriptions interfere. -/
def Undisturbed (pair : ServiceBus Callback Value × Ledger Callback) : BusOp Callback → Prop
  | .on event cb => ∀ subscription ∈ pair.2.subscribers event,
      subscription.cb = cb → subscription.once = true
  | .once _ _ => True
  | .off event cb => ∀ subscription ∈ pair.2.subscribers event,
      subscription.cb = cb → subscription.once = false
  | .emit _ => True
  | .call handle => (∃ subscription ∈ pair.2.live, subscription.handle = handle) ∨
      ∀ closure : Unsubscribe Callback, pair.1.handles[handle]? = some closure →
        pair.1.listeners closure.event = none ∨
          pair.1.listeners closure.event = some closure.set ∧
            closure.listener ∉ pair.1.sets closure.set

theorem refines_step {pair : ServiceBus Callback Value × Ledger Callback} {op : BusOp Callback}
    (h : Refines pair.1 pair.2) (hcalm : Undisturbed pair op) :
    Refines (pair.1.perform op) (pair.2.perform op) := by
  obtain ⟨bus, ledger⟩ := pair
  cases op with
  | on event cb =>
    refine h.subscribe rfl ?_
    rw [h.mem_current]
    rintro ⟨subscription, hlive, hname, hlistener⟩
    rw [Subscription.listener_eq_callback] at hlistener
    have honce := hcalm subscription (Ledger.mem_subscribers.mpr ⟨hlive, hname⟩) hlistener.2
    simp [hlistener.1] at honce
  | once event cb =>
    apply h.subscribe (by simp [Subscription.listener, h.length_handles])
    rw [h.mem_current]
    rintro ⟨subscription, hlive, _, hlistener⟩
    rw [Subscription.listener_eq_wrapper, h.length_handles] at hlistener
    exact (h.handle_lt subscription hlive).ne hlistener.2.1
  | off event cb => exact h.off hcalm
  | emit event => exact h.emit event
  | call handle =>
    by_cases hlive : ∃ subscription ∈ ledger.live, subscription.handle = handle
    · obtain ⟨subscription, hmem, rfl⟩ := hlive
      exact h.unsubscribe_live hmem
    · have hbus : bus.perform (.call handle) = bus :=
        h.unsubscribe_dead (hcalm.resolve_left hlive)
      have hledger : ledger.perform (.call handle) = ledger := by
        apply Ledger.retire_none
        intro subscription hmem
        exact decide_eq_false fun heq ↦ hlive ⟨subscription, hmem, heq⟩
      rw [hbus, hledger]
      exact h

/-! ### The three ways to interfere -/

theorem length_current_of_independent {pair : ServiceBus Callback Value × Ledger Callback}
    (h : Independent pair) (event : JsString) :
    (pair.1.current event).length = (pair.2.subscribers event).length := by
  simpa [ServiceBus.emit] using congrArg List.length (h event)

/-- Subscribing a live callback again is absorbed by the listener set. -/
theorem not_independent_on {bus : ServiceBus Callback Value} {ledger : Ledger Callback}
    (h : Refines bus ledger) {event : JsString} {subscription : Subscription Callback}
    (hmem : subscription ∈ ledger.subscribers event) (honce : subscription.once = false) :
    ¬ Independent (bus.on event (.callback subscription.cb),
      ledger.subscribe event subscription.cb false) := by
  intro hindependent
  obtain ⟨hlive, hname⟩ := Ledger.mem_subscribers.mp hmem
  have hserved : Listener.callback subscription.cb ∈ bus.current event :=
    h.mem_current.mpr ⟨subscription, hlive, hname, Subscription.listener_eq_callback.mpr ⟨honce, rfl⟩⟩
  have hlength := length_current_of_independent hindependent event
  simp only at hlength
  rw [h.sound.addressed.current_on, if_pos rfl, ServiceBus.addTo, if_pos hserved, h.current_eq,
    Ledger.subscribers_subscribe, if_pos rfl, List.length_map, List.length_append] at hlength
  simp at hlength

/-- `off` does not find a one-shot subscription, whose set holds the wrapper. -/
theorem not_independent_off {bus : ServiceBus Callback Value} {ledger : Ledger Callback}
    (h : Refines bus ledger) {event : JsString} {subscription : Subscription Callback}
    (hmem : subscription ∈ ledger.subscribers event) (honce : subscription.once = true) :
    ¬ Independent (bus.off event subscription.cb,
      ledger.perform (.off event subscription.cb)) := by
  intro hindependent
  obtain ⟨hlive, rfl⟩ := Ledger.mem_subscribers.mp hmem
  obtain ⟨address, hevent, _⟩ := h.live_closure subscription hlive
  have hserved : subscription.listener ∈ bus.current subscription.event :=
    h.mem_current.mpr ⟨subscription, hlive, rfl, rfl⟩
  have hne : subscription.listener ≠ .callback subscription.cb := by
    rw [Ne, Subscription.listener_eq_callback, honce]
    simp
  have hfires : subscription.cb ∈ ((bus.off subscription.event subscription.cb).emit
      subscription.event).2 := by
    simp only [ServiceBus.emit, ServiceBus.off, hevent]
    rw [h.sound.addressed.current_deleteFrom hevent, if_pos rfl]
    exact List.mem_map.mpr ⟨_, (List.mem_erase_of_ne hne).mpr hserved,
      subscription.target_listener⟩
  rw [hindependent, Ledger.perform, Ledger.subscribers_retire] at hfires
  obtain ⟨other, hother, hcb⟩ := List.mem_map.mp hfires
  obtain ⟨hother, hstays⟩ := List.mem_filter.mp hother
  simp [(Ledger.mem_subscribers.mp hother).2, hcb] at hstays

/-- A dead handle empties the event, or takes away a listener, of live subscriptions. -/
theorem not_independent_call {bus : ServiceBus Callback Value} {ledger : Ledger Callback}
    (h : Refines bus ledger) {handle : ℕ} {closure : Unsubscribe Callback}
    (hdead : ∀ subscription ∈ ledger.live, subscription.handle ≠ handle)
    (hclosure : bus.handles[handle]? = some closure)
    (hserves : bus.listeners closure.event ≠ none)
    (hloud : bus.listeners closure.event = some closure.set →
      closure.listener ∈ bus.sets closure.set) :
    ¬ Independent (bus.unsubscribe handle, ledger.perform (.call handle)) := by
  intro hindependent
  obtain ⟨address, hevent⟩ := Option.ne_none_iff_exists'.mp hserves
  have hledger : ledger.perform (.call handle) = ledger :=
    Ledger.retire_none ledger fun subscription hmem ↦ decide_eq_false (hdead subscription hmem)
  have hlength := length_current_of_independent hindependent closure.event
  have hpositive : 0 < (bus.current closure.event).length := by
    rw [ServiceBus.current_of_some hevent, List.length_pos_iff]
    exact h.sound.nonempty closure.event address hevent
  simp only [hledger, ServiceBus.unsubscribe, hclosure] at hlength
  rw [← List.length_map Subscription.listener, ← h.current_eq] at hlength
  by_cases hcurrent : address = closure.set
  · rw [hcurrent] at hevent
    have hmem := hloud hevent
    rw [h.sound.addressed.current_deleteFrom hevent, if_pos rfl, ServiceBus.current_of_some hevent,
      List.length_erase_of_mem hmem] at hlength
    rw [ServiceBus.current_of_some hevent] at hpositive
    omega
  · have hstale : bus.listeners closure.event ≠ some closure.set := by
      rw [hevent]
      exact fun heq ↦ hcurrent (Option.some.inj heq)
    have hnil := h.sound.sets_eq_nil_of_stale hclosure hstale
    have hgone : (bus.deleteFrom closure.event closure.set closure.listener).current
        closure.event = [] := by
      simp [ServiceBus.deleteFrom, ServiceBus.current, hnil]
    rw [hgone, List.length_nil] at hlength
    omega

theorem not_independent_step {pair : ServiceBus Callback Value × Ledger Callback}
    {op : BusOp Callback} (h : Refines pair.1 pair.2) (hdisturbed : ¬ Undisturbed pair op) :
    ¬ Independent (pair.1.perform op, pair.2.perform op) := by
  obtain ⟨bus, ledger⟩ := pair
  cases op with
  | on event cb =>
    simp only [Undisturbed, not_forall] at hdisturbed
    obtain ⟨subscription, hmem, rfl, honce⟩ := hdisturbed
    exact not_independent_on h hmem (Bool.eq_false_iff.mpr honce)
  | once event cb => exact absurd trivial hdisturbed
  | off event cb =>
    simp only [Undisturbed, not_forall] at hdisturbed
    obtain ⟨subscription, hmem, rfl, honce⟩ := hdisturbed
    exact not_independent_off h hmem (Bool.not_eq_false _ ▸ honce)
  | emit event => exact absurd trivial hdisturbed
  | call handle =>
    simp only [Undisturbed, not_or, not_forall] at hdisturbed
    obtain ⟨hdead, closure, hclosure, hserves, hloud⟩ := hdisturbed
    refine not_independent_call h (fun subscription hmem heq ↦ hdead ⟨subscription, hmem, heq⟩)
      hclosure hserves fun hcurrent ↦ ?_
    by_contra hmem
    exact hloud ⟨hcurrent, hmem⟩

/-- Subscriptions are independent throughout a program exactly when no step of it interferes. -/
theorem subscriptions_independent_iff (program : List (BusOp Callback)) :
    Throughout subscriptionStep Independent
        ((createServiceBus : ServiceBus Callback Value), (Ledger.empty : Ledger Callback)) program ↔
      StepsMeet subscriptionStep Undisturbed
        ((createServiceBus : ServiceBus Callback Value), (Ledger.empty : Ledger Callback)) program :=
  @throughout_iff _ _ subscriptionStep Undisturbed (fun pair ↦ Refines pair.1 pair.2) Independent
    (fun _ _ _ hrefines hcalm hstep ↦ by
      cases hstep
      exact refines_step hrefines hcalm)
    (fun _ _ _ hrefines hdisturbed hstep ↦ by
      cases hstep
      exact not_independent_step hrefines hdisturbed)
    (fun _ hrefines ↦ hrefines.independent) _ refines_create program

/-- Listener 0 unsubscribes, listener 1 subscribes, and the old handle is called once more: the
second call removes listener 1, whose subscription is live. -/
theorem second_call_disturbs :
    ¬ Throughout subscriptionStep Independent
        ((createServiceBus : ServiceBus ℕ Unit), (Ledger.empty : Ledger ℕ))
        [.on (js "tick") 0, .call 0, .on (js "tick") 1, .call 0] := by
  intro h
  have hlast := h.last rfl (js "tick")
  revert hlast
  decide

end Cordyceps.Core
