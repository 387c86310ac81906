import Cordyceps.Core.Subscriptions

/-!
# What an operation does to the live listeners

In every state that a program can bring the bus into, a wrapper waits in the one set
that its handle closes over. So an `emit` takes the one-shot listeners of its event
away and leaves all others, whatever handles have been called before.
-/

namespace Cordyceps.Core

open Foundations

variable {Callback Value : Type*}

/-- The listener goes when it fires. -/
def Listener.oneShot : Listener Callback → Bool
  | .callback _ => false
  | .wrapper _ _ => true

namespace ServiceBus

/-- What every operation keeps, also a call of a handle that is out of date. -/
structure Wired (bus : ServiceBus Callback Value) : Prop where
  addressed : bus.Addressed
  nodup : ∀ address, (bus.sets address).Nodup
  wrapper : ∀ address unsub cb, Listener.wrapper unsub cb ∈ bus.sets address →
    ∃ event, bus.handles[unsub]? = some ⟨event, address, .wrapper unsub cb⟩ ∧
      ∀ name, bus.listeners name = some address → name = event

theorem wired_create : (createServiceBus : ServiceBus Callback Value).Wired := by
  refine ⟨⟨?_, ?_⟩, ?_, ?_⟩ <;> simp [createServiceBus]

namespace Wired

variable {bus : ServiceBus Callback Value}

theorem nodup_current (h : bus.Wired) (event : JsString) : (bus.current event).Nodup := by
  unfold current
  split
  · exact List.nodup_nil
  · exact h.nodup _

variable [DecidableEq Callback]

theorem mem_addTo {listener other : Listener Callback} {members : List (Listener Callback)} :
    other ∈ addTo listener members ↔ other ∈ members ∨ other = listener := by
  unfold addTo
  split
  · rename_i hmem
    exact ⟨.inl, fun h ↦ h.elim id fun heq ↦ heq ▸ hmem⟩
  · simp

theorem on (h : bus.Wired) {event : JsString} {listener : Listener Callback}
    (hwrapper : ∀ unsub cb, listener = .wrapper unsub cb → unsub = bus.handles.length) :
    (bus.on event listener).Wired := by
  refine ⟨h.addressed.on event listener, ?_, ?_⟩
  all_goals obtain ⟨address, next, _, _, hevent, heq⟩ := h.addressed.on_eq event listener
  · intro other
    rw [heq]
    simp only [Function.update_apply]
    split
    · exact nodup_addTo listener (h.nodup_current event)
    · exact h.nodup other
  · intro other unsub cb hmem
    rw [heq] at hmem ⊢
    have hserves : ∀ name, Function.update bus.listeners event (some address) name = some address →
        name = event := by
      intro name hname
      by_contra hne
      rw [Function.update_of_ne hne] at hname
      exact h.addressed.ne_of_fresh hevent hname hne rfl
    -- a wrapper was in its set before, or it is the new listener
    by_cases haddress : other = address
    · subst haddress
      simp only [Function.update_self] at hmem
      rcases mem_addTo.mp hmem with hold | rfl
      · rcases hevent with hevent | ⟨hnone, _⟩
        · rw [current_of_some hevent] at hold
          obtain ⟨name, hclosure, hname⟩ := h.wrapper other unsub cb hold
          refine ⟨name, ?_, ?_⟩
          · exact getElem?_concat_eq_some.mpr (.inl hclosure)
          · intro serves hserve
            rw [hserves serves hserve]
            exact hname event hevent
        · rw [current_of_none hnone] at hold
          cases hold
      · refine ⟨event, ?_, hserves⟩
        exact getElem?_concat_eq_some.mpr (.inr ⟨hwrapper unsub cb rfl, rfl⟩)
    · simp only [Function.update_of_ne haddress] at hmem
      obtain ⟨name, hclosure, hname⟩ := h.wrapper other unsub cb hmem
      refine ⟨name, ?_, ?_⟩
      · exact getElem?_concat_eq_some.mpr (.inl hclosure)
      · intro serves hserve
        simp only [Function.update_apply] at hserve
        split at hserve
        · exact absurd (Option.some.inj hserve).symm haddress
        · exact hname serves hserve

theorem deleteFrom (h : bus.Wired) (event : JsString) (address : ℕ)
    (listener : Listener Callback) : (bus.deleteFrom event address listener).Wired := by
  refine ⟨h.addressed.deleteFrom event address listener, ?_, ?_⟩
  · intro other
    simp only [ServiceBus.deleteFrom, Function.update_apply]
    split
    · exact (h.nodup address).erase listener
    · exact h.nodup other
  · intro other unsub cb hmem
    have hold : Listener.wrapper unsub cb ∈ bus.sets other := by
      simp only [ServiceBus.deleteFrom, Function.update_apply] at hmem
      split at hmem
      · rename_i heq
        exact heq ▸ List.mem_of_mem_erase hmem
      · exact hmem
    obtain ⟨name, hclosure, hname⟩ := h.wrapper other unsub cb hold
    exact ⟨name, hclosure, fun serves hserve ↦
      hname serves (Addressed.listeners_deleteFrom hserve).1⟩

theorem unsubscribe (h : bus.Wired) (handle : ℕ) : (bus.unsubscribe handle).Wired := by
  unfold ServiceBus.unsubscribe
  split
  · exact h
  · exact h.deleteFrom _ _ _

theorem foldl_invoke (h : bus.Wired) (pending : List (Listener Callback)) :
    (pending.foldl invoke bus).Wired := by
  induction pending generalizing bus with
  | nil => exact h
  | cons listener rest ih =>
    apply ih
    cases listener with
    | callback cb => exact h
    | wrapper unsub cb => exact h.unsubscribe unsub

theorem perform (h : bus.Wired) (op : BusOp Callback) : (bus.perform op).Wired := by
  cases op with
  | on event cb => exact h.on (by simp)
  | once event cb => exact h.on (by simp)
  | off event cb =>
    change (bus.off event cb).Wired
    unfold ServiceBus.off
    split
    · exact h
    · exact h.deleteFrom _ _ _
  | emit event => exact h.foldl_invoke _
  | call handle => exact h.unsubscribe handle

/-! ## One-shot listeners -/

/-- A wrapper that waits for an event takes itself out of its set. -/
theorem current_invoke (h : bus.Wired) {event : JsString} {listener : Listener Callback}
    (hmem : listener ∈ bus.current event) (name : JsString) :
    (bus.invoke listener).current name =
      if name = event ∧ listener.oneShot then (bus.current event).erase listener
      else bus.current name := by
  cases listener with
  | callback cb => simp [invoke, Listener.oneShot]
  | wrapper unsub cb =>
    cases hevent : bus.listeners event with
    | none =>
      rw [current_of_none hevent] at hmem
      cases hmem
    | some address =>
      obtain ⟨other, hclosure, hserves⟩ := h.wrapper address unsub cb (current_of_some hevent ▸ hmem)
      obtain rfl := hserves event hevent
      simp only [invoke, ServiceBus.unsubscribe, hclosure, Listener.oneShot, and_true]
      exact h.addressed.current_deleteFrom hevent name _

theorem current_foldl_invoke (h : bus.Wired) {event : JsString}
    {pending : List (Listener Callback)} (hnodup : pending.Nodup)
    (hpending : ∀ listener ∈ pending, listener ∈ bus.current event) (name : JsString) :
    (pending.foldl invoke bus).current name =
      if name = event then
        (bus.current event).filter fun listener ↦ ¬ (listener ∈ pending ∧ listener.oneShot)
      else bus.current name := by
  induction pending generalizing bus with
  | nil =>
    split
    · simp_all
    · rfl
  | cons listener rest ih =>
    obtain ⟨hnew, hrest⟩ := List.nodup_cons.mp hnodup
    obtain ⟨hlistener, hlater⟩ := List.forall_mem_cons.mp hpending
    have hinvoke := h.current_invoke hlistener
    have hwired : (bus.invoke listener).Wired := h.foldl_invoke [listener]
    have hstill : ∀ other ∈ rest, other ∈ (bus.invoke listener).current event := by
      intro other hother
      rw [hinvoke]
      split
      · have hne : other ≠ listener := fun heq ↦ hnew (heq ▸ hother)
        exact (List.mem_erase_of_ne hne).mpr (hlater other hother)
      · exact hlater other hother
    rw [List.foldl_cons, ih hwired hrest hstill, hinvoke, hinvoke]
    by_cases hname : name = event
    · subst hname
      cases hshot : listener.oneShot with
      | false =>
        simp only [true_and, Bool.false_eq_true, if_false, if_true]
        apply List.filter_congr
        intro other _
        by_cases hother : other = listener
        · subst hother
          simp [hshot]
        · simp [hother]
      | true =>
        simp only [true_and, if_true]
        rw [(h.nodup_current name).erase_eq_filter, List.filter_filter]
        apply List.filter_congr
        intro other _
        by_cases hother : other = listener
        · subst hother
          simp [hshot]
        · simp [hother]
    · simp [hname]

/-- An `emit` ends the one-shot listeners of its event and no other listener. -/
theorem current_emit (h : bus.Wired) (event name : JsString) :
    (bus.emit event).1.current name =
      if name = event then (bus.current event).filter fun listener ↦ !listener.oneShot
      else bus.current name := by
  have hfold := h.current_foldl_invoke (h.nodup_current event) (fun _ hmem ↦ hmem) name
  rw [emit, hfold]
  split
  · apply List.filter_congr
    intro listener hmem
    simp [hmem]
  · rfl

end Wired

end ServiceBus

end Cordyceps.Core
