import Cordyceps.Core.LiveListeners

/-!
# Listeners that call back into the bus

`emit` of `core/bus.ts` runs the callbacks of its snapshot one after the other, and a callback may
subscribe, unsubscribe and emit before it returns. A session keeps, for each running emit, what is
left of its snapshot. A wrapper of `once` leaves its listener set when it is called, but not the
snapshots that hold it already: it fires a second time exactly if an event is emitted while an
outer emit still has one of the event's one-shot listeners ahead.
-/

namespace Cordyceps.Core

open Foundations Foundations.StepMachine

variable {Callback Value : Type*}

/-! ## Sessions -/

/-- The bus in the middle of callbacks. `stack` holds what the running emits have yet to call, the
innermost one first; `calls` are the listeners called so far. -/
structure Session (Callback Value : Type*) where
  bus : ServiceBus Callback Value
  stack : List (List (Listener Callback))
  calls : List (Listener Callback)

/-- What the program does next, or the callback that is running. `finish` is the return of a
callback, or its end by an error that the bus catches. -/
inductive SessionStep (Callback Value : Type*)
  | op (op : BusOp Callback)
  | set (key : JsString) (value : Value)
  | delete (key : JsString)
  | finish

namespace Session

def start : Session Callback Value := ⟨createServiceBus, [], []⟩

variable [DecidableEq Callback]

/-- A listener is called, with `pending` left of its snapshot. -/
def call (listener : Listener Callback) (pending : List (Listener Callback))
    (below : List (List (Listener Callback))) (session : Session Callback Value) :
    Session Callback Value :=
  ⟨session.bus.invoke listener, pending :: below, session.calls ++ [listener]⟩

/-- An emit calls the first listener of its snapshot; a callback that returns gives way to the next
one, or the emit returns to its caller. -/
def step (session : Session Callback Value) :
    SessionStep Callback Value → Option (Session Callback Value)
  | .op (.emit event) =>
    match session.bus.current event with
    | [] => some session
    | listener :: pending => some (session.call listener pending session.stack)
  | .op op => some { session with bus := session.bus.perform op }
  | .set key value => some { session with bus := session.bus.set key value }
  | .delete key => some { session with bus := session.bus.delete key }
  | .finish =>
    match session.stack with
    | [] => none
    | [] :: below => some { session with stack := below }
    | (listener :: pending) :: below => some (session.call listener pending below)

end Session

/-- The call of `once` that the listener was made for, as the position of its handle. -/
def Listener.onceHandle : Listener Callback → Option ℕ
  | .callback _ => none
  | .wrapper unsub _ => some unsub

/-- How often the listener of a call of `once` is among some listeners. -/
def firings (handle : ℕ) (listeners : List (Listener Callback)) : ℕ :=
  listeners.countP fun listener ↦ listener.onceHandle = some handle

@[simp]
theorem firings_nil (handle : ℕ) : firings handle ([] : List (Listener Callback)) = 0 := rfl

@[simp]
theorem firings_append (handle : ℕ) (first second : List (Listener Callback)) :
    firings handle (first ++ second) = firings handle first + firings handle second :=
  List.countP_append

theorem firings_cons (handle : ℕ) (listener : Listener Callback)
    (listeners : List (Listener Callback)) :
    firings handle (listener :: listeners) =
      firings handle [listener] + firings handle listeners := by
  rw [← List.singleton_append, firings_append]

theorem exists_wrapper_of_firings {handle : ℕ} {listeners : List (Listener Callback)}
    (h : 0 < firings handle listeners) : ∃ cb, Listener.wrapper handle cb ∈ listeners := by
  obtain ⟨listener, hmem, hhandle⟩ := List.countP_pos_iff.mp h
  cases listener with
  | callback cb => simp [Listener.onceHandle] at hhandle
  | wrapper unsub cb =>
    simp only [Listener.onceHandle, Option.some.injEq, decide_eq_true_eq] at hhandle
    exact ⟨cb, hhandle ▸ hmem⟩

namespace Session

/-- No call of `once` has had its callback invoked more than once. -/
def AtMostOnce (session : Session Callback Value) : Prop :=
  ∀ handle, firings handle session.calls ≤ 1

/-- How often the callback of a call of `once` has been invoked, or will be by running emits. -/
def planned (handle : ℕ) (session : Session Callback Value) : ℕ :=
  firings handle session.calls + firings handle session.stack.flatten

/-- No one-shot listener of the event is still ahead in a running emit. -/
def Unqueued (session : Session Callback Value) (event : JsString) : Prop :=
  ∀ handle, firings handle (session.bus.current event) = 0 ∨
    firings handle session.stack.flatten = 0

/-- The emits of a session meet the condition on the state that they start in. -/
def EmitsUnqueued (session : Session Callback Value) : SessionStep Callback Value → Prop
  | .op (.emit event) => session.Unqueued event
  | .op _ | .set _ _ | .delete _ | .finish => True

variable [DecidableEq Callback]

/-! ## What a step does -/

/-- A step starts an emit, lets one go on or return, or works on the bus. -/
inductive Turn (session : Session Callback Value) :
    SessionStep Callback Value → Session Callback Value → Prop
  | emit {name : JsString} {listener : Listener Callback} {pending : List (Listener Callback)}
      (hcurrent : session.bus.current name = listener :: pending) :
      Turn session (.op (.emit name)) (session.call listener pending session.stack)
  | silent {name : JsString} (hcurrent : session.bus.current name = []) :
      Turn session (.op (.emit name)) session
  | perform {op : BusOp Callback} (hop : ∀ name, op ≠ .emit name) :
      Turn session (.op op) { session with bus := session.bus.perform op }
  | state {event : SessionStep Callback Value} (hevent : ∀ op, event ≠ .op op)
      (state : JsMap JsString Value) :
      Turn session event { session with bus := { session.bus with state := state } }
  | next {listener : Listener Callback} {pending : List (Listener Callback)}
      {below : List (List (Listener Callback))}
      (hstack : session.stack = (listener :: pending) :: below) :
      Turn session .finish (session.call listener pending below)
  | leave {below : List (List (Listener Callback))} (hstack : session.stack = [] :: below) :
      Turn session .finish { session with stack := below }

theorem turn_of_step {session next : Session Callback Value} {event : SessionStep Callback Value}
    (h : session.step event = some next) : session.Turn event next := by
  cases event with
  | op op =>
    cases op with
    | emit name =>
      rw [step] at h
      cases hcurrent : session.bus.current name with
      | nil =>
        rw [hcurrent] at h
        cases h
        exact .silent hcurrent
      | cons listener pending =>
        rw [hcurrent] at h
        cases h
        exact .emit hcurrent
    | on name cb =>
      cases h
      exact .perform fun _ hop ↦ by cases hop
    | once name cb =>
      cases h
      exact .perform fun _ hop ↦ by cases hop
    | off name cb =>
      cases h
      exact .perform fun _ hop ↦ by cases hop
    | call handle =>
      cases h
      exact .perform fun _ hop ↦ by cases hop
  | set key value =>
    cases h
    exact .state (fun _ hop ↦ by cases hop) _
  | delete key =>
    cases h
    exact .state (fun _ hop ↦ by cases hop) _
  | finish =>
    rw [step] at h
    cases hstack : session.stack with
    | nil =>
      rw [hstack] at h
      cases h
    | cons frame below =>
      cases frame with
      | nil =>
        rw [hstack] at h
        cases h
        exact .leave hstack
      | cons listener pending =>
        rw [hstack] at h
        cases h
        exact .next hstack

/-- An emit whose callbacks return at once is the `emit` of the bus. -/
theorem run_emit (event : JsString) (session : Session Callback Value) :
    run step session
        (.op (.emit event) :: List.replicate (session.bus.current event).length .finish) =
      some ⟨(session.bus.emit event).1, session.stack,
        session.calls ++ session.bus.current event⟩ := by
  have hrest : ∀ pending (bus : ServiceBus Callback Value) below calls,
      run step (⟨bus, pending :: below, calls⟩ : Session Callback Value)
          (List.replicate (pending.length + 1) .finish) =
        some ⟨pending.foldl ServiceBus.invoke bus, below, calls ++ pending⟩ := by
    intro pending
    induction pending with
    | nil =>
      intro bus below calls
      simp [step]
    | cons listener pending ih =>
      intro bus below calls
      rw [List.length_cons, List.replicate_succ, run_cons, step, Option.bind_some, call, ih,
        List.append_assoc]
      rfl
  rw [run_cons, step, ServiceBus.emit]
  cases session.bus.current event with
  | nil => simp
  | cons listener pending =>
    simp only [Option.bind_some, call, List.length_cons]
    rw [hrest, List.append_assoc]
    rfl

theorem planned_call (handle : ℕ) (listener : Listener Callback)
    (pending : List (Listener Callback)) (below : List (List (Listener Callback)))
    (session : Session Callback Value) :
    planned handle (session.call listener pending below) =
      firings handle session.calls + firings handle (listener :: pending) +
        firings handle below.flatten := by
  simp only [planned, call, firings_append, List.flatten_cons]
  rw [firings_cons handle listener pending]
  omega

/-- The snapshot that a step starts an emit with. -/
def snapshot (session : Session Callback Value) :
    SessionStep Callback Value → List (Listener Callback)
  | .op (.emit name) => session.bus.current name
  | .op _ | .set _ _ | .delete _ | .finish => []

/-- An emit adds its snapshot to what is planned; nothing else changes that. -/
theorem planned_step {session next : Session Callback Value} {event : SessionStep Callback Value}
    (h : session.Turn event next) (handle : ℕ) :
    planned handle next = planned handle session + firings handle (session.snapshot event) := by
  cases h with
  | @emit name listener pending hcurrent =>
    rw [planned_call, planned, snapshot, hcurrent]
    omega
  | silent hcurrent => rw [snapshot, hcurrent, firings_nil, Nat.add_zero]
  | @perform op hop =>
    cases op with
    | emit name => exact absurd rfl (hop name)
    | on name cb => rfl
    | once name cb => rfl
    | off name cb => rfl
    | call handle => rfl
  | @state event hevent state =>
    cases event with
    | op op => exact absurd rfl (hevent op)
    | set key value => rfl
    | delete key => rfl
    | finish => rfl
  | next hstack =>
    rw [planned_call, planned, hstack, List.flatten_cons, firings_append]
    exact (Nat.add_assoc _ _ _).trans (Nat.add_zero _).symm
  | leave hstack => simp [planned, hstack, snapshot]

/-! ## Wrappers and listener sets -/

end Session

namespace ServiceBus

variable {bus : ServiceBus Callback Value}

theorem exists_set_of_mem_current {event : JsString} {listener : Listener Callback}
    (h : listener ∈ bus.current event) :
    ∃ address, bus.listeners event = some address ∧ listener ∈ bus.sets address := by
  cases hevent : bus.listeners event with
  | none =>
    rw [current_of_none hevent] at h
    cases h
  | some address =>
    rw [current_of_some hevent] at h
    exact ⟨address, rfl, h⟩

variable [DecidableEq Callback]

theorem mem_sets_on {event : JsString} {listener other : Listener Callback} {address : ℕ}
    (h : other ∈ (bus.on event listener).sets address) :
    other ∈ bus.sets address ∨ other = listener := by
  rw [on] at h
  split at h
  · simp only [Function.update_apply] at h
    split at h
    · rename_i heq
      exact heq ▸ Wired.mem_addTo.mp h
    · exact .inl h
  · simp only [Function.update_apply] at h
    split at h
    · exact .inr (by simpa [addTo] using h)
    · exact .inl h

theorem mem_sets_deleteFrom {event : JsString} {listener other : Listener Callback}
    {address address' : ℕ} (h : other ∈ (bus.deleteFrom event address listener).sets address') :
    other ∈ bus.sets address' := by
  simp only [deleteFrom, Function.update_apply] at h
  split at h
  · rename_i heq
    exact heq ▸ List.mem_of_mem_erase h
  · exact h

theorem mem_sets_unsubscribe {handle address : ℕ} {other : Listener Callback}
    (h : other ∈ (bus.unsubscribe handle).sets address) : other ∈ bus.sets address := by
  rw [unsubscribe] at h
  split at h
  · exact h
  · exact mem_sets_deleteFrom h

theorem mem_sets_invoke {address : ℕ} {listener other : Listener Callback}
    (h : other ∈ (bus.invoke listener).sets address) : other ∈ bus.sets address := by
  cases listener with
  | callback cb => exact h
  | wrapper unsub cb => exact mem_sets_unsubscribe h

theorem handles_unsubscribe (bus : ServiceBus Callback Value) (handle : ℕ) :
    (bus.unsubscribe handle).handles = bus.handles := by
  rw [unsubscribe]
  split <;> rfl

theorem handles_invoke (bus : ServiceBus Callback Value) (listener : Listener Callback) :
    (bus.invoke listener).handles = bus.handles := by
  cases listener with
  | callback cb => rfl
  | wrapper unsub cb => exact bus.handles_unsubscribe unsub

theorem length_handles_on (bus : ServiceBus Callback Value) (event : JsString)
    (listener : Listener Callback) :
    (bus.on event listener).handles.length = bus.handles.length + 1 := by
  rw [on]
  split <;> simp

/-- A wrapper that is called takes itself out of its set. -/
theorem Wired.notMem_unsubscribe (h : bus.Wired) (handle address : ℕ) (cb : Callback) :
    Listener.wrapper handle cb ∉ (bus.unsubscribe handle).sets address := by
  intro hmem
  obtain ⟨event, hclosure, _⟩ := h.wrapper address handle cb (mem_sets_unsubscribe hmem)
  rw [ServiceBus.unsubscribe, hclosure] at hmem
  simp only [ServiceBus.deleteFrom, Function.update_self] at hmem
  exact (h.nodup address).not_mem_erase hmem

/-- A call of `once` has one listener, if any, in a snapshot. -/
theorem Wired.firings_current_le (h : bus.Wired) (handle : ℕ) (event : JsString) :
    firings handle (bus.current event) ≤ 1 := by
  by_cases hnone : firings handle (bus.current event) = 0
  · omega
  obtain ⟨cb, hmem⟩ := exists_wrapper_of_firings (Nat.pos_of_ne_zero hnone)
  have hsame : ∀ listener ∈ bus.current event,
      decide (listener.onceHandle = some handle) = true ↔
        (listener == Listener.wrapper handle cb) = true := by
    intro listener hlistener
    rw [decide_eq_true_eq, beq_iff_eq]
    constructor
    · intro hhandle
      cases listener with
      | callback other => cases hhandle
      | wrapper unsub other =>
        cases hhandle
        -- both wrappers are the listener of one handle
        obtain ⟨address, _, hset⟩ := exists_set_of_mem_current hmem
        obtain ⟨address', _, hset'⟩ := exists_set_of_mem_current hlistener
        obtain ⟨_, hfirst, _⟩ := h.wrapper address handle cb hset
        obtain ⟨_, hsecond, _⟩ := h.wrapper address' handle other hset'
        rw [hfirst] at hsecond
        cases hsecond
        rfl
    · rintro rfl
      rfl
  rw [firings, List.countP_congr hsame]
  exact List.nodup_iff_count_le_one.mp (h.nodup_current event) _

end ServiceBus

/-! ## Sessions whose emits are not re-entrant on a one-shot listener -/

namespace Session

variable {session next : Session Callback Value}

/-- What emits that meet the condition keep: no call of `once` is planned twice, those to come are
not planned, and a wrapper that has been called is in no set. -/
structure Orderly (session : Session Callback Value) : Prop where
  wired : session.bus.Wired
  planned : ∀ handle, planned handle session ≤ 1
  fresh : ∀ handle, session.bus.handles.length ≤ handle → Session.planned handle session = 0
  gone : ∀ handle, 0 < firings handle session.calls →
    ∀ address cb, Listener.wrapper handle cb ∉ session.bus.sets address

theorem orderly_start : (start : Session Callback Value).Orderly where
  wired := ServiceBus.wired_create
  planned := fun _ ↦ Nat.zero_le 1
  fresh := fun _ _ ↦ rfl
  gone := by
    intro handle hfired
    cases hfired

namespace Orderly

theorem atMostOnce (h : session.Orderly) : session.AtMostOnce :=
  fun handle ↦ (Nat.le_add_right _ _).trans (h.planned handle)

/-- A bus operation that adds no wrapper but the next one. -/
theorem bus (h : session.Orderly) {bus : ServiceBus Callback Value} (hwired : bus.Wired)
    (hhandles : session.bus.handles.length ≤ bus.handles.length)
    (hsets : ∀ address handle cb, Listener.wrapper handle cb ∈ bus.sets address →
      Listener.wrapper handle cb ∈ session.bus.sets address ∨
        handle = session.bus.handles.length) :
    Orderly { session with bus := bus } where
  wired := hwired
  planned := h.planned
  fresh := fun handle hhandle ↦ h.fresh handle (hhandles.trans hhandle)
  gone := by
    intro handle hfired address cb hmem
    rcases hsets address handle cb hmem with hold | hnew
    · exact h.gone handle hfired address cb hold
    · have hnone := h.fresh handle hnew.ge
      rw [Session.planned, Nat.add_eq_zero_iff] at hnone
      exact absurd hnone.1 hfired.ne'

variable [DecidableEq Callback]

/-- A call of a listener whose snapshot is planned. -/
theorem call (h : session.Orderly) {listener : Listener Callback}
    {pending : List (Listener Callback)} {below : List (List (Listener Callback))}
    (hplanned : ∀ handle, Session.planned handle (session.call listener pending below) ≤ 1)
    (hfresh : ∀ handle, session.bus.handles.length ≤ handle →
      Session.planned handle (session.call listener pending below) = 0) :
    (session.call listener pending below).Orderly where
  wired := h.wired.foldl_invoke [listener]
  planned := hplanned
  fresh := by
    intro handle hhandle
    rw [Session.call, ServiceBus.handles_invoke] at hhandle
    exact hfresh handle hhandle
  gone := by
    intro handle hfired address cb hmem
    rw [Session.call, firings_append] at hfired
    by_cases hold : 0 < firings handle session.calls
    · exact h.gone handle hold address cb (ServiceBus.mem_sets_invoke hmem)
    · obtain ⟨other, hlistener⟩ :=
        exists_wrapper_of_firings (by omega : 0 < firings handle [listener])
      rw [← List.mem_singleton.mp hlistener] at hmem
      exact h.wired.notMem_unsubscribe handle address cb hmem

theorem perform (h : session.Orderly) (op : BusOp Callback) (hop : ∀ name, op ≠ .emit name) :
    Orderly { session with bus := session.bus.perform op } := by
  apply h.bus (h.wired.perform op)
  · cases op with
    | emit name => exact absurd rfl (hop name)
    | on name cb =>
      exact (Nat.le_succ _).trans_eq (session.bus.length_handles_on name (.callback cb)).symm
    | once name cb =>
      exact (Nat.le_succ _).trans_eq (session.bus.length_handles_on name (.wrapper _ cb)).symm
    | off name cb =>
      rw [ServiceBus.perform, ServiceBus.off]
      split <;> exact Nat.le_refl _
    | call handle => exact (congrArg List.length (session.bus.handles_unsubscribe handle)).ge
  · intro address handle cb hmem
    cases op with
    | emit name => exact absurd rfl (hop name)
    | on name other =>
      rcases ServiceBus.mem_sets_on hmem with hold | hnew
      · exact .inl hold
      · cases hnew
    | once name other =>
      rcases ServiceBus.mem_sets_on hmem with hold | hnew
      · exact .inl hold
      · cases hnew
        exact .inr rfl
    | off name other =>
      rw [ServiceBus.perform, ServiceBus.off] at hmem
      split at hmem
      · exact .inl hmem
      · exact .inl (ServiceBus.mem_sets_deleteFrom hmem)
    | call unsub => exact .inl (ServiceBus.mem_sets_unsubscribe hmem)

theorem step (h : session.Orderly) {event : SessionStep Callback Value}
    (hunqueued : session.EmitsUnqueued event) (hnext : session.step event = some next) :
    next.Orderly := by
  have hturn := turn_of_step hnext
  have hsum := fun handle ↦ planned_step hturn handle
  cases hturn with
  | @emit name listener pending hcurrent =>
    apply h.call
    · intro handle
      rw [hsum, snapshot]
      rcases hunqueued handle with hnone | hnone
      · rw [hnone]
        exact h.planned handle
      · -- the listener is in a set, so it has not been called
        have hcalls : firings handle (session.bus.current name) = 0 ∨
            firings handle session.calls = 0 := by
          by_contra hboth
          rw [not_or] at hboth
          obtain ⟨cb, hmem⟩ := exists_wrapper_of_firings (Nat.pos_of_ne_zero hboth.1)
          obtain ⟨address, _, hset⟩ := ServiceBus.exists_set_of_mem_current hmem
          exact h.gone handle (Nat.pos_of_ne_zero hboth.2) address cb hset
        have hcurrent := h.wired.firings_current_le handle name
        have hplanned := h.planned handle
        rw [Session.planned] at hplanned ⊢
        omega
    · intro handle hhandle
      have hnone : firings handle (session.bus.current name) = 0 := by
        by_contra hsome
        obtain ⟨cb, hmem⟩ := exists_wrapper_of_firings (Nat.pos_of_ne_zero hsome)
        obtain ⟨address, _, hset⟩ := ServiceBus.exists_set_of_mem_current hmem
        obtain ⟨_, hclosure, _⟩ := h.wired.wrapper address handle cb hset
        exact absurd (List.getElem?_eq_some_iff.mp hclosure).1 (Nat.not_lt.mpr hhandle)
      rw [hsum, snapshot, hnone, h.fresh handle hhandle]
  | silent hcurrent => exact h
  | perform hop => exact h.perform _ hop
  | state hevent state =>
    have hwired : ServiceBus.Wired { session.bus with state := state } :=
      ⟨⟨h.wired.addressed.allocated, h.wired.addressed.separate⟩, h.wired.nodup, h.wired.wrapper⟩
    exact h.bus hwired (Nat.le_refl _) fun _ _ _ ↦ .inl
  | @next listener pending below hstack =>
    apply h.call
    · intro handle
      rw [hsum]
      exact h.planned handle
    · intro handle hhandle
      rw [hsum, h.fresh handle hhandle]
      rfl
  | @leave below hstack =>
    have hsame : ∀ handle, Session.planned handle { session with stack := below } =
        Session.planned handle session := hsum
    exact ⟨h.wired, fun handle ↦ (hsame handle).symm ▸ h.planned handle,
      fun handle hhandle ↦ (hsame handle).trans (h.fresh handle hhandle), h.gone⟩

end Orderly

/-! ## Runs -/

variable [DecidableEq Callback]

theorem planned_le_run {program : List (SessionStep Callback Value)} {final : Session Callback Value}
    (h : run step session program = some final) (handle : ℕ) :
    planned handle session ≤ planned handle final := by
  induction program generalizing session with
  | nil =>
    cases h
    exact Nat.le_refl _
  | cons event rest ih =>
    obtain ⟨next, hnext, hrest⟩ := Option.bind_eq_some_iff.mp h
    have hsum := planned_step (turn_of_step hnext) handle
    have hlater := ih hrest
    omega

/-- An emit that finds one of its one-shot listeners ahead in a running emit plans it twice. -/
theorem exists_planned_twice {program : List (SessionStep Callback Value)}
    {final : Session Callback Value} (h : run step session program = some final)
    (hbad : ¬ StepsMeet step EmitsUnqueued session program) :
    ∃ handle, 2 ≤ planned handle final := by
  induction program generalizing session with
  | nil => exact absurd trivial hbad
  | cons event rest ih =>
    obtain ⟨next, hnext, hrest⟩ := Option.bind_eq_some_iff.mp h
    by_cases hunqueued : session.EmitsUnqueued event
    · exact ih hrest fun hmeet ↦ hbad (along_of_step hnext hunqueued hmeet)
    · cases event with
      | op op =>
        cases op with
        | emit name =>
          rw [EmitsUnqueued, Unqueued, not_forall] at hunqueued
          obtain ⟨handle, hqueued⟩ := hunqueued
          rw [not_or] at hqueued
          have hsum := planned_step (turn_of_step hnext) handle
          rw [snapshot] at hsum
          have hqueue : firings handle session.stack.flatten ≤ planned handle session :=
            Nat.le_add_left _ _
          have hlater := planned_le_run hrest handle
          exact ⟨handle, by omega⟩
        | on name cb => exact absurd trivial hunqueued
        | once name cb => exact absurd trivial hunqueued
        | off name cb => exact absurd trivial hunqueued
        | call handle => exact absurd trivial hunqueued
      | set key value => exact absurd trivial hunqueued
      | delete key => exact absurd trivial hunqueued
      | finish => exact absurd trivial hunqueued

/-- Where no emit finds one of its one-shot listeners ahead in a running emit, every call of `once`
invokes its callback at most once, and where one does, a program that comes to its end does not. -/
theorem once_at_most_once_iff (program : List (SessionStep Callback Value)) :
    (StepsMeet step EmitsUnqueued (start : Session Callback Value) program →
        Throughout step AtMostOnce (start : Session Callback Value) program) ∧
      ∀ final, run step (start : Session Callback Value) program = some final → final.stack = [] →
        (final.AtMostOnce ↔
          StepsMeet step EmitsUnqueued (start : Session Callback Value) program) := by
  have hkeep : StepsMeet step EmitsUnqueued (start : Session Callback Value) program →
      Throughout step AtMostOnce (start : Session Callback Value) program := by
    intro hmeet
    have hinvariant := throughout_of_invariant
      (fun _ _ _ horderly hunqueued hnext ↦ Orderly.step horderly hunqueued hnext)
      orderly_start hmeet
    exact hinvariant.mono fun _ ↦ Orderly.atMostOnce
  refine ⟨hkeep, fun final hrun hdone ↦ ⟨fun honce ↦ ?_, fun hmeet ↦ (hkeep hmeet).last hrun⟩⟩
  by_contra hbad
  obtain ⟨handle, htwice⟩ := exists_planned_twice hrun hbad
  rw [planned, hdone] at htwice
  have hfired := honce handle
  simp at htwice
  omega

/-- Listener 0 stands in front of a one-shot listener 1 and emits the event again when it is first
called. -/
theorem once_counterexample :
    ∃ final : Session ℕ Unit, run step start [.op (.on (js "e") 0), .op (.once (js "e") 1),
        .op (.emit (js "e")), .op (.emit (js "e")), .finish, .finish, .finish, .finish] = some final ∧
      final.stack = [] ∧ ¬ final.AtMostOnce := by
  refine ⟨_, rfl, rfl, ?_⟩
  intro honce
  exact absurd (honce 1) (by decide)

end Session

end Cordyceps.Core
