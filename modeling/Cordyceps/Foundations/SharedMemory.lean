import Cordyceps.Foundations.StepMachine
import Mathlib.Logic.Function.Basic

/-!
# Clients of one memory

Several clients call one service, which keeps a memory of its own between the
calls. Beside it the same calls run with a private memory for each client. When a
call to which the memory matters is made only while nothing is left in the
private memories of the others, no client can tell the two apart.
-/

namespace Foundations.SharedMemory

open StepMachine

/-- Clients that share a memory, and beside them each one alone with its own. -/
structure SideBySide (Index Client Memory : Type*) where
  memory : Memory
  clients : Index → Client
  alone : Index → Client × Memory

variable {Index Client Memory Input Seen View : Type*}

/-- All clients start as they would alone. -/
def start (clients : Index → Client) (memory : Memory) : SideBySide Index Client Memory where
  memory := memory
  clients := clients
  alone index := (clients index, memory)

section Service

variable (act : Input → Client → Memory → Client × Memory) (seen : Client → Seen)
  (view : Memory → View)

/-- What is seen of a client after a call depends on what was seen of it and of the memory. -/
def Respects : Prop := ∀ input client client' memory memory',
  seen client = seen client' → view memory = view memory' →
  seen (act input client memory).1 = seen (act input client' memory').1 ∧
  view (act input client memory).2 = view (act input client' memory').2

/-- A call that neither reads nor writes the memory. -/
def Neutral (input : Input) : Prop := ∀ client memory memory',
  seen (act input client memory).1 = seen (act input client memory').1 ∧
  view (act input client memory).2 = view memory

/-- Every client looks as it would alone. -/
def Isolated (state : SideBySide Index Client Memory) : Prop :=
  ∀ index, seen (state.clients index) = seen (state.alone index).1

/-- The call is neutral, or the private memories of all other clients are idle. -/
def Exclusive (idle : View) (state : SideBySide Index Client Memory) (event : Index × Input) :
    Prop :=
  Neutral act seen view event.2 ∨ ∀ index, index ≠ event.1 → view (state.alone index).2 = idle

/-- The shared memory looks like the one private memory that is not idle. -/
structure Separate (idle : View) (state : SideBySide Index Client Memory) : Prop where
  isolated : Isolated seen state
  owner : ∀ index, view (state.alone index).2 ≠ idle →
    view state.memory = view (state.alone index).2 ∧
      ∀ other, other ≠ index → view (state.alone other).2 = idle
  idle : (∀ index, view (state.alone index).2 = idle) → view state.memory = idle

end Service

variable {act : Input → Client → Memory → Client × Memory} {seen : Client → Seen}
  {view : Memory → View} {idle : View} {state next : SideBySide Index Client Memory}
  {event : Index × Input}

theorem Separate.start (clients : Index → Client) (memory : Memory) :
    Separate seen view (view memory) (start clients memory) where
  isolated _ := rfl
  owner _ hne := absurd rfl hne
  idle _ := rfl

/-- While the others are idle, the caller finds its own memory. -/
theorem Separate.own (h : Separate seen view idle state) {index : Index}
    (hothers : ∀ other, other ≠ index → view (state.alone other).2 = idle) :
    view state.memory = view (state.alone index).2 := by
  by_cases hidle : view (state.alone index).2 = idle
  · rw [hidle]
    apply h.idle
    intro other
    by_cases hother : other = index
    · rw [hother, hidle]
    · exact hothers other hother
  · exact (h.owner index hidle).1

/-! ## Calls -/

variable [DecidableEq Index]

variable (act) in
/-- One call, with the shared memory and beside it with the private one. -/
def call (state : SideBySide Index Client Memory) (event : Index × Input) :
    Option (SideBySide Index Client Memory) :=
  let shared := act event.2 (state.clients event.1) state.memory
  let alone := act event.2 (state.alone event.1).1 (state.alone event.1).2
  some {
    memory := shared.2
    clients := Function.update state.clients event.1 shared.1
    alone := Function.update state.alone event.1 alone }

/-- Beside the shared run each client makes its own calls, with its own memory. -/
theorem alone_run {state final : SideBySide Index Client Memory} {schedule : List (Index × Input)}
    (hrun : run (call act) state schedule = some final) (index : Index) :
    final.alone index = ((schedule.filter (·.1 = index)).map Prod.snd).foldl
      (fun own input ↦ act input own.1 own.2) (state.alone index) := by
  induction schedule generalizing state with
  | nil =>
    cases hrun
    rfl
  | cons event rest ih =>
    rw [run_cons, call, Option.bind_some] at hrun
    rw [ih hrun]
    by_cases hindex : event.1 = index
    · subst hindex
      simp
    · simp [hindex, Function.update_of_ne (Ne.symm hindex)]

/-- What a call does to the caller and to the others. -/
theorem isolated_call (h : Isolated seen state)
    (hcaller : seen (act event.2 (state.clients event.1) state.memory).1 =
      seen (act event.2 (state.alone event.1).1 (state.alone event.1).2).1)
    (hcall : call act state event = some next) : Isolated seen next := by
  cases hcall
  intro index
  by_cases hindex : index = event.1
  · subst hindex
    simp only [Function.update_self]
    exact hcaller
  · simp only [Function.update_of_ne hindex]
    exact h index

/-- An exclusive call keeps the memories separate. -/
theorem Separate.call (h : Separate seen view idle state) (hrespects : Respects act seen view)
    (hexclusive : Exclusive act seen view idle state event)
    (hcall : call act state event = some next) : Separate seen view idle next := by
  have hkept : ∀ other, other ≠ event.1 → next.alone other = state.alone other := by
    intro other hother
    cases hcall
    exact Function.update_of_ne hother _ _
  have hcalled : next.alone event.1 =
      act event.2 (state.alone event.1).1 (state.alone event.1).2 := by
    cases hcall
    exact Function.update_self _ _ _
  have hmemory : next.memory = (act event.2 (state.clients event.1) state.memory).2 := by
    cases hcall
    rfl
  rcases hexclusive with hneutral | hothers
  · -- the memories look as before
    have hview : ∀ index, view (next.alone index).2 = view (state.alone index).2 := by
      intro index
      by_cases hindex : index = event.1
      · rw [hindex, hcalled, (hneutral _ _ (state.alone event.1).2).2]
      · rw [hkept index hindex]
    have hsame : view next.memory = view state.memory := by
      rw [hmemory, (hneutral _ _ state.memory).2]
    refine ⟨isolated_call h.isolated ?_ hcall, ?_, ?_⟩
    · calc seen (act event.2 (state.clients event.1) state.memory).1
          = seen (act event.2 (state.clients event.1) (state.alone event.1).2).1 :=
            (hneutral _ _ _).1
        _ = seen (act event.2 (state.alone event.1).1 (state.alone event.1).2).1 :=
            (hrespects _ _ _ _ _ (h.isolated event.1) rfl).1
    · intro index hne
      rw [hview] at hne
      obtain ⟨hown, hidle⟩ := h.owner index hne
      exact ⟨by rw [hsame, hview, hown], fun other hother ↦ by rw [hview, hidle other hother]⟩
    · intro hall
      rw [hsame]
      exact h.idle fun index ↦ by rw [← hview, hall index]
  · -- the caller finds its own memory, and is the only one that may leave something
    obtain ⟨hseen, hview⟩ := hrespects event.2 _ _ _ _ (h.isolated event.1) (h.own hothers)
    have hidle : ∀ other, other ≠ event.1 → view (next.alone other).2 = idle := by
      intro other hother
      rw [hkept other hother]
      exact hothers other hother
    have hown : view next.memory = view (next.alone event.1).2 := by rw [hmemory, hcalled, hview]
    refine ⟨isolated_call h.isolated hseen hcall, ?_, fun hall ↦ hown.trans (hall event.1)⟩
    intro index hne
    have hindex : index = event.1 := by
      by_contra hother
      exact hne (hidle index hother)
    subst hindex
    exact ⟨hown, hidle⟩

/-- In a run of exclusive calls every client looks as it would alone. -/
theorem isolated_of_exclusive (hrespects : Respects act seen view) (clients : Index → Client)
    (memory : Memory) {schedule : List (Index × Input)}
    (hmeet : StepsMeet (call act) (Exclusive act seen view (view memory)) (start clients memory)
      schedule) :
    Throughout (call act) (Isolated seen) (start clients memory) schedule := by
  have hseparate : Throughout (call act) (Separate seen view (view memory)) (start clients memory)
      schedule :=
    throughout_of_invariant
      (fun _ _ _ hinv hexclusive hcall ↦ hinv.call hrespects hexclusive hcall)
      (Separate.start clients memory) hmeet
  exact hseparate.mono fun _ ↦ Separate.isolated

end Foundations.SharedMemory
