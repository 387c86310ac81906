import Mathlib.Logic.Basic
import Mathlib.Tactic.Basic

/-!
# Promises

A promise is pending until it is settled; the first settlement stands and later
ones do nothing. A rejected promise without a handler is unobserved: the
runtime reports it at the end of the turn in which it was rejected.
-/

namespace Foundations

inductive Fate (Value Reason : Type*)
  | pending
  | fulfilled (value : Value)
  | rejected (reason : Reason)
  deriving DecidableEq, Repr

/-- `handled` tells that a handler was attached, for instance by an `await`. -/
structure Promise (Value Reason : Type*) where
  fate : Fate Value Reason
  handled : Bool
  deriving DecidableEq, Repr

namespace Promise

variable {Value Reason : Type*} {promise : Promise Value Reason}

def create : Promise Value Reason := ⟨.pending, false⟩

def settle (fate : Fate Value Reason) (promise : Promise Value Reason) : Promise Value Reason :=
  match promise.fate with
  | .pending => { promise with fate }
  | _ => promise

def resolve (value : Value) : Promise Value Reason → Promise Value Reason :=
  settle (.fulfilled value)

def reject (reason : Reason) : Promise Value Reason → Promise Value Reason :=
  settle (.rejected reason)

/-- Attach a handler. -/
def observe (promise : Promise Value Reason) : Promise Value Reason :=
  { promise with handled := true }

/-- Rejected, and nobody has attached a handler. -/
def Unobserved (promise : Promise Value Reason) : Prop :=
  promise.handled = false ∧ ∃ reason, promise.fate = .rejected reason

@[simp]
theorem handled_settle (fate : Fate Value Reason) : (promise.settle fate).handled = promise.handled := by
  unfold settle
  split <;> rfl

/-- The first settlement stands. -/
theorem settle_of_settled (h : promise.fate ≠ .pending) (fate : Fate Value Reason) :
    promise.settle fate = promise := by
  unfold settle
  split
  · exact absurd ‹_› h
  · rfl

theorem settle_cases (fate : Fate Value Reason) (promise : Promise Value Reason) :
    promise.fate = .pending ∧ (promise.settle fate).fate = fate ∨
      promise.fate ≠ .pending ∧ promise.settle fate = promise := by
  by_cases hpending : promise.fate = .pending
  · exact .inl ⟨hpending, by simp [settle, hpending]⟩
  · exact .inr ⟨hpending, settle_of_settled hpending fate⟩

theorem not_unobserved_of_handled (h : promise.handled = true) : ¬ promise.Unobserved := by
  rintro ⟨hnot, -⟩
  rw [h] at hnot
  cases hnot

theorem not_unobserved_observe : ¬ promise.observe.Unobserved :=
  not_unobserved_of_handled rfl

theorem unobserved_resolve_iff (value : Value) :
    (promise.resolve value).Unobserved ↔ promise.Unobserved := by
  unfold resolve settle Unobserved
  split
  · rename_i hpending
    simp [hpending]
  · rfl

end Promise

end Foundations
