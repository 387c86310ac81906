import Mathlib.Data.List.Infix
import Mathlib.Logic.Function.Basic

/-!
# Chronicles on a shelf

What grows at its end only is kept in parts on numbered places, the newest part on place zero. A
part may go one place up, over whatever is there. However often this happens the parts stay in
their order; a part that goes up to an empty place loses nothing.
-/

namespace Foundations.Shelf

variable {α : Type*}

/-- What lies below a place, oldest first. -/
def below (place : ℕ → List α) : ℕ → List α
  | 0 => []
  | n + 1 => place n ++ below place n

/-- What lies on a place goes one place up. -/
def lift (i : ℕ) (place : ℕ → List α) : ℕ → List α :=
  Function.update (Function.update place (i + 1) (place i)) i []

/-- More is put on the lowest place. -/
def push (more : List α) (place : ℕ → List α) : ℕ → List α :=
  Function.update place 0 (place 0 ++ more)

variable {place other : ℕ → List α} {i n : ℕ}

theorem below_congr (h : ∀ k < n, place k = other k) : below place n = below other n := by
  induction n with
  | zero => rfl
  | succ n ih =>
    rw [below, below, h n (Nat.lt_succ_self n), ih fun k hk ↦ h k (Nat.lt_succ_of_lt hk)]

theorem below_suffix {m : ℕ} (h : m ≤ n) : below place m <:+ below place n := by
  induction n, h using Nat.le_induction with
  | base => exact List.suffix_rfl
  | succ n _ ih => exact ih.trans (List.suffix_append ..)

/-- All parts go one place up. -/
theorem below_shifted (hfirst : other 0 = []) (hnext : ∀ k < n, other (k + 1) = place k) :
    below other (n + 1) = below place n := by
  induction n with
  | zero => rw [below, below, below, hfirst, List.append_nil]
  | succ n ih =>
    rw [below, hnext n (Nat.lt_succ_self n), ih fun k hk ↦ hnext k (Nat.lt_succ_of_lt hk), below]

theorem lift_of_ne (hi : n ≠ i) (hsucc : n ≠ i + 1) : lift i place n = place n := by
  rw [lift, Function.update_of_ne hi, Function.update_of_ne hsucc]

@[simp]
theorem lift_self : lift i place i = [] := Function.update_self ..

@[simp]
theorem lift_succ : lift i place (i + 1) = place i := by
  rw [lift, Function.update_of_ne (Nat.succ_ne_self i), Function.update_self]

/-- The two places that a move concerns, together with what lies below them. -/
theorem below_lift : below (lift i place) (i + 2) = place i ++ below place i := by
  have hlower : below (lift i place) i = below place i :=
    below_congr fun k hk ↦ lift_of_ne (by omega) (by omega)
  rw [below, below, lift_succ, lift_self, hlower, List.nil_append]

theorem below_succ_succ (place : ℕ → List α) (i : ℕ) :
    below place (i + 2) = place (i + 1) ++ below (lift i place) (i + 2) := by
  rw [below_lift]
  rfl

/-- A move keeps the order. -/
theorem below_lift_sublist (h : i + 2 ≤ n) :
    (below (lift i place) n).Sublist (below place n) := by
  induction n, h using Nat.le_induction with
  | base =>
    rw [below_succ_succ place]
    exact List.sublist_append_right ..
  | succ n hn ih =>
    rw [below, below, lift_of_ne (by omega) (by omega)]
    exact ih.append_left _

/-- A move to an empty place loses nothing. -/
theorem below_lift_of_vacant (hvacant : place (i + 1) = []) (h : i + 2 ≤ n) :
    below (lift i place) n = below place n := by
  induction n, h using Nat.le_induction with
  | base => rw [below_succ_succ place, hvacant, List.nil_append]
  | succ n hn ih => rw [below, below, lift_of_ne (by omega) (by omega), ih]

/-- A move to the highest place loses what lay there. -/
theorem below_lift_suffix : below (lift i place) (i + 2) <:+ below place (i + 2) := by
  rw [below_succ_succ place]
  exact List.suffix_append ..

@[simp]
theorem push_zero (more : List α) : push more place 0 = place 0 ++ more :=
  Function.update_self ..

theorem push_of_ne (more : List α) (h : n ≠ 0) : push more place n = place n :=
  Function.update_of_ne h ..

/-- What is put on the lowest place comes last. -/
theorem below_push (more : List α) : below (push more place) (n + 1) = below place (n + 1) ++ more := by
  induction n with
  | zero =>
    rw [below, below, push_zero]
    rw [below, below, List.append_nil, List.append_nil]
  | succ n ih =>
    calc
      below (push more place) (n + 1 + 1) = place (n + 1) ++ (below place (n + 1) ++ more) := by
        rw [below, ih, push_of_ne more (Nat.succ_ne_zero n)]
      _ = below place (n + 1 + 1) ++ more := (List.append_assoc ..).symm

end Foundations.Shelf
