import Cordyceps.Foundations.LineGroups
import Mathlib.Data.List.DropRight
import Mathlib.Data.Int.Basic

/-!
# Packing lines into groups

Lines are taken one by one into an open group, until the next one would weigh it above a
budget. The group is then closed behind its last blank line, if it has one, and the lines
after that are kept for the next group. No line is lost. A group of several lines can be
above the budget only by the kept lines and the one read next.
-/

namespace Foundations.LineGroups

variable {Symbol : Type*} (blank : List Symbol → Bool) (budget : ℤ)

/-- The lines of an open group up to the last blank one. -/
def settled (opened : List (List Symbol)) : List (List Symbol) :=
  opened.rdropWhile fun line ↦ !blank line

/-- The lines that are closed as a group. -/
def closed (opened : List (List Symbol)) : List (List Symbol) :=
  if (settled blank opened).isEmpty then opened else settled blank opened

/-- The lines that are kept for the next group. -/
def kept (opened : List (List Symbol)) : List (List Symbol) :=
  if (settled blank opened).isEmpty then [] else opened.rtakeWhile fun line ↦ !blank line

/-- The open group has lines, and no room for another. -/
def overfull (opened : List (List Symbol)) (line : List Symbol) : Bool :=
  budget < ((weight opened + (line.length + 1) : ℕ) : ℤ) && !opened.isEmpty

/-- The groups of the lines that are open and those that follow. -/
def packed : List (List Symbol) → List (List Symbol) → List (List (List Symbol))
  | opened, [] => if opened.isEmpty then [] else [opened]
  | opened, line :: rest =>
    if overfull budget opened line then
      closed blank opened :: packed (kept blank opened ++ [line]) rest
    else packed (opened ++ [line]) rest

/-! ## No line is lost -/

theorem settled_append (opened : List (List Symbol)) :
    settled blank opened ++ opened.rtakeWhile (fun line ↦ !blank line) = opened :=
  List.rdropWhile_append_rtakeWhile

@[simp]
theorem closed_append_kept (opened : List (List Symbol)) :
    closed blank opened ++ kept blank opened = opened := by
  rw [closed, kept]
  by_cases h : (settled blank opened).isEmpty
  · rw [if_pos h, if_pos h, List.append_nil]
  · rw [if_neg h, if_neg h, settled_append]

theorem closed_ne_nil {opened : List (List Symbol)} (h : opened ≠ []) :
    closed blank opened ≠ [] := by
  rw [closed]
  split
  case isTrue hnone => exact h
  case isFalse hsome => simpa using hsome

theorem flatten_packed (opened rest : List (List Symbol)) :
    (packed blank budget opened rest).flatten = opened ++ rest := by
  induction rest generalizing opened with
  | nil =>
    cases opened <;> simp [packed]
  | cons line rest ih =>
    rw [packed]
    split
    case isTrue hfull =>
      calc
        (closed blank opened :: packed blank budget (kept blank opened ++ [line]) rest).flatten =
            (closed blank opened ++ kept blank opened) ++ ([line] ++ rest) := by
          rw [List.flatten_cons, ih, List.append_assoc, List.append_assoc]
        _ = opened ++ line :: rest := by rw [closed_append_kept, List.singleton_append]
    case isFalse hroom =>
      rw [ih, List.append_assoc, List.singleton_append]

theorem ne_nil_of_mem_packed {opened rest group : List (List Symbol)}
    (h : group ∈ packed blank budget opened rest) : group ≠ [] := by
  induction rest generalizing opened with
  | nil =>
    cases opened <;> simp_all [packed]
  | cons line rest ih =>
    rw [packed] at h
    split at h
    case isTrue hfull =>
      have hopened : opened ≠ [] := by
        simp only [overfull, Bool.and_eq_true, Bool.not_eq_true', List.isEmpty_eq_false_iff] at hfull
        exact hfull.2
      rcases List.mem_cons.mp h with rfl | hlater
      · exact closed_ne_nil blank hopened
      · exact ih hlater
    case isFalse hroom => exact ih h

/-! ## The budget -/

/-- A single line, or a text within the budget: its last line has no separator behind it. -/
def Fits (group : List (List Symbol)) : Prop :=
  group.length ≤ 1 ∨ (weight group : ℤ) ≤ budget + 1

/-- Whenever a group is closed with lines kept, these and the next line are within the budget. -/
def CarryFits : List (List Symbol) → List (List Symbol) → Prop
  | _, [] => True
  | opened, line :: rest =>
    if overfull budget opened line then
      Fits budget (kept blank opened ++ [line]) ∧ CarryFits (kept blank opened ++ [line]) rest
    else CarryFits (opened ++ [line]) rest

theorem Fits.of_append {first second : List (List Symbol)} (h : Fits budget (first ++ second)) :
    Fits budget first := by
  rw [Fits, List.length_append, weight_append] at h
  rw [Fits]
  omega

/-- An open group stays within the budget when there is room for the line. -/
theorem fits_of_room {opened : List (List Symbol)} {line : List Symbol}
    (h : overfull budget opened line = false) : Fits budget (opened ++ [line]) := by
  rw [Fits, List.length_append, weight_append, weight_cons, weight_nil]
  by_cases hnil : opened = []
  · simp [hnil]
  · have hempty : opened.isEmpty = false := by simpa using hnil
    rw [overfull, hempty, Bool.not_false, Bool.and_true, decide_eq_false_iff_not] at h
    simp only [List.length_singleton]
    push_cast at h ⊢
    omega

/-- No line but the last is blank. -/
def Unbroken (group : List (List Symbol)) : Prop := ∀ line ∈ group.dropLast, blank line = false

theorem unbroken_kept (opened : List (List Symbol)) (line : List Symbol) :
    Unbroken blank (kept blank opened ++ [line]) := by
  intro other h
  rw [List.dropLast_concat, kept] at h
  split at h
  case isTrue hnone => exact absurd h List.not_mem_nil
  case isFalse hsome => simpa using List.mem_rtakeWhile_imp h

/-- A group with no blank line before its last is closed as a whole. -/
theorem closed_of_unbroken {opened : List (List Symbol)} (h : Unbroken blank opened) :
    closed blank opened = opened := by
  cases opened using List.reverseRecOn with
  | nil => rfl
  | append_singleton front last =>
    rw [Unbroken, List.dropLast_concat] at h
    rw [closed, settled, List.rdropWhile_concat]
    by_cases hlast : blank last
    · simp [hlast]
    · have hfront : front.rdropWhile (fun line ↦ !blank line) = [] := by
        rw [List.rdropWhile_eq_nil_iff]
        intro line hline
        simp [h line hline]
      simp [hlast, hfront]

/-- A group above the budget that no blank line breaks is never brought within it. -/
theorem not_fits_of_unbroken {opened : List (List Symbol)} (rest : List (List Symbol))
    (hopened : ¬Fits budget opened) (h : Unbroken blank opened) :
    ¬∀ group ∈ packed blank budget opened rest, Fits budget group := by
  intro hall
  have hsize : 1 < opened.length ∧ budget + 1 < weight opened := by
    rw [Fits] at hopened
    omega
  have hempty : opened.isEmpty = false := by
    rw [List.isEmpty_eq_false_iff]
    exact List.ne_nil_of_length_pos (by omega)
  cases rest with
  | nil =>
    rw [packed, hempty] at hall
    exact hopened (hall opened (by simp))
  | cons line rest =>
    have hfull : overfull budget opened line = true := by
      rw [overfull, hempty]
      simp only [Bool.not_false, Bool.and_true, decide_eq_true_eq]
      push_cast
      omega
    rw [packed, if_pos hfull, closed_of_unbroken blank h] at hall
    exact hopened (hall opened List.mem_cons_self)

/-- All groups are within the budget if and only if the kept lines always are. -/
theorem packed_fits_iff {opened : List (List Symbol)} (rest : List (List Symbol))
    (hopened : Fits budget opened) :
    (∀ group ∈ packed blank budget opened rest, Fits budget group) ↔
      CarryFits blank budget opened rest := by
  induction rest generalizing opened with
  | nil =>
    rw [packed, CarryFits]
    split <;> simp [hopened]
  | cons line rest ih =>
    rw [packed, CarryFits]
    split
    case isTrue hfull =>
      have hclosed : Fits budget (closed blank opened) := by
        rw [← closed_append_kept blank opened] at hopened
        exact hopened.of_append
      rw [List.forall_mem_cons]
      by_cases hkept : Fits budget (kept blank opened ++ [line])
      · rw [ih hkept]
        simp [hclosed, hkept]
      · have hnot := not_fits_of_unbroken blank budget rest hkept
          (unbroken_kept blank opened line)
        tauto
    case isFalse hroom =>
      exact ih (fits_of_room budget (by simpa using hroom))

/-- Lines that fit one group never overflow by what is kept. -/
theorem carryFits_of_weight_le {opened : List (List Symbol)} (rest : List (List Symbol))
    (h : (weight (opened ++ rest) : ℤ) ≤ budget + 1) : CarryFits blank budget opened rest := by
  induction rest generalizing opened with
  | nil => trivial
  | cons line rest ih =>
    rw [CarryFits]
    rw [List.append_cons] at h
    split
    case isTrue hfull =>
      have hweight : weight (kept blank opened ++ [line] ++ rest) ≤
          weight (opened ++ [line] ++ rest) := by
        have hopened := congrArg weight (closed_append_kept blank opened)
        simp only [weight_append] at hopened ⊢
        omega
      refine ⟨Or.inr ?_, ih (by omega)⟩
      rw [weight_append] at hweight
      omega
    case isFalse hroom => exact ih h

end Foundations.LineGroups
