import Mathlib.Data.List.Basic
import Mathlib.Algebra.BigOperators.Group.List.Basic
import Mathlib.Algebra.GroupWithZero.Nat

/-!
# Texts as groups of lines

A text is its lines, joined by a separator. Lines may be taken together in groups, each
joined to a text of its own; joining these gives the text of all lines. `weight` counts
a line with its separator, so weights of groups add up.
-/

namespace Foundations.LineGroups

variable {Symbol : Type*}

/-- `lines.join(sep)`. -/
def join (sep : Symbol) (lines : List (List Symbol)) : List Symbol := [sep].intercalate lines

/-- The length of the lines, with a separator after each. -/
def weight (lines : List (List Symbol)) : ℕ := (lines.map fun line ↦ line.length + 1).sum

@[simp]
theorem weight_nil : weight ([] : List (List Symbol)) = 0 := rfl

@[simp]
theorem weight_cons (line : List Symbol) (lines : List (List Symbol)) :
    weight (line :: lines) = line.length + 1 + weight lines := rfl

@[simp]
theorem weight_append (first second : List (List Symbol)) :
    weight (first ++ second) = weight first + weight second := by
  rw [weight, List.map_append, List.sum_append]
  rfl

theorem join_cons (sep : Symbol) (line : List Symbol) {lines : List (List Symbol)}
    (h : lines ≠ []) : join sep (line :: lines) = line ++ sep :: join sep lines := by
  rw [join, List.intercalate_cons_of_ne_nil h, List.append_assoc]
  rfl

@[simp]
theorem join_singleton (sep : Symbol) (line : List Symbol) : join sep [line] = line :=
  List.intercalate_singleton

/-- The last line has no separator behind it. -/
theorem length_join (sep : Symbol) {lines : List (List Symbol)} (h : lines ≠ []) :
    (join sep lines).length + 1 = weight lines := by
  induction lines with
  | nil => exact absurd rfl h
  | cons line rest ih =>
    by_cases hrest : rest = []
    · simp [hrest]
    · rw [join_cons sep line hrest, weight_cons, ← ih hrest, List.length_append, List.length_cons]
      omega

theorem join_append (sep : Symbol) {first second : List (List Symbol)} (hfirst : first ≠ [])
    (hsecond : second ≠ []) :
    join sep (first ++ second) = join sep first ++ sep :: join sep second := by
  induction first with
  | nil => exact absurd rfl hfirst
  | cons line rest ih =>
    by_cases hrest : rest = []
    · rw [hrest, List.singleton_append, join_cons sep line hsecond, join_singleton]
    · calc
        join sep (line :: rest ++ second) = line ++ sep :: join sep (rest ++ second) :=
          join_cons sep line (by simp [hrest])
        _ = line ++ sep :: (join sep rest ++ sep :: join sep second) := by rw [ih hrest]
        _ = join sep (line :: rest) ++ sep :: join sep second := by
          rw [join_cons sep line hrest, List.append_assoc, List.cons_append]

/-- The texts of the groups join to the text of all lines. -/
theorem join_join (sep : Symbol) {groups : List (List (List Symbol))}
    (h : ∀ group ∈ groups, group ≠ []) :
    join sep (groups.map (join sep)) = join sep groups.flatten := by
  induction groups with
  | nil => rfl
  | cons group rest ih =>
    obtain ⟨hgroup, hothers⟩ := List.forall_mem_cons.mp h
    by_cases hrest : rest = []
    · simp [hrest]
    · have hlines : rest.flatten ≠ [] := by
        obtain ⟨other, hother⟩ := List.exists_mem_of_ne_nil rest hrest
        intro hnil
        exact hothers other hother (List.flatten_eq_nil_iff.mp hnil other hother)
      rw [List.map_cons, join_cons sep _ (by simp [hrest]), ih hothers, List.flatten_cons,
        join_append sep hgroup hlines]

variable [DecidableEq Symbol]

theorem join_splitOn (sep : Symbol) (text : List Symbol) : join sep (text.splitOn sep) = text :=
  List.intercalate_splitOn sep

/-- The lines of a text have no separator in them. -/
theorem notMem_of_mem_splitOn {sep : Symbol} {text line : List Symbol}
    (h : line ∈ text.splitOn sep) : sep ∉ line := by
  induction text generalizing line with
  | nil =>
    rw [List.splitOn_nil, List.mem_singleton] at h
    simp [h]
  | cons symbol text ih =>
    rw [List.splitOn_cons_eq_if_modifyHead] at h
    by_cases hsep : symbol = sep
    · rw [if_pos (by simpa using hsep), List.mem_cons] at h
      rcases h with rfl | hrest
      · simp
      · exact ih hrest
    · rw [if_neg (by simpa using hsep)] at h
      cases hlines : text.splitOn sep with
      | nil => exact absurd hlines (List.splitOn_ne_nil sep text)
      | cons first rest =>
        rw [hlines] at h ih
        rcases List.mem_cons.mp h with rfl | hrest
        · have hfirst := ih List.mem_cons_self
          simp [hfirst, Ne.symm hsep]
        · exact ih (List.mem_cons_of_mem _ hrest)

/-- The text of a group splits into the group's lines. -/
theorem splitOn_join {sep : Symbol} {group : List (List Symbol)} (hgroup : group ≠ [])
    (h : ∀ line ∈ group, sep ∉ line) : (join sep group).splitOn sep = group :=
  List.splitOn_intercalate sep h hgroup

end Foundations.LineGroups
