import Mathlib.Data.List.Basic
import Mathlib.Data.List.Lex

/-!
# Groups of an ordered sequence

Items that come in the order of a key fall into consecutive groups, one for each key: the
groups in the order of their keys give the items back. Keys may be texts; then they are compared
lexicographically, and fixed parts of one length compare first.
-/

namespace Foundations.OrderedGroups

variable {Item Key Symbol : Type*}

section Groups

variable [LE Key] [Std.IsLinearOrder Key] [DecidableEq Key]

/-- The group of the least key is in front. -/
theorem filter_least_append (key : Item → Key) {least : Key} {items : List Item}
    (hitems : items.Pairwise fun first second ↦ key first ≤ key second)
    (hleast : ∀ item ∈ items, least ≤ key item) :
    items.filter (fun item ↦ key item = least) ++ items.filter (fun item ↦ key item ≠ least) =
      items := by
  induction items with
  | nil => rfl
  | cons item rest ih =>
    obtain ⟨hitem, hrest⟩ := List.pairwise_cons.mp hitems
    obtain ⟨hle, hothers⟩ := List.forall_mem_cons.mp hleast
    by_cases heq : key item = least
    · rw [List.filter_cons_of_pos (by simpa using heq),
        List.filter_cons_of_neg (by simpa using heq),
        List.cons_append, ih hrest hothers]
    · -- an item above the least key has no item of that key behind it
      have hnone : ∀ other ∈ item :: rest, key other ≠ least := by
        rintro other hother rfl
        rcases List.mem_cons.mp hother with rfl | hmem
        · exact heq rfl
        · exact heq (Std.le_antisymm (hitem other hmem) hle)
      rw [List.filter_eq_nil_iff.mpr (by simpa using hnone),
        List.filter_eq_self.mpr (by simpa using hnone), List.nil_append]

variable [LT Key] [Std.LawfulOrderLT Key]

/-- Items in the order of their keys are the groups of all keys, one behind the other. -/
theorem flatMap_filter_key (key : Item → Key) {keys : List Key} {items : List Item}
    (hkeys : keys.Pairwise (· < ·))
    (hitems : items.Pairwise fun first second ↦ key first ≤ key second)
    (hcovered : ∀ item ∈ items, key item ∈ keys) :
    keys.flatMap (fun name ↦ items.filter fun item ↦ key item = name) = items := by
  induction keys generalizing items with
  | nil =>
    have hnil : items = [] := List.eq_nil_iff_forall_not_mem.mpr fun item hitem ↦ by
      simpa using hcovered item hitem
    rw [hnil, List.flatMap_nil]
  | cons least rest ih =>
    obtain ⟨hleast, hrest⟩ := List.pairwise_cons.mp hkeys
    have hfront : ∀ item ∈ items, least ≤ key item := by
      intro item hitem
      rcases List.mem_cons.mp (hcovered item hitem) with heq | hmem
      · rw [heq]
        exact Std.le_refl least
      · exact Std.le_of_lt (hleast _ hmem)
    -- the groups of the other keys are groups of what is left
    have hothers : rest.flatMap (fun name ↦ items.filter fun item ↦ key item = name) =
        rest.flatMap fun name ↦
          (items.filter fun item ↦ key item ≠ least).filter fun item ↦ key item = name := by
      refine List.flatMap_congr fun name hname ↦ ?_
      rw [List.filter_filter]
      refine List.filter_congr fun item _ ↦ ?_
      have hne : name ≠ least := fun heq ↦ Std.lt_irrefl (heq ▸ hleast name hname)
      by_cases heq : key item = name <;> simp [heq, hne]
    have hleft : ∀ item ∈ items.filter (fun item ↦ key item ≠ least), key item ∈ rest := by
      intro item hitem
      obtain ⟨hmem, hne⟩ := List.mem_filter.mp hitem
      exact (List.mem_cons.mp (hcovered item hmem)).resolve_left (by simpa using hne)
    rw [List.flatMap_cons, hothers, ih hrest (hitems.sublist List.filter_sublist) hleft]
    exact filter_least_append key hitems hfront

end Groups

/-! ## Texts as keys -/

section Texts

variable [LT Symbol] [LE Symbol] [Std.IsLinearOrder Symbol] [Std.LawfulOrderLT Symbol]

theorem take_le_take (count : ℕ) {first second : List Symbol} (h : first ≤ second) :
    first.take count ≤ second.take count := by
  induction count generalizing first second with
  | zero => exact List.le_refl _
  | succ count ih =>
    cases first with
    | nil => exact List.nil_le _
    | cons symbol rest =>
      cases second with
      | nil => exact absurd h (by simp)
      | cons other others =>
        rw [List.take_succ_cons, List.take_succ_cons, List.cons_le_cons_iff]
        exact (List.cons_le_cons_iff.mp h).imp_right fun heq ↦ ⟨heq.1, ih heq.2⟩

omit [Std.IsLinearOrder Symbol] in
/-- A difference within parts of one length decides. -/
theorem append_lt_append {first second : List Symbol} (hlength : first.length = second.length)
    (h : first < second) (rest others : List Symbol) : first ++ rest < second ++ others := by
  induction first generalizing second with
  | nil =>
    rw [List.length_eq_zero_iff.mp hlength.symm] at h
    exact absurd h (List.lt_irrefl _)
  | cons symbol front ih =>
    cases second with
    | nil => simp at hlength
    | cons other back =>
      rw [List.cons_append, List.cons_append, List.cons_lt_cons_iff]
      refine (List.cons_lt_cons_iff.mp h).imp_right fun heq ↦ ⟨heq.1, ?_⟩
      exact ih (Nat.succ.inj hlength) heq.2

theorem append_le_append {first second : List Symbol} (hlength : first.length = second.length)
    (h : first ≤ second) (rest : List Symbol) : first ++ rest ≤ second ++ rest := by
  rcases List.le_iff_lt_or_eq.mp h with hlt | rfl
  · exact List.le_of_lt (append_lt_append hlength hlt rest rest)
  · exact List.le_refl _

end Texts

end Foundations.OrderedGroups
