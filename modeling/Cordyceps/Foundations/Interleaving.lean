import Mathlib.Data.List.Infix
import Mathlib.Data.List.Nodup

/-!
# Blocks in a shared log

Several writers append to one log, and every entry names its writer. A log is
blockwise if it is the beginning of the writers' blocks one after the other, so
that no block is split by the entry of another writer, and the whole of them
when nobody is writing.
-/

namespace Foundations

variable {Writer Key : Type*}

/-- A block with its writer's name on each entry. -/
def tagged (block : Writer → List Key) (writer : Writer) : List (Writer × Key) :=
  (block writer).map (Prod.mk writer)

/-- The entries of one writer. -/
def ownEntries [DecidableEq Writer] (writer : Writer) (log : List (Writer × Key)) : List Key :=
  (log.filter fun entry ↦ entry.1 = writer).map Prod.snd

/-- The log is the beginning of complete blocks, one for each writer in the order, and consists of
them if nobody is writing. -/
def Blockwise (block : Writer → List Key) (quiet : Prop) (log : List (Writer × Key)) : Prop :=
  ∃ order : List Writer, order.Nodup ∧ log <+: order.flatMap (tagged block) ∧
    (quiet → log = order.flatMap (tagged block))

theorem tagged_congr {block block' : Writer → List Key} {order : List Writer}
    (h : ∀ writer ∈ order, block writer = block' writer) :
    order.flatMap (tagged block) = order.flatMap (tagged block') := by
  apply List.flatMap_congr
  intro writer hmem
  rw [tagged, tagged, h writer hmem]

section Own

variable [DecidableEq Writer] {writer other : Writer}

theorem ownEntries_append (first second : List (Writer × Key)) :
    ownEntries writer (first ++ second) = ownEntries writer first ++ ownEntries writer second := by
  simp [ownEntries]

@[simp]
theorem ownEntries_map_self (keys : List Key) :
    ownEntries writer (keys.map (Prod.mk writer)) = keys := by
  simp [ownEntries, List.filter_map, Function.comp_def]

theorem ownEntries_map_ne (h : other ≠ writer) (keys : List Key) :
    ownEntries writer (keys.map (Prod.mk other)) = [] := by
  simp [ownEntries, List.filter_map, Function.comp_def, h]

theorem ownEntries_flatMap {block : Writer → List Key} {order : List Writer} (h : writer ∉ order) :
    ownEntries writer (order.flatMap (tagged block)) = [] := by
  induction order with
  | nil => rfl
  | cons head rest ih =>
    rw [List.mem_cons, not_or] at h
    obtain ⟨hhead, hrest⟩ := h
    rw [List.flatMap_cons, ownEntries_append, ih hrest, tagged,
      ownEntries_map_ne (Ne.symm hhead), List.append_nil]

theorem ownEntries_initial {log whole : List (Writer × Key)} (h : log <+: whole)
    (hnone : ownEntries writer whole = []) : ownEntries writer log = [] := by
  obtain ⟨rest, rfl⟩ := h
  rw [ownEntries_append] at hnone
  exact (List.append_eq_nil_iff.mp hnone).1

/-- Within one block there is one writer. -/
theorem writer_of_prefix_tagged {block : Writer → List Key} {log : List (Writer × Key)} {key : Key}
    (hlog : log ++ [(other, key)] <+: tagged block writer) : other = writer ∧
      ∀ third, ownEntries third log ≠ [] → third = writer := by
  have hlast : (other, key) ∈ tagged block writer := hlog.subset (by simp)
  obtain ⟨_, _, heq⟩ := List.mem_map.mp hlast
  refine ⟨(congrArg Prod.fst heq).symm, fun third hown ↦ ?_⟩
  by_contra hne
  have hnone : ownEntries third (tagged block writer) = [] := ownEntries_map_ne (Ne.symm hne) _
  exact hown (ownEntries_initial ((List.prefix_append _ _).trans hlog) hnone)

/-- Once another writer wrote after it, a writer's block is complete. -/
theorem own_eq_block {block : Writer → List Key} {order : List Writer} {log : List (Writer × Key)}
    {key : Key} (hnodup : order.Nodup) (hne : other ≠ writer)
    (hlog : log ++ [(other, key)] <+: order.flatMap (tagged block))
    (hown : ownEntries writer log ≠ []) : ownEntries writer log = block writer := by
  induction order generalizing log with
  | nil => simp at hlog
  | cons head rest ih =>
    obtain ⟨hfresh, hrest⟩ := List.nodup_cons.mp hnodup
    rw [List.flatMap_cons] at hlog
    have hinside : ¬ log ++ [(other, key)] <+: tagged block head := by
      intro hshort
      obtain ⟨hother, hwriter⟩ := writer_of_prefix_tagged hshort
      exact hne (hother.trans (hwriter writer hown).symm)
    rcases List.prefix_or_prefix_of_prefix hlog (List.prefix_append _ _) with hshort | hlong
    · exact absurd hshort hinside
    · obtain ⟨tail, htail⟩ := hlong
      rw [← htail, List.prefix_append_right_inj] at hlog
      rcases List.eq_nil_or_concat tail with rfl | ⟨middle, last, rfl⟩
      · rw [List.append_nil] at htail
        exact absurd (htail ▸ List.prefix_refl _) hinside
      · rw [List.concat_eq_append, ← List.append_assoc] at htail
        rw [List.concat_eq_append] at hlog
        obtain ⟨hmiddle, hlast⟩ := List.append_inj' htail rfl
        cases hlast
        rw [← hmiddle, ownEntries_append] at hown ⊢
        by_cases hhead : head = writer
        · subst hhead
          have hnone : ownEntries head middle = [] :=
            ownEntries_initial ((List.prefix_append _ _).trans hlog) (ownEntries_flatMap hfresh)
          rw [hnone, List.append_nil, tagged, ownEntries_map_self]
        · have htagged : ownEntries writer (tagged block head) = [] := ownEntries_map_ne hhead _
          rw [htagged, List.nil_append] at hown ⊢
          exact ih hrest hlog hown

end Own

end Foundations
