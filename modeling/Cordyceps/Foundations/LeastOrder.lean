import Cordyceps.Foundations.TopologicalSort
import Mathlib.Data.List.Lex

/-!
# The least order of a finite graph

When the queue of an in-degree sort is kept in ascending order, its head is the least
node that may come next. So the sort emits the lexicographically least of all orders
that the edges agree with, and that order depends on the nodes and edges alone.
-/

namespace Foundations.TopologicalSort

variable {Node : Type*}

/-- The nodes, in an order that every edge agrees with. -/
structure Graph.Respects (graph : Graph Node) (order : List Node) : Prop where
  perm : order.Perm graph.nodes
  forward : ∀ first second, graph.Edge first second → [first, second].Sublist order

section Leads

variable [LT Node]

/-- The nodes open the order, or part with it at a lesser node. -/
def Leads (emitted order : List Node) : Prop :=
  emitted <+: order ∨ ∀ more, emitted ++ more < order

/-- No node is less than one in front of it. -/
def Ascending (queue : List Node) : Prop := queue.Pairwise fun first second ↦ ¬ second < first

variable {emitted order : List Node} {node : Node}

theorem Leads.concat_of_lt (h : ∀ more, emitted ++ more < order) (node : Node) :
    Leads (emitted ++ [node]) order := by
  refine .inr fun more ↦ ?_
  rw [List.append_assoc]
  exact h ([node] ++ more)

theorem lt_of_common {common : List Node} {first second : Node} (h : first < second)
    (rest rest' : List Node) : common ++ first :: rest < common ++ second :: rest' :=
  List.Lex.append_left _ (.rel h) common

variable [Std.Asymm (fun first second : Node ↦ first < second)]

/-- Of as many nodes as the order has, those that lead it are not above it. -/
theorem Leads.le (h : Leads emitted order) (hlength : emitted.length = order.length) :
    emitted ≤ order := by
  rcases h with hopen | hless
  · rw [hopen.eq_of_length hlength]
    exact List.le_refl order
  · apply List.le_of_lt
    simpa using hless []

end Leads

section Next

variable [DecidableEq Node] {graph : Graph Node} {state : State Node}

/-- The node after those that were emitted waits in the queue. -/
theorem Sorting.mem_queue_of_next (h : Sorting graph state) {order : List Node}
    (horder : graph.Respects order) {next : Node} {later : List Node}
    (hnext : order = state.emitted ++ next :: later) : next ∈ state.queue := by
  have hnodup : order.Nodup := horder.perm.nodup_iff.mpr graph.nodup
  have hnode : next ∈ graph.nodes := horder.perm.mem_iff.mp (by simp [hnext])
  have hnew : next ∉ state.emitted := by
    rw [hnext] at hnodup
    exact fun hin ↦ (List.nodup_append.mp hnodup).2.2 next hin next List.mem_cons_self rfl
  -- what precedes it in the graph precedes it in the order, so it was emitted
  have hclosed : waiting graph state.emitted next = 0 := by
    rw [waiting_eq_zero_iff]
    intro source hedge
    have hlt := idxOf_lt_of_sublist hnodup (horder.forward source next hedge)
    rw [hnext, List.idxOf_append_of_notMem hnew, List.idxOf_cons_self] at hlt
    by_contra hnot
    rw [List.idxOf_append_of_notMem hnot] at hlt
    omega
  have hready := (h.ready next).mpr ⟨hnode, by rw [h.degree next hnode, hclosed]; rfl⟩
  exact (List.mem_append.mp hready).resolve_left hnew

end Next

section Greedy

variable [DecidableEq Node] [LT Node]

/-- What every emission keeps when the queue ascends. -/
structure Greedy (graph : Graph Node) (state : State Node) : Prop where
  sorting : Sorting graph state
  ascending : Ascending state.queue
  leads : ∀ order, graph.Respects order → Leads state.emitted order

variable {graph : Graph Node} {state : State Node} {node : Node} {rest : List Node}
  {enqueue : Node → List Node → List Node}

theorem ascending_foldl_release (hkeeps : ∀ node queue, Ascending queue →
      Ascending (enqueue node queue)) (targets : List Node) (h : Ascending state.queue) :
    Ascending (targets.foldl (release enqueue) state).queue := by
  induction targets generalizing state with
  | nil => exact h
  | cons target rest ih =>
    apply ih
    unfold release
    split
    · exact hkeeps target state.queue h
    · exact h

/-- A complete run emits the least of the orders. -/
theorem Greedy.least [Std.Asymm (fun first second : Node ↦ first < second)]
    (h : Greedy graph state) {order : List Node} (horder : graph.Respects order)
    (hcomplete : state.emitted.Perm graph.nodes) : state.emitted ≤ order :=
  (h.leads order horder).le (hcomplete.length_eq.trans horder.perm.length_eq.symm)

variable [Std.Trichotomous (fun first second : Node ↦ first < second)]

theorem Greedy.visit (henqueue : ∀ node queue, (enqueue node queue).Perm (node :: queue))
    (hkeeps : ∀ node queue, Ascending queue → Ascending (enqueue node queue))
    (h : Greedy graph state) (hqueue : state.queue = node :: rest) :
    Greedy graph (visit enqueue graph.targets node rest state) := by
  have hascending : Ascending (node :: rest) := hqueue ▸ h.ascending
  obtain ⟨hfirst, hrest⟩ := List.pairwise_cons.mp hascending
  have hemitted : (TopologicalSort.visit enqueue graph.targets node rest state).emitted =
      state.emitted ++ [node] := emitted_foldl_release _ _
  refine ⟨h.sorting.visit henqueue hqueue, ascending_foldl_release hkeeps _ hrest, ?_⟩
  intro order horder
  rw [hemitted]
  rcases h.leads order horder with ⟨later, hopen⟩ | hless
  · cases later with
    | nil =>
      -- the order has ended, but the node is still to come
      have hmem : node ∈ state.emitted := by
        rw [List.append_nil] at hopen
        rw [hopen, horder.perm.mem_iff]
        exact ((h.sorting.ready node).mp (by simp [hqueue])).1
      have hdisjoint := (List.nodup_append.mp h.sorting.nodup).2.2
      exact absurd rfl (hdisjoint node hmem node (by simp [hqueue]))
    | cons next later =>
      have hnext := h.sorting.mem_queue_of_next horder hopen.symm
      rw [hqueue, List.mem_cons] at hnext
      rcases hnext with rfl | hwaits
      · exact .inl ⟨later, by rw [← hopen, List.append_assoc, List.singleton_append]⟩
      · by_cases hsame : node = next
        · subst hsame
          exact .inl ⟨later, by rw [← hopen, List.append_assoc, List.singleton_append]⟩
        · have hlt : node < next := by
            by_contra hnot
            exact hsame (Std.Trichotomous.trichotomous node next hnot (hfirst next hwaits))
          refine .inr fun more ↦ ?_
          rw [List.append_assoc, ← hopen]
          exact lt_of_common hlt more later
  · exact Leads.concat_of_lt hless node

theorem drain_of_greedy (henqueue : ∀ node queue, (enqueue node queue).Perm (node :: queue))
    (hkeeps : ∀ node queue, Ascending queue → Ascending (enqueue node queue)) {fuel : ℕ}
    {final : State Node} (hdrain : drain enqueue graph.targets fuel state = some final)
    (h : Greedy graph state) : Greedy graph final := by
  induction fuel generalizing state with
  | zero =>
    unfold drain at hdrain
    split at hdrain
    · exact Option.some.inj hdrain ▸ h
    · cases hdrain
  | succ fuel ih =>
    unfold drain at hdrain
    split at hdrain
    · exact Option.some.inj hdrain ▸ h
    · rename_i hqueue
      exact ih hdrain (h.visit henqueue hkeeps hqueue)

end Greedy

end Foundations.TopologicalSort
