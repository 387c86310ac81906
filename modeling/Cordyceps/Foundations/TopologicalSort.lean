import Mathlib.Data.List.Nodup
import Mathlib.Data.Fintype.EquivFin
import Mathlib.Data.Fintype.Sets
import Mathlib.Logic.Relation
import Mathlib.Order.WellFounded

/-!
# Sorting a finite graph by in-degrees

Kahn's algorithm: nodes without an open edge wait in a queue; emitting one closes
its outgoing edges and may put their targets into the queue. The order in the
queue is the caller's. When the queue is empty, all nodes were emitted exactly if
the graph has no cycle, and every edge then points forward.
-/

namespace Foundations.TopologicalSort

variable {Node : Type*} [DecidableEq Node]

/-- A finite directed graph. -/
structure Graph (Node : Type*) where
  nodes : List Node
  targets : Node → List Node
  nodup : nodes.Nodup
  nodup_targets : ∀ node ∈ nodes, (targets node).Nodup
  closed : ∀ node ∈ nodes, ∀ target ∈ targets node, target ∈ nodes

/-- There is an edge from the first to the second node. -/
def Graph.Edge (graph : Graph Node) (first second : Node) : Prop :=
  first ∈ graph.nodes ∧ second ∈ graph.targets first

def Graph.Acyclic (graph : Graph Node) : Prop :=
  ∀ node, ¬ Relation.TransGen graph.Edge node node

/-- `degree` counts the open edges to a node; `emitted` is the result so far. -/
structure State (Node : Type*) where
  degree : Node → ℤ
  queue : List Node
  emitted : List Node

/-- One edge to the target is closed. -/
def release (enqueue : Node → List Node → List Node) (state : State Node) (target : Node) :
    State Node :=
  { state with
    degree := Function.update state.degree target (state.degree target - 1)
    queue := if state.degree target - 1 = 0 then enqueue target state.queue else state.queue }

/-- Emit the node that heads the queue. -/
def visit (enqueue : Node → List Node → List Node) (targets : Node → List Node) (node : Node)
    (rest : List Node) (state : State Node) : State Node :=
  (targets node).foldl (release enqueue)
    { state with queue := rest, emitted := state.emitted ++ [node] }

/-- Emit until the queue is empty. -/
def drain (enqueue : Node → List Node → List Node) (targets : Node → List Node) :
    ℕ → State Node → Option (State Node)
  | fuel, state =>
    match state.queue with
    | [] => some state
    | node :: rest =>
      match fuel with
      | 0 => none
      | fuel + 1 => drain enqueue targets fuel (visit enqueue targets node rest state)

/-- How many open edges a node has when these were emitted. -/
def waiting (graph : Graph Node) (emitted : List Node) (node : Node) : ℕ :=
  graph.nodes.countP fun source ↦ source ∉ emitted ∧ node ∈ graph.targets source

/-- What every emission keeps. -/
structure Sorting (graph : Graph Node) (state : State Node) : Prop where
  degree : ∀ node ∈ graph.nodes, state.degree node = waiting graph state.emitted node
  nodup : (state.emitted ++ state.queue).Nodup
  ready : ∀ node, node ∈ state.emitted ++ state.queue ↔
    node ∈ graph.nodes ∧ state.degree node = 0
  ordered : ∀ first second, graph.Edge first second → second ∈ state.emitted →
    [first, second].Sublist state.emitted

/-! ## One emission -/

section Release

variable {enqueue : Node → List Node → List Node} {targets : List Node} {state : State Node}

theorem emitted_foldl_release (targets : List Node) (state : State Node) :
    (targets.foldl (release enqueue) state).emitted = state.emitted := by
  induction targets generalizing state with
  | nil => rfl
  | cons target rest ih => rw [List.foldl_cons, ih, release]

theorem degree_foldl_release (hnodup : targets.Nodup) (node : Node) :
    (targets.foldl (release enqueue) state).degree node =
      if node ∈ targets then state.degree node - 1 else state.degree node := by
  induction targets generalizing state with
  | nil => simp
  | cons target rest ih =>
    obtain ⟨hnot, hrest⟩ := List.nodup_cons.mp hnodup
    rw [List.foldl_cons, ih hrest]
    by_cases hnode : node = target
    · subst hnode
      simp [hnot, release]
    · simp [hnode, release]

/-- The targets whose last open edge is closed join the queue. -/
theorem queue_foldl_release (henqueue : ∀ node queue, (enqueue node queue).Perm (node :: queue))
    (hnodup : targets.Nodup) : (targets.foldl (release enqueue) state).queue.Perm
      (state.queue ++ targets.filter fun node ↦ state.degree node = 1) := by
  induction targets generalizing state with
  | nil => simp
  | cons target rest ih =>
    obtain ⟨hnot, hrest⟩ := List.nodup_cons.mp hnodup
    have hsame : rest.filter (fun node ↦ (release enqueue state target).degree node = 1) =
        rest.filter fun node ↦ state.degree node = 1 := by
      apply List.filter_congr
      intro node hmem
      have hne : node ≠ target := fun heq ↦ hnot (heq ▸ hmem)
      simp [release, hne]
    have hstep := @ih (release enqueue state target) hrest
    rw [hsame] at hstep
    rw [List.foldl_cons]
    apply hstep.trans
    by_cases hone : state.degree target = 1
    · simp only [release, hone, Int.sub_self, if_true, List.filter_cons, decide_true]
      exact ((henqueue target state.queue).append_right _).trans List.perm_middle.symm
    · have hopen : state.degree target - 1 ≠ 0 := fun h ↦ hone (Int.sub_eq_zero.mp h)
      simp [release, hone, hopen]

end Release

section Visit

variable {graph : Graph Node} {state : State Node} {node : Node} {rest : List Node}

theorem waiting_eq_zero_iff {emitted : List Node} : waiting graph emitted node = 0 ↔
    ∀ source, graph.Edge source node → source ∈ emitted := by
  rw [waiting, List.countP_eq_zero]
  constructor
  · intro h source hedge
    have hsource := h source hedge.1
    by_contra hnot
    exact hsource (by simpa using ⟨hnot, hedge.2⟩)
  · intro h source hmem
    simp only [decide_eq_true_eq, not_and]
    exact fun hnot hedge ↦ hnot (h source ⟨hmem, hedge⟩)

/-- Emitting a node closes its own edges and no other. -/
theorem waiting_concat {emitted : List Node} (hnode : node ∈ graph.nodes) (hnew : node ∉ emitted)
    (target : Node) : (waiting graph (emitted ++ [node]) target : ℤ) =
      if target ∈ graph.targets node then (waiting graph emitted target : ℤ) - 1
      else waiting graph emitted target := by
  have hperm : graph.nodes.Perm (node :: graph.nodes.erase node) := List.perm_cons_erase hnode
  have hrest : (graph.nodes.erase node).countP (fun source ↦
        source ∉ emitted ++ [node] ∧ target ∈ graph.targets source) =
      (graph.nodes.erase node).countP fun source ↦
        source ∉ emitted ∧ target ∈ graph.targets source := by
    apply List.countP_congr
    intro source hmem
    have hne : source ≠ node := (graph.nodup.mem_erase_iff.mp hmem).1
    simp [hne]
  unfold waiting
  rw [hperm.countP_eq, hperm.countP_eq, List.countP_cons, List.countP_cons, hrest]
  by_cases htarget : target ∈ graph.targets node
  · simp [htarget, hnew]
  · simp [htarget]

/-- Emitting the head of the queue keeps the invariant. -/
theorem Sorting.visit {enqueue : Node → List Node → List Node}
    (henqueue : ∀ node queue, (enqueue node queue).Perm (node :: queue))
    (h : Sorting graph state) (hqueue : state.queue = node :: rest) :
    Sorting graph (visit enqueue graph.targets node rest state) := by
  have hmem : node ∈ state.emitted ++ state.queue := by simp [hqueue]
  obtain ⟨hnode, hzero⟩ := (h.ready node).mp hmem
  have hnew : node ∉ state.emitted := by
    have hdisjoint := (List.nodup_append.mp h.nodup).2.2
    exact fun hin ↦ hdisjoint node hin node (by simp [hqueue]) rfl
  have hnodup := graph.nodup_targets node hnode
  have hemitted : (TopologicalSort.visit enqueue graph.targets node rest state).emitted =
      state.emitted ++ [node] := emitted_foldl_release _ _
  have hdegree : ∀ other,
      (TopologicalSort.visit enqueue graph.targets node rest state).degree other =
        if other ∈ graph.targets node then state.degree other - 1 else state.degree other :=
    fun other ↦ degree_foldl_release hnodup other
  have hperm : ((TopologicalSort.visit enqueue graph.targets node rest state).emitted ++
      (TopologicalSort.visit enqueue graph.targets node rest state).queue).Perm
        ((state.emitted ++ state.queue) ++
          (graph.targets node).filter fun other ↦ state.degree other = 1) := by
    rw [hemitted, hqueue, List.append_assoc, List.append_assoc]
    exact (queue_foldl_release henqueue hnodup).append_left _ |>.append_left _
  -- an edge out of a node that is not emitted is open
  have hopen : ∀ other, other ∈ graph.targets node → other ∉ state.emitted ++ state.queue := by
    intro other htarget hready
    obtain ⟨hother, hclosed⟩ := (h.ready other).mp hready
    rw [h.degree other hother, Int.ofNat_eq_zero, waiting_eq_zero_iff] at hclosed
    exact hnew (hclosed node ⟨hnode, htarget⟩)
  constructor
  case degree =>
    intro other hother
    rw [hdegree, hemitted, waiting_concat hnode hnew, h.degree other hother]
  case nodup =>
    rw [hperm.nodup_iff, List.nodup_append]
    refine ⟨h.nodup, hnodup.filter _, ?_⟩
    rintro other hready _ hjoined rfl
    exact hopen other (List.mem_of_mem_filter hjoined) hready
  case ready =>
    intro other
    rw [hperm.mem_iff, List.mem_append, List.mem_filter, h.ready, hdegree]
    by_cases htarget : other ∈ graph.targets node
    · have hother := graph.closed node hnode other htarget
      have hnot : state.degree other ≠ 0 := fun hzero ↦
        hopen other htarget ((h.ready other).mpr ⟨hother, hzero⟩)
      simp [htarget, hother, hnot, Int.sub_eq_zero]
    · simp [htarget]
  case ordered =>
    intro first second hedge hsecond
    rw [hemitted] at hsecond ⊢
    rcases List.mem_append.mp hsecond with hold | hlast
    · exact (h.ordered first second hedge hold).trans (List.sublist_append_left _ _)
    · rw [List.mem_singleton.mp hlast] at hedge ⊢
      rw [h.degree node hnode, Int.ofNat_eq_zero, waiting_eq_zero_iff] at hzero
      have hfirst : [first].Sublist state.emitted :=
        List.singleton_sublist.mpr (hzero first hedge)
      exact hfirst.append (List.Sublist.refl [node])

end Visit

/-! ## The whole run -/

section Drain

variable {graph : Graph Node} {state : State Node}

theorem Sorting.length_le (h : Sorting graph state) :
    (state.emitted ++ state.queue).length ≤ graph.nodes.length := by
  apply (List.subperm_of_subset h.nodup ?_).length_le
  exact fun node hmem ↦ ((h.ready node).mp hmem).1

/-- Every emission emits a new node, so the queue runs empty. -/
theorem drain_of_sorting {enqueue : Node → List Node → List Node}
    (henqueue : ∀ node queue, (enqueue node queue).Perm (node :: queue)) {fuel : ℕ}
    (h : Sorting graph state) (hfuel : graph.nodes.length ≤ fuel + state.emitted.length) :
    ∃ final, drain enqueue graph.targets fuel state = some final ∧ Sorting graph final ∧
      final.queue = [] := by
  induction fuel generalizing state with
  | zero =>
    have hlength := h.length_le
    have hqueue : state.queue = [] := by
      rw [List.length_append] at hlength
      apply List.eq_nil_of_length_eq_zero
      omega
    refine ⟨state, ?_, h, hqueue⟩
    unfold drain
    simp [hqueue]
  | succ fuel ih =>
    unfold drain
    cases hqueue : state.queue with
    | nil => exact ⟨state, rfl, h, hqueue⟩
    | cons node rest =>
      apply ih (h.visit henqueue hqueue)
      have hemitted : (visit enqueue graph.targets node rest state).emitted =
          state.emitted ++ [node] := emitted_foldl_release _ _
      rw [hemitted, List.length_append, List.length_singleton]
      omega

theorem idxOf_lt_of_sublist {first second : Node} {nodes : List Node} (hnodup : nodes.Nodup)
    (h : [first, second].Sublist nodes) : nodes.idxOf first < nodes.idxOf second := by
  obtain ⟨before, after, rfl, hfirst, hsecond⟩ := List.cons_sublist_iff.mp h
  rw [List.singleton_sublist] at hsecond
  have hnot : second ∉ before := by
    intro hin
    exact (List.nodup_append.mp hnodup).2.2 second hin second hsecond rfl
  rw [List.idxOf_append_of_mem hfirst, List.idxOf_append_of_notMem hnot]
  have hlt := List.idxOf_lt_length_of_mem hfirst
  omega

/-- A node that is left has an open edge from a node that is left. -/
theorem Sorting.left (h : Sorting graph state) (hqueue : state.queue = []) {node : Node}
    (hnode : node ∈ graph.nodes) (hleft : node ∉ state.emitted) :
    ∃ source, graph.Edge source node ∧ source ∉ state.emitted := by
  by_contra hnone
  push Not at hnone
  apply hleft
  have hzero := waiting_eq_zero_iff.mpr hnone
  have hready := (h.ready node).mpr ⟨hnode, by rw [h.degree node hnode, hzero]; rfl⟩
  simpa [hqueue] using hready

/-- In a finite graph without a cycle, what has no first node is empty. -/
theorem eq_empty_of_acyclic (hacyclic : graph.Acyclic) {left : Set Node}
    (hnodes : ∀ node ∈ left, node ∈ graph.nodes)
    (hopen : ∀ node ∈ left, ∃ source ∈ left, graph.Edge source node) : left = ∅ := by
  let precedes : {node // node ∈ graph.nodes} → {node // node ∈ graph.nodes} → Prop :=
    fun first second ↦ Relation.TransGen graph.Edge first second
  have : IsTrans {node // node ∈ graph.nodes} precedes := ⟨fun _ _ _ ↦ Relation.TransGen.trans⟩
  have : Std.Irrefl precedes := ⟨fun node ↦ hacyclic node⟩
  have hwf : WellFounded precedes := Finite.wellFounded_of_trans_of_irrefl precedes
  by_contra hne
  obtain ⟨node, hnode⟩ := Set.nonempty_iff_ne_empty.mpr hne
  obtain ⟨first, hfirst, hmin⟩ := hwf.has_min {node | node.1 ∈ left}
    ⟨⟨node, hnodes node hnode⟩, hnode⟩
  obtain ⟨source, hsource, hedge⟩ := hopen first hfirst
  exact hmin ⟨source, hedge.1⟩ hsource (.single hedge)

/-- When the queue is empty, everything was emitted exactly if there is no cycle. -/
theorem Sorting.complete_iff (h : Sorting graph state) (hqueue : state.queue = []) :
    state.emitted.Perm graph.nodes ↔ graph.Acyclic := by
  have hnodup : state.emitted.Nodup := by simpa [hqueue] using h.nodup
  have hsubset : ∀ node ∈ state.emitted, node ∈ graph.nodes :=
    fun node hmem ↦ ((h.ready node).mp (List.mem_append_left _ hmem)).1
  constructor
  · intro hperm node hcycle
    have hforward : ∀ first second, Relation.TransGen graph.Edge first second →
        state.emitted.idxOf first < state.emitted.idxOf second := by
      intro first second hpath
      have hedge : ∀ source target, graph.Edge source target →
          state.emitted.idxOf source < state.emitted.idxOf target := fun source target hedge ↦
        idxOf_lt_of_sublist hnodup (h.ordered source target hedge
          (hperm.mem_iff.mpr (graph.closed source hedge.1 target hedge.2)))
      induction hpath with
      | single hlast => exact hedge _ _ hlast
      | tail _ hlast ih => exact ih.trans (hedge _ _ hlast)
    exact lt_irrefl _ (hforward node node hcycle)
  · intro hacyclic
    have hnone : {node | node ∈ graph.nodes ∧ node ∉ state.emitted} = ∅ := by
      apply eq_empty_of_acyclic hacyclic (fun node hleft ↦ hleft.1)
      rintro node ⟨hnode, hleft⟩
      obtain ⟨source, hedge, hsource⟩ := h.left hqueue hnode hleft
      exact ⟨source, ⟨hedge.1, hsource⟩, hedge⟩
    rw [List.perm_ext_iff_of_nodup hnodup graph.nodup]
    refine fun node ↦ ⟨hsubset node, fun hnode ↦ ?_⟩
    by_contra hleft
    exact Set.notMem_empty node (hnone ▸ ⟨hnode, hleft⟩)

end Drain

end Foundations.TopologicalSort
