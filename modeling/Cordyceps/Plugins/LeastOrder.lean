import Cordyceps.Plugins.LoadOrder
import Cordyceps.Foundations.LeastOrder

/-!
# The load order does not depend on the order of discovery

The queue of `topoSort` holds its names in ascending order. So a group comes back
in the least order of names that its hints allow, and the same plugins come back in
the same order however they were found.
-/

namespace Cordyceps.Plugins

open Foundations Foundations.TopologicalSort

/-- The least of the orders that the hints of a group allow, by names. -/
structure Least (group sorted : List CordycepsPlugin) : Prop where
  placed : Placed group sorted
  least : ∀ other, Placed group other →
    sorted.map CordycepsPlugin.name ≤ other.map CordycepsPlugin.name

/-! ## The queue -/

theorem ascending_enqueue (target : JsString) (queue : List JsString) (h : Ascending queue) :
    Ascending (enqueue target queue) := by
  set behind := queue.dropWhile fun name ↦ !decide (target < name) with hbehind
  have hsplit : queue.takeWhile (fun name ↦ !decide (target < name)) ++ behind = queue :=
    List.takeWhile_append_dropWhile
  rw [Ascending, ← hsplit, List.pairwise_append] at h
  obtain ⟨hfront, hback, hcross⟩ := h
  have hbefore : ∀ name ∈ queue.takeWhile (fun name ↦ !decide (target < name)),
      ¬ target < name := by
    intro name hname
    simpa using List.mem_takeWhile_imp hname
  have hafter : ∀ name ∈ behind, ¬ name < target := by
    intro name hname hless
    cases hcons : behind with
    | nil => simp [hcons] at hname
    | cons first rest =>
      -- the first name behind the target is greater, and the others are not less than it
      have hgreater : target < first := by
        have hne : behind ≠ [] := by simp [hcons]
        have hhead := List.head_dropWhile_not (fun name ↦ !decide (target < name)) hne
        have hfirst : behind.head hne = first := by simp [hcons]
        rw [hfirst] at hhead
        simpa using hhead
      have hlt : name < first := List.lt_trans hless hgreater
      rw [hcons] at hname hback
      rcases List.mem_cons.mp hname with rfl | hrest
      · exact List.lt_irrefl _ hlt
      · exact (List.pairwise_cons.mp hback).1 name hrest hlt
  rw [enqueue, Ascending, List.pairwise_append, List.pairwise_cons]
  refine ⟨hfront, ⟨hafter, hback⟩, ?_⟩
  intro first hfirst second hsecond
  rcases List.mem_cons.mp hsecond with rfl | hrest
  · exact hbefore first hfirst
  · exact hcross first hfirst second hrest

/-! ## One group -/

section Group

variable {group all : List CordycepsPlugin}

theorem greedy_startSorting (hsublist : group.Sublist all)
    (hnames : (all.map CordycepsPlugin.name).Nodup) :
    Greedy (graphOf group all hsublist hnames)
      (startSorting (nameSet group) (edgesOf group all)).view := by
  refine ⟨(startSorting_spec hsublist hnames).1, ?_, fun order _ ↦ .inl List.nil_prefix⟩
  have : Std.Total fun first second : JsString ↦ ¬ second < first := ⟨List.le_total⟩
  have : IsTrans JsString fun first second ↦ ¬ second < first :=
    ⟨fun _ _ _ hfirst hsecond ↦ List.le_trans hfirst hsecond⟩
  exact List.pairwise_insertionSort _ _

theorem Placed.respects (hsublist : group.Sublist all)
    (hnames : (all.map CordycepsPlugin.name).Nodup) {order : List CordycepsPlugin}
    (h : Placed group order) :
    (graphOf group all hsublist hnames).Respects (order.map CordycepsPlugin.name) := by
  refine ⟨h.perm.map _, fun source target hedge ↦ ?_⟩
  obtain ⟨first, second, hprecedes, rfl, rfl⟩ := (edge_iff hsublist hnames _ _).mp hedge
  exact (h.forward first second hprecedes).map CordycepsPlugin.name

/-- A group that is put in order is put in the least one. -/
theorem topoSort_least (hsublist : group.Sublist all)
    (hnames : (all.map CordycepsPlugin.name).Nodup) {sorted : List CordycepsPlugin}
    (h : topoSort group all = .ok sorted) : Least group sorted := by
  have hplaced : Placed group sorted := by
    rcases topoSort_cases hsublist hnames with ⟨_, missing, herror⟩ | ⟨_, other, hok, hother⟩
    · cases h.symm.trans herror
    · cases h.symm.trans hok
      exact hother
  refine ⟨hplaced, fun other hother ↦ ?_⟩
  obtain ⟨done, hsort, -, hdrain, -, -⟩ := topoSort_drain hsublist hnames
  have hgreedy := drain_of_greedy perm_enqueue ascending_enqueue hdrain
    (greedy_startSorting hsublist hnames)
  have hdone : done.result = sorted := by
    rw [hsort] at h
    split at h
    · cases h
    · exact Except.ok.inj h
  have hemitted : done.view.emitted = sorted.map CordycepsPlugin.name :=
    congrArg (List.map CordycepsPlugin.name) hdone
  rw [← hemitted]
  exact hgreedy.least (hother.respects hsublist hnames) (hemitted ▸ hplaced.perm.map _)

end Group

/-! ## The same plugins, found in another order -/

section Permutation

variable {group group' : List CordycepsPlugin}

theorem precedes_perm (hperm : group.Perm group') (first second : CordycepsPlugin) :
    Precedes group first second ↔ Precedes group' first second := by
  rw [Precedes, Precedes, hperm.mem_iff, hperm.mem_iff]

theorem cyclic_perm (hperm : group.Perm group') : Cyclic group ↔ Cyclic group' := by
  have hsame : Precedes group = Precedes group' := by
    funext first second
    exact propext (precedes_perm hperm first second)
  rw [Cyclic, Cyclic, hsame]

theorem Placed.of_perm {sorted : List CordycepsPlugin} (hperm : group.Perm group')
    (h : Placed group sorted) : Placed group' sorted :=
  ⟨h.perm.trans hperm, fun first second hprecedes ↦
    h.forward first second ((precedes_perm hperm first second).mpr hprecedes)⟩

/-- Plugins with distinct names are known by the list of their names. -/
theorem eq_of_names {all first second : List CordycepsPlugin}
    (hnames : (all.map CordycepsPlugin.name).Nodup) (hfirst : ∀ plugin ∈ first, plugin ∈ all)
    (hsecond : ∀ plugin ∈ second, plugin ∈ all)
    (h : first.map CordycepsPlugin.name = second.map CordycepsPlugin.name) : first = second := by
  have hget : ∀ order : List CordycepsPlugin, (∀ plugin ∈ order, plugin ∈ all) →
      order.map some = (order.map CordycepsPlugin.name).map (byName all).get := by
    intro order horder
    rw [List.map_map]
    exact List.map_congr_left fun plugin hplugin ↦ (get_byName hnames (horder plugin hplugin)).symm
  apply List.map_injective_iff.mpr (Option.some_injective CordycepsPlugin)
  rw [hget first hfirst, hget second hsecond, h]

/-- A group has one least order. -/
theorem Least.unique (hperm : group.Perm group') (hnames : (group.map CordycepsPlugin.name).Nodup)
    {sorted sorted' : List CordycepsPlugin} (h : Least group sorted) (h' : Least group' sorted') :
    sorted = sorted' := by
  have hle := h.least sorted' (h'.placed.of_perm hperm.symm)
  have hle' := h'.least sorted (h.placed.of_perm hperm)
  have hsorted : ∀ plugin ∈ sorted, plugin ∈ group := fun plugin hplugin ↦
    h.placed.perm.mem_iff.mp hplugin
  have hsorted' : ∀ plugin ∈ sorted', plugin ∈ group := fun plugin hplugin ↦
    hperm.mem_iff.mpr (h'.placed.perm.mem_iff.mp hplugin)
  exact eq_of_names hnames hsorted hsorted' (List.le_antisymm hle hle')

/-- A group is refused, or put in the one order, however its plugins are listed. -/
theorem topoSort_perm {all all' : List CordycepsPlugin} (hperm : group.Perm group')
    (hsublist : group.Sublist all) (hsublist' : group'.Sublist all')
    (hnames : (all.map CordycepsPlugin.name).Nodup)
    (hnames' : (all'.map CordycepsPlugin.name).Nodup) :
    ((∃ missing, topoSort group all = .error (.circular missing)) ∧
        ∃ missing, topoSort group' all' = .error (.circular missing)) ∨
      ∃ sorted, topoSort group all = .ok sorted ∧ topoSort group' all' = .ok sorted ∧
        Least group sorted := by
  rcases topoSort_cases hsublist hnames with ⟨hcyclic, herror⟩ | ⟨hacyclic, sorted, hok, -⟩
  · rcases topoSort_cases hsublist' hnames' with ⟨-, herror'⟩ | ⟨hacyclic', -⟩
    · exact .inl ⟨herror, herror'⟩
    · exact absurd ((cyclic_perm hperm).mp hcyclic) hacyclic'
  · rcases topoSort_cases hsublist' hnames' with ⟨hcyclic', -⟩ | ⟨-, sorted', hok', -⟩
    · exact absurd ((cyclic_perm hperm).mpr hcyclic') hacyclic
    · have hleast := topoSort_least hsublist hnames hok
      have hleast' := topoSort_least hsublist' hnames' hok'
      obtain rfl := hleast.unique hperm (hnames.sublist (hsublist.map _)) hleast'
      exact .inr ⟨sorted, hok, hok', hleast⟩

end Permutation

/-! ## All groups -/

section Groups

variable {plugins plugins' : List CordycepsPlugin}

theorem ofPriority_append (first second : List CordycepsPlugin) (priority : ℤ) :
    ofPriority (first ++ second) priority = ofPriority first priority ++ ofPriority second priority :=
  List.filter_append ..

theorem ofPriority_eq_self {group : List CordycepsPlugin} {priority : ℤ}
    (h : ∀ plugin ∈ group, plugin.priority = priority) : ofPriority group priority = group :=
  List.filter_eq_self.mpr fun plugin hplugin ↦ by simpa using h plugin hplugin

theorem ofPriority_eq_nil {group : List CordycepsPlugin} {priority : ℤ}
    (h : ∀ plugin ∈ group, plugin.priority ≠ priority) : ofPriority group priority = [] :=
  List.filter_eq_nil_iff.mpr fun plugin hplugin ↦ by simpa using h plugin hplugin

/-- The groups are refused, or put in order one by one, however the plugins are listed. -/
theorem sortGroups_perm (hperm : plugins.Perm plugins')
    (hnames : (plugins.map CordycepsPlugin.name).Nodup) {priorities : List ℤ}
    (hnodup : priorities.Nodup) :
    ((∃ missing, sortGroups (groupsOf plugins) plugins priorities = .error (.circular missing)) ∧
        ∃ missing, sortGroups (groupsOf plugins') plugins' priorities =
          .error (.circular missing)) ∨
      ∃ sorted, sortGroups (groupsOf plugins) plugins priorities = .ok sorted ∧
        sortGroups (groupsOf plugins') plugins' priorities = .ok sorted ∧
        (∀ priority ∈ priorities, Least (ofPriority plugins priority) (ofPriority sorted priority)) ∧
        ∀ plugin ∈ sorted, plugin.priority ∈ priorities := by
  have hnames' : (plugins'.map CordycepsPlugin.name).Nodup := (hperm.map _).nodup_iff.mp hnames
  induction priorities with
  | nil => exact .inr ⟨[], rfl, rfl, by simp, by simp⟩
  | cons priority rest ih =>
    obtain ⟨hnew, hrest⟩ := List.nodup_cons.mp hnodup
    have hgroup : (ofPriority plugins priority).Perm (ofPriority plugins' priority) :=
      hperm.filter _
    rw [sortGroups, sortGroups, get_groupsOf, get_groupsOf]
    rcases topoSort_perm hgroup List.filter_sublist List.filter_sublist hnames hnames' with
      ⟨⟨missing, herror⟩, missing', herror'⟩ | ⟨group, hok, hok', hleast⟩
    · rw [herror, herror']
      exact .inl ⟨⟨missing, rfl⟩, missing', rfl⟩
    · rw [hok, hok']
      rcases ih hrest with ⟨⟨missing, herror⟩, missing', herror'⟩ |
        ⟨others, hothers, hothers', hleasts, hpriorities⟩
      · rw [herror, herror']
        exact .inl ⟨⟨missing, rfl⟩, missing', rfl⟩
      · rw [hothers, hothers']
        have hpriority : ∀ plugin ∈ group, plugin.priority = priority := fun plugin hplugin ↦
          priority_of_mem_ofPriority (hleast.placed.perm.mem_iff.mp hplugin)
        refine .inr ⟨group ++ others, rfl, rfl, ?_, ?_⟩
        · intro other hother
          rw [ofPriority_append]
          rcases List.mem_cons.mp hother with rfl | hmem
          · have hnone : ofPriority others other = [] := ofPriority_eq_nil fun plugin hplugin heq ↦
              hnew (heq ▸ hpriorities plugin hplugin)
            rw [ofPriority_eq_self hpriority, hnone, List.append_nil]
            exact hleast
          · have hnone : ofPriority group other = [] := ofPriority_eq_nil fun plugin hplugin heq ↦
              hnew ((hpriority plugin hplugin).symm.trans heq ▸ hmem)
            rw [hnone, List.nil_append]
            exact hleasts other hmem
        · intro plugin hplugin
          rcases List.mem_append.mp hplugin with hmem | hmem
          · exact hpriority plugin hmem ▸ List.mem_cons_self
          · exact List.mem_cons_of_mem _ (hpriorities plugin hmem)

/-- Permuted lists have the same priorities, in the same order. -/
theorem priorities_perm (hperm : plugins.Perm plugins') :
    ((groupsOf plugins).entries.map Prod.fst).insertionSort (· ≤ ·) =
      ((groupsOf plugins').entries.map Prod.fst).insertionSort (· ≤ ·) := by
  have hsame : (((groupsOf plugins).entries.map Prod.fst).insertionSort (· ≤ ·)).Perm
      (((groupsOf plugins').entries.map Prod.fst).insertionSort (· ≤ ·)) := by
    rw [List.perm_ext_iff_of_nodup (nodup_priorities plugins) (nodup_priorities plugins')]
    intro priority
    simp only [mem_priorities, hperm.mem_iff]
  exact hsame.eq_of_pairwise' (List.pairwise_insertionSort _ _) (List.pairwise_insertionSort _ _)

/-- Plugins with distinct names are refused in every order in which they can be found, or come back
in the same order from all, which is the least one in each priority. -/
theorem sortPlugins_perm (plugins plugins' : List CordycepsPlugin)
    (hnames : (plugins.map CordycepsPlugin.name).Nodup) (hperm : plugins.Perm plugins') :
    ((∃ missing, sortPlugins plugins = .error (.circular missing)) ∧
        ∃ missing, sortPlugins plugins' = .error (.circular missing)) ∨
      ∃ sorted, sortPlugins plugins = .ok sorted ∧ sortPlugins plugins' = .ok sorted ∧
        ∀ plugin ∈ plugins,
          Least (ofPriority plugins plugin.priority) (ofPriority sorted plugin.priority) := by
  rw [sortPlugins, sortPlugins, ← priorities_perm hperm]
  rcases sortGroups_perm hperm hnames (nodup_priorities plugins) with
    herrors | ⟨sorted, hok, hok', hleast, -⟩
  · exact .inl herrors
  · refine .inr ⟨sorted, hok, hok', fun plugin hplugin ↦ ?_⟩
    exact hleast plugin.priority ((mem_priorities plugins _).mpr ⟨plugin, hplugin, rfl⟩)

/-- Refused in both orders, and sorted alike from both. -/
theorem sortPlugins_perm_mutual_ordered :
    (((∃ missing, sortPlugins mutualPlugins = .error (.circular missing)) ∧
          ∃ missing, sortPlugins mutualPlugins.reverse = .error (.circular missing)) ∨
        ∃ sorted, sortPlugins mutualPlugins = .ok sorted ∧
          sortPlugins mutualPlugins.reverse = .ok sorted ∧
          ∀ plugin ∈ mutualPlugins,
            Least (ofPriority mutualPlugins plugin.priority) (ofPriority sorted plugin.priority)) ∧
      ∃ sorted, sortPlugins orderedPlugins = .ok sorted ∧
        sortPlugins orderedPlugins.reverse = .ok sorted ∧
        ∀ plugin ∈ orderedPlugins,
          Least (ofPriority orderedPlugins plugin.priority) (ofPriority sorted plugin.priority) := by
  refine ⟨sortPlugins_perm _ _ (by decide) (List.reverse_perm _).symm, ?_⟩
  have hordered := sortPlugins_perm orderedPlugins orderedPlugins.reverse (by decide)
    (List.reverse_perm _).symm
  refine hordered.resolve_left ?_
  rw [sortPlugins_orderedPlugins]
  rintro ⟨⟨missing, hmissing⟩, -⟩
  cases hmissing

end Groups

end Cordyceps.Plugins
