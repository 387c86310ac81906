import Cordyceps.Plugins.Loader
import Cordyceps.Foundations.TopologicalSort
import Mathlib.Algebra.GroupWithZero.Nat

/-!
# The order in which plugins are loaded

The hints inside one priority group are a finite graph, and `topoSort` is the
in-degree sort of that graph on maps and plugin objects. So it finds an order
exactly if the hints have no cycle, and the order respects them all.
-/

namespace Cordyceps.Plugins

open Foundations

/-- A hint of one of the two says that the first has to come before the second. -/
def Requires (first second : CordycepsPlugin) : Prop :=
  first.name ∈ second.after ∨ second.name ∈ first.before

/-- A hint between two plugins of one group. -/
def Precedes (group : List CordycepsPlugin) (first second : CordycepsPlugin) : Prop :=
  first ∈ group ∧ second ∈ group ∧ Requires first second

/-! ## Sets of names -/

theorem mem_foldl_addName (added names : List JsString) (name : JsString) :
    name ∈ added.foldl addName names ↔ name ∈ names ∨ name ∈ added := by
  induction added generalizing names with
  | nil => simp
  | cons head rest ih =>
    have hadd : name ∈ addName names head ↔ name ∈ names ∨ name = head := by
      unfold addName
      split
      · rename_i hmem
        exact ⟨.inl, fun h ↦ h.elim id fun heq ↦ heq ▸ hmem⟩
      · simp
    rw [List.foldl_cons, ih, hadd, List.mem_cons, or_assoc]

theorem nodup_foldl_addName (added : List JsString) {names : List JsString} (h : names.Nodup) :
    (added.foldl addName names).Nodup := by
  induction added generalizing names with
  | nil => exact h
  | cons head rest ih =>
    apply ih
    unfold addName
    split
    · exact h
    · rename_i hnew
      rw [List.nodup_append]
      refine ⟨h, List.nodup_singleton _, ?_⟩
      rintro name hmem _ hlast rfl
      exact hnew (List.mem_singleton.mp hlast ▸ hmem)

theorem foldl_addName_of_nodup {added names : List JsString} (h : (names ++ added).Nodup) :
    added.foldl addName names = names ++ added := by
  induction added generalizing names with
  | nil => simp
  | cons head rest ih =>
    have hnew : head ∉ names := fun hmem ↦
      (List.nodup_append.mp h).2.2 head hmem head List.mem_cons_self rfl
    rw [List.foldl_cons, addName, if_neg hnew, ih (by simpa using h)]
    simp

theorem nameSet_eq {group : List CordycepsPlugin}
    (h : (group.map CordycepsPlugin.name).Nodup) :
    nameSet group = group.map CordycepsPlugin.name :=
  foldl_addName_of_nodup h

/-! ## Edges -/

theorem get_foldl_addEdge (pairs : List (JsString × JsString))
    (edges : JsMap JsString (List JsString)) (source : JsString) :
    (pairs.foldl addEdge edges).get source = (edges.get source).map fun targets ↦
      ((pairs.filter fun edge ↦ edge.1 = source).map Prod.snd).foldl addName targets := by
  induction pairs generalizing edges with
  | nil => simp
  | cons edge rest ih =>
    rw [List.foldl_cons, ih]
    unfold addEdge
    by_cases hsource : edge.1 = source
    · subst hsource
      cases hget : edges.get edge.1 with
      | none => simp [hget]
      | some targets => simp
    · cases edges.get edge.1 with
      | none => simp [hsource]
      | some targets => simp [hsource, Ne.symm hsource]

theorem keys_addEdge (edges : JsMap JsString (List JsString)) (edge : JsString × JsString) :
    (addEdge edges edge).entries.map Prod.fst = edges.entries.map Prod.fst := by
  unfold addEdge
  cases hget : edges.get edge.1 with
  | none => rfl
  | some targets => exact JsMap.keys_setEntries _ (by rw [← JsMap.get, hget]; rfl)

theorem keys_foldl_addEdge (pairs : List (JsString × JsString))
    (edges : JsMap JsString (List JsString)) :
    (pairs.foldl addEdge edges).entries.map Prod.fst = edges.entries.map Prod.fst := by
  induction pairs generalizing edges with
  | nil => rfl
  | cons edge rest ih => rw [List.foldl_cons, ih, keys_addEdge]

/-- Plugins with distinct names are told apart by them. -/
theorem eq_of_name {all : List CordycepsPlugin} (hnames : (all.map CordycepsPlugin.name).Nodup)
    {first second : CordycepsPlugin} (hfirst : first ∈ all) (hsecond : second ∈ all)
    (h : first.name = second.name) : first = second :=
  List.inj_on_of_nodup_map hnames hfirst hsecond h

section Group

variable {group all : List CordycepsPlugin}

/-- The hints of the source, wherever they stand, are the hints between members of the group. -/
theorem mem_hints_iff (hsublist : group.Sublist all)
    (hnames : (all.map CordycepsPlugin.name).Nodup) (source target : JsString) :
    (source, target) ∈ group.flatMap (hints (nameSet group) all) ↔
      ∃ first second, Precedes group first second ∧ first.name = source ∧
        second.name = target := by
  have hmem : ∀ name, name ∈ nameSet group ↔ ∃ plugin ∈ group, plugin.name = name := by
    intro name
    rw [nameSet_eq (hnames.sublist (hsublist.map _)), List.mem_map]
  rw [List.mem_flatMap]
  constructor
  · rintro ⟨plugin, hplugin, hhint⟩
    simp only [hints, List.mem_append, List.mem_map, List.mem_filter, List.mem_flatMap,
      decide_eq_true_eq, Prod.mk.injEq] at hhint
    obtain (⟨dep, ⟨hdep, hin⟩, rfl, rfl⟩ | ⟨dep, ⟨hdep, hin⟩, rfl, rfl⟩) | ⟨other, hother, hedge⟩ :=
      hhint
    · obtain ⟨first, hfirst, rfl⟩ := (hmem dep).mp hin
      exact ⟨first, plugin, ⟨hfirst, hplugin, .inl hdep⟩, rfl, rfl⟩
    · obtain ⟨second, hsecond, rfl⟩ := (hmem dep).mp hin
      exact ⟨plugin, second, ⟨hplugin, hsecond, .inr hdep⟩, rfl, rfl⟩
    · split at hedge
      · simp at hedge
      · rename_i hskip
        obtain ⟨member, hmember, hname⟩ := (hmem other.name).mp (by
          by_contra hnot
          exact hskip (.inr hnot))
        have hsame : member = other :=
          eq_of_name hnames (hsublist.subset hmember) hother hname
        subst hsame
        rcases List.mem_append.mp hedge with hbefore | hafter
        · split at hbefore
          · obtain ⟨rfl, rfl⟩ := Prod.mk.inj (List.mem_singleton.mp hbefore)
            exact ⟨member, plugin, ⟨hmember, hplugin, .inr ‹_›⟩, rfl, rfl⟩
          · simp at hbefore
        · split at hafter
          · obtain ⟨rfl, rfl⟩ := Prod.mk.inj (List.mem_singleton.mp hafter)
            exact ⟨plugin, member, ⟨hplugin, hmember, .inl ‹_›⟩, rfl, rfl⟩
          · simp at hafter
  · rintro ⟨first, second, ⟨hfirst, hsecond, hrequires⟩, rfl, rfl⟩
    have hfirstIn := (hmem first.name).mpr ⟨first, hfirst, rfl⟩
    have hsecondIn := (hmem second.name).mpr ⟨second, hsecond, rfl⟩
    rcases hrequires with hafter | hbefore
    · refine ⟨second, hsecond, ?_⟩
      simp [hints, hafter, hfirstIn]
    · refine ⟨first, hfirst, ?_⟩
      simp [hints, hbefore, hsecondIn]

/-- The names that have to come after a name. -/
def targetsOf (group all : List CordycepsPlugin) (name : JsString) : List JsString :=
  ((edgesOf group all).get name).getD []

theorem keys_edgesOf (hnames : (group.map CordycepsPlugin.name).Nodup) :
    (edgesOf group all).entries.map Prod.fst = group.map CordycepsPlugin.name := by
  have hkeys : (group.map fun plugin ↦ (plugin.name, ([] : List JsString))).map Prod.fst =
      group.map CordycepsPlugin.name := by simp
  rw [edgesOf, keys_foldl_addEdge, JsMap.entries_setAll_empty (hkeys ▸ hnames), hkeys]

theorem targetsOf_eq (hnames : (group.map CordycepsPlugin.name).Nodup) {name : JsString}
    (hname : name ∈ group.map CordycepsPlugin.name) : targetsOf group all name =
      (((group.flatMap (hints (nameSet group) all)).filter fun edge ↦ edge.1 = name).map
        Prod.snd).foldl addName [] := by
  obtain ⟨plugin, hplugin, rfl⟩ := List.mem_map.mp hname
  have hkeys : (group.map fun plugin ↦ (plugin.name, ([] : List JsString))).map Prod.fst =
      group.map CordycepsPlugin.name := by simp
  have hinit : (JsMap.empty.setAll (group.map fun plugin ↦
      (plugin.name, ([] : List JsString)))).get plugin.name = some [] := by
    rw [JsMap.get_eq_some_iff, JsMap.entries_setAll_empty (hkeys ▸ hnames)]
    exact List.mem_map.mpr ⟨plugin, hplugin, rfl⟩
  rw [targetsOf, edgesOf, get_foldl_addEdge, hinit]
  rfl

theorem mem_targetsOf (hsublist : group.Sublist all)
    (hnames : (all.map CordycepsPlugin.name).Nodup) {source target : JsString}
    (hsource : source ∈ group.map CordycepsPlugin.name) :
    target ∈ targetsOf group all source ↔ ∃ first second, Precedes group first second ∧
      first.name = source ∧ second.name = target := by
  rw [targetsOf_eq (hnames.sublist (hsublist.map _)) hsource, mem_foldl_addName,
    ← mem_hints_iff hsublist hnames]
  simp

/-- The hints of a group as a graph of names. -/
def graphOf (group all : List CordycepsPlugin) (hsublist : group.Sublist all)
    (hnames : (all.map CordycepsPlugin.name).Nodup) : TopologicalSort.Graph JsString where
  nodes := group.map CordycepsPlugin.name
  targets := targetsOf group all
  nodup := hnames.sublist (hsublist.map _)
  nodup_targets name hname := by
    rw [targetsOf_eq (hnames.sublist (hsublist.map _)) hname]
    exact nodup_foldl_addName _ List.nodup_nil
  closed name hname target htarget := by
    obtain ⟨first, second, hprecedes, _, rfl⟩ := (mem_targetsOf hsublist hnames hname).mp htarget
    exact List.mem_map.mpr ⟨second, hprecedes.2.1, rfl⟩

theorem edge_iff (hsublist : group.Sublist all) (hnames : (all.map CordycepsPlugin.name).Nodup)
    (source target : JsString) : (graphOf group all hsublist hnames).Edge source target ↔
      ∃ first second, Precedes group first second ∧ first.name = source ∧
        second.name = target := by
  constructor
  · rintro ⟨hsource, htarget⟩
    exact (mem_targetsOf hsublist hnames hsource).mp htarget
  · rintro ⟨first, second, hprecedes, rfl, rfl⟩
    have hfirst : first.name ∈ group.map CordycepsPlugin.name :=
      List.mem_map.mpr ⟨first, hprecedes.1, rfl⟩
    exact ⟨hfirst, (mem_targetsOf hsublist hnames hfirst).mpr
      ⟨first, second, hprecedes, rfl, rfl⟩⟩

/-- The graph of names has a cycle exactly if the hints between the plugins have one. -/
theorem acyclic_iff (hsublist : group.Sublist all)
    (hnames : (all.map CordycepsPlugin.name).Nodup) :
    (graphOf group all hsublist hnames).Acyclic ↔
      ∀ plugin, ¬ Relation.TransGen (Precedes group) plugin plugin := by
  constructor
  · intro hacyclic plugin hcycle
    apply hacyclic plugin.name
    apply hcycle.lift CordycepsPlugin.name
    intro first second hprecedes
    exact (edge_iff hsublist hnames _ _).mpr ⟨first, second, hprecedes, rfl, rfl⟩
  · intro hnone name hcycle
    have hlift : ∀ source target,
        Relation.TransGen (graphOf group all hsublist hnames).Edge source target →
          ∃ first second, Relation.TransGen (Precedes group) first second ∧ first ∈ group ∧
            second ∈ group ∧ first.name = source ∧ second.name = target := by
      intro source target hpath
      induction hpath with
      | single hlast =>
        obtain ⟨first, second, hprecedes, rfl, rfl⟩ := (edge_iff hsublist hnames _ _).mp hlast
        exact ⟨first, second, .single hprecedes, hprecedes.1, hprecedes.2.1, rfl, rfl⟩
      | tail _ hlast ih =>
        obtain ⟨first, middle, hpath, hfirst, hmiddle, rfl, rfl⟩ := ih
        obtain ⟨other, second, hprecedes, hname, rfl⟩ := (edge_iff hsublist hnames _ _).mp hlast
        have hsame : other = middle := eq_of_name hnames (hsublist.subset hprecedes.1)
          (hsublist.subset hmiddle) hname
        subst hsame
        exact ⟨first, second, hpath.tail hprecedes, hfirst, hprecedes.2.1, rfl, rfl⟩
    obtain ⟨first, second, hpath, hfirst, hsecond, rfl, hname⟩ := hlift name name hcycle
    have hsame : second = first := eq_of_name hnames (hsublist.subset hsecond)
      (hsublist.subset hfirst) hname
    exact hnone first (hsame ▸ hpath)

/-! ## In-degrees -/

theorem get_foldl_countEdge (targets : List JsString) (inDegree : JsMap JsString ℤ)
    (name : JsString) : (targets.foldl countEdge inDegree).get name =
      (inDegree.get name).map fun degree : ℤ ↦ degree + ((targets.count name : ℕ) : ℤ) := by
  induction targets generalizing inDegree with
  | nil => simp
  | cons target rest ih =>
    rw [List.foldl_cons, ih]
    unfold countEdge
    by_cases htarget : target = name
    · subst htarget
      cases hget : inDegree.get target with
      | none => simp [hget]
      | some degree =>
        have hadd : degree + 1 + (rest.count target : ℕ) =
            degree + ((rest.count target + 1 : ℕ) : ℤ) := by omega
        simp [hadd]
    · cases inDegree.get target with
      | none => simp [htarget]
      | some degree => simp [htarget, Ne.symm htarget]

theorem sum_map_ite {α : Type*} (p : α → Prop) [DecidablePred p] (l : List α) :
    (l.map fun a ↦ if p a then 1 else 0).sum = l.countP p := by
  induction l with
  | nil => rfl
  | cons a l ih =>
    rw [List.map_cons, List.sum_cons, ih, List.countP_cons]
    by_cases ha : p a
    · simp [ha, Nat.add_comm]
    · simp [ha]

/-- An edge is counted once, at its target. -/
theorem get_inDegrees (hsublist : group.Sublist all)
    (hnames : (all.map CordycepsPlugin.name).Nodup) {name : JsString}
    (hname : name ∈ group.map CordycepsPlugin.name) :
    (inDegrees (nameSet group) (edgesOf group all)).get name =
      some (TopologicalSort.waiting (graphOf group all hsublist hnames) [] name : ℤ) := by
  have hgroup : (group.map CordycepsPlugin.name).Nodup := hnames.sublist (hsublist.map _)
  have hkeys : ((group.map CordycepsPlugin.name).map fun name ↦ (name, (0 : ℤ))).map Prod.fst =
      group.map CordycepsPlugin.name := by simp
  have hinit : (JsMap.empty.setAll ((group.map CordycepsPlugin.name).map fun name ↦
      (name, (0 : ℤ)))).get name = some 0 := by
    rw [JsMap.get_eq_some_iff, JsMap.entries_setAll_empty (by rw [hkeys]; exact hgroup)]
    exact List.mem_map.mpr ⟨name, hname, rfl⟩
  have hcount : (edgesOf group all).values.flatten.count name =
      TopologicalSort.waiting (graphOf group all hsublist hnames) [] name := by
    have hentry : ∀ entry ∈ (edgesOf group all).entries, entry.2.count name =
        if name ∈ targetsOf group all entry.1 then 1 else 0 := by
      intro entry hentry
      have htargets : targetsOf group all entry.1 = entry.2 := by
        rw [targetsOf, JsMap.get_eq_some_iff.mpr hentry, Option.getD_some]
      have hkey : entry.1 ∈ group.map CordycepsPlugin.name :=
        keys_edgesOf hgroup ▸ List.mem_map_of_mem hentry
      have hnodup := (graphOf group all hsublist hnames).nodup_targets entry.1 hkey
      rw [← htargets]
      exact List.Nodup.count hnodup
    have hnodes : (graphOf group all hsublist hnames).nodes =
        (edgesOf group all).entries.map Prod.fst := (keys_edgesOf hgroup).symm
    have hcounts : (edgesOf group all).entries.map (List.count name ∘ Prod.snd) =
        (edgesOf group all).entries.map fun entry ↦
          if name ∈ targetsOf group all entry.1 then 1 else 0 := List.map_congr_left hentry
    calc
      (edgesOf group all).values.flatten.count name =
          ((edgesOf group all).entries.map (List.count name ∘ Prod.snd)).sum := by
        rw [List.count_flatten, JsMap.values, List.map_map]
      _ = (edgesOf group all).entries.countP
          fun entry ↦ name ∈ targetsOf group all entry.1 := by
        rw [hcounts, sum_map_ite]
      _ = TopologicalSort.waiting (graphOf group all hsublist hnames) [] name := by
        rw [TopologicalSort.waiting, hnodes, List.countP_map]
        apply List.countP_congr
        simp [graphOf]
  rw [inDegrees, get_foldl_countEdge, nameSet_eq hgroup, hinit, Option.map_some, hcount, Int.zero_add]

/-! ## The sort of one group -/

theorem perm_enqueue (target : JsString) (queue : List JsString) :
    (enqueue target queue).Perm (target :: queue) := by
  rw [enqueue]
  apply List.perm_middle.trans
  rw [List.takeWhile_append_dropWhile]

/-- The variables of the loop as a state of the in-degree sort. -/
def Sorting.view (sorting : Sorting) : TopologicalSort.State JsString where
  degree name := (sorting.inDegree.get name).getD 0
  queue := sorting.queue
  emitted := sorting.result.map CordycepsPlugin.name

/-- The names that have an in-degree. -/
def Sorting.Counts (sorting : Sorting) (names : List JsString) : Prop :=
  ∀ name ∈ names, (sorting.inDegree.get name).isSome

theorem Sorting.view_release {sorting : Sorting} {target : JsString}
    (h : (sorting.inDegree.get target).isSome) :
    (sorting.release target).view = TopologicalSort.release enqueue sorting.view target := by
  obtain ⟨degree, hdegree⟩ := Option.isSome_iff_exists.mp h
  have hcounts : (fun name ↦ ((sorting.inDegree.set target (degree - 1)).get name).getD 0) =
      Function.update (fun name ↦ (sorting.inDegree.get name).getD 0) target (degree - 1) := by
    ext name
    by_cases hname : name = target
    · simp [hname]
    · simp [hname]
  simp only [release, view, TopologicalSort.release, hdegree, hcounts, Option.getD_some]

theorem Sorting.Counts.release {sorting : Sorting} {names : List JsString}
    (h : sorting.Counts names) (target : JsString) : (sorting.release target).Counts names := by
  intro name hname
  have hold := h name hname
  unfold Sorting.release
  split
  · rw [JsMap.get_set]
    split
    · rfl
    · exact hold
  · exact hold

theorem Sorting.Counts.foldl_release {sorting : Sorting} {names : List JsString}
    (h : sorting.Counts names) (targets : List JsString) :
    (targets.foldl Sorting.release sorting).Counts names := by
  induction targets generalizing sorting with
  | nil => exact h
  | cons target rest ih => exact ih (h.release target)

theorem Sorting.view_foldl_release {sorting : Sorting} {names targets : List JsString}
    (h : sorting.Counts names) (htargets : ∀ target ∈ targets, target ∈ names) :
    (targets.foldl Sorting.release sorting).view =
      targets.foldl (TopologicalSort.release enqueue) sorting.view := by
  induction targets generalizing sorting with
  | nil => rfl
  | cons target rest ih =>
    obtain ⟨htarget, hrest⟩ := List.forall_mem_cons.mp htargets
    rw [List.foldl_cons, List.foldl_cons, ih (h.release target) hrest,
      Sorting.view_release (h target htarget)]

theorem Sorting.result_foldl_release (targets : List JsString) (sorting : Sorting) :
    (targets.foldl Sorting.release sorting).result = sorting.result := by
  induction targets generalizing sorting with
  | nil => rfl
  | cons target rest ih =>
    rw [List.foldl_cons, ih, Sorting.release]
    split
    · rfl
    · rfl

theorem get_byName (hnames : (all.map CordycepsPlugin.name).Nodup) {plugin : CordycepsPlugin}
    (hplugin : plugin ∈ all) : (byName all).get plugin.name = some plugin := by
  have hkeys : (all.map fun plugin ↦ (plugin.name, plugin)).map Prod.fst =
      all.map CordycepsPlugin.name := by simp
  rw [JsMap.get_eq_some_iff, byName, JsMap.entries_setAll_empty (by rw [hkeys]; exact hnames)]
  exact List.mem_map.mpr ⟨plugin, hplugin, rfl⟩

/-- A name of the group is visited as a node of its graph. -/
theorem Sorting.view_visit (hsublist : group.Sublist all)
    (hnames : (all.map CordycepsPlugin.name).Nodup) {sorting : Sorting} {plugin : CordycepsPlugin}
    (hcounts : sorting.Counts (group.map CordycepsPlugin.name)) (hplugin : plugin ∈ group)
    (rest : List JsString) :
    (sorting.visit (byName all) (edgesOf group all) plugin.name rest).view =
        TopologicalSort.visit enqueue (graphOf group all hsublist hnames).targets plugin.name rest
          sorting.view ∧
      (sorting.visit (byName all) (edgesOf group all) plugin.name rest).Counts
        (group.map CordycepsPlugin.name) ∧
      (sorting.visit (byName all) (edgesOf group all) plugin.name rest).result =
        sorting.result ++ [plugin] := by
  have hname : plugin.name ∈ group.map CordycepsPlugin.name := List.mem_map_of_mem hplugin
  have hclosed := (graphOf group all hsublist hnames).closed plugin.name hname
  have hget := get_byName hnames (hsublist.subset hplugin)
  unfold Sorting.visit
  rw [hget, Option.toList_some]
  set popped : Sorting :=
    { sorting with queue := rest, result := sorting.result ++ [plugin] } with hpopped
  have hcountsPopped : popped.Counts (group.map CordycepsPlugin.name) := hcounts
  refine ⟨?_, hcountsPopped.foldl_release _, Sorting.result_foldl_release _ _⟩
  apply (Sorting.view_foldl_release hcountsPopped hclosed).trans
  simp [TopologicalSort.visit, Sorting.view, hpopped]

/-- The loop of the source runs as the in-degree sort does, on members of the group. -/
theorem Sorting.drain_view (hsublist : group.Sublist all)
    (hnames : (all.map CordycepsPlugin.name).Nodup) {rounds : ℕ} {sorting : Sorting}
    {final : TopologicalSort.State JsString}
    (hsorting : TopologicalSort.Sorting (graphOf group all hsublist hnames) sorting.view)
    (hcounts : sorting.Counts (group.map CordycepsPlugin.name))
    (hresult : ∀ plugin ∈ sorting.result, plugin ∈ group)
    (hdrain : TopologicalSort.drain enqueue (graphOf group all hsublist hnames).targets rounds
      sorting.view = some final) :
    ∃ done, sorting.drain (byName all) (edgesOf group all) rounds = .ok done ∧
      done.view = final ∧ ∀ plugin ∈ done.result, plugin ∈ group := by
  have hview : sorting.view.queue = sorting.queue := rfl
  induction rounds generalizing sorting with
  | zero =>
    unfold TopologicalSort.drain at hdrain
    unfold Sorting.drain
    rw [hview] at hdrain
    cases hqueue : sorting.queue with
    | nil =>
      rw [hqueue] at hdrain
      exact ⟨sorting, rfl, Option.some.inj hdrain, hresult⟩
    | cons name rest => simp [hqueue] at hdrain
  | succ rounds ih =>
    unfold TopologicalSort.drain at hdrain
    unfold Sorting.drain
    rw [hview] at hdrain
    cases hqueue : sorting.queue with
    | nil =>
      rw [hqueue] at hdrain
      exact ⟨sorting, rfl, Option.some.inj hdrain, hresult⟩
    | cons name rest =>
      rw [hqueue] at hdrain
      have hname : name ∈ group.map CordycepsPlugin.name :=
        ((hsorting.ready name).mp (List.mem_append_right _ (by simp [Sorting.view, hqueue]))).1
      obtain ⟨plugin, hplugin, rfl⟩ := List.mem_map.mp hname
      obtain ⟨hvisit, hcountsNext, hresultNext⟩ :=
        Sorting.view_visit hsublist hnames hcounts hplugin rest
      apply ih
      · rw [hvisit]
        exact hsorting.visit perm_enqueue hqueue
      · exact hcountsNext
      · rw [hresultNext]
        intro other hother
        rcases List.mem_append.mp hother with hold | hlast
        · exact hresult other hold
        · exact List.mem_singleton.mp hlast ▸ hplugin
      · rw [hvisit]
        exact hdrain
      · rfl

theorem startSorting_spec (hsublist : group.Sublist all)
    (hnames : (all.map CordycepsPlugin.name).Nodup) :
    TopologicalSort.Sorting (graphOf group all hsublist hnames)
        (startSorting (nameSet group) (edgesOf group all)).view ∧
      (startSorting (nameSet group) (edgesOf group all)).Counts
        (group.map CordycepsPlugin.name) := by
  have hgroup : (group.map CordycepsPlugin.name).Nodup := hnames.sublist (hsublist.map _)
  have hget : ∀ name ∈ group.map CordycepsPlugin.name,
      (inDegrees (nameSet group) (edgesOf group all)).get name =
        some (TopologicalSort.waiting (graphOf group all hsublist hnames) [] name : ℤ) :=
    fun name hname ↦ get_inDegrees hsublist hnames hname
  have hqueue : (startSorting (nameSet group) (edgesOf group all)).queue.Perm
      ((group.map CordycepsPlugin.name).filter fun name ↦
        (inDegrees (nameSet group) (edgesOf group all)).get name = some 0) := by
    rw [startSorting, nameSet_eq hgroup]
    exact List.perm_insertionSort _ _
  refine ⟨⟨?_, ?_, ?_, ?_⟩, ?_⟩
  · intro name hname
    change ((inDegrees (nameSet group) (edgesOf group all)).get name).getD 0 = _
    rw [hget name hname]
    rfl
  · exact hqueue.nodup_iff.mpr (hgroup.filter _)
  · intro name
    change name ∈ (startSorting (nameSet group) (edgesOf group all)).queue ↔
      name ∈ group.map CordycepsPlugin.name ∧
        ((inDegrees (nameSet group) (edgesOf group all)).get name).getD 0 = 0
    rw [hqueue.mem_iff, List.mem_filter]
    apply and_congr_right
    intro hname
    rw [hget name hname]
    simp
  · intro first second _ hsecond
    cases hsecond
  · intro name hname
    exact Option.isSome_iff_exists.mpr ⟨_, hget name hname⟩

end Group

/-- The hints inside a group contain a cycle. -/
def Cyclic (group : List CordycepsPlugin) : Prop :=
  ∃ plugin, Relation.TransGen (Precedes group) plugin plugin

/-- The same plugins, in an order that every hint of the group agrees with. -/
structure Placed (group sorted : List CordycepsPlugin) : Prop where
  perm : sorted.Perm group
  forward : ∀ first second, Precedes group first second → [first, second].Sublist sorted

/-- The sort of a group is a run of the in-degree sort on its names, to the empty queue. -/
theorem topoSort_drain {group all : List CordycepsPlugin} (hsublist : group.Sublist all)
    (hnames : (all.map CordycepsPlugin.name).Nodup) :
    ∃ done : Sorting,
      (topoSort group all = if done.result.length ≠ group.length then
        .error (.circular ((nameSet group).filter fun name ↦
          !done.result.any fun plugin ↦ plugin.name = name))
        else .ok done.result) ∧
      (∀ plugin ∈ done.result, plugin ∈ group) ∧
      TopologicalSort.drain enqueue (graphOf group all hsublist hnames).targets
          (nameSet group).length (startSorting (nameSet group) (edgesOf group all)).view =
        some done.view ∧
      TopologicalSort.Sorting (graphOf group all hsublist hnames) done.view ∧
      done.view.queue = [] := by
  have hgroup : (group.map CordycepsPlugin.name).Nodup := hnames.sublist (hsublist.map _)
  obtain ⟨hstart, hcounts⟩ := startSorting_spec hsublist hnames
  have hfuel : (graphOf group all hsublist hnames).nodes.length ≤ (nameSet group).length +
      (startSorting (nameSet group) (edgesOf group all)).view.emitted.length := by
    rw [nameSet_eq hgroup]
    exact Nat.le_add_right _ _
  obtain ⟨final, hdrain, hfinal, hempty⟩ :=
    TopologicalSort.drain_of_sorting perm_enqueue hstart hfuel
  obtain ⟨done, hdone, rfl, hmember⟩ := Sorting.drain_view hsublist hnames hstart hcounts
    (fun plugin hplugin ↦ by cases hplugin) hdrain
  refine ⟨done, ?_, hmember, hdrain, hfinal, hempty⟩
  rw [topoSort, hdone]
  rfl

/-- A group is refused if its hints have a cycle, and otherwise put in order. -/
theorem topoSort_cases {group all : List CordycepsPlugin} (hsublist : group.Sublist all)
    (hnames : (all.map CordycepsPlugin.name).Nodup) :
    (Cyclic group ∧ ∃ missing, topoSort group all = .error (.circular missing)) ∨
      (¬ Cyclic group ∧ ∃ sorted, topoSort group all = .ok sorted ∧ Placed group sorted) := by
  obtain ⟨done, hsort, hmember, -, hfinal, hempty⟩ := topoSort_drain hsublist hnames
  have hemitted : (done.result.map CordycepsPlugin.name).Nodup := by
    have hnodup := hfinal.nodup
    rw [hempty, List.append_nil] at hnodup
    exact hnodup
  have hsubperm : done.result.Subperm group :=
    List.subperm_of_subset hemitted.of_map hmember
  -- nothing is missing exactly if every name was emitted
  have hcomplete : done.result.length = group.length ↔ ¬ Cyclic group := by
    rw [Cyclic, not_exists, ← acyclic_iff hsublist hnames, ← hfinal.complete_iff hempty]
    constructor
    · exact fun hlength ↦ (hsubperm.perm_of_length_le hlength.ge).map _
    · intro hperm
      simpa [Sorting.view, graphOf] using hperm.length_eq
  rw [hsort]
  by_cases hlength : done.result.length = group.length
  · refine .inr ⟨hcomplete.mp hlength, done.result, if_neg (not_not.mpr hlength), ?_⟩
    have hperm := hsubperm.perm_of_length_le hlength.ge
    refine ⟨hperm, fun first second hprecedes ↦ ?_⟩
    have hedge := (edge_iff hsublist hnames _ _).mpr ⟨first, second, hprecedes, rfl, rfl⟩
    have hsecond : second.name ∈ done.result.map CordycepsPlugin.name :=
      List.mem_map_of_mem (hperm.mem_iff.mpr hprecedes.2.1)
    obtain ⟨placed, hplaced, hmap⟩ :=
      List.sublist_map_iff.mp (hfinal.ordered first.name second.name hedge hsecond)
    obtain ⟨source, placed, rfl, hsource, hmap⟩ := List.map_eq_cons_iff.mp hmap.symm
    obtain ⟨target, rfl, htarget⟩ := List.map_eq_singleton_iff.mp hmap
    have hin : ∀ plugin ∈ [source, target], plugin ∈ all := fun plugin hplugin ↦
      hsublist.subset (hmember plugin (hplaced.subset hplugin))
    rw [eq_of_name hnames (hsublist.subset hprecedes.1) (hin source (by simp)) hsource.symm,
      eq_of_name hnames (hsublist.subset hprecedes.2.1) (hin target (by simp)) htarget.symm]
    exact hplaced
  · exact .inl ⟨not_not.mp fun hacyclic ↦ hlength (hcomplete.mpr hacyclic), _, if_pos hlength⟩

/-! ## The groups -/

/-- The plugins of a priority. -/
def ofPriority (plugins : List CordycepsPlugin) (priority : ℤ) : List CordycepsPlugin :=
  plugins.filter fun plugin ↦ plugin.priority = priority

theorem get_foldl_addToGroup (plugins : List CordycepsPlugin)
    (groups : JsMap ℤ (List CordycepsPlugin)) (priority : ℤ) :
    ((plugins.foldl addToGroup groups).get priority).getD [] =
      (groups.get priority).getD [] ++ ofPriority plugins priority := by
  induction plugins generalizing groups with
  | nil => simp [ofPriority]
  | cons plugin rest ih =>
    rw [List.foldl_cons, ih, addToGroup, JsMap.get_set]
    by_cases hpriority : priority = plugin.priority
    · subst hpriority
      simp [ofPriority]
    · simp [ofPriority, hpriority, Ne.symm hpriority]

theorem get_groupsOf (plugins : List CordycepsPlugin) (priority : ℤ) :
    ((groupsOf plugins).get priority).getD [] = ofPriority plugins priority :=
  get_foldl_addToGroup plugins .empty priority

theorem mem_keys_foldl_addToGroup (plugins : List CordycepsPlugin)
    (groups : JsMap ℤ (List CordycepsPlugin)) (priority : ℤ) :
    priority ∈ (plugins.foldl addToGroup groups).entries.map Prod.fst ↔
      priority ∈ groups.entries.map Prod.fst ∨ ∃ plugin ∈ plugins, plugin.priority = priority := by
  induction plugins generalizing groups with
  | nil => simp
  | cons plugin rest ih =>
    have hset : priority ∈ (addToGroup groups plugin).entries.map Prod.fst ↔
        priority = plugin.priority ∨ priority ∈ groups.entries.map Prod.fst :=
      JsMap.mem_keys_setEntries _ _ _ _
    rw [List.foldl_cons, ih, hset, List.exists_mem_cons_iff, eq_comm, or_right_comm, or_comm]

/-- The plugins of these priorities, in an order that respects priorities and hints. -/
structure Loaded (plugins : List CordycepsPlugin) (priorities : List ℤ)
    (sorted : List CordycepsPlugin) : Prop where
  perm : sorted.Perm (priorities.flatMap (ofPriority plugins))
  ascending : sorted.Pairwise fun first second ↦ first.priority ≤ second.priority
  forward : ∀ priority ∈ priorities, ∀ first second,
    Precedes (ofPriority plugins priority) first second → [first, second].Sublist sorted

theorem priority_of_mem_ofPriority {plugins : List CordycepsPlugin} {priority : ℤ}
    {plugin : CordycepsPlugin} (h : plugin ∈ ofPriority plugins priority) :
    plugin.priority = priority := by
  simpa using (List.mem_filter.mp h).2

theorem Loaded.cons {plugins group others : List CordycepsPlugin} {priority : ℤ} {rest : List ℤ}
    (hfirst : ∀ other ∈ rest, priority ≤ other) (hgroup : Placed (ofPriority plugins priority) group)
    (h : Loaded plugins rest others) : Loaded plugins (priority :: rest) (group ++ others) := by
  have hpriority : ∀ plugin ∈ group, plugin.priority = priority := fun plugin hplugin ↦
    priority_of_mem_ofPriority (hgroup.perm.mem_iff.mp hplugin)
  constructor
  case perm =>
    rw [List.flatMap_cons]
    exact hgroup.perm.append h.perm
  case ascending =>
    rw [List.pairwise_append]
    refine ⟨?_, h.ascending, ?_⟩
    · apply List.pairwise_of_forall_mem_list
      intro first hfirst second hsecond
      rw [hpriority first hfirst, hpriority second hsecond]
    · intro first hmem second hsecond
      obtain ⟨other, hother, hin⟩ := List.mem_flatMap.mp (h.perm.mem_iff.mp hsecond)
      rw [hpriority first hmem, priority_of_mem_ofPriority hin]
      exact hfirst other hother
  case forward =>
    intro other hother first second hprecedes
    rcases List.mem_cons.mp hother with rfl | hrest
    · exact (hgroup.forward first second hprecedes).trans (List.sublist_append_left _ _)
    · exact (h.forward other hrest first second hprecedes).trans (List.sublist_append_right _ _)

/-- The groups are put in order one after the other, up to the first that has a cycle. -/
theorem sortGroups_cases {plugins : List CordycepsPlugin} {priorities : List ℤ}
    (hnames : (plugins.map CordycepsPlugin.name).Nodup) (hsorted : priorities.Pairwise (· ≤ ·)) :
    ((∃ priority ∈ priorities, Cyclic (ofPriority plugins priority)) ∧
        ∃ missing, sortGroups (groupsOf plugins) plugins priorities =
          .error (.circular missing)) ∨
      ((∀ priority ∈ priorities, ¬ Cyclic (ofPriority plugins priority)) ∧
        ∃ sorted, sortGroups (groupsOf plugins) plugins priorities = .ok sorted ∧
          Loaded plugins priorities sorted) := by
  induction priorities with
  | nil =>
    refine .inr ⟨by simp, [], rfl, ?_⟩
    exact ⟨by simp, List.Pairwise.nil, by simp⟩
  | cons priority rest ih =>
    obtain ⟨hfirst, hrest⟩ := List.pairwise_cons.mp hsorted
    have hsublist : (ofPriority plugins priority).Sublist plugins := List.filter_sublist
    rw [sortGroups, get_groupsOf]
    rcases topoSort_cases hsublist hnames with
      ⟨hcyclic, missing, hsort⟩ | ⟨hacyclic, group, hsort, hplaced⟩
    · rw [hsort]
      exact .inl ⟨⟨priority, List.mem_cons_self, hcyclic⟩, missing, rfl⟩
    · rw [hsort]
      rcases ih hrest with ⟨⟨other, hother, hcyclic⟩, missing, herror⟩ |
        ⟨hnone, others, hothers, hloaded⟩
      · rw [herror]
        exact .inl ⟨⟨other, List.mem_cons_of_mem _ hother, hcyclic⟩, missing, rfl⟩
      · rw [hothers]
        refine .inr ⟨?_, group ++ others, rfl, hloaded.cons hfirst hplaced⟩
        intro other hother
        rcases List.mem_cons.mp hother with rfl | hmem
        · exact hacyclic
        · exact hnone other hmem

/-! ## The sort of all plugins -/

theorem perm_flatMap_ofPriority {plugins : List CordycepsPlugin} {priorities : List ℤ}
    (hplugins : plugins.Nodup) (hnodup : priorities.Nodup)
    (hpriorities : ∀ plugin ∈ plugins, plugin.priority ∈ priorities) :
    (priorities.flatMap (ofPriority plugins)).Perm plugins := by
  have hgroups : (priorities.flatMap (ofPriority plugins)).Nodup := by
    rw [List.nodup_flatMap]
    refine ⟨fun priority _ ↦ hplugins.filter _, hnodup.imp ?_⟩
    intro first second hne plugin hfirst hsecond
    exact hne ((priority_of_mem_ofPriority hfirst).symm.trans (priority_of_mem_ofPriority hsecond))
  rw [List.perm_ext_iff_of_nodup hgroups hplugins]
  intro plugin
  rw [List.mem_flatMap]
  constructor
  · rintro ⟨priority, _, hplugin⟩
    exact List.mem_of_mem_filter hplugin
  · intro hplugin
    exact ⟨plugin.priority, hpriorities plugin hplugin, List.mem_filter.mpr ⟨hplugin, by simp⟩⟩

theorem mem_priorities (plugins : List CordycepsPlugin) (priority : ℤ) :
    priority ∈ ((groupsOf plugins).entries.map Prod.fst).insertionSort (· ≤ ·) ↔
      ∃ plugin ∈ plugins, plugin.priority = priority := by
  rw [List.mem_insertionSort, groupsOf, mem_keys_foldl_addToGroup]
  simp [JsMap.empty]

theorem nodup_priorities (plugins : List CordycepsPlugin) :
    (((groupsOf plugins).entries.map Prod.fst).insertionSort (· ≤ ·)).Nodup :=
  (List.perm_insertionSort _ _).nodup_iff.mpr (groupsOf plugins).nodup

/-- Plugins with distinct names are refused exactly if the hints inside one priority contain a
cycle. Otherwise they come back in an order that respects the priorities and every hint between
plugins of one priority. -/
theorem sortPlugins_correct (plugins : List CordycepsPlugin)
    (hnames : (plugins.map CordycepsPlugin.name).Nodup) :
    ((∃ missing, sortPlugins plugins = .error (.circular missing)) ↔
        ∃ priority, Cyclic (ofPriority plugins priority)) ∧
      ((¬ ∃ priority, Cyclic (ofPriority plugins priority)) →
        ∃ sorted, sortPlugins plugins = .ok sorted ∧ sorted.Perm plugins ∧
          (sorted.Pairwise fun first second ↦ first.priority ≤ second.priority) ∧
          ∀ first ∈ plugins, ∀ second ∈ plugins, first.priority = second.priority →
            Requires first second → [first, second].Sublist sorted) := by
  have hmem := mem_priorities plugins
  have hcyclic : (∃ priority ∈ ((groupsOf plugins).entries.map Prod.fst).insertionSort (· ≤ ·),
      Cyclic (ofPriority plugins priority)) ↔ ∃ priority, Cyclic (ofPriority plugins priority) := by
    constructor
    · rintro ⟨priority, _, hcycle⟩
      exact ⟨priority, hcycle⟩
    · rintro ⟨priority, plugin, hcycle⟩
      -- a plugin on the cycle has this priority
      obtain ⟨next, hedge, _⟩ := Relation.TransGen.head'_iff.mp hcycle
      have hplugin := (hmem priority).mpr
        ⟨plugin, List.mem_of_mem_filter hedge.1, priority_of_mem_ofPriority hedge.1⟩
      exact ⟨priority, hplugin, plugin, hcycle⟩
  rw [sortPlugins]
  rcases sortGroups_cases hnames (List.pairwise_insertionSort (· ≤ ·) _) with
    ⟨hcycle, missing, herror⟩ | ⟨hnone, sorted, hok, hloaded⟩
  · rw [herror]
    refine ⟨⟨fun _ ↦ hcyclic.mp hcycle, fun _ ↦ ⟨missing, rfl⟩⟩, ?_⟩
    exact fun hnone ↦ absurd (hcyclic.mp hcycle) hnone
  · rw [hok]
    have hacyclic : ¬ ∃ priority, Cyclic (ofPriority plugins priority) := by
      rw [← hcyclic]
      push Not
      exact hnone
    refine ⟨⟨?_, fun hcycle ↦ absurd hcycle hacyclic⟩, fun _ ↦ ⟨sorted, rfl, ?_, ?_, ?_⟩⟩
    · rintro ⟨missing, hmissing⟩
      cases hmissing
    · apply hloaded.perm.trans
      exact perm_flatMap_ofPriority hnames.of_map (nodup_priorities plugins) fun plugin hplugin ↦
        (hmem plugin.priority).mpr ⟨plugin, hplugin, rfl⟩
    · exact hloaded.ascending
    · intro first hfirst second hsecond hpriority hrequires
      apply hloaded.forward first.priority ((hmem _).mpr ⟨first, hfirst, rfl⟩)
      exact ⟨List.mem_filter.mpr ⟨hfirst, by simp⟩,
        List.mem_filter.mpr ⟨hsecond, by simp [hpriority]⟩, hrequires⟩

/-- A plugin that asks to be loaded after the other one. -/
def laterPlugin (name other : JsString) : CordycepsPlugin :=
  ⟨name, some ⟨none, some [other], none⟩⟩

def mutualPlugins : List CordycepsPlugin :=
  [laterPlugin (js "a") (js "b"), laterPlugin (js "b") (js "a")]

/-- The first is loaded after the second, and the third has an earlier priority. -/
def orderedPlugins : List CordycepsPlugin :=
  [laterPlugin (js "a") (js "b"), ⟨js "b", none⟩, ⟨js "c", some ⟨some (-1), none, none⟩⟩]

theorem sortPlugins_orderedPlugins :
    sortPlugins orderedPlugins = .ok
      [⟨js "c", some ⟨some (-1), none, none⟩⟩, ⟨js "b", none⟩, laterPlugin (js "a") (js "b")] := by
  decide +kernel

/-- The first list is refused, and the second one sorted. -/
theorem sortPlugins_correct_mutual_ordered :
    ((mutualPlugins.map CordycepsPlugin.name).Nodup ∧
        ∃ missing, sortPlugins mutualPlugins = .error (.circular missing)) ∧
      ∃ sorted, sortPlugins orderedPlugins = .ok sorted ∧ sorted.Perm orderedPlugins ∧
        (sorted.Pairwise fun first second ↦ first.priority ≤ second.priority) ∧
        ∀ first ∈ orderedPlugins, ∀ second ∈ orderedPlugins, first.priority = second.priority →
          Requires first second → [first, second].Sublist sorted := by
  have hnames : (mutualPlugins.map CordycepsPlugin.name).Nodup := by decide
  have hforth : Precedes (ofPriority mutualPlugins 0) (laterPlugin (js "b") (js "a"))
      (laterPlugin (js "a") (js "b")) := ⟨by decide, by decide, .inl (by decide)⟩
  have hback : Precedes (ofPriority mutualPlugins 0) (laterPlugin (js "a") (js "b"))
      (laterPlugin (js "b") (js "a")) := ⟨by decide, by decide, .inl (by decide)⟩
  have hcycle : ∃ priority, Cyclic (ofPriority mutualPlugins priority) :=
    ⟨0, laterPlugin (js "a") (js "b"), .tail (.single hback) hforth⟩
  have hordered := sortPlugins_correct orderedPlugins (by decide)
  have hacyclic : ¬ ∃ priority, Cyclic (ofPriority orderedPlugins priority) := by
    rw [← hordered.1, sortPlugins_orderedPlugins]
    rintro ⟨missing, hmissing⟩
    cases hmissing
  exact ⟨⟨hnames, (sortPlugins_correct mutualPlugins hnames).1.mpr hcycle⟩, hordered.2 hacyclic⟩

end Cordyceps.Plugins
