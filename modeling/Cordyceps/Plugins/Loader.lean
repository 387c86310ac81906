import Cordyceps.Foundations.JsMap
import Cordyceps.Foundations.JsString
import Mathlib.Data.List.Sort

/-!
# The plugin loader

`sortPlugins` of `plugins/loader.ts`: plugins by ascending priority, and in
each priority group by their `before` and `after` hints. Names of plugins are
distinct, so a plugin object is told from another by its fields.
-/

namespace Cordyceps.Plugins

open Foundations

structure PluginOrder where
  priority : Option ℤ
  after : Option (List JsString)
  before : Option (List JsString)
  deriving DecidableEq, Repr

/-- `CordycepsPlugin`, as far as the sort reads it. -/
structure CordycepsPlugin where
  name : JsString
  order : Option PluginOrder
  deriving DecidableEq, Repr

namespace CordycepsPlugin

/-- `p.order?.priority ?? 0`. -/
def priority (plugin : CordycepsPlugin) : ℤ := (plugin.order.bind PluginOrder.priority).getD 0

/-- `p.order?.after ?? []`. -/
def after (plugin : CordycepsPlugin) : List JsString :=
  (plugin.order.bind PluginOrder.after).getD []

/-- `p.order?.before ?? []`. -/
def before (plugin : CordycepsPlugin) : List JsString :=
  (plugin.order.bind PluginOrder.before).getD []

end CordycepsPlugin

/-- Why a sort does not return: the plugins of a group that no order can place, or a loop that
was cut short. -/
inductive SortError
  | circular (missing : List JsString)
  | unfinished
  deriving DecidableEq, Repr

/-- The text of the `Error`. -/
def SortError.message : SortError → Option JsString
  | .circular missing => some (js "Circular plugin dependency: " ++ (js ", ").intercalate missing)
  | .unfinished => none

/-! ## Names and edges -/

/-- `Set.prototype.add`. -/
def addName (names : List JsString) (name : JsString) : List JsString :=
  if name ∈ names then names else names ++ [name]

/-- `new Set(group.map((p) => p.name))`. -/
def nameSet (group : List CordycepsPlugin) : List JsString :=
  (group.map CordycepsPlugin.name).foldl addName []

/-- `new Map(all.map((p) => [p.name, p]))`. -/
def byName (all : List CordycepsPlugin) : JsMap JsString CordycepsPlugin :=
  JsMap.empty.setAll (all.map fun plugin ↦ (plugin.name, plugin))

/-- The edges that the loop over the group adds at one plugin, in the order in which it adds them:
the plugin's own hints first, then what the other plugins say about it. -/
def hints (names : List JsString) (all : List CordycepsPlugin) (plugin : CordycepsPlugin) :
    List (JsString × JsString) :=
  (plugin.after.filter (· ∈ names)).map (fun dep ↦ (dep, plugin.name)) ++
    (plugin.before.filter (· ∈ names)).map (fun target ↦ (plugin.name, target)) ++
    all.flatMap fun other ↦
      if other = plugin ∨ other.name ∉ names then []
      else
        (if plugin.name ∈ other.before then [(other.name, plugin.name)] else []) ++
          (if plugin.name ∈ other.after then [(plugin.name, other.name)] else [])

/-- `edges.get(source)!.add(target)`. -/
def addEdge (edges : JsMap JsString (List JsString)) (edge : JsString × JsString) :
    JsMap JsString (List JsString) :=
  match edges.get edge.1 with
  | some targets => edges.set edge.1 (addName targets edge.2)
  | none => edges

/-- The edges of a group, from a plugin to those that have to come after it. -/
def edgesOf (group all : List CordycepsPlugin) : JsMap JsString (List JsString) :=
  (group.flatMap (hints (nameSet group) all)).foldl addEdge
    (JsMap.empty.setAll (group.map fun plugin ↦ (plugin.name, [])))

/-- `if (inDegree.has(t)) inDegree.set(t, inDegree.get(t)! + 1)`. -/
def countEdge (inDegree : JsMap JsString ℤ) (target : JsString) : JsMap JsString ℤ :=
  match inDegree.get target with
  | some degree => inDegree.set target (degree + 1)
  | none => inDegree

def inDegrees (names : List JsString) (edges : JsMap JsString (List JsString)) :
    JsMap JsString ℤ :=
  edges.values.flatten.foldl countEdge (JsMap.empty.setAll (names.map fun name ↦ (name, 0)))

/-! ## The sort of one group -/

/-- Insert a name in front of the first greater one. -/
def enqueue (target : JsString) (queue : List JsString) : List JsString :=
  queue.takeWhile (fun name ↦ !decide (target < name)) ++
    target :: queue.dropWhile fun name ↦ !decide (target < name)

/-- The variables of the loop. -/
structure Sorting where
  inDegree : JsMap JsString ℤ
  queue : List JsString
  result : List CordycepsPlugin

namespace Sorting

/-- The body of the loop over the targets of a name. -/
def release (sorting : Sorting) (target : JsString) : Sorting :=
  match sorting.inDegree.get target with
  | some degree =>
    { sorting with
      inDegree := sorting.inDegree.set target (degree - 1)
      queue := if degree - 1 = 0 then enqueue target sorting.queue else sorting.queue }
  | none => sorting

/-- The body of the loop over the queue. -/
def visit (plugins : JsMap JsString CordycepsPlugin) (edges : JsMap JsString (List JsString))
    (name : JsString) (rest : List JsString) (sorting : Sorting) : Sorting :=
  ((edges.get name).getD []).foldl release
    { sorting with queue := rest, result := sorting.result ++ (plugins.get name).toList }

/-- `while (queue.length > 0)`, for so many rounds at most. -/
def drain (plugins : JsMap JsString CordycepsPlugin) (edges : JsMap JsString (List JsString)) :
    ℕ → Sorting → Except SortError Sorting
  | rounds, sorting =>
    match sorting.queue with
    | [] => .ok sorting
    | name :: rest =>
      match rounds with
      | 0 => .error .unfinished
      | rounds + 1 => drain plugins edges rounds (sorting.visit plugins edges name rest)

end Sorting

/-- The variables before the loop. -/
def startSorting (names : List JsString) (edges : JsMap JsString (List JsString)) : Sorting where
  inDegree := inDegrees names edges
  queue := (names.filter fun name ↦ (inDegrees names edges).get name = some 0).insertionSort
    fun first second ↦ ¬ second < first
  result := []

/-- `topoSort`. A name is visited once, so there are no more rounds than names. -/
def topoSort (group all : List CordycepsPlugin) : Except SortError (List CordycepsPlugin) := do
  let names := nameSet group
  let edges := edgesOf group all
  let final ← (startSorting names edges).drain (byName all) edges names.length
  if final.result.length ≠ group.length then
    .error (.circular (names.filter fun name ↦
      !final.result.any fun plugin ↦ plugin.name = name))
  else .ok final.result

/-! ## The sort of all plugins -/

/-- `list.push(p)` for the list of its priority. -/
def addToGroup (groups : JsMap ℤ (List CordycepsPlugin)) (plugin : CordycepsPlugin) :
    JsMap ℤ (List CordycepsPlugin) :=
  groups.set plugin.priority ((groups.get plugin.priority).getD [] ++ [plugin])

/-- The groups by priority. -/
def groupsOf (plugins : List CordycepsPlugin) : JsMap ℤ (List CordycepsPlugin) :=
  plugins.foldl addToGroup .empty

/-- `sorted.push(...topoSort(groups.get(pri)!, plugins))` for each priority in turn. -/
def sortGroups (groups : JsMap ℤ (List CordycepsPlugin)) (plugins : List CordycepsPlugin) :
    List ℤ → Except SortError (List CordycepsPlugin)
  | [] => .ok []
  | priority :: rest => do
    let group ← topoSort ((groups.get priority).getD []) plugins
    let others ← sortGroups groups plugins rest
    return group ++ others

/-- `sortPlugins`. -/
def sortPlugins (plugins : List CordycepsPlugin) : Except SortError (List CordycepsPlugin) :=
  sortGroups (groupsOf plugins) plugins
    (((groupsOf plugins).entries.map Prod.fst).insertionSort (· ≤ ·))

end Cordyceps.Plugins
