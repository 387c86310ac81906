import Mathlib.Data.List.Induction
import Mathlib.Data.List.Nodup

/-!
# Insertion-ordered maps

The `Map` of ECMAScript: at most one entry a key, iteration in the order in
which keys were first set, an overwritten key keeps its place. The structure
carries the proof that keys do not repeat.
-/

namespace Foundations

/-- An insertion-ordered finite map. -/
structure JsMap (Key Value : Type*) where
  entries : List (Key × Value)
  nodup : (entries.map Prod.fst).Nodup

namespace JsMap

variable {Key Value : Type*}

/-- `new Map()`. -/
def empty : JsMap Key Value := ⟨[], List.nodup_nil⟩

theorem ext_entries {first second : JsMap Key Value} (h : first.entries = second.entries) :
    first = second := by
  cases first
  cases second
  cases h
  rfl

variable [DecidableEq Key]

/-- Write one entry of an entry list, in place when the key exists. -/
def setEntries (key : Key) (value : Value) : List (Key × Value) → List (Key × Value)
  | [] => [(key, value)]
  | (name, old) :: rest =>
    if name = key then (name, value) :: rest else (name, old) :: setEntries key value rest

theorem mem_keys_setEntries (key name : Key) (value : Value) (entries : List (Key × Value)) :
    name ∈ (setEntries key value entries).map Prod.fst ↔
      name = key ∨ name ∈ entries.map Prod.fst := by
  induction entries with
  | nil => simp [setEntries]
  | cons entry rest ih =>
    rcases entry with ⟨head, old⟩
    by_cases hhead : head = key
    · subst hhead
      simp [setEntries]
    · rw [setEntries, if_neg hhead, List.map_cons, List.mem_cons, ih, List.map_cons,
        List.mem_cons]
      exact or_left_comm

theorem nodup_setEntries (key : Key) (value : Value) {entries : List (Key × Value)}
    (h : (entries.map Prod.fst).Nodup) : ((setEntries key value entries).map Prod.fst).Nodup := by
  induction entries with
  | nil => simp [setEntries]
  | cons entry rest ih =>
    rcases entry with ⟨head, old⟩
    rw [List.map_cons, List.nodup_cons] at h
    by_cases hhead : head = key
    · rw [setEntries, if_pos hhead, List.map_cons, List.nodup_cons]
      exact h
    · rw [setEntries, if_neg hhead, List.map_cons, List.nodup_cons, mem_keys_setEntries]
      refine ⟨?_, ih h.2⟩
      rintro (rfl | hmem)
      · exact hhead rfl
      · exact h.1 hmem

/-- `map.get(key)`. -/
def get (map : JsMap Key Value) (key : Key) : Option Value := map.entries.lookup key

/-- `map.has(key)`. -/
def has (map : JsMap Key Value) (key : Key) : Bool := (map.get key).isSome

/-- `map.set(key, value)`. -/
def set (map : JsMap Key Value) (key : Key) (value : Value) : JsMap Key Value :=
  ⟨setEntries key value map.entries, nodup_setEntries key value map.nodup⟩

/-- `map.delete(key)`, without the returned flag. -/
def delete (map : JsMap Key Value) (key : Key) : JsMap Key Value :=
  ⟨map.entries.filter fun entry ↦ entry.1 ≠ key,
    map.nodup.sublist (List.filter_sublist.map Prod.fst)⟩

/-- `{ ...base, ...override }`. -/
def assign (base override : JsMap Key Value) : JsMap Key Value :=
  override.entries.foldl (fun map entry ↦ map.set entry.1 entry.2) base

/-- `[...map.values()]`. -/
def values (map : JsMap Key Value) : List Value := map.entries.map Prod.snd

@[simp]
theorem get_empty (key : Key) : (empty : JsMap Key Value).get key = none := rfl

theorem lookup_cons_if (name head : Key) (value : Value) (rest : List (Key × Value)) :
    List.lookup name ((head, value) :: rest) =
      if name = head then some value else List.lookup name rest := by
  by_cases hname : name = head
  · simp [hname]
  · have hne : (name == head) = false := by simpa using hname
    simp [List.lookup_cons, hne, hname]

theorem lookup_setEntries (key name : Key) (value : Value) (entries : List (Key × Value)) :
    List.lookup name (setEntries key value entries) =
      if name = key then some value else List.lookup name entries := by
  induction entries with
  | nil => simp only [setEntries, lookup_cons_if]
  | cons entry rest ih =>
    rcases entry with ⟨head, old⟩
    by_cases hhead : head = key
    · subst hhead
      by_cases hname : name = head <;> simp [setEntries, lookup_cons_if, hname]
    · by_cases hname : name = head
      · subst hname
        simp [setEntries, hhead]
      · simp [setEntries, hhead, lookup_cons_if, hname, ih]

@[simp]
theorem get_set (map : JsMap Key Value) (key name : Key) (value : Value) :
    (map.set key value).get name = if name = key then some value else map.get name :=
  lookup_setEntries key name value map.entries

theorem lookup_filter_ne (key name : Key) (entries : List (Key × Value)) :
    List.lookup name (entries.filter fun entry ↦ entry.1 ≠ key) =
      if name = key then none else List.lookup name entries := by
  induction entries with
  | nil => simp
  | cons entry rest ih =>
    rcases entry with ⟨head, old⟩
    by_cases hhead : head = key
    · subst hhead
      rw [List.filter_cons_of_neg (by simp), ih]
      by_cases hname : name = head <;> simp [lookup_cons_if, hname]
    · rw [List.filter_cons_of_pos (by simpa using hhead)]
      rw [lookup_cons_if, lookup_cons_if, ih]
      by_cases hname : name = head
      · subst hname
        simp [hhead]
      · simp [hname]

@[simp]
theorem get_delete (map : JsMap Key Value) (key name : Key) :
    (map.delete key).get name = if name = key then none else map.get name :=
  lookup_filter_ne key name map.entries

theorem mem_values_of_get {map : JsMap Key Value} {key : Key} {value : Value}
    (h : map.get key = some value) : value ∈ map.values := by
  obtain ⟨first, second, hentries, _⟩ := List.lookup_eq_some_iff.mp h
  simp [values, hentries]

/-- The entries are the graph of `get`. -/
theorem get_eq_some_iff {map : JsMap Key Value} {key : Key} {value : Value} :
    map.get key = some value ↔ (key, value) ∈ map.entries := by
  rcases map with ⟨entries, hnodup⟩
  unfold get
  induction entries with
  | nil => simp
  | cons entry rest ih =>
    rcases entry with ⟨head, old⟩
    obtain ⟨hfresh, hrest⟩ := List.nodup_cons.mp hnodup
    rw [lookup_cons_if, List.mem_cons]
    by_cases hkey : key = head
    · subst hkey
      have hnot : (key, value) ∉ rest := fun hmem ↦
        hfresh (List.mem_map.mpr ⟨(key, value), hmem, rfl⟩)
      simp [hnot, eq_comm]
    · rw [if_neg hkey, ih hrest]
      simp [hkey]

theorem has_of_get {map : JsMap Key Value} {key : Key} {value : Value}
    (h : map.get key = some value) : map.has key = true := by
  rw [has, h]
  rfl

theorem get_of_has {map : JsMap Key Value} {key : Key} (h : map.has key = true) :
    ∃ value, map.get key = some value :=
  Option.isSome_iff_exists.mp h

theorem get_eq_none_of_has {map : JsMap Key Value} {key : Key} (h : map.has key = false) :
    map.get key = none := by
  simpa [has] using h

theorem has_iff {map : JsMap Key Value} {key : Key} :
    map.has key = true ↔ key ∈ map.entries.map Prod.fst := by
  rw [has, Option.isSome_iff_exists, List.mem_map]
  simp [get_eq_some_iff]

/-- Writing a key that exists does not change the order of the keys. -/
theorem keys_setEntries {key : Key} (value : Value) {entries : List (Key × Value)}
    (h : (List.lookup key entries).isSome) :
    (setEntries key value entries).map Prod.fst = entries.map Prod.fst := by
  induction entries with
  | nil => simp at h
  | cons entry rest ih =>
    rcases entry with ⟨head, old⟩
    by_cases hhead : head = key
    · rw [setEntries, if_pos hhead, List.map_cons, List.map_cons]
    · rw [lookup_cons_if, if_neg fun heq ↦ hhead heq.symm] at h
      rw [setEntries, if_neg hhead, List.map_cons, List.map_cons, ih h]

/-- Entry lists with the same keys in the same order that look up alike are the same. -/
theorem eq_of_lookup {first second : List (Key × Value)} (hnodup : (first.map Prod.fst).Nodup)
    (hkeys : first.map Prod.fst = second.map Prod.fst)
    (hlookup : ∀ key, List.lookup key first = List.lookup key second) : first = second := by
  induction first generalizing second with
  | nil => exact (List.map_eq_nil_iff.mp hkeys.symm).symm
  | cons entry rest ih =>
    cases second with
    | nil => simp at hkeys
    | cons entry' rest' =>
      rcases entry with ⟨key, value⟩
      rcases entry' with ⟨key', value'⟩
      obtain ⟨hkey, hrest⟩ := List.cons.inj hkeys
      obtain rfl : key = key' := hkey
      obtain ⟨hfresh, hnodup⟩ := List.nodup_cons.mp hnodup
      have hvalue := hlookup key
      simp only [lookup_cons_if, if_true, Option.some.injEq] at hvalue
      have hsame := ih hnodup hrest fun name ↦ by
        by_cases hname : name = key
        · have hfresh' : key ∉ rest'.map Prod.fst := hrest ▸ hfresh
          rw [hname, List.lookup_eq_none_iff.mpr, List.lookup_eq_none_iff.mpr]
          · intro entry hentry
            simp only [bne_iff_ne, ne_eq]
            rintro rfl
            exact hfresh' (List.mem_map.mpr ⟨entry, hentry, rfl⟩)
          · intro entry hentry
            simp only [bne_iff_ne, ne_eq]
            rintro rfl
            exact hfresh (List.mem_map.mpr ⟨entry, hentry, rfl⟩)
        · have hname' := hlookup name
          rwa [lookup_cons_if, lookup_cons_if, if_neg hname, if_neg hname] at hname'
      rw [hvalue, hsame]

/-! ## Several writes -/

/-- Write entries in order. -/
def setAll (writes : List (Key × Value)) (map : JsMap Key Value) : JsMap Key Value :=
  writes.foldl (fun map entry ↦ map.set entry.1 entry.2) map

/-- The value that a key is left with by a list of writes. -/
def lastWrite (writes : List (Key × Value)) (key : Key) : Option Value :=
  writes.reverse.lookup key

theorem lastWrite_concat (writes : List (Key × Value)) (entry : Key × Value) (key : Key) :
    lastWrite (writes ++ [entry]) key = if key = entry.1 then some entry.2 else lastWrite writes key := by
  rw [lastWrite, List.reverse_append, List.reverse_singleton, List.singleton_append, lookup_cons_if]
  rfl

theorem lastWrite_append (first second : List (Key × Value)) (key : Key) :
    lastWrite (first ++ second) key = (lastWrite second key).or (lastWrite first key) := by
  induction second using List.reverseRecOn with
  | nil => simp [lastWrite]
  | append_singleton second entry ih =>
    rw [← List.append_assoc, lastWrite_concat, lastWrite_concat, ih]
    split <;> rfl

/-- A key that is not written keeps what it has. -/
theorem lastWrite_eq_none {writes : List (Key × Value)} {key : Key}
    (h : ∀ entry ∈ writes, entry.1 ≠ key) : lastWrite writes key = none := by
  rw [lastWrite, List.lookup_eq_none_iff]
  intro entry hmem
  rw [bne_iff_ne]
  exact (h entry (List.mem_reverse.mp hmem)).symm

theorem lastWrite_map {Tagged : Type*} (tag : Value → Tagged) (writes : List (Key × Value))
    (key : Key) : lastWrite (writes.map fun entry ↦ (entry.1, tag entry.2)) key =
      (lastWrite writes key).map tag := by
  induction writes using List.reverseRecOn with
  | nil => rfl
  | append_singleton writes entry ih =>
    rw [List.map_append, List.map_singleton, lastWrite_concat, lastWrite_concat, ih]
    split <;> rfl

/-- Where no key is written twice, every write is the last one. -/
theorem lastWrite_of_nodup {writes : List (Key × Value)} (h : (writes.map Prod.fst).Nodup)
    (key : Key) (value : Value) : lastWrite writes key = some value ↔ (key, value) ∈ writes := by
  induction writes using List.reverseRecOn with
  | nil => simp [lastWrite]
  | append_singleton writes entry ih =>
    rw [List.map_append, List.nodup_append] at h
    obtain ⟨hrest, _, hfresh⟩ := h
    rw [lastWrite_concat, List.mem_append, List.mem_singleton, ← ih hrest]
    rcases entry with ⟨name, last⟩
    by_cases hkey : key = name
    · subst hkey
      have hunwritten : lastWrite writes key ≠ some value := by
        rw [ne_eq, ih hrest]
        intro hmem
        exact hfresh key (List.mem_map.mpr ⟨_, hmem, rfl⟩) key (by simp) rfl
      simp [hunwritten, eq_comm]
    · simp [hkey]

theorem get_setAll (writes : List (Key × Value)) (map : JsMap Key Value) (key : Key) :
    (map.setAll writes).get key = (lastWrite writes key).or (map.get key) := by
  induction writes using List.reverseRecOn with
  | nil => rfl
  | append_singleton writes entry ih =>
    rw [setAll, List.foldl_append, List.foldl_cons, List.foldl_nil, get_set, lastWrite_concat]
    split
    · rfl
    · exact ih

/-- `{ ...base, ...override }`: the second map wins. -/
theorem get_assign (base override : JsMap Key Value) (key : Key) :
    (base.assign override).get key = (override.get key).or (base.get key) := by
  have hlast : lastWrite override.entries key = override.get key := by
    ext value
    rw [lastWrite_of_nodup override.nodup, get_eq_some_iff]
  rw [← hlast]
  exact get_setAll override.entries base key

theorem setEntries_of_notMem {key : Key} (value : Value) {entries : List (Key × Value)}
    (h : key ∉ entries.map Prod.fst) : setEntries key value entries = entries ++ [(key, value)] := by
  induction entries with
  | nil => rfl
  | cons entry rest ih =>
    rw [List.map_cons, List.mem_cons, not_or] at h
    rw [setEntries, if_neg (Ne.symm h.1), ih h.2, List.cons_append]

/-- Entries with new keys are appended. -/
theorem entries_setAll_of_fresh {writes : List (Key × Value)} {map : JsMap Key Value}
    (h : (writes.map Prod.fst).Nodup)
    (hnew : ∀ entry ∈ writes, entry.1 ∉ map.entries.map Prod.fst) :
    (map.setAll writes).entries = map.entries ++ writes := by
  induction writes using List.reverseRecOn with
  | nil => simp [setAll]
  | append_singleton writes entry ih =>
    rw [List.map_append, List.nodup_append] at h
    obtain ⟨hrest, _, hfresh⟩ := h
    have hentries := ih hrest fun other hother ↦ hnew other (List.mem_append_left _ hother)
    have hlast : entry.1 ∉ (map.setAll writes).entries.map Prod.fst := by
      rw [hentries, List.map_append, List.mem_append]
      rintro (hold | hwritten)
      · exact hnew entry (List.mem_append_right _ (List.mem_singleton_self _)) hold
      · exact hfresh entry.1 hwritten entry.1 (List.mem_singleton_self _) rfl
    rw [setAll, List.foldl_append, List.foldl_cons, List.foldl_nil, ← List.append_assoc, ← hentries]
    exact setEntries_of_notMem entry.2 hlast

/-- `new Map(entries)`, where no key repeats. -/
theorem entries_setAll_empty {writes : List (Key × Value)} (h : (writes.map Prod.fst).Nodup) :
    ((empty : JsMap Key Value).setAll writes).entries = writes :=
  entries_setAll_of_fresh h (by simp [empty])

/-- Writes to existing keys do not change the order of the keys. -/
theorem keys_setAll {writes : List (Key × Value)} {map : JsMap Key Value}
    (h : ∀ entry ∈ writes, (map.get entry.1).isSome) :
    (map.setAll writes).entries.map Prod.fst = map.entries.map Prod.fst := by
  induction writes using List.reverseRecOn with
  | nil => rfl
  | append_singleton writes entry ih =>
    have hrest := ih fun other hother ↦ h other (List.mem_append_left _ hother)
    have hlast : ((map.setAll writes).get entry.1).isSome := by
      have hentry := h entry (List.mem_append_right _ (List.mem_singleton_self _))
      rw [get_setAll, Option.isSome_or, hentry, Bool.or_true]
    rw [setAll, List.foldl_append, List.foldl_cons, List.foldl_nil]
    exact (keys_setEntries entry.2 hlast).trans hrest

/-- Writes change nothing exactly when every written key already holds the value it is left with. -/
theorem setAll_eq_self_iff (writes : List (Key × Value)) (map : JsMap Key Value) :
    map.setAll writes = map ↔
      ∀ key value, lastWrite writes key = some value → map.get key = some value := by
  constructor
  · intro h key value hlast
    have hget := get_setAll writes map key
    rwa [h, hlast, Option.some_or] at hget
  · intro h
    have hkeys : ∀ entry ∈ writes, (map.get entry.1).isSome := by
      intro entry hentry
      have hwritten : (lastWrite writes entry.1).isSome := by
        rw [lastWrite, List.lookup_isSome_iff]
        exact ⟨entry, List.mem_reverse.mpr hentry, beq_self_eq_true _⟩
      obtain ⟨value, hvalue⟩ := Option.isSome_iff_exists.mp hwritten
      rw [h entry.1 value hvalue]
      rfl
    apply ext_entries
    apply eq_of_lookup (map.setAll writes).nodup (keys_setAll hkeys)
    intro key
    change (map.setAll writes).get key = map.get key
    rw [get_setAll]
    cases hlast : lastWrite writes key with
    | none => exact Option.none_or
    | some value =>
      rw [Option.some_or]
      exact (h key value hlast).symm

end JsMap

end Foundations
