import Mathlib.Data.List.Basic
import Mathlib.Data.List.Forall2

/-!
# Properties of every numbered slot of a list

A machine that hands out numbers keeps its records in a list and addresses them
by position. `Each` states a property of every record together with its number;
the lemmas say what has to be shown after one record was changed, all were
changed alike, or a new one was added.
-/

namespace Foundations

variable {Record : Type*}

/-- Every record has the property at its position. -/
def Each (property : ℕ → Record → Prop) (records : List Record) : Prop :=
  ∀ position record, records[position]? = some record → property position record

namespace Each

variable {property : ℕ → Record → Prop} {records : List Record}

@[simp]
theorem nil : Each property ([] : List Record) := by
  intro position record h
  simp at h

theorem mono {weaker : ℕ → Record → Prop} (h : Each property records)
    (himp : ∀ position record, property position record → weaker position record) :
    Each weaker records :=
  fun position record hget ↦ himp position record (h position record hget)

/-- Only the changed record needs a new proof. -/
theorem modify {weaker : ℕ → Record → Prop} {target : ℕ} {change : Record → Record}
    (h : Each property records)
    (hother : ∀ position record, position ≠ target → property position record →
      weaker position record)
    (htarget : ∀ record, records[target]? = some record → property target record →
      weaker target (change record)) : Each weaker (records.modify target change) := by
  intro position record hget
  rw [List.getElem?_modify, Option.map_eq_map, Option.map_eq_some_iff] at hget
  obtain ⟨old, hold, rfl⟩ := hget
  by_cases hposition : target = position
  · subst hposition
    rw [if_pos rfl]
    exact htarget old hold (h target old hold)
  · rw [if_neg hposition]
    exact hother position old (Ne.symm hposition) (h position old hold)

theorem map {weaker : ℕ → Record → Prop} {change : Record → Record} (h : Each property records)
    (hchange : ∀ position record, property position record → weaker position (change record)) :
    Each weaker (records.map change) := by
  intro position record hget
  rw [List.getElem?_map] at hget
  obtain ⟨old, hold, rfl⟩ := Option.map_eq_some_iff.mp hget
  exact hchange position old (h position old hold)

theorem concat {record : Record} (h : Each property records)
    (hlast : property records.length record) : Each property (records ++ [record]) := by
  intro position found hget
  by_cases hposition : position < records.length
  · rw [List.getElem?_append_left hposition] at hget
    exact h position found hget
  · rw [List.getElem?_append_right (Nat.not_lt.mp hposition)] at hget
    obtain ⟨hzero, heq⟩ := List.getElem?_eq_some_iff.mp hget
    have hlength : position = records.length := by
      simp only [List.length_singleton] at hzero
      omega
    subst hlength
    simp only [Nat.sub_self, List.getElem_singleton] at heq
    exact heq ▸ hlast

/-- Writing one slot; the others are known to be as they were. -/
theorem set {weaker : ℕ → Record → Prop} {target : ℕ} {after : Record} (h : Each property records)
    (hother : ∀ (position : ℕ) record, position ≠ target → records[position]? = some record →
      property position record → weaker position record)
    (hafter : weaker target after) : Each weaker (records.set target after) := by
  intro position record hget
  by_cases hposition : target = position
  · subst hposition
    have hlt : target < (records.set target after).length := (List.getElem?_eq_some_iff.mp hget).1
    rw [List.length_set] at hlt
    rw [List.getElem?_set_self hlt] at hget
    exact Option.some.inj hget ▸ hafter
  · rw [List.getElem?_set_ne hposition] at hget
    exact hother position record (Ne.symm hposition) hget (h position record hget)

theorem of_mem (h : Each property records) {record : Record} (hmem : record ∈ records) :
    ∃ position, property position record := by
  obtain ⟨position, hget⟩ := List.mem_iff_getElem?.mp hmem
  exact ⟨position, h position record hget⟩

end Each

/-- There is a record at the position, and it has the property. -/
def At (property : Record → Prop) (position : ℕ) (records : List Record) : Prop :=
  ∃ record, records[position]? = some record ∧ property record

namespace At

variable {property weaker : Record → Prop} {position : ℕ} {records : List Record}

theorem lt (h : At property position records) : position < records.length := by
  obtain ⟨record, hget, _⟩ := h
  exact (List.getElem?_eq_some_iff.mp hget).1

theorem modify {target : ℕ} {change : Record → Record} (h : At property position records)
    (hchange : position = target → ∀ record, records[target]? = some record → property record →
      property (change record)) : At property position (records.modify target change) := by
  obtain ⟨record, hget, hproperty⟩ := h
  by_cases hposition : position = target
  · subst hposition
    exact ⟨change record, by simp [hget], hchange rfl record hget hproperty⟩
  · exact ⟨record, by simp [hget, Ne.symm hposition], hproperty⟩

/-- The record itself is changed. -/
theorem modify_self {change : Record → Record} (h : At property position records)
    (hchange : ∀ record, property record → weaker (change record)) :
    At weaker position (records.modify position change) := by
  obtain ⟨record, hget, hproperty⟩ := h
  exact ⟨change record, by simp [hget], hchange record hproperty⟩

theorem map {change : Record → Record} (h : At property position records)
    (hchange : ∀ record, property record → property (change record)) :
    At property position (records.map change) := by
  obtain ⟨record, hget, hproperty⟩ := h
  exact ⟨change record, by simp [hget], hchange record hproperty⟩

theorem concat (h : At property position records) (record : Record) :
    At property position (records ++ [record]) := by
  have hlt := h.lt
  obtain ⟨found, hget, hproperty⟩ := h
  exact ⟨found, by rw [List.getElem?_append_left hlt, hget], hproperty⟩

theorem last {record : Record} (h : property record) :
    At property records.length (records ++ [record]) :=
  ⟨record, List.getElem?_concat_length, h⟩

theorem of_concat {record : Record} (h : At property position (records ++ [record])) :
    At property position records ∨ position = records.length ∧ property record := by
  obtain ⟨found, hget, hproperty⟩ := h
  by_cases hposition : position < records.length
  · rw [List.getElem?_append_left hposition] at hget
    exact .inl ⟨found, hget, hproperty⟩
  · rw [List.getElem?_append_right (Nat.not_lt.mp hposition), List.getElem?_singleton] at hget
    split at hget
    · cases hget
      exact .inr ⟨by omega, hproperty⟩
    · cases hget

/-- Another record than the changed one. -/
theorem of_modify {target : ℕ} {change : Record → Record} (hne : position ≠ target)
    (h : At property position (records.modify target change)) : At property position records := by
  obtain ⟨found, hget, hproperty⟩ := h
  exact ⟨found, by simpa [Ne.symm hne] using hget, hproperty⟩

end At

section Pairs

variable {Other : Type*} {records : List Record} {others : List Other}
  {relation relation' : Record → Other → Prop}

/-- The records at one position are changed, in one list or in both. -/
theorem forall₂_modify (h : List.Forall₂ relation records others) (position : ℕ)
    {change : Record → Record} {change' : Other → Other}
    (hrest : ∀ record other, relation record other → relation' record other)
    (hchange : ∀ record other, records[position]? = some record → others[position]? = some other →
      relation record other → relation' (change record) (change' other)) :
    List.Forall₂ relation' (records.modify position change) (others.modify position change') := by
  induction h generalizing position with
  | nil => simp
  | @cons record other records others hhead htail ih =>
    cases position with
    | zero =>
      simp only [List.modify_zero_cons]
      exact .cons (hchange record other rfl rfl hhead) (htail.imp hrest)
    | succ position =>
      simp only [List.modify_succ_cons]
      exact .cons (hrest record other hhead) (ih position hchange)

/-- All records are changed, the second ones with a look at the first. -/
theorem forall₂_map_zipWith (h : List.Forall₂ relation records others) {change : Record → Record}
    {change' : Record → Other → Other}
    (hchange : ∀ record other, relation record other → relation' (change record) (change' record other)) :
    List.Forall₂ relation' (records.map change) (List.zipWith change' records others) := by
  induction h with
  | nil => exact .nil
  | cons hhead _ ih => exact .cons (hchange _ _ hhead) ih

theorem forall₂_concat (h : List.Forall₂ relation records others) {record : Record} {other : Other}
    (hlast : relation record other) :
    List.Forall₂ relation (records ++ [record]) (others ++ [other]) :=
  List.rel_append h (.cons hlast .nil)

end Pairs

/-- At most one record is not closed. -/
def OneOpen (closed : Record → Bool) (records : List Record) : Prop :=
  ∀ (j k : ℕ) first second, records[j]? = some first → records[k]? = some second →
    closed first = false → closed second = false → j = k

namespace OneOpen

variable {closed : Record → Bool} {records : List Record}

@[simp]
theorem nil : OneOpen closed ([] : List Record) := by
  intro j k first second hfirst
  simp at hfirst

/-- Next to an open record all are closed. -/
theorem others (h : OneOpen closed records) {target : ℕ} {record : Record}
    (hget : records[target]? = some record) (hopen : closed record = false) (position : ℕ)
    (other : Record) (hne : position ≠ target) (hother : records[position]? = some other) :
    closed other = true := by
  by_contra hnot
  exact hne (h position target other record hother hget (by simpa using hnot) hopen)

/-- So it is after the open record was written. -/
theorem others_set (h : OneOpen closed records) {target : ℕ} {record : Record}
    (hget : records[target]? = some record) (hopen : closed record = false) (after : Record)
    (position : ℕ) (other : Record) (hne : position ≠ target)
    (hother : (records.set target after)[position]? = some other) : closed other = true := by
  rw [List.getElem?_set_ne (Ne.symm hne)] at hother
  exact h.others hget hopen position other hne hother

/-- The open record may become anything. -/
theorem set (h : OneOpen closed records) {target : ℕ} {record : Record}
    (hget : records[target]? = some record) (hopen : closed record = false) (after : Record) :
    OneOpen closed (records.set target after) := by
  have hclosed := h.others_set hget hopen after
  intro j k first second hfirst hsecond hfirstOpen hsecondOpen
  have hj : j = target := by
    by_contra hne
    simp [hclosed j first hne hfirst] at hfirstOpen
  have hk : k = target := by
    by_contra hne
    simp [hclosed k second hne hsecond] at hsecondOpen
  rw [hj, hk]

/-- A change that opens and closes nothing. -/
theorem modify (h : OneOpen closed records) {change : Record → Record}
    (hchange : ∀ record, closed (change record) = closed record) (target : ℕ) :
    OneOpen closed (records.modify target change) := by
  have hsame : ∀ (position : ℕ) record, (records.modify target change)[position]? = some record →
      ∃ old, records[position]? = some old ∧ closed record = closed old := by
    intro position record hget
    rw [List.getElem?_modify] at hget
    obtain ⟨old, hold, rfl⟩ := Option.map_eq_some_iff.mp hget
    refine ⟨old, hold, ?_⟩
    split
    · exact hchange old
    · rfl
  intro j k first second hfirst hsecond hfirstOpen hsecondOpen
  obtain ⟨old, hold, heq⟩ := hsame j first hfirst
  obtain ⟨old', hold', heq'⟩ := hsame k second hsecond
  exact h j k old old' hold hold' (heq ▸ hfirstOpen) (heq' ▸ hsecondOpen)

/-- A new record that is closed. -/
theorem concat_closed (h : OneOpen closed records) {record : Record}
    (hrecord : closed record = true) : OneOpen closed (records ++ [record]) := by
  have hold : ∀ (position : ℕ) other, (records ++ [record])[position]? = some other →
      closed other = false → records[position]? = some other := by
    intro position other hget hopen
    rw [List.getElem?_append] at hget
    split at hget
    · exact hget
    · rw [List.getElem?_singleton] at hget
      split at hget
      · cases hget
        simp [hrecord] at hopen
      · cases hget
  intro j k first second hfirst hsecond hfirstOpen hsecondOpen
  exact h j k first second (hold j first hfirst hfirstOpen) (hold k second hsecond hsecondOpen)
    hfirstOpen hsecondOpen

/-- A new record, when all others are closed. -/
theorem concat (hall : ∀ record ∈ records, closed record = true) (record : Record) :
    OneOpen closed (records ++ [record]) := by
  have hlast : ∀ (position : ℕ) other, (records ++ [record])[position]? = some other →
      closed other = false → position = records.length := by
    intro position other hget hopen
    obtain ⟨hlt, _⟩ := List.getElem?_eq_some_iff.mp hget
    rw [List.length_append, List.length_singleton] at hlt
    by_contra hne
    rw [List.getElem?_append_left (by omega)] at hget
    simp [hall other (List.mem_of_getElem? hget)] at hopen
  intro j k first second hfirst hsecond hfirstOpen hsecondOpen
  rw [hlast j first hfirst hfirstOpen, hlast k second hsecond hsecondOpen]

end OneOpen

/-- Changing a record that exists is writing the changed one. -/
theorem modify_eq_set {records : List Record} {target : ℕ} {record : Record}
    (hget : records[target]? = some record) (change : Record → Record) :
    records.modify target change = records.set target (change record) := by
  apply List.ext_getElem?
  intro position
  rw [List.getElem?_modify, List.getElem?_set]
  by_cases hposition : target = position
  · subst hposition
    have hlt := (List.getElem?_eq_some_iff.mp hget).1
    rw [hget, if_pos rfl, if_pos hlt]
    simp
  · simp [hposition]

/-- What holds of all records, after one was changed that it does not see. -/
theorem forall_mem_modify {property : Record → Prop} {change : Record → Record}
    (hchange : ∀ record, property (change record) ↔ property record) (records : List Record)
    (target : ℕ) : (∀ record ∈ records.modify target change, property record) ↔
      ∀ record ∈ records, property record := by
  induction records generalizing target with
  | nil => simp
  | cons record rest ih =>
    cases target with
    | zero => simp [hchange]
    | succ target => simp [ih]

theorem set_eq_self {records : List Record} {target : ℕ} {record : Record}
    (hget : records[target]? = some record) : records.set target record = records := by
  obtain ⟨hlt, heq⟩ := List.getElem?_eq_some_iff.mp hget
  rw [← heq, List.set_getElem_self]

/-- Changing the record that was added last. -/
theorem modify_concat (records : List Record) (record : Record) (change : Record → Record) :
    (records ++ [record]).modify records.length change = records ++ [change record] := by
  rw [modify_eq_set List.getElem?_concat_length, List.set_append_right _ _ (Nat.le_refl _),
    Nat.sub_self]
  rfl

/-- Mapping a function that leaves all records but one alone. -/
theorem map_eq_set {records : List Record} {target : ℕ} {record : Record}
    (hget : records[target]? = some record) {change : Record → Record}
    (hother : ∀ (position : ℕ) other, position ≠ target → records[position]? = some other →
      change other = other) : records.map change = records.set target (change record) := by
  apply List.ext_getElem?
  intro position
  rw [List.getElem?_map, List.getElem?_set]
  by_cases hposition : target = position
  · subst hposition
    rw [hget, if_pos rfl, if_pos (List.getElem?_eq_some_iff.mp hget).1, Option.map_some]
  · rw [if_neg hposition]
    cases hsome : records[position]? with
    | none => rfl
    | some other => rw [Option.map_some, hother position other (Ne.symm hposition) hsome]

/-- Changing a record without changing what is counted about it. -/
theorem countP_modify {counted : Record → Bool} {change : Record → Record} {target : ℕ}
    {records : List Record} (h : ∀ record, records[target]? = some record →
      counted (change record) = counted record) :
    (records.modify target change).countP counted = records.countP counted := by
  induction records generalizing target with
  | nil => rw [List.modify_nil]
  | cons record rest ih =>
    cases target with
    | zero =>
      rw [List.modify_zero_cons, List.countP_cons, List.countP_cons, h record rfl]
    | succ target =>
      rw [List.modify_succ_cons, List.countP_cons, List.countP_cons, ih h]

/-- A counted record is counted no longer. -/
theorem countP_modify_add_one {counted : Record → Bool} {change : Record → Record} {target : ℕ}
    {record : Record} {records : List Record} (hget : records[target]? = some record)
    (hbefore : counted record = true) (hafter : counted (change record) = false) :
    (records.modify target change).countP counted + 1 = records.countP counted := by
  induction records generalizing target with
  | nil => cases hget
  | cons first rest ih =>
    cases target with
    | zero =>
      cases hget
      rw [List.modify_zero_cons, List.countP_cons_of_neg (by simpa using hafter),
        List.countP_cons_of_pos hbefore]
    | succ target =>
      rw [List.modify_succ_cons, List.countP_cons, List.countP_cons, ← ih hget]
      omega

/-- Changing all records without changing what is counted about them. -/
theorem countP_map {counted : Record → Bool} {change : Record → Record} (records : List Record)
    (h : ∀ record, counted (change record) = counted record) :
    (records.map change).countP counted = records.countP counted := by
  rw [List.countP_map]
  exact congrArg (records.countP ·) (funext h)

end Foundations
