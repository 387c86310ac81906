import Cordyceps.Foundations.JsString

/-!
# Trimmed texts

`trim` takes the blank margins off a text and leaves a tight one, which starts and ends
with something visible. A text has one such reading only.
-/

namespace Foundations.JsString

/-- Nothing but white space. -/
def Blank (text : JsString) : Prop := ∀ unit ∈ text, isSpace unit = true

/-- A text without blank margins. -/
structure Tight (text : JsString) : Prop where
  head : ∀ unit ∈ text.head?, isSpace unit = false
  last : ∀ unit ∈ text.getLast?, isSpace unit = false

instance (text : JsString) : Decidable (Blank text) := inferInstanceAs (Decidable (∀ _ ∈ _, _))

@[simp]
theorem blank_nil : Blank [] := by simp [Blank]

@[simp]
theorem blank_append {first second : JsString} :
    Blank (first ++ second) ↔ Blank first ∧ Blank second := List.forall_mem_append

@[simp]
theorem blank_cons {unit : CodeUnit} {text : JsString} :
    Blank (unit :: text) ↔ isSpace unit = true ∧ Blank text := List.forall_mem_cons

/-- A tight text is visible if there is any of it. -/
theorem Tight.not_blank {text : JsString} (h : Tight text) (hne : text ≠ []) : ¬ Blank text := by
  obtain ⟨unit, rest, rfl⟩ := List.exists_cons_of_ne_nil hne
  intro hblank
  have hhead := h.head unit rfl
  rw [hblank unit List.mem_cons_self] at hhead
  cases hhead

theorem trim_blank_append {lead : JsString} (h : Blank lead) (text : JsString) :
    trim (lead ++ text) = trim text := by
  rw [trim, trimStart, List.dropWhile_append_of_pos h]
  rfl

theorem trim_of_tight {text : JsString} (h : Tight text) : trim text = text := by
  have hstart : trimStart text = text := by
    cases text with
    | nil => rfl
    | cons unit rest => rw [trimStart, List.dropWhile_cons_of_neg (by simp [h.head unit rfl])]
  rw [trim, hstart, trimEnd, List.rdropWhile_eq_self_iff]
  intro hne
  simp [h.last _ (List.getLast?_eq_some_getLast hne)]

theorem trimEnd_append_blank (text : JsString) {tail : JsString} (h : Blank tail) :
    trimEnd (text ++ tail) = trimEnd text := by
  induction tail using List.reverseRecOn with
  | nil => rw [List.append_nil]
  | append_singleton front unit ih =>
    rw [blank_append] at h
    rw [← List.append_assoc, trimEnd, List.rdropWhile_concat_pos _ _ _ (h.2 unit List.mem_cons_self)]
    exact ih h.1

theorem trim_append_blank (text : JsString) {tail : JsString} (h : Blank tail) :
    trim (text ++ tail) = trim text := by
  by_cases hblank : Blank text
  · have hall : Blank (text ++ tail) := blank_append.mpr ⟨hblank, h⟩
    have hnil := trim_blank_append hall []
    have hnil' := trim_blank_append hblank []
    rw [List.append_nil] at hnil hnil'
    rw [hnil, hnil']
  · rw [trim, trimStart, List.dropWhile_append, if_neg, trimEnd_append_blank _ h]
    · rfl
    · rw [List.isEmpty_iff, List.dropWhile_eq_nil_iff]
      exact hblank

@[simp]
theorem trim_blank {text : JsString} (h : Blank text) : trim text = [] := by
  rw [← List.append_nil text, trim_blank_append h, trim_nil]

theorem tight_trim (text : JsString) : Tight (trim text) := by
  constructor
  · intro unit hunit
    have hne : trim text ≠ [] := by
      intro hnil
      simp [hnil] at hunit
    obtain ⟨rest, hrest⟩ : trim text <+: trimStart text := List.rdropWhile_prefix _ _
    have hhead := List.head?_dropWhile_not isSpace text
    have happend : (trim text ++ rest).head? = (trim text).head? :=
      List.head?_append_of_ne_nil _ hne
    rw [← happend, hrest, Option.mem_def, trimStart] at hunit
    simpa [hunit] using hhead
  · intro unit hunit
    obtain ⟨hne, rfl⟩ := List.mem_getLast?_eq_getLast hunit
    exact Bool.eq_false_iff.mpr (List.rdropWhile_last_not isSpace (trimStart text) hne)

/-- Every text is a tight one between blank margins. -/
theorem exists_margins (text : JsString) : ∃ lead tail,
    Blank lead ∧ Blank tail ∧ text = lead ++ trim text ++ tail := by
  refine ⟨text.takeWhile isSpace, (trimStart text).rtakeWhile isSpace,
    fun _ ↦ List.mem_takeWhile_imp, fun _ ↦ List.mem_rtakeWhile_imp, ?_⟩
  have hend : trim text ++ (trimStart text).rtakeWhile isSpace = trimStart text :=
    List.rdropWhile_append_rtakeWhile
  rw [List.append_assoc, hend]
  exact (List.takeWhile_append_dropWhile ..).symm

@[simp]
theorem trim_trim (text : JsString) : trim (trim text) = trim text := trim_of_tight (tight_trim text)

theorem trim_eq_nil_iff {text : JsString} : trim text = [] ↔ Blank text := by
  constructor
  · intro hnil
    obtain ⟨lead, tail, hlead, htail, htext⟩ := exists_margins text
    rw [htext, hnil, List.append_nil]
    exact blank_append.mpr ⟨hlead, htail⟩
  · exact trim_blank

/-- Trimming keeps a visible first unit. -/
theorem trim_cons {unit : CodeUnit} (h : isSpace unit = false) (text : JsString) :
    ∃ rest, trim (unit :: text) = unit :: rest := by
  obtain ⟨lead, tail, hlead, htail, htext⟩ := exists_margins (unit :: text)
  have hvisible : ¬ isSpace unit = true := by simp [h]
  cases lead with
  | cons first lead =>
    rw [List.cons_append, List.cons_append, List.cons.injEq] at htext
    exact absurd (htext.1 ▸ (blank_cons.mp hlead).1) hvisible
  | nil =>
    rw [List.nil_append] at htext
    generalize trim (unit :: text) = body at htext ⊢
    cases body with
    | nil =>
      rw [List.nil_append] at htext
      exact absurd (htail unit (htext ▸ List.mem_cons_self)) hvisible
    | cons first rest =>
      rw [List.cons_append, List.cons.injEq] at htext
      exact ⟨rest, by rw [htext.1]⟩

theorem mem_trim {unit : CodeUnit} {text : JsString} (h : unit ∈ trim text) : unit ∈ text := by
  obtain ⟨lead, tail, -, -, htext⟩ := exists_margins text
  rw [htext]
  exact List.mem_append_left tail (List.mem_append_right lead h)

/-- What is no space is not trimmed. -/
theorem mem_trim_of_visible {unit : CodeUnit} {text : JsString} (hunit : isSpace unit = false)
    (h : unit ∈ text) : unit ∈ trim text := by
  obtain ⟨lead, tail, hlead, htail, htext⟩ := exists_margins text
  rw [htext, List.mem_append, List.mem_append] at h
  rcases h with (hmem | hmem) | hmem
  · rw [hlead unit hmem] at hunit
    cases hunit
  · exact hmem
  · rw [htail unit hmem] at hunit
    cases hunit

theorem length_trim_le (text : JsString) : (trim text).length ≤ text.length := by
  obtain ⟨lead, tail, -, -, htext⟩ := exists_margins text
  have hlength := congrArg List.length htext
  rw [List.length_append, List.length_append] at hlength
  omega

/-! ## Parts of a text -/

theorem trimStart_append {unit : CodeUnit} (h : isSpace unit = false) (text rest : JsString) :
    trimStart (text ++ unit :: rest) = trimStart text ++ unit :: rest := by
  rw [trimStart, trimStart, List.dropWhile_append]
  split
  · rename_i hblank
    rw [List.isEmpty_iff.mp hblank, List.dropWhile_cons_of_neg (by simp [h])]
    rfl
  · rfl

theorem trimEnd_append {text : JsString} (h : ¬ Blank text) (front : JsString) :
    trimEnd (front ++ text) = front ++ trimEnd text := by
  have hvisible : ¬ (text.reverse.dropWhile isSpace).isEmpty = true := by
    rw [List.isEmpty_iff, List.dropWhile_eq_nil_iff]
    simpa [Blank] using h
  calc
    trimEnd (front ++ text) = ((text.reverse ++ front.reverse).dropWhile isSpace).reverse := by
      rw [trimEnd, List.rdropWhile, List.reverse_append]
    _ = (text.reverse.dropWhile isSpace ++ front.reverse).reverse := by
      rw [List.dropWhile_append, if_neg hvisible]
    _ = front ++ trimEnd text := by
      rw [List.reverse_append, List.reverse_reverse, trimEnd, List.rdropWhile]

/-- Only the outer parts of a text have margins. -/
theorem trim_around {unit : CodeUnit} (hunit : isSpace unit = false) {text : JsString}
    (htext : ¬ Blank text) (front middle : JsString) :
    trim (front ++ unit :: (middle ++ text)) = trimStart front ++ unit :: (middle ++ trimEnd text) := by
  calc
    trim (front ++ unit :: (middle ++ text)) =
        trimEnd ((trimStart front ++ unit :: middle) ++ text) := by
      rw [trim, trimStart_append hunit, List.append_assoc, List.cons_append]
    _ = (trimStart front ++ unit :: middle) ++ trimEnd text := trimEnd_append htext _
    _ = trimStart front ++ unit :: (middle ++ trimEnd text) := by
      rw [List.append_assoc, List.cons_append]

/-- Trimming keeps the order of the beginnings of a text. -/
theorem trim_prefix {first second : JsString} (h : first <+: second) :
    trim first <+: trim second := by
  obtain ⟨rest, rfl⟩ := h
  have hstart : trimStart first <+: trimStart (first ++ rest) := by
    rw [trimStart, trimStart, List.dropWhile_append]
    split
    · rename_i hnil
      rw [List.isEmpty_iff.mp hnil]
      exact List.nil_prefix
    · exact List.prefix_append _ _
  obtain ⟨tail, htail⟩ := hstart
  rw [trim, trim, ← htail]
  by_cases hblank : Blank tail
  · rw [trimEnd_append_blank _ hblank]
  · rw [trimEnd_append hblank]
    exact (List.rdropWhile_prefix _ _).trans (List.prefix_append _ _)

theorem trimStart_eq_nil_iff {text : JsString} : trimStart text = [] ↔ Blank text :=
  List.dropWhile_eq_nil_iff

theorem trimStart_trimEnd {text : JsString} (h : ¬ Blank text) :
    trimStart (trimEnd text) = trim text := by
  obtain ⟨lead, tail, hlead, htail, htext⟩ := exists_margins text
  have hbody : ¬ Blank (trim text) := (tight_trim text).not_blank (mt trim_eq_nil_iff.mp h)
  have hend : trimEnd text = lead ++ trim text := by
    have hbare : trimEnd (trim text) = trim text := List.rdropWhile_idempotent ..
    calc trimEnd text = trimEnd (lead ++ trim text ++ tail) := congrArg trimEnd htext
      _ = trimEnd (lead ++ trim text) := trimEnd_append_blank _ htail
      _ = lead ++ trimEnd (trim text) := trimEnd_append hbody lead
      _ = lead ++ trim text := by rw [hbare]
  rw [hend, trimStart, List.dropWhile_append_of_pos hlead]
  cases hcore : trim text with
  | nil => rfl
  | cons unit rest =>
    have hunit := (tight_trim text).head unit (by rw [hcore]; rfl)
    exact List.dropWhile_cons_of_neg (by simp [hunit])

end Foundations.JsString
