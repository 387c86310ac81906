import Cordyceps.Foundations.JsString
import Cordyceps.Foundations.LineGroups

/-!
# Texts between delimiters

A text is put in front of a closing delimiter, on lines of its own. A reader who takes what is
in front of the first closing delimiter gets the text back exactly if the text does not hold
the delimiter. A delimiter without a line end stands on one line of a text.
-/

namespace Foundations.Delimiters

open Foundations.LineGroups

variable {Symbol : Type*} {sep : Symbol} {delimiter text rest : List Symbol}

/-- A list without a separator that starts a text stands in front of the separator. -/
theorem prefix_of_prefix_append_cons (hsep : sep ∉ delimiter)
    (h : delimiter <+: text ++ sep :: rest) : delimiter <+: text := by
  rcases List.prefix_or_prefix_of_prefix h (List.prefix_append text (sep :: rest)) with
    hfirst | hlast
  · exact hfirst
  · obtain ⟨tail, rfl⟩ := hlast
    rw [List.prefix_append_right_inj] at h
    cases tail with
    | nil => simp
    | cons symbol tail =>
      have hsymbol : symbol = sep := (List.cons_prefix_cons.mp h).1
      exact absurd (by simp [hsymbol]) hsep

/-- A part without a separator lies on one side of it. -/
theorem infix_append_cons_iff {part first last : List Symbol} (hsep : sep ∉ part) :
    part <:+: first ++ sep :: last ↔ part <:+: first ∨ part <:+: last := by
  constructor
  · intro h
    induction first with
    | nil =>
      rcases List.infix_cons_iff.mp h with hbegins | hlast
      · exact .inl (prefix_of_prefix_append_cons hsep hbegins).isInfix
      · exact .inr hlast
    | cons symbol first ih =>
      rcases List.infix_cons_iff.mp h with hbegins | hlater
      · exact .inl (prefix_of_prefix_append_cons hsep hbegins).isInfix
      · exact (ih hlater).imp_left List.infix_cons
  · rintro (hfirst | hlast)
    · exact hfirst.trans (List.infix_append_left)
    · exact (List.infix_cons hlast).trans List.infix_append_right

/-- A part without a separator lies in one of the texts that are joined. -/
theorem infix_join_iff {part : List Symbol} (hne : part ≠ []) (hsep : sep ∉ part)
    (texts : List (List Symbol)) : part <:+: join sep texts ↔ ∃ text ∈ texts, part <:+: text := by
  induction texts with
  | nil => simpa [join] using hne
  | cons text texts ih =>
    rw [List.exists_mem_cons_iff, ← ih]
    cases texts with
    | nil =>
      rw [join_singleton]
      simpa [join] using fun h ↦ absurd h hne
    | cons next texts =>
      rw [join_cons sep text (List.cons_ne_nil _ _), infix_append_cons_iff hsep]

variable [DecidableEq Symbol]

/-- What is in front of the first occurrence of the delimiter. -/
def upTo (delimiter : List Symbol) : List Symbol → Option (List Symbol)
  | [] => if delimiter.isEmpty then some [] else none
  | symbol :: rest =>
    if delimiter.isPrefixOf (symbol :: rest) then some []
    else (upTo delimiter rest).map (symbol :: ·)

theorem upTo_of_prefix (h : delimiter <+: text) :
    upTo delimiter text = some [] := by
  cases text with
  | nil => rw [upTo, List.prefix_nil.mp h, List.isEmpty_nil, if_pos rfl]
  | cons symbol rest => rw [upTo, if_pos (List.isPrefixOf_iff_prefix.mpr h)]

theorem upTo_cons {symbol : Symbol}
    (h : ¬ delimiter <+: symbol :: rest) :
    upTo delimiter (symbol :: rest) = (upTo delimiter rest).map (symbol :: ·) := by
  rw [upTo, if_neg (mt List.isPrefixOf_iff_prefix.mp h)]

/-- `text.indexOf(pattern)`, with `none` for `-1`. -/
def indexOf (pattern text : List Symbol) : Option ℕ := (upTo pattern text).map List.length

theorem prefix_of_upTo {front : List Symbol} (h : upTo delimiter text = some front) :
    front ++ delimiter <+: text := by
  induction text generalizing front with
  | nil =>
    rw [upTo] at h
    split at h
    · rename_i hempty
      cases h
      rw [List.isEmpty_iff.mp hempty]
      exact List.prefix_refl []
    · cases h
  | cons symbol text ih =>
    rw [upTo] at h
    split at h
    · rename_i hstart
      cases h
      exact List.isPrefixOf_iff_prefix.mp hstart
    · obtain ⟨later, hlater, rfl⟩ := Option.map_eq_some_iff.mp h
      exact List.cons_prefix_cons.mpr ⟨rfl, ih hlater⟩

theorem upTo_eq_none (h : ¬ delimiter <:+: text) : upTo delimiter text = none := by
  rw [Option.eq_none_iff_forall_ne_some]
  intro front hfront
  exact h ((List.suffix_append front delimiter).isInfix.trans (prefix_of_upTo hfront).isInfix)

/-- A delimiter is found where its last symbol first occurs. -/
theorem upTo_marked {mark : Symbol} {front lead : List Symbol} (hfront : mark ∉ front)
    (hlead : mark ∉ lead) (rest : List Symbol) :
    upTo (lead ++ [mark]) (front ++ (lead ++ mark :: rest)) = some front := by
  induction front with
  | nil =>
    exact upTo_of_prefix ⟨rest, by simp⟩
  | cons symbol front ih =>
    rw [List.mem_cons, not_or] at hfront
    have hstart : ¬ lead ++ [mark] <+: symbol :: (front ++ (lead ++ mark :: rest)) := by
      intro hbegins
      have hbefore : symbol :: front ++ lead <+: symbol :: (front ++ (lead ++ mark :: rest)) :=
        ⟨mark :: rest, by simp⟩
      have hshort := List.prefix_of_prefix_length_le hbegins hbefore (by simp)
      have hmark := hshort.subset (List.mem_append_right lead (List.mem_singleton_self mark))
      simp [hfront.1, hfront.2, hlead] at hmark
    rw [List.cons_append, upTo_cons hstart, ih hfront.2, Option.map_some]

theorem upTo_mark {mark : Symbol} {front : List Symbol} (h : mark ∉ front) (rest : List Symbol) :
    upTo [mark] (front ++ mark :: rest) = some front := upTo_marked h List.not_mem_nil rest

/-- The first mark of a text is in one place. -/
theorem append_mark_inj {mark : Symbol} {first second rest other : List Symbol}
    (hfirst : mark ∉ first) (hsecond : mark ∉ second)
    (h : first ++ mark :: rest = second ++ mark :: other) : first = second := by
  have hfront := congrArg (upTo [mark]) h
  rw [upTo_mark hfirst, upTo_mark hsecond] at hfront
  exact Option.some.inj hfront

/-- A text that does not hold the delimiter is what is in front of it. -/
theorem upTo_of_not_infix (hsep : sep ∉ delimiter) (h : ¬ delimiter <:+: text) :
    upTo delimiter (text ++ sep :: (delimiter ++ rest)) = some (text ++ [sep]) := by
  induction text with
  | nil =>
    have hstart : ¬ delimiter <+: sep :: (delimiter ++ rest) := fun hbegins ↦
      h (prefix_of_prefix_append_cons hsep hbegins : delimiter <+: []).isInfix
    rw [List.nil_append, upTo_cons hstart, upTo_of_prefix (List.prefix_append _ _)]
    rfl
  | cons symbol text ih =>
    have hstart : ¬ delimiter <+: symbol :: (text ++ sep :: (delimiter ++ rest)) := fun hbegins ↦
      h (prefix_of_prefix_append_cons hsep hbegins).isInfix
    rw [List.cons_append, upTo_cons hstart, ih fun hinside ↦ h (List.infix_cons hinside)]
    rfl

/-- In front of a delimiter that a text holds there is less than the text. -/
theorem upTo_of_infix (h : delimiter <:+: text) :
    ∃ front, upTo delimiter (text ++ rest) = some front ∧ front.length ≤ text.length := by
  induction text with
  | nil =>
    rw [List.infix_nil.mp h]
    exact ⟨[], upTo_of_prefix List.nil_prefix, Nat.le_refl _⟩
  | cons symbol text ih =>
    by_cases hstart : delimiter <+: symbol :: (text ++ rest)
    · exact ⟨[], upTo_of_prefix hstart, Nat.zero_le _⟩
    · have hlater : delimiter <:+: text := by
        rcases List.infix_cons_iff.mp h with hbegins | hlater
        · exact absurd (hbegins.trans (List.prefix_append (symbol :: text) rest)) hstart
        · exact hlater
      obtain ⟨front, hfront, hlength⟩ := ih hlater
      refine ⟨symbol :: front, ?_, Nat.succ_le_succ hlength⟩
      rw [List.cons_append, upTo_cons hstart, hfront, Option.map_some]

/-- A text is read back exactly if it does not hold the delimiter. -/
theorem upTo_eq_iff (hsep : sep ∉ delimiter) :
    upTo delimiter (text ++ sep :: (delimiter ++ rest)) = some (text ++ [sep]) ↔
      ¬ delimiter <:+: text := by
  constructor
  · intro h hinside
    have hread : ∃ front, upTo delimiter (text ++ sep :: (delimiter ++ rest)) = some front ∧
        front.length ≤ text.length := upTo_of_infix hinside
    obtain ⟨front, hfront, hlength⟩ := hread
    rw [hfront, Option.some.injEq] at h
    rw [h, List.length_append, List.length_singleton] at hlength
    omega
  · exact upTo_of_not_infix hsep

end Foundations.Delimiters

namespace Foundations.JsString

theorem includes_iff {text pattern : JsString} : includes text pattern = true ↔ pattern <:+: text := by
  simp only [includes, List.any_eq_true, List.mem_tails, List.isPrefixOf_iff_prefix,
    List.infix_iff_prefix_suffix]
  constructor
  · intro h
    obtain ⟨tail, htail, hbegins⟩ := h
    exact ⟨tail, hbegins, htail⟩
  · intro h
    obtain ⟨tail, hbegins, htail⟩ := h
    exact ⟨tail, htail, hbegins⟩

end Foundations.JsString
