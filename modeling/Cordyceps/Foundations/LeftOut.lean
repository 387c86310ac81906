import Cordyceps.Foundations.Trimming

/-!
# Texts with parts left out

A text is put together from items, some of which are left out, depending on the items before
and behind them. After trimming nothing is missed exactly if all that is left out belongs to
the blank margins.
-/

namespace Foundations.JsString

/-! ## Trimming and sublists -/

theorem dropWhile_sublist {Element : Type*} (accepts : Element → Bool) {first second : List Element}
    (h : first.Sublist second) : (first.dropWhile accepts).Sublist (second.dropWhile accepts) := by
  induction h with
  | slnil => exact .slnil
  | @cons first second unit h ih =>
    by_cases hunit : accepts unit = true
    · rwa [List.dropWhile_cons_of_pos hunit]
    · rw [List.dropWhile_cons_of_neg hunit]
      exact .cons unit ((List.dropWhile_sublist accepts).trans h)
  | @cons_cons first second unit h ih =>
    by_cases hunit : accepts unit = true
    · rwa [List.dropWhile_cons_of_pos hunit, List.dropWhile_cons_of_pos hunit]
    · rw [List.dropWhile_cons_of_neg hunit, List.dropWhile_cons_of_neg hunit]
      exact .cons_cons unit h

theorem trim_sublist {first second : JsString} (h : first.Sublist second) :
    (trim first).Sublist (trim second) :=
  (dropWhile_sublist _ (dropWhile_sublist _ h).reverse).reverse

theorem blank_of_sublist {first second : JsString} (h : first.Sublist second)
    (hblank : Blank second) : Blank first := fun unit hunit ↦ hblank unit (h.subset hunit)

theorem countP_trim (text : JsString) :
    (trim text).countP (!isSpace ·) = text.countP (!isSpace ·) := by
  obtain ⟨lead, tail, hlead, htail, htext⟩ := exists_margins text
  have hnone : ∀ {margin : JsString}, Blank margin → margin.countP (!isSpace ·) = 0 := by
    intro margin hblank
    exact List.countP_eq_zero.mpr fun unit hunit ↦ by simp [hblank unit hunit]
  calc
    (trim text).countP (!isSpace ·) =
        lead.countP (!isSpace ·) + (trim text).countP (!isSpace ·) + tail.countP (!isSpace ·) := by
      rw [hnone hlead, hnone htail, Nat.zero_add, Nat.add_zero]
    _ = (lead ++ trim text ++ tail).countP (!isSpace ·) := by
      rw [List.countP_append, List.countP_append]
    _ = text.countP (!isSpace ·) := by rw [← htext]

/-- What is between two visible texts is not trimmed. -/
theorem trim_between {front back : JsString} (hfront : ¬ Blank front) (hback : ¬ Blank back)
    (middle : JsString) : trim (front ++ (middle ++ back)) = trimStart front ++ (middle ++ trimEnd back) := by
  have hstart : trimStart (front ++ (middle ++ back)) = trimStart front ++ (middle ++ back) := by
    rw [trimStart, trimStart, List.dropWhile_append, if_neg]
    rwa [List.isEmpty_iff, List.dropWhile_eq_nil_iff]
  calc
    trim (front ++ (middle ++ back)) = trimEnd ((trimStart front ++ middle) ++ back) := by
      rw [trim, hstart, List.append_assoc]
    _ = (trimStart front ++ middle) ++ trimEnd back := trimEnd_append hback _
    _ = _ := List.append_assoc ..

/-- A part in the middle of what is visible is missed. -/
theorem blank_of_trim_sublist {front part back : JsString} (hne : part ≠ [])
    (h : (trim (front ++ (part ++ back))).Sublist (trim (front ++ back))) :
    Blank (front ++ part) ∨ Blank (part ++ back) := by
  have hcount : (trim (front ++ (part ++ back))).countP (!isSpace ·) ≤
      (trim (front ++ back)).countP (!isSpace ·) := h.countP_le
  rw [countP_trim, countP_trim, List.countP_append, List.countP_append, List.countP_append] at hcount
  have hpart : Blank part := by
    have hnone : part.countP (!isSpace ·) = 0 := by omega
    intro unit hunit
    simpa using List.countP_eq_zero.mp hnone unit hunit
  simp only [blank_append, hpart, and_true, true_and]
  by_contra hvisible
  rw [not_or] at hvisible
  have hlength := h.length_le
  have hclose := trim_between hvisible.1 hvisible.2 []
  rw [List.nil_append, List.nil_append] at hclose
  rw [trim_between hvisible.1 hvisible.2, hclose, List.length_append, List.length_append,
    List.length_append] at hlength
  have hpositive := List.length_pos_iff.mpr hne
  omega

/-! ## Leaving out -/

variable {Item : Type*} (text : Item → JsString) (out : List Item → List Item → Bool)

/-- The text of the items behind `before` that are not left out. -/
def leaveOut : List Item → List Item → JsString
  | _, [] => []
  | before, item :: after =>
    (if out before after then [] else text item) ++ leaveOut (before ++ [item]) after

/-- An item without text, or one that belongs to a blank margin. -/
def Marginal (before : List Item) (item : Item) (after : List Item) : Prop :=
  text item = [] ∨ Blank ((before ++ [item]).flatMap text) ∨ Blank ((item :: after).flatMap text)

variable {text out}

theorem leaveOut_sublist (before items : List Item) :
    (leaveOut text out before items).Sublist (items.flatMap text) := by
  induction items generalizing before with
  | nil => exact .slnil
  | cons item after ih =>
    rw [leaveOut, List.flatMap_cons]
    refine List.Sublist.append ?_ (ih _)
    split
    · exact List.nil_sublist _
    · exact .refl _

theorem leaveOut_sublist_of_out {before first last : List Item} {item : Item}
    (h : out (before ++ first) last = true) :
    (leaveOut text out before (first ++ item :: last)).Sublist
      (first.flatMap text ++ last.flatMap text) := by
  induction first generalizing before with
  | nil =>
    rw [List.append_nil] at h
    rw [List.nil_append, leaveOut, if_pos h]
    exact leaveOut_sublist _ last
  | cons other first ih =>
    rw [List.cons_append, leaveOut, List.flatMap_cons, List.append_assoc]
    refine List.Sublist.append ?_ (ih (by simpa using h))
    split
    · exact List.nil_sublist _
    · exact .refl _

/-- Behind something visible only the end of the text can be left out. -/
theorem leaveOut_tail (before items : List Item)
    (h : ∀ first item last, items = first ++ item :: last → out (before ++ first) last = true →
      text item = [] ∨ Blank ((item :: last).flatMap text)) :
    ∃ core all kept, items.flatMap text = core ++ all ∧
      leaveOut text out before items = core ++ kept ∧ Blank all ∧ Blank kept := by
  induction items generalizing before with
  | nil => exact ⟨[], [], [], rfl, rfl, blank_nil, blank_nil⟩
  | cons item after ih =>
    by_cases hblank : Blank ((item :: after).flatMap text)
    · exact ⟨[], (item :: after).flatMap text, leaveOut text out before (item :: after), rfl, rfl,
        hblank, blank_of_sublist (leaveOut_sublist ..) hblank⟩
    obtain ⟨core, all, kept, hall, hkept, hblanks⟩ := ih (before ++ [item])
      fun first other last hitems hout ↦
        h (item :: first) other last (by rw [hitems, List.cons_append]) (by simpa using hout)
    refine ⟨text item ++ core, all, kept, ?_, ?_, hblanks⟩
    · rw [List.flatMap_cons, hall, List.append_assoc]
    · rw [leaveOut, hkept, ← List.append_assoc]
      split
      · rename_i hout
        have hempty := (h [] item after rfl (by simpa using hout)).resolve_right hblank
        rw [hempty]
      · rfl

theorem trim_leaveOut (before items : List Item)
    (h : ∀ first item last, items = first ++ item :: last → out (before ++ first) last = true →
      Marginal text first item last) :
    trim (leaveOut text out before items) = trim (items.flatMap text) := by
  induction items generalizing before with
  | nil => rfl
  | cons item after ih =>
    have hblanks : Blank (text item) →
        trim (leaveOut text out before (item :: after)) = trim ((item :: after).flatMap text) := by
      intro hitem
      have hfront : Blank (if out before after then [] else text item) := by
        split
        · exact blank_nil
        · exact hitem
      rw [leaveOut, List.flatMap_cons, trim_blank_append hfront, trim_blank_append hitem]
      refine ih (before ++ [item]) fun first other last hitems hout ↦ ?_
      have hmargin := h (item :: first) other last (by rw [hitems, List.cons_append])
        (by simpa using hout)
      refine hmargin.imp_right (Or.imp_left fun hlead ↦ ?_)
      rw [List.cons_append, List.flatMap_cons, blank_append] at hlead
      exact hlead.2
    by_cases hitem : Blank (text item)
    · exact hblanks hitem
    by_cases hall : Blank ((item :: after).flatMap text)
    · rw [trim_blank hall, trim_blank (blank_of_sublist (leaveOut_sublist ..) hall)]
    have hkeep : ¬ out before after = true := by
      intro hout
      rcases h [] item after rfl (by simpa using hout) with hempty | hlead | htail
      · exact hitem (hempty ▸ blank_nil)
      · exact hitem (by simpa using hlead)
      · exact hall htail
    obtain ⟨core, all, kept, hwhole, hkept, hall', hkept'⟩ := leaveOut_tail (before ++ [item]) after
      fun first other last hitems hout ↦ by
        have hmargin := h (item :: first) other last (by rw [hitems, List.cons_append])
          (by simpa using hout)
        refine hmargin.imp_right fun hor ↦ hor.resolve_left fun hlead ↦ ?_
        rw [List.cons_append, List.flatMap_cons, blank_append] at hlead
        exact hitem hlead.1
    calc
      _ = trim (text item ++ core ++ kept) := by
        rw [leaveOut, if_neg hkeep, hkept, List.append_assoc]
      _ = trim (text item ++ core) := trim_append_blank _ hkept'
      _ = trim (text item ++ core ++ all) := (trim_append_blank _ hall').symm
      _ = trim ((item :: after).flatMap text) := by
        rw [List.flatMap_cons, hwhole, List.append_assoc]

/-- **Nothing is missed** after trimming if and only if all that is left out is marginal. -/
theorem trim_leaveOut_iff (items : List Item) :
    trim (leaveOut text out [] items) = trim (items.flatMap text) ↔
      ∀ before item after, items = before ++ item :: after → out before after = true →
        Marginal text before item after := by
  constructor
  · rintro hsame before item after rfl hout
    by_cases hne : text item = []
    · exact Or.inl hne
    have hsub := trim_sublist (@leaveOut_sublist_of_out _ text out [] before after item hout)
    rw [hsame, List.flatMap_append, List.flatMap_cons] at hsub
    have hmargin := blank_of_trim_sublist hne hsub
    exact Or.inr (by simpa [List.flatMap_append] using hmargin)
  · exact trim_leaveOut [] items

end Foundations.JsString
