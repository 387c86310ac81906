import Cordyceps.Foundations.Decimal

/-!
# JSON lines

The text of `JSON.stringify` has no control unit: a line of it is one line. So values that are
written one behind the other, each with a line feed, are the lines of the text again.
-/

namespace Foundations

/-- No unit is a control unit. -/
def Printable (text : JsString) : Prop := ∀ unit ∈ text, 0x20 ≤ unit

namespace Printable

@[simp]
theorem nil : Printable [] := fun _ hunit ↦ absurd hunit List.not_mem_nil

@[simp]
theorem cons_iff {unit : CodeUnit} {text : JsString} :
    Printable (unit :: text) ↔ 0x20 ≤ unit ∧ Printable text := List.forall_mem_cons

@[simp]
theorem append_iff {first second : JsString} :
    Printable (first ++ second) ↔ Printable first ∧ Printable second :=
  List.forall_mem_append

theorem of_all {text : JsString} (h : text.all (0x20 ≤ ·) = true) : Printable text :=
  fun unit hunit ↦ of_decide_eq_true (List.all_eq_true.mp h unit hunit)

theorem replicate {unit : CodeUnit} (h : 0x20 ≤ unit) (count : ℕ) :
    Printable (List.replicate count unit) := by
  intro other hother
  rw [List.eq_of_mem_replicate hother]
  exact h

theorem take {text : JsString} (h : Printable text) (count : ℕ) : Printable (text.take count) :=
  fun _ hunit ↦ h _ (List.mem_of_mem_take hunit)

theorem drop {text : JsString} (h : Printable text) (count : ℕ) : Printable (text.drop count) :=
  fun _ hunit ↦ h _ (List.mem_of_mem_drop hunit)

theorem newline_notMem {text : JsString} (h : Printable text) : newline ∉ text :=
  fun hmem ↦ absurd (h _ hmem) (by decide)

end Printable

namespace Json

theorem printable_decimal (value : ℕ) : Printable (decimal value) := by
  intro unit hunit
  have hdigit := isDigit_of_mem_decimal hunit
  simp only [CodeUnit.isDigit, Bool.and_eq_true, decide_eq_true_eq] at hdigit
  exact UInt16.le_trans (by decide) hdigit.1

theorem printable_numberText (value : ℚ) : Printable (numberText value) := by
  unfold numberText
  split
  · exact .of_all rfl
  · dsimp only
    have hzeros : ∀ count, Printable (List.replicate count 0x30) := .replicate (by decide)
    have hdigits := printable_decimal (stripZeros (decimalShift |value| 400).1.natAbs 400).1
    have hliteral : Printable (js ".") ∧ Printable (js "0.") ∧ Printable (js "-") ∧
        Printable (js "e+") ∧ Printable (js "e-") :=
      ⟨.of_all rfl, .of_all rfl, .of_all rfl, .of_all rfl, .of_all rfl⟩
    obtain ⟨hpoint, hzero, hminus, hup, hdown⟩ := hliteral
    split_ifs <;> simp [hzeros, hdigits, hpoint, hzero, hminus, hup, hdown, printable_decimal,
      hdigits.take, hdigits.drop, -List.drop_one]

theorem printable_escapeCode (unit : CodeUnit) : Printable (escapeCode unit) := by
  have hdigit : ∀ value, value < 16 → 0x20 ≤ hexUnit value := by decide
  have hcode := unit.toNat_lt
  simp only [escapeCode, Printable.cons_iff, Printable.nil, and_true]
  refine ⟨by decide, by decide, hdigit _ (by omega), hdigit _ (by omega), hdigit _ (by omega),
    hdigit _ (by omega)⟩

theorem le_of_not_control {unit : CodeUnit} {other : Bool}
    (h : ¬ (decide (unit < 0x20) || other) = true) : 0x20 ≤ unit := by
  simp only [Bool.or_eq_true, decide_eq_true_eq, not_or, UInt16.not_lt] at h
  exact h.1

theorem printable_quoteUnits (text : JsString) : Printable (quoteUnits text) := by
  fun_induction quoteUnits text with
  | case1 => exact .nil
  | case2 unit rest hescape ih =>
    have hunit : 0x20 ≤ unit := by
      rcases Bool.or_eq_true_iff.mp hescape with hquote | hslash
      · exact eq_of_beq hquote ▸ by decide
      · exact eq_of_beq hslash ▸ by decide
    simp [hunit, ih]
  | case3 | case4 | case5 | case6 | case7 => simp [*]
  | case8 => simp [printable_escapeCode, *]
  | case9 => exact printable_escapeCode _
  | case10 unit _ _ _ _ _ _ hplain _ low tail hlow ih =>
    have hlow : 0x20 ≤ low := by
      rw [isLowSurrogate, Bool.and_eq_true, decide_eq_true_eq] at hlow
      exact UInt16.le_trans (by decide) hlow.1
    simp [le_of_not_control hplain, hlow, ih]
  | case11 => simp [printable_escapeCode, *]
  | case12 unit rest _ _ _ _ _ _ hplain _ ih => simp [le_of_not_control hplain, ih]

theorem printable_quote (text : JsString) : Printable (quote text) := by
  have hmark : Printable (js "\"") := .of_all rfl
  simp [quote, hmark, printable_quoteUnits]

mutual

theorem printable_stringify : ∀ value : Json, Printable (stringify value)
  | .null => by
    rw [stringify]
    exact .of_all rfl
  | .bool true => by
    rw [stringify, if_pos rfl]
    exact .of_all rfl
  | .bool false => by
    rw [stringify, if_neg (by decide)]
    exact .of_all rfl
  | .num value => by
    rw [stringify]
    exact printable_numberText value
  | .str value => by
    rw [stringify]
    exact printable_quote value
  | .arr elements => by
    rw [stringify, Printable.append_iff, Printable.append_iff]
    exact ⟨⟨.of_all rfl, printable_stringifyElements elements⟩, .of_all rfl⟩
  | .obj members => by
    rw [stringify, Printable.append_iff, Printable.append_iff]
    exact ⟨⟨.of_all rfl, printable_stringifyMembers members⟩, .of_all rfl⟩

theorem printable_stringifyElements : ∀ elements : List Json,
    Printable (stringifyElements elements)
  | [] => by
    rw [stringifyElements]
    exact .nil
  | value :: rest => by
    have hcomma : Printable (js ",") := .of_all rfl
    have hvalue := printable_stringify value
    have hrest := printable_stringifyElements rest
    rw [stringifyElements]
    split <;> simp [hcomma, hvalue, hrest]

theorem printable_stringifyMembers : ∀ members : List (JsString × Json),
    Printable (stringifyMembers members)
  | [] => by
    rw [stringifyMembers]
    exact .nil
  | (key, value) :: rest => by
    have hmark : Printable (js ":") ∧ Printable (js ",") := ⟨.of_all rfl, .of_all rfl⟩
    have hvalue := printable_stringify value
    have hrest := printable_stringifyMembers rest
    rw [stringifyMembers]
    split <;> simp [hmark, hvalue, hrest, printable_quote]

end

/-! ## Values in lines -/

/-- `JSON.stringify(value) + "\n"`. -/
def line (value : Json) : JsString := stringify value ++ [newline]

theorem stringify_obj_ne_nil (members : List (JsString × Json)) :
    stringify (.obj members) ≠ [] := by
  rw [stringify]
  exact List.append_ne_nil_of_right_ne_nil _ (by decide)

/-- The lines of the written values, and an empty one behind the last line feed. -/
theorem splitOn_lines (values : List Json) :
    (values.flatMap line).splitOn newline = values.map stringify ++ [[]] := by
  induction values with
  | nil => rfl
  | cons value rest ih =>
    calc
      ((value :: rest).flatMap line).splitOn newline =
          (stringify value ++ newline :: rest.flatMap line).splitOn newline := by
        rw [List.flatMap_cons, line, List.append_assoc, List.singleton_append]
      _ = stringify value :: (rest.flatMap line).splitOn newline :=
        List.splitOn_append_cons_self_of_not_mem (printable_stringify value).newline_notMem _
      _ = _ := by rw [ih, List.map_cons, List.cons_append]

end Json

end Foundations
