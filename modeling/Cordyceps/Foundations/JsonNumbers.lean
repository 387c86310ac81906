import Cordyceps.Foundations.Decimal
import Mathlib.Tactic.Ring
import Mathlib.Tactic.FieldSimp
import Mathlib.Algebra.Order.Floor.Ring
import Mathlib.Data.Rat.Floor

/-!
# Numbers as texts

`JSON.parse` reads the number back that `Number::toString` wrote, in each of its four layouts, where
the number is a decimal fraction of at most four hundred places.
-/

namespace Foundations.Json

open CodeUnit (isDigit)

/-! ## Digits -/

theorem digitsValue_append (first second : JsString) :
    digitsValue (first ++ second) = digitsValue first * 10 ^ second.length + digitsValue second := by
  have hfold : ∀ (digits : JsString) (start : ℕ),
      digits.foldl (fun value unit ↦ 10 * value + (unit.toNat - 0x30)) start =
        start * 10 ^ digits.length + digitsValue digits := by
    intro digits
    induction digits with
    | nil => simp [digitsValue]
    | cons unit rest ih =>
      intro start
      rw [digitsValue, List.foldl_cons, List.foldl_cons, ih, ih, List.length_cons]
      ring
  rw [digitsValue, List.foldl_append, hfold]
  rfl

theorem decimal_of_lt :
    ∀ value < 10, decimal value = [UInt16.ofNat (0x30 + value)] := by
  decide

theorem decimal_of_le {value : ℕ} (h : 10 ≤ value) :
    decimal value = decimal (value / 10) ++ decimal (value % 10) := by
  rw [decimal, Nat.toDigits_of_base_le (by decide) h, List.map_append, decimal,
    decimal, Nat.toDigits_of_lt_base (Nat.mod_lt value (by decide))]

theorem digitsValue_decimal (value : ℕ) : digitsValue (decimal value) = value := by
  have hone : ∀ digit < 10, digitsValue (decimal digit) = digit := by decide
  induction value using Nat.strong_induction_on with
  | _ value ih =>
    obtain h | h := Nat.lt_or_ge value 10
    · exact hone value h
    · have hlength : (decimal (value % 10)).length = 1 := by
        rw [decimal_of_lt _ (Nat.mod_lt value (by decide)), List.length_singleton]
      rw [decimal_of_le h, digitsValue_append, ih (value / 10) (by omega),
        hone _ (Nat.mod_lt value (by decide)), hlength]
      omega

theorem digitsValue_zeros (count : ℕ) : digitsValue (List.replicate count 0x30) = 0 := by
  induction count with
  | zero => rfl
  | succ count ih =>
    rw [List.replicate_succ', digitsValue_append, ih]
    rfl

/-- A positive number has no leading zero. -/
theorem head?_decimal {value : ℕ} (h : 0 < value) : (decimal value).head? ≠ some 0x30 := by
  have hone : ∀ digit < 10, 0 < digit → (decimal digit).head? ≠ some 0x30 := by decide
  induction value using Nat.strong_induction_on with
  | _ value ih =>
    obtain hlt | hle := Nat.lt_or_ge value 10
    · exact hone value hlt h
    · rw [decimal_of_le hle, List.head?_append_of_ne_nil _ (decimal_ne_nil _)]
      exact ih (value / 10) (by omega) (by omega)

/-- The digits in front of something else. -/
theorem span_digits {digits rest : JsString} (hdigits : ∀ unit ∈ digits, isDigit unit = true)
    (hrest : ∀ unit ∈ rest.head?, isDigit unit = false) :
    (digits ++ rest).takeWhile isDigit = digits ∧ (digits ++ rest).dropWhile isDigit = rest := by
  have hstop : rest.takeWhile isDigit = [] ∧ rest.dropWhile isDigit = rest := by
    cases rest with
    | nil => exact ⟨rfl, rfl⟩
    | cons unit rest =>
      have hunit := hrest unit rfl
      exact ⟨List.takeWhile_cons_of_neg (by simp [hunit]), List.dropWhile_cons_of_neg (by simp [hunit])⟩
  rw [List.takeWhile_append_of_pos hdigits, List.dropWhile_append_of_pos hdigits, hstop.1, hstop.2,
    List.append_nil]
  exact ⟨rfl, rfl⟩

/-! ## One number -/

/-- What follows does not go on with the number. -/
def EndsNumber (rest : JsString) : Prop :=
  ∀ unit ∈ rest.head?, isDigit unit = false ∧ unit ≠ 0x2E ∧ unit ≠ 0x65 ∧ unit ≠ 0x45

/-- The fraction part of a number, empty without digits. -/
def fractionText (digits : JsString) : JsString := if digits.isEmpty then [] else 0x2E :: digits

/-- The exponent part. -/
def exponentText (negative : Bool) (exponent : ℕ) : JsString :=
  (if negative then js "e-" else js "e+") ++ decimal exponent

theorem parseFraction_fractionText {digits rest : JsString}
    (hdigits : ∀ unit ∈ digits, isDigit unit = true)
    (hrest : ∀ unit ∈ rest.head?, isDigit unit = false ∧ unit ≠ 0x2E) :
    parseFraction (fractionText digits ++ rest) = some (digits, rest) := by
  rw [fractionText]
  split
  · rename_i hempty
    rw [List.isEmpty_iff] at hempty
    rw [List.nil_append, hempty]
    cases rest with
    | nil => rfl
    | cons unit rest =>
      rw [parseFraction, if_neg (by simpa using (hrest unit rfl).2)]
  · rename_i hnonempty
    obtain ⟨htake, hdrop⟩ := span_digits hdigits fun unit hunit ↦ (hrest unit hunit).1
    rw [List.cons_append, parseFraction, if_pos (beq_self_eq_true _)]
    simp only
    rw [htake, hdrop, if_neg hnonempty]

theorem parseExponent_nil {rest : JsString}
    (hrest : ∀ unit ∈ rest.head?, unit ≠ 0x65 ∧ unit ≠ 0x45) :
    parseExponent rest = some (0, rest) := by
  cases rest with
  | nil => rfl
  | cons unit rest =>
    unfold parseExponent
    exact if_neg (by simpa using hrest unit rfl)

theorem parseExponent_exponentText (negative : Bool) (exponent : ℕ) {rest : JsString}
    (hrest : ∀ unit ∈ rest.head?, isDigit unit = false) :
    parseExponent (exponentText negative exponent ++ rest) =
      some (if negative then -(exponent : ℤ) else exponent, rest) := by
  obtain ⟨htake, hdrop⟩ :=
    span_digits (fun _ hunit ↦ @isDigit_of_mem_decimal exponent _ hunit) hrest
  have hnonempty : (decimal exponent).isEmpty = false := by
    simpa using decimal_ne_nil exponent
  cases negative with
  | false =>
    change parseExponent (0x65 :: 0x2B :: (decimal exponent ++ rest)) = _
    unfold parseExponent
    simp [htake, hdrop, hnonempty, digitsValue_decimal]
  | true =>
    change parseExponent (0x65 :: 0x2D :: (decimal exponent ++ rest)) = _
    unfold parseExponent
    simp [htake, hdrop, hnonempty, digitsValue_decimal]

theorem isDigit_of_mem_zero : ∀ unit ∈ js "0", isDigit unit = true := by
  have hzero : js "0" = [0x30] := rfl
  rw [hzero]
  intro unit hunit
  rw [List.mem_singleton.mp hunit]
  rfl

/-- A number by its parts. -/
theorem parseNumber_parts {whole fraction tail rest : JsString} {exponent : ℤ} (negative : Bool)
    (hwhole : ∀ unit ∈ whole, isDigit unit = true) (hnonempty : whole ≠ [])
    (hzero : whole.head? = some 0x30 → whole.length = 1)
    (hfraction : ∀ unit ∈ fraction, isDigit unit = true)
    (htail : ∀ unit ∈ tail.head?, isDigit unit = false ∧ unit ≠ 0x2E)
    (hexponent : parseExponent tail = some (exponent, rest)) :
    parseNumber ((if negative then js "-" else []) ++ (whole ++ (fractionText fraction ++ tail))) =
      some ((if negative then -1 else 1) * digitsValue (whole ++ fraction) *
        (10 : ℚ) ^ (exponent - fraction.length), rest) := by
  have hstop : ∀ unit ∈ (fractionText fraction ++ tail).head?, isDigit unit = false := by
    rw [fractionText]
    split
    · exact fun unit hunit ↦ (htail unit hunit).1
    · intro unit hunit
      cases hunit
      rfl
  obtain ⟨htake, hdrop⟩ := span_digits hwhole hstop
  have hleading : ¬ (whole.isEmpty || (whole.head? == some 0x30 && 1 < whole.length)) = true := by
    simp only [Bool.or_eq_true, List.isEmpty_iff, hnonempty, false_or, Bool.and_eq_true, beq_iff_eq,
      decide_eq_true_eq, not_and, Nat.not_lt]
    exact fun h ↦ (hzero h).le
  have hparse := parseFraction_fractionText hfraction htail
  have hminus : ∀ unit ∈ (whole ++ (fractionText fraction ++ tail)).head?, unit ≠ 0x2D := by
    intro unit hunit
    rw [List.head?_append_of_ne_nil _ hnonempty] at hunit
    have hdigit := hwhole unit (List.mem_of_mem_head? hunit)
    rintro rfl
    exact absurd hdigit (by decide)
  cases negative with
  | false =>
    rw [if_neg Bool.false_ne_true, List.nil_append]
    cases hbody : whole ++ (fractionText fraction ++ tail) with
    | nil => simp [hnonempty] at hbody
    | cons mark body =>
      have hmark : ¬ (mark == 0x2D) = true := by
        simpa using hminus mark (by rw [hbody]; rfl)
      unfold parseNumber
      simp only [if_neg hmark]
      rw [← hbody, htake, hdrop]
      simp [hleading, hparse, hexponent]
  | true =>
    change parseNumber (0x2D :: (whole ++ (fractionText fraction ++ tail))) = _
    unfold parseNumber
    simp only [beq_self_eq_true, if_true]
    rw [htake, hdrop]
    simp [hleading, hparse, hexponent]

/-! ## `Number::toString` -/

/-- A decimal fraction of at most so many places. -/
def DecimalFraction (places : ℕ) (value : ℚ) : Prop := (value * 10 ^ places).den = 1

theorem decimalFraction_natCast (places value : ℕ) : DecimalFraction places value := by
  have hcast : (value : ℚ) * 10 ^ places = ((value * 10 ^ places : ℕ) : ℚ) := by
    push_cast
    rfl
  rw [DecimalFraction, hcast]
  exact Rat.den_natCast _

theorem decimalShift_spec {places : ℕ} {value : ℚ} (h : DecimalFraction places value) :
    value = (decimalShift value places).1 / 10 ^ (decimalShift value places).2 := by
  have hwhole : ∀ value : ℚ, value.den = 1 → value = value.num / 10 ^ 0 := by
    intro value hden
    rw [pow_zero, div_one, (Rat.den_eq_one_iff value).mp hden]
  induction places generalizing value with
  | zero =>
    rw [DecimalFraction, pow_zero, mul_one] at h
    have hfloor : value.floor = value.num := by rw [Rat.floor, if_pos h]
    rw [decimalShift, hfloor]
    exact hwhole value h
  | succ places ih =>
    rw [decimalShift]
    split
    · rename_i hden
      exact hwhole value hden
    · have hnext : DecimalFraction places (value * 10) := by
        rw [DecimalFraction, mul_assoc, ← pow_succ']
        exact h
      have hvalue := ih hnext
      simp only
      rw [pow_succ, ← div_div, ← hvalue]
      field_simp

theorem stripZeros_spec (value bound : ℕ) :
    (stripZeros value bound).1 * 10 ^ (stripZeros value bound).2 = value := by
  induction bound generalizing value with
  | zero => simp [stripZeros]
  | succ bound ih =>
    rw [stripZeros]
    split
    · rename_i h
      simp only
      rw [pow_succ, ← mul_assoc, ih]
      omega
    · simp

/-- The layout of the digits when the decimal point stands after `point` of them. -/
def unsignedText (text : JsString) (point : ℤ) : JsString :=
  let length : ℤ := text.length
  if length ≤ point ∧ point ≤ 21 then
    text ++ List.replicate (point - length).toNat 0x30
  else if 0 < point ∧ point ≤ 21 then
    text.take point.toNat ++ js "." ++ text.drop point.toNat
  else if -6 < point ∧ point ≤ 0 then
    js "0." ++ List.replicate (-point).toNat 0x30 ++ text
  else
    let exponent := (if 0 < point then js "e+" else js "e-") ++ decimal (point - 1).natAbs
    if text.length = 1 then text ++ exponent
    else text.take 1 ++ js "." ++ text.drop 1 ++ exponent

section Layouts

variable {digits : ℕ} {rest : JsString}

theorem isDigit_of_mem_zeros {count : ℕ} {unit : CodeUnit} (h : unit ∈ List.replicate count 0x30) :
    isDigit unit = true := by
  rw [List.eq_of_mem_replicate h]
  rfl

/-- Only digits, with zeros after them. -/
theorem parseNumber_whole (negative : Bool) (hpos : 0 < digits) (zeros : ℕ) (hrest : EndsNumber rest) :
    parseNumber ((if negative then js "-" else []) ++
        (decimal digits ++ List.replicate zeros 0x30 ++ rest)) =
      some ((if negative then -1 else 1) * (digits * (10 : ℚ) ^ (zeros : ℤ)), rest) := by
  have hwhole : ∀ unit ∈ decimal digits ++ List.replicate zeros 0x30, isDigit unit = true := by
    intro unit hunit
    exact (List.mem_append.mp hunit).elim isDigit_of_mem_decimal isDigit_of_mem_zeros
  have hhead : (decimal digits ++ List.replicate zeros 0x30).head? ≠ some 0x30 := by
    rw [List.head?_append_of_ne_nil _ (decimal_ne_nil digits)]
    exact head?_decimal hpos
  have hparts := @parseNumber_parts (decimal digits ++ List.replicate zeros 0x30) [] rest rest 0
    negative hwhole (by simp [decimal_ne_nil]) (fun h ↦ absurd h hhead) (by simp)
    (fun unit hunit ↦ ⟨(hrest unit hunit).1, (hrest unit hunit).2.1⟩)
    (parseExponent_nil fun unit hunit ↦ (hrest unit hunit).2.2)
  have hvalue : digitsValue (decimal digits ++ List.replicate zeros 0x30 ++ []) =
      digits * 10 ^ zeros := by
    rw [List.append_nil, digitsValue_append, digitsValue_decimal, digitsValue_zeros,
      List.length_replicate, add_zero]
  rw [hvalue] at hparts
  refine hparts.trans ?_
  simp

theorem fractionText_of_ne_nil {fraction : JsString} (h : fraction ≠ []) :
    fractionText fraction = js "." ++ fraction := by
  rw [fractionText, if_neg (by simpa using h)]
  rfl

/-- A point between the digits. -/
theorem parseNumber_pointed {whole fraction tail : JsString} {exponent : ℤ} (negative : Bool)
    (hpos : 0 < digits) (htext : whole ++ fraction = decimal digits) (hwhole : whole ≠ [])
    (hfraction : fraction ≠ []) (htail : ∀ unit ∈ tail.head?, isDigit unit = false ∧ unit ≠ 0x2E)
    (hexponent : parseExponent tail = some (exponent, rest)) :
    parseNumber ((if negative then js "-" else []) ++ (whole ++ js "." ++ fraction ++ tail)) =
      some ((if negative then -1 else 1) * (digits * (10 : ℚ) ^ (exponent - fraction.length)),
        rest) := by
  have hdigit : ∀ unit ∈ whole ++ fraction, isDigit unit = true := by
    rw [htext]
    exact fun unit ↦ isDigit_of_mem_decimal
  have hhead : whole.head? ≠ some 0x30 := by
    rw [← List.head?_append_of_ne_nil whole hwhole, htext]
    exact head?_decimal hpos
  have hparts := @parseNumber_parts whole fraction tail rest exponent negative
    (fun unit h ↦ hdigit unit (List.mem_append_left _ h)) hwhole (fun h ↦ absurd h hhead)
    (fun unit h ↦ hdigit unit (List.mem_append_right _ h)) htail hexponent
  rw [htext, digitsValue_decimal, fractionText_of_ne_nil hfraction] at hparts
  simp only [List.append_assoc] at hparts ⊢
  rw [hparts, mul_assoc]

/-- Only a fraction. -/
theorem parseNumber_fraction (negative : Bool) (zeros : ℕ) (hrest : EndsNumber rest) :
    parseNumber ((if negative then js "-" else []) ++
        (js "0." ++ List.replicate zeros 0x30 ++ decimal digits ++ rest)) =
      some ((if negative then -1 else 1) *
        (digits * (10 : ℚ) ^ (-((zeros + (decimal digits).length : ℕ) : ℤ))), rest) := by
  have hdigit : ∀ unit ∈ List.replicate zeros 0x30 ++ decimal digits, isDigit unit = true := by
    intro unit hunit
    exact (List.mem_append.mp hunit).elim isDigit_of_mem_zeros isDigit_of_mem_decimal
  have hparts := @parseNumber_parts (js "0") (List.replicate zeros 0x30 ++ decimal digits) rest rest 0
    negative isDigit_of_mem_zero (List.cons_ne_nil _ _) (fun _ ↦ rfl) hdigit
    (fun unit hunit ↦ ⟨(hrest unit hunit).1, (hrest unit hunit).2.1⟩)
    (parseExponent_nil fun unit hunit ↦ (hrest unit hunit).2.2)
  have hvalue : digitsValue (js "0" ++ (List.replicate zeros 0x30 ++ decimal digits)) = digits := by
    have hzero : digitsValue (js "0") = 0 := rfl
    rw [digitsValue_append, digitsValue_append, digitsValue_decimal, digitsValue_zeros, hzero]
    omega
  rw [hvalue, fractionText_of_ne_nil (by simp [decimal_ne_nil])] at hparts
  refine Eq.trans ?_ (hparts.trans ?_)
  · have hpoint : js "0." = js "0" ++ js "." := rfl
    simp only [hpoint, List.append_assoc]
  · rw [zero_sub, List.length_append, List.length_replicate, mul_assoc]

theorem EndsNumber.exponentText (negative : Bool) (exponent : ℕ) :
    ∀ unit ∈ (Json.exponentText negative exponent ++ rest).head?, isDigit unit = false ∧ unit ≠ 0x2E := by
  intro unit hunit
  cases negative <;> cases hunit <;> decide

/-- One digit and an exponent. -/
theorem parseNumber_scientific (negative below : Bool) (exponent : ℕ) (hpos : 0 < digits)
    (hrest : EndsNumber rest) :
    parseNumber ((if negative then js "-" else []) ++
        (decimal digits ++ exponentText below exponent ++ rest)) =
      some ((if negative then -1 else 1) *
        (digits * (10 : ℚ) ^ (if below then -(exponent : ℤ) else exponent)), rest) := by
  have hparts := @parseNumber_parts (decimal digits) [] (exponentText below exponent ++ rest) rest
    (if below then -(exponent : ℤ) else exponent) negative (fun unit ↦ isDigit_of_mem_decimal)
    (decimal_ne_nil digits) (fun h ↦ absurd h (head?_decimal hpos)) (by simp)
    (EndsNumber.exponentText below exponent)
    (parseExponent_exponentText below exponent fun unit hunit ↦ (hrest unit hunit).1)
  rw [List.append_nil, digitsValue_decimal] at hparts
  rw [List.append_assoc]
  refine hparts.trans ?_
  rw [List.length_nil, Nat.cast_zero, sub_zero, mul_assoc]

/-- Whatever the layout, the number is its digits at their scale. -/
theorem parseNumber_unsignedText (negative : Bool) (hpos : 0 < digits) (scale : ℤ)
    (hrest : EndsNumber rest) :
    parseNumber ((if negative then js "-" else []) ++
        (unsignedText (decimal digits) ((decimal digits).length + scale) ++ rest)) =
      some ((if negative then -1 else 1) * (digits * (10 : ℚ) ^ scale), rest) := by
  have hlength : 0 < (decimal digits).length := List.length_pos_of_ne_nil (decimal_ne_nil digits)
  have hstop : ∀ unit ∈ rest.head?, isDigit unit = false ∧ unit ≠ 0x2E :=
    fun unit hunit ↦ ⟨(hrest unit hunit).1, (hrest unit hunit).2.1⟩
  have hend : parseExponent rest = some (0, rest) :=
    parseExponent_nil fun unit hunit ↦ (hrest unit hunit).2.2
  generalize hpoint : ((decimal digits).length : ℤ) + scale = point
  by_cases hwhole : ((decimal digits).length : ℤ) ≤ point ∧ point ≤ 21
  · have hscale : ((point - (decimal digits).length).toNat : ℤ) = scale := by omega
    simp only [unsignedText, if_pos hwhole]
    rw [parseNumber_whole negative hpos _ hrest, hscale]
  by_cases hpointed : 0 < point ∧ point ≤ 21
  · have hscale : 0 - (((decimal digits).drop point.toNat).length : ℤ) = scale := by
      rw [List.length_drop]
      omega
    simp only [unsignedText, if_neg hwhole, if_pos hpointed]
    rw [parseNumber_pointed negative hpos (List.take_append_drop point.toNat _)
      (by simp [decimal_ne_nil]; omega) (by simp; omega) hstop hend, hscale]
  by_cases hfraction : -6 < point ∧ point ≤ 0
  · have hscale : (-(((-point).toNat + (decimal digits).length : ℕ) : ℤ)) = scale := by omega
    simp only [unsignedText, if_neg hwhole, if_neg hpointed, if_pos hfraction]
    rw [parseNumber_fraction negative _ hrest, hscale]
  -- The exponent is the place of the point behind the first digit.
  have htext : (if 0 < point then js "e+" else js "e-") ++ decimal (point - 1).natAbs =
      exponentText (decide (point ≤ 0)) (point - 1).natAbs := by
    rw [exponentText]
    by_cases h : 0 < point <;> simp [h, Int.not_le.mpr, Int.not_lt.mp]
  have hexponent : (if decide (point ≤ 0) = true then -((point - 1).natAbs : ℤ)
      else (point - 1).natAbs) = point - 1 := by
    by_cases h : point ≤ 0
    · rw [if_pos (decide_eq_true h)]
      omega
    · rw [if_neg (by simpa using h)]
      omega
  simp only [unsignedText, if_neg hwhole, if_neg hpointed, if_neg hfraction, htext]
  by_cases hone : (decimal digits).length = 1
  · have hscale : point - 1 = scale := by omega
    rw [if_pos hone, parseNumber_scientific negative _ _ hpos hrest, hexponent, hscale]
  · have hscale : point - 1 - (((decimal digits).drop 1).length : ℤ) = scale := by
      rw [List.length_drop]
      omega
    rw [if_neg hone, List.append_assoc _ _ rest,
      parseNumber_pointed negative hpos (List.take_append_drop 1 _)
        (by simp [decimal_ne_nil]) (fun h ↦ absurd (List.drop_eq_nil_iff.mp h) (by omega))
        (EndsNumber.exponentText _ _)
        (parseExponent_exponentText _ _ fun unit hunit ↦ (hrest unit hunit).1), hexponent, hscale]

end Layouts

theorem numberText_of_ne_zero {value : ℚ} (h : value ≠ 0) :
    numberText value =
      let (coefficient, shift) := decimalShift |value| 400
      let (digits, dropped) := stripZeros coefficient.natAbs 400
      (if decide (value < 0) then js "-" else []) ++
        unsignedText (decimal digits) ((decimal digits).length + dropped - shift) := by
  rw [numberText, if_neg h]
  by_cases hneg : value < 0
  · simp only [hneg, if_true, decide_true]
    rfl
  · simp only [hneg, if_false, decide_false, Bool.false_eq_true]
    rfl

/-- **The text of a number.** What `JSON.parse` reads is the number that was written. -/
theorem parseNumber_numberText {value : ℚ} {rest : JsString} (h : DecimalFraction 400 value)
    (hrest : EndsNumber rest) : parseNumber (numberText value ++ rest) = some (value, rest) := by
  by_cases hzero : value = 0
  · have hparts := @parseNumber_parts (js "0") [] rest rest 0 false isDigit_of_mem_zero
      (List.cons_ne_nil _ _) (fun _ ↦ rfl) (by simp)
      (fun unit hunit ↦ ⟨(hrest unit hunit).1, (hrest unit hunit).2.1⟩)
      (parseExponent_nil fun unit hunit ↦ (hrest unit hunit).2.2)
    rw [numberText, if_pos hzero, hzero]
    refine hparts.trans ?_
    simp [digitsValue, js]
  · have habs : DecimalFraction 400 |value| := by
      obtain hsign | hsign := abs_choice value <;> rw [hsign]
      · exact h
      · rw [DecimalFraction, neg_mul, Rat.neg_den]
        exact h
    have hspec := decimalShift_spec habs
    rw [numberText_of_ne_zero hzero]
    generalize decimalShift |value| 400 = shifted at hspec
    obtain ⟨coefficient, shift⟩ := shifted
    simp only at hspec ⊢
    have hstrip := stripZeros_spec coefficient.natAbs 400
    generalize stripZeros coefficient.natAbs 400 = stripped at hstrip
    obtain ⟨digits, dropped⟩ := stripped
    simp only at hstrip ⊢
    have hnonneg : 0 ≤ coefficient := by
      have hle : (0 : ℚ) ≤ coefficient / 10 ^ shift := hspec ▸ abs_nonneg value
      have hcoefficient := mul_nonneg hle (pow_nonneg (by norm_num : (0 : ℚ) ≤ 10) shift)
      rw [div_mul_cancel₀ _ (by positivity)] at hcoefficient
      exact_mod_cast hcoefficient
    have hvalue : |value| = digits * (10 : ℚ) ^ ((dropped : ℤ) - shift) := by
      have hdigits : (coefficient : ℚ) = digits * 10 ^ dropped := by
        have hcast : ((coefficient.natAbs : ℤ) : ℚ) = ((digits * 10 ^ dropped : ℕ) : ℚ) := by
          rw [hstrip]
          rfl
        rw [Int.natAbs_of_nonneg hnonneg] at hcast
        rw [hcast]
        push_cast
        rfl
      rw [hspec, hdigits, zpow_sub₀ (by norm_num), zpow_natCast, zpow_natCast, mul_div_assoc]
    have hpos : 0 < digits := by
      rw [Nat.pos_iff_ne_zero]
      rintro rfl
      rw [Nat.cast_zero, zero_mul] at hvalue
      exact hzero (abs_eq_zero.mp hvalue)
    rw [add_sub_assoc, List.append_assoc,
      parseNumber_unsignedText (decide (value < 0)) hpos _ hrest, ← hvalue]
    by_cases hneg : value < 0
    · simp [hneg, abs_of_neg hneg]
    · simp [hneg, abs_of_nonneg (not_lt.mp hneg)]

end Foundations.Json
