import Cordyceps.Foundations.Json

/-!
# Numbers in names

The decimal digits of a number are digits only, and give the number back. A number in front of
a unit that is no digit can be read off a text in one way.
-/

namespace Foundations.Json

theorem decimal_ne_nil (value : ℕ) : decimal value ≠ [] := by
  rw [decimal, Ne, List.map_eq_nil_iff]
  exact Nat.toDigits_ne_nil

theorem isDigit_char {value : ℕ} {digit : Char} (h : digit ∈ Nat.toDigits 10 value) :
    0x30 ≤ digit.toNat ∧ digit.toNat ≤ 0x39 := by
  have hdigit := Nat.isDigit_of_mem_toDigits (by decide) (by decide) h
  simpa [Char.isDigit, Char.le_def, UInt32.le_iff_toNat_le] using hdigit

theorem isDigit_of_mem_decimal {value : ℕ} {unit : CodeUnit} (h : unit ∈ decimal value) :
    unit.isDigit = true := by
  obtain ⟨digit, hdigit, rfl⟩ := List.mem_map.mp h
  have hrange := isDigit_char hdigit
  simp only [CodeUnit.isDigit, Bool.and_eq_true, decide_eq_true_eq, UInt16.le_iff_toNat_le,
    UInt16.toNat_ofNat', UInt16.reduceToNat]
  omega

/-- The digits of a number, as characters. -/
theorem map_decimal (value : ℕ) :
    (decimal value).map (fun unit ↦ Char.ofNat unit.toNat) = Nat.toDigits 10 value := by
  have hback : ∀ digit ∈ Nat.toDigits 10 value,
      Char.ofNat (UInt16.ofNat digit.toNat).toNat = digit := by
    intro digit hdigit
    have hrange := isDigit_char hdigit
    rw [UInt16.toNat_ofNat', Nat.mod_eq_of_lt (by omega), Char.ofNat_toNat]
  rw [decimal, List.map_map]
  exact (List.map_congr_left hback).trans (List.map_id' _)

theorem decimal_inj {first second : ℕ} : decimal first = decimal second ↔ first = second := by
  refine ⟨fun h ↦ ?_, fun h ↦ by rw [h]⟩
  have hdigits := congrArg (List.map fun unit : CodeUnit ↦ Char.ofNat unit.toNat) h
  rw [map_decimal, map_decimal] at hdigits
  rw [← Nat.ofDigitChars_ten_toDigits (n := first), hdigits, Nat.ofDigitChars_ten_toDigits]

theorem takeWhile_decimal (value : ℕ) {unit : CodeUnit} (hunit : unit.isDigit = false)
    (rest : JsString) : (decimal value ++ unit :: rest).takeWhile CodeUnit.isDigit = decimal value := by
  rw [List.takeWhile_append_of_pos fun _ ↦ isDigit_of_mem_decimal, List.takeWhile_cons_of_neg,
    List.append_nil]
  simp [hunit]

/-- The number in front of a unit that is no digit is determined. -/
theorem decimal_append_inj {first second : ℕ} {unit : CodeUnit} {rest other : JsString}
    (hunit : unit.isDigit = false)
    (h : decimal first ++ unit :: rest = decimal second ++ unit :: other) :
    first = second ∧ rest = other := by
  have hdigits := congrArg (List.takeWhile CodeUnit.isDigit) h
  rw [takeWhile_decimal _ hunit, takeWhile_decimal _ hunit, decimal_inj] at hdigits
  subst hdigits
  exact ⟨rfl, (List.cons.inj (List.append_cancel_left h)).2⟩

end Foundations.Json
