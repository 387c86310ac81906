import Cordyceps.Foundations.Json

/-!
# UTF-8 bytes of strings

`Buffer.from(text, "utf-8")`: the code units are read as UTF-16, a lone surrogate as the
replacement character, and the characters are encoded. The bytes tell well-formed strings
apart. Pieces cut off a well-formed string at ordinary units are well-formed.
-/

namespace Foundations

namespace JsString

/-- The character of a unit that is not half of a pair. -/
def loneChar (unit : CodeUnit) : Char :=
  if Json.isHighSurrogate unit || Json.isLowSurrogate unit then Char.ofNat 0xFFFD
  else Char.ofNat unit.toNat

/-- The character of a surrogate pair. -/
def pairChar (high low : CodeUnit) : Char :=
  Char.ofNat (0x10000 + (high.toNat - 0xD800) * 0x400 + (low.toNat - 0xDC00))

/-- The characters of a string, lone surrogates replaced. -/
def chars : JsString → List Char
  | [] => []
  | [unit] => [loneChar unit]
  | unit :: low :: rest =>
    if Json.isHighSurrogate unit && Json.isLowSurrogate low then pairChar unit low :: chars rest
    else loneChar unit :: chars (low :: rest)

def utf8 (text : JsString) : List UInt8 := (chars text).flatMap String.utf8EncodeChar

/-- All surrogates are in pairs: the string is the UTF-16 of characters. -/
def WellFormed (text : JsString) : Prop := ∃ literal : String, js literal = text

/-! ## Decoding -/

/-- The units of a character. -/
def charUnits (char : Char) : JsString :=
  if char.toNat < 0x10000 then [UInt16.ofNat char.toNat]
  else [UInt16.ofNat (0xD800 + (char.toNat - 0x10000) / 0x400),
    UInt16.ofNat (0xDC00 + (char.toNat - 0x10000) % 0x400)]

theorem js_eq (literal : String) : js literal = literal.toList.flatMap charUnits := rfl

/-- A unit that is not half of a pair. -/
def Ordinary (unit : CodeUnit) : Prop :=
  Json.isHighSurrogate unit = false ∧ Json.isLowSurrogate unit = false

instance (unit : CodeUnit) : Decidable (Ordinary unit) := inferInstanceAs (Decidable (_ ∧ _))

theorem toNat_unit {value : ℕ} (h : value < 0x10000) : (UInt16.ofNat value).toNat = value := by
  rw [UInt16.toNat_ofNat', Nat.mod_eq_of_lt h]

theorem isHighSurrogate_iff (unit : CodeUnit) :
    Json.isHighSurrogate unit = true ↔ 0xD800 ≤ unit.toNat ∧ unit.toNat ≤ 0xDBFF := by
  simp [Json.isHighSurrogate, UInt16.le_iff_toNat_le]

theorem isLowSurrogate_iff (unit : CodeUnit) :
    Json.isLowSurrogate unit = true ↔ 0xDC00 ≤ unit.toNat ∧ unit.toNat ≤ 0xDFFF := by
  simp [Json.isLowSurrogate, UInt16.le_iff_toNat_le]

theorem ordinary_ofNat {value : ℕ} (h : value < 0xD800 ∨ 0xDFFF < value ∧ value < 0x10000) :
    Ordinary (UInt16.ofNat value) := by
  have hvalue : (UInt16.ofNat value).toNat = value := toNat_unit (by omega)
  constructor
  · rw [Bool.eq_false_iff, Ne, isHighSurrogate_iff, hvalue]
    omega
  · rw [Bool.eq_false_iff, Ne, isLowSurrogate_iff, hvalue]
    omega

theorem chars_cons {unit : CodeUnit} (h : Ordinary unit) (rest : JsString) :
    chars (unit :: rest) = Char.ofNat unit.toNat :: chars rest := by
  have hlone : loneChar unit = Char.ofNat unit.toNat := by
    rw [loneChar, h.1, h.2]
    rfl
  cases rest with
  | nil => exact congrArg (fun char ↦ [char]) hlone
  | cons low rest =>
    rw [chars, h.1, hlone]
    rfl

theorem chars_charUnits (char : Char) (rest : JsString) :
    chars (charUnits char ++ rest) = char :: chars rest := by
  have hvalid : char.toNat < 0xD800 ∨ 0xDFFF < char.toNat ∧ char.toNat < 0x110000 := char.valid
  rw [charUnits]
  split
  case isTrue hsmall =>
    have hordinary : Ordinary (UInt16.ofNat char.toNat) := ordinary_ofNat (by omega)
    rw [List.singleton_append, chars_cons hordinary, toNat_unit hsmall, Char.ofNat_toNat]
  case isFalse hlarge =>
    have hhigh : (UInt16.ofNat (0xD800 + (char.toNat - 0x10000) / 0x400)).toNat =
        0xD800 + (char.toNat - 0x10000) / 0x400 := toNat_unit (by omega)
    have hlow : (UInt16.ofNat (0xDC00 + (char.toNat - 0x10000) % 0x400)).toNat =
        0xDC00 + (char.toNat - 0x10000) % 0x400 := toNat_unit (by omega)
    have hpair : pairChar (UInt16.ofNat (0xD800 + (char.toNat - 0x10000) / 0x400))
        (UInt16.ofNat (0xDC00 + (char.toNat - 0x10000) % 0x400)) = char := by
      rw [pairChar, hhigh, hlow]
      convert Char.ofNat_toNat char using 2
      omega
    rw [List.cons_append, List.singleton_append, chars, hpair,
      (isHighSurrogate_iff _).mpr (by rw [hhigh]; omega),
      (isLowSurrogate_iff _).mpr (by rw [hlow]; omega)]
    rfl

theorem chars_js (literal : String) : chars (js literal) = literal.toList := by
  rw [js_eq]
  induction literal.toList with
  | nil => rfl
  | cons char rest ih => rw [List.flatMap_cons, chars_charUnits, ih]

/-- The bytes tell well-formed strings apart. -/
theorem utf8_inj {first second : JsString} (hfirst : WellFormed first)
    (hsecond : WellFormed second) : utf8 first = utf8 second ↔ first = second := by
  obtain ⟨literal, rfl⟩ := hfirst
  obtain ⟨other, rfl⟩ := hsecond
  refine ⟨fun h ↦ ?_, fun h ↦ by rw [h]⟩
  rw [utf8, utf8, chars_js, chars_js] at h
  have hbytes : literal.toList.utf8Encode = other.toList.utf8Encode := congrArg List.toByteArray h
  rw [String.utf8Encode_toList, String.utf8Encode_toList] at hbytes
  rw [String.toByteArray_inj.mp hbytes]

/-! ## Cutting at ordinary units -/

theorem wellFormed_iff (text : JsString) :
    WellFormed text ↔ ∃ chars : List Char, chars.flatMap charUnits = text := by
  constructor
  · rintro ⟨literal, rfl⟩
    exact ⟨literal.toList, rfl⟩
  · rintro ⟨chars, rfl⟩
    exact ⟨String.ofList chars, by rw [js_eq, String.toList_ofList]⟩

/-- The units of a character are one ordinary unit, or a pair of surrogates. -/
theorem charUnits_cases (char : Char) :
    (∃ unit, Ordinary unit ∧ charUnits char = [unit]) ∨
      ∃ high low, ¬Ordinary high ∧ ¬Ordinary low ∧ charUnits char = [high, low] := by
  have hvalid : char.toNat < 0xD800 ∨ 0xDFFF < char.toNat ∧ char.toNat < 0x110000 := char.valid
  rw [charUnits]
  split
  case isTrue hsmall => exact Or.inl ⟨_, ordinary_ofNat (by omega), rfl⟩
  case isFalse hlarge =>
    refine Or.inr ⟨_, _, fun hhigh ↦ ?_, fun hlow ↦ ?_, rfl⟩
    · have hnot := hhigh.1
      rw [(isHighSurrogate_iff _).mpr (by rw [toNat_unit (by omega)]; omega)] at hnot
      exact absurd hnot (by decide)
    · have hnot := hlow.2
      rw [(isLowSurrogate_iff _).mpr (by rw [toNat_unit (by omega)]; omega)] at hnot
      exact absurd hnot (by decide)

theorem WellFormed.of_cons {unit : CodeUnit} {rest : JsString} (hunit : Ordinary unit)
    (h : WellFormed (unit :: rest)) : WellFormed rest := by
  rw [wellFormed_iff] at h ⊢
  obtain ⟨chars, hchars⟩ := h
  cases chars with
  | nil => exact absurd hchars (by simp)
  | cons char chars =>
    rw [List.flatMap_cons] at hchars
    rcases charUnits_cases char with ⟨own, -, hown⟩ | ⟨high, low, hhigh, -, hown⟩
    · rw [hown] at hchars
      exact ⟨chars, (List.cons.inj hchars).2⟩
    · rw [hown] at hchars
      rw [← (List.cons.inj hchars).1] at hunit
      exact absurd hunit hhigh

theorem WellFormed.of_append {front rest : JsString} (hfront : ∀ unit ∈ front, Ordinary unit)
    (h : WellFormed (front ++ rest)) : WellFormed rest := by
  induction front with
  | nil => exact h
  | cons unit front ih =>
    obtain ⟨hunit, hothers⟩ := List.forall_mem_cons.mp hfront
    exact ih hothers (h.of_cons hunit)

theorem WellFormed.of_concat {unit : CodeUnit} {front : JsString} (hunit : Ordinary unit)
    (h : WellFormed (front ++ [unit])) : WellFormed front := by
  rw [wellFormed_iff] at h ⊢
  obtain ⟨chars, hchars⟩ := h
  cases chars using List.reverseRecOn with
  | nil => exact absurd hchars (by simp)
  | append_singleton chars char =>
    rw [List.flatMap_append, List.flatMap_singleton] at hchars
    rcases charUnits_cases char with ⟨own, -, hown⟩ | ⟨high, low, -, hlow, hown⟩
    · rw [hown] at hchars
      exact ⟨chars, (List.append_inj' hchars rfl).1⟩
    · have hlast : (chars.flatMap charUnits ++ [high]) ++ [low] = front ++ [unit] := by
        rw [← hchars, hown, List.append_assoc]
        rfl
      have hunits := List.cons.inj (List.append_inj' hlast rfl).2
      rw [← hunits.1] at hunit
      exact absurd hunit hlow

theorem ordinary_of_isSpace {unit : CodeUnit} (h : isSpace unit) : Ordinary unit := by
  simp only [isSpace, Bool.or_eq_true, Bool.and_eq_true, decide_eq_true_eq, beq_iff_eq,
    UInt16.le_iff_toNat_le, ← UInt16.toNat_inj, UInt16.reduceToNat] at h
  constructor
  · rw [Bool.eq_false_iff, Ne, isHighSurrogate_iff]
    omega
  · rw [Bool.eq_false_iff, Ne, isLowSurrogate_iff]
    omega

theorem WellFormed.trim {text : JsString} (h : WellFormed text) : WellFormed (JsString.trim text) := by
  have hstart : WellFormed (JsString.trimStart text) := by
    rw [trimStart]
    induction text with
    | nil => exact h
    | cons unit rest ih =>
      rw [List.dropWhile_cons]
      split
      case isTrue hspace => exact ih (h.of_cons (ordinary_of_isSpace hspace))
      case isFalse hother => exact h
  rw [JsString.trim, trimEnd]
  generalize JsString.trimStart text = front at hstart
  induction front using List.reverseRecOn with
  | nil => exact hstart
  | append_singleton front unit ih =>
    rw [List.rdropWhile_concat]
    split
    case isTrue hspace => exact ih (hstart.of_concat (ordinary_of_isSpace hspace))
    case isFalse hother => exact hstart

end JsString

end Foundations
