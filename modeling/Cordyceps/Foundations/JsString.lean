import Mathlib.Data.List.Infix
import Mathlib.Data.List.DropRight

/-!
# Strings as sequences of UTF-16 code units

ECMAScript strings are arbitrary sequences of 16-bit code units; lone
surrogates are legal. Lengths, slices and regular expressions count code units,
so a string is modelled by the list of its units and nothing is normalized.
`js` reads a literal into its UTF-16 encoding.
-/

namespace Foundations

/-- One UTF-16 code unit. -/
abbrev CodeUnit := UInt16

/-- An ASCII digit: `\d`. -/
def CodeUnit.isDigit (unit : CodeUnit) : Bool := 0x30 ≤ unit && unit ≤ 0x39

/-- An ECMAScript string value. -/
abbrev JsString := List CodeUnit

instance : LawfulBEq JsString := inferInstanceAs (LawfulBEq (List CodeUnit))

/-- The UTF-16 encoding of a source literal. -/
def js (literal : String) : JsString :=
  literal.toList.flatMap fun char ↦
    if char.toNat < 0x10000 then [UInt16.ofNat char.toNat]
    else [UInt16.ofNat (0xD800 + (char.toNat - 0x10000) / 0x400),
      UInt16.ofNat (0xDC00 + (char.toNat - 0x10000) % 0x400)]

def newline : CodeUnit := 0x0A

namespace JsString

/-- WhiteSpace and LineTerminator units: what `trim` removes and `\s` matches. -/
def isSpace (unit : CodeUnit) : Bool :=
  (0x09 ≤ unit && unit ≤ 0x0D) || unit == 0x20 || unit == 0xA0 || unit == 0x1680 ||
    (0x2000 ≤ unit && unit ≤ 0x200A) || unit == 0x2028 || unit == 0x2029 ||
    unit == 0x202F || unit == 0x205F || unit == 0x3000 || unit == 0xFEFF

/-- `String.prototype.trimStart`. -/
def trimStart (text : JsString) : JsString := text.dropWhile isSpace

/-- `String.prototype.trimEnd`, also `replace(/\s+$/, "")`. -/
def trimEnd (text : JsString) : JsString := text.rdropWhile isSpace

/-- `String.prototype.trim`. -/
def trim (text : JsString) : JsString := trimEnd (trimStart text)

/-- `String.prototype.startsWith`. -/
def startsWith (text pattern : JsString) : Bool := pattern.isPrefixOf text

/-- `String.prototype.endsWith`. -/
def endsWith (text pattern : JsString) : Bool := pattern.isSuffixOf text

/-- `String.prototype.includes`. -/
def includes (text pattern : JsString) : Bool := text.tails.any pattern.isPrefixOf

/-- `slice(-count)`: the last `count` units. -/
def takeEnd (count : ℕ) (text : JsString) : JsString := text.drop (text.length - count)

/-- `toLowerCase` on ASCII letters; the model applies it to matches of ASCII patterns only. -/
def toLowerCase (text : JsString) : JsString :=
  text.map fun unit ↦ if 0x41 ≤ unit && unit ≤ 0x5A then unit + 0x20 else unit

@[simp]
theorem trim_nil : trim [] = [] := rfl

end JsString

end Foundations
