import Cordyceps.Foundations.JsString
import Mathlib.Algebra.Order.Ring.Unbundled.Rat

/-!
# JSON values and `JSON.parse`

The value type, the text grammar read by `JSON.parse` and the member access
`value.key` of an ECMAScript program that received such a value. Numbers are
kept exactly, so a reader sees the decimal value and not its rounding.
-/

namespace Foundations

/-- The values `JSON.parse` can return. Object members keep their first position. -/
inductive Json
  | null
  | bool (value : Bool)
  | num (value : ℚ)
  | str (value : JsString)
  | arr (elements : List Json)
  | obj (members : List (JsString × Json))
  deriving Repr

namespace Json

mutual

/-- Decide equality of two values by their constructors. -/
def decideEq : (first second : Json) → Decidable (first = second)
  | .null, .null => isTrue rfl
  | .bool first, .bool second => decidable_of_iff (first = second) (by simp)
  | .num first, .num second => decidable_of_iff (first = second) (by simp)
  | .str first, .str second => decidable_of_iff (first = second) (by simp)
  | .arr first, .arr second =>
    have := decideEqElements first second
    decidable_of_iff (first = second) (by simp)
  | .obj first, .obj second =>
    have := decideEqMembers first second
    decidable_of_iff (first = second) (by simp)
  | .null, .bool _ | .null, .num _ | .null, .str _ | .null, .arr _ | .null, .obj _
  | .bool _, .null | .bool _, .num _ | .bool _, .str _ | .bool _, .arr _ | .bool _, .obj _
  | .num _, .null | .num _, .bool _ | .num _, .str _ | .num _, .arr _ | .num _, .obj _
  | .str _, .null | .str _, .bool _ | .str _, .num _ | .str _, .arr _ | .str _, .obj _
  | .arr _, .null | .arr _, .bool _ | .arr _, .num _ | .arr _, .str _ | .arr _, .obj _
  | .obj _, .null | .obj _, .bool _ | .obj _, .num _ | .obj _, .str _ | .obj _, .arr _ =>
    isFalse (by simp)

def decideEqElements : (first second : List Json) → Decidable (first = second)
  | [], [] => isTrue rfl
  | [], _ :: _ | _ :: _, [] => isFalse (by simp)
  | value :: rest, value' :: rest' =>
    have := decideEq value value'
    have := decideEqElements rest rest'
    decidable_of_iff (value = value' ∧ rest = rest') (by simp)

def decideEqMembers : (first second : List (JsString × Json)) → Decidable (first = second)
  | [], [] => isTrue rfl
  | [], _ :: _ | _ :: _, [] => isFalse (by simp)
  | (key, value) :: rest, (key', value') :: rest' =>
    have := decideEq value value'
    have := decideEqMembers rest rest'
    decidable_of_iff ((key = key' ∧ value = value') ∧ rest = rest') (by simp)

end

instance : DecidableEq Json := decideEq

/-! ## Member access and coercions -/

/-- Read a key of a member list; every key occurs at most once in a parsed object. -/
def lookup (key : JsString) : List (JsString × Json) → Option Json
  | [] => none
  | (name, value) :: rest => if name = key then some value else lookup key rest

/-- Write a key: the value is replaced in place, a new key goes to the end. -/
def insert (key : JsString) (value : Json) : List (JsString × Json) → List (JsString × Json)
  | [] => [(key, value)]
  | (name, old) :: rest =>
    if name = key then (name, value) :: rest else (name, old) :: insert key value rest

/-- `value.key` on a value that is not `null`; `undefined` is `none`. Strings and arrays have
no own property under the event keys the programs read. -/
def field (key : JsString) : Json → Option Json
  | .obj members => lookup key members
  | _ => none

/-- ECMAScript `ToBoolean`. -/
def truthy : Json → Bool
  | .null => false
  | .bool value => value
  | .num value => value != 0
  | .str value => !value.isEmpty
  | .arr _ | .obj _ => true

/-- The value if it is present and truthy: the test `if (value)`. -/
def ifTruthy : Option Json → Option Json
  | some value => if value.truthy then some value else none
  | none => none

/-- `value ?? fallback`. -/
def orElse (fallback : Json) : Option Json → Json
  | none | some .null => fallback
  | some value => value

/-- The decimal digits of a natural number. -/
def decimal (value : ℕ) : JsString :=
  (Nat.toDigits 10 value).map fun digit ↦ UInt16.ofNat digit.toNat

/-- Write a number as `coefficient / 10 ^ shift` with the least shift, for decimal fractions of at
most `bound` places. -/
def decimalShift (value : ℚ) : ℕ → ℤ × ℕ
  | 0 => (value.floor, 0)
  | bound + 1 =>
    if value.den = 1 then (value.num, 0)
    else
      let (coefficient, shift) := decimalShift (value * 10) bound
      (coefficient, shift + 1)

/-- Drop trailing zeros of a coefficient: the remaining digits and how many were dropped. -/
def stripZeros (value : ℕ) : ℕ → ℕ × ℕ
  | 0 => (value, 0)
  | bound + 1 =>
    if value ≠ 0 ∧ value % 10 = 0 then
      let (digits, dropped) := stripZeros (value / 10) bound
      (digits, dropped + 1)
    else (value, 0)

/-- `Number::toString` on an exact decimal: plain digits between `1e-7` and `1e21`, otherwise
exponent notation. -/
def numberText (value : ℚ) : JsString :=
  if value = 0 then js "0"
  else
    let (coefficient, shift) := decimalShift |value| 400
    let (digits, dropped) := stripZeros coefficient.natAbs 400
    let text := decimal digits
    let length : ℤ := text.length
    -- The decimal point stands after `point` digits of `text`.
    let point : ℤ := length + dropped - shift
    let unsigned :=
      if length ≤ point ∧ point ≤ 21 then
        text ++ List.replicate (point - length).toNat 0x30
      else if 0 < point ∧ point ≤ 21 then
        text.take point.toNat ++ js "." ++ text.drop point.toNat
      else if -6 < point ∧ point ≤ 0 then
        js "0." ++ List.replicate (-point).toNat 0x30 ++ text
      else
        let exponent := (if 0 < point then js "e+" else js "e-") ++ decimal (point - 1).natAbs
        if text.length = 1 then text ++ exponent
        else text.take 1 ++ js "." ++ text.drop 1 ++ exponent
    if value < 0 then js "-" ++ unsigned else unsigned

def isNull : Json → Bool
  | .null => true
  | _ => false

mutual

/-- ECMAScript `ToString`, as string concatenation applies it to a parsed value. -/
def toText : Json → JsString
  | .null => js "null"
  | .bool value => if value then js "true" else js "false"
  | .num value => numberText value
  | .str value => value
  | .arr elements => joinElements elements
  | .obj _ => js "[object Object]"

/-- `Array.prototype.join`: elements that are `null` are empty. -/
def joinElements : List Json → JsString
  | [] => []
  | value :: rest =>
    let text := if value.isNull then [] else toText value
    if rest.isEmpty then text else text ++ js "," ++ joinElements rest

end

mutual

/-- Whether `ToString` returns: it throws on an object with a member `toString`, which is no
function, as nothing else makes a primitive value of the object. -/
def hasText : Json → Bool
  | .obj members => (lookup (js "toString") members).isNone
  | .arr elements => allHaveText elements
  | .null | .bool _ | .num _ | .str _ => true

def allHaveText : List Json → Bool
  | [] => true
  | value :: rest => hasText value && allHaveText rest

end

/-- ECMAScript `ToNumber` on the primitive values that are not strings. -/
def toNumber : Json → Option ℚ
  | .null => some 0
  | .bool value => some (if value then 1 else 0)
  | .num value => some value
  | .str _ | .arr _ | .obj _ => none

/-- ECMAScript `+`: a sum of numbers, or a concatenation when an operand is text. `none` if it
throws, because an operand has no text. -/
def add (first second : Json) : Option Json :=
  match toNumber first, toNumber second with
  | some first, some second => some (.num (first + second))
  | _, _ =>
    if first.hasText && second.hasText then some (.str (toText first ++ toText second)) else none

/-- `text + value`, unless it throws. -/
def appendTo (text : JsString) (value : Json) : Option JsString :=
  if value.hasText then some (text ++ value.toText) else none

theorem appendTo_isSome_iff (text : JsString) (value : Json) :
    (value.appendTo text).isSome ↔ value.hasText = true := by
  unfold appendTo
  split <;> simp [*]

theorem add_isSome_iff (first second : Json) :
    (add first second).isSome ↔ first.hasText = true ∧ second.hasText = true := by
  unfold add
  split
  · rename_i hfirst hsecond
    have htext : ∀ value : Json, (toNumber value).isSome → value.hasText = true := by
      intro value hvalue
      cases value with
      | str _ | arr _ | obj _ => cases hvalue
      | _ => rfl
    simp [htext first (by simp [hfirst]), htext second (by simp [hsecond])]
  · rw [← Bool.and_eq_true]
    split <;> simp [*]

@[simp]
theorem toText_str (value : JsString) : (str value).toText = value := by
  rw [toText]

/-! ## `JSON.parse` -/

/-- JSON white space: space, tab, line feed, carriage return. -/
def skipSpace (text : JsString) : JsString :=
  text.dropWhile fun unit ↦ unit == 0x20 || unit == 0x09 || unit == 0x0A || unit == 0x0D

open CodeUnit (isDigit)

def hexDigit (unit : CodeUnit) : Option CodeUnit :=
  if isDigit unit then some (unit - 0x30)
  else if 0x41 ≤ unit && unit ≤ 0x46 then some (unit - 0x37)
  else if 0x61 ≤ unit && unit ≤ 0x66 then some (unit - 0x57)
  else none

/-- The single-unit escapes of a JSON string. -/
def escapeUnit (unit : CodeUnit) : Option CodeUnit :=
  if unit == 0x22 || unit == 0x5C || unit == 0x2F then some unit
  else if unit == 0x62 then some 0x08
  else if unit == 0x66 then some 0x0C
  else if unit == 0x6E then some 0x0A
  else if unit == 0x72 then some 0x0D
  else if unit == 0x74 then some 0x09
  else none

/-- Read the units of a string up to its closing quote. -/
def parseUnits : JsString → Option (JsString × JsString)
  | [] => none
  | unit :: rest =>
    if unit == 0x22 then some ([], rest)
    else if unit < 0x20 then none
    else if unit == 0x5C then
      match rest with
      | [] => none
      | escape :: rest =>
        if escape == 0x75 then
          match rest with
          | first :: second :: third :: fourth :: rest => do
            let code := (← hexDigit first) * 0x1000 + (← hexDigit second) * 0x100 +
              (← hexDigit third) * 0x10 + (← hexDigit fourth)
            let (tail, rest) ← parseUnits rest
            pure (code :: tail, rest)
          | _ => none
        else do
          let code ← escapeUnit escape
          let (tail, rest) ← parseUnits rest
          pure (code :: tail, rest)
    else do
      let (tail, rest) ← parseUnits rest
      pure (unit :: tail, rest)

/-- The natural number denoted by decimal digits. -/
def digitsValue (digits : JsString) : ℕ :=
  digits.foldl (fun value unit ↦ 10 * value + (unit.toNat - 0x30)) 0

/-- The optional exponent part; an exponent mark without digits is an error. -/
def parseExponent : JsString → Option (ℤ × JsString)
  | [] => some (0, [])
  | unit :: rest =>
    if unit == 0x65 || unit == 0x45 then
      let (sign, body) : ℤ × JsString := match rest with
        | [] => (1, [])
        | mark :: tail =>
          if mark == 0x2D then (-1, tail) else if mark == 0x2B then (1, tail) else (1, rest)
      let digits := body.takeWhile isDigit
      if digits.isEmpty then none else some (sign * digitsValue digits, body.dropWhile isDigit)
    else some (0, unit :: rest)

/-- The optional fraction part; a point without digits is an error. -/
def parseFraction : JsString → Option (JsString × JsString)
  | [] => some ([], [])
  | unit :: rest =>
    if unit == 0x2E then
      let digits := rest.takeWhile isDigit
      if digits.isEmpty then none else some (digits, rest.dropWhile isDigit)
    else some ([], unit :: rest)

/-- A number: an optional minus, an integer without leading zeros, fraction and exponent. -/
def parseNumber (text : JsString) : Option (ℚ × JsString) := do
  let (sign, body) : ℚ × JsString := match text with
    | [] => (1, [])
    | mark :: tail => if mark == 0x2D then (-1, tail) else (1, text)
  let digits := body.takeWhile isDigit
  if digits.isEmpty || (digits.head? == some 0x30 && 1 < digits.length) then none
  let (fraction, rest) ← parseFraction (body.dropWhile isDigit)
  let (exponent, rest) ← parseExponent rest
  let scaled : ℚ := digitsValue (digits ++ fraction)
  pure (sign * scaled * (10 : ℚ) ^ (exponent - fraction.length), rest)

/-- Read a keyword of the grammar. -/
def parseKeyword (keyword : JsString) (value : Json) (text : JsString) :
    Option (Json × JsString) :=
  if keyword.isPrefixOf text then some (value, text.drop keyword.length) else none

mutual

/-- Read one value. The depth bound is the number of units that may still be consumed. -/
def parseValue : ℕ → JsString → Option (Json × JsString)
  | 0, _ => none
  | bound + 1, text =>
    match skipSpace text with
    | [] => none
    | unit :: rest =>
      if unit == 0x22 then (parseUnits rest).map fun (value, rest) ↦ (.str value, rest)
      else if unit == 0x5B then
        match skipSpace rest with
        | [] => none
        | mark :: tail =>
          if mark == 0x5D then some (.arr [], tail)
          else (parseElements bound rest).map fun (elements, rest) ↦ (.arr elements, rest)
      else if unit == 0x7B then
        match skipSpace rest with
        | [] => none
        | mark :: tail =>
          if mark == 0x7D then some (.obj [], tail)
          else (parseMembers bound [] rest).map fun (members, rest) ↦ (.obj members, rest)
      else if unit == 0x74 then parseKeyword (js "true") (.bool true) (unit :: rest)
      else if unit == 0x66 then parseKeyword (js "false") (.bool false) (unit :: rest)
      else if unit == 0x6E then parseKeyword (js "null") .null (unit :: rest)
      else (parseNumber (unit :: rest)).map fun (value, rest) ↦ (.num value, rest)

/-- Elements of an array, up to and including the closing bracket. -/
def parseElements : ℕ → JsString → Option (List Json × JsString)
  | 0, _ => none
  | bound + 1, text => do
    let (value, rest) ← parseValue bound text
    match skipSpace rest with
    | [] => none
    | mark :: tail =>
      if mark == 0x2C then do
        let (values, rest) ← parseElements bound tail
        pure (value :: values, rest)
      else if mark == 0x5D then some ([value], tail)
      else none

/-- Members of an object, up to and including the closing brace; a repeated key keeps its
place and takes the later value. -/
def parseMembers : ℕ → List (JsString × Json) → JsString → Option (List (JsString × Json) × JsString)
  | 0, _, _ => none
  | bound + 1, members, text =>
    match skipSpace text with
    | [] => none
    | quote :: rest =>
      if quote == 0x22 then do
        let (key, rest) ← parseUnits rest
        match skipSpace rest with
        | [] => none
        | colon :: rest =>
          if colon == 0x3A then do
            let (value, rest) ← parseValue bound rest
            let members := insert key value members
            match skipSpace rest with
            | [] => none
            | mark :: tail =>
              if mark == 0x2C then parseMembers bound members tail
              else if mark == 0x7D then some (members, tail)
              else none
          else none
      else none

end

/-- `JSON.parse`; `none` stands for the `SyntaxError`. Every nested call consumes a unit of the
text before it starts another one, so the bound is never the reason for a failure. -/
def parse (text : JsString) : Option Json := do
  let (value, rest) ← parseValue (2 * text.length + 1) text
  if (skipSpace rest).isEmpty then some value else none

/-! ## `JSON.stringify` -/

/-- One lower-case hexadecimal digit. -/
def hexUnit (value : ℕ) : CodeUnit := UInt16.ofNat (if value < 10 then 0x30 + value else 0x57 + value)

/-- A backslash, `u` and four hexadecimal digits. -/
def escapeCode (unit : CodeUnit) : JsString :=
  let code := unit.toNat
  [0x5C, 0x75, hexUnit (code / 0x1000), hexUnit (code / 0x100 % 0x10), hexUnit (code / 0x10 % 0x10),
    hexUnit (code % 0x10)]

def isHighSurrogate (unit : CodeUnit) : Bool := 0xD800 ≤ unit && unit ≤ 0xDBFF

def isLowSurrogate (unit : CodeUnit) : Bool := 0xDC00 ≤ unit && unit ≤ 0xDFFF

/-- The content of a quoted string: control units and lone surrogates are escaped. -/
def quoteUnits : JsString → JsString
  | [] => []
  | unit :: rest =>
    if unit == 0x22 || unit == 0x5C then 0x5C :: unit :: quoteUnits rest
    else if unit == 0x08 then 0x5C :: 0x62 :: quoteUnits rest
    else if unit == 0x0C then 0x5C :: 0x66 :: quoteUnits rest
    else if unit == 0x0A then 0x5C :: 0x6E :: quoteUnits rest
    else if unit == 0x0D then 0x5C :: 0x72 :: quoteUnits rest
    else if unit == 0x09 then 0x5C :: 0x74 :: quoteUnits rest
    else if unit < 0x20 || isLowSurrogate unit then escapeCode unit ++ quoteUnits rest
    else if isHighSurrogate unit then
      match rest with
      | [] => escapeCode unit
      | low :: tail =>
        if isLowSurrogate low then unit :: low :: quoteUnits tail
        else escapeCode unit ++ quoteUnits (low :: tail)
    else unit :: quoteUnits rest

def quote (text : JsString) : JsString := js "\"" ++ quoteUnits text ++ js "\""

mutual

/-- `JSON.stringify` without indentation. -/
def stringify : Json → JsString
  | .null => js "null"
  | .bool value => if value then js "true" else js "false"
  | .num value => numberText value
  | .str value => quote value
  | .arr elements => js "[" ++ stringifyElements elements ++ js "]"
  | .obj members => js "\x7b" ++ stringifyMembers members ++ js "\x7d"

def stringifyElements : List Json → JsString
  | [] => []
  | value :: rest =>
    let text := stringify value
    if rest.isEmpty then text else text ++ js "," ++ stringifyElements rest

def stringifyMembers : List (JsString × Json) → JsString
  | [] => []
  | (key, value) :: rest =>
    let text := quote key ++ js ":" ++ stringify value
    if rest.isEmpty then text else text ++ js "," ++ stringifyMembers rest

end

/-- A new line, indented by two spaces for each bracket around it. -/
def lineBreak (depth : ℕ) : JsString := 0x0A :: List.replicate (2 * depth) 0x20

mutual

/-- `JSON.stringify(value, null, 2)`, for a value inside of `depth` brackets. -/
def stringifyIndented (depth : ℕ) : Json → JsString
  | .arr elements =>
    if elements.isEmpty then js "[]"
    else js "[" ++ lineBreak (depth + 1) ++ indentElements (depth + 1) elements ++ lineBreak depth ++
      js "]"
  | .obj members =>
    if members.isEmpty then js "\x7b\x7d"
    else js "\x7b" ++ lineBreak (depth + 1) ++ indentMembers (depth + 1) members ++
      lineBreak depth ++ js "\x7d"
  | .null => stringify .null
  | .bool value => stringify (.bool value)
  | .num value => stringify (.num value)
  | .str value => stringify (.str value)

def indentElements (depth : ℕ) : List Json → JsString
  | [] => []
  | value :: rest =>
    let text := stringifyIndented depth value
    if rest.isEmpty then text
    else text ++ js "," ++ lineBreak depth ++ indentElements depth rest

def indentMembers (depth : ℕ) : List (JsString × Json) → JsString
  | [] => []
  | (key, value) :: rest =>
    let text := quote key ++ js ": " ++ stringifyIndented depth value
    if rest.isEmpty then text
    else text ++ js "," ++ lineBreak depth ++ indentMembers depth rest

end

end Json

end Foundations
