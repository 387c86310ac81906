import Cordyceps.Foundations.JsString

/-!
# ECMAScript regular expressions

The part of the pattern language that programs use on terminal output: classes
of code units, alternatives, capturing groups, anchors, and greedy or lazy
repetition of one class. A pattern yields all ways to match from a position in
the order in which a backtracking matcher tries them; the first one is the match.
-/

namespace Foundations

/-! ## Classes of code units -/

namespace CodeUnit

def isLetter (unit : CodeUnit) : Bool :=
  (0x41 ≤ unit && unit ≤ 0x5A) || (0x61 ≤ unit && unit ≤ 0x7A)

/-- `\w`. -/
def isWord (unit : CodeUnit) : Bool := isLetter unit || isDigit unit || unit == 0x5F

def isLineTerminator (unit : CodeUnit) : Bool :=
  unit == 0x0A || unit == 0x0D || unit == 0x2028 || unit == 0x2029

/-- `.` without the `s` flag. -/
def isDot (unit : CodeUnit) : Bool := !isLineTerminator unit

/-- Canonicalize of the `i` flag on ASCII; it never identifies an ASCII unit with another one. -/
def fold (unit : CodeUnit) : CodeUnit := if 0x61 ≤ unit && unit ≤ 0x7A then unit - 0x20 else unit

/-- One of the units of a literal: `[...]`. -/
def among (units : String) (unit : CodeUnit) : Bool := (js units).contains unit

/-- `[^...]`. -/
def notAmong (units : String) (unit : CodeUnit) : Bool := !among units unit

end CodeUnit

/-! ## Patterns -/

/-- `repeated` is `c*` or, lazily, `c*?` for a class `c`. The anchors carry the `m` flag. -/
inductive Regex
  | empty
  | single (accepts : CodeUnit → Bool)
  | seq (first second : Regex)
  | alt (first second : Regex)
  | repeated (greedy : Bool) (accepts : CodeUnit → Bool)
  | group (index : ℕ) (inner : Regex)
  | lineStart (multiline : Bool)
  | lineEnd (multiline : Bool)
  | wordBoundary

/-- A position in a text, and what the groups have captured on the way to it. `passed` holds the
units before the position, the nearest first. -/
structure Cursor where
  passed : JsString
  ahead : JsString
  captures : List (ℕ × JsString)

/-- A match of a pattern in a text. -/
structure Match where
  before : JsString
  matched : JsString
  after : JsString
  captures : List (ℕ × JsString)

namespace Match

/-- What a group captured last; `none` is `undefined`. -/
def capture (index : ℕ) (found : Match) : Option JsString :=
  (found.captures.find? fun entry ↦ entry.1 == index).map Prod.snd

/-- The text of a group that takes part in every match. -/
def text (index : ℕ) (found : Match) : JsString := (found.capture index).getD []

end Match

namespace Regex

/-- The ways to pass units of a class, as the positions reached: longest first when greedy. -/
def passes (greedy : Bool) (accepts : CodeUnit → Bool) :
    JsString → JsString → List (JsString × JsString)
  | passed, [] => [(passed, [])]
  | passed, unit :: ahead =>
    if accepts unit then
      if greedy then passes greedy accepts (unit :: passed) ahead ++ [(passed, unit :: ahead)]
      else (passed, unit :: ahead) :: passes greedy accepts (unit :: passed) ahead
    else [(passed, unit :: ahead)]

def atLineStart (multiline : Bool) (cursor : Cursor) : Bool :=
  match cursor.passed with
  | [] => true
  | unit :: _ => multiline && CodeUnit.isLineTerminator unit

def atLineEnd (multiline : Bool) (cursor : Cursor) : Bool :=
  match cursor.ahead with
  | [] => true
  | unit :: _ => multiline && CodeUnit.isLineTerminator unit

def startsWord (text : JsString) : Bool := (text.head?.map CodeUnit.isWord).getD false

def atWordBoundary (cursor : Cursor) : Bool :=
  startsWord cursor.passed != startsWord cursor.ahead

/-- All ways to match from a position, in the order of the matcher. -/
def results : Regex → Cursor → List Cursor
  | .empty, cursor => [cursor]
  | .single accepts, cursor =>
    match cursor.ahead with
    | [] => []
    | unit :: ahead =>
      if accepts unit then [{ cursor with passed := unit :: cursor.passed, ahead := ahead }] else []
  | .seq first second, cursor => (first.results cursor).flatMap second.results
  | .alt first second, cursor => first.results cursor ++ second.results cursor
  | .repeated greedy accepts, cursor =>
    (passes greedy accepts cursor.passed cursor.ahead).map fun (passed, ahead) ↦
      { cursor with passed := passed, ahead := ahead }
  | .group index inner, cursor =>
    (inner.results cursor).map fun reached ↦
      let consumed := reached.passed.take (reached.passed.length - cursor.passed.length)
      { reached with captures := (index, consumed.reverse) :: reached.captures }
  | .lineStart multiline, cursor => if atLineStart multiline cursor then [cursor] else []
  | .lineEnd multiline, cursor => if atLineEnd multiline cursor then [cursor] else []
  | .wordBoundary, cursor => if atWordBoundary cursor then [cursor] else []

/-- The match that starts at a position. -/
def matchAt (pattern : Regex) (passed ahead : JsString) : Option Match :=
  (pattern.results ⟨passed, ahead, []⟩).head?.map fun reached ↦
    { before := passed.reverse
      matched := (reached.passed.take (reached.passed.length - passed.length)).reverse
      after := reached.ahead
      captures := reached.captures }

/-- The first match at or after a position. -/
def execFrom (pattern : Regex) : JsString → JsString → Option Match
  | passed, [] => pattern.matchAt passed []
  | passed, unit :: ahead =>
    match pattern.matchAt passed (unit :: ahead) with
    | some found => some found
    | none => pattern.execFrom (unit :: passed) ahead

/-- `text.match(pattern)` without the `g` flag. -/
def exec (pattern : Regex) (text : JsString) : Option Match := pattern.execFrom [] text

/-- `pattern.test(text)`. -/
def test (pattern : Regex) (text : JsString) : Bool := (pattern.exec text).isSome

/-- `text.replace(pattern, replacement)` without the `g` flag. -/
def replaceFirst (pattern : Regex) (replacement text : JsString) : JsString :=
  match pattern.exec text with
  | some found => found.before ++ replacement ++ found.after
  | none => text

/-- `text.replace(pattern, replacement)` without the `g` flag, for a replacement with captures. -/
def replaceFirstBy (pattern : Regex) (replacement : Match → JsString) (text : JsString) :
    JsString :=
  match pattern.exec text with
  | some found => found.before ++ replacement found ++ found.after
  | none => text

/-- The rest of a global replacement. `skip` counts the units that the last match still covers; a
match of length 0 lets the unit after it pass. -/
def replaceFrom (pattern : Regex) (replacement : Match → JsString) :
    ℕ → JsString → JsString → JsString
  | _, passed, [] => ((pattern.matchAt passed []).map replacement).getD []
  | 0, passed, unit :: ahead =>
    match pattern.matchAt passed (unit :: ahead) with
    | none => unit :: pattern.replaceFrom replacement 0 (unit :: passed) ahead
    | some found =>
      match found.matched.length with
      | 0 => replacement found ++ unit :: pattern.replaceFrom replacement 0 (unit :: passed) ahead
      | skip + 1 => replacement found ++ pattern.replaceFrom replacement skip (unit :: passed) ahead
  | skip + 1, passed, unit :: ahead => pattern.replaceFrom replacement skip (unit :: passed) ahead

/-- `text.replace(pattern, replacement)` with the `g` flag. -/
def replaceAll (pattern : Regex) (replacement : Match → JsString) (text : JsString) : JsString :=
  pattern.replaceFrom replacement 0 [] text

/-! ## Building patterns -/

/-- Patterns one after the other. -/
def cat : List Regex → Regex
  | [] => .empty
  | [pattern] => pattern
  | pattern :: rest => .seq pattern (cat rest)

/-- Alternatives, the first one preferred. -/
def anyOf : List Regex → Regex
  | [] => .single fun _ ↦ false
  | [pattern] => pattern
  | pattern :: rest => .alt pattern (anyOf rest)

def literal (text : String) : Regex := cat ((js text).map fun unit ↦ .single (· == unit))

/-- A literal under the `i` flag. -/
def literalIgnoreCase (text : String) : Regex :=
  cat ((js text).map fun unit ↦ .single fun other ↦ CodeUnit.fold other == CodeUnit.fold unit)

/-- `r?`. -/
def optional (pattern : Regex) : Regex := .alt pattern .empty

/-- `c+`, lazily `c+?`. -/
def repeated1 (greedy : Bool) (accepts : CodeUnit → Bool) : Regex :=
  .seq (.single accepts) (.repeated greedy accepts)

/-- `(?:r)*` on texts of up to `bound` units, where every match of `r` consumes a unit. -/
def many (pattern : Regex) : ℕ → Regex
  | 0 => .empty
  | bound + 1 => optional (.seq pattern (many pattern bound))

/-- `\s+`. -/
def spaces : Regex := repeated1 true JsString.isSpace

/-- `\d+`. -/
def digits : Regex := repeated1 true CodeUnit.isDigit

-- a lazy repetition gives up units only as far as the rest of the pattern needs them
example : ((cat [.group 1 (repeated1 false CodeUnit.isDot), literal "b"]).exec (js "aabab")).map
    (Match.text 1) = some (js "aa") := by decide +kernel

end Regex

end Foundations
