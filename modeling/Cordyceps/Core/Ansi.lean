import Cordyceps.Foundations.Json
import Cordyceps.Foundations.Regex

/-!
# Escape sequences

`core/ansi.ts`: terminal output as plain text. Every flavour removes the same
kinds of escape sequences; the one for parsers first turns cursor movements to
the right into spaces.
-/

namespace Cordyceps.Core

open Foundations Regex

namespace Ansi

/-- The escape character. -/
def esc : Regex := .single (· == 0x1B)

/-- `/\x1b\[[0-9;?<>=!]*[a-zA-Z~]/g` -/
def csi : Regex :=
  cat [esc, literal "[", .repeated true fun unit ↦ CodeUnit.isDigit unit || CodeUnit.among ";?<>=!" unit,
    .single fun unit ↦ CodeUnit.isLetter unit || CodeUnit.among "~" unit]

/-- `/\x1b\][^\x07]*(?:\x07|\x1b\\)/g` -/
def osc : Regex :=
  cat [esc, literal "]", .repeated true (· != 0x07),
    anyOf [.single (· == 0x07), cat [esc, .single (· == 0x5C)]]]

/-- `/\x1b[()][A-Z0-9]/g` -/
def charset : Regex :=
  cat [esc, .single (CodeUnit.among "()"),
    .single fun unit ↦ (0x41 ≤ unit && unit ≤ 0x5A) || CodeUnit.isDigit unit]

/-- `/\x1b[=>]/g` -/
def keypad : Regex := cat [esc, .single (CodeUnit.among "=>")]

/-- `/\x1b[78cDEHMNOZ]/g` -/
def singleEsc : Regex := cat [esc, .single (CodeUnit.among "78cDEHMNOZ")]

/-- `/\x1b\[(\d*)C/g` -/
def cursorForward : Regex :=
  cat [esc, literal "[", .group 1 (.repeated true CodeUnit.isDigit), literal "C"]

/-- `[\x00-\x08\x0b\x0c\x0e-\x1f\x7f]`: control characters but tab, newline and return. -/
def isControl (unit : CodeUnit) : Bool :=
  unit ≤ 0x08 || unit == 0x0B || unit == 0x0C || (0x0E ≤ unit && unit ≤ 0x1F) || unit == 0x7F

def remove (pattern : Regex) (text : JsString) : JsString := pattern.replaceAll (fun _ ↦ []) text

/-- `Math.max(1, Math.min(parseInt(n || "1", 10) || 1, 120))`. -/
def forwardCount (count : JsString) : ℕ :=
  let value := if count.isEmpty then 1 else Json.digitsValue count
  max 1 (min (if value = 0 then 1 else value) 120)

/-- The escape sequences are removed in this order. -/
def removeEscapes (text : JsString) : JsString :=
  remove singleEsc (remove keypad (remove charset (remove csi (remove osc text))))

end Ansi

open Ansi

/-- `ansiToText`. -/
def ansiToText (text : JsString) : JsString :=
  let spaced := cursorForward.replaceAll
    (fun found ↦ List.replicate (forwardCount (found.text 1)) 0x20) text
  JsString.trim (remove (.single isControl) (removeEscapes spaced))

/-- `stripAnsi`. -/
def stripAnsi (text : JsString) : JsString :=
  JsString.trim (remove (.single isControl) (removeEscapes text))

example : ansiToText (js "Opus\x1b[1C4.7\x1b[0m\x07 ") = js "Opus 4.7" := by decide +kernel

end Cordyceps.Core
