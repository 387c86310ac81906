import Cordyceps.Foundations.RegexRun

/-!
# The findings in a response

`extractFindings` of the council plugin reads the JSON array out of a model's response: from
the first code fence that holds an array, or from the last line that is one, or from
anything bracketed. `JSON.parse` is the partial function `parse`; what it is applied to here
starts with a bracket, so a parsed value is never `null`.
-/

namespace Cordyceps.Council

open Foundations

def openBracket : CodeUnit := 0x5B

def closeBracket : CodeUnit := 0x5D

def anyUnit : Regex := .repeated false fun _ ↦ true

def optionalSpaces : Regex := .repeated true JsString.isSpace

/-- ```` ```(?:json)?\s*(\[[\s\S]*?\])\s*``` ````. -/
def fencePattern : Regex :=
  Regex.cat [Regex.literal "```", Regex.optional (Regex.literal "json"), optionalSpaces,
    .group 1 (Regex.cat [.single (· == openBracket), anyUnit, .single (· == closeBracket)]),
    optionalSpaces, Regex.literal "```"]

/-- `\[\s*(?:\{[\s\S]*?\}\s*,?\s*)*\]`, on texts of up to `bound` units. -/
def bracketPattern (bound : ℕ) : Regex :=
  Regex.cat [.single (· == openBracket), optionalSpaces,
    Regex.many (Regex.cat [Regex.literal "\x7b", anyUnit, Regex.literal "\x7d", optionalSpaces,
      Regex.optional (Regex.literal ","), optionalSpaces]) bound,
    .single (· == closeBracket)]

section

variable {Findings : Type*} (parse : JsString → Option Findings)

/-- The array in a ```` ```json ```` fence. -/
def parseFence (text : JsString) : Option Findings :=
  (fencePattern.exec text).bind fun fenceMatch ↦ parse (fenceMatch.text 1)

/-- The array that a line is. -/
def parseLine (line : JsString) : Option Findings :=
  let trimmed := line.trim
  if trimmed.startsWith [openBracket] && trimmed.endsWith [closeBracket] then parse trimmed
  else none

/-- The last top-level array in the text. -/
def parseLines (text : JsString) : Option Findings :=
  (text.splitOn newline).reverse.findSome? (parseLine parse)

/-- Anything bracketed. -/
def parseBracketed (text : JsString) : Option Findings :=
  ((bracketPattern text.length).exec text).bind fun bracketMatch ↦ parse bracketMatch.matched

/-- `none` is the source's `null`. -/
def extractFindings (text : JsString) : Option Findings :=
  if text.isEmpty then none
  else (parseFence parse text).or ((parseLines parse text).or (parseBracketed parse text))

end

end Cordyceps.Council
