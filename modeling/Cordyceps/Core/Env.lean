import Cordyceps.Foundations.Delimiters
import Cordyceps.Foundations.JsMap
import Cordyceps.Foundations.RegexRun

/-!
# The env-file parser

`parseEnvFile` of `core/env.ts`: a file is read line by line into a map, and later lines replace
what earlier ones wrote.
-/

namespace Cordyceps.Core

open Foundations Foundations.Delimiters

def doubleQuote : CodeUnit := 0x22

def singleQuote : CodeUnit := 0x27

def hashSign : CodeUnit := 0x23

/-- `[A-Za-z_]`. -/
def isKeyStart (unit : CodeUnit) : Bool := unit.isLetter || unit == 0x5F

/-- `[A-Za-z0-9_]`. -/
def isKeyUnit (unit : CodeUnit) : Bool := unit.isLetter || unit.isDigit || unit == 0x5F

/-- `LINE_RE`: `/^\s*(?:export\s+)?([A-Za-z_][A-Za-z0-9_]*)=(.*)$/`. -/
def linePattern : Regex :=
  Regex.cat [.lineStart false, .repeated true JsString.isSpace,
    Regex.optional (.seq (Regex.literal "export") Regex.spaces),
    .group 1 (.seq (.single isKeyStart) (.repeated true isKeyUnit)),
    .single (· == 0x3D),
    .group 2 (.repeated true CodeUnit.isDot), .lineEnd false]

/-- `raw.replace(/\r$/, "")`. -/
def dropReturn (raw : JsString) : JsString :=
  if raw.getLast? = some 0x0D then raw.dropLast else raw

/-- The contents of a value behind its opening quote, up to the next one or else to the end. -/
def unquote (quote : CodeUnit) (value : JsString) : JsString :=
  match indexOf [quote] (value.drop 1) with
  | some length => (value.drop 1).take length
  | none => value.drop 1

/-- An unquoted value: what is behind its first `" #"` is cut off, unless it starts with that. -/
def cutComment (value : JsString) : JsString :=
  match indexOf (js " #") value with
  | some hashIdx => if 0 < hashIdx then value.take hashIdx else value
  | none => value

/-- What `parseLine` makes of the text behind the `=`. -/
def readValue (value : JsString) : JsString :=
  if JsString.startsWith value [doubleQuote] && 1 < value.length then unquote doubleQuote value
  else if JsString.startsWith value [singleQuote] && 1 < value.length then unquote singleQuote value
  else JsString.trim (cutComment value)

/-- `parseLine`: the key and the value. -/
def parseLine (raw : JsString) : Option (JsString × JsString) :=
  let line := dropReturn raw
  if (JsString.trim line).isEmpty || JsString.startsWith (JsString.trim line) [hashSign] then none
  else (linePattern.exec line).map fun m ↦ (m.text 1, readValue (m.text 2))

/-- `out[key] = value`: the setter of `__proto__` ignores a string. -/
def assignOwn (out : JsMap JsString JsString) (key value : JsString) : JsMap JsString JsString :=
  if key = js "__proto__" then out else out.set key value

/-- The body of the loop over the lines. -/
def readLine (out : JsMap JsString JsString) (raw : JsString) : JsMap JsString JsString :=
  match parseLine raw with
  | some (key, value) => assignOwn out key value
  | none => out

def parseEnvFile (content : JsString) : JsMap JsString JsString :=
  (content.splitOn newline).foldl readLine .empty

end Cordyceps.Core
