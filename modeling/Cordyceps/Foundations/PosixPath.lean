import Cordyceps.Foundations.JsString
import Cordyceps.Foundations.LineGroups

/-!
# POSIX paths

`normalize` and `join` of `node:path`, which work on the text alone. A name is a segment that they
leave as it is.
-/

namespace Foundations.PosixPath

open Foundations.LineGroups

def slash : CodeUnit := 0x2F

/-- The next segment of a path, after those that are kept. -/
def pushSegment (allowAboveRoot : Bool) (kept : List JsString) (segment : JsString) : List JsString :=
  if segment = [] ∨ segment = js "." then kept
  else if segment = js ".." then
    if kept ≠ [] ∧ kept.getLast? ≠ some (js "..") then kept.dropLast
    else if allowAboveRoot then kept ++ [segment] else kept
  else kept ++ [segment]

/-- The segments that are left of a path. -/
def segments (path : JsString) : List JsString :=
  (path.splitOn slash).foldl (pushSegment (path.head? ≠ some slash)) []

def normalize (path : JsString) : JsString :=
  if path = [] then js "."
  else if path.head? = some slash then
    if segments path = [] then [slash]
    else slash :: LineGroups.join slash (segments path) ++
      if path.getLast? = some slash then [slash] else []
  else if segments path = [] then
    if path.getLast? = some slash then js "./" else js "."
  else LineGroups.join slash (segments path) ++ if path.getLast? = some slash then [slash] else []

/-- `path.join`. -/
def join (paths : List JsString) : JsString :=
  if paths.filter (· ≠ []) = [] then js "." else
    normalize (LineGroups.join slash (paths.filter (· ≠ [])))

end Foundations.PosixPath
