import Cordyceps.Foundations.JsString
import Cordyceps.Foundations.LineGroups

/-!
# The council's chunker

`chunkByLines` of the council plugin: a source is cut into chunks of whole lines,
preferably behind a blank line, to stay within a limit of code units.
-/

namespace Cordyceps.Council

open Foundations Foundations.LineGroups

structure Chunk where
  text : JsString
  startLine : ℕ
  endLine : ℕ
  index : ℕ
  total : ℕ
  deriving DecidableEq, Repr

/-- A chunk before the chunks are counted. -/
structure Piece where
  text : JsString
  startLine : ℕ
  endLine : ℕ
  deriving DecidableEq, Repr

/-- The variables of the loop over the lines. `lastBlankLine` is the number of lines of `current`
up to its last blank one; the source has `-1` for `none`. -/
structure Chunking where
  chunks : List Piece
  current : List JsString
  currentBytes : ℕ
  startLine : ℕ
  lastBlankLine : Option ℕ
  deriving DecidableEq, Repr

/-- `line.trim() === ""`. -/
def isBlank (line : JsString) : Bool := (JsString.trim line).isEmpty

namespace Chunking

def start : Chunking := ⟨[], [], 0, 1, none⟩

/-- Close a chunk at line `i` of the source, counted from zero: behind the last blank line, with
the lines after it carried over, or behind the last line. -/
def cut (i : ℕ) (chunking : Chunking) : Chunking :=
  match chunking.lastBlankLine with
  | some cutAt =>
    { chunks := chunking.chunks ++
        [⟨join newline (chunking.current.take cutAt), chunking.startLine,
          chunking.startLine + cutAt - 1⟩]
      current := chunking.current.drop cutAt
      currentBytes := weight (chunking.current.drop cutAt)
      startLine := chunking.startLine + cutAt
      lastBlankLine := none }
  | none =>
    { chunks := chunking.chunks ++
        [⟨join newline chunking.current, chunking.startLine,
          chunking.startLine + chunking.current.length - 1⟩]
      current := []
      currentBytes := 0
      startLine := i + 1
      lastBlankLine := none }

def push (line : JsString) (chunking : Chunking) : Chunking :=
  { chunking with
    current := chunking.current ++ [line]
    currentBytes := chunking.currentBytes + (line.length + 1)
    lastBlankLine :=
      if isBlank line then some (chunking.current.length + 1) else chunking.lastBlankLine }

/-- The chunk has lines, and no room for another. -/
def full (maxBytes : ℤ) (line : JsString) (chunking : Chunking) : Bool :=
  maxBytes < ((chunking.currentBytes + (line.length + 1) : ℕ) : ℤ) && !chunking.current.isEmpty

/-- The body of the loop, at line `i`. -/
def step (maxBytes : ℤ) (i : ℕ) (line : JsString) (chunking : Chunking) : Chunking :=
  (if chunking.full maxBytes line then chunking.cut i else chunking).push line

/-- The loop, from line `i` on. -/
def loop (maxBytes : ℤ) : ℕ → List JsString → Chunking → Chunking
  | _, [], chunking => chunking
  | i, line :: rest, chunking => loop maxBytes (i + 1) rest (chunking.step maxBytes i line)

/-- The chunks, with the one that is open after the loop. -/
def finish (chunking : Chunking) : List Piece :=
  if chunking.current.isEmpty then chunking.chunks
  else chunking.chunks ++ [⟨join newline chunking.current, chunking.startLine,
    chunking.startLine + chunking.current.length - 1⟩]

end Chunking

/-- `chunks.map((c, i) => ({ ...c, index: i, total: chunks.length }))`. -/
def number (pieces : List Piece) : List Chunk :=
  pieces.zipIdx.map fun (piece, index) ↦
    ⟨piece.text, piece.startLine, piece.endLine, index, pieces.length⟩

def chunkByLines (source : JsString) (maxBytes : ℤ) : List Chunk :=
  if (source.length : ℤ) ≤ maxBytes then
    [⟨source, 1, (source.splitOn newline).length, 0, 1⟩]
  else number (Chunking.start.loop maxBytes 0 (source.splitOn newline)).finish

end Cordyceps.Council
