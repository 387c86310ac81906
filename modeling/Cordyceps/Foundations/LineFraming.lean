import Mathlib.Data.List.Basic

/-!
# Splitting a stream at a separator

A stream arrives in chunks; a frame is complete when its separator arrives.
`frames` gives the complete frames of a text and the open rest after the last
separator. The main fact is that cutting a text into chunks and carrying the
open rest over does not change the frames.
-/

namespace Foundations.LineFraming

variable {Symbol : Type*} [DecidableEq Symbol]

/-- The complete frames of a text and what follows the last separator. -/
def frames (sep : Symbol) : List Symbol → List (List Symbol) × List Symbol
  | [] => ([], [])
  | symbol :: text =>
    if symbol = sep then ([] :: (frames sep text).1, (frames sep text).2)
    else
      match frames sep text with
      | ([], rest) => ([], symbol :: rest)
      | (line :: lines, rest) => ((symbol :: line) :: lines, rest)

variable (sep : Symbol)

@[simp]
theorem frames_nil : frames sep ([] : List Symbol) = ([], []) := rfl

/-- **Framing is independent of chunking**: what the rest of the first chunk and the second
chunk frame to are the frames that the first chunk had left open. -/
theorem frames_append (first second : List Symbol) :
    frames sep (first ++ second) =
      ((frames sep first).1 ++ (frames sep ((frames sep first).2 ++ second)).1,
        (frames sep ((frames sep first).2 ++ second)).2) := by
  induction first with
  | nil => simp
  | cons symbol first ih =>
    by_cases hsep : symbol = sep
    · rw [List.cons_append, frames, if_pos hsep, ih, frames, if_pos hsep]
      simp
    · rw [List.cons_append, frames, if_neg hsep, ih, frames, if_neg hsep]
      cases hfirst : frames sep first with
      | mk lines rest =>
        cases lines with
        | nil => simp [frames, hsep]
        | cons line lines => simp

/-! ## Frames that carry something -/

/-- The complete frames that are not empty. -/
def lines (text : List Symbol) : List (List Symbol) :=
  (frames sep text).1.filter fun line ↦ !line.isEmpty

/-- What follows the last separator. -/
def rest (text : List Symbol) : List Symbol := (frames sep text).2

/-- A list of frames that carry something: the given one, unless it is empty. -/
def piece (text : List Symbol) : List (List Symbol) := if text.isEmpty then [] else [text]

/-- All frames of a finished text that carry something. -/
def pieces (text : List Symbol) : List (List Symbol) := lines sep text ++ piece (rest sep text)

@[simp]
theorem lines_nil : lines sep ([] : List Symbol) = [] := rfl

@[simp]
theorem rest_nil : rest sep ([] : List Symbol) = [] := rfl

theorem lines_append (first second : List Symbol) :
    lines sep (first ++ second) = lines sep first ++ lines sep (rest sep first ++ second) := by
  rw [lines, frames_append, List.filter_append]
  rfl

theorem rest_append (first second : List Symbol) :
    rest sep (first ++ second) = rest sep (rest sep first ++ second) := by
  rw [rest, frames_append]
  rfl

/-- What a separator leaves open can go on with anything: the pieces are found one by one. -/
theorem pieces_append (first second : List Symbol) :
    pieces sep (first ++ second) = lines sep first ++ pieces sep (rest sep first ++ second) := by
  rw [pieces, pieces, lines_append, rest_append, List.append_assoc]

/-- The open rest has no complete frame. -/
theorem frames_rest (text : List Symbol) : frames sep (rest sep text) = ([], rest sep text) := by
  unfold rest
  induction text with
  | nil => rfl
  | cons symbol text ih =>
    by_cases hsep : symbol = sep
    · rw [frames, if_pos hsep]
      exact ih
    · rw [frames, if_neg hsep]
      rcases hframes : frames sep text with ⟨_ | ⟨line, lines⟩, rest⟩
      · rw [hframes] at ih
        simp [frames, hsep, ih]
      · rw [hframes] at ih
        exact ih

theorem pieces_rest (text : List Symbol) : pieces sep (rest sep text) = piece (rest sep text) := by
  have hframes := frames_rest sep text
  have hrest : rest sep (rest sep text) = rest sep text := by
    change (frames sep (rest sep text)).2 = rest sep text
    rw [hframes]
  rw [pieces, lines, hframes, List.filter_nil, List.nil_append, hrest]

/-- The frames of a text are what it splits into. -/
theorem splitOn_eq_frames (text : List Symbol) :
    text.splitOn sep = (frames sep text).1 ++ [(frames sep text).2] := by
  induction text with
  | nil => simp [List.splitOn]
  | cons symbol text ih =>
    rw [List.splitOn] at ih ⊢
    rw [List.splitOnP_cons_eq_if_modifyHead, ih]
    by_cases hsep : symbol = sep
    · simp [frames, hsep]
    · have hne : (symbol == sep) = false := by simpa using hsep
      rw [frames, if_neg hsep, hne]
      rcases frames sep text with ⟨_ | ⟨line, lines⟩, rest⟩
      · rfl
      · rfl

/-- The pieces are the non-empty strings that the text splits into. -/
theorem pieces_eq_splitOn (text : List Symbol) :
    pieces sep text = (text.splitOn sep).filter fun line ↦ !line.isEmpty := by
  rw [splitOn_eq_frames, List.filter_append, pieces, lines, piece, rest]
  cases (frames sep text).2 <;> rfl

end Foundations.LineFraming
