import Cordyceps.Council.Findings
import Cordyceps.Foundations.Json

/-!
# The last line of a response

The prompts ask for a JSON array on the last line of a response. `extractFindings` looks for a
fenced array first, so the last line decides exactly when no fenced array is read as another
value. Which array that is, is said in terms of the text: the first opening fence with an
array behind it that is closed, and the first place where it is closed.
-/

namespace Cordyceps.Council

open Foundations

/-! ## The first fenced array -/

/-- What follows an opening fence and the spaces behind it, on a text that starts with these. -/
def behindFence (text : JsString) : Option JsString :=
  if JsString.startsWith text (js "```") then
    let tagged := text.drop (js "```").length
    let untagged :=
      if JsString.startsWith tagged (js "json") then tagged.drop (js "json").length else tagged
    some (JsString.trimStart untagged)
  else none

/-- The text before the first bracket with a closing fence behind it. -/
def beforeClosing : JsString → Option JsString
  | [] => none
  | unit :: rest =>
    if unit == closeBracket && (JsString.trimStart rest).startsWith (js "```") then some []
    else (beforeClosing rest).map (unit :: ·)

/-- The array that a text starts with, up to its closing fence. -/
def arrayHere : JsString → Option JsString
  | [] => none
  | unit :: rest =>
    if unit == openBracket then
      (beforeClosing rest).map fun inner ↦ openBracket :: inner ++ [closeBracket]
    else none

/-- The fenced array that a text starts with. -/
def fencedHere (text : JsString) : Option JsString := (behindFence text).bind arrayHere

/-- The first fenced array of a text. -/
def firstFenced : JsString → Option JsString
  | [] => none
  | unit :: rest => (fencedHere (unit :: rest)).or (firstFenced rest)

/-! ## The pattern finds the first fenced array -/

/-- What the pattern captures at a reached position. -/
def captured (reached : Cursor) : Option JsString :=
  some (((reached.captures.find? fun entry ↦ entry.1 == 1).map Prod.snd).getD [])

/-- The closing fence, behind any spaces. -/
def closing : Cursor → Option JsString :=
  Regex.run optionalSpaces (Regex.run (Regex.literal "```") captured)

/-- The array and the closing fence. -/
def fencedArray : Cursor → Option JsString :=
  Regex.run (.group 1 (Regex.cat
    [.single (· == openBracket), anyUnit, .single (· == closeBracket)])) closing

theorem map_text_matchAt_fence (passed ahead : JsString) :
    (fencePattern.matchAt passed ahead).map (Match.text 1) =
      Regex.run (Regex.literal "```") (Regex.run (Regex.optional (Regex.literal "json"))
        (Regex.run optionalSpaces fencedArray)) ⟨passed, ahead, []⟩ := by
  rw [Regex.map_matchAt, fencePattern]
  simp only [Regex.run_cat_cons, Regex.run_cat_nil]
  rfl

theorem run_literal_eq_none {text : String} {unit : CodeUnit} {units : JsString}
    (htext : js text = unit :: units) {next : Cursor → Option JsString} {cursor : Cursor}
    (h : cursor.ahead.head? ≠ some unit) : Regex.run (Regex.literal text) next cursor = none := by
  rw [Regex.run_literal, htext]
  obtain ⟨passed, ahead, captures⟩ := cursor
  cases ahead with
  | nil => rfl
  | cons other ahead =>
    have hother : unit ≠ other := fun heq ↦ h (by rw [heq]; rfl)
    simp [hother]

theorem closing_eq (cursor : Cursor) :
    closing cursor =
      if (JsString.trimStart cursor.ahead).startsWith (js "```") then captured cursor else none := by
  have hstop : ∀ cursor : Cursor, cursor.ahead.head?.any JsString.isSpace →
      Regex.run (Regex.literal "```") captured cursor = none := by
    intro cursor hspace
    refine run_literal_eq_none (show js "```" = 0x60 :: [0x60, 0x60] from rfl) fun hhead ↦ ?_
    rw [hhead] at hspace
    exact absurd hspace (by decide)
  rw [closing, optionalSpaces, Regex.run_repeated_greedy _ hstop, Regex.run_literal,
    Cursor.ahead_skip_takeWhile]
  rfl

/-- The lazy part of the pattern stops at the first bracket with a closing fence behind it. -/
theorem run_anyUnit {next : Cursor → Option JsString} (read : JsString → JsString)
    (hnext : ∀ cursor, next cursor =
      if (JsString.trimStart cursor.ahead).startsWith (js "```") then some (read cursor.passed)
      else none) (passed ahead : JsString) (captures : List (ℕ × JsString)) :
    Regex.run anyUnit (Regex.run (.single (· == closeBracket)) next) ⟨passed, ahead, captures⟩ =
      (beforeClosing ahead).map fun inner ↦ read (closeBracket :: (inner.reverse ++ passed)) := by
  induction ahead generalizing passed with
  | nil =>
    rw [anyUnit, Regex.run_repeated_lazy, Regex.run_single]
    rfl
  | cons unit rest ih =>
    have hlater : Regex.run anyUnit (Regex.run (.single (· == closeBracket)) next)
          ⟨unit :: passed, rest, captures⟩ =
        ((beforeClosing rest).map (unit :: ·)).map fun inner ↦
          read (closeBracket :: (inner.reverse ++ passed)) := by
      rw [ih, Option.map_map]
      congr 1
      funext inner
      simp
    rw [anyUnit] at hlater ⊢
    rw [Regex.run_repeated_lazy, Regex.run_single, hnext, beforeClosing]
    by_cases hunit : unit = closeBracket
    · subst hunit
      by_cases hclose : (JsString.trimStart rest).startsWith (js "```")
      · simp [hclose, Cursor.skip]
      · simpa [hclose, Cursor.skip] using hlater
    · simpa [hunit, Cursor.skip] using hlater

theorem fencedArray_eq (cursor : Cursor) : fencedArray cursor = arrayHere cursor.ahead := by
  obtain ⟨passed, ahead, captures⟩ := cursor
  rw [fencedArray, Regex.run_group]
  simp only [Regex.run_cat_cons, Regex.run_cat_nil, Regex.run_single]
  cases ahead with
  | nil => rfl
  | cons unit rest =>
    rw [arrayHere]
    by_cases hunit : unit = openBracket
    · subst hunit
      simp only [List.head?_cons, Option.any_some, beq_self_eq_true, if_true, Cursor.skip]
      rw [run_anyUnit (fun reached ↦ (reached.take (reached.length - passed.length)).reverse)
        (fun reached ↦ by rw [closing_eq]; rfl)]
      congr 1
      funext inner
      have hreached : closeBracket ::
            (inner.reverse ++ (((openBracket :: rest).take 1).reverse ++ passed)) =
          (openBracket :: inner ++ [closeBracket]).reverse ++ passed := by simp
      rw [hreached, List.length_append, Nat.add_sub_cancel, List.take_left, List.reverse_reverse]
    · simp [hunit]

theorem arrayHere_eq_none {unit : CodeUnit} {rest : JsString} (h : unit ≠ openBracket) :
    arrayHere (unit :: rest) = none := by
  rw [arrayHere, if_neg (by simpa using h)]

theorem run_optionalSpaces_fencedArray (cursor : Cursor) :
    Regex.run optionalSpaces fencedArray cursor = arrayHere (JsString.trimStart cursor.ahead) := by
  have hstop : ∀ cursor : Cursor, cursor.ahead.head?.any JsString.isSpace →
      fencedArray cursor = none := by
    intro cursor hspace
    rw [fencedArray_eq]
    cases hahead : cursor.ahead with
    | nil => rfl
    | cons unit rest =>
      refine arrayHere_eq_none fun hopen ↦ ?_
      rw [hahead, hopen] at hspace
      change JsString.isSpace openBracket = true at hspace
      exact absurd hspace (by decide)
  rw [optionalSpaces, Regex.run_repeated_greedy _ hstop, fencedArray_eq,
    Cursor.ahead_skip_takeWhile]
  rfl

/-- No array starts where the word `json` does. -/
theorem arrayHere_of_json {text : JsString} (h : JsString.startsWith text (js "json")) :
    arrayHere (JsString.trimStart text) = none := by
  obtain ⟨rest, rfl⟩ := List.isPrefixOf_iff_prefix.mp h
  exact arrayHere_eq_none (by decide)

/-- The pattern matches where a fenced array starts, and captures it. -/
theorem map_text_matchAt (passed ahead : JsString) :
    (fencePattern.matchAt passed ahead).map (Match.text 1) = fencedHere ahead := by
  rw [map_text_matchAt_fence, Regex.run_literal, fencedHere, behindFence]
  by_cases hfence : (js "```").isPrefixOf ahead
  · rw [if_pos hfence, if_pos (show JsString.startsWith ahead (js "```") from hfence),
      Regex.run_optional, Regex.run_literal]
    simp only [run_optionalSpaces_fencedArray]
    by_cases hjson : JsString.startsWith (ahead.drop (js "```").length) (js "json")
    · have hskipped : (js "json").isPrefixOf
          (Cursor.skip (js "```").length ⟨passed, ahead, []⟩).ahead := hjson
      rw [if_pos hskipped, if_pos hjson]
      change (arrayHere _).or (arrayHere (JsString.trimStart (ahead.drop _))) = _
      rw [arrayHere_of_json hjson, Option.or_none]
      rfl
    · have hskipped : ¬(js "json").isPrefixOf
          (Cursor.skip (js "```").length ⟨passed, ahead, []⟩).ahead := hjson
      rw [if_neg hskipped, if_neg hjson, Option.none_or]
      rfl
  · rw [if_neg hfence, if_neg (show ¬JsString.startsWith ahead (js "```") from hfence)]
    rfl

theorem map_text_exec (text : JsString) :
    (fencePattern.exec text).map (Match.text 1) = firstFenced text := by
  rw [Regex.exec]
  generalize ([] : JsString) = passed
  induction text generalizing passed with
  | nil => rw [Regex.execFrom, map_text_matchAt]; rfl
  | cons unit rest ih =>
    rw [Regex.execFrom, firstFenced, ← map_text_matchAt passed]
    cases fencePattern.matchAt passed (unit :: rest) with
    | none => exact ih (unit :: passed)
    | some found => rfl

/-! ## The last line decides -/

section

variable {Findings : Type*} (parse : JsString → Option Findings)

/-- The last line that is not blank, trimmed. -/
def lastLine (text : JsString) : Option JsString :=
  (((text.splitOn newline).map JsString.trim).filter fun line ↦ !line.isEmpty).getLast?

theorem parseFence_eq (text : JsString) :
    parseFence parse text = (firstFenced text).bind parse := by
  rw [parseFence, ← map_text_exec]
  cases fencePattern.exec text <;> rfl

theorem parseLine_of_blank {line : JsString} (h : line.trim = []) : parseLine parse line = none := by
  rw [parseLine, h]
  rfl

theorem parseLines_of_lastLine {text line : JsString} {value : Findings}
    (hline : lastLine text = some line) (hopen : JsString.startsWith line [openBracket])
    (hclose : JsString.endsWith line [closeBracket]) (hparse : parse line = some value) :
    parseLines parse text = some value := by
  rw [lastLine] at hline
  rw [parseLines]
  generalize text.splitOn newline = lines at hline ⊢
  induction lines using List.reverseRecOn with
  | nil => simp at hline
  | append_singleton front last ih =>
    rw [List.reverse_append, List.reverse_singleton, List.singleton_append, List.findSome?_cons]
    rw [List.map_append, List.filter_append] at hline
    by_cases hblank : JsString.trim last = []
    · rw [parseLine_of_blank parse hblank]
      exact ih (by simpa [hblank] using hline)
    · have htrim : JsString.trim last = line := by simpa [hblank] using hline
      rw [parseLine, htrim, hopen, hclose]
      simp [hparse]

/-- The last line decides if and only if no fenced array before it is read as another value. -/
theorem extractFindings_lastLine_iff {text line : JsString} {value : Findings}
    (hline : lastLine text = some line) (hopen : JsString.startsWith line [openBracket])
    (hclose : JsString.endsWith line [closeBracket]) (hparse : parse line = some value) :
    extractFindings parse text = some value ↔
      ∀ body ∈ firstFenced text, ∀ other ∈ parse body, other = value := by
  have hempty : text.isEmpty = false := by
    rw [List.isEmpty_eq_false_iff]
    rintro rfl
    have hnone : lastLine [] = none := by decide
    rw [hnone] at hline
    exact absurd hline (by simp)
  rw [extractFindings, hempty, parseLines_of_lastLine parse hline hopen hclose hparse, parseFence_eq]
  cases hfenced : firstFenced text with
  | none => simp
  | some body =>
    cases hbody : parse body with
    | none => simp [hbody]
    | some other => simp [hbody]

end

theorem extractFindings_lastLine_fenced :
    extractFindings Json.parse (js "```json\n[1]\n```\n[1]") = some (Json.arr [Json.num 1]) ↔
      ∀ body ∈ firstFenced (js "```json\n[1]\n```\n[1]"), ∀ other ∈ Json.parse body,
        other = Json.arr [Json.num 1] :=
  extractFindings_lastLine_iff Json.parse (show lastLine _ = some (js "[1]") by decide +kernel)
    (by decide) (by decide) (by decide +kernel)

/-- An example quoted in a fence wins over the findings on the last line. -/
theorem fenced_example_wins :
    lastLine (js "```\n[]\n```\n[1]") = some (js "[1]") ∧
      JsString.startsWith (js "[1]") [openBracket] ∧ JsString.endsWith (js "[1]") [closeBracket] ∧
      Json.parse (js "[1]") = some (Json.arr [Json.num 1]) ∧
      extractFindings Json.parse (js "```\n[]\n```\n[1]") ≠ some (Json.arr [Json.num 1]) := by
  decide +kernel

end Cordyceps.Council
