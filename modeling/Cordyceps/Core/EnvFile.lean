import Cordyceps.Core.Env
import Cordyceps.Foundations.Trimming
import Cordyceps.Foundations.LineGroups

/-!
# The env-file format

The documented files: lines that are blank, comments, or assignments of a quoted or unquoted
value, each with an optional comment behind it. A file denotes the last value of each key. The
parser returns it exactly if every comment behind a last unquoted value is announced by a space
that is not the first unit behind the `=`: the parser looks for `" #"`, not for a blank in front
of the `#`, and takes a comment that follows an empty value at once for the value.
-/

namespace Cordyceps.Core

open Foundations Foundations.Delimiters Foundations.LineGroups

/-! ## The grammar -/

/-- White space that does not end a line. -/
def IsBlank (text : JsString) : Prop :=
  ∀ unit ∈ text, JsString.isSpace unit = true ∧ CodeUnit.isLineTerminator unit = false

/-- Text without line terminators. -/
def IsPlain (text : JsString) : Prop := ∀ unit ∈ text, unit.isDot = true

def IsIdentifier (key : JsString) : Prop :=
  ∃ unit rest, key = unit :: rest ∧ isKeyStart unit = true ∧ ∀ other ∈ rest, isKeyUnit other = true

/-- The value of an assignment. -/
inductive EnvValue
  | doubleQuoted (contents : JsString) (plain : IsPlain contents) (closed : doubleQuote ∉ contents)
  | singleQuoted (contents : JsString) (plain : IsPlain contents) (closed : singleQuote ∉ contents)
  | word (text : JsString) (plain : IsPlain text) (uncommented : hashSign ∉ text)
      (unquoted : doubleQuote ∉ text ∧ singleQuote ∉ text)

namespace EnvValue

def text : EnvValue → JsString
  | .doubleQuoted contents _ _ => doubleQuote :: (contents ++ [doubleQuote])
  | .singleQuoted contents _ _ => singleQuote :: (contents ++ [singleQuote])
  | .word text _ _ _ => text

/-- The contents of a quoted value as they are, an unquoted value trimmed. -/
def denoted : EnvValue → JsString
  | .doubleQuoted contents _ _ | .singleQuoted contents _ _ => contents
  | .word text _ _ _ => JsString.trim text

def isWord : EnvValue → Bool
  | .word _ _ _ _ => true
  | .doubleQuoted _ _ _ | .singleQuoted _ _ _ => false

end EnvValue

/-- `[export] KEY=VALUE`, with blanks and a comment behind it. `exported` holds the blanks behind
the word `export`. A comment is set apart from an unquoted value. -/
structure EnvAssignment where
  lead : JsString
  exported : Option JsString
  key : JsString
  value : EnvValue
  blanks : JsString
  comment : Option JsString
  lead_blank : IsBlank lead
  exported_blank : ∀ gap ∈ exported, gap ≠ [] ∧ IsBlank gap
  key_identifier : IsIdentifier key
  key_ordinary : key ≠ js "__proto__"
  blanks_blank : IsBlank blanks
  comment_plain : ∀ text ∈ comment, IsPlain text
  comment_apart : value.isWord = true → comment.isSome = true → blanks ≠ []

namespace EnvAssignment

def exportText (assignment : EnvAssignment) : JsString :=
  (assignment.exported.map fun gap ↦ js "export" ++ gap).getD []

def commentText (assignment : EnvAssignment) : JsString :=
  (assignment.comment.map fun text ↦ hashSign :: text).getD []

/-- What is behind the `=`. -/
def valueText (assignment : EnvAssignment) : JsString :=
  assignment.value.text ++ (assignment.blanks ++ assignment.commentText)

def text (assignment : EnvAssignment) : JsString :=
  assignment.lead ++ (assignment.exportText ++ (assignment.key ++ 0x3D :: assignment.valueText))

/-- A comment behind an unquoted value stands behind a space, and something is in front of the
space. -/
def Announced (assignment : EnvAssignment) : Prop :=
  assignment.value.isWord = true → assignment.comment.isSome = true →
    assignment.blanks.getLast? = some 0x20 ∧
      2 ≤ (assignment.value.text ++ assignment.blanks).length

end EnvAssignment

inductive EnvLine
  | blank (text : JsString) (isBlank : IsBlank text)
  | comment (lead text : JsString) (isBlank : IsBlank lead) (oneLine : newline ∉ text)
  | assignment (assignment : EnvAssignment)

namespace EnvLine

def text : EnvLine → JsString
  | .blank text _ => text
  | .comment lead text _ _ => lead ++ hashSign :: text
  | .assignment written => written.text

def assignment? : EnvLine → Option EnvAssignment
  | .blank _ _ | .comment _ _ _ _ => none
  | .assignment written => some written

end EnvLine

inductive LineEnding
  | lf
  | crlf

def LineEnding.text : LineEnding → JsString
  | .lf => [newline]
  | .crlf => [0x0D, newline]

/-- Lines with their ends, and what is behind the last end. -/
structure EnvFile where
  lines : List (EnvLine × LineEnding)
  last : EnvLine

namespace EnvFile

def text (file : EnvFile) : JsString :=
  (file.lines.flatMap fun line ↦ line.1.text ++ line.2.text) ++ file.last.text

def assignments (file : EnvFile) : List EnvAssignment :=
  (file.lines.map Prod.fst ++ [file.last]).filterMap EnvLine.assignment?

/-- The last assignment of a key. -/
def lastAssignment (file : EnvFile) (key : JsString) : Option EnvAssignment :=
  JsMap.lastWrite (file.assignments.map fun assignment ↦ (assignment.key, assignment)) key

/-- The value of a key: the denoted value of its last assignment. -/
def denoted (file : EnvFile) (key : JsString) : Option JsString :=
  (file.lastAssignment key).map fun assignment ↦ assignment.value.denoted

end EnvFile

/-! ## Values -/

theorem IsBlank.blank {text : JsString} (h : IsBlank text) : JsString.Blank text :=
  fun unit hunit ↦ (h unit hunit).1

theorem IsBlank.plain {text : JsString} (h : IsBlank text) : IsPlain text := by
  intro unit hunit
  rw [CodeUnit.isDot, (h unit hunit).2]
  rfl

theorem IsPlain.append {first last : JsString} (hfirst : IsPlain first) (hlast : IsPlain last) :
    IsPlain (first ++ last) := by
  intro unit hunit
  rcases List.mem_append.mp hunit with hunit | hunit
  · exact hfirst unit hunit
  · exact hlast unit hunit

theorem IsPlain.cons {unit : CodeUnit} {text : JsString} (hunit : unit.isDot = true)
    (h : IsPlain text) : IsPlain (unit :: text) := List.forall_mem_cons.mpr ⟨hunit, h⟩

/-- A closed quotation is read up to its closing quote. -/
theorem unquote_closed {quote : CodeUnit} {contents : JsString} (h : quote ∉ contents)
    (rest : JsString) : unquote quote (quote :: (contents ++ quote :: rest)) = contents := by
  rw [unquote, List.drop_one, List.tail_cons, indexOf, upTo_mark h]
  exact List.take_left

theorem startsWith_quoted (quote : CodeUnit) (contents rest : JsString) :
    (JsString.startsWith (quote :: (contents ++ quote :: rest)) [quote] &&
      decide (1 < (quote :: (contents ++ quote :: rest)).length)) = true := by
  rw [Bool.and_eq_true, decide_eq_true_eq]
  constructor
  · simp [JsString.startsWith]
  · rw [List.length_cons, List.length_append, List.length_cons]
    omega

theorem readValue_doubleQuoted {contents : JsString} (h : doubleQuote ∉ contents)
    (rest : JsString) :
    readValue (doubleQuote :: (contents ++ doubleQuote :: rest)) = contents := by
  rw [readValue, if_pos (startsWith_quoted doubleQuote contents rest), unquote_closed h]

theorem readValue_singleQuoted {contents : JsString} (h : singleQuote ∉ contents)
    (rest : JsString) :
    readValue (singleQuote :: (contents ++ singleQuote :: rest)) = contents := by
  have hother : JsString.startsWith (singleQuote :: (contents ++ singleQuote :: rest))
      [doubleQuote] = false := rfl
  rw [readValue, hother, Bool.false_and, if_neg Bool.false_ne_true,
    if_pos (startsWith_quoted singleQuote contents rest), unquote_closed h]

theorem not_startsWith {quote : CodeUnit} {text rest : JsString} (h : quote ∉ text)
    (hrest : quote ∉ rest.head?) : JsString.startsWith (text ++ rest) [quote] = false := by
  rw [Bool.eq_false_iff, JsString.startsWith]
  intro hstart
  have hbegins := List.isPrefixOf_iff_prefix.mp hstart
  cases text with
  | nil =>
    cases rest with
    | nil => simp at hbegins
    | cons unit rest => simp_all
  | cons unit text => simp_all

/-- Without quotes a value is what is left of it without its comment. -/
theorem readValue_unquoted {text rest : JsString} (hdouble : doubleQuote ∉ text)
    (hsingle : singleQuote ∉ text) (hrest : doubleQuote ∉ rest.head? ∧ singleQuote ∉ rest.head?) :
    readValue (text ++ rest) = JsString.trim (cutComment (text ++ rest)) := by
  rw [readValue, not_startsWith hdouble hrest.1, not_startsWith hsingle hrest.2]
  rfl

theorem cutComment_uncommented {text : JsString} (h : hashSign ∉ text) :
    cutComment text = text := by
  have hfind : upTo (js " #") text = none := by
    apply upTo_eq_none
    intro hinside
    exact h (hinside.subset (List.mem_cons_of_mem 0x20 (List.mem_singleton_self hashSign)))
  rw [cutComment, indexOf, hfind]
  rfl

theorem cutComment_announced {front : JsString} (h : hashSign ∉ front) (hne : front ≠ [])
    (comment : JsString) : cutComment (front ++ 0x20 :: hashSign :: comment) = front := by
  have hfind : upTo (js " #") (front ++ 0x20 :: hashSign :: comment) = some front :=
    @upTo_marked _ _ hashSign front [0x20] h (by decide) comment
  rw [cutComment, indexOf, hfind, Option.map_some]
  change (if 0 < front.length then _ else _) = front
  rw [if_pos (List.length_pos_iff.mpr hne)]
  exact List.take_left

/-- What is behind an unannounced comment sign stays. -/
theorem hash_mem_cutComment {front : JsString} (h : hashSign ∉ front)
    (hbad : ¬ (front.getLast? = some 0x20 ∧ 2 ≤ front.length)) (comment : JsString) :
    hashSign ∈ cutComment (front ++ hashSign :: comment) := by
  have hwhole : hashSign ∈ front ++ hashSign :: comment := by simp
  rw [cutComment, indexOf]
  cases hfind : upTo (js " #") (front ++ hashSign :: comment) with
  | none => exact hwhole
  | some cut =>
    rw [Option.map_some]
    change hashSign ∈ if 0 < cut.length then _ else _
    obtain ⟨rest, hrest⟩ := prefix_of_upTo hfind
    by_cases hempty : 0 < cut.length
    · rw [if_pos hempty]
      have htake : (front ++ hashSign :: comment).take cut.length = cut := by
        rw [← hrest, List.append_assoc, List.take_left]
      rw [htake]
      by_contra hcut
      -- the cut would be at the first comment sign, behind a space
      have hsplit : cut ++ js " #" ++ rest = (cut ++ [0x20]) ++ hashSign :: rest := by
        simp [js, hashSign]
      rw [hsplit] at hrest
      have hsame := append_mark_inj (by simpa [hashSign] using hcut) h hrest
      refine hbad ⟨?_, ?_⟩
      · rw [← hsame, List.getLast?_append]
        rfl
      · rw [← hsame, List.length_append, List.length_singleton]
        exact Nat.succ_le_succ hempty
    · rw [if_neg hempty]
      exact hwhole

theorem hashSign_notMem_append_blank {text blanks : JsString} (h : hashSign ∉ text)
    (hblanks : IsBlank blanks) : hashSign ∉ text ++ blanks := by
  rw [List.mem_append, not_or]
  exact ⟨h, fun hmem ↦ absurd (hblanks hashSign hmem).1 (by decide)⟩

/-- A comment behind blanks is cut off exactly if a space announces it. -/
theorem trim_cutComment_iff {text blanks : JsString} (huncommented : hashSign ∉ text)
    (hblanks : IsBlank blanks) (hne : blanks ≠ []) (comment : JsString) :
    JsString.trim (cutComment (text ++ blanks ++ hashSign :: comment)) = JsString.trim text ↔
      blanks.getLast? = some 0x20 ∧ 2 ≤ (text ++ blanks).length := by
  have hfront := hashSign_notMem_append_blank huncommented hblanks
  rw [← List.getLast?_append_of_ne_nil text hne]
  constructor
  · intro hread
    by_contra hbad
    -- the comment sign would be part of the value
    have hmem := hash_mem_cutComment hfront hbad comment
    have htrimmed := JsString.mem_trim_of_visible (by decide) hmem
    rw [hread] at htrimmed
    exact huncommented (JsString.mem_trim htrimmed)
  · rintro ⟨hspace, hlength⟩
    obtain ⟨front, hsplit⟩ := List.getLast?_eq_some_iff.mp hspace
    have hclean : hashSign ∉ front := fun hmem ↦ hfront (hsplit ▸ List.mem_append_left _ hmem)
    have hfrontne : front ≠ [] := by
      rintro rfl
      rw [hsplit] at hlength
      simp at hlength
    rw [← JsString.trim_append_blank text hblanks.blank, hsplit, List.append_assoc,
      List.singleton_append, cutComment_announced hclean hfrontne]
    exact (JsString.trim_append_blank front (by simp; decide)).symm

theorem IsPlain.newline_notMem {text : JsString} (h : IsPlain text) : newline ∉ text := by
  intro hmem
  exact absurd (h newline hmem) (by decide)

theorem EnvValue.plain_text (value : EnvValue) : IsPlain value.text := by
  cases value with
  | doubleQuoted contents plain _ =>
    exact .cons rfl (plain.append (.cons rfl (List.forall_mem_nil _)))
  | singleQuoted contents plain _ =>
    exact .cons rfl (plain.append (.cons rfl (List.forall_mem_nil _)))
  | word text plain _ _ => exact plain

namespace EnvAssignment

variable (assignment : EnvAssignment)

theorem plain_commentText : IsPlain assignment.commentText := by
  rw [commentText]
  cases hcomment : assignment.comment with
  | none => exact List.forall_mem_nil _
  | some text => exact .cons rfl (assignment.comment_plain text hcomment)

theorem plain_valueText : IsPlain assignment.valueText :=
  assignment.value.plain_text.append
    (assignment.blanks_blank.plain.append assignment.plain_commentText)

/-- What stands in front of a comment behind an unquoted value. -/
theorem readValue_word {text : JsString} {plain uncommented unquoted}
    (hvalue : assignment.value = .word text plain uncommented unquoted) :
    readValue assignment.valueText = JsString.trim (cutComment assignment.valueText) := by
  have hquote : ∀ {quote : CodeUnit}, JsString.isSpace quote = false → quote ≠ hashSign →
      quote ∉ (assignment.blanks ++ assignment.commentText).head? := by
    intro quote hspace hhash hmem
    cases hblanks : assignment.blanks with
    | cons unit blanks =>
      rw [hblanks, List.cons_append, List.head?_cons, Option.mem_def, Option.some.injEq] at hmem
      have hunit := assignment.blanks_blank unit (by rw [hblanks]; exact List.mem_cons_self)
      rw [hmem, hspace] at hunit
      cases hunit.1
    | nil =>
      rw [hblanks, List.nil_append, commentText] at hmem
      cases hcomment : assignment.comment with
      | none => simp [hcomment] at hmem
      | some comment => simp [hcomment, Ne.symm hhash] at hmem
  rw [valueText, hvalue]
  exact readValue_unquoted unquoted.1 unquoted.2 ⟨hquote rfl (by decide), hquote rfl (by decide)⟩

/-- The value is read as it is denoted exactly if its comment is announced. -/
theorem readValue_valueText_iff :
    readValue assignment.valueText = assignment.value.denoted ↔ assignment.Announced := by
  cases hvalue : assignment.value with
  | doubleQuoted contents plain closed =>
    have hread : readValue assignment.valueText = contents := by
      rw [valueText, hvalue, EnvValue.text, List.cons_append, List.append_assoc,
        List.singleton_append]
      exact readValue_doubleQuoted closed _
    simp [hread, EnvValue.denoted, Announced, hvalue, EnvValue.isWord]
  | singleQuoted contents plain closed =>
    have hread : readValue assignment.valueText = contents := by
      rw [valueText, hvalue, EnvValue.text, List.cons_append, List.append_assoc,
        List.singleton_append]
      exact readValue_singleQuoted closed _
    simp [hread, EnvValue.denoted, Announced, hvalue, EnvValue.isWord]
  | word text plain uncommented unquoted =>
    rw [assignment.readValue_word hvalue, EnvValue.denoted, Announced, hvalue, valueText, hvalue,
      EnvValue.text, commentText, ← List.append_assoc]
    cases hcomment : assignment.comment with
    | none =>
      have hfront := hashSign_notMem_append_blank uncommented assignment.blanks_blank
      simp [cutComment_uncommented hfront,
        JsString.trim_append_blank text assignment.blanks_blank.blank]
    | some comment =>
      have hne : assignment.blanks ≠ [] :=
        assignment.comment_apart (by rw [hvalue]; rfl) (by rw [hcomment]; rfl)
      simpa [EnvValue.isWord] using
        trim_cutComment_iff uncommented assignment.blanks_blank hne comment

end EnvAssignment

/-! ## Lines -/

theorem dropReturn_return (text : JsString) : dropReturn (text ++ [0x0D]) = text := by
  simp [dropReturn]

theorem dropReturn_plain {text : JsString} (h : IsPlain text) : dropReturn text = text := by
  rw [dropReturn, if_neg]
  intro hlast
  exact absurd (h 0x0D (List.mem_of_getLast? hlast)) (by decide)

theorem dropReturn_append_cons {unit : CodeUnit} (hunit : unit ≠ 0x0D) (front rest : JsString) :
    ∃ rest', dropReturn (front ++ unit :: rest) = front ++ unit :: rest' := by
  rw [dropReturn]
  split
  · rename_i hlast
    cases rest with
    | nil => simp [hunit] at hlast
    | cons other rest => exact ⟨(other :: rest).dropLast, by simp⟩
  · exact ⟨rest, rfl⟩

theorem parseLine_blank {raw : JsString} (h : JsString.Blank raw) : parseLine raw = none := by
  have hline : JsString.Blank (dropReturn raw) := by
    rw [dropReturn]
    split
    · exact fun unit hunit ↦ h unit (List.mem_of_mem_dropLast hunit)
    · exact h
  simp [parseLine, JsString.trim_blank hline]

theorem parseLine_comment {lead : JsString} (h : JsString.Blank lead) (rest : JsString) :
    parseLine (lead ++ hashSign :: rest) = none := by
  obtain ⟨rest', hline⟩ := dropReturn_append_cons (by decide : hashSign ≠ 0x0D) lead rest
  obtain ⟨text, htext⟩ := JsString.trim_cons (by decide : JsString.isSpace hashSign = false) rest'
  simp [parseLine, hline, JsString.trim_blank_append h, htext, JsString.startsWith]

section Matching

open Regex

variable {Outcome : Type*} {next : Cursor → Option Outcome}

theorem single_equals_stops (cursor : Cursor) (h : cursor.ahead.head?.any isKeyUnit) :
    run (.single (· == 0x3D)) next cursor = none := by
  rw [run_single, if_neg]
  intro hsign
  cases hhead : cursor.ahead.head? with
  | none => simp [hhead] at h
  | some unit =>
    rw [hhead, Option.any_some, beq_iff_eq] at hsign
    rw [hhead, hsign] at h
    exact absurd h (by decide)

theorem isSpace_of_isKeyUnit {unit : CodeUnit} (h : isKeyUnit unit = true) :
    JsString.isSpace unit = false := by
  simp only [isKeyUnit, CodeUnit.isLetter, CodeUnit.isDigit, Bool.or_eq_true, Bool.and_eq_true,
    decide_eq_true_eq, beq_iff_eq, UInt16.le_iff_toNat_le, ← UInt16.toNat_inj] at h
  simp only [JsString.isSpace, Bool.or_eq_false_iff, Bool.and_eq_false_iff, decide_eq_false_iff_not,
    beq_eq_false_iff_ne, ne_eq, UInt16.le_iff_toNat_le, ← UInt16.toNat_inj]
  simp only [UInt16.reduceToNat] at h ⊢
  omega

theorem isKeyUnit_of_isKeyStart {unit : CodeUnit} (h : isKeyStart unit = true) :
    isKeyUnit unit = true := by
  simp only [isKeyStart, isKeyUnit, Bool.or_eq_true] at h ⊢
  tauto

theorem IsIdentifier.isKeyUnit {key : JsString} (h : IsIdentifier key) :
    ∀ unit ∈ key, isKeyUnit unit = true := by
  obtain ⟨unit, rest, rfl, hunit, hrest⟩ := h
  exact List.forall_mem_cons.mpr ⟨isKeyUnit_of_isKeyStart hunit, hrest⟩

/-- The word `export` is taken if blanks are behind it. -/
theorem run_export {gap rest passed : JsString} {captures : List (ℕ × JsString)} (hne : gap ≠ [])
    (hgap : IsBlank gap) (hrest : ∀ unit ∈ rest.head?, JsString.isSpace unit = false)
    (h : ∀ passed, (next ⟨passed, rest, captures⟩).isSome) :
    ∃ passed', run (optional (.seq (literal "export") spaces)) next
      ⟨passed, js "export" ++ (gap ++ rest), captures⟩ = next ⟨passed', rest, captures⟩ := by
  obtain ⟨unit, gap, rfl⟩ := List.exists_cons_of_ne_nil hne
  obtain ⟨hunit, hunits⟩ := List.forall_mem_cons.mp hgap
  refine ⟨gap.reverse ++ unit :: ((js "export").reverse ++ passed), ?_⟩
  have hword : (js "export").isPrefixOf (js "export" ++ (unit :: gap ++ rest)) = true :=
    List.isPrefixOf_iff_prefix.mpr (List.prefix_append _ _)
  have hskip : Cursor.skip (js "export").length
      ⟨passed, js "export" ++ (unit :: gap ++ rest), captures⟩ =
        ⟨(js "export").reverse ++ passed, unit :: gap ++ rest, captures⟩ := by
    simp [Cursor.skip]
  rw [run_optional, run_seq, run_literal, if_pos hword, hskip, spaces, repeated1, run_seq,
    List.cons_append, run_single_cons, if_pos hunit.1,
    run_repeated_block (fun other hother ↦ (hunits other hother).1) hrest (h _)]
  obtain ⟨outcome, houtcome⟩ := Option.isSome_iff_exists.mp
    (h (gap.reverse ++ unit :: ((js "export").reverse ++ passed)))
  rw [houtcome]
  rfl

/-- A key that starts with the word `export` is not taken for it. -/
theorem run_no_export {key rest passed : JsString} {captures : List (ℕ × JsString)}
    (hkey : IsIdentifier key) :
    run (optional (.seq (literal "export") spaces)) next
      ⟨passed, key ++ 0x3D :: rest, captures⟩ = next ⟨passed, key ++ 0x3D :: rest, captures⟩ := by
  have hnone : run (.seq (literal "export") spaces) next
      ⟨passed, key ++ 0x3D :: rest, captures⟩ = none := by
    rw [run_seq, run_literal]
    split
    · rename_i hword
      have hbegins := prefix_of_prefix_append_cons (by decide : (0x3D : CodeUnit) ∉ js "export")
        (List.isPrefixOf_iff_prefix.mp hword)
      obtain ⟨tail, rfl⟩ := hbegins
      have hskip : Cursor.skip (js "export").length
          ⟨passed, js "export" ++ tail ++ 0x3D :: rest, captures⟩ =
            ⟨(js "export").reverse ++ passed, tail ++ 0x3D :: rest, captures⟩ := by
        simp [Cursor.skip]
      rw [hskip, spaces, repeated1, run_seq, run_single, if_neg]
      cases tail with
      | nil =>
        have hsign : JsString.isSpace 0x3D = false := by decide
        simp [hsign]
      | cons unit tail =>
        have hunit := isSpace_of_isKeyUnit (hkey.isKeyUnit unit (by simp))
        simp [hunit]
    · rfl
  rw [run_optional, hnone, Option.none_or]

/-- An assignment starts, behind its blanks, with a unit that may start a key. -/
theorem EnvAssignment.exists_head (assignment : EnvAssignment) : ∃ unit rest,
    assignment.exportText ++ (assignment.key ++ 0x3D :: assignment.valueText) = unit :: rest ∧
      isKeyStart unit = true := by
  rw [exportText]
  cases assignment.exported with
  | none =>
    obtain ⟨unit, rest, hkey, hunit, -⟩ := assignment.key_identifier
    exact ⟨unit, _, by rw [hkey]; rfl, hunit⟩
  | some gap => exact ⟨0x65, _, rfl, by decide⟩

theorem isSpace_of_isKeyStart {unit : CodeUnit} (h : isKeyStart unit = true) :
    JsString.isSpace unit = false := isSpace_of_isKeyUnit (isKeyUnit_of_isKeyStart h)

/-- The pattern finds the key and the text behind the `=`. -/
theorem exec_assignment (assignment : EnvAssignment) (read : Match → Outcome) {outcome : Outcome}
    (h : ∀ found : Match, found.captures =
      [(2, assignment.valueText), (1, assignment.key)] → read found = outcome) :
    (linePattern.exec assignment.text).map read = some outcome := by
  obtain ⟨unit, units, hkey, hunit, hunits⟩ := assignment.key_identifier
  have hplain : assignment.valueText.all CodeUnit.isDot = true :=
    List.all_eq_true.mpr assignment.plain_valueText
  rw [linePattern, exec_anchored, map_matchAt]
  simp only [run_cat_cons, run_cat_nil]
  rw [run_lineStart, if_pos rfl]
  generalize hfinal : (fun reached : Cursor ↦ some (read
    { before := ([] : JsString).reverse
      matched := (reached.passed.take (reached.passed.length - ([] : JsString).length)).reverse
      after := reached.ahead
      captures := reached.captures })) = final
  generalize hword : run (.group 1 (.seq (.single isKeyStart) (.repeated true isKeyUnit)))
    (run (.single (· == 0x3D)) (run (.group 2 (.repeated true CodeUnit.isDot))
      (run (.lineEnd false) final))) = fromKey
  have hbody : ∀ passed, fromKey
      ⟨passed, assignment.key ++ 0x3D :: assignment.valueText, []⟩ = some outcome := by
    intro passed
    rw [← hword, hkey, run_group_word 1 hunit hunits (by simp; decide) single_equals_stops,
      run_single_cons, if_pos (by rfl), run_group_repeated_lineEnd, if_pos hplain, ← hfinal]
    exact congrArg some (h _ (by rw [hkey]))
  have hsome : ∀ passed, (fromKey
      ⟨passed, assignment.key ++ 0x3D :: assignment.valueText, []⟩).isSome := by
    intro passed
    rw [hbody]
    rfl
  have hexport : ∀ passed, run (optional (.seq (literal "export") spaces)) fromKey
      ⟨passed, assignment.exportText ++ (assignment.key ++ 0x3D :: assignment.valueText), []⟩ =
        some outcome := by
    intro passed
    rw [EnvAssignment.exportText]
    cases hexported : assignment.exported with
    | none => exact (run_no_export assignment.key_identifier).trans (hbody passed)
    | some gap =>
      obtain ⟨hne, hgap⟩ := assignment.exported_blank gap hexported
      rw [Option.map_some, Option.getD_some, List.append_assoc]
      have hhead : ∀ other ∈ (assignment.key ++ 0x3D :: assignment.valueText).head?,
          JsString.isSpace other = false := by
        rw [hkey]
        intro other hother
        cases hother
        exact isSpace_of_isKeyStart hunit
      obtain ⟨passed', hrun⟩ := @run_export _ _ gap _ passed [] hne hgap hhead hsome
      exact hrun.trans (hbody passed')
  rw [EnvAssignment.text, run_repeated_block (fun other hother ↦
    (assignment.lead_blank other hother).1) ?_ (by rw [hexport]; rfl)]
  · exact hexport _
  · intro other hother
    obtain ⟨first, rest, hhead, hfirst⟩ := assignment.exists_head
    rw [hhead] at hother
    cases hother
    exact isSpace_of_isKeyStart hfirst

end Matching

theorem EnvAssignment.plain_text (assignment : EnvAssignment) : IsPlain assignment.text := by
  have hkey : IsPlain assignment.key := by
    intro unit hunit
    have hspace := isSpace_of_isKeyUnit (assignment.key_identifier.isKeyUnit unit hunit)
    rw [CodeUnit.isDot, Bool.not_eq_true', Bool.eq_false_iff]
    intro hend
    simp only [CodeUnit.isLineTerminator, Bool.or_eq_true, beq_iff_eq] at hend
    rcases hend with ((rfl | rfl) | rfl) | rfl <;> exact absurd hspace (by decide)
  have hexport : IsPlain assignment.exportText := by
    rw [exportText]
    cases hexported : assignment.exported with
    | none => exact List.forall_mem_nil _
    | some gap =>
      have hword : IsPlain (js "export") := List.all_eq_true.mp (by decide)
      exact hword.append (assignment.exported_blank gap hexported).2.plain
  exact assignment.lead_blank.plain.append
    (hexport.append (hkey.append (.cons (by decide) assignment.plain_valueText)))

/-- What the parser writes for an assignment. -/
def EnvAssignment.written (assignment : EnvAssignment) : JsString × JsString :=
  (assignment.key, readValue assignment.valueText)

theorem parseLine_assignment (assignment : EnvAssignment) {raw : JsString}
    (hraw : dropReturn raw = assignment.text) : parseLine raw = some assignment.written := by
  obtain ⟨unit, rest, hhead, hunit⟩ := assignment.exists_head
  obtain ⟨rest', htrim⟩ := JsString.trim_cons (isSpace_of_isKeyStart hunit) rest
  have hline : JsString.trim assignment.text = unit :: rest' := by
    rw [EnvAssignment.text, hhead, JsString.trim_blank_append assignment.lead_blank.blank, htrim]
  have hhash : unit ≠ hashSign := by
    rintro rfl
    exact absurd hunit (by decide)
  simp only [parseLine, hraw, hline]
  rw [if_neg (by simp [JsString.startsWith, Ne.symm hhash])]
  apply exec_assignment
  intro found hcaptures
  have hkey : found.text 1 = assignment.key := by
    rw [Match.text, Match.capture, hcaptures]
    rfl
  have hvalue : found.text 2 = assignment.valueText := by
    rw [Match.text, Match.capture, hcaptures]
    rfl
  rw [hkey, hvalue]
  rfl

/-! ## Files -/

/-- A line as the parser gets it, without the line feed. -/
def rawLine (line : EnvLine × LineEnding) : JsString :=
  match line.2 with
  | .lf => line.1.text
  | .crlf => line.1.text ++ [0x0D]

theorem parseLine_rawLine (line : EnvLine × LineEnding) :
    parseLine (rawLine line) = line.1.assignment?.map EnvAssignment.written := by
  obtain ⟨line, ending⟩ := line
  cases line with
  | blank text isBlank =>
    apply parseLine_blank
    cases ending with
    | lf => exact isBlank.blank
    | crlf => exact JsString.blank_append.mpr ⟨isBlank.blank, by simp; decide⟩
  | comment lead text isBlank _ =>
    cases ending with
    | lf => exact parseLine_comment isBlank.blank text
    | crlf =>
      rw [rawLine, EnvLine.text, List.append_assoc, List.cons_append]
      exact parseLine_comment isBlank.blank _
  | assignment written =>
    apply parseLine_assignment
    cases ending with
    | lf => exact dropReturn_plain written.plain_text
    | crlf => exact dropReturn_return written.text

theorem newline_notMem_rawLine (line : EnvLine × LineEnding) : newline ∉ rawLine line := by
  have htext : newline ∉ line.1.text := by
    cases line.1 with
    | blank text isBlank => exact isBlank.plain.newline_notMem
    | comment lead text isBlank oneLine =>
      rw [EnvLine.text, List.mem_append, List.mem_cons]
      rintro (hlead | hsign | hmem)
      · exact isBlank.plain.newline_notMem hlead
      · exact absurd hsign (by decide)
      · exact oneLine hmem
    | assignment written => exact written.plain_text.newline_notMem
  rw [rawLine]
  split
  · exact htext
  · rw [List.mem_append, List.mem_singleton]
    rintro (hmem | hsign)
    · exact htext hmem
    · exact absurd hsign (by decide)

namespace EnvFile

variable (file : EnvFile)

/-- All lines; the last one ends with the file. -/
def allLines : List (EnvLine × LineEnding) := file.lines ++ [(file.last, .lf)]

theorem text_eq_join : file.text = join newline (file.allLines.map rawLine) := by
  rw [text, allLines]
  induction file.lines with
  | nil => exact (join_singleton newline _).symm
  | cons line lines ih =>
    have hline : line.1.text ++ line.2.text = rawLine line ++ [newline] := by
      obtain ⟨line, ending⟩ := line
      cases ending <;> simp [rawLine, LineEnding.text]
    calc
      (line :: lines).flatMap (fun line ↦ line.1.text ++ line.2.text) ++ file.last.text =
          (rawLine line ++ [newline]) ++
            join newline ((lines ++ [(file.last, LineEnding.lf)]).map rawLine) := by
        rw [List.flatMap_cons, List.append_assoc, ih, hline]
      _ = join newline ((line :: lines ++ [(file.last, LineEnding.lf)]).map rawLine) := by
        rw [List.cons_append, List.map_cons, join_cons newline _ (by simp), List.append_assoc,
          List.singleton_append]

theorem splitOn_text : file.text.splitOn newline = file.allLines.map rawLine := by
  rw [text_eq_join, splitOn_join (by simp [allLines])]
  intro raw hraw
  obtain ⟨line, _, rfl⟩ := List.mem_map.mp hraw
  exact newline_notMem_rawLine line

/-- The loop over the lines writes what the parser reads of the assignments, in order. -/
theorem foldl_rawLine (lines : List (EnvLine × LineEnding)) (out : JsMap JsString JsString) :
    (lines.map rawLine).foldl readLine out =
      out.setAll ((lines.filterMap fun line ↦ line.1.assignment?).map EnvAssignment.written) := by
  induction lines generalizing out with
  | nil => rfl
  | cons line lines ih =>
    rw [List.map_cons, List.foldl_cons, ih, readLine, parseLine_rawLine, List.filterMap_cons]
    cases line.1.assignment? with
    | none => rfl
    | some assignment =>
      simp only [Option.map_some, List.map_cons, EnvAssignment.written, assignOwn,
        if_neg assignment.key_ordinary]
      rfl

theorem parseEnvFile_text : parseEnvFile file.text =
    JsMap.empty.setAll (file.assignments.map EnvAssignment.written) := by
  have hassignments : (file.allLines.filterMap fun line ↦ line.1.assignment?) =
      file.assignments := by
    rw [assignments, List.filterMap_append, List.filterMap_map, allLines, List.filterMap_append]
    rfl
  rw [parseEnvFile, splitOn_text, foldl_rawLine, hassignments]

theorem get_parseEnvFile (key : JsString) : (parseEnvFile file.text).get key =
    (file.lastAssignment key).map fun assignment ↦ readValue assignment.valueText := by
  have hwritten : file.assignments.map EnvAssignment.written =
      (file.assignments.map fun assignment ↦ (assignment.key, assignment)).map
        fun entry ↦ (entry.1, readValue entry.2.valueText) := by
    rw [List.map_map]
    rfl
  rw [parseEnvFile_text, JsMap.get_setAll, hwritten, lastAssignment,
    JsMap.lastWrite_map fun assignment : EnvAssignment ↦ readValue assignment.valueText]
  exact Option.or_none

/-- The parser returns the map that the file denotes. -/
def ReadExactly : Prop := ∀ key, (parseEnvFile file.text).get key = file.denoted key

/-- A file is read exactly if the comments behind the last values are announced. -/
theorem readExactly_iff : file.ReadExactly ↔
    ∀ key assignment, file.lastAssignment key = some assignment → assignment.Announced := by
  have hkey : ∀ key, (parseEnvFile file.text).get key = file.denoted key ↔
      ∀ assignment, file.lastAssignment key = some assignment → assignment.Announced := by
    intro key
    rw [get_parseEnvFile, denoted]
    cases file.lastAssignment key with
    | none => simp
    | some assignment => simp [assignment.readValue_valueText_iff]
  exact forall_congr' hkey

/-- `KEY= # note` gives the key its comment as a value. -/
def noted : EnvAssignment where
  lead := []
  exported := none
  key := js "KEY"
  value := .word [] (List.forall_mem_nil _) List.not_mem_nil ⟨List.not_mem_nil, List.not_mem_nil⟩
  blanks := js " "
  comment := some (js " note")
  lead_blank := List.forall_mem_nil _
  exported_blank := by
    intro gap hgap
    cases hgap
  key_identifier := ⟨0x4B, js "EY", rfl, rfl, List.all_eq_true.mp rfl⟩
  key_ordinary := by decide
  blanks_blank := List.forall_mem_singleton.mpr ⟨rfl, rfl⟩
  comment_plain := by
    intro text htext
    cases htext
    exact List.all_eq_true.mp rfl
  comment_apart := by
    intro _ _ hblanks
    cases hblanks

example : noted.text = js "KEY= # note" := by decide

theorem readExactly_counterexample :
    ¬ ReadExactly ⟨[(.assignment noted, .lf)], .blank [] (List.forall_mem_nil _)⟩ := by
  intro h
  have hkey := h (js "KEY")
  revert hkey
  decide +kernel

end EnvFile

end Cordyceps.Core
