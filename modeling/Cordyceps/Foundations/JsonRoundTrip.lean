import Cordyceps.Foundations.JsonLines
import Cordyceps.Foundations.JsonNumbers

/-!
# Written and read back

`JSON.parse` returns the value that `JSON.stringify` wrote, on one line or indented. Both printers
are one layout with different gaps, and white space is all that may stand in a gap.
-/

namespace Foundations.Json

/-! ## Strings -/

theorem hexDigit_hexUnit : ∀ digit < 16, hexDigit (hexUnit digit) = some (UInt16.ofNat digit) := by
  decide

theorem parseUnits_cons {unit : CodeUnit} (rest : JsString) (hquote : unit ≠ 0x22)
    (hcontrol : ¬ unit < 0x20) (hescape : unit ≠ 0x5C) :
    parseUnits (unit :: rest) = (parseUnits rest).map fun (tail, rest) ↦ (unit :: tail, rest) := by
  conv_lhs => rw [parseUnits.eq_def]
  simp only
  rw [if_neg (by simpa using hquote), if_neg hcontrol, if_neg (by simpa using hescape)]
  cases parseUnits rest <;> rfl

theorem parseUnits_escape {escape code : CodeUnit} (rest : JsString) (hcode : escape ≠ 0x75)
    (h : escapeUnit escape = some code) :
    parseUnits (0x5C :: escape :: rest) =
      (parseUnits rest).map fun (tail, rest) ↦ (code :: tail, rest) := by
  conv_lhs => rw [parseUnits.eq_def]
  simp only
  rw [if_neg (by decide), if_neg (by decide), if_pos (by decide), if_neg (by simpa using hcode), h]
  cases parseUnits rest <;> rfl

theorem parseUnits_escapeCode (unit : CodeUnit) (rest : JsString) :
    parseUnits (escapeCode unit ++ rest) =
      (parseUnits rest).map fun (tail, rest) ↦ (unit :: tail, rest) := by
  have hlt : unit.toNat < 65536 := unit.toNat_lt
  have hdigit : ∀ digit < 16, hexDigit (hexUnit digit) = some (UInt16.ofNat digit) := hexDigit_hexUnit
  have hunit : UInt16.ofNat (unit.toNat / 0x1000) * 0x1000 +
      UInt16.ofNat (unit.toNat / 0x100 % 0x10) * 0x100 +
      UInt16.ofNat (unit.toNat / 0x10 % 0x10) * 0x10 + UInt16.ofNat (unit.toNat % 0x10) = unit := by
    apply UInt16.toNat_inj.mp
    simp only [UInt16.toNat_add, UInt16.toNat_mul, UInt16.toNat_ofNat', UInt16.reduceToNat]
    omega
  simp only [escapeCode, List.cons_append, List.nil_append]
  rw [parseUnits, if_neg (by decide), if_neg (by decide), if_pos (by decide)]
  simp only [beq_self_eq_true, if_true]
  rw [hdigit _ (by omega), hdigit _ (by omega), hdigit _ (by omega), hdigit _ (by omega)]
  simp only [Option.bind_eq_bind, Option.bind_some, hunit]
  cases parseUnits rest <;> rfl

theorem surrogate_bounds {unit : CodeUnit}
    (h : isHighSurrogate unit = true ∨ isLowSurrogate unit = true) : 0xD800 ≤ unit.toNat := by
  simp only [isHighSurrogate, isLowSurrogate, Bool.and_eq_true, decide_eq_true_eq,
    UInt16.le_iff_toNat_le, UInt16.reduceToNat] at h
  omega

/-- Surrogates need no escape when they are a pair. -/
theorem parseUnits_surrogate {unit : CodeUnit} (rest : JsString)
    (h : isHighSurrogate unit = true ∨ isLowSurrogate unit = true) :
    parseUnits (unit :: rest) = (parseUnits rest).map fun (tail, rest) ↦ (unit :: tail, rest) := by
  have hbound := surrogate_bounds h
  refine parseUnits_cons rest ?_ ?_ ?_
  · rintro rfl
    exact absurd hbound (by decide)
  · simp only [UInt16.lt_iff_toNat_lt, UInt16.reduceToNat]
    omega
  · rintro rfl
    exact absurd hbound (by decide)

theorem parseUnits_end (rest : JsString) : parseUnits (0x22 :: rest) = some ([], rest) := by
  rw [parseUnits.eq_def]
  rfl

/-- The units of a quoted string, up to the quotation mark. -/
theorem parseUnits_quoteUnits (text rest : JsString) :
    parseUnits (quoteUnits text ++ 0x22 :: rest) = some (text, rest) := by
  fun_induction quoteUnits text with
  | case1 => exact parseUnits_end rest
  | case2 unit tail hunit ih =>
    have hescape : unit ≠ 0x75 ∧ escapeUnit unit = some unit := by
      rw [Bool.or_eq_true, beq_iff_eq, beq_iff_eq] at hunit
      obtain rfl | rfl := hunit <;> exact ⟨by decide, rfl⟩
    rw [List.cons_append, List.cons_append, parseUnits_escape _ hescape.1 hescape.2, ih]
    rfl
  | case3 | case4 | case5 | case6 | case7 =>
    rename_i hunit ih
    obtain rfl := eq_of_beq hunit
    rw [List.cons_append, List.cons_append, parseUnits_escape _ (by decide) rfl, ih]
    rfl
  | case8 =>
    rename_i ih
    rw [List.append_assoc, parseUnits_escapeCode, ih]
    rfl
  | case9 =>
    rw [parseUnits_escapeCode, parseUnits_end]
    rfl
  | case10 =>
    rename_i hhigh low tail hlow ih
    rw [List.cons_append, List.cons_append, parseUnits_surrogate _ (.inl hhigh),
      parseUnits_surrogate _ (.inr hlow), ih]
    rfl
  | case11 =>
    rename_i ih
    rw [List.append_assoc, parseUnits_escapeCode, ih]
    rfl
  | case12 =>
    rename_i unit tail hquote _ _ _ _ _ hcontrol _ ih
    simp only [Bool.or_eq_true, beq_iff_eq, decide_eq_true_eq, not_or] at hquote hcontrol
    rw [List.cons_append, parseUnits_cons _ hquote.1 hcontrol.1 hquote.2, ih]
    rfl

/-! ## White space -/

/-- Units that `JSON.parse` skips. -/
def isBlank (unit : CodeUnit) : Bool :=
  unit == 0x20 || unit == 0x09 || unit == 0x0A || unit == 0x0D

def Blank (text : JsString) : Prop := ∀ unit ∈ text, isBlank unit = true

theorem blank_nil : Blank [] := fun _ hunit ↦ absurd hunit List.not_mem_nil

theorem blank_lineBreak (depth : ℕ) : Blank (lineBreak depth) := by
  intro unit hunit
  obtain rfl | hspace := List.mem_cons.mp hunit
  · rfl
  · rw [List.eq_of_mem_replicate hspace]
    rfl

theorem skipSpace_append {gap : JsString} (h : Blank gap) (rest : JsString) :
    skipSpace (gap ++ rest) = skipSpace rest :=
  List.dropWhile_append_of_pos h

theorem skipSpace_cons {unit : CodeUnit} (rest : JsString) (h : isBlank unit = false) :
    skipSpace (unit :: rest) = unit :: rest :=
  List.dropWhile_cons_of_neg (Bool.not_eq_true _ ▸ h)

theorem skipSpace_mark {gap : JsString} {unit : CodeUnit} (hgap : Blank gap)
    (h : isBlank unit = false) (rest : JsString) :
    skipSpace (gap ++ unit :: rest) = unit :: rest := by
  rw [skipSpace_append hgap, skipSpace_cons rest h]

theorem endsNumber_mark {gap : JsString} {mark : CodeUnit} (hgap : Blank gap)
    (hmark : mark = 0x2C ∨ mark = 0x5D ∨ mark = 0x7D) (rest : JsString) :
    EndsNumber (gap ++ mark :: rest) := by
  intro unit hunit
  cases gap with
  | nil =>
    cases hunit
    obtain rfl | rfl | rfl := hmark <;> decide
  | cons head tail =>
    cases hunit
    have hblank := hgap unit List.mem_cons_self
    simp only [isBlank, Bool.or_eq_true, beq_iff_eq] at hblank
    obtain ((rfl | rfl) | rfl) | rfl := hblank <;> decide

/-! ## Layouts -/

/-- What stands wherever a line may be broken, which depends on the depth, and behind a colon. -/
structure Layout where
  gap : ℕ → JsString
  space : JsString
  blank_gap : ∀ depth, Blank (gap depth)
  blank_space : Blank space

def oneLine : Layout := ⟨fun _ ↦ [], [], fun _ ↦ blank_nil, blank_nil⟩

def indented : Layout where
  gap := lineBreak
  space := js " "
  blank_gap := blank_lineBreak
  blank_space unit hunit := by
    rw [List.mem_singleton.mp hunit]
    rfl

@[simp]
theorem gap_oneLine (depth : ℕ) : oneLine.gap depth = [] := rfl

@[simp]
theorem space_oneLine : oneLine.space = [] := rfl

theorem gap_indented (depth : ℕ) : indented.gap depth = lineBreak depth := rfl

theorem space_indented : indented.space = js " " := rfl

mutual

def layOut (layout : Layout) (depth : ℕ) : Json → JsString
  | .arr elements =>
    if elements.isEmpty then js "[]"
    else js "[" ++ layout.gap (depth + 1) ++ layOutElements layout (depth + 1) elements ++ layout.gap depth ++
      js "]"
  | .obj members =>
    if members.isEmpty then js "\x7b\x7d"
    else js "\x7b" ++ layout.gap (depth + 1) ++ layOutMembers layout (depth + 1) members ++ layout.gap depth ++
      js "\x7d"
  | .null => stringify .null
  | .bool value => stringify (.bool value)
  | .num value => stringify (.num value)
  | .str value => stringify (.str value)

def layOutElements (layout : Layout) (depth : ℕ) : List Json → JsString
  | [] => []
  | value :: rest =>
    let text := layOut layout depth value
    if rest.isEmpty then text
    else text ++ js "," ++ layout.gap depth ++ layOutElements layout depth rest

def layOutMembers (layout : Layout) (depth : ℕ) : List (JsString × Json) → JsString
  | [] => []
  | (key, value) :: rest =>
    let text := quote key ++ js ":" ++ layout.space ++ layOut layout depth value
    if rest.isEmpty then text
    else text ++ js "," ++ layout.gap depth ++ layOutMembers layout depth rest

end

mutual

theorem stringify_eq (depth : ℕ) :
    ∀ value : Json, stringify value = layOut oneLine depth value
  | .arr elements => by
    rw [stringify, layOut, stringifyElements_eq (depth + 1) elements]
    cases elements <;> simp [layOutElements, js]
  | .obj members => by
    rw [stringify, layOut, stringifyMembers_eq (depth + 1) members]
    cases members <;> simp [layOutMembers, js]
  | .null | .bool _ | .num _ | .str _ => by rw [layOut]

theorem stringifyElements_eq (depth : ℕ) : ∀ elements : List Json,
    stringifyElements elements = layOutElements oneLine depth elements
  | [] => rfl
  | value :: rest => by
    rw [stringifyElements, layOutElements, stringify_eq depth value, stringifyElements_eq depth rest]
    simp

theorem stringifyMembers_eq (depth : ℕ) : ∀ members : List (JsString × Json),
    stringifyMembers members = layOutMembers oneLine depth members
  | [] => rfl
  | (key, value) :: rest => by
    rw [stringifyMembers, layOutMembers, stringify_eq depth value, stringifyMembers_eq depth rest]
    simp

end

mutual

theorem stringifyIndented_eq (depth : ℕ) :
    ∀ value : Json, stringifyIndented depth value = layOut indented depth value
  | .arr elements => by
    rw [stringifyIndented, layOut, indentElements_eq (depth + 1) elements, gap_indented, gap_indented]
  | .obj members => by
    rw [stringifyIndented, layOut, indentMembers_eq (depth + 1) members, gap_indented, gap_indented]
  | .null | .bool _ | .num _ | .str _ => by rw [layOut, stringifyIndented]

theorem indentElements_eq (depth : ℕ) : ∀ elements : List Json,
    indentElements depth elements = layOutElements indented depth elements
  | [] => rfl
  | value :: rest => by
    rw [indentElements, layOutElements, stringifyIndented_eq depth value, indentElements_eq depth rest,
      gap_indented]

theorem indentMembers_eq (depth : ℕ) : ∀ members : List (JsString × Json),
    indentMembers depth members = layOutMembers indented depth members
  | [] => rfl
  | (key, value) :: rest => by
    have hcolon : js ": " = js ":" ++ js " " := rfl
    rw [indentMembers, layOutMembers, stringifyIndented_eq depth value, indentMembers_eq depth rest,
      gap_indented, space_indented, hcolon, ← List.append_assoc]

end

/-! ## Values -/

mutual

/-- The numbers are decimal fractions, and the keys of an object differ. -/
def Exact : Json → Prop
  | .null | .bool _ | .str _ => True
  | .num value => DecimalFraction 400 value
  | .arr elements => ExactElements elements
  | .obj members => (members.map Prod.fst).Nodup ∧ ExactMembers members

def ExactElements : List Json → Prop
  | [] => True
  | value :: rest => Exact value ∧ ExactElements rest

def ExactMembers : List (JsString × Json) → Prop
  | [] => True
  | (_, value) :: rest => Exact value ∧ ExactMembers rest

end

/-- A number is read by its first unit. -/
theorem head_of_parseNumber {text rest : JsString} {value : ℚ}
    (h : parseNumber text = some (value, rest)) :
    ∃ unit tail, text = unit :: tail ∧ (unit = 0x2D ∨ CodeUnit.isDigit unit = true) := by
  cases text with
  | nil => simp [parseNumber] at h
  | cons unit tail =>
    refine ⟨unit, tail, rfl, ?_⟩
    by_contra hnot
    rw [not_or] at hnot
    simp [parseNumber, hnot.1, hnot.2] at h

theorem parseValue_gap {gap : JsString} (hgap : Blank gap) (bound : ℕ) (text : JsString) :
    parseValue bound (gap ++ text) = parseValue bound text := by
  cases bound with
  | zero => rfl
  | succ bound => rw [parseValue, parseValue, skipSpace_append hgap]

theorem parseValue_str (bound : ℕ) (text rest : JsString) :
    parseValue (bound + 1) (quote text ++ rest) = some (.str text, rest) := by
  have hquote : quote text ++ rest = 0x22 :: (quoteUnits text ++ 0x22 :: rest) := by
    simp [quote, js]
  rw [hquote, parseValue, skipSpace_cons _ rfl]
  simp only
  rw [if_pos (by decide), parseUnits_quoteUnits, Option.map_some]

theorem parseValue_num (bound : ℕ) {value : ℚ} {rest : JsString} (h : DecimalFraction 400 value)
    (hrest : EndsNumber rest) :
    parseValue (bound + 1) (numberText value ++ rest) = some (.num value, rest) := by
  have hparse := parseNumber_numberText h hrest
  obtain ⟨unit, tail, htext, hunit⟩ := head_of_parseNumber hparse
  rw [htext] at hparse ⊢
  have hother : ∀ other : CodeUnit, other = 0x20 ∨ other = 0x09 ∨ other = 0x0A ∨ other = 0x0D ∨
      other = 0x22 ∨ other = 0x5B ∨ other = 0x7B ∨ other = 0x74 ∨ other = 0x66 ∨ other = 0x6E →
        (unit == other) = false := by
    intro other hmember
    rw [beq_eq_false_iff_ne]
    rintro rfl
    obtain rfl | hdigit := hunit
    · revert hmember
      decide
    · obtain rfl | rfl | rfl | rfl | rfl | rfl | rfl | rfl | rfl | rfl := hmember <;>
        exact absurd hdigit (by decide)
  rw [parseValue, skipSpace_cons tail (by simp [isBlank, hother])]
  simp [hother, hparse]

theorem layOut_ne (layout : Layout) (depth : ℕ) {value : Json}
    (h : Exact value) : ∃ unit tail, layOut layout depth value = unit :: tail ∧ isBlank unit = false ∧
      unit ≠ 0x5D ∧ unit ≠ 0x7D := by
  cases value with
  | null => exact ⟨_, _, by rw [layOut, stringify]; rfl, by decide, by decide, by decide⟩
  | bool value =>
    cases value <;> exact ⟨_, _, by rw [layOut, stringify]; rfl, by decide, by decide, by decide⟩
  | str value => exact ⟨_, _, by rw [layOut, stringify]; rfl, by decide, by decide, by decide⟩
  | num value =>
    have hparse := @parseNumber_numberText value [] h (fun unit hunit ↦ by cases hunit)
    obtain ⟨unit, tail, htext, hunit⟩ := head_of_parseNumber hparse
    rw [List.append_nil] at htext
    refine ⟨unit, tail, by rw [layOut, stringify, htext], ?_⟩
    obtain rfl | hdigit := hunit
    · decide
    · refine ⟨?_, ?_, ?_⟩
      · rw [Bool.eq_false_iff]
        intro hblank
        simp only [isBlank, Bool.or_eq_true, beq_iff_eq] at hblank
        obtain ((rfl | rfl) | rfl) | rfl := hblank <;> exact absurd hdigit (by decide)
      · rintro rfl
        exact absurd hdigit (by decide)
      · rintro rfl
        exact absurd hdigit (by decide)
  | arr elements =>
    cases elements <;> exact ⟨_, _, by rw [layOut]; rfl, by decide, by decide, by decide⟩
  | obj members =>
    cases members <;> exact ⟨_, _, by rw [layOut]; rfl, by decide, by decide, by decide⟩

theorem layOutElements_ne (layout : Layout) (depth : ℕ) {value : Json}
    (rest : List Json) (h : Exact value) :
    ∃ unit tail, layOutElements layout depth (value :: rest) = unit :: tail ∧
      isBlank unit = false ∧ unit ≠ 0x5D := by
  obtain ⟨unit, tail, htext, hblank, hbracket, _⟩ := layOut_ne layout depth h
  rw [layOutElements, htext]
  cases rest with
  | nil => exact ⟨unit, tail, rfl, hblank, hbracket⟩
  | cons next rest => exact ⟨unit, _, rfl, hblank, hbracket⟩

theorem layOutMembers_ne (layout : Layout) (depth : ℕ)
    (member : JsString × Json) (rest : List (JsString × Json)) :
    ∃ tail, layOutMembers layout depth (member :: rest) = 0x22 :: tail := by
  obtain ⟨key, value⟩ := member
  rw [layOutMembers]
  cases rest with
  | nil => exact ⟨_, rfl⟩
  | cons next rest => exact ⟨_, rfl⟩

theorem insert_of_notMem {key : JsString} (value : Json) {members : List (JsString × Json)}
    (h : key ∉ members.map Prod.fst) : insert key value members = members ++ [(key, value)] := by
  induction members with
  | nil => rfl
  | cons member rest ih =>
    obtain ⟨name, old⟩ := member
    rw [List.map_cons, List.mem_cons, not_or] at h
    rw [insert, if_neg (Ne.symm h.1), ih h.2, List.cons_append]

theorem parseValue_null (bound : ℕ) (rest : JsString) :
    parseValue (bound + 1) (js "null" ++ rest) = some (.null, rest) := by
  have hskip : skipSpace (js "null" ++ rest) = 0x6E :: ([0x75, 0x6C, 0x6C] ++ rest) :=
    skipSpace_cons _ rfl
  rw [parseValue, hskip]
  rfl

theorem parseValue_bool (bound : ℕ) (value : Bool) (rest : JsString) :
    parseValue (bound + 1) ((if value then js "true" else js "false") ++ rest) =
      some (.bool value, rest) := by
  cases value with
  | false =>
    have hskip : skipSpace (js "false" ++ rest) = 0x66 :: ([0x61, 0x6C, 0x73, 0x65] ++ rest) :=
      skipSpace_cons _ rfl
    rw [if_neg Bool.false_ne_true, parseValue, hskip]
    rfl
  | true =>
    have hskip : skipSpace (js "true" ++ rest) = 0x74 :: ([0x72, 0x75, 0x65] ++ rest) :=
      skipSpace_cons _ rfl
    rw [if_pos rfl, parseValue, hskip]
    rfl

theorem parseElements_gap {before : JsString} (hbefore : Blank before) (bound : ℕ) (text : JsString) :
    parseElements bound (before ++ text) = parseElements bound text := by
  cases bound with
  | zero => rfl
  | succ bound => rw [parseElements, parseElements, parseValue_gap hbefore]

theorem parseMembers_gap {before : JsString} (hbefore : Blank before) (bound : ℕ)
    (done : List (JsString × Json)) (text : JsString) :
    parseMembers bound done (before ++ text) = parseMembers bound done text := by
  cases bound with
  | zero => rfl
  | succ bound => rw [parseMembers, parseMembers, skipSpace_append hbefore]

/-- An array that is not empty. -/
theorem parseValue_arr {bound : ℕ} {before body tail : JsString} {unit : CodeUnit}
    {elements : List Json} (hbefore : Blank before) (hunit : isBlank unit = false)
    (hbracket : unit ≠ 0x5D) (h : parseElements bound (unit :: body) = some (elements, tail)) :
    parseValue (bound + 1) (js "[" ++ (before ++ unit :: body)) = some (.arr elements, tail) := by
  have hskip : skipSpace (js "[" ++ (before ++ unit :: body)) = 0x5B :: (before ++ unit :: body) :=
    skipSpace_cons _ rfl
  rw [parseValue, hskip]
  simp only
  rw [if_neg (by decide), if_pos (by decide), skipSpace_mark hbefore hunit]
  simp only
  rw [if_neg (by simpa using hbracket), parseElements_gap hbefore, h, Option.map_some]

/-- An object that is not empty. -/
theorem parseValue_obj {bound : ℕ} {before body tail : JsString} {members : List (JsString × Json)}
    (hbefore : Blank before) (h : parseMembers bound [] (0x22 :: body) = some (members, tail)) :
    parseValue (bound + 1) (js "\x7b" ++ (before ++ 0x22 :: body)) = some (.obj members, tail) := by
  have hskip : skipSpace (js "\x7b" ++ (before ++ 0x22 :: body)) = 0x7B :: (before ++ 0x22 :: body) :=
    skipSpace_cons _ rfl
  rw [parseValue, hskip]
  simp only
  rw [if_neg (by decide), if_neg (by decide), if_pos (by decide), skipSpace_mark hbefore rfl]
  simp only
  rw [if_neg (by decide), parseMembers_gap hbefore, h, Option.map_some]

theorem parseElements_last {bound : ℕ} {text before tail : JsString} {value : Json}
    (hbefore : Blank before) (h : parseValue bound text = some (value, before ++ 0x5D :: tail)) :
    parseElements (bound + 1) text = some ([value], tail) := by
  rw [parseElements, h]
  simp only [Option.bind_eq_bind, Option.bind_some]
  rw [skipSpace_mark hbefore rfl]
  rfl

theorem parseElements_more {bound : ℕ} {text tail : JsString} {value : Json}
    (h : parseValue bound text = some (value, 0x2C :: tail)) :
    parseElements (bound + 1) text =
      (parseElements bound tail).map fun (values, rest) ↦ (value :: values, rest) := by
  rw [parseElements, h]
  simp only [Option.bind_eq_bind, Option.bind_some]
  rw [skipSpace_cons tail rfl]
  simp only [beq_self_eq_true, if_true]
  cases parseElements bound tail <;> rfl

/-- A member, up to the mark behind it. -/
theorem parseMembers_member {bound : ℕ} {key body before tail : JsString} {mark : CodeUnit}
    {value : Json} (done : List (JsString × Json)) (hbefore : Blank before)
    (hmark : isBlank mark = false)
    (h : parseValue bound body = some (value, before ++ mark :: tail)) :
    parseMembers (bound + 1) done (quote key ++ js ":" ++ body) =
      if mark == 0x2C then parseMembers bound (insert key value done) tail
      else if mark == 0x7D then some (insert key value done, tail) else none := by
  have hquote : quote key ++ js ":" ++ body = 0x22 :: (quoteUnits key ++ 0x22 :: (js ":" ++ body)) := by
    simp [quote, js]
  have hcolon : skipSpace (js ":" ++ body) = 0x3A :: body := skipSpace_cons _ rfl
  rw [hquote, parseMembers, skipSpace_cons _ rfl]
  simp only
  rw [if_pos (by decide), parseUnits_quoteUnits]
  simp only [Option.bind_eq_bind, Option.bind_some]
  rw [hcolon]
  simp only [beq_self_eq_true, if_true, h, Option.bind_some]
  rw [skipSpace_mark hbefore hmark]

variable (layout : Layout)

mutual

theorem parseValue_layOut (depth : ℕ) : ∀ (value : Json) (bound : ℕ) (rest : JsString),
    Exact value → EndsNumber rest → 2 * (layOut layout depth value).length + 1 ≤ bound →
      parseValue bound (layOut layout depth value ++ rest) = some (value, rest)
  | .null, bound + 1, rest, _, _, _ => by rw [layOut, stringify, parseValue_null]
  | .bool value, bound + 1, rest, _, _, _ => by rw [layOut, stringify, parseValue_bool]
  | .num value, bound + 1, rest, h, hrest, _ => by
    rw [layOut, stringify, parseValue_num bound h hrest]
  | .str value, bound + 1, rest, _, _, _ => by rw [layOut, stringify, parseValue_str]
  | .arr [], bound + 1, rest, _, _, _ => by
    have hskip : skipSpace (js "[]" ++ rest) = 0x5B :: 0x5D :: rest := skipSpace_cons _ rfl
    rw [layOut, List.isEmpty_nil, if_pos rfl, parseValue, hskip]
    rfl
  | .arr (value :: others), bound + 1, rest, h, hrest, hbound => by
    rw [layOut, List.isEmpty_cons, if_neg Bool.false_ne_true] at hbound ⊢
    simp only [List.length_append] at hbound
    have hbracket : (js "[").length = 1 := rfl
    have helements := parseElements_layOut (depth + 1) (value :: others) bound (layout.gap depth) rest
      (List.cons_ne_nil _ _) h (layout.blank_gap depth) (by omega)
    obtain ⟨unit, tail, htext, hblank, hclose⟩ :=
      layOutElements_ne layout (depth + 1) others h.1
    rw [htext] at helements ⊢
    simp only [List.append_assoc]
    exact parseValue_arr (layout.blank_gap (depth + 1)) hblank hclose helements
  | .obj [], bound + 1, rest, _, _, _ => by
    have hskip : skipSpace (js "\x7b\x7d" ++ rest) = 0x7B :: 0x7D :: rest := skipSpace_cons _ rfl
    rw [layOut, List.isEmpty_nil, if_pos rfl, parseValue, hskip]
    rfl
  | .obj (member :: others), bound + 1, rest, h, hrest, hbound => by
    rw [layOut, List.isEmpty_cons, if_neg Bool.false_ne_true] at hbound ⊢
    simp only [List.length_append] at hbound
    have hbrace : (js "\x7b").length = 1 := rfl
    have hmembers := parseMembers_layOut (depth + 1) (member :: others) [] bound (layout.gap depth) rest
      (List.cons_ne_nil _ _) h.1 h.2 (layout.blank_gap depth) (by omega)
    obtain ⟨tail, htext⟩ := layOutMembers_ne layout (depth + 1) member others
    rw [htext] at hmembers ⊢
    simp only [List.append_assoc]
    exact parseValue_obj (layout.blank_gap (depth + 1)) hmembers

theorem parseElements_layOut (depth : ℕ) : ∀ (elements : List Json) (bound : ℕ) (before tail : JsString),
    elements ≠ [] → ExactElements elements → Blank before →
      2 * (layOutElements layout depth elements).length + 2 ≤ bound →
        parseElements bound (layOutElements layout depth elements ++ (before ++ 0x5D :: tail)) =
          some (elements, tail)
  | [value], bound + 1, before, tail, _, h, hbefore, hbound => by
    rw [layOutElements, List.isEmpty_nil, if_pos rfl] at hbound ⊢
    exact parseElements_last hbefore (parseValue_layOut depth value bound _ h.1
      (endsNumber_mark hbefore (.inr (.inl rfl)) tail) (by omega))
  | value :: next :: others, bound + 1, before, tail, _, h, hbefore, hbound => by
    rw [layOutElements, List.isEmpty_cons, if_neg Bool.false_ne_true] at hbound ⊢
    simp only [List.length_append] at hbound
    have hcomma : (js ",").length = 1 := rfl
    simp only [List.append_assoc]
    have hvalue := parseValue_layOut depth value bound
      (0x2C :: (layout.gap depth ++ (layOutElements layout depth (next :: others) ++
        (before ++ 0x5D :: tail)))) h.1 (endsNumber_mark blank_nil (.inl rfl) _) (by omega)
    refine (parseElements_more hvalue).trans ?_
    rw [parseElements_gap (layout.blank_gap depth), parseElements_layOut depth (next :: others) bound before tail
      (List.cons_ne_nil _ _) h.2 hbefore (by omega), Option.map_some]

theorem parseMembers_layOut (depth : ℕ) : ∀ (members done : List (JsString × Json)) (bound : ℕ)
    (before tail : JsString),
    members ≠ [] → ((done ++ members).map Prod.fst).Nodup → ExactMembers members → Blank before →
      2 * (layOutMembers layout depth members).length + 2 ≤ bound →
        parseMembers bound done (layOutMembers layout depth members ++ (before ++ 0x7D :: tail)) =
          some (done ++ members, tail)
  | [(key, value)], done, bound + 1, before, tail, _, hnodup, h, hbefore, hbound => by
    have hfresh : key ∉ done.map Prod.fst := by
      rw [List.map_append, List.nodup_append] at hnodup
      exact fun hmem ↦ hnodup.2.2 key hmem key (by simp) rfl
    rw [layOutMembers, List.isEmpty_nil, if_pos rfl] at hbound ⊢
    simp only [List.length_append] at hbound
    have hvalue := parseValue_layOut depth value bound (before ++ 0x7D :: tail) h.1
      (endsNumber_mark hbefore (.inr (.inr rfl)) tail) (by omega)
    rw [← parseValue_gap layout.blank_space] at hvalue
    rw [List.append_assoc, List.append_assoc _ layout.space]
    refine (parseMembers_member done hbefore rfl hvalue).trans ?_
    rw [insert_of_notMem value hfresh]
    rfl
  | (key, value) :: next :: others, done, bound + 1, before, tail, _, hnodup, h, hbefore, hbound => by
    have hfresh : key ∉ done.map Prod.fst := by
      rw [List.map_append, List.nodup_append] at hnodup
      exact fun hmem ↦ hnodup.2.2 key hmem key (by simp) rfl
    rw [layOutMembers, List.isEmpty_cons, if_neg Bool.false_ne_true] at hbound ⊢
    simp only [List.length_append] at hbound
    have hcomma : (js ",").length = 1 := rfl
    have hvalue := parseValue_layOut depth value bound
      ([] ++ 0x2C :: (layout.gap depth ++ (layOutMembers layout depth (next :: others) ++
        (before ++ 0x7D :: tail)))) h.1 (endsNumber_mark blank_nil (.inl rfl) _) (by omega)
    rw [← parseValue_gap layout.blank_space] at hvalue
    have hmember := @parseMembers_member _ key _ _ _ _ _ done blank_nil rfl hvalue
    rw [if_pos (beq_self_eq_true _), insert_of_notMem value hfresh, parseMembers_gap (layout.blank_gap depth),
      parseMembers_layOut depth (next :: others) (done ++ [(key, value)]) bound before tail
        (List.cons_ne_nil _ _) (by simpa using hnodup) h.2 hbefore (by omega)] at hmember
    simp only [List.append_assoc] at hmember ⊢
    exact hmember

end

/-- **Written and read back.** -/
theorem parse_layOut {value : Json} (h : Exact value) (depth : ℕ) :
    parse (layOut layout depth value) = some value := by
  have hvalue := parseValue_layOut layout depth value
    (2 * (layOut layout depth value).length + 1) [] h (fun unit hunit ↦ by cases hunit) le_rfl
  rw [List.append_nil] at hvalue
  rw [parse, hvalue]
  rfl

theorem parse_stringify {value : Json} (h : Exact value) : parse (stringify value) = some value := by
  rw [stringify_eq 0 value]
  exact parse_layOut oneLine h 0

theorem parse_stringifyIndented {value : Json} (h : Exact value) :
    parse (stringifyIndented 0 value) = some value := by
  rw [stringifyIndented_eq 0 value]
  exact parse_layOut indented h 0

end Foundations.Json
