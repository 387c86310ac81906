import Cordyceps.Foundations.Trimming
import Cordyceps.Foundations.RegexRun
import Cordyceps.Foundations.Json
import Mathlib.Data.Prod.Lex
import Mathlib.Order.Interval.Set.OrdConnected

/-!
# Versions and ranges

`core/semver.ts`: versions `X.Y.Z` with an ignored suffix, and ranges of comparison terms that
must all hold. A range holds of an interval of versions, in the order by major, minor and patch
number, and ranges one behind the other hold of what both hold of.
-/

namespace Cordyceps.Core

open Foundations

/-! ## The source -/

structure ParsedVersion where
  major : ℕ
  minor : ℕ
  patch : ℕ
  deriving DecidableEq, Repr

/-- `[0-9A-Za-z.-]`. -/
def isSuffixUnit (unit : CodeUnit) : Bool :=
  unit.isDigit || unit.isLetter || unit == 0x2E || unit == 0x2D

/-- `(?:[-+][0-9A-Za-z.-]+)?`. -/
def suffixPattern : Regex :=
  Regex.optional (.seq (.single (CodeUnit.among "-+")) (Regex.repeated1 true isSuffixUnit))

/-- `/^(\d+)\.(\d+)\.(\d+)(?:[-+][0-9A-Za-z.-]+)?$/`. -/
def versionPattern : Regex :=
  Regex.cat [.lineStart false, .group 1 Regex.digits, .single (· == 0x2E), .group 2 Regex.digits,
    .single (· == 0x2E), .group 3 Regex.digits, suffixPattern, .lineEnd false]

def parseVersion (v : JsString) : Option ParsedVersion :=
  (versionPattern.exec v).map fun m ↦
    ⟨Json.digitsValue (m.text 1), Json.digitsValue (m.text 2), Json.digitsValue (m.text 3)⟩

def compareVersions (a b : ParsedVersion) : ℤ :=
  if a.major ≠ b.major then a.major - b.major
  else if a.minor ≠ b.minor then a.minor - b.minor
  else a.patch - b.patch

/-- `/^(>=|<=|>|<|=)?(\d+\.\d+\.\d+(?:[-+][0-9A-Za-z.-]+)?)$/`. -/
def termPattern : Regex :=
  Regex.cat [.lineStart false,
    Regex.optional (.group 1 (Regex.anyOf [Regex.literal ">=", Regex.literal "<=",
      Regex.literal ">", Regex.literal "<", Regex.literal "="])),
    .group 2 (Regex.cat [Regex.digits, .single (· == 0x2E), Regex.digits, .single (· == 0x2E),
      Regex.digits, suffixPattern]),
    .lineEnd false]

/-- The `switch` over the operator: whether it lets the comparison pass. -/
def allows (op : JsString) (cmp : ℤ) : Bool :=
  if op = js ">=" then !decide (cmp < 0)
  else if op = js ">" then !decide (cmp ≤ 0)
  else if op = js "<=" then !decide (0 < cmp)
  else if op = js "<" then !decide (0 ≤ cmp)
  else if op = js "=" then !decide (cmp ≠ 0)
  else true

/-- The body of the loop over the terms. -/
def satisfiesTerm (v : ParsedVersion) (term : JsString) : Bool :=
  match termPattern.exec term with
  | none => false
  | some m =>
    let op := ((m.capture 1).filter (!·.isEmpty)).getD (js "=")
    match parseVersion (m.text 2) with
    | none => false
    | some target => allows op (compareVersions v target)

/-- `text.split(/\s+/).filter(Boolean)`. -/
def words (text : JsString) : List JsString :=
  (text.splitOnP JsString.isSpace).filter fun word ↦ !word.isEmpty

/-- `range.trim().split(/\s+/).filter(Boolean)`. -/
def rangeTerms (range : JsString) : List JsString := words (JsString.trim range)

def satisfies (version range : JsString) : Bool :=
  match parseVersion version with
  | none => false
  | some v =>
    let terms := rangeTerms range
    if terms.length = 0 then false else terms.all (satisfiesTerm v)

/-! ## The order of versions -/

namespace ParsedVersion

def key (v : ParsedVersion) : ℕ ×ₗ ℕ ×ₗ ℕ := toLex (v.major, toLex (v.minor, v.patch))

theorem key_injective : Function.Injective key := by
  intro a b h
  cases a
  cases b
  simpa [key] using h

/-- The order by major, minor and patch number. -/
instance : LinearOrder ParsedVersion := LinearOrder.lift' key key_injective

theorem lt_iff (a b : ParsedVersion) : a < b ↔
    a.major < b.major ∨ a.major = b.major ∧
      (a.minor < b.minor ∨ a.minor = b.minor ∧ a.patch < b.patch) := by
  change a.key < b.key ↔ _
  rw [key, key, Prod.Lex.toLex_lt_toLex, Prod.Lex.toLex_lt_toLex]

end ParsedVersion

theorem compareVersions_neg_iff (a b : ParsedVersion) : compareVersions a b < 0 ↔ a < b := by
  rw [compareVersions, ParsedVersion.lt_iff]
  split
  · omega
  · split <;> omega

theorem compareVersions_swap (a b : ParsedVersion) : compareVersions b a = -compareVersions a b := by
  simp only [compareVersions, ne_comm (a := b.major), ne_comm (a := b.minor)]
  split
  · omega
  · split <;> omega

theorem compareVersions_pos_iff (a b : ParsedVersion) : 0 < compareVersions a b ↔ b < a := by
  rw [← compareVersions_neg_iff b a, compareVersions_swap a b, neg_lt_zero]

theorem compareVersions_eq_zero_iff (a b : ParsedVersion) : compareVersions a b = 0 ↔ a = b := by
  rw [eq_iff_le_not_lt, ← not_lt, compareVersions_pos_iff, compareVersions_neg_iff,
    eq_iff_le_not_lt, not_lt]

/-! ## The versions of a range -/

/-- The versions that an operator allows next to a target. -/
def allowed (op : JsString) (target : ParsedVersion) : Set ParsedVersion :=
  { v | allows op (compareVersions v target) = true }

theorem allowed_ordConnected (op : JsString) (target : ParsedVersion) :
    (allowed op target).OrdConnected := by
  by_cases hge : op = js ">="
  · have hset : allowed op target = Set.Ici target := by
      ext v
      simp [allowed, allows, hge, compareVersions_neg_iff]
    exact hset ▸ Set.ordConnected_Ici
  by_cases hgt : op = js ">"
  · have hset : allowed op target = Set.Ioi target := by
      ext v
      simp [allowed, allows, hgt, compareVersions_pos_iff, show js ">" ≠ js ">=" by decide]
    exact hset ▸ Set.ordConnected_Ioi
  by_cases hle : op = js "<="
  · have hset : allowed op target = Set.Iic target := by
      ext v
      simp [allowed, allows, hle, compareVersions_pos_iff, show js "<=" ≠ js ">=" by decide,
        show js "<=" ≠ js ">" by decide]
    exact hset ▸ Set.ordConnected_Iic
  by_cases hlt : op = js "<"
  · have hset : allowed op target = Set.Iio target := by
      ext v
      simp [allowed, allows, hlt, compareVersions_neg_iff, show js "<" ≠ js ">=" by decide,
        show js "<" ≠ js ">" by decide, show js "<" ≠ js "<=" by decide]
    exact hset ▸ Set.ordConnected_Iio
  by_cases heq : op = js "="
  · have hset : allowed op target = {target} := by
      ext v
      simp [allowed, allows, heq, compareVersions_eq_zero_iff, show js "=" ≠ js ">=" by decide,
        show js "=" ≠ js ">" by decide, show js "=" ≠ js "<=" by decide,
        show js "=" ≠ js "<" by decide]
    exact hset ▸ Set.ordConnected_singleton
  · have hset : allowed op target = Set.univ := by
      ext v
      simp [allowed, allows, hge, hgt, hle, hlt, heq]
    exact hset ▸ Set.ordConnected_univ

/-- The versions that a term holds of. -/
def termSet (term : JsString) : Set ParsedVersion := { v | satisfiesTerm v term = true }

theorem termSet_ordConnected (term : JsString) : (termSet term).OrdConnected := by
  rw [termSet]
  simp only [satisfiesTerm]
  cases termPattern.exec term with
  | none => simpa using Set.ordConnected_empty
  | some m =>
    cases htarget : parseVersion (m.text 2) with
    | none => simpa [htarget] using Set.ordConnected_empty
    | some target =>
      simp only [htarget]
      exact allowed_ordConnected _ target

/-- The versions that a range holds of: what all its terms hold of, if there are any. -/
def rangeSet (range : JsString) : Set ParsedVersion :=
  { v | rangeTerms range ≠ [] ∧ ∀ term ∈ rangeTerms range, v ∈ termSet term }

theorem rangeSet_ordConnected (range : JsString) : (rangeSet range).OrdConnected := by
  by_cases hterms : rangeTerms range = []
  · have hset : rangeSet range = ∅ := by
      ext v
      simp [rangeSet, hterms]
    exact hset ▸ Set.ordConnected_empty
  · have hset : rangeSet range = ⋂ term ∈ rangeTerms range, termSet term := by
      ext v
      simp [rangeSet, hterms]
    exact hset ▸ Set.ordConnected_biInter fun term _ ↦ termSet_ordConnected term

theorem satisfies_iff {version : JsString} {v : ParsedVersion} (h : parseVersion version = some v)
    (range : JsString) : satisfies version range = true ↔ v ∈ rangeSet range := by
  simp [satisfies, h, rangeSet, termSet, List.all_eq_true]

/-! ## Ranges one behind the other -/

theorem words_append_cons {unit : CodeUnit} (h : JsString.isSpace unit = true)
    (first last : JsString) : words (first ++ unit :: last) = words first ++ words last := by
  rw [words, List.splitOnP_append_cons _ _ h, List.filter_append]
  rfl

theorem words_blank {text : JsString} (h : JsString.Blank text) : words text = [] := by
  induction text with
  | nil => rfl
  | cons unit text ih =>
    obtain ⟨hunit, htext⟩ := JsString.blank_cons.mp h
    have hsplit := words_append_cons hunit [] text
    rw [ih htext] at hsplit
    exact hsplit

theorem words_blank_append {lead : JsString} (h : JsString.Blank lead) (text : JsString) :
    words (lead ++ text) = words text := by
  induction lead with
  | nil => rfl
  | cons unit lead ih =>
    obtain ⟨hunit, hlead⟩ := JsString.blank_cons.mp h
    have hsplit := words_append_cons hunit [] (lead ++ text)
    rw [ih hlead] at hsplit
    exact hsplit

theorem words_append_blank (text : JsString) {tail : JsString} (h : JsString.Blank tail) :
    words (text ++ tail) = words text := by
  cases tail with
  | nil => rw [List.append_nil]
  | cons unit tail =>
    obtain ⟨hunit, htail⟩ := JsString.blank_cons.mp h
    rw [words_append_cons hunit, words_blank htail, List.append_nil]

theorem rangeTerms_eq_words (range : JsString) : rangeTerms range = words range := by
  obtain ⟨lead, tail, hlead, htail, hrange⟩ := JsString.exists_margins range
  conv_rhs => rw [hrange]
  rw [words_append_blank _ htail, words_blank_append hlead]
  rfl

theorem rangeTerms_append (first last : JsString) :
    rangeTerms (first ++ js " " ++ last) = rangeTerms first ++ rangeTerms last := by
  rw [rangeTerms_eq_words, rangeTerms_eq_words, rangeTerms_eq_words, List.append_assoc]
  exact words_append_cons rfl first last

theorem rangeSet_append {first last : JsString} (hfirst : rangeTerms first ≠ [])
    (hlast : rangeTerms last ≠ []) :
    rangeSet (first ++ js " " ++ last) = rangeSet first ∩ rangeSet last := by
  ext v
  simp only [rangeSet, Set.mem_inter_iff, Set.mem_ofPred_eq, rangeTerms_append]
  simp [hfirst, hlast, or_imp, forall_and]

theorem satisfies_append (version : JsString) {first last : JsString}
    (hfirst : rangeTerms first ≠ []) (hlast : rangeTerms last ≠ []) :
    satisfies version (first ++ js " " ++ last) =
      (satisfies version first && satisfies version last) := by
  cases hversion : parseVersion version with
  | none => simp [satisfies, hversion]
  | some v =>
    rw [Bool.eq_iff_iff, Bool.and_eq_true, satisfies_iff hversion, satisfies_iff hversion,
      satisfies_iff hversion, rangeSet_append hfirst hlast]
    exact Iff.rfl

/-! ## Well-formed versions -/

/-- A component of a version. -/
structure NumberText where
  units : JsString
  ne_nil : units ≠ []
  digits : ∀ unit ∈ units, unit.isDigit = true

def NumberText.value (number : NumberText) : ℕ := Json.digitsValue number.units

/-- A pre-release tag or build metadata: a sign with what is behind it. -/
def IsSuffix (suffix : JsString) : Prop :=
  ∃ sign rest, suffix = sign :: rest ∧ CodeUnit.among "-+" sign = true ∧ rest ≠ [] ∧
    ∀ unit ∈ rest, isSuffixUnit unit = true

structure VersionText where
  major : NumberText
  minor : NumberText
  patch : NumberText
  suffix : JsString
  suffix_form : suffix = [] ∨ IsSuffix suffix

namespace VersionText

def text (version : VersionText) : JsString :=
  version.major.units ++ 0x2E :: (version.minor.units ++
    0x2E :: (version.patch.units ++ version.suffix))

/-- The numbers of a version: its triple. -/
def triple (version : VersionText) : ParsedVersion :=
  ⟨version.major.value, version.minor.value, version.patch.value⟩

end VersionText

section Matching

open Regex

variable {Outcome : Type*} {next : Cursor → Option Outcome}

/-- The digits of a component are all taken, as nothing behind them starts with a digit. -/
theorem run_number (index : ℕ) (number : NumberText) {passed rest : JsString}
    {captures : List (ℕ × JsString)} (hrest : ∀ unit ∈ rest.head?, unit.isDigit = false)
    (hstop : ∀ cursor : Cursor, cursor.ahead.head?.any CodeUnit.isDigit → next cursor = none) :
    run (.group index digits) next ⟨passed, number.units ++ rest, captures⟩ =
      next ⟨number.units.reverse ++ passed, rest, (index, number.units) :: captures⟩ := by
  obtain ⟨units, hne, hdigits⟩ := number
  obtain ⟨unit, units, rfl⟩ := List.exists_cons_of_ne_nil hne
  obtain ⟨hunit, hunits⟩ := List.forall_mem_cons.mp hdigits
  exact run_group_word index hunit hunits hrest hstop

theorem single_dot_stops (cursor : Cursor) (h : cursor.ahead.head?.any CodeUnit.isDigit) :
    run (.single (· == 0x2E)) next cursor = none := by
  rw [run_single, if_neg]
  intro hdot
  cases hhead : cursor.ahead.head? with
  | none => simp [hhead] at h
  | some unit =>
    rw [hhead, Option.any_some, beq_iff_eq] at hdot
    rw [hhead, hdot] at h
    exact absurd h (by decide)

theorem suffixPattern_stops (cursor : Cursor) (h : cursor.ahead.head?.any CodeUnit.isDigit) :
    run suffixPattern (run (.lineEnd false) next) cursor = none := by
  obtain ⟨passed, ahead, captures⟩ := cursor
  cases ahead with
  | nil => cases h
  | cons unit ahead =>
    have hsign : CodeUnit.among "-+" unit = false := by
      rw [Bool.eq_false_iff]
      intro hsign
      have hunit : unit = 0x2D ∨ unit = 0x2B := by simpa [CodeUnit.among, js] using hsign
      have hdigit : unit.isDigit = true := h
      rcases hunit with rfl | rfl <;> exact absurd hdigit (by decide)
    rw [suffixPattern, run_optional, run_seq, run_single_cons, if_neg (by simp [hsign]),
      run_lineEnd, if_neg (List.cons_ne_nil _ _)]
    rfl

theorem run_suffix {suffix : JsString} (h : suffix = [] ∨ IsSuffix suffix) (passed : JsString)
    (captures : List (ℕ × JsString)) (hnext : ∀ cursor, (next cursor).isSome) :
    run suffixPattern (run (.lineEnd false) next) ⟨passed, suffix, captures⟩ =
      next ⟨suffix.reverse ++ passed, [], captures⟩ := by
  rcases h with rfl | ⟨sign, rest, rfl, hsign, hne, hrest⟩
  · rw [suffixPattern, run_optional, run_seq, run_lineEnd, if_pos rfl]
    rfl
  · have hall : (!rest.isEmpty && rest.all isSuffixUnit) = true := by simpa [hne] using hrest
    rw [suffixPattern, run_optional, run_seq, run_single_cons, if_pos hsign, run_repeated1_lineEnd,
      if_pos hall]
    obtain ⟨outcome, houtcome⟩ := Option.isSome_iff_exists.mp
      (hnext ⟨(sign :: rest).reverse ++ passed, [], captures⟩)
    simp only [List.reverse_cons, List.append_assoc, List.singleton_append] at houtcome ⊢
    simp [Cursor.skip, houtcome]

theorem parseVersion_text (version : VersionText) :
    parseVersion version.text = some version.triple := by
  rw [parseVersion, versionPattern, exec_anchored, map_matchAt]
  simp only [run_cat_cons, run_cat_nil]
  rw [run_lineStart, if_pos rfl, VersionText.text, run_number 1 version.major (by simp; decide)
    single_dot_stops, run_single_cons, if_pos (by rfl), run_number 2 version.minor (by simp; decide)
    single_dot_stops, run_single_cons, if_pos (by rfl), run_number 3 version.patch ?_
    suffixPattern_stops, run_suffix version.suffix_form _ _ fun _ ↦ rfl]
  · rfl
  · rcases version.suffix_form with hnil | ⟨sign, rest, hsuffix, hsign, -⟩
    · simp [hnil]
    · have hunit : sign = 0x2D ∨ sign = 0x2B := by simpa [CodeUnit.among, js] using hsign
      rw [hsuffix]
      rcases hunit with rfl | rfl <;> simp <;> decide

end Matching

theorem satisfies_text_iff (version : VersionText) (range : JsString) :
    satisfies version.text range = true ↔ version.triple ∈ rangeSet range :=
  satisfies_iff (parseVersion_text version) range

/-- What ranges mean for well-formed versions. -/
structure RangeLaws : Prop where
  /-- A range holds of an interval of versions. -/
  convex : ∀ (a b c : VersionText) (r : JsString), a.triple ≤ b.triple → b.triple ≤ c.triple →
    satisfies a.text r = true → satisfies c.text r = true → satisfies b.text r = true
  /-- Suffixes do not count. -/
  sameTriple : ∀ (a b : VersionText) (r : JsString), a.triple = b.triple →
    satisfies a.text r = satisfies b.text r
  /-- Juxtaposition intersects. -/
  juxtaposed : ∀ (v : VersionText) (r1 r2 : JsString), rangeTerms r1 ≠ [] → rangeTerms r2 ≠ [] →
    satisfies v.text (r1 ++ js " " ++ r2) = (satisfies v.text r1 && satisfies v.text r2)

theorem rangeLaws : RangeLaws where
  convex := by
    intro a b c r hab hbc ha hc
    rw [satisfies_text_iff] at ha hc ⊢
    exact (rangeSet_ordConnected r).out ha hc ⟨hab, hbc⟩
  sameTriple := by
    intro a b r h
    rw [Bool.eq_iff_iff, satisfies_text_iff, satisfies_text_iff, h]
  juxtaposed := fun v r1 r2 ↦ satisfies_append v.text

/-! ## Grades -/

inductive Compat
  | supported
  | untested
  | unsupported
  | any
  deriving DecidableEq, Repr

/-- `gradeCompat`; an empty text counts as a missing one. -/
def gradeCompat (detectedVersion supportedRange : Option JsString) : Compat :=
  match supportedRange.filter (!·.isEmpty), detectedVersion.filter (!·.isEmpty) with
  | none, _ => .any
  | some _, none => .untested
  | some range, some version => if satisfies version range then .supported else .unsupported

/-- A detected version is never graded as untested. -/
theorem gradeCompat_ne_untested {version : JsString} (h : version ≠ [])
    (supportedRange : Option JsString) : gradeCompat (some version) supportedRange ≠ .untested := by
  have hversion : (some version).filter (!·.isEmpty) = some version := by
    simpa [Option.filter] using h
  unfold gradeCompat
  rw [hversion]
  split
  · exact Compat.noConfusion
  · simp_all
  · split <;> exact Compat.noConfusion

end Cordyceps.Core
