import Cordyceps.Foundations.JsMap
import Cordyceps.Foundations.JsonLines
import Cordyceps.Foundations.OrderedGroups
import Mathlib.Data.List.Perm.Basic
import Mathlib.Data.List.Sort
import Mathlib.Data.Rat.Cast.Order

/-!
# The audit trail

The audit plugin appends each entry as a JSON line to the file of its day, and `audit.tail`
reads the files and their lines backwards until it has enough. Entries are in the order of
their timestamps, so the files of the days, one behind the other, are the whole trail.
-/

namespace Cordyceps.Plugins.Audit

open Foundations

/-! ## Timestamps -/

/-- The last `width` decimal digits of a number. -/
def digits : ℕ → ℕ → JsString
  | 0, _ => []
  | width + 1, value => digits width (value / 10) ++ [UInt16.ofNat (0x30 + value % 10)]

/-- The UTC fields of a `Date`. -/
structure Instant where
  year : ℤ
  month : ℕ
  day : ℕ
  hour : ℕ
  minute : ℕ
  second : ℕ
  millisecond : ℕ
  year_range : -271821 ≤ year ∧ year ≤ 275760
  month_range : 1 ≤ month ∧ month ≤ 12
  day_range : 1 ≤ day ∧ day ≤ 31
  hour_lt : hour < 24
  minute_lt : minute < 60
  second_lt : second < 60
  millisecond_lt : millisecond < 1000

namespace Instant

/-- Four digits, or a sign and six. -/
def yearText (year : ℤ) : JsString :=
  if 0 ≤ year ∧ year ≤ 9999 then digits 4 year.natAbs
  else (if year < 0 then js "-" else js "+") ++ digits 6 year.natAbs

/-- `toISOString`. -/
def toISOString (now : Instant) : JsString :=
  yearText now.year ++ (js "-" ++ (digits 2 now.month ++ (js "-" ++ (digits 2 now.day ++
    (js "T" ++ (digits 2 now.hour ++ (js ":" ++ (digits 2 now.minute ++
      (js ":" ++ (digits 2 now.second ++ (js "." ++ (digits 3 now.millisecond ++ js "Z"))))))))))))

/-- The fields, the most significant one first. -/
def fields (now : Instant) : List ℤ :=
  [now.year, now.month, now.day, now.hour, now.minute, now.second, now.millisecond]

end Instant

/-! ## Writing -/

/-- `AuditEntry`. -/
structure Entry where
  ts : JsString
  kind : JsString
  data : Json

namespace Entry

/-- The object that is written. -/
def json (entry : Entry) : Json :=
  .obj [(js "ts", .str entry.ts), (js "kind", .str entry.kind), (js "data", entry.data)]

/-- `${ts.slice(0, 10)}.jsonl`. -/
def file (entry : Entry) : JsString := entry.ts.take 10 ++ js ".jsonl"

end Entry

/-- The files of the audit directory by their names. -/
abbrev Directory := JsMap JsString JsString

/-- `appendFileSync`: a file that is not there is made. -/
def appendFile (directory : Directory) (file text : JsString) : Directory :=
  directory.set file ((directory.get file).getD [] ++ text)

/-- A call of `write`, with the time it is made at. -/
structure Write where
  now : Instant
  kind : JsString
  data : Json

def Write.entry (call : Write) : Entry := ⟨call.now.toISOString, call.kind, call.data⟩

/-- `write`, where the append succeeds. -/
def write (directory : Directory) (call : Write) : Directory :=
  appendFile directory call.entry.file call.entry.json.line

/-- The directory after a sequence of calls; it is empty before. -/
def written (calls : List Write) : Directory := calls.foldl write .empty

/-! ## Reading -/

/-- The body of the inner loop before it tests the limit. `none` is a line that throws: one that
is no JSON, or `null`, when its kind is asked for. -/
def readLine (kind : Option JsString) (line : JsString) (out : List Json) : Option (List Json) :=
  match Json.parse line with
  | none => none
  | some value =>
    if (kind.getD []).isEmpty then some (out ++ [value])
    else if value.isNull then none
    else if value.field (js "kind") = kind.map Json.str then some (out ++ [value])
    else some out

/-- The inner loop; the flag says that it returned with enough entries. -/
def readLines (limit : ℚ) (kind : Option JsString) : List JsString → List Json → List Json × Bool
  | [], out => (out, false)
  | line :: rest, out =>
    match readLine kind line out with
    | none => readLines limit kind rest out
    | some out => if limit ≤ out.length then (out, true) else readLines limit kind rest out

/-- `split("\n").filter(Boolean).reverse()`. -/
def fileLines (text : JsString) : List JsString :=
  ((text.splitOn newline).filter fun line ↦ !line.isEmpty).reverse

/-- The outer loop; a file that cannot be read is skipped. -/
def readFiles (directory : Directory) (limit : ℚ) (kind : Option JsString) :
    List JsString → List Json → List Json
  | [], out => out
  | file :: rest, out =>
    match directory.get file with
    | none => readFiles directory limit kind rest out
    | some text =>
      let read := readLines limit kind (fileLines text) out
      if read.2 then read.1 else readFiles directory limit kind rest read.1

/-- `filter(...).sort()` of the names that `readdirSync` lists; texts compare by their units. -/
def sortedFiles (listing : List JsString) : List JsString :=
  (listing.filter fun file ↦ JsString.endsWith file (js ".jsonl")).insertionSort (· ≤ ·)

def readRecent (directory : Directory) (listing : List JsString) (limit : ℚ)
    (kind : Option JsString) : List Json :=
  readFiles directory limit kind (sortedFiles listing).reverse []

/-- The parameters of `audit.tail`. -/
structure TailParams where
  limit : Option ℚ
  kind : Option JsString

/-- `audit.tail`; without a directory the trail is disabled. -/
def tail (auditDir : Option Directory) (listing : List JsString) (params : TailParams) :
    List Json :=
  match auditDir with
  | none => []
  | some directory =>
    readRecent directory listing (min (max (params.limit.getD 50) 1) 1000) params.kind

/-! ## The loops take from the front -/

/-- What a line adds to the result. -/
def picked (kind : Option JsString) (line : JsString) : Option Json :=
  (Json.parse line).filter fun value ↦
    (kind.getD []).isEmpty || (!value.isNull && value.field (js "kind") = kind.map Json.str)

/-- A line adds what it picks, and nothing when it throws or is of another kind. -/
theorem readLine_cases (kind : Option JsString) (line : JsString) (out : List Json) :
    (∃ value, picked kind line = some value ∧ readLine kind line out = some (out ++ [value])) ∨
      picked kind line = none ∧
        (readLine kind line out = none ∨ readLine kind line out = some out) := by
  unfold readLine picked
  cases Json.parse line with
  | none => simp
  | some value =>
    by_cases hkind : (kind.getD []).isEmpty
    · simp [hkind]
    · by_cases hnull : value.isNull
      · simp [hkind, hnull]
      · by_cases hfield : value.field (js "kind") = kind.map Json.str <;>
          simp [hkind, hnull, hfield]

theorem readLines_eq {limit : ℕ} (kind : Option JsString) (lines : List JsString)
    {out : List Json} (hout : out.length < limit) :
    readLines limit kind lines out =
      (out ++ (lines.filterMap (picked kind)).take (limit - out.length),
        decide (limit ≤ out.length + (lines.filterMap (picked kind)).length)) := by
  induction lines generalizing out with
  | nil =>
    have hmore : ¬ limit ≤ out.length := not_le_of_gt hout
    simp [readLines, hmore]
  | cons line rest ih =>
    rcases readLine_cases kind line out with ⟨value, hpicked, hline⟩ | ⟨hpicked, hline | hline⟩
    · obtain ⟨room, hroom⟩ := Nat.exists_eq_add_of_lt hout
      have hleft : limit - out.length = room + 1 := by omega
      simp only [readLines, hline, List.filterMap_cons, hpicked, hleft, List.take_succ_cons,
        List.length_cons, Nat.cast_le]
      split_ifs with hfull
      · -- this entry was the last one asked for
        rw [List.length_append, List.length_singleton] at hfull
        have hroom : room = 0 := by omega
        subst hroom
        simpa using hfull.trans (by omega)
      · rw [List.length_append, List.length_singleton] at hfull
        rw [ih (by simpa using hfull)]
        simp only [List.length_append, List.length_singleton, List.append_assoc,
          List.singleton_append, Prod.mk.injEq, decide_eq_decide]
        refine ⟨?_, by omega⟩
        rw [show limit - (out.length + 1) = room by omega]
    · simp only [readLines, hline, List.filterMap_cons, hpicked]
      exact ih hout
    · have hfull : ¬ (limit : ℚ) ≤ out.length := by exact_mod_cast not_le_of_gt hout
      simp only [readLines, hline, List.filterMap_cons, hpicked, if_neg hfull]
      exact ih hout

/-- What a file adds to the result. -/
def pickedOf (directory : Directory) (kind : Option JsString) (file : JsString) : List Json :=
  (fileLines ((directory.get file).getD [])).filterMap (picked kind)

theorem readFiles_eq {limit : ℕ} (directory : Directory) (kind : Option JsString)
    (files : List JsString) {out : List Json} (hout : out.length < limit) :
    readFiles directory limit kind files out =
      out ++ (files.flatMap (pickedOf directory kind)).take (limit - out.length) := by
  induction files generalizing out with
  | nil => simp [readFiles]
  | cons file rest ih =>
    rw [List.flatMap_cons, List.take_append]
    cases hfile : directory.get file with
    | none =>
      have hnothing : pickedOf directory kind file = [] := by
        rw [pickedOf, hfile]
        rfl
      rw [readFiles, hfile, hnothing]
      simpa using ih hout
    | some text =>
      have hadds : pickedOf directory kind file = (fileLines text).filterMap (picked kind) := by
        rw [pickedOf, hfile]
        rfl
      simp only [readFiles, hfile, readLines_eq kind (fileLines text) hout, ← hadds,
        decide_eq_true_eq]
      split_ifs with hfull
      · rw [show limit - out.length - (pickedOf directory kind file).length = 0 by omega]
        simp
      · have hall : (pickedOf directory kind file).take (limit - out.length) =
            pickedOf directory kind file := List.take_of_length_le (by omega)
        rw [hall, ih (by rw [List.length_append]; omega), List.length_append, List.append_assoc,
          Nat.sub_add_eq]

/-! ## What the files hold -/

/-- The entries of a file are those of its name, in the order they were written. -/
theorem getD_written (calls : List Write) (file : JsString) :
    ((written calls).get file).getD [] =
      ((calls.filter fun call ↦ call.entry.file = file).map fun call ↦ call.entry.json).flatMap
        Json.line := by
  induction calls using List.reverseRecOn with
  | nil => rfl
  | append_singleton calls call ih =>
    have hlast : written (calls ++ [call]) = write (written calls) call := List.foldl_concat ..
    rw [hlast, write, appendFile, JsMap.get_set, List.filter_append, List.map_append,
      List.flatMap_append]
    split_ifs with hfile
    · subst hfile
      simp [ih]
    · rw [ih, List.filter_cons_of_neg (by simpa using Ne.symm hfile)]
      simp

theorem isSome_get_written (calls : List Write) (file : JsString) :
    ((written calls).get file).isSome ↔ ∃ call ∈ calls, call.entry.file = file := by
  induction calls using List.reverseRecOn with
  | nil => simp [written]
  | append_singleton calls call ih =>
    have hlast : written (calls ++ [call]) = write (written calls) call := List.foldl_concat ..
    rw [hlast, write, appendFile, JsMap.get_set]
    split_ifs with hfile
    · simp [hfile]
    · rw [ih]
      simp [Ne.symm hfile]

/-- `e.kind === kind`, where a kind is asked for. -/
def Entry.ofKind (kind : Option JsString) (entry : Entry) : Bool :=
  kind.all fun kind ↦ entry.kind = kind

/-- A written entry is read as it was written. -/
theorem picked_stringify {kind : Option JsString} (hkind : kind ≠ some []) {entry : Entry}
    (hparse : Json.parse entry.json.stringify = some entry.json) :
    picked kind entry.json.stringify = if entry.ofKind kind then some entry.json else none := by
  have hfield : entry.json.field (js "kind") = some (.str entry.kind) := by
    rw [Entry.json, Json.field, Json.lookup, if_neg (by decide), Json.lookup, if_pos rfl]
  cases kind with
  | none => simp [picked, hparse, Entry.ofKind]
  | some kind =>
    have hne : kind.isEmpty = false := by
      rw [List.isEmpty_eq_false_iff]
      rintro rfl
      exact hkind rfl
    have hnull : entry.json.isNull = false := rfl
    simp [picked, hparse, Entry.ofKind, hfield, hne, hnull, Option.filter]

theorem fileLines_lines {values : List Json} (h : ∀ value ∈ values, value.stringify ≠ []) :
    fileLines (values.flatMap Json.line) = (values.map Json.stringify).reverse := by
  have hfull : ∀ line ∈ values.map Json.stringify, (!line.isEmpty) = true := by
    intro line hline
    obtain ⟨value, hvalue, rfl⟩ := List.mem_map.mp hline
    simpa using h value hvalue
  rw [fileLines, Json.splitOn_lines, List.filter_append, List.filter_eq_self.mpr hfull]
  simp

/-- A file adds its entries of the kind, the last one first. -/
theorem pickedOf_written {kind : Option JsString} (hkind : kind ≠ some []) {calls : List Write}
    (hparse : ∀ call ∈ calls, Json.parse call.entry.json.stringify = some call.entry.json)
    (file : JsString) :
    pickedOf (written calls) kind file =
      (((calls.filter fun call ↦ call.entry.ofKind kind).filter fun call ↦
        call.entry.file = file).map fun call ↦ call.entry.json).reverse := by
  let own := calls.filter fun call ↦ call.entry.file = file
  have hpicked : ∀ call ∈ own,
      ((picked kind ∘ Json.stringify) ∘ fun call : Write ↦ call.entry.json) call =
        (Option.guard (fun call : Write ↦ call.entry.ofKind kind) call).map
          fun call ↦ call.entry.json := by
    intro call hcall
    rw [Function.comp_apply, Function.comp_apply,
      picked_stringify hkind (hparse call (List.mem_of_mem_filter hcall)), Option.guard]
    split_ifs <;> rfl
  have hlines : ∀ value ∈ own.map (fun call ↦ call.entry.json), value.stringify ≠ [] := by
    intro value hvalue
    obtain ⟨call, -, rfl⟩ := List.mem_map.mp hvalue
    exact Json.stringify_obj_ne_nil _
  calc
    pickedOf (written calls) kind file =
        (fileLines ((own.map fun call ↦ call.entry.json).flatMap Json.line)).filterMap
          (picked kind) := by
      rw [pickedOf, getD_written]
    _ = (own.filterMap ((picked kind ∘ Json.stringify) ∘ fun call ↦ call.entry.json)).reverse := by
      rw [fileLines_lines hlines, List.filterMap_reverse, List.filterMap_map, List.filterMap_map]
    _ = ((own.filter fun call ↦ call.entry.ofKind kind).map
          fun call ↦ call.entry.json).reverse := by
      rw [List.filterMap_congr hpicked, ← List.map_filterMap, List.filterMap_eq_filter]
    _ = _ := by rw [List.filter_comm]

/-! ## The order of the files -/

@[simp]
theorem length_digits (width value : ℕ) : (digits width value).length = width := by
  induction width generalizing value with
  | zero => rfl
  | succ width ih => simp [digits, ih]

theorem length_day (now : Instant) : (now.toISOString.take 10).length = 10 := by
  have hyear : 4 ≤ (Instant.yearText now.year).length := by
    unfold Instant.yearText
    split_ifs <;> simp [js]
  rw [List.length_take]
  refine Nat.min_eq_left ?_
  simp only [Instant.toISOString, List.length_append, length_digits]
  have hmarks : (js "-").length = 1 ∧ (js "T").length = 1 := ⟨rfl, rfl⟩
  omega

theorem file_le_file {first second : Write} (h : first.entry.ts ≤ second.entry.ts) :
    first.entry.file ≤ second.entry.file := by
  have hlength : (first.entry.ts.take 10).length = (second.entry.ts.take 10).length :=
    (length_day first.now).trans (length_day second.now).symm
  exact OrderedGroups.append_le_append hlength (OrderedGroups.take_le_take 10 h) _

theorem endsWith_file (entry : Entry) : JsString.endsWith entry.file (js ".jsonl") = true :=
  List.isSuffixOf_iff_suffix.mpr (List.suffix_append _ _)

/-- Names that differ are sorted strictly. -/
theorem pairwise_sortedFiles {listing : List JsString} (h : listing.Nodup) :
    (sortedFiles listing).Pairwise (· < ·) := by
  have hsorted : (sortedFiles listing).Pairwise (· ≤ ·) := List.pairwise_insertionSort _ _
  have hnodup : (sortedFiles listing).Nodup :=
    (List.perm_insertionSort _ _).nodup_iff.mpr (h.filter _)
  exact (hsorted.and hnodup).imp fun hboth ↦ Std.lt_of_le_of_ne hboth.1 hboth.2

/-- Every entry is in one of the listed files. -/
theorem file_mem_sortedFiles {calls : List Write} {listing : List JsString}
    (h : listing.Perm ((written calls).entries.map Prod.fst)) {call : Write} (hcall : call ∈ calls) :
    call.entry.file ∈ sortedFiles listing := by
  rw [sortedFiles, List.mem_insertionSort, List.mem_filter]
  refine ⟨h.mem_iff.mpr ?_, endsWith_file call.entry⟩
  rw [← JsMap.has_iff, JsMap.has]
  exact (isSome_get_written calls _).mpr ⟨call, hcall, rfl⟩

/-! ## Reading back -/

/-- The timestamps of the entries do not decrease. -/
def Chronological (calls : List Write) : Prop :=
  calls.Pairwise fun first second ↦ first.entry.ts ≤ second.entry.ts

/-- The files read backwards are the entries of the kind, the newest one first. -/
theorem flatMap_pickedOf {kind : Option JsString} (hkind : kind ≠ some []) {calls : List Write}
    (hcalls : Chronological calls)
    (hparse : ∀ call ∈ calls, Json.parse call.entry.json.stringify = some call.entry.json)
    {listing : List JsString} (h : listing.Perm ((written calls).entries.map Prod.fst)) :
    (sortedFiles listing).reverse.flatMap (pickedOf (written calls) kind) =
      ((calls.filter fun call ↦ call.entry.ofKind kind).map fun call ↦ call.entry.json).reverse := by
  have hgroups := OrderedGroups.flatMap_filter_key (fun call : Write ↦ call.entry.file)
    (pairwise_sortedFiles (h.nodup_iff.mpr (written calls).nodup))
    ((hcalls.filter fun call ↦ call.entry.ofKind kind).imp file_le_file)
    fun call hcall ↦ file_mem_sortedFiles h (List.mem_of_mem_filter hcall)
  let own := calls.filter fun call ↦ call.entry.ofKind kind
  calc
    (sortedFiles listing).reverse.flatMap (pickedOf (written calls) kind) =
        (sortedFiles listing).reverse.flatMap fun file ↦
          ((own.filter fun call ↦ call.entry.file = file).map fun call ↦ call.entry.json).reverse :=
      List.flatMap_congr fun file _ ↦ pickedOf_written hkind hparse file
    _ = ((sortedFiles listing).flatMap fun file ↦
          (own.filter fun call ↦ call.entry.file = file).map
            fun call ↦ call.entry.json).reverse := by
      simp only [List.flatMap_reverse, Function.comp_def, List.reverse_reverse]
    _ = (own.map fun call ↦ call.entry.json).reverse := by
      rw [← List.map_flatMap, hgroups]

/-- `audit.tail` returns the newest entries of the kind, as many as asked for, the newest one
first and each as it was written. -/
theorem tail_written {calls : List Write} (hcalls : Chronological calls)
    (hparse : ∀ call ∈ calls, Json.parse call.entry.json.stringify = some call.entry.json)
    {listing : List JsString} (hlisting : listing.Perm ((written calls).entries.map Prod.fst))
    {limit : ℕ} (hlimit : 1 ≤ limit ∧ limit ≤ 1000) {kind : Option JsString}
    (hkind : kind ≠ some []) :
    tail (some (written calls)) listing ⟨some limit, kind⟩ =
      ((calls.filter fun call ↦ call.entry.ofKind kind).reverse.take limit).map
        fun call ↦ call.entry.json := by
  have hclamp : min (max (limit : ℚ) 1) 1000 = limit := by
    rw [max_eq_left (by exact_mod_cast hlimit.1), min_eq_left (by exact_mod_cast hlimit.2)]
  calc
    tail (some (written calls)) listing ⟨some limit, kind⟩ =
        readFiles (written calls) limit kind (sortedFiles listing).reverse [] := by
      rw [tail, Option.getD_some, hclamp, readRecent]
    _ = ((sortedFiles listing).reverse.flatMap (pickedOf (written calls) kind)).take limit := by
      rw [readFiles_eq _ _ _ (Nat.succ_le_iff.mp hlimit.1), List.nil_append, List.length_nil,
        Nat.sub_zero]
    _ = ((calls.filter fun call ↦ call.entry.ofKind kind).map fun call ↦
          call.entry.json).reverse.take limit := by
      rw [flatMap_pickedOf hkind hcalls hparse hlisting]
    _ = _ := by rw [← List.map_reverse, List.map_take]

/-- Three entries around the turn of a year. -/
def turnOfYear : List Write :=
  [⟨⟨2024, 12, 31, 23, 59, 59, 999, by decide, by decide, by decide, by decide, by decide,
      by decide, by decide⟩, js "agent.created", .obj [(js "id", .str (js "a"))]⟩,
    ⟨⟨2025, 1, 1, 0, 0, 0, 0, by decide, by decide, by decide, by decide, by decide, by decide,
      by decide⟩, js "agent.exited", .null⟩,
    ⟨⟨2025, 1, 1, 0, 0, 0, 0, by decide, by decide, by decide, by decide, by decide, by decide,
      by decide⟩, js "agent.created", .obj [(js "id", .str (js "b"))]⟩]

theorem tail_written_turnOfYear :
    tail (some (written turnOfYear)) [js "2025-01-01.jsonl", js "2024-12-31.jsonl"]
        ⟨some (2 : ℕ), some (js "agent.created")⟩ =
      ((turnOfYear.filter fun call ↦
        call.entry.ofKind (some (js "agent.created"))).reverse.take 2).map
          fun call ↦ call.entry.json :=
  tail_written (by unfold Chronological; decide +kernel) (by decide +kernel) (by decide +kernel)
    (by decide) (by decide)

/-! ## Timestamps of a clock -/

theorem digits_lt {width first second : ℕ} (h : first < second) (hsecond : second < 10 ^ width) :
    digits width first < digits width second := by
  induction width generalizing first second with
  | zero =>
    rw [pow_zero] at hsecond
    omega
  | succ width ih =>
    rw [pow_succ] at hsecond
    rcases Nat.lt_or_ge (first / 10) (second / 10) with hlt | hge
    · exact OrderedGroups.append_lt_append (by simp) (ih hlt (by omega)) _ _
    · have hfront : first / 10 = second / 10 := by omega
      rw [digits, digits, hfront]
      refine List.append_left_lt (List.cons_lt_cons_iff.mpr (.inl ?_))
      rw [UInt16.lt_iff_toNat_lt, UInt16.toNat_ofNat', UInt16.toNat_ofNat']
      omega

namespace Instant

/-- The first time is not after the second one: the fields compare lexicographically. -/
def NotAfter (first second : Instant) : Prop :=
  ¬ List.Lex (· < ·) second.fields first.fields

/-- A field in front decides, when it differs. -/
theorem field_le (mark : JsString) {width first second : ℕ} {fields others : List ℤ}
    {rest others' : JsString} (hsecond : second < 10 ^ width)
    (h : ¬ List.Lex (· < ·) ((second : ℤ) :: others) ((first : ℤ) :: fields))
    (hrest : ¬ List.Lex (· < ·) others fields → rest ≤ others') :
    digits width first ++ (mark ++ rest) ≤ digits width second ++ (mark ++ others') := by
  rw [List.cons_lex_cons_iff, not_or, not_and] at h
  rcases Nat.lt_or_ge first second with hlt | hge
  · exact List.le_of_lt (OrderedGroups.append_lt_append (by simp) (digits_lt hlt hsecond) _ _)
  · have heq : first = second := by omega
    subst heq
    exact List.append_left_le (List.append_left_le (hrest (h.2 rfl)))

/-- With years of four digits the texts are in the order of the times. -/
theorem toISOString_le {first second : Instant} (hfirst : 0 ≤ first.year ∧ first.year ≤ 9999)
    (hsecond : 0 ≤ second.year ∧ second.year ≤ 9999) (h : first.NotAfter second) :
    first.toISOString ≤ second.toISOString := by
  have hyear (now : Instant) (hnow : 0 ≤ now.year ∧ now.year ≤ 9999) :
      now.year = (now.year.natAbs : ℤ) ∧ yearText now.year = digits 4 now.year.natAbs :=
    ⟨by omega, if_pos hnow⟩
  rw [NotAfter, fields, fields, (hyear first hfirst).1, (hyear second hsecond).1] at h
  rw [toISOString, toISOString, (hyear first hfirst).2, (hyear second hsecond).2]
  have hmonth := second.month_range
  have hday := second.day_range
  have hhour := second.hour_lt
  have hminute := second.minute_lt
  have hsec := second.second_lt
  refine field_le _ (by omega) h fun h ↦ field_le _ (by omega) h fun h ↦ field_le _ (by omega) h
    fun h ↦ field_le _ (by omega) h fun h ↦ field_le _ (by omega) h fun h ↦ field_le _ (by omega) h
    fun h ↦ ?_
  -- nothing stands between the last field and the zone
  exact field_le [] (by simpa using second.millisecond_lt) h fun _ ↦ List.le_refl (js "Z")

end Instant

/-- A clock that does not go back gives timestamps that do not decrease. -/
theorem chronological_of_notAfter {calls : List Write}
    (hyears : ∀ call ∈ calls, 0 ≤ call.now.year ∧ call.now.year ≤ 9999)
    (h : calls.Pairwise fun first second ↦ first.now.NotAfter second.now) :
    Chronological calls :=
  h.imp_of_mem fun hfirst hsecond ↦
    Instant.toISOString_le (hyears _ hfirst) (hyears _ hsecond)

end Cordyceps.Plugins.Audit
