import Cordyceps.Core.PlainText
import Mathlib.Data.Bool.AllAny
import Mathlib.Tactic.IntervalCases

/-!
# Escape sequences in a terminal stream

A terminal stream is printable text with escape sequences in between. Every pass of
`core/ansi.ts` but the one for OSC removes the sequences of its own kind and nothing else, since
they all differ in the unit behind the escape character; the one for cursor movements turns
these into spaces.
-/

namespace Cordyceps.Core

open Foundations Regex JsString

namespace Ansi

/-- `[0-9;?<>=!]`. -/
def isParameter (unit : CodeUnit) : Bool := CodeUnit.isDigit unit || CodeUnit.among ";?<>=!" unit

/-- `[a-zA-Z~]`. -/
def isFinal (unit : CodeUnit) : Bool := CodeUnit.isLetter unit || CodeUnit.among "~" unit

/-- `[A-Z0-9]`. -/
def isCharsetName (unit : CodeUnit) : Bool :=
  (0x41 ≤ unit && unit ≤ 0x5A) || CodeUnit.isDigit unit

/-- How an OSC sequence ends: with BEL, or with ESC \. -/
inductive OscEnd
  | bel
  | st
  deriving DecidableEq

def OscEnd.units : OscEnd → JsString
  | .bel => [0x07]
  | .st => [0x1B, 0x5C]

/-- A part of a terminal stream. -/
inductive Piece
  | text (printed : JsString) (printable : ∀ unit ∈ printed, isControl unit = false)
  | csi (parameters : JsString) (final : CodeUnit)
      (hparameters : ∀ unit ∈ parameters, isParameter unit = true) (hfinal : isFinal final = true)
  | osc (payload : JsString) (closing : OscEnd)
      (hpayload : ∀ unit ∈ payload, unit ≠ 0x1B ∧ unit ≠ 0x07)
  | charset (set name : CodeUnit) (hset : CodeUnit.among "()" set = true)
      (hname : isCharsetName name = true)
  | keypad (mode : CodeUnit) (hmode : CodeUnit.among "=>" mode = true)
  | single (command : CodeUnit) (hcommand : CodeUnit.among "78cDEHMNOZ" command = true)

namespace Piece

/-- The units of a piece in the stream. -/
def units : Piece → JsString
  | .text printed _ => printed
  | .csi parameters final _ _ => 0x1B :: 0x5B :: (parameters ++ [final])
  | .osc payload closing _ => 0x1B :: 0x5D :: (payload ++ closing.units)
  | .charset set name _ _ => [0x1B, set, name]
  | .keypad mode _ => [0x1B, mode]
  | .single command _ => [0x1B, command]

/-- What `stripAnsi` is to keep. -/
def printed : Piece → JsString
  | .text printed _ => printed
  | _ => []

/-- A cursor movement to the right: its count, 1 by default and from 1 to 120. -/
def forward : Piece → Option ℕ
  | .csi parameters final _ _ =>
    if final = 0x43 ∧ parameters.all CodeUnit.isDigit then
      some (max 1 (min (if parameters = [] then 1 else Json.digitsValue parameters) 120))
    else none
  | _ => none

/-- What `ansiToText` is to keep. -/
def shown (piece : Piece) : JsString :=
  match piece.forward with
  | some count => List.replicate count 0x20
  | none => piece.printed

/-- How the piece ends if it is an OSC sequence. -/
def oscEnd : Piece → Option OscEnd
  | .osc _ closing _ => some closing
  | _ => none

def isOsc (piece : Piece) : Bool := piece.oscEnd.isSome

end Piece

/-- The stream. -/
def stream (pieces : List Piece) : JsString := pieces.flatMap Piece.units

namespace Piece

/-- The kinds of pieces. -/
inductive Kind
  | text
  | csi
  | osc
  | charset
  | keypad
  | single
  deriving DecidableEq

def kind : Piece → Kind
  | .text _ _ => .text
  | .csi _ _ _ _ => .csi
  | .osc _ _ _ => .osc
  | .charset _ _ _ _ => .charset
  | .keypad _ _ => .keypad
  | .single _ _ => .single

/-- The units behind the escape characters of a piece. -/
def marks : Piece → List CodeUnit
  | .text _ _ => []
  | .csi _ _ _ _ => [0x5B]
  | .osc _ .bel _ => [0x5D]
  | .osc _ .st _ => [0x5D, 0x5C]
  | .charset set _ _ _ => [set]
  | .keypad mode _ => [mode]
  | .single command _ => [command]

/-- The units of a piece, unless its kind has been removed. -/
def left (removed : List Kind) (piece : Piece) : JsString :=
  if piece.kind ∈ removed then [] else piece.units

end Piece

/-! ## Classes of units -/

theorem mem_of_among {units : String} {unit : CodeUnit} (h : CodeUnit.among units unit = true) :
    unit ∈ js units := by
  simpa [CodeUnit.among] using h

theorem mem_digits {unit : CodeUnit} (h : CodeUnit.isDigit unit = true) :
    unit ∈ js "0123456789" := by
  simp only [CodeUnit.isDigit, Bool.and_eq_true, decide_eq_true_eq, UInt16.le_iff_toNat_le] at h
  obtain ⟨hlow, hhigh⟩ := h
  rw [← UInt16.ofNat_toNat (x := unit)]
  generalize unit.toNat = value at hlow hhigh ⊢
  change 48 ≤ value at hlow
  change value ≤ 57 at hhigh
  interval_cases value <;> decide

theorem mem_parameters {unit : CodeUnit} (h : isParameter unit = true) :
    unit ∈ js "0123456789;?<>=!" := by
  have hdigits : ∀ unit ∈ js "0123456789", unit ∈ js "0123456789;?<>=!" := List.all_iff_forall_prop.mp rfl
  have hmarks : ∀ unit ∈ js ";?<>=!", unit ∈ js "0123456789;?<>=!" := List.all_iff_forall_prop.mp rfl
  rcases (Bool.or_eq_true _ _).mp h with hdigit | hmark
  · exact hdigits unit (mem_digits hdigit)
  · exact hmarks unit (mem_of_among hmark)

/-- Parameters are no final units, and the letter of cursor movements is none. -/
theorem not_isFinal_of_isParameter {unit : CodeUnit} (h : isParameter unit = true) :
    isFinal unit = false ∧ unit ≠ 0x43 ∧ unit ≠ 0x1B ∧ unit ≠ 0x07 := by
  have hall : ∀ unit ∈ js "0123456789;?<>=!",
      isFinal unit = false ∧ unit ≠ 0x43 ∧ unit ≠ 0x1B ∧ unit ≠ 0x07 := List.all_iff_forall_prop.mp rfl
  exact hall unit (mem_parameters h)

theorem ne_of_accepts {accepts : CodeUnit → Bool} {value : CodeUnit} (h : accepts value = false)
    {unit : CodeUnit} (hunit : accepts unit = true) : unit ≠ value := by
  rintro rfl
  rw [h] at hunit
  cases hunit

/-! ## One piece -/

/-- A piece other than OSC is text, or it begins with its only escape character. -/
theorem units_shape {piece : Piece} (h : piece.isOsc = false) :
    piece.marks = [] ∧ (∀ unit ∈ piece.units, unit ≠ 0x1B ∧ unit ≠ 0x07) ∨
      ∃ mark tail, piece.marks = [mark] ∧ mark ≠ 0x5C ∧ piece.units = 0x1B :: mark :: tail ∧
        ∀ unit ∈ mark :: tail, unit ≠ 0x1B ∧ unit ≠ 0x07 := by
  cases piece with
  | text printed printable =>
    refine Or.inl ⟨rfl, fun unit hunit ↦ ⟨?_, ?_⟩⟩
    · rintro rfl
      exact absurd (printable _ hunit) (by decide)
    · rintro rfl
      exact absurd (printable _ hunit) (by decide)
  | csi parameters final hparameters hfinal =>
    refine Or.inr ⟨0x5B, parameters ++ [final], rfl, by decide, rfl, ?_⟩
    refine List.forall_mem_cons.mpr ⟨by decide, List.forall_mem_append.mpr ⟨?_, ?_⟩⟩
    · exact fun unit hunit ↦ (not_isFinal_of_isParameter (hparameters unit hunit)).2.2
    · exact List.forall_mem_singleton.mpr
        ⟨ne_of_accepts (by decide) hfinal, ne_of_accepts (by decide) hfinal⟩
  | osc payload closing hpayload => cases h
  | charset set name hset hname =>
    refine Or.inr ⟨set, [name], rfl, ne_of_accepts (by decide) hset, rfl, ?_⟩
    refine List.forall_mem_cons.mpr ⟨?_, List.forall_mem_singleton.mpr ?_⟩
    · exact ⟨ne_of_accepts (by decide) hset, ne_of_accepts (by decide) hset⟩
    · exact ⟨ne_of_accepts (by decide) hname, ne_of_accepts (by decide) hname⟩
  | keypad mode hmode =>
    refine Or.inr ⟨mode, [], rfl, ne_of_accepts (by decide) hmode, rfl, ?_⟩
    exact List.forall_mem_singleton.mpr
      ⟨ne_of_accepts (by decide) hmode, ne_of_accepts (by decide) hmode⟩
  | single command hcommand =>
    refine Or.inr ⟨command, [], rfl, ne_of_accepts (by decide) hcommand, rfl, ?_⟩
    exact List.forall_mem_singleton.mpr
      ⟨ne_of_accepts (by decide) hcommand, ne_of_accepts (by decide) hcommand⟩

/-- A pattern that wants another unit behind the escape character. -/
theorem rewrites_other {second : CodeUnit → Bool} (more : List Regex)
    (replacement : Match → JsString) (piece : Piece)
    (h : ∀ mark ∈ piece.marks, second mark = false) :
    Rewrites (cat (esc :: .single second :: more)) replacement piece.units piece.units := by
  have hstarts : Starts isEscape (cat (esc :: .single second :: more)) := starts_cat _ _
  have hescape : ∀ {mark tail}, second mark = false → (∀ unit ∈ mark :: tail, unit ≠ 0x1B) →
      Rewrites (cat (esc :: .single second :: more)) replacement (0x1B :: mark :: tail)
        (0x1B :: mark :: tail) := by
    intro mark tail hmark htail
    refine hstarts.rewrites_cons (fun passed rest ↦ ?_) fun unit hunit ↦ ?_
    · exact matchAt_second_none hmark more passed 0x1B (tail ++ rest)
    · exact beq_eq_false_iff_ne.mpr (htail unit hunit)
  cases hosc : piece.isOsc with
  | false =>
    rcases units_shape hosc with ⟨-, hplain⟩ | ⟨mark, tail, hmarks, -, hunits, hplain⟩
    · exact hstarts.rewrites_self fun unit hunit ↦ beq_eq_false_iff_ne.mpr (hplain unit hunit).1
    · rw [hunits]
      exact hescape (h mark (hmarks ▸ List.mem_cons_self)) fun unit hunit ↦ (hplain unit hunit).1
  | true =>
    cases piece with
    | osc payload closing hpayload =>
      have hopening : ∀ unit ∈ 0x5D :: payload, unit ≠ 0x1B :=
        List.forall_mem_cons.mpr ⟨by decide, fun unit hunit ↦ (hpayload unit hunit).1⟩
      cases closing with
      | bel =>
        refine hescape (h _ List.mem_cons_self) ?_
        rw [← List.cons_append]
        exact List.forall_mem_append.mpr ⟨hopening, List.all_iff_forall_prop.mp rfl⟩
      | st =>
        have hfirst := hescape (h 0x5D (by simp [Piece.marks])) hopening
        exact hfirst.append (hescape (h 0x5C (by simp [Piece.marks]))
          (List.all_iff_forall_prop.mp rfl))
    | _ => cases hosc

/-- The pattern of CSI matches a CSI sequence from end to end. -/
theorem removes_csi {piece : Piece} (h : piece.kind = .csi) :
    Rewrites csi (fun _ ↦ []) piece.units [] := by
  cases piece with
  | csi parameters final hparameters hfinal =>
    refine rewrites_match (List.cons_ne_nil _ _) fun passed rest ↦ ⟨[], ?_, fun _ _ ↦ rfl⟩
    have hpattern : csi = cat [esc, .single (· == 0x5B), .repeated true isParameter,
        .single isFinal] := rfl
    have hlater : ∀ first last, final :: rest = first ++ last → first ≠ [] →
        (∀ unit ∈ first, isParameter unit = true) →
          run (.single isFinal) some
            ⟨first.reverse ++ (parameters.reverse ++ 0x5B :: 0x1B :: passed), last, []⟩ = none := by
      intro first last hsplit hne hall
      obtain ⟨unit, first, rfl⟩ := List.exists_cons_of_ne_nil hne
      obtain ⟨rfl, -⟩ := List.cons.inj hsplit
      rw [(not_isFinal_of_isParameter (hall final List.mem_cons_self)).1] at hfinal
      cases hfinal
    have hend : run (.single isFinal) some
          ⟨parameters.reverse ++ 0x5B :: 0x1B :: passed, final :: rest, []⟩ =
        some ⟨final :: (parameters.reverse ++ 0x5B :: 0x1B :: passed), rest, []⟩ := by
      rw [run_single_cons, if_pos hfinal]
    have hrun : run (.repeated true isParameter) (run (.single isFinal) some)
          ⟨0x5B :: 0x1B :: passed, parameters ++ final :: rest, []⟩ = _ :=
      run_repeated_last hparameters (by rw [hend]; rfl) hlater
    simp only [hpattern, run_cat_cons, run_cat_nil, esc, Piece.units, List.cons_append,
      List.append_assoc, List.nil_append]
    rw [run_single_cons, if_pos (by rfl), run_single_cons, if_pos (by rfl), hrun, hend]
    simp
  | _ => cases h

theorem removes_charset {piece : Piece} (h : piece.kind = .charset) :
    Rewrites charset (fun _ ↦ []) piece.units [] := by
  cases piece with
  | charset set name hset hname =>
    refine rewrites_match (List.cons_ne_nil _ _) fun passed rest ↦ ⟨[], ?_, fun _ _ ↦ rfl⟩
    have hpattern : charset = cat [esc, .single (CodeUnit.among "()"), .single isCharsetName] := rfl
    simp only [hpattern, run_cat_cons, run_cat_nil, esc, Piece.units, List.cons_append,
      List.nil_append]
    rw [run_single_cons, if_pos (by rfl), run_single_cons, if_pos hset, run_single_cons,
      if_pos hname]
    rfl
  | _ => cases h

theorem removes_keypad {piece : Piece} (h : piece.kind = .keypad) :
    Rewrites keypad (fun _ ↦ []) piece.units [] := by
  cases piece with
  | keypad mode hmode =>
    refine rewrites_match (List.cons_ne_nil _ _) fun passed rest ↦ ⟨[], ?_, fun _ _ ↦ rfl⟩
    simp only [keypad, run_cat_cons, run_cat_nil, esc, Piece.units, List.cons_append,
      List.nil_append]
    rw [run_single_cons, if_pos (by rfl), run_single_cons, if_pos hmode]
    rfl
  | _ => cases h

theorem removes_singleEsc {piece : Piece} (h : piece.kind = .single) :
    Rewrites singleEsc (fun _ ↦ []) piece.units [] := by
  cases piece with
  | single command hcommand =>
    refine rewrites_match (List.cons_ne_nil _ _) fun passed rest ↦ ⟨[], ?_, fun _ _ ↦ rfl⟩
    simp only [singleEsc, run_cat_cons, run_cat_nil, esc, Piece.units, List.cons_append,
      List.nil_append]
    rw [run_single_cons, if_pos (by rfl), run_single_cons, if_pos hcommand]
    rfl
  | _ => cases h

/-! ## One pass -/

/-- The pass for one kind of pieces. -/
theorem remove_left {kind : Piece.Kind} {second : CodeUnit → Bool} {more : List Regex}
    (hown : ∀ piece : Piece, piece.kind = kind →
      Rewrites (cat (esc :: .single second :: more)) (fun _ ↦ []) piece.units [])
    (hother : ∀ piece : Piece, piece.kind ≠ kind → ∀ mark ∈ piece.marks, second mark = false)
    (removed : List Piece.Kind) (pieces : List Piece) :
    remove (cat (esc :: .single second :: more)) (pieces.flatMap (Piece.left removed)) =
      pieces.flatMap (Piece.left (kind :: removed)) := by
  refine (starts_cat _ _ : Starts isEscape _).replaceAll_flatMap fun piece _ ↦ ?_
  unfold Piece.left
  by_cases hremoved : piece.kind ∈ removed
  · rw [if_pos hremoved, if_pos (List.mem_cons_of_mem _ hremoved)]
    exact fun passed rest ↦ rfl
  · rw [if_neg hremoved]
    by_cases hkind : piece.kind = kind
    · rw [if_pos (hkind ▸ List.mem_cons_self)]
      exact hown piece hkind
    · rw [if_neg (by simp [hkind, hremoved])]
      exact rewrites_other more _ piece (hother piece hkind)

theorem forall_marks {second : CodeUnit → Bool} {kind : Piece.Kind}
    (hcsi : kind = .csi ∨ second 0x5B = false)
    (hosc : kind = .osc ∨ second 0x5D = false ∧ second 0x5C = false)
    (hcharset : kind = .charset ∨ (js "()").all (!second ·) = true)
    (hkeypad : kind = .keypad ∨ (js "=>").all (!second ·) = true)
    (hsingle : kind = .single ∨ (js "78cDEHMNOZ").all (!second ·) = true)
    (piece : Piece) (h : piece.kind ≠ kind) : ∀ mark ∈ piece.marks, second mark = false := by
  cases piece with
  | text printed printable => simp [Piece.marks]
  | csi parameters final hparameters hfinal =>
    simpa [Piece.marks] using hcsi.resolve_left (Ne.symm h)
  | osc payload closing hpayload =>
    have hmarks := hosc.resolve_left (Ne.symm h)
    cases closing <;> simp [Piece.marks, hmarks]
  | charset set name hset hname =>
    simpa [Piece.marks] using
      List.all_eq_true.mp (hcharset.resolve_left (Ne.symm h)) set (mem_of_among hset)
  | keypad mode hmode =>
    simpa [Piece.marks] using
      List.all_eq_true.mp (hkeypad.resolve_left (Ne.symm h)) mode (mem_of_among hmode)
  | single command hcommand =>
    simpa [Piece.marks] using
      List.all_eq_true.mp (hsingle.resolve_left (Ne.symm h)) command (mem_of_among hcommand)

/-- What the passes behind OSC leave of the stream. -/
theorem remove_sequences (pieces : List Piece) :
    remove singleEsc (remove keypad (remove charset (remove csi
      (pieces.flatMap (Piece.left [.osc]))))) = pieces.flatMap Piece.printed := by
  have hcsi : ∀ removed, remove csi (pieces.flatMap (Piece.left removed)) =
      pieces.flatMap (Piece.left (.csi :: removed)) := fun removed ↦
    remove_left (fun _ ↦ removes_csi) (forall_marks (.inl rfl) (by decide) (by decide)
      (by decide) (by decide)) removed pieces
  have hcharset : ∀ removed, remove charset (pieces.flatMap (Piece.left removed)) =
      pieces.flatMap (Piece.left (.charset :: removed)) := fun removed ↦
    remove_left (fun _ ↦ removes_charset) (forall_marks (by decide) (by decide) (.inl rfl)
      (by decide) (by decide)) removed pieces
  have hkeypad : ∀ removed, remove keypad (pieces.flatMap (Piece.left removed)) =
      pieces.flatMap (Piece.left (.keypad :: removed)) := fun removed ↦
    remove_left (fun _ ↦ removes_keypad) (forall_marks (by decide) (by decide) (by decide)
      (.inl rfl) (by decide)) removed pieces
  have hsingle : ∀ removed, remove singleEsc (pieces.flatMap (Piece.left removed)) =
      pieces.flatMap (Piece.left (.single :: removed)) := fun removed ↦
    remove_left (fun _ ↦ removes_singleEsc) (forall_marks (by decide) (by decide) (by decide)
      (by decide) (.inl rfl)) removed pieces
  have hprinted : Piece.left [.single, .keypad, .charset, .csi, .osc] = Piece.printed := by
    funext piece
    cases piece <;> rfl
  calc
    _ = remove singleEsc (remove keypad (remove charset
          (pieces.flatMap (Piece.left [.csi, .osc])))) := by rw [hcsi]
    _ = remove singleEsc (remove keypad
          (pieces.flatMap (Piece.left [.charset, .csi, .osc]))) := by rw [hcharset]
    _ = remove singleEsc (pieces.flatMap (Piece.left [.keypad, .charset, .csi, .osc])) := by
      rw [hkeypad]
    _ = pieces.flatMap (Piece.left [.single, .keypad, .charset, .csi, .osc]) := by rw [hsingle]
    _ = pieces.flatMap Piece.printed := by rw [hprinted]

/-! ## Cursor movements -/

/-- A cursor movement is turned into text. -/
def Piece.spaced (piece : Piece) : Piece :=
  match piece.forward with
  | some count => .text (List.replicate count 0x20) fun unit hunit ↦ by
      rw [List.eq_of_mem_replicate hunit]
      decide
  | none => piece

theorem spaced_of_none {piece : Piece} (h : piece.forward = none) : piece.spaced = piece := by
  unfold Piece.spaced
  split
  · rename_i count hforward
    rw [h] at hforward
    cases hforward
  · rfl

theorem units_spaced_of_some {piece : Piece} {count : ℕ} (h : piece.forward = some count) :
    piece.spaced.units = List.replicate count 0x20 := by
  unfold Piece.spaced
  split
  · rename_i count' hforward
    rw [h] at hforward
    cases hforward
    rfl
  · rename_i hforward
    rw [h] at hforward
    cases hforward

theorem printed_spaced (piece : Piece) : piece.spaced.printed = piece.shown := by
  unfold Piece.spaced Piece.shown
  split <;> rfl

theorem oscEnd_spaced (piece : Piece) : piece.spaced.oscEnd = piece.oscEnd := by
  unfold Piece.spaced
  split
  · rename_i count hforward
    cases piece with
    | osc payload closing hpayload => cases hforward
    | _ => rfl
  · rfl

theorem forwardCount_eq (parameters : JsString) : forwardCount parameters =
    max 1 (min (if parameters = [] then 1 else Json.digitsValue parameters) 120) := by
  have hcount : ∀ value : ℕ, max 1 (min (if value = 0 then 1 else value) 120) =
      max 1 (min value 120) := by
    intro value
    split <;> omega
  simp only [forwardCount, hcount, List.isEmpty_iff]

/-- Only the letter of cursor movements ends the digits of one. -/
theorem split_parameters {parameters rest digits last : JsString} {final : CodeUnit}
    (hparameters : ∀ unit ∈ parameters, isParameter unit = true) (hfinal : isFinal final = true)
    (hdigits : ∀ unit ∈ digits, CodeUnit.isDigit unit = true)
    (h : parameters ++ final :: rest = digits ++ 0x43 :: last) :
    final = 0x43 ∧ digits = parameters := by
  induction parameters generalizing digits with
  | nil =>
    cases digits with
    | nil => exact ⟨(List.cons.inj h).1, rfl⟩
    | cons digit digits =>
      obtain ⟨rfl, -⟩ := List.cons.inj h
      have hdigit : isParameter final = true :=
        (Bool.or_eq_true _ _).mpr (Or.inl (hdigits final List.mem_cons_self))
      rw [(not_isFinal_of_isParameter hdigit).1] at hfinal
      cases hfinal
  | cons unit parameters ih =>
    rw [List.forall_mem_cons] at hparameters
    cases digits with
    | nil => exact absurd (List.cons.inj h).1 (not_isFinal_of_isParameter hparameters.1).2.1
    | cons digit digits =>
      obtain ⟨rfl, hrest⟩ := List.cons.inj h
      obtain ⟨hletter, hsame⟩ :=
        ih hparameters.2 (fun unit hunit ↦ hdigits unit (List.mem_cons_of_mem _ hunit)) hrest
      exact ⟨hletter, by rw [hsame]⟩

theorem cursorForward_eq : cursorForward =
    cat [esc, .single (· == 0x5B), .group 1 (.repeated true CodeUnit.isDigit),
      .single (· == 0x43)] := rfl

theorem matchAt_forward_none {parameters : JsString} {final : CodeUnit}
    (hparameters : ∀ unit ∈ parameters, isParameter unit = true) (hfinal : isFinal final = true)
    (h : ¬ (final = 0x43 ∧ parameters.all CodeUnit.isDigit)) (passed rest : JsString) :
    cursorForward.matchAt passed (0x1B :: 0x5B :: (parameters ++ final :: rest)) = none := by
  rw [← Option.map_eq_none_iff (f := id), map_matchAt, cursorForward_eq]
  simp only [run_cat_cons, run_cat_nil, esc]
  rw [run_single_cons, if_pos (by rfl), run_single_cons, if_pos (by rfl), run_group]
  rw [Option.eq_none_iff_forall_ne_some]
  intro found hfound
  obtain ⟨count, hdigits, hend⟩ := run_repeated_eq_some hfound
  rw [List.all_eq_true] at hdigits
  rw [run_single] at hend
  split at hend
  · rename_i hletter
    -- the digits are all parameters, and what is behind them is the final unit
    obtain ⟨unit, last, hlast⟩ : ∃ unit last,
        (parameters ++ final :: rest).drop count = unit :: last := by
      refine List.exists_cons_of_ne_nil fun hnil ↦ ?_
      simp [Cursor.skip, hnil] at hletter
    simp only [Cursor.skip, hlast, List.head?_cons, Option.any_some, beq_iff_eq] at hletter
    have hsplit : parameters ++ final :: rest =
        (parameters ++ final :: rest).take count ++ 0x43 :: last := by
      rw [← hletter, ← hlast, List.take_append_drop]
    obtain ⟨hfinal', hsame⟩ := split_parameters hparameters hfinal hdigits hsplit
    exact h ⟨hfinal', List.all_eq_true.mpr (hsame ▸ hdigits)⟩
  · cases hend

/-- The pass for cursor movements. -/
theorem rewrites_forward (piece : Piece) :
    Rewrites cursorForward (fun found ↦ List.replicate (forwardCount (found.text 1)) 0x20)
      piece.units piece.spaced.units := by
  by_cases hkind : piece.kind = .csi
  · cases piece with
    | csi parameters final hparameters hfinal =>
      by_cases hforward : final = 0x43 ∧ parameters.all CodeUnit.isDigit
      · have hcount : (Piece.csi parameters final hparameters hfinal).forward =
            some (forwardCount parameters) := by
          rw [forwardCount_eq]
          exact if_pos hforward
        rw [units_spaced_of_some hcount]
        obtain ⟨rfl, hdigits⟩ := hforward
        rw [List.all_eq_true] at hdigits
        refine rewrites_match (List.cons_ne_nil _ _) fun passed rest ↦
          ⟨[(1, parameters)], ?_, fun _ _ ↦ rfl⟩
        simp only [cursorForward_eq, run_cat_cons, run_cat_nil, esc, Piece.units, List.cons_append,
          List.append_assoc, List.nil_append]
        rw [run_single_cons, if_pos (by rfl), run_single_cons, if_pos (by rfl), run_group,
          run_repeated_last hdigits]
        · simp [run_single_cons]
        · simp [run_single_cons]
        · intro first last hsplit hne hall
          obtain ⟨unit, first, rfl⟩ := List.exists_cons_of_ne_nil hne
          obtain ⟨rfl, -⟩ := List.cons.inj hsplit
          exact absurd (hall _ List.mem_cons_self) (by decide)
      · have hcount : (Piece.csi parameters final hparameters hfinal).forward = none :=
          if_neg hforward
        rw [spaced_of_none hcount]
        refine starts_cursorForward.rewrites_cons (fun passed rest ↦ ?_) ?_
        · have hnone := matchAt_forward_none hparameters hfinal hforward passed rest
          simpa using hnone
        · refine List.forall_mem_cons.mpr ⟨by decide, List.forall_mem_append.mpr ⟨?_, ?_⟩⟩
          · intro unit hunit
            exact beq_eq_false_iff_ne.mpr (not_isFinal_of_isParameter (hparameters unit hunit)).2.2.1
          · refine List.forall_mem_singleton.mpr ?_
            exact beq_eq_false_iff_ne.mpr (ne_of_accepts (by decide) hfinal)
    | _ => cases hkind
  · have hsame : piece.spaced = piece := by
      cases piece with
      | csi parameters final hparameters hfinal => exact absurd rfl hkind
      | _ => rfl
    rw [hsame]
    exact rewrites_other _ _ piece
      (forall_marks (.inl rfl) (by decide) (by decide) (by decide) (by decide) piece hkind)

end Ansi

end Cordyceps.Core
