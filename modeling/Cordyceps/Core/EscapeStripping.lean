import Cordyceps.Core.EscapeSequences
import Cordyceps.Foundations.LeftOut

/-!
# Stripping escape sequences

All that the passes of `core/ansi.ts` take from a terminal stream besides the escape sequences is
what an OSC match covers: a sequence that ends with ESC \ is matched on to the end of a later one,
with the text between them.
-/

namespace Cordyceps.Core

open Foundations Regex JsString

namespace Ansi

/-! ## OSC sequences -/

/-- The end of an OSC sequence. -/
def closes (text : JsString) : Bool := text.head? == some 0x07 || [0x1B, 0x5C].isPrefixOf text

/-- `\x07|\x1b\\`. -/
def oscClosing : Regex := anyOf [.single (· == 0x07), cat [esc, .single (· == 0x5C)]]

theorem osc_eq : osc =
    cat [esc, .single (· == 0x5D), .repeated true (· != 0x07), oscClosing] := rfl

theorem run_oscClosing (closing : OscEnd) (passed rest : JsString) :
    run oscClosing some ⟨passed, closing.units ++ rest, []⟩ =
      some ⟨closing.units.reverse ++ passed, rest, []⟩ := by
  rw [oscClosing, anyOf, anyOf, run_alt]
  · simp only [run_cat_cons, run_cat_nil, esc]
    cases closing <;> rfl
  · exact fun hnil ↦ List.cons_ne_nil _ _ hnil

theorem run_oscClosing_none {ahead : JsString} (h : closes ahead = false) (passed : JsString) :
    run oscClosing some ⟨passed, ahead, []⟩ = none := by
  rw [oscClosing, anyOf, anyOf, run_alt]
  · simp only [run_cat_cons, run_cat_nil, esc]
    cases ahead with
    | nil => rfl
    | cons unit ahead =>
      rw [closes, Bool.or_eq_false_iff] at h
      obtain ⟨hbel, hst⟩ := h
      rw [run_single_cons, if_neg (by simpa using hbel), Option.none_or, run_single_cons]
      split
      · rename_i hescape
        rw [beq_iff_eq] at hescape
        subst hescape
        rw [run_single, if_neg]
        cases ahead with
        | nil => exact Bool.false_ne_true
        | cons next ahead =>
          intro hnext
          simp only [List.head?_cons, Option.any_some, beq_iff_eq] at hnext
          subst hnext
          exact Bool.noConfusion hst
      · rfl
  · exact fun hnil ↦ List.cons_ne_nil _ _ hnil

/-- The pattern of OSC runs up to a closing behind which there is none, or to the first BEL. -/
theorem run_osc {body rest : JsString} {closing : OscEnd} (hbody : ∀ unit ∈ body, unit ≠ 0x07)
    (hrest : closing = .st → ∀ last, last <:+ rest → closes last = false) (passed : JsString) :
    osc.run some ⟨passed, (0x1B :: 0x5D :: (body ++ closing.units)) ++ rest, []⟩ =
      some ⟨(0x1B :: 0x5D :: (body ++ closing.units)).reverse ++ passed, rest, []⟩ := by
  have haccepted : ∀ unit ∈ body, (unit != 0x07) = true :=
    fun unit hunit ↦ bne_iff_ne.mpr (hbody unit hunit)
  have hlater : ∀ first last, closing.units ++ rest = first ++ last → first ≠ [] →
      (∀ unit ∈ first, (unit != 0x07) = true) →
        run oscClosing some ⟨first.reverse ++ (body.reverse ++ 0x5D :: 0x1B :: passed), last, []⟩ =
          none := by
    intro first last hsplit hne hall
    obtain ⟨unit, first, rfl⟩ := List.exists_cons_of_ne_nil hne
    cases closing with
    | bel =>
      obtain ⟨rfl, -⟩ := List.cons.inj hsplit
      exact absurd (hall _ List.mem_cons_self) (by decide)
    | st =>
      obtain ⟨rfl, hbehind⟩ := List.cons.inj hsplit
      apply run_oscClosing_none
      cases first with
      | nil =>
        have hlast : 0x5C :: rest = last := hbehind
        rw [← hlast]
        rfl
      | cons second first =>
        obtain ⟨-, hlast⟩ := List.cons.inj hbehind
        exact hrest rfl last ⟨first, hlast.symm⟩
  simp only [osc_eq, run_cat_cons, run_cat_nil, esc, List.cons_append, List.append_assoc]
  rw [run_single_cons, if_pos (by rfl), run_single_cons, if_pos (by rfl),
    run_repeated_last haccepted (by rw [run_oscClosing]; rfl) hlater, run_oscClosing]
  simp

namespace Piece

/-- Whether an OSC sequence is open to a later one, after a piece. -/
def opens (unclosed : Bool) (piece : Piece) : Bool :=
  match piece.oscEnd with
  | some closing => closing == .st
  | none => unclosed

end Piece

/-- The pieces that no OSC match covers. `unclosed` tells that the last OSC sequence ended with
ESC \, so that a later one would extend its match. -/
def kept : Bool → List Piece → List Piece
  | _, [] => []
  | unclosed, piece :: rest =>
    (if unclosed && rest.any Piece.isOsc then [] else [piece]) ++ kept (piece.opens unclosed) rest

section

variable {pieces rest : List Piece}

theorem opens_of_not_isOsc {piece : Piece} (h : piece.isOsc = false) (unclosed : Bool) :
    piece.opens unclosed = unclosed := by
  rw [Piece.isOsc, Option.isSome_eq_false_iff, Option.isNone_iff_eq_none] at h
  rw [Piece.opens, h]

theorem kept_of_no_osc (h : ∀ piece ∈ pieces, piece.isOsc = false) (unclosed : Bool) :
    kept unclosed pieces = pieces := by
  induction pieces with
  | nil => rfl
  | cons piece rest ih =>
    rw [List.forall_mem_cons] at h
    have hnone : rest.any Piece.isOsc = false := List.any_eq_false.mpr fun other hother ↦ by
      simp [h.2 other hother]
    rw [kept, hnone, Bool.and_false, opens_of_not_isOsc h.1, ih h.2]
    rfl

theorem ne_bel {piece : Piece} (h : piece.oscEnd ≠ some .bel) :
    ∀ unit ∈ piece.units, unit ≠ 0x07 := by
  cases hosc : piece.isOsc with
  | false =>
    rcases units_shape hosc with ⟨-, hplain⟩ | ⟨mark, tail, -, -, hunits, hplain⟩
    · exact fun unit hunit ↦ (hplain unit hunit).2
    · rw [hunits]
      exact List.forall_mem_cons.mpr ⟨by decide, fun unit hunit ↦ (hplain unit hunit).2⟩
  | true =>
    cases piece with
    | osc payload closing hpayload =>
      cases closing with
      | bel => exact absurd rfl h
      | st =>
        refine List.forall_mem_cons.mpr ⟨by decide, List.forall_mem_cons.mpr ⟨by decide, ?_⟩⟩
        exact List.forall_mem_append.mpr
          ⟨fun unit hunit ↦ (hpayload unit hunit).2, List.all_iff_forall_prop.mp rfl⟩
    | _ => cases hosc

theorem not_closes_append {block rest : JsString}
    (hblock : ∀ unit ∈ block, unit ≠ 0x1B ∧ unit ≠ 0x07)
    (hrest : ∀ last, last <:+ rest → closes last = false) :
    ∀ last, last <:+ block ++ rest → closes last = false := by
  induction block with
  | nil => exact hrest
  | cons unit block ih =>
    rw [List.forall_mem_cons] at hblock
    intro last hlast
    rcases List.suffix_cons_iff.mp hlast with rfl | hlast
    · simp [closes, List.isPrefixOf, hblock.1.1.symm, hblock.1.2]
    · exact ih hblock.2 last hlast

/-- No OSC sequence ends where there is none. -/
theorem not_closes (h : ∀ piece ∈ pieces, piece.isOsc = false) :
    ∀ last, last <:+ stream pieces → closes last = false := by
  induction pieces with
  | nil =>
    intro last hlast
    rw [List.suffix_nil.mp hlast]
    rfl
  | cons piece rest ih =>
    rw [List.forall_mem_cons] at h
    rw [stream, List.flatMap_cons]
    rcases units_shape h.1 with ⟨-, hplain⟩ | ⟨mark, tail, -, hmark, hunits, hplain⟩
    · exact not_closes_append hplain (ih h.2)
    · rw [hunits]
      intro last hlast
      rcases List.suffix_cons_iff.mp hlast with rfl | hlast
      · simp [closes, List.isPrefixOf, hmark.symm]
      · exact not_closes_append hplain (ih h.2) last hlast

/-- The text of the pieces that no OSC match covers, without the OSC sequences. -/
def uncovered (unclosed : Bool) (pieces : List Piece) : JsString :=
  (kept unclosed pieces).flatMap (Piece.left [.osc])

theorem uncovered_cons (unclosed : Bool) (piece : Piece) (rest : List Piece) :
    uncovered unclosed (piece :: rest) =
      (if unclosed && rest.any Piece.isOsc then [] else piece.left [.osc]) ++
        uncovered (piece.opens unclosed) rest := by
  rw [uncovered, kept, List.flatMap_append, uncovered]
  congr 1
  split
  · rfl
  · exact List.append_nil _

theorem left_of_isOsc {piece : Piece} (h : piece.isOsc = true) : piece.left [.osc] = [] := by
  cases piece with
  | osc payload closing hpayload => rfl
  | _ => cases h

theorem uncovered_of_no_osc (h : rest.any Piece.isOsc = false) :
    uncovered true rest = uncovered false rest := by
  have hnone : ∀ piece ∈ rest, piece.isOsc = false :=
    fun piece hpiece ↦ by simpa using List.any_eq_false.mp h piece hpiece
  rw [uncovered, uncovered, kept_of_no_osc hnone, kept_of_no_osc hnone]

/-- A match that is open in front of `pieces` goes on over `body` and ends in front of `tail`. -/
structure Reaches (unclosed : Bool) (pieces : List Piece) (body : JsString) (closing : OscEnd)
    (tail : List Piece) : Prop where
  shorter : tail.length < pieces.length
  covered : uncovered unclosed pieces = uncovered false tail
  inside : ∀ unit ∈ body, unit ≠ 0x07
  units : stream pieces = body ++ (closing.units ++ stream tail)
  last : closing = .st → ∀ piece ∈ tail, piece.isOsc = false

namespace Reaches

variable {unclosed : Bool} {piece : Piece} {body : JsString} {closing : OscEnd} {tail : List Piece}

/-- A piece in front of an OSC sequence. -/
theorem cons (h : Reaches true rest body closing tail) (hpiece : piece.oscEnd ≠ some .bel)
    (hrest : rest.any Piece.isOsc = true) (hopens : piece.opens unclosed = true)
    (hcovered : unclosed = true ∨ piece.isOsc = true) :
    Reaches unclosed (piece :: rest) (piece.units ++ body) closing tail where
  shorter := Nat.lt_succ_of_lt h.shorter
  covered := by
    rw [uncovered_cons, hopens, h.covered]
    rcases hcovered with rfl | hosc
    · rw [hrest]
      rfl
    · rw [left_of_isOsc hosc, ite_self]
      rfl
  inside := List.forall_mem_append.mpr ⟨ne_bel hpiece, h.inside⟩
  units := by
    rw [stream, List.flatMap_cons, ← stream, h.units, List.append_assoc]
  last := h.last

/-- The last OSC sequence, or one that ends with BEL. -/
theorem close {payload : JsString} (hpayload : ∀ unit ∈ payload, unit ≠ 0x1B ∧ unit ≠ 0x07)
    (hlast : closing = .st → rest.any Piece.isOsc = false) :
    Reaches unclosed (.osc payload closing hpayload :: rest) (0x1B :: 0x5D :: payload) closing
      rest where
  shorter := Nat.lt_succ_self _
  covered := by
    rw [uncovered_cons, left_of_isOsc rfl, ite_self, List.nil_append]
    cases closing with
    | bel => rfl
    | st => exact uncovered_of_no_osc (hlast rfl)
  inside := List.forall_mem_cons.mpr ⟨by decide, List.forall_mem_cons.mpr
    ⟨by decide, fun unit hunit ↦ (hpayload unit hunit).2⟩⟩
  units := by
    rw [stream, List.flatMap_cons, ← stream]
    simp [Piece.units]
  last := fun hst piece hpiece ↦ by simpa using List.any_eq_false.mp (hlast hst) piece hpiece

end Reaches

/-- An open match goes on to the end of another OSC sequence. -/
theorem exists_reach (h : rest.any Piece.isOsc = true) :
    ∃ body closing tail, Reaches true rest body closing tail := by
  induction rest with
  | nil => cases h
  | cons piece rest ih =>
    cases hosc : piece.isOsc with
    | false =>
      have hrest : rest.any Piece.isOsc = true := by simpa [hosc] using h
      have hbel : piece.oscEnd ≠ some .bel := by
        intro hend
        simp [Piece.isOsc, hend] at hosc
      obtain ⟨body, closing, tail, hreach⟩ := ih hrest
      exact ⟨_, _, _, hreach.cons hbel hrest (opens_of_not_isOsc hosc true) (Or.inl rfl)⟩
    | true =>
      cases piece with
      | osc payload closing hpayload =>
        cases closing with
        | bel => exact ⟨_, _, _, Reaches.close hpayload (by simp)⟩
        | st =>
          cases hrest : rest.any Piece.isOsc with
          | false => exact ⟨_, _, _, Reaches.close hpayload fun _ ↦ hrest⟩
          | true =>
            obtain ⟨body, closing, tail, hreach⟩ := ih hrest
            exact ⟨_, _, _, hreach.cons (by simp [Piece.oscEnd]) hrest rfl (Or.inl rfl)⟩
      | _ => cases hosc

/-- The match of an OSC sequence. -/
theorem exists_match {payload : JsString} {closing : OscEnd}
    (hpayload : ∀ unit ∈ payload, unit ≠ 0x1B ∧ unit ≠ 0x07) (rest : List Piece) :
    ∃ body closing' tail,
      Reaches false (.osc payload closing hpayload :: rest) (0x1B :: 0x5D :: body) closing' tail := by
  cases closing with
  | bel => exact ⟨_, _, _, Reaches.close hpayload (by simp)⟩
  | st =>
    cases hrest : rest.any Piece.isOsc with
    | false => exact ⟨_, _, _, Reaches.close hpayload fun _ ↦ hrest⟩
    | true =>
      obtain ⟨body, closing, tail, hreach⟩ := exists_reach hrest
      exact ⟨_, _, _, hreach.cons (by simp [Piece.oscEnd]) hrest rfl (Or.inr rfl)⟩

theorem kind_ne_osc {piece : Piece} (h : piece.isOsc = false) : piece.kind ≠ .osc := by
  intro hkind
  cases piece with
  | osc payload closing hpayload => cases h
  | _ => cases hkind

/-- The pass leaves a piece that is no OSC sequence alone. -/
theorem rewrites_osc_other {piece : Piece} (hosc : piece.isOsc = false) :
    Rewrites osc (fun _ ↦ []) piece.units piece.units := by
  have hmarks : ∀ mark ∈ piece.marks, (mark == 0x5D) = false :=
    forall_marks (by decide) (.inl rfl) (by decide) (by decide) (by decide) piece
      (kind_ne_osc hosc)
  rw [osc_eq]
  exact rewrites_other _ _ piece hmarks

theorem uncovered_cons_other {piece : Piece} (hosc : piece.isOsc = false) (rest : List Piece) :
    uncovered false (piece :: rest) = piece.units ++ uncovered false rest := by
  have hleft : piece.left [.osc] = piece.units := if_neg (by simpa using kind_ne_osc hosc)
  rw [uncovered_cons, opens_of_not_isOsc hosc, Bool.false_and, if_neg Bool.false_ne_true, hleft]

/-- A match is taken out, and the pass goes on behind it. -/
theorem Reaches.replaceFrom_osc {pieces tail : List Piece} {body : JsString} {closing : OscEnd}
    (hreach : Reaches false pieces (0x1B :: 0x5D :: body) closing tail) (passed : JsString) :
    ∃ passed', osc.replaceFrom (fun _ ↦ []) 0 passed (stream pieces) =
      osc.replaceFrom (fun _ ↦ []) 0 passed' (stream tail) := by
  have hinside : ∀ unit ∈ body, unit ≠ 0x07 := fun unit hunit ↦
    hreach.inside unit (List.mem_cons_of_mem _ (List.mem_cons_of_mem _ hunit))
  have hrun : osc.run some
      ⟨passed, (0x1B :: 0x5D :: (body ++ closing.units)) ++ stream tail, []⟩ = _ :=
    run_osc hinside (fun hst ↦ not_closes (hreach.last hst)) passed
  rw [hreach.units, List.cons_append, List.cons_append, ← List.append_assoc,
    ← List.cons_append, ← List.cons_append,
    replaceFrom_of_some _ (matchAt_of_run hrun) rfl (List.cons_ne_nil _ _), List.nil_append]
  exact ⟨_, rfl⟩

/-- The pass for OSC sequences. -/
theorem remove_osc (pieces : List Piece) : remove osc (stream pieces) = uncovered false pieces := by
  -- a match may take several pieces, so the induction is on how many are left
  have hfrom : ∀ count (pieces : List Piece), pieces.length ≤ count → ∀ passed,
      osc.replaceFrom (fun _ ↦ []) 0 passed (stream pieces) = uncovered false pieces := by
    intro count
    induction count with
    | zero =>
      intro pieces hlength passed
      rw [List.length_eq_zero_iff.mp (Nat.le_zero.mp hlength)]
      exact starts_osc.replaceFrom_nil _ 0 passed
    | succ count ih =>
      intro pieces hlength passed
      cases pieces with
      | nil => exact starts_osc.replaceFrom_nil _ 0 passed
      | cons piece rest =>
        cases hosc : piece.isOsc with
        | false =>
          rw [uncovered_cons_other hosc, stream, List.flatMap_cons, rewrites_osc_other hosc]
          exact congrArg _ (ih rest (Nat.le_of_succ_le_succ hlength) _)
        | true =>
          cases piece with
          | osc payload closing hpayload =>
            obtain ⟨body, closing', tail, hreach⟩ := exists_match hpayload rest
            obtain ⟨passed', hreplace⟩ := hreach.replaceFrom_osc passed
            have hshorter := hreach.shorter
            rw [hreplace, hreach.covered]
            exact ih tail (by simp only [List.length_cons] at hlength hshorter; omega) _
          | _ => cases hosc
  exact hfrom pieces.length pieces le_rfl []

end

/-! ## The whole stream -/

/-- The last OSC sequence of these pieces ended with ESC \. -/
def unclosed (before : List Piece) : Bool := (before.filterMap Piece.oscEnd).getLast? == some .st

/-- What is between these pieces is covered by an OSC match. -/
def covered (before after : List Piece) : Bool := unclosed before && after.any Piece.isOsc

theorem unclosed_concat (before : List Piece) (piece : Piece) :
    unclosed (before ++ [piece]) = piece.opens (unclosed before) := by
  rw [unclosed, List.filterMap_append, Piece.opens]
  cases hend : piece.oscEnd with
  | none => simp [hend, unclosed]
  | some closing => simp [hend]

theorem leaveOut_covered (text : Piece → JsString) (before pieces : List Piece) :
    leaveOut text covered before pieces = (kept (unclosed before) pieces).flatMap text := by
  induction pieces generalizing before with
  | nil => rfl
  | cons piece rest ih =>
    rw [leaveOut, kept, List.flatMap_append, ih, unclosed_concat, covered]
    congr 1
    split
    · rfl
    · exact (List.append_nil _).symm

theorem filter_printed (pieces : List Piece) :
    (pieces.flatMap Piece.printed).filter (!isControl ·) = pieces.flatMap Piece.printed := by
  refine List.filter_eq_self.mpr fun unit hunit ↦ ?_
  obtain ⟨piece, -, hunit⟩ := List.mem_flatMap.mp hunit
  cases piece with
  | text printed printable => simp [printable unit hunit]
  | _ => cases hunit

theorem removeEscapes_stream (pieces : List Piece) :
    removeEscapes (stream pieces) = (kept false pieces).flatMap Piece.printed := by
  rw [removeEscapes, remove_osc, uncovered, remove_sequences]

theorem stripAnsi_stream (pieces : List Piece) :
    stripAnsi (stream pieces) = trim (leaveOut Piece.printed covered [] pieces) := by
  calc
    _ = trim ((removeEscapes (stream pieces)).filter (!isControl ·)) := stripAnsi_eq _
    _ = trim ((kept false pieces).flatMap Piece.printed) := by
      rw [removeEscapes_stream, filter_printed]
    _ = trim (leaveOut Piece.printed covered [] pieces) := by
      rw [leaveOut_covered]
      rfl

theorem spaced_stream (pieces : List Piece) :
    spaced (stream pieces) = stream (pieces.map Piece.spaced) := by
  rw [spaced, stream, starts_cursorForward.replaceAll_flatMap fun piece _ ↦ rewrites_forward piece,
    stream, List.flatMap_map]

theorem kept_map_spaced (unclosed : Bool) (pieces : List Piece) :
    kept unclosed (pieces.map Piece.spaced) = (kept unclosed pieces).map Piece.spaced := by
  have hosc : Piece.isOsc ∘ Piece.spaced = Piece.isOsc := by
    funext piece
    simp [Piece.isOsc, oscEnd_spaced]
  induction pieces generalizing unclosed with
  | nil => rfl
  | cons piece rest ih =>
    have hopens : piece.spaced.opens unclosed = piece.opens unclosed := by
      rw [Piece.opens, Piece.opens, oscEnd_spaced]
    have hany : (rest.map Piece.spaced).any Piece.isOsc = rest.any Piece.isOsc := by
      rw [List.any_map, hosc]
    rw [List.map_cons, kept, kept, hopens, hany, ih, List.map_append]
    congr 1
    split <;> rfl

theorem ansiToText_stream (pieces : List Piece) :
    ansiToText (stream pieces) = trim (leaveOut Piece.shown covered [] pieces) := by
  have hshown : (fun piece : Piece ↦ piece.spaced.printed) = Piece.shown := funext printed_spaced
  calc
    _ = trim ((removeEscapes (spaced (stream pieces))).filter (!isControl ·)) := ansiToText_eq _
    _ = trim ((kept false (pieces.map Piece.spaced)).flatMap Piece.printed) := by
      rw [spaced_stream, removeEscapes_stream, filter_printed]
    _ = trim ((kept false pieces).flatMap Piece.shown) := by
      rw [kept_map_spaced, List.flatMap_map, hshown]
    _ = trim (leaveOut Piece.shown covered [] pieces) := by
      rw [leaveOut_covered]
      rfl

theorem printed_eq_nil {piece : Piece} (h : piece.shown = []) : piece.printed = [] := by
  cases hforward : piece.forward with
  | none => rwa [Piece.shown, hforward] at h
  | some count =>
    cases piece with
    | csi parameters final hparameters hfinal => rfl
    | _ => cases hforward

theorem blank_printed {pieces : List Piece} (h : Blank (pieces.flatMap Piece.shown)) :
    Blank (pieces.flatMap Piece.printed) := by
  intro unit hunit
  obtain ⟨piece, hpiece, hprinted⟩ := List.mem_flatMap.mp hunit
  refine h unit (List.mem_flatMap.mpr ⟨piece, hpiece, ?_⟩)
  cases piece with
  | text printed printable => exact hprinted
  | _ => cases hprinted

theorem marginal_printed {before after : List Piece} {piece : Piece}
    (h : Marginal Piece.shown before piece after) : Marginal Piece.printed before piece after :=
  h.imp printed_eq_nil (Or.imp blank_printed blank_printed)

/-- **Stripping keeps all printable text** if and only if what stands between an OSC sequence that
ends with ESC \ and the next one shows nothing, or belongs to the blank margins of the text. -/
theorem stripping_keeps_text_iff (pieces : List Piece) :
    ansiToText (stream pieces) = trim (pieces.flatMap Piece.shown) ∧
        stripAnsi (stream pieces) = trim (pieces.flatMap Piece.printed) ↔
      ∀ before piece after, pieces = before ++ piece :: after → covered before after = true →
        Marginal Piece.shown before piece after := by
  rw [ansiToText_stream, stripAnsi_stream, trim_leaveOut_iff, trim_leaveOut_iff]
  exact and_iff_left_of_imp fun h before piece after hpieces hcovered ↦
    marginal_printed (h before piece after hpieces hcovered)

/-- Two window titles with text between them. -/
def twoTitles : List Piece :=
  [.osc (js "0;a") .st (List.all_iff_forall_prop.mp rfl),
    .text (js "lost") (List.all_iff_forall_prop.mp rfl),
    .osc (js "0;b") .st (List.all_iff_forall_prop.mp rfl),
    .text (js "kept") (List.all_iff_forall_prop.mp rfl)]

theorem osc_swallows_text :
    ansiToText (stream twoTitles) = js "kept" ∧
      trim (twoTitles.flatMap Piece.shown) = js "lostkept" := by
  decide +kernel

end Ansi

end Cordyceps.Core
