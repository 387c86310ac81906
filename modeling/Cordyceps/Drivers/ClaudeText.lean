import Cordyceps.Core.PlainText
import Cordyceps.Drivers.ClaudeLog
import Mathlib.Data.Bool.AllAny

/-!
# The text of a Claude message

What the message patterns find: where a message starts, where its first line ends, and
which chunks end it. The text of a message starts at the beginning of the chunk, not behind
the marker, which is only taken out of it.
-/

namespace Cordyceps.Drivers

open Foundations Foundations.Regex Foundations.StepMachine Agents Cordyceps.Core

namespace ClaudeTui

variable {clean : JsString}

theorem starts_messageStart : Starts (· == messageMarker) messageStart := starts_cat _ _

theorem messageStart_of_notMem (h : messageMarker ∉ clean) : messageStart.test clean = false := by
  rw [Regex.test, starts_messageStart.exec_eq_none]
  · rfl
  · intro unit hunit
    rw [beq_eq_false_iff_ne]
    rintro rfl
    exact h hunit

/-- The marker with the white space behind it. -/
theorem matchAt_messageStart {space : CodeUnit} (hspace : JsString.isSpace space = true)
    (passed rest : JsString) :
    ∃ found, messageStart.matchAt passed (messageMarker :: space :: rest) = some found ∧
      found.before = passed.reverse ∧ found.after = rest.dropWhile JsString.isSpace := by
  have hmatch := map_matchAt id messageStart passed (messageMarker :: space :: rest)
  rw [Option.map_id, messageStart, run_cat_cons, run_single, if_pos (by simp), run_cat_cons,
    run_cat_nil, spaces, repeated1, run_seq, run_single, if_pos (by simpa [Cursor.skip] using hspace),
    run_repeated_longest _ (by rfl)] at hmatch
  exact ⟨_, hmatch, rfl, Cursor.ahead_skip_takeWhile _ _⟩

/-- The marker is searched in the whole chunk. -/
theorem exec_messageStart {front : JsString} (hfront : messageMarker ∉ front) {space : CodeUnit}
    (hspace : JsString.isSpace space = true) (rest : JsString) :
    ∃ found, messageStart.exec (front ++ messageMarker :: space :: rest) = some found ∧
      found.before = front ∧ found.after = rest.dropWhile JsString.isSpace := by
  obtain ⟨found, hmatch, hbefore, hafter⟩ := matchAt_messageStart hspace front.reverse rest
  rw [List.reverse_reverse] at hbefore
  refine ⟨found, ?_, hbefore, hafter⟩
  rw [exec, starts_messageStart.execFrom_append, List.append_nil, execFrom, hmatch]
  intro unit hunit
  rw [beq_eq_false_iff_ne]
  rintro rfl
  exact hfront hunit

theorem exec_untilTerminator (text : JsString) :
    (untilTerminator.exec text).bind (Match.capture 1) =
      some (text.takeWhile (!isTerminator ·)) := by
  have hread := map_matchAt (Match.capture 1) untilTerminator [] text
  rw [untilTerminator, run_cat_cons, run_lineStart, if_pos rfl, run_cat_cons, run_cat_nil, run_group,
    run_repeated_longest _ (by rfl)] at hread
  obtain ⟨found, hfound, hcapture⟩ := Option.map_eq_some_iff.mp hread
  have htake : text.take (text.takeWhile (!isTerminator ·)).length =
      text.takeWhile (!isTerminator ·) :=
    (List.prefix_iff_eq_take.mp (List.takeWhile_prefix _)).symm
  rw [untilTerminator, exec_anchored, hfound, Option.bind_some, hcapture]
  simp only [Cursor.skip, Match.capture, htake, List.append_nil, List.length_reverse,
    List.length_nil, Nat.sub_zero, List.find?_cons_of_pos, BEq.rfl, Option.map_some]
  rw [List.take_of_length_le (List.length_reverse ..).le, List.reverse_reverse]

theorem messageEnd_test (unit : CodeUnit) (rest : JsString) :
    messageEnd.test (unit :: rest) = (unit == resultMarker || unit == 0x2722 || unit == 0x2736 ||
      unit == modeMarker || unit == modePaused) := by
  rw [Regex.test, messageEnd, exec_anchored, ← Option.isSome_map (f := id), map_matchAt,
    run_cat_cons, run_lineStart, if_pos rfl, run_cat_cons, run_cat_nil, run_single]
  have hisSome : ∀ (ends : Bool) (found : Match),
      (if ends = true then some found else none).isSome = ends := by
    intro ends found
    cases ends <;> rfl
  exact hisSome _ _

end ClaudeTui

open ClaudeTui

/-- The text up to the first terminator, trimmed. -/
def lineText (text : JsString) : JsString := JsString.trim (text.takeWhile (!isTerminator ·))

/-- The text of a message: what is in front of the marker is part of it. -/
theorem firstText_eq {front : JsString} (hfront : messageMarker ∉ front) {space : CodeUnit}
    (hspace : JsString.isSpace space = true) (rest : JsString) :
    ClaudeParser.firstText (front ++ messageMarker :: space :: rest) =
      lineText (front ++ JsString.trimStart rest) := by
  obtain ⟨found, hexec, hbefore, hafter⟩ := exec_messageStart hfront hspace rest
  rw [ClaudeParser.firstText, Regex.replaceFirst, hexec]
  simp only [exec_untilTerminator, Option.getD_some, hbefore, hafter, List.append_nil]
  rfl

theorem messageStart_test {front : JsString} (hfront : messageMarker ∉ front) {space : CodeUnit}
    (hspace : JsString.isSpace space = true) (rest : JsString) :
    messageStart.test (front ++ messageMarker :: space :: rest) = true := by
  obtain ⟨found, hexec, -⟩ := exec_messageStart hfront hspace rest
  rw [Regex.test, hexec]
  rfl

/-! ## What is in front of the marker -/

section

open JsString

/-- A text with a terminator. -/
def Ended (text : JsString) : Prop := ∃ unit ∈ text, isTerminator unit = true

theorem takeWhile_append_of_ended {text : JsString} (h : Ended text) (rest : JsString) :
    (text ++ rest).takeWhile (!isTerminator ·) = text.takeWhile (!isTerminator ·) := by
  rw [List.takeWhile_append, if_neg]
  intro hlength
  have hself := (List.takeWhile_prefix (!isTerminator ·)).eq_of_length hlength
  obtain ⟨unit, hunit, hterminator⟩ := h
  have hopen := List.takeWhile_eq_self_iff.mp hself unit hunit
  simp [hterminator] at hopen

theorem takeWhile_append_of_open {text : JsString} (h : ¬ Ended text) (rest : JsString) :
    (text ++ rest).takeWhile (!isTerminator ·) = text ++ rest.takeWhile (!isTerminator ·) :=
  List.takeWhile_append_of_pos fun unit hunit ↦ by
    simpa using fun hterminator ↦ h ⟨unit, hunit, hterminator⟩

theorem blank_takeWhile {text : JsString} (h : Blank text) (accepts : CodeUnit → Bool) :
    Blank (text.takeWhile accepts) :=
  fun unit hunit ↦ h unit ((List.takeWhile_prefix _).subset hunit)

/-- A text that shows something up to its first terminator can be trimmed first. -/
theorem lineText_trim {text : JsString} (h : lineText text ≠ []) :
    lineText (trim text) = lineText text := by
  obtain ⟨lead, tail, hlead, htail, htext⟩ := exists_margins text
  have hopen : ¬ Ended lead := by
    intro hended
    apply h
    rw [lineText, htext, List.append_assoc, takeWhile_append_of_ended hended]
    exact trim_blank (blank_takeWhile hlead _)
  have hcore : trim (text.takeWhile (!isTerminator ·)) =
      trim ((trim text ++ tail).takeWhile (!isTerminator ·)) := by
    conv_lhs => rw [htext]
    rw [List.append_assoc, takeWhile_append_of_open hopen, trim_blank_append hlead]
  calc
    _ = lineText (trim text ++ tail) := by
      by_cases hended : Ended (trim text)
      · rw [lineText, lineText, takeWhile_append_of_ended hended]
      · have hall := takeWhile_append_of_open hended []
        rw [List.append_nil, List.takeWhile_nil, List.append_nil] at hall
        rw [lineText, lineText, takeWhile_append_of_open hended, hall,
          trim_append_blank _ (blank_takeWhile htail _)]
    _ = lineText text := hcore.symm

/-- The text in front of the marker is read as the message, or as its beginning. -/
theorem lineText_append_iff {front body : JsString} (hfront : ∀ unit ∈ front.head?,
    isSpace unit = false) (hbody : lineText body ≠ []) :
    lineText (front ++ body) = lineText body ↔
      front = [] ∨ Ended front ∧ lineText front = lineText body := by
  cases front with
  | nil => simp
  | cons unit rest =>
    by_cases hended : Ended (unit :: rest)
    · rw [lineText, takeWhile_append_of_ended hended]
      simp [hended, lineText]
    · refine iff_of_false ?_ (by simp [hended])
      have hline : ¬ Blank (body.takeWhile (!isTerminator ·)) := mt trim_eq_nil_iff.mpr hbody
      have hunit : isSpace unit = false := hfront unit rfl
      have hstart := trimStart_append hunit [] (rest ++ body.takeWhile (!isTerminator ·))
      intro hsame
      have hlength : (trim (body.takeWhile (!isTerminator ·))).length ≤
          (trimEnd (body.takeWhile (!isTerminator ·))).length := by
        rw [← trimStart_trimEnd hline]
        exact (List.dropWhile_suffix _).length_le
      rw [lineText, takeWhile_append_of_open hended, trim, List.cons_append] at hsame
      rw [List.nil_append] at hstart
      rw [hstart, trimStart, List.dropWhile_nil, List.nil_append, ← List.cons_append,
        trimEnd_append hline] at hsame
      have hlengths := congrArg List.length hsame
      rw [List.length_append, List.length_cons, lineText] at hlengths
      omega

end

/-! ## A frame with something in front of the marker -/

section

variable {front rest : JsString}

/-- A chunk without control characters, up to its margins. -/
theorem ansiToText_marked (hfront : ∀ unit ∈ front, Ansi.isControl unit = false)
    (hrest : ∀ unit ∈ rest, Ansi.isControl unit = false) (hvisible : ¬ JsString.Blank rest) :
    ansiToText (front ++ messageMarker :: 0x20 :: rest) =
      JsString.trimStart front ++ messageMarker :: 0x20 :: JsString.trimEnd rest := by
  rw [Ansi.ansiToText_of_plain]
  · exact JsString.trim_around (by decide) hvisible front [0x20]
  · intro unit hunit
    rcases List.mem_append.mp hunit with hunit | hunit
    · exact hfront unit hunit
    · rcases List.mem_cons.mp hunit with rfl | hunit
      · decide
      · rcases List.mem_cons.mp hunit with rfl | hunit
        · decide
        · exact hrest unit hunit

/-- The first message of a session, published by the empty chunk. -/
theorem texts_first {session : Session ClaudeScratch} (now : Timestamp) {text : JsString}
    (hlast : session.state.lastMessage = none) (hcaptured : session.scratch.captured = some text) :
    (listen session (now, [])).texts =
      session.texts ++ if JsString.trim text = [] then [] else [JsString.trim text] := by
  rw [texts_listen, told_nil, hlast, hcaptured, ClaudeMessages.flush]
  by_cases hblank : JsString.trim text = []
  · simp [hblank]
  · simp [hblank, ClaudeMessages.publish]

/-- The text that the message machine reads in such a chunk. -/
theorem told_marked (session : Session ClaudeScratch) (now : Timestamp)
    (hmarker : messageMarker ∉ front) (hfront : ∀ unit ∈ front, Ansi.isControl unit = false)
    (hrest : ∀ unit ∈ rest, Ansi.isControl unit = false) (hvisible : ¬ JsString.Blank rest) :
    session.told (now, front ++ messageMarker :: 0x20 :: rest) =
      ClaudeMessages.draw now (lineText (JsString.trimStart front ++ JsString.trim rest))
        session.state.lastMessage session.scratch.captured := by
  have hstart : messageMarker ∉ JsString.trimStart front :=
    fun hmem ↦ hmarker ((List.dropWhile_suffix _).subset hmem)
  rw [Session.told, ClaudeMessages.tell]
  simp only [ansiToText_marked hfront hrest hvisible]
  rw [if_neg (by simp), messageStart_test hstart (by decide), if_pos rfl,
    firstText_eq hstart (by decide), JsString.trimStart_trimEnd hvisible]

end

/-- **What precedes the marker.** A chunk with a marker and an empty chunk give the message
behind the marker if and only if nothing visible precedes the marker, or what precedes it has
a terminator and the same text in front of that. -/
theorem marked_message_iff (now later : Timestamp) {front rest : JsString}
    (hmarker : messageMarker ∉ front) (hfront : ∀ unit ∈ front, Ansi.isControl unit = false)
    (hrest : ∀ unit ∈ rest, Ansi.isControl unit = false) (hshown : lineText rest ≠ []) :
    (listened [(now, front ++ messageMarker :: 0x20 :: rest), (later, [])]).texts =
        [lineText rest] ↔
      JsString.Blank front ∨ Ended (JsString.trimStart front) ∧
        lineText (JsString.trimStart front) = lineText rest := by
  have hvisible : ¬ JsString.Blank rest := by
    intro hblank
    exact hshown (JsString.trim_blank (blank_takeWhile hblank _))
  have hcore : lineText (JsString.trim rest) = lineText rest := lineText_trim hshown
  have hhead : ∀ unit ∈ (JsString.trimStart front).head?, JsString.isSpace unit = false := by
    intro unit hunit
    have hdrop := List.head?_dropWhile_not JsString.isSpace front
    rw [Option.mem_def, JsString.trimStart] at hunit
    simpa [hunit] using hdrop
  have hiff : lineText (JsString.trimStart front ++ JsString.trim rest) =
      lineText (JsString.trim rest) ↔ _ := lineText_append_iff hhead (by rwa [hcore])
  rw [hcore, JsString.trimStart_eq_nil_iff] at hiff
  rw [← hiff]
  -- the first feed captures the text, the second one publishes it unless it is blank
  have htrim : JsString.trim (lineText (JsString.trimStart front ++ JsString.trim rest)) =
      lineText (JsString.trimStart front ++ JsString.trim rest) := JsString.trim_trim _
  have htold := told_marked claudeParser.fresh now hmarker hfront hrest hvisible
  generalize lineText (JsString.trimStart front ++ JsString.trim rest) = text at htold htrim ⊢
  have hdrawn : ClaudeMessages.draw now text claudeParser.fresh.state.lastMessage
      claudeParser.fresh.scratch.captured = ⟨[], none, some text⟩ := rfl
  rw [hdrawn] at htold
  obtain ⟨-, hlast, hcaptured⟩ :=
    told_listen claudeParser.fresh (now, front ++ messageMarker :: 0x20 :: rest)
  have htexts := texts_listen claudeParser.fresh (now, front ++ messageMarker :: 0x20 :: rest)
  rw [htold] at hlast hcaptured htexts
  rw [listened, List.foldl_cons, List.foldl_cons, List.foldl_nil,
    texts_first later hlast hcaptured, htexts, htrim]
  by_cases hblank : text = []
  · simp [hblank, hshown.symm, Session.texts, DriverParser.fresh]
  · simp [hblank, Session.texts, DriverParser.fresh]

/-- Nothing visible in front of the marker. -/
theorem marked_message_behind_blanks :
    (listened [(0, js "  " ++ messageMarker :: 0x20 :: js "hi"), (1, [])]).texts =
      [lineText (js "hi")] :=
  (marked_message_iff 0 1 (by decide) (List.all_iff_forall_prop.mp rfl)
    (List.all_iff_forall_prop.mp rfl) (by decide)).mpr (Or.inl (List.all_iff_forall_prop.mp rfl))

/-- The status line in front of the marker becomes the message. -/
theorem status_line_precedes_message :
    (listened [(0, js "Opus " ++ messageMarker :: 0x20 :: js "hi"), (1, [])]).texts ≠
      [lineText (js "hi")] := by
  decide +kernel

end Cordyceps.Drivers
