import Cordyceps.Drivers.ClaudeLog

/-!
# Status lines in messages

A line that begins with a glyph of Claude's status lines is no part of a message. It gets
into one where the glyph lists of the parser differ: in the first text, which does not
end at eight of the spinner glyphs, and in a continuation, which is refused by its first
glyph only, and only by five of them. A status line that is captured stays captured until it
is published.
-/

namespace Cordyceps.Drivers

open Foundations Foundations.StepMachine Agents Cordyceps.Core

/-- The glyphs of the status lines: the spinner, a result, or a mode. -/
def isStatusGlyph (unit : CodeUnit) : Bool :=
  ClaudeTui.isActivity unit || unit == ClaudeTui.resultMarker || unit == ClaudeTui.modeMarker ||
    unit == ClaudeTui.modePaused

/-- A line that begins with a status glyph, behind blanks. -/
def isStatusLine (line : JsString) : Bool := (JsString.trimStart line).head?.any isStatusGlyph

/-- One of the lines is a status line. -/
def showsStatus (text : JsString) : Bool := (text.splitOn newline).any isStatusLine

namespace StatusLines

/-- The same, reading from left to right. `opening` tells that the line is blank so far. -/
def scan : Bool → JsString → Bool
  | _, [] => false
  | opening, unit :: rest =>
    opening && isStatusGlyph unit ||
      scan (unit == newline || opening && JsString.isSpace unit) rest

theorem visible_of_contains {glyphs : List CodeUnit} {unit : CodeUnit}
    (hglyphs : glyphs.all (!JsString.isSpace ·) = true) (h : glyphs.contains unit = true) :
    JsString.isSpace unit = false := by
  simpa using List.all_eq_true.mp hglyphs unit (List.contains_iff_mem.mp h)

theorem visible_of_isStatusGlyph {unit : CodeUnit} (h : isStatusGlyph unit = true) :
    JsString.isSpace unit = false := by
  simp only [isStatusGlyph, ClaudeTui.isActivity, ClaudeTui.isSpinner, Bool.or_eq_true] at h
  obtain (((hspinner | hmore) | hresult) | hmode) | hpaused := h
  · exact visible_of_contains (by decide) hspinner
  · exact visible_of_contains (by decide) hmore
  · rw [eq_of_beq hresult]
    rfl
  · rw [eq_of_beq hmode]
    rfl
  · rw [eq_of_beq hpaused]
    rfl

theorem not_isStatusGlyph_of_isSpace {unit : CodeUnit} (h : JsString.isSpace unit = true) :
    isStatusGlyph unit = false := by
  by_contra hglyph
  rw [Bool.not_eq_false] at hglyph
  rw [visible_of_isStatusGlyph hglyph] at h
  cases h

theorem isStatusLine_cons (unit : CodeUnit) (line : JsString) : isStatusLine (unit :: line) =
    if JsString.isSpace unit then isStatusLine line else isStatusGlyph unit := by
  unfold isStatusLine
  rw [JsString.trimStart, List.dropWhile_cons]
  split <;> rfl

theorem scan_eq (opening : Bool) (text : JsString) :
    ∃ line rest, text.splitOn newline = line :: rest ∧
      scan opening text = (opening && isStatusLine line || rest.any isStatusLine) := by
  induction text generalizing opening with
  | nil => exact ⟨[], [], rfl, by simp [scan, isStatusLine, JsString.trimStart]⟩
  | cons unit text ih =>
    obtain ⟨line, rest, hlines, hscan⟩ := ih (unit == newline || opening && JsString.isSpace unit)
    rw [List.splitOn, List.splitOnP_cons_eq_if_modifyHead, scan, hscan]
    rw [List.splitOn] at hlines
    by_cases hunit : unit = newline
    · subst hunit
      refine ⟨[], line :: rest, by simp [hlines], ?_⟩
      have hglyph : isStatusGlyph newline = false := by decide
      simp [hglyph, isStatusLine, JsString.trimStart]
    · refine ⟨unit :: line, rest, by simp [hunit, hlines], ?_⟩
      rw [isStatusLine_cons, beq_eq_false_iff_ne.mpr hunit]
      cases hglyph : isStatusGlyph unit with
      | false => cases JsString.isSpace unit <;> simp
      | true => simp [visible_of_isStatusGlyph hglyph]

theorem showsStatus_eq (text : JsString) : showsStatus text = scan true text := by
  obtain ⟨line, rest, hlines, hscan⟩ := scan_eq true text
  rw [showsStatus, hlines, hscan, List.any_cons, Bool.true_and]

/-- How a text goes on does not take a status line back. -/
theorem scan_append_left (opening : Bool) (first second : JsString) (h : scan opening first = true) :
    scan opening (first ++ second) = true := by
  induction first generalizing opening with
  | nil => cases h
  | cons unit rest ih =>
    rw [scan, Bool.or_eq_true] at h
    rw [List.cons_append, scan, Bool.or_eq_true]
    exact h.imp_right (ih _)

theorem scan_blank_append {lead : JsString} (h : JsString.Blank lead) (text : JsString) :
    scan true (lead ++ text) = scan true text := by
  induction lead with
  | nil => rfl
  | cons unit lead ih =>
    rw [JsString.blank_cons] at h
    rw [List.cons_append, scan, not_isStatusGlyph_of_isSpace h.1, h.1]
    simpa using ih h.2

theorem scan_blank (opening : Bool) {text : JsString} (h : JsString.Blank text) :
    scan opening text = false := by
  induction text generalizing opening with
  | nil => rfl
  | cons unit text ih =>
    rw [JsString.blank_cons] at h
    rw [scan, not_isStatusGlyph_of_isSpace h.1, ih _ h.2]
    simp

theorem scan_append_blank (opening : Bool) (text : JsString) {tail : JsString}
    (h : JsString.Blank tail) : scan opening (text ++ tail) = scan opening text := by
  induction text generalizing opening with
  | nil => exact scan_blank opening h
  | cons unit text ih => rw [List.cons_append, scan, scan, ih]

theorem scan_newline (opening : Bool) (first second : JsString) :
    scan opening (first ++ newline :: second) = (scan opening first || scan true second) := by
  induction first generalizing opening with
  | nil =>
    have hglyph : isStatusGlyph newline = false := by decide
    simp [scan, hglyph]
  | cons unit first ih => rw [List.cons_append, scan, scan, ih, Bool.or_assoc]

end StatusLines

open StatusLines

theorem showsStatus_trim (text : JsString) : showsStatus (JsString.trim text) = showsStatus text := by
  obtain ⟨lead, tail, hlead, htail, htext⟩ := JsString.exists_margins text
  rw [showsStatus_eq, showsStatus_eq]
  conv_rhs => rw [htext]
  rw [scan_append_blank _ _ htail, scan_blank_append hlead]

theorem showsStatus_newline (first second : JsString) :
    showsStatus (first ++ newline :: second) = (showsStatus first || showsStatus second) := by
  rw [showsStatus_eq, showsStatus_eq, showsStatus_eq, scan_newline]

theorem showsStatus_of_startsWith {text pattern : JsString}
    (h : JsString.startsWith text pattern = true) (hshows : showsStatus pattern = true) :
    showsStatus text = true := by
  obtain ⟨rest, rfl⟩ := List.isPrefixOf_iff_prefix.mp h
  rw [showsStatus_eq] at hshows ⊢
  exact scan_append_left true pattern rest hshows

/-! ## Captured status lines -/

namespace ClaudeMessages

/-- A chunk that brings no status line into a message: neither into the text it draws nor into the
message it goes on with. -/
structure Plain (clean : JsString) (captured : Option JsString) : Prop where
  drawn : ClaudeTui.messageStart.test clean = true →
    showsStatus (ClaudeParser.firstText clean) = false
  continued : ClaudeTui.messageStart.test clean = false → captured.isSome = true →
    ClaudeTui.messageEnd.test clean = false → showsStatus clean = false

theorem plain_nil (captured : Option JsString) : Plain [] captured :=
  ⟨by decide +kernel, fun _ _ _ ↦ rfl⟩

variable (now : Timestamp) {chunk : JsString} (lastMessage : Option JsString)

/-- A captured text is captured on, with its status lines, or it is published. -/
theorem tell_some (chunk text : JsString) :
    (∃ text', (tell now chunk lastMessage (some text)).captured = some text' ∧
        (showsStatus text = true → showsStatus text' = true)) ∨
      JsString.trim text = [] ∨ some (JsString.trim text) = lastMessage ∨
      (tell now chunk lastMessage (some text)).messages = [⟨JsString.trim text, now, none⟩] := by
  have hpublish : ∀ captured, JsString.trim text = [] ∨ some (JsString.trim text) = lastMessage ∨
      (publish now text lastMessage captured).messages = [⟨JsString.trim text, now, none⟩] := by
    intro captured
    unfold publish
    split
    · exact Or.inr (Or.inr rfl)
    · rename_i hold
      rw [not_and_or, not_not, not_not] at hold
      exact hold.imp_right Or.inl
  unfold tell
  simp only
  split
  · simp only [flush]
    split
    · rename_i hblank
      exact Or.inr (Or.inl hblank)
    · exact Or.inr (hpublish none)
  · split
    · simp only [draw]
      split
      · rename_i hempty
        exact Or.inr (Or.inl (by rw [hempty, JsString.trim_nil]))
      · split
        · rename_i hsame
          refine Or.inl ⟨_, rfl, fun hshows ↦ ?_⟩
          split
          · rename_i hlonger
            rcases hsame with hprefix | hprefix
            · exact showsStatus_of_startsWith hprefix hshows
            · have hlength := (List.isPrefixOf_iff_prefix.mp hprefix).length_le
              omega
          · exact hshows
        · exact Or.inr (hpublish _)
    · simp only [pass]
      split
      · exact Or.inr (hpublish none)
      · refine Or.inl ⟨_, rfl, fun hshows ↦ ?_⟩
        rw [showsStatus_newline, hshows, Bool.true_or]

theorem captured_publish (text : JsString) (captured : Option JsString) :
    (publish now text lastMessage captured).captured = captured := by
  unfold publish
  split <;> rfl

/-- A chunk that is plain captures no status line anew. -/
theorem tell_plain {captured : Option JsString} (hplain : Plain (ansiToText chunk) captured)
    (hcaptured : ∀ text ∈ captured, showsStatus text = false) :
    ∀ text ∈ (tell now chunk lastMessage captured).captured, showsStatus text = false := by
  unfold tell
  generalize ansiToText chunk = clean at hplain ⊢
  simp only
  split
  · cases captured with
    | none => simp [flush]
    | some text =>
      simp only [flush]
      split
      · exact hcaptured
      · simp [captured_publish]
  · cases hstart : ClaudeTui.messageStart.test clean with
    | true =>
      have hdrawn := hplain.drawn hstart
      simp only [if_true]
      cases captured with
      | none => simpa [draw] using hdrawn
      | some prev =>
        have hprev := hcaptured prev rfl
        simp only [draw]
        split
        · simpa using hdrawn
        · split
          · split <;> simpa
          · simpa [captured_publish] using hdrawn
    | false =>
      simp only [Bool.false_eq_true, if_false]
      cases captured with
      | none => simp [pass]
      | some text =>
        simp only [pass]
        cases hend : ClaudeTui.messageEnd.test clean with
        | true => simp [captured_publish]
        | false =>
          have hcontinued := hplain.continued hstart rfl hend
          simp [showsStatus_newline, hcontinued, hcaptured text rfl]

/-- A chunk that is not plain leaves a status line captured. -/
theorem tell_not_plain {captured : Option JsString} (hmixed : ¬ Plain (ansiToText chunk) captured) :
    ∃ text, (tell now chunk lastMessage captured).captured = some text ∧
      showsStatus text = true := by
  unfold tell
  generalize ansiToText chunk = clean at hmixed ⊢
  have hempty : ¬ clean.isEmpty = true := by
    rw [List.isEmpty_iff]
    intro hnil
    apply hmixed
    rw [hnil]
    exact plain_nil captured
  simp only [hempty, Bool.false_eq_true, if_false]
  cases hstart : ClaudeTui.messageStart.test clean with
  | true =>
    have hdrawn : showsStatus (ClaudeParser.firstText clean) = true := by
      by_contra hplain
      exact hmixed ⟨fun _ ↦ Bool.eq_false_iff.mpr hplain, by simp [hstart]⟩
    simp only [if_true]
    cases captured with
    | none => exact ⟨_, rfl, hdrawn⟩
    | some prev =>
      simp only [draw]
      split
      · exact ⟨_, rfl, hdrawn⟩
      · split
        · rename_i hsame
          refine ⟨_, rfl, ?_⟩
          split
          · exact hdrawn
          · -- the longer text is the old one, which begins with the new one
            rename_i hshorter
            rcases hsame with hprefix | hprefix
            · have hpre := List.isPrefixOf_iff_prefix.mp hprefix
              rwa [hpre.eq_of_length (by have := hpre.length_le; omega)]
            · exact showsStatus_of_startsWith hprefix hdrawn
        · exact ⟨_, captured_publish .., hdrawn⟩
  | false =>
    have hcontinued : captured.isSome = true ∧
        ClaudeTui.messageEnd.test clean = false ∧
        showsStatus clean = true := by
      by_contra hplain
      refine hmixed ⟨by simp [hstart], fun _ hsome hend ↦ ?_⟩
      by_contra hshows
      exact hplain ⟨hsome, hend, Bool.not_eq_false _ ▸ hshows⟩
    obtain ⟨hsome, hend, hshows⟩ := hcontinued
    obtain ⟨text, rfl⟩ := Option.isSome_iff_exists.mp hsome
    simp only [Bool.false_eq_true, if_false, pass, hend]
    exact ⟨_, rfl, by rw [showsStatus_newline, hshows, Bool.or_true]⟩

end ClaudeMessages

/-! ## Sessions -/

/-- A feed that brings no status line into a message. -/
def PlainFeed (session : Session ClaudeScratch) (feed : Timestamp × JsString) : Prop :=
  ClaudeMessages.Plain (ansiToText feed.2) session.scratch.captured

/-- No status line, emitted or captured. -/
structure Unmixed (session : Session ClaudeScratch) : Prop where
  emitted : ∀ text ∈ session.texts, showsStatus text = false
  captured : ∀ text ∈ session.scratch.captured, showsStatus text = false

/-- A status line, emitted or captured. -/
def Mixed (session : Session ClaudeScratch) : Prop :=
  (∃ text ∈ session.texts, showsStatus text = true) ∨
    ∃ text ∈ session.scratch.captured, showsStatus text = true

section

variable {session : Session ClaudeScratch} {feed : Timestamp × JsString}

theorem Unmixed.listen (h : Unmixed session) (hplain : PlainFeed session feed) :
    Unmixed (listen session feed) where
  emitted := by
    apply forall_texts_listen feed h.emitted
    intro text hcaptured
    rw [showsStatus_trim]
    exact h.captured text hcaptured
  captured := by
    rw [(told_listen session feed).2.2]
    exact ClaudeMessages.tell_plain feed.1 session.state.lastMessage hplain h.captured

theorem visible_of_showsStatus {text : JsString} (h : showsStatus text = true) :
    JsString.trim text ≠ [] := by
  intro hblank
  rw [← showsStatus_trim, hblank] at h
  exact absurd h (by decide)

/-- A captured status line stays captured, or it is in the log. -/
theorem mixed_of_captured (hlogged : Logged session) {text : JsString}
    (hcaptured : session.scratch.captured = some text) (hshows : showsStatus text = true) :
    (∃ text ∈ (listen session feed).texts, showsStatus text = true) ∨
      ∃ text', (session.told feed).captured = some text' ∧ showsStatus text' = true := by
  rw [texts_listen, Session.told, hcaptured]
  rcases ClaudeMessages.tell_some feed.1 session.state.lastMessage feed.2 text with
    ⟨text', hcaptured', hkept⟩ | hblank | hold | hnew
  · exact Or.inr ⟨text', hcaptured', hkept hshows⟩
  · exact absurd hblank (visible_of_showsStatus hshows)
  · refine Or.inl ⟨JsString.trim text, List.mem_append_left _ ?_, by rwa [showsStatus_trim]⟩
    exact List.mem_of_getLast? (hlogged.last.symm.trans hold.symm)
  · refine Or.inl ⟨JsString.trim text, List.mem_append_right _ ?_, by rwa [showsStatus_trim]⟩
    rw [hnew]
    exact List.mem_cons_self

theorem Mixed.listen (hlogged : Logged session) (h : Mixed session) : Mixed (listen session feed) := by
  rcases h with ⟨text, htext, hshows⟩ | ⟨text, hcaptured, hshows⟩
  · refine Or.inl ⟨text, ?_, hshows⟩
    rw [texts_listen]
    exact List.mem_append_left _ htext
  · refine (mixed_of_captured hlogged hcaptured hshows).imp_right ?_
    rintro ⟨text', hcaptured', hshows'⟩
    exact ⟨text', (told_listen session feed).2.2.trans hcaptured', hshows'⟩

theorem mixed_of_not_plain (hmixed : ¬ PlainFeed session feed) : Mixed (listen session feed) := by
  obtain ⟨text, hcaptured, hshows⟩ :=
    ClaudeMessages.tell_not_plain feed.1 session.state.lastMessage hmixed
  exact Or.inr ⟨text, (told_listen session feed).2.2.trans hcaptured, hshows⟩

end

theorem stepsMeet_plain_cons {session : Session ClaudeScratch} {feed : Timestamp × JsString}
    {rest : List (Timestamp × JsString)} :
    StepsMeet claudeParser.hear PlainFeed session (feed :: rest) ↔
      PlainFeed session feed ∧ StepsMeet claudeParser.hear PlainFeed (listen session feed) rest :=
  ⟨fun h ↦ h _ rfl, fun h next hnext ↦ by cases hnext; exact h⟩

theorem unmixed_of_stepsMeet {feeds : List (Timestamp × JsString)}
    {session : Session ClaudeScratch} (h : Unmixed session)
    (hmeet : StepsMeet claudeParser.hear PlainFeed session feeds) :
    Unmixed (feeds.foldl listen session) := by
  induction feeds generalizing session with
  | nil => exact h
  | cons feed rest ih =>
    obtain ⟨hplain, hrest⟩ := stepsMeet_plain_cons.mp hmeet
    exact ih (h.listen hplain) hrest

theorem Mixed.foldl_listen {feeds : List (Timestamp × JsString)} {session : Session ClaudeScratch}
    (hlogged : Logged session) (h : Mixed session) : Mixed (feeds.foldl Drivers.listen session) := by
  have hkeep : ∀ session feed, Logged session ∧ Mixed session →
      Logged (Drivers.listen session feed) ∧ Mixed (Drivers.listen session feed) := by
    rintro session feed ⟨hlogged, hmixed⟩
    exact ⟨hlogged.hear (claudeParser_hear session feed), hmixed.listen hlogged⟩
  exact (listen_invariant hkeep ⟨hlogged, h⟩ feeds).2

theorem mixed_of_not_stepsMeet {feeds : List (Timestamp × JsString)}
    {session : Session ClaudeScratch} (hlogged : Logged session)
    (hmeet : ¬ StepsMeet claudeParser.hear PlainFeed session feeds) :
    Mixed (feeds.foldl listen session) := by
  induction feeds generalizing session with
  | nil => exact absurd trivial hmeet
  | cons feed rest ih =>
    have hnext := hlogged.hear (claudeParser_hear session feed)
    by_cases hplain : PlainFeed session feed
    · exact ih hnext fun hrest ↦ hmeet (stepsMeet_plain_cons.mpr ⟨hplain, hrest⟩)
    · rw [List.foldl_cons]
      exact (mixed_of_not_plain hplain).foldl_listen hnext

/-- The empty chunk brings a captured status line into the log. -/
theorem Mixed.flushed {session : Session ClaudeScratch} (hlogged : Logged session)
    (h : Mixed session) (now : Timestamp) :
    ∃ text ∈ (Drivers.listen session (now, [])).texts, showsStatus text = true := by
  rcases h with ⟨text, htext, hshows⟩ | ⟨text, hcaptured, hshows⟩
  · refine ⟨text, ?_, hshows⟩
    rw [texts_listen]
    exact List.mem_append_left _ htext
  · have hfate : (∃ text ∈ (Drivers.listen session (now, [])).texts, showsStatus text = true) ∨
        ∃ text', (session.told (now, [])).captured = some text' ∧ showsStatus text' = true :=
      mixed_of_captured hlogged hcaptured hshows
    rcases hfate with h | ⟨text', h, -⟩
    · exact h
    · have hblank := visible_of_showsStatus hshows
      rw [Option.mem_def] at hcaptured
      rw [told_nil, hcaptured] at h
      simp [ClaudeMessages.flush, hblank, ClaudeMessages.captured_publish] at h

/-- **No status line in a message.** No message of a session has one if all feeds are plain; and
with an empty chunk at the end, only if they are. -/
theorem claude_messages_unmixed_iff (feeds : List (Timestamp × JsString)) (now : Timestamp) :
    (StepsMeet claudeParser.hear PlainFeed claudeParser.fresh feeds →
        ∀ text ∈ (listened feeds).texts, showsStatus text = false) ∧
      ((∀ text ∈ (listened (feeds ++ [(now, [])])).texts, showsStatus text = false) ↔
        StepsMeet claudeParser.hear PlainFeed claudeParser.fresh feeds) := by
  have hstart : Unmixed claudeParser.fresh :=
    ⟨by simp [Session.texts, DriverParser.fresh], by simp [DriverParser.fresh, claudeParser,
      ClaudeScratch.captured]⟩
  have hclosed : listened (feeds ++ [(now, [])]) = listen (listened feeds) (now, []) :=
    List.foldl_concat ..
  refine ⟨fun hmeet ↦ (unmixed_of_stepsMeet hstart hmeet).emitted, ?_, fun hmeet ↦ ?_⟩
  · intro hplain
    by_contra hmeet
    obtain ⟨text, htext, hshows⟩ :=
      (mixed_of_not_stepsMeet Logged.start hmeet).flushed (Logged.start.foldl_listen feeds) now
    rw [hclosed] at hplain
    rw [hplain text htext] at hshows
    cases hshows
  · have hempty : PlainFeed (listened feeds) (now, []) := ClaudeMessages.plain_nil _
    rw [hclosed]
    exact ((unmixed_of_stepsMeet hstart hmeet).listen hempty).emitted

/-- A spinner glyph that does not end a message. -/
theorem spinner_continues_message :
    ¬ ∀ text ∈ (listened [(0, js "● hi"), (1, js "✽ Thinking… (3s)"), (2, [])]).texts,
      showsStatus text = false := by
  decide +kernel

end Cordyceps.Drivers
