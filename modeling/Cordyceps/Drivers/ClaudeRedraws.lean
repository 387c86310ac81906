import Cordyceps.Drivers.ClaudeStatusLines
import Cordyceps.Drivers.ClaudeText

/-!
# A message that is drawn again as it grows

While Claude writes a message, the terminal shows it again and again, a longer part of it
each time, with status lines in between. The parser keeps the longest part that it has
seen, but every status line publishes what was drawn so far. So the message is emitted once
and whole exactly if no status line follows on a part of it.
-/

namespace Cordyceps.Drivers

open Foundations Foundations.Regex Foundations.StepMachine Agents Cordyceps.Core ClaudeTui

/-- One chunk of a drawing: the part of the message that is shown, or a status line. -/
inductive Frame
  | message (shown : JsString)
  | status (chunk : JsString)

namespace Frame

def chunk : Frame → JsString
  | .message shown => messageMarker :: 0x20 :: shown
  | .status chunk => chunk

def shown : Frame → Option JsString
  | .message shown => some shown
  | .status _ => none

/-- No status line comes between a part of the text and the rest of it. -/
def Uncut (text : JsString) : Frame → Frame → Prop
  | .message part, .status _ => part = text
  | _, _ => True

end Frame

/-- The chunks of a drawing, up to the one that closes it. -/
def drawn (drawing : List (Timestamp × Frame)) (closing : Timestamp × JsString) :
    List (Timestamp × JsString) :=
  drawing.map (fun frame ↦ (frame.1, frame.2.chunk)) ++ [closing]

/-- What the frames publish, repetitions included. `pending` was shown last. -/
def published : Option JsString → List Frame → List JsString
  | pending, [] => (pending.map JsString.trim).toList
  | _, .message part :: rest => published (some part) rest
  | pending, .status _ :: rest => (pending.map JsString.trim).toList ++ published none rest

/-- A chunk that begins with a status glyph and draws no message. -/
structure StatusChunk (chunk : JsString) : Prop where
  glyph : ∃ unit ∈ chunk.head?, unit ∈ [resultMarker, 0x2722, 0x2736, modeMarker, modePaused]
  unmarked : messageMarker ∉ chunk

/-- A text that can be drawn as a message. -/
structure Drawable (text : JsString) : Prop where
  visible : text ≠ []
  trimmed : JsString.trim text = text
  unmarked : messageMarker ∉ text
  open_ended : ¬ Ended text

/-- Parts of a text, none of them shorter than the one before it. -/
structure Growing (text : JsString) (parts : List JsString) : Prop where
  proper : ∀ part ∈ parts, part ≠ [] ∧ part <+: text
  ordered : parts.Pairwise fun first second ↦ first.length ≤ second.length

/-- Frames that draw ever longer parts of a text, up to the whole. -/
structure Redrawn (text : JsString) (frames : List Frame) : Prop where
  growing : Growing text (frames.filterMap Frame.shown)
  whole : (frames.filterMap Frame.shown).getLast? = some text
  status : ∀ chunk, Frame.status chunk ∈ frames → StatusChunk chunk

theorem Growing.sublist {text : JsString} {parts fewer : List JsString} (h : Growing text parts)
    (hsub : fewer.Sublist parts) : Growing text fewer :=
  ⟨fun part hpart ↦ h.proper part (hsub.subset hpart), h.ordered.sublist hsub⟩

/-! ## What the frames do -/

section

variable {text part : JsString} {session : Session ClaudeScratch}

/-- What ends a message publishes it. -/
def conclude (now : Timestamp) (lastMessage captured : Option JsString) : ClaudeMessages.Told :=
  match captured with
  | none => ⟨[], lastMessage, none⟩
  | some text => ClaudeMessages.publish now text lastMessage none

theorem Drawable.tight (h : Drawable text) : JsString.Tight text := by
  rw [← h.trimmed]
  exact JsString.tight_trim text

theorem visible_part (h : Drawable text) (hpart : part <+: text) (hne : part ≠ []) :
    ¬ JsString.Blank part := by
  obtain ⟨unit, rest, rfl⟩ := List.exists_cons_of_ne_nil hne
  obtain ⟨tail, rfl⟩ := hpart
  intro hblank
  have hvisible := h.tight.head unit rfl
  rw [hblank unit List.mem_cons_self] at hvisible
  cases hvisible

/-- A message frame. -/
theorem told_message (h : Drawable text) (hplain : ∀ unit ∈ text, Ansi.isControl unit = false)
    (hpart : part <+: text) (hne : part ≠ []) (now : Timestamp) :
    session.told (now, Frame.chunk (.message part)) = ClaudeMessages.draw now (JsString.trim part)
      session.state.lastMessage session.scratch.captured := by
  have hline : lineText (JsString.trim part) = JsString.trim part := by
    have hopen : ¬ Ended (JsString.trim part) := by
      rintro ⟨unit, hunit, hterminator⟩
      exact h.open_ended ⟨unit, hpart.subset (JsString.mem_trim hunit), hterminator⟩
    have hwhole := takeWhile_append_of_open hopen []
    rw [List.append_nil, List.takeWhile_nil, List.append_nil] at hwhole
    rw [lineText, hwhole, JsString.trim_trim]
  have htold : session.told (now, [] ++ messageMarker :: 0x20 :: part) =
      ClaudeMessages.draw now (lineText ([] ++ JsString.trim part)) session.state.lastMessage
        session.scratch.captured :=
    told_marked session now List.not_mem_nil (by simp)
      (fun unit hunit ↦ hplain unit (hpart.subset hunit)) (visible_part h hpart hne)
  rw [List.nil_append, List.nil_append, hline] at htold
  exact htold

/-- A status line. -/
theorem told_status {chunk : JsString} (h : StatusChunk chunk) (now : Timestamp) :
    session.told (now, chunk) =
      conclude now session.state.lastMessage session.scratch.captured := by
  obtain ⟨unit, hhead, hglyph⟩ := h.glyph
  obtain ⟨rest, rfl⟩ : ∃ rest, chunk = unit :: rest := by
    cases chunk with
    | nil => cases hhead
    | cons first rest =>
      rw [List.head?_cons, Option.mem_some_iff] at hhead
      exact ⟨rest, by rw [hhead]⟩
  have hshown : ∀ unit ∈ [resultMarker, 0x2722, 0x2736, modeMarker, modePaused],
      Ansi.isControl unit = false ∧ JsString.isSpace unit = false ∧
        (unit == resultMarker || unit == 0x2722 || unit == 0x2736 || unit == modeMarker ||
          unit == modePaused) = true := List.all_iff_forall_prop.mp rfl
  obtain ⟨hcontrol, hspace, hend⟩ := hshown unit hglyph
  obtain ⟨others, hclean⟩ := Ansi.ansiToText_cons hcontrol hspace rest
  have hunmarked : messageMarker ∉ unit :: others := by
    rw [← hclean]
    intro hmarker
    rcases (Ansi.mem_ansiToText hmarker).1 with hmarker | hmarker
    · exact h.unmarked hmarker
    · exact absurd hmarker (by decide)
  rw [Session.told, ClaudeMessages.tell]
  simp only [hclean]
  rw [if_neg (by simp), messageStart_of_notMem hunmarked, if_neg Bool.false_ne_true]
  cases session.scratch.captured with
  | none => rfl
  | some text => exact if_pos ((messageEnd_test unit others).trans hend)

/-- The last chunk. -/
theorem told_closing {chunk : JsString} (h : chunk = [] ∨ StatusChunk chunk)
    (hvisible : ∀ text ∈ session.scratch.captured, JsString.trim text ≠ []) (now : Timestamp) :
    session.told (now, chunk) =
      conclude now session.state.lastMessage session.scratch.captured := by
  rcases h with rfl | h
  · rw [told_nil]
    cases hcaptured : session.scratch.captured with
    | none => rfl
    | some text => exact if_neg (hvisible text hcaptured)
  · exact told_status h now

theorem captured_conclude (now : Timestamp) (lastMessage captured : Option JsString) :
    (conclude now lastMessage captured).captured = none := by
  unfold conclude ClaudeMessages.publish
  split
  · rfl
  · split <;> rfl

/-- What is in the log when a message has ended. -/
theorem mem_texts_conclude (hlogged : Logged session)
    (hvisible : ∀ text ∈ session.scratch.captured, JsString.trim text ≠ []) {now : Timestamp}
    {chunk : JsString} (htold : session.told (now, chunk) =
      conclude now session.state.lastMessage session.scratch.captured) (text : JsString) :
    text ∈ (listen session (now, chunk)).texts ↔
      text ∈ session.texts ∨ text ∈ session.scratch.captured.map JsString.trim := by
  rw [texts_listen, htold, List.mem_append]
  cases hcaptured : session.scratch.captured with
  | none => simp [conclude]
  | some captured =>
    simp only [conclude, ClaudeMessages.publish, Option.map_some, Option.mem_some_iff]
    split
    · simp [eq_comm]
    · rename_i hold
      rw [not_and_or, not_not, not_not] at hold
      have hlast := hold.resolve_left (hvisible captured hcaptured)
      have hmem : JsString.trim captured ∈ session.texts :=
        List.mem_of_getLast? (hlogged.last.symm.trans hlast.symm)
      simp only [List.map_nil, List.not_mem_nil, or_false, iff_self_or]
      rintro rfl
      exact hmem

/-- The parser keeps the longer part. -/
theorem draw_longer (now : Timestamp) {captured : Option JsString}
    (h : ∀ prev ∈ captured, prev <+: part) (lastMessage : Option JsString) :
    ClaudeMessages.draw now part lastMessage captured = ⟨[], lastMessage, some part⟩ := by
  cases captured with
  | none => rfl
  | some prev =>
    have hbegins := h prev rfl
    simp only [ClaudeMessages.draw]
    split
    · rfl
    · have hstarts : JsString.startsWith part prev = true := List.isPrefixOf_iff_prefix.mpr hbegins
      rw [if_pos (Or.inl hstarts)]
      split
      · rfl
      · rename_i hshorter
        rw [hbegins.eq_of_length (Nat.le_antisymm hbegins.length_le (Nat.not_lt.mp hshorter))]

end

/-! ## What a drawing publishes -/

section

variable {text : JsString}

theorem map_trim_trim (text : Option JsString) :
    (text.map JsString.trim).map JsString.trim = text.map JsString.trim := by
  cases text <;> simp

theorem visible_captured (h : Drawable text) {pending : Option JsString} {parts : List JsString}
    (hgrowing : Growing text (pending.toList ++ parts)) {captured : Option JsString}
    (hcaptured : captured = pending.map JsString.trim) :
    ∀ shown ∈ captured, JsString.trim shown ≠ [] := by
  intro shown hshown
  rw [hcaptured] at hshown
  obtain ⟨part, hpart, rfl⟩ := Option.mem_map.mp hshown
  obtain ⟨hne, hbegins⟩ := hgrowing.proper part (List.mem_append_left _ (by simpa using hpart))
  rw [JsString.trim_trim, Ne, JsString.trim_eq_nil_iff]
  exact visible_part h hbegins hne

theorem filterMap_message (part : JsString) (rest : List Frame) :
    (Frame.message part :: rest).filterMap Frame.shown = part :: rest.filterMap Frame.shown := rfl

theorem filterMap_status (chunk : JsString) (rest : List Frame) :
    (Frame.status chunk :: rest).filterMap Frame.shown = rest.filterMap Frame.shown := rfl

/-- A message frame is captured in place of the part before it. -/
theorem listen_message (h : Drawable text) (hplain : ∀ unit ∈ text, Ansi.isControl unit = false)
    {part : JsString} {parts : List JsString} {pending : Option JsString}
    {session : Session ClaudeScratch}
    (hcaptured : session.scratch.captured = pending.map JsString.trim)
    (hgrowing : Growing text (pending.toList ++ part :: parts)) (now : Timestamp) :
    (listen session (now, Frame.chunk (.message part))).texts = session.texts ∧
      (listen session (now, Frame.chunk (.message part))).scratch.captured =
        (some part).map JsString.trim := by
  obtain ⟨hne, hpart⟩ := hgrowing.proper part (by simp)
  have hearlier : ∀ captured ∈ session.scratch.captured, captured <+: JsString.trim part := by
    intro captured hmem
    rw [hcaptured] at hmem
    obtain ⟨old, hold, rfl⟩ := Option.mem_map.mp hmem
    replace hold : old ∈ pending.toList := Option.mem_toList.mpr hold
    have hlength : old.length ≤ part.length :=
      (List.pairwise_append.mp hgrowing.ordered).2.2 old hold part List.mem_cons_self
    have hbegins : old <+: text := (hgrowing.proper old (List.mem_append_left _ hold)).2
    exact JsString.trim_prefix (List.prefix_of_prefix_length_le hbegins hpart hlength)
  have htold : session.told (now, Frame.chunk (.message part)) =
      ⟨[], session.state.lastMessage, some (JsString.trim part)⟩ :=
    (told_message h hplain hpart hne now).trans (draw_longer now hearlier _)
  constructor
  · rw [texts_listen, htold]
    exact List.append_nil _
  · rw [(told_listen session _).2.2, htold]
    rfl

/-- A chunk that ends a drawing publishes what is captured. -/
theorem listen_conclude (h : Drawable text) {chunk : JsString}
    (hchunk : chunk = [] ∨ StatusChunk chunk) {parts : List JsString} {pending : Option JsString}
    {session : Session ClaudeScratch} (hlogged : Logged session)
    (hcaptured : session.scratch.captured = pending.map JsString.trim)
    (hgrowing : Growing text (pending.toList ++ parts)) (now : Timestamp) :
    (∀ shown, shown ∈ (listen session (now, chunk)).texts ↔
        shown ∈ session.texts ∨ shown ∈ (pending.map JsString.trim).toList) ∧
      (listen session (now, chunk)).scratch.captured =
        (none : Option JsString).map JsString.trim := by
  have hvisible := visible_captured h hgrowing hcaptured
  have htold := told_closing hchunk hvisible now
  constructor
  · intro shown
    rw [mem_texts_conclude hlogged hvisible htold shown, hcaptured, map_trim_trim]
    exact or_congr_right Option.mem_toList.symm
  · rw [(told_listen session _).2.2, htold]
    exact captured_conclude ..

theorem foldl_drawn_cons (now : Timestamp) (frame : Frame) (rest : List (Timestamp × Frame))
    (closing : Timestamp × JsString) (session : Session ClaudeScratch) :
    (drawn ((now, frame) :: rest) closing).foldl listen session =
      (drawn rest closing).foldl listen (listen session (now, frame.chunk)) := by
  rw [drawn, List.map_cons, List.cons_append, List.foldl_cons, drawn]

/-- The log after a drawing. -/
theorem mem_texts_drawn (h : Drawable text) (hplain : ∀ unit ∈ text, Ansi.isControl unit = false)
    {closing : JsString} (hclosing : closing = [] ∨ StatusChunk closing) (later : Timestamp)
    (shown : JsString) {drawing : List (Timestamp × Frame)} {pending : Option JsString}
    {session : Session ClaudeScratch} (hlogged : Logged session)
    (hcaptured : session.scratch.captured = pending.map JsString.trim)
    (hgrowing : Growing text (pending.toList ++ (drawing.map Prod.snd).filterMap Frame.shown))
    (hstatus : ∀ chunk, Frame.status chunk ∈ drawing.map Prod.snd → StatusChunk chunk) :
    shown ∈ ((drawn drawing (later, closing)).foldl listen session).texts ↔
      shown ∈ session.texts ∨ shown ∈ published pending (drawing.map Prod.snd) := by
  induction drawing generalizing pending session with
  | nil => exact (listen_conclude h hclosing hlogged hcaptured hgrowing later).1 shown
  | cons frame rest ih =>
    obtain ⟨now, frame⟩ := frame
    have hnext : Logged (listen session (now, frame.chunk)) :=
      hlogged.hear (claudeParser_hear session _)
    have hrest : ∀ chunk, Frame.status chunk ∈ rest.map Prod.snd → StatusChunk chunk :=
      fun chunk hchunk ↦ hstatus chunk (List.mem_cons_of_mem _ hchunk)
    rw [foldl_drawn_cons, List.map_cons]
    cases frame with
    | message part =>
      obtain ⟨hsame, hkept⟩ := listen_message h hplain hcaptured hgrowing now
      have hparts : Growing text
          ((some part).toList ++ (rest.map Prod.snd).filterMap Frame.shown) :=
        hgrowing.sublist (List.sublist_append_right _ _)
      rw [ih hnext hkept hparts hrest, hsame, published]
    | status chunk =>
      have hchunk : chunk = [] ∨ StatusChunk chunk := Or.inr (hstatus chunk List.mem_cons_self)
      obtain ⟨hlog, hkept⟩ := listen_conclude h hchunk hlogged hcaptured hgrowing now
      have hparts : Growing text
          ((none : Option JsString).toList ++ (rest.map Prod.snd).filterMap Frame.shown) :=
        hgrowing.sublist (List.sublist_append_right _ _)
      have hlater := ih hnext hkept hparts hrest
      rw [published, List.mem_append, ← or_assoc, ← hlog shown]
      exact hlater

/-- The whole text is published when the drawing ends. -/
theorem mem_published {pending : Option JsString} {frames : List Frame}
    (hwhole : (pending.toList ++ frames.filterMap Frame.shown).getLast? = some text) :
    JsString.trim text ∈ published pending frames := by
  induction frames generalizing pending with
  | nil =>
    cases pending with
    | none => cases hwhole
    | some part =>
      obtain rfl : part = text := Option.some.inj hwhole
      exact List.mem_singleton_self _
  | cons frame rest ih =>
    cases frame with
    | message part =>
      rw [filterMap_message, List.getLast?_append_of_ne_nil _ (List.cons_ne_nil _ _)] at hwhole
      exact ih hwhole
    | status chunk =>
      rw [filterMap_status] at hwhole
      rw [published, List.mem_append]
      cases hrest : rest.filterMap Frame.shown with
      | nil =>
        rw [hrest, List.append_nil] at hwhole
        cases pending with
        | none => cases hwhole
        | some part =>
          obtain rfl : part = text := Option.some.inj hwhole
          exact Or.inl (List.mem_singleton_self _)
      | cons first others =>
        rw [hrest, List.getLast?_append_of_ne_nil _ (List.cons_ne_nil _ _)] at hwhole
        exact Or.inr (ih (by rw [hrest]; exact hwhole))

/-- Only the whole text is published if no status line cuts it. -/
theorem published_iff (h : Drawable text) {pending : Option JsString} {frames : List Frame}
    (hgrowing : Growing text (pending.toList ++ frames.filterMap Frame.shown))
    (hwhole : ∀ last ∈ (pending.toList ++ frames.filterMap Frame.shown).getLast?, last = text) :
    (∀ shown ∈ published pending frames, shown = text) ↔
      ((pending.map Frame.message).toList ++ frames).IsChain (Frame.Uncut text) := by
  have htrim : ∀ part, part <+: text → (JsString.trim part = text ↔ part = text) := by
    intro part hpart
    constructor
    · intro hsame
      have hlength : (JsString.trim part).length ≤ part.length := JsString.length_trim_le part
      rw [hsame] at hlength
      exact hpart.eq_of_length (Nat.le_antisymm hpart.length_le hlength)
    · rintro rfl
      exact h.trimmed
  induction frames generalizing pending with
  | nil =>
    cases pending with
    | none => simp [published]
    | some part =>
      have hpart := hwhole part rfl
      simp [published, hpart, h.trimmed]
  | cons frame rest ih =>
    cases frame with
    | message part =>
      rw [filterMap_message] at hgrowing hwhole
      rw [List.getLast?_append_of_ne_nil _ (List.cons_ne_nil _ _)] at hwhole
      have hparts : Growing text ((some part).toList ++ rest.filterMap Frame.shown) :=
        hgrowing.sublist (List.sublist_append_right _ _)
      refine (ih hparts hwhole).trans ?_
      cases pending with
      | none => rfl
      | some old => exact (List.isChain_cons_cons.trans (and_iff_right trivial)).symm
    | status chunk =>
      rw [filterMap_status] at hgrowing hwhole
      have hlater : ∀ last ∈ ((none : Option JsString).toList ++
          rest.filterMap Frame.shown).getLast?, last = text := by
        intro last hlast
        rw [Option.toList_none, List.nil_append] at hlast
        refine hwhole last ?_
        rw [List.getLast?_append_of_ne_nil _ (List.ne_nil_of_mem (List.mem_of_getLast? hlast))]
        exact hlast
      have hstatus : (Frame.status chunk :: rest).IsChain (Frame.Uncut text) ↔
          rest.IsChain (Frame.Uncut text) := by
        cases rest with
        | nil => exact iff_of_true (List.isChain_singleton _) List.isChain_nil
        | cons next others => exact List.isChain_cons_cons.trans (and_iff_right trivial)
      have hrest : (∀ shown ∈ published none rest, shown = text) ↔
          (Frame.status chunk :: rest).IsChain (Frame.Uncut text) :=
        (ih (hgrowing.sublist (List.sublist_append_right _ _)) hlater).trans hstatus.symm
      refine List.forall_mem_append.trans ((and_congr_right' hrest).trans ?_)
      cases pending with
      | none => simp
      | some part =>
        have hpart := (hgrowing.proper part List.mem_cons_self).2
        have hcut : Frame.Uncut text (.message part) (.status chunk) ↔ part = text := Iff.rfl
        simp [List.isChain_cons_cons, hcut, htrim part hpart]

end

/-! ## Control characters -/

theorem mem_firstText {unit : CodeUnit} {clean : JsString}
    (h : unit ∈ ClaudeParser.firstText clean) : unit ∈ clean := by
  unfold ClaudeParser.firstText at h
  simp only [exec_untilTerminator, Option.getD_some] at h
  have hreplaced := (List.takeWhile_prefix _).subset (JsString.mem_trim h)
  exact (mem_replaceFirst hreplaced).resolve_right List.not_mem_nil

/-- A captured text comes from the chunk, or was captured before. -/
theorem captured_tell (now : Timestamp) (chunk : JsString) (lastMessage captured : Option JsString)
    (text : JsString) (h : text ∈ (ClaudeMessages.tell now chunk lastMessage captured).captured) :
    text = ClaudeParser.firstText (ansiToText chunk) ∨ text ∈ captured ∨
      ∃ first ∈ captured, text = first ++ newline :: ansiToText chunk := by
  unfold ClaudeMessages.tell at h
  generalize ansiToText chunk = clean at h ⊢
  simp only at h
  split at h
  · cases captured with
    | none => cases h
    | some first =>
      simp only [ClaudeMessages.flush] at h
      split at h
      · exact Or.inr (Or.inl h)
      · rw [ClaudeMessages.captured_publish] at h
        cases h
  · split at h
    · cases captured with
      | none => exact Or.inl (Option.mem_some_iff.mp h).symm
      | some prev =>
        simp only [ClaudeMessages.draw] at h
        split at h
        · exact Or.inl (Option.mem_some_iff.mp h).symm
        · split at h
          · rw [Option.mem_some_iff] at h
            split at h
            · exact Or.inl h.symm
            · exact Or.inr (Or.inl (Option.mem_some_iff.mpr h))
          · rw [ClaudeMessages.captured_publish, Option.mem_some_iff] at h
            exact Or.inl h.symm
    · cases captured with
      | none => cases h
      | some first =>
        simp only [ClaudeMessages.pass] at h
        split at h
        · rw [ClaudeMessages.captured_publish] at h
          cases h
        · exact Or.inr (Or.inr ⟨first, rfl, (Option.mem_some_iff.mp h).symm⟩)

/-- No control characters, emitted or captured. -/
structure Uncontrolled (session : Session ClaudeScratch) : Prop where
  emitted : ∀ text ∈ session.texts, ∀ unit ∈ text, Ansi.isControl unit = false
  captured : ∀ text ∈ session.scratch.captured, ∀ unit ∈ text, Ansi.isControl unit = false

theorem Uncontrolled.listen {session : Session ClaudeScratch} (h : Uncontrolled session)
    (feed : Timestamp × JsString) : Uncontrolled (listen session feed) where
  emitted := by
    apply forall_texts_listen feed h.emitted
    intro text hcaptured unit hunit
    exact h.captured text hcaptured unit (JsString.mem_trim hunit)
  captured := by
    have hclean : ∀ unit ∈ ansiToText feed.2, Ansi.isControl unit = false :=
      fun unit hunit ↦ (Ansi.mem_ansiToText hunit).2
    rw [(told_listen session feed).2.2]
    intro text htext
    rcases captured_tell _ _ _ _ text htext with hdrawn | hold | ⟨first, hfirst, hlonger⟩
    · rw [hdrawn]
      exact fun unit hunit ↦ hclean unit (mem_firstText hunit)
    · exact h.captured text hold
    · rw [hlonger]
      refine List.forall_mem_append.mpr ⟨h.captured first hfirst, ?_⟩
      exact List.forall_mem_cons.mpr ⟨by decide, hclean⟩

theorem Uncontrolled.foldl_listen {session : Session ClaudeScratch} (h : Uncontrolled session)
    (feeds : List (Timestamp × JsString)) : Uncontrolled (feeds.foldl Drivers.listen session) := by
  apply listen_invariant _ h
  intro session feed hclean
  exact hclean.listen feed

theorem uncontrolled_fresh : Uncontrolled claudeParser.fresh :=
  ⟨by simp [Session.texts, DriverParser.fresh],
    by simp [DriverParser.fresh, claudeParser, ClaudeScratch.captured]⟩

/-! ## One message for a drawing -/

theorem eq_singleton_of_isChain {texts : List JsString} {text : JsString}
    (hchain : texts.IsChain (· ≠ ·)) (hmem : text ∈ texts) (hall : ∀ other ∈ texts, other = text) :
    texts = [text] := by
  match texts with
  | [] => cases hmem
  | [only] => rw [hall only List.mem_cons_self]
  | first :: second :: rest =>
    have hne := (List.isChain_cons_cons.mp hchain).1
    rw [hall first List.mem_cons_self,
      hall second (List.mem_cons_of_mem first List.mem_cons_self)] at hne
    exact absurd rfl hne

/-- **A message that grows is emitted once and whole** if and only if it has no control
characters and no status line follows on a part of it. -/
theorem redrawn_message_iff {text : JsString} {drawing : List (Timestamp × Frame)}
    {closing : JsString} (later : Timestamp) (hdrawable : Drawable text)
    (hredrawn : Redrawn text (drawing.map Prod.snd)) (hclosing : closing = [] ∨ StatusChunk closing) :
    (listened (drawn drawing (later, closing))).texts = [text] ↔
      (∀ unit ∈ text, Ansi.isControl unit = false) ∧
        (drawing.map Prod.snd).IsChain (Frame.Uncut text) := by
  by_cases hplain : ∀ unit ∈ text, Ansi.isControl unit = false
  · rw [and_iff_right hplain]
    have hlog := Logged.start.foldl_listen (drawn drawing (later, closing))
    have hmem : ∀ shown, shown ∈ (listened (drawn drawing (later, closing))).texts ↔
        shown ∈ published none (drawing.map Prod.snd) := by
      intro shown
      have hnone : claudeParser.fresh.scratch.captured =
          (none : Option JsString).map JsString.trim := rfl
      exact (mem_texts_drawn hdrawable hplain hclosing later shown Logged.start hnone
        hredrawn.growing hredrawn.status).trans (or_iff_right List.not_mem_nil)
    have hwhole : ∀ last ∈ ((none : Option JsString).toList ++
        (drawing.map Prod.snd).filterMap Frame.shown).getLast?, last = text :=
      fun last hlast ↦ Option.some.inj (hlast.symm.trans hredrawn.whole)
    have honly : (∀ shown ∈ published none (drawing.map Prod.snd), shown = text) ↔
        (drawing.map Prod.snd).IsChain (Frame.Uncut text) :=
      published_iff hdrawable hredrawn.growing hwhole
    rw [← honly]
    constructor
    · intro hone shown hshown
      rw [← hmem, hone] at hshown
      exact List.mem_singleton.mp hshown
    · intro hall
      have hpublished : JsString.trim text ∈ published none (drawing.map Prod.snd) :=
        mem_published hredrawn.whole
      rw [hdrawable.trimmed] at hpublished
      exact eq_singleton_of_isChain hlog.fresh ((hmem text).mpr hpublished)
        fun shown hshown ↦ hall shown ((hmem shown).mp hshown)
  · refine iff_of_false (fun hone ↦ hplain ?_) (fun hboth ↦ hplain hboth.1)
    have hclean := uncontrolled_fresh.foldl_listen (drawn drawing (later, closing))
    exact hclean.emitted text (by rw [← listened, hone]; exact List.mem_singleton_self text)

theorem drawable_hello : Drawable (js "Hello") :=
  ⟨by decide, by decide, by decide, by unfold Ended; decide⟩

theorem statusChunk_spinner : StatusChunk (js "✢ Thinking…") :=
  ⟨⟨0x2722, by decide, by decide⟩, by decide⟩

/-- The message is shown in two parts, and then a status line. -/
theorem redrawn_message_whole :
    (listened (drawn [(0, .message (js "He")), (1, .message (js "Hello")),
      (2, .status (js "✢ Thinking…"))] (3, []))).texts = [js "Hello"] :=
  (redrawn_message_iff 3 drawable_hello
    ⟨⟨by decide, by decide⟩, by decide, by simpa using statusChunk_spinner⟩
    (Or.inl rfl)).mpr ⟨List.all_iff_forall_prop.mp rfl, by simp [Frame.Uncut]⟩

/-- A status line between the two parts: the first part is emitted, too. -/
theorem status_line_cuts_message :
    Drawable (js "Hello") ∧
      Redrawn (js "Hello") [.message (js "He"), .status (js "✢ Thinking…"), .message (js "Hello")] ∧
      (listened (drawn [(0, .message (js "He")), (1, .status (js "✢ Thinking…")),
        (2, .message (js "Hello"))] (3, []))).texts = [js "He", js "Hello"] :=
  ⟨drawable_hello,
    ⟨⟨by decide, by decide⟩, by decide, by simpa using statusChunk_spinner⟩, by decide +kernel⟩

end Cordyceps.Drivers
