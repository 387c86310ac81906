import Cordyceps.Drivers.ClaudeParser

/-!
# What the Claude parser does with messages

Of all that the Claude parser reads and remembers, its messages depend on three
things only: the chunk, the text published last, and the text captured so far.
`tell` is that machine; the parser simulates it, whatever its other parsers find.
-/

namespace Cordyceps.Drivers

open Foundations Agents Cordyceps.Core

/-- The message that is being captured, if one is. -/
def ClaudeScratch.captured (scratch : ClaudeScratch) : Option JsString :=
  if scratch.capturingMessage then some scratch.messageBuf else none

namespace ClaudeMessages

/-- What one chunk makes of the messages: those emitted, the text published last, and the text
captured. -/
structure Told where
  messages : List AssistantMessage
  lastMessage : Option JsString
  captured : Option JsString

/-- A finished message is published, unless it is blank or the one published last. -/
def publish (now : Timestamp) (text : JsString) (lastMessage captured : Option JsString) : Told :=
  if JsString.trim text ≠ [] ∧ some (JsString.trim text) ≠ lastMessage then
    ⟨[⟨JsString.trim text, now, none⟩], some (JsString.trim text), captured⟩
  else ⟨[], lastMessage, captured⟩

/-- The empty chunk. -/
def flush (now : Timestamp) (lastMessage captured : Option JsString) : Told :=
  match captured with
  | none => ⟨[], lastMessage, none⟩
  | some text =>
    if JsString.trim text = [] then ⟨[], lastMessage, some text⟩
    else publish now text lastMessage none

/-- A chunk that draws a message. -/
def draw (now : Timestamp) (text : JsString) (lastMessage captured : Option JsString) : Told :=
  match captured with
  | none => ⟨[], lastMessage, some text⟩
  | some prev =>
    if prev = [] then ⟨[], lastMessage, some text⟩
    else if JsString.startsWith text prev ∨ JsString.startsWith prev text then
      ⟨[], lastMessage, some (if text.length > prev.length then text else prev)⟩
    else publish now prev lastMessage (some text)

/-- A chunk without a message marker: the end of a message, or its next line. -/
def pass (now : Timestamp) (clean : JsString) (lastMessage captured : Option JsString) : Told :=
  match captured with
  | none => ⟨[], lastMessage, none⟩
  | some text =>
    if ClaudeTui.messageEnd.test clean then publish now text lastMessage none
    else ⟨[], lastMessage, some (text ++ newline :: clean)⟩

/-- One chunk. -/
def tell (now : Timestamp) (chunk : JsString) (lastMessage captured : Option JsString) : Told :=
  let clean := ansiToText chunk
  if clean.isEmpty then flush now lastMessage captured
  else if ClaudeTui.messageStart.test clean then
    draw now (ClaudeParser.firstText clean) lastMessage captured
  else pass now clean lastMessage captured

end ClaudeMessages

namespace ClaudeParser

/-! ## Parsers that leave messages alone -/

/-- A step that is no concern of messages. -/
structure Spares (before after : Draft) : Prop where
  messages : after.messages = before.messages
  lastMessage : after.next.lastMessage = before.next.lastMessage
  changed : before.changed = true → after.changed = true

namespace Spares

variable {first second third : Draft}

theorem refl (draft : Draft) : Spares draft draft := ⟨rfl, rfl, id⟩

theorem trans (h : Spares first second) (h' : Spares second third) : Spares first third :=
  ⟨h'.messages.trans h.messages, h'.lastMessage.trans h.lastMessage, h'.changed ∘ h.changed⟩

theorem change {next : AgentState} {draft : Draft}
    (h : next.lastMessage = draft.next.lastMessage) : Spares draft (draft.change next) :=
  ⟨rfl, h, fun _ ↦ rfl⟩

theorem push (h : Spares first second) (event : ParserEvent) : Spares first (second.push event) :=
  ⟨h.messages, h.lastMessage, h.changed⟩

theorem next {next : AgentState} {draft : Draft}
    (h : next.lastMessage = draft.next.lastMessage) : Spares draft { draft with next := next } :=
  ⟨rfl, h, id⟩

end Spares

@[simp]
theorem lastMessage_raiseTokens (stats : Stats) (next : AgentState) :
    (raiseTokens stats next).lastMessage = next.lastMessage := by
  unfold raiseTokens
  split
  · rfl
  · simp only
    split <;> rfl

variable (clean : JsString) (draft : Draft)

theorem spares_parseMode : Spares draft (parseMode clean draft) := by
  unfold parseMode
  simp only
  split
  · exact .refl draft
  · split
    · refine (Spares.change ?_).push _
      split <;> rfl
    · apply Spares.change
      split <;> rfl

theorem spares_parseActivity : Spares draft (parseActivity clean draft) := by
  unfold parseActivity
  split
  · exact .refl draft
  · exact (Spares.change (by simp)).push _

theorem spares_parseResult : Spares draft (parseResult clean draft) := by
  unfold parseResult
  split
  · exact .refl draft
  · exact (Spares.change (by simp)).push _

theorem spares_parseBlocking : Spares draft (parseBlocking clean draft) := by
  unfold parseBlocking
  split
  · exact .refl draft
  · refine (Spares.change ?_).push _
    rfl

theorem spares_parseTasks (scratch : ClaudeScratch) :
    Spares draft (parseTasks clean draft scratch).1 ∧
      (parseTasks clean draft scratch).2.captured = scratch.captured := by
  unfold parseTasks
  simp only
  split
  · exact ⟨.refl draft, rfl⟩
  · refine ⟨(Spares.change ?_).push _, rfl⟩
    rfl

theorem spares_parseModel : Spares draft (parseModel clean draft) := by
  unfold parseModel
  split
  · exact .refl draft
  · simp only
    split
    · refine (Spares.change ?_).push _
      rfl
    · exact .refl draft

theorem spares_parseContextRemaining : Spares draft (parseContextRemaining clean draft) := by
  unfold parseContextRemaining
  split
  · exact .refl draft
  · simp only
    split
    · exact .change rfl
    · exact .next rfl

theorem spares_settleStatus : Spares draft (settleStatus clean draft) := by
  unfold settleStatus
  split
  · exact .next rfl
  · split
    · exact .next rfl
    · split
      · exact .change rfl
      · split
        · exact .change rfl
        · exact .refl draft

/-! ## The message parser -/

/-- A draft that tells what the message machine tells; it is returned unless nothing was
published. -/
structure Tells (before after : Draft) (scratch : ClaudeScratch) (told : ClaudeMessages.Told) :
    Prop where
  messages : after.messages = before.messages ++ told.messages
  lastMessage : after.next.lastMessage = told.lastMessage
  captured : scratch.captured = told.captured
  changed : after.changed = true ∨ told.lastMessage = before.next.lastMessage

theorem finish_told (now : Timestamp) (text : JsString) (captured : Option JsString) :
    (finish now text draft).messages = draft.messages ++
      (ClaudeMessages.publish now text draft.next.lastMessage captured).messages ∧
    (finish now text draft).next.lastMessage =
      (ClaudeMessages.publish now text draft.next.lastMessage captured).lastMessage ∧
    captured = (ClaudeMessages.publish now text draft.next.lastMessage captured).captured := by
  unfold finish ClaudeMessages.publish
  by_cases hfresh : JsString.trim text ≠ [] ∧ some (JsString.trim text) ≠ draft.next.lastMessage
  · rw [if_pos hfresh, if_pos hfresh]
    exact ⟨rfl, rfl, rfl⟩
  · rw [if_neg hfresh, if_neg hfresh]
    exact ⟨(List.append_nil _).symm, rfl, rfl⟩

/-- The branch with a message marker. -/
theorem onMarker_tells (now : Timestamp) (text : JsString) (scratch : ClaudeScratch) :
    Tells draft (onMarker now text draft scratch).1 (onMarker now text draft scratch).2
      (ClaudeMessages.draw now text draft.next.lastMessage scratch.captured) := by
  unfold onMarker ClaudeMessages.draw ClaudeScratch.captured
  cases hcapturing : scratch.capturingMessage with
  | false => exact ⟨(List.append_nil _).symm, rfl, rfl, .inl rfl⟩
  | true =>
    by_cases hempty : scratch.messageBuf = []
    · simp only [hempty]
      exact ⟨(List.append_nil _).symm, rfl, rfl, .inl rfl⟩
    · have hnot : scratch.messageBuf.isEmpty = false := List.isEmpty_eq_false_iff.mpr hempty
      simp only [hnot, Bool.true_and, Bool.not_false, if_true, if_neg hempty, Bool.or_eq_true]
      split
      · exact ⟨(List.append_nil _).symm, rfl, rfl, .inl rfl⟩
      · obtain ⟨hmessages, hlast, hcaptured⟩ :=
          finish_told draft now scratch.messageBuf (some text)
        exact ⟨hmessages, hlast, hcaptured, .inl rfl⟩

/-- `parseMessage` on a chunk that shows something. -/
theorem parseMessage_tells (now : Timestamp) (hclean : clean.isEmpty = false)
    (scratch : ClaudeScratch) :
    Tells draft (parseMessage now clean draft scratch).1 (parseMessage now clean draft scratch).2
      (if ClaudeTui.messageStart.test clean then
          ClaudeMessages.draw now (firstText clean) draft.next.lastMessage scratch.captured
        else ClaudeMessages.pass now clean draft.next.lastMessage scratch.captured) := by
  unfold parseMessage
  split
  · exact onMarker_tells draft now _ scratch
  · unfold ClaudeMessages.pass ClaudeScratch.captured
    cases hcapturing : scratch.capturingMessage with
    | false =>
      have hnone : scratch.captured = none := by rw [ClaudeScratch.captured, hcapturing]; rfl
      exact ⟨(List.append_nil _).symm, rfl, hnone, .inr rfl⟩
    | true =>
      simp only [if_true, hclean, Bool.false_or]
      split
      · obtain ⟨hmessages, hlast, hcaptured⟩ := finish_told draft now scratch.messageBuf none
        exact ⟨hmessages, hlast, hcaptured, .inl rfl⟩
      · exact ⟨(List.append_nil _).symm, rfl, rfl, .inr rfl⟩

/-- A step that is no concern of messages, after one that tells. -/
theorem Tells.spared {before middle after : Draft} {scratch scratch' : ClaudeScratch}
    {told : ClaudeMessages.Told} (h : Tells before middle scratch told)
    (hspares : Spares middle after) (hcaptured : scratch'.captured = scratch.captured) :
    Tells before after scratch' told where
  messages := hspares.messages.trans h.messages
  lastMessage := hspares.lastMessage.trans h.lastMessage
  captured := hcaptured.trans h.captured
  changed := h.changed.imp_left hspares.changed

/-- A chunk that shows something: all eight parsers together tell what the message machine does. -/
theorem read_tells (now : Timestamp) (hclean : clean.isEmpty = false) (state : AgentState)
    (scratch : ClaudeScratch) :
    ∃ before : Draft, before.messages = [] ∧ before.next.lastMessage = state.lastMessage ∧
      Tells before (read now clean state scratch).1 (read now clean state scratch).2
        (if ClaudeTui.messageStart.test clean then
            ClaudeMessages.draw now (firstText clean) state.lastMessage scratch.captured
          else ClaudeMessages.pass now clean state.lastMessage scratch.captured) := by
  have hbefore := ((spares_parseMode clean ⟨copyState state, [], [], false⟩).trans
    (spares_parseActivity clean _)).trans (spares_parseResult clean _)
  have hmessage := parseMessage_tells clean (parseResult clean (parseActivity clean
    (parseMode clean ⟨copyState state, [], [], false⟩))) now hclean (roll clean scratch)
  refine ⟨_, hbefore.messages, hbefore.lastMessage, ?_⟩
  have hlast : (parseResult clean (parseActivity clean
      (parseMode clean ⟨copyState state, [], [], false⟩))).next.lastMessage =
        state.lastMessage := hbefore.lastMessage
  rw [hlast] at hmessage
  obtain ⟨htasks, hcaptured⟩ := spares_parseTasks clean (parseBlocking clean (parseMessage now clean
    (parseResult clean (parseActivity clean (parseMode clean ⟨copyState state, [], [], false⟩)))
    (roll clean scratch)).1) (parseMessage now clean
    (parseResult clean (parseActivity clean (parseMode clean ⟨copyState state, [], [], false⟩)))
    (roll clean scratch)).2
  exact hmessage.spared ((((spares_parseBlocking clean _).trans htasks).trans
    (spares_parseModel clean _)).trans ((spares_parseContextRemaining clean _).trans
      (spares_settleStatus clean _))) hcaptured

theorem flush_told (now : Timestamp) (state : AgentState) (scratch : ClaudeScratch) :
    (flush now state scratch).1.messages =
      (ClaudeMessages.flush now state.lastMessage scratch.captured).messages ∧
    ((flush now state scratch).1.state.getD state).lastMessage =
      (ClaudeMessages.flush now state.lastMessage scratch.captured).lastMessage ∧
    (flush now state scratch).2.captured =
      (ClaudeMessages.flush now state.lastMessage scratch.captured).captured := by
  unfold flush ClaudeMessages.flush ClaudeScratch.captured
  cases hcapturing : scratch.capturingMessage with
  | false => simp [ParseResult.unchanged, hcapturing]
  | true =>
    by_cases hblank : JsString.trim scratch.messageBuf = []
    · simp [ParseResult.unchanged, hcapturing, hblank]
    · by_cases hlast : some (JsString.trim scratch.messageBuf) = state.lastMessage
      · simp [ParseResult.unchanged, ClaudeMessages.publish, hblank, hlast]
      · simp [ClaudeMessages.publish, hblank, hlast]

/-- **The parser simulates the message machine.** -/
theorem feed_told (now : Timestamp) (chunk : JsString) (state : AgentState)
    (scratch : ClaudeScratch) :
    (feed now chunk state scratch).1.messages =
      (ClaudeMessages.tell now chunk state.lastMessage scratch.captured).messages ∧
    ((feed now chunk state scratch).1.state.getD state).lastMessage =
      (ClaudeMessages.tell now chunk state.lastMessage scratch.captured).lastMessage ∧
    (feed now chunk state scratch).2.captured =
      (ClaudeMessages.tell now chunk state.lastMessage scratch.captured).captured := by
  unfold feed ClaudeMessages.tell
  cases hclean : (ansiToText chunk).isEmpty with
  | true =>
    simp only [hclean, if_true]
    exact flush_told now state scratch
  | false =>
    simp only [hclean, Bool.false_eq_true, if_false]
    obtain ⟨before, hmessages, hlast, htells⟩ :=
      read_tells (ansiToText chunk) now hclean state scratch
    generalize read now (ansiToText chunk) state scratch = seen at htells ⊢
    refine ⟨?_, ?_, htells.captured⟩
    · have htold := htells.messages
      rwa [hmessages, List.nil_append] at htold
    · rcases htells.changed with hchanged | hsame
      · simp only [hchanged, if_true, Option.getD_some]
        exact htells.lastMessage
      · split
        · exact htells.lastMessage
        · exact (hsame.trans hlast).symm

end ClaudeParser

end Cordyceps.Drivers
