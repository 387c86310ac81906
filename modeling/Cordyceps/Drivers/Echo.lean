import Cordyceps.Drivers.ClaudeMessages
import Cordyceps.Drivers.CodexParser
import Cordyceps.Drivers.GeminiParser
import Cordyceps.Drivers.OllamaParser

/-!
# Messages that come twice

Every parser answers a finished message in two places: among the messages, and
as an event of the kind `message` that carries the text alone. `Completes` says
on which chunks that happens, in terms of the chunk and of what the parser has
buffered.
-/

namespace Cordyceps.Drivers

open Foundations Agents Cordyceps.Core

/-- The data of an event that repeats a message. -/
def echo (message : AssistantMessage) : Json := .obj [(js "text", .str message.text)]

/-- What the events of the kind `message` carry. -/
def echoes (events : List ParserEvent) : List Json :=
  (events.filter fun ev ↦ ev.kind = js "message").map ParserEvent.data

@[simp]
theorem echoes_append (first second : List ParserEvent) :
    echoes (first ++ second) = echoes first ++ echoes second := by
  simp [echoes]

theorem echoes_messageEvent (message : AssistantMessage) :
    echoes [messageEvent message.text] = [echo message] := by
  simp [echoes, messageEvent, echo]

theorem echoes_of_ne {kind : JsString} (h : kind ≠ js "message") (data : Json) :
    echoes [⟨kind, data⟩] = [] := by
  simp [echoes, h]

/-- An answer that repeats its messages as events, and has one exactly if a message is complete. -/
structure Repeats (complete : Prop) (result : ParseResult) : Prop where
  echoed : echoes result.events = result.messages.map echo
  complete : complete ↔ result.messages ≠ []

theorem Repeats.silent {complete : Prop} {result : ParseResult}
    (hevents : echoes result.events = []) (hmessages : result.messages = [])
    (hnot : ¬ complete) : Repeats complete result where
  echoed := by rw [hevents, hmessages, List.map_nil]
  complete := iff_of_false hnot (not_not.mpr hmessages)

/-- A parser that answers so to every chunk. -/
def Echoing {Scratch : Type*} (parser : DriverParser Scratch)
    (Completes : JsString → AgentState → Scratch → Prop) : Prop :=
  ∀ now chunk state scratch result next, parser.feed now chunk state scratch = .ok (result, next) →
    Repeats (Completes chunk state scratch) result

/-- Two types are the same type of an event only if they are equal. -/
theorem hasType_eq {ev : Json} {first second : JsString} (hfirst : hasType ev first = true)
    (hsecond : hasType ev second = true) : first = second := by
  simp only [hasType, decide_eq_true_eq] at hfirst hsecond
  rw [hfirst] at hsecond
  simpa using hsecond

/-! ## Codex -/

namespace CodexParser

/-- The chunk is an `item.completed` event with the text of an `agent_message`. -/
def Completes (chunk : JsString) : Prop :=
  ∃ ev text, readEvent chunk = some ev ∧ hasType ev (js "item.completed") ∧
    agentMessage ev = some text

theorem completes_iff {chunk : JsString} {ev : Json} (hread : readEvent chunk = some ev) :
    Completes chunk ↔ hasType ev (js "item.completed") = true ∧ (agentMessage ev).isSome := by
  simp [Completes, hread, Option.isSome_iff_exists]

theorem onThreadStarted_silent (ev : Json) (next : AgentState) :
    (onThreadStarted ev next).events = [] ∧ (onThreadStarted ev next).messages = [] := by
  unfold onThreadStarted
  split <;> exact ⟨rfl, rfl⟩

theorem onItemCompleted_repeats (now : Timestamp) (ev : Json) (next : AgentState) :
    Repeats ((agentMessage ev).isSome) (onItemCompleted now ev next) := by
  unfold onItemCompleted
  split
  · rename_i text htext
    exact ⟨echoes_messageEvent ⟨text, now, none⟩, by simp [htext]⟩
  · rename_i htext
    exact .silent rfl rfl (by simp [htext])

theorem onTurnCompleted_silent {ev : Json} {next : AgentState} {result : ParseResult}
    (h : onTurnCompleted ev next = .ok result) : echoes result.events = [] ∧ result.messages = [] := by
  unfold onTurnCompleted at h
  simp only at h
  split at h
  · cases h
    exact ⟨echoes_of_ne (by decide) _, rfl⟩
  · split at h
    · cases h
    · cases h
      exact ⟨echoes_of_ne (by decide) _, rfl⟩

end CodexParser

theorem codexParser_echoing :
    Echoing codexParser fun chunk _ _ ↦ CodexParser.Completes chunk := by
  intro now chunk state scratch result next hok
  cases hread : readEvent chunk with
  | none =>
    simp only [codexParser, CodexParser.feed, hread, Except.map, Except.ok.injEq,
      Prod.mk.injEq] at hok
    obtain ⟨rfl, -⟩ := hok
    exact .silent rfl rfl (by simp [CodexParser.Completes, hread])
  | some ev =>
    have hnull : ev ≠ .null := by
      rintro rfl
      simp [codexParser, CodexParser.feed, hread, Except.map] at hok
    have hother : ∀ {type : JsString}, hasType ev type = true → type ≠ js "item.completed" →
        ¬ CodexParser.Completes chunk := by
      intro type htype hne hcompletes
      exact hne (hasType_eq htype ((CodexParser.completes_iff hread).mp hcompletes).1)
    have hfeed : CodexParser.feed now chunk state = .ok result := by
      cases hfeed : CodexParser.feed now chunk state with
      | error thrown => simp [codexParser, hfeed, Except.map] at hok
      | ok answer =>
        simp only [codexParser, hfeed, Except.map, Except.ok.injEq, Prod.mk.injEq] at hok
        rw [hok.1]
    rw [CodexParser.feed_event hread hnull] at hfeed
    split at hfeed
    · rename_i htype
      cases hfeed
      obtain ⟨hevents, hmessages⟩ := CodexParser.onThreadStarted_silent ev (copyState state)
      exact .silent (by rw [hevents]; rfl) hmessages (hother htype (by decide))
    · split at hfeed
      · rename_i htype
        cases hfeed
        exact .silent (echoes_of_ne (by decide) _) rfl (hother htype (by decide))
      · split at hfeed
        · rename_i htype
          cases hfeed
          have hrepeats := CodexParser.onItemCompleted_repeats now ev (copyState state)
          exact ⟨hrepeats.echoed, ((CodexParser.completes_iff hread).trans
            (and_iff_right htype)).trans hrepeats.complete⟩
        · rename_i htype
          have hnot : ¬ CodexParser.Completes chunk := fun h ↦
            htype ((CodexParser.completes_iff hread).mp h).1
          split at hfeed
          · obtain ⟨hevents, hmessages⟩ := CodexParser.onTurnCompleted_silent hfeed
            exact .silent hevents hmessages hnot
          · cases hfeed
            exact .silent rfl rfl hnot

/-! ## Gemini -/

namespace GeminiParser

/-- Text is buffered, and the chunk is empty or a `result` event. -/
def Completes (chunk : JsString) (scratch : GeminiScratch) : Prop :=
  scratch.messageBuf ≠ [] ∧
    (chunk = [] ∨ ∃ ev, readEvent chunk = some ev ∧ hasType ev (js "result"))

theorem flush_repeats (now : Timestamp) (state : AgentState) (scratch : GeminiScratch) :
    Repeats (scratch.messageBuf ≠ []) (flush now state scratch).1 := by
  unfold flush
  split
  · rename_i hpending
    exact ⟨echoes_messageEvent ⟨_, now, none⟩, by simp [scratch.pending_iff.mp hpending]⟩
  · rename_i hpending
    exact .silent rfl rfl fun h ↦ hpending (scratch.pending_iff.mpr h)

theorem onResult_repeats (now : Timestamp) (ev : Json) (next : AgentState)
    (scratch : GeminiScratch) :
    Repeats (scratch.messageBuf ≠ []) (onResult now ev next scratch).1 := by
  have hcompleted : ∀ data, echoes [⟨js "turn.completed", data⟩] = [] :=
    echoes_of_ne (by decide)
  unfold onResult
  simp only
  split
  · rename_i hpending
    refine ⟨?_, by simp [scratch.pending_iff.mp hpending]⟩
    rw [← List.singleton_append, echoes_append, hcompleted, List.append_nil]
    exact echoes_messageEvent ⟨_, now, _⟩
  · rename_i hpending
    exact .silent (hcompleted _) rfl fun h ↦ hpending (scratch.pending_iff.mpr h)

end GeminiParser

theorem geminiParser_echoing :
    Echoing geminiParser fun chunk _ scratch ↦ GeminiParser.Completes chunk scratch := by
  intro now chunk state scratch result next hok
  simp only [geminiParser, GeminiParser.feed] at hok
  split at hok
  · rename_i hempty
    have hnil : chunk = [] := List.isEmpty_iff.mp hempty
    obtain rfl : _ = result := congrArg Prod.fst (Except.ok.inj hok)
    have hrepeats := GeminiParser.flush_repeats now state scratch
    exact ⟨hrepeats.echoed, (and_iff_left (.inl hnil)).trans hrepeats.complete⟩
  · rename_i hempty
    have hnil : chunk ≠ [] := fun h ↦ hempty (List.isEmpty_iff.mpr h)
    have hcompletes : GeminiParser.Completes chunk scratch →
        ∃ ev, readEvent chunk = some ev ∧ hasType ev (js "result") := fun h ↦
      h.2.resolve_left hnil
    split at hok
    · rename_i hread
      cases hok
      refine .silent rfl rfl fun h ↦ ?_
      obtain ⟨ev, hev, -⟩ := hcompletes h
      simp [hread] at hev
    · cases hok
    · rename_i ev _ hread
      have hresult : GeminiParser.Completes chunk scratch → hasType ev (js "result") = true := by
        intro h
        obtain ⟨found, hfound, htype⟩ := hcompletes h
        rw [hread, Option.some.injEq] at hfound
        exact hfound ▸ htype
      split at hok
      · rename_i htype
        cases hok
        exact .silent rfl rfl fun h ↦ absurd (hasType_eq htype (hresult h)) (by decide)
      · split at hok
        · rename_i htype
          cases hok
          exact .silent rfl rfl fun h ↦ absurd (hasType_eq htype (hresult h)) (by decide)
        · split at hok
          · rename_i htype
            obtain rfl : _ = result := congrArg Prod.fst (Except.ok.inj hok)
            have hrepeats := GeminiParser.onResult_repeats now ev (copyState state) scratch
            exact ⟨hrepeats.echoed,
              (and_iff_left (.inr ⟨ev, hread, htype⟩)).trans hrepeats.complete⟩
          · rename_i htype
            cases hok
            exact .silent rfl rfl fun h ↦ htype (hresult h)

/-! ## Ollama -/

namespace OllamaParser

/-- The chunk is the final event, and text is buffered or in its response. -/
def Completes (chunk : JsString) (scratch : OllamaScratch) : Prop :=
  ∃ ev text, readEvent chunk = some ev ∧ done ev ∧
    appendResponse ev scratch.messageBuf = some text ∧ text ≠ []

theorem settleDone_repeats (now : Timestamp) (next : AgentState) (text : JsString) (tokens : Json) :
    Repeats (text ≠ []) (settleDone now next text tokens) := by
  unfold settleDone
  simp only
  split
  · rename_i hempty
    exact .silent rfl rfl fun h ↦ h (List.isEmpty_iff.mp hempty)
  · rename_i hempty
    have htext : text ≠ [] := fun h ↦ hempty (List.isEmpty_iff.mpr h)
    exact ⟨echoes_messageEvent ⟨_, now, _⟩, by simp [htext]⟩

/-- A final event that does not throw has a text, and answers with it. -/
theorem onDone_ok {now : Timestamp} {ev : Json} {next : AgentState} {buffer : JsString}
    {answer : ParseResult × OllamaScratch} (h : onDone now ev next buffer = .ok answer) :
    ∃ text tokens, appendResponse ev buffer = some text ∧
      answer = (settleDone now next text tokens, ⟨[]⟩) := by
  unfold onDone at h
  split at h
  · cases h
  · rename_i text htext
    split at h
    · cases h
    · rename_i tokens _
      exact ⟨text, tokens, htext, (Except.ok.inj h).symm⟩

end OllamaParser

theorem ollamaParser_echoing :
    Echoing ollamaParser fun chunk _ scratch ↦ OllamaParser.Completes chunk scratch := by
  intro now chunk state scratch result next hok
  cases hread : readEvent chunk with
  | none =>
    simp only [ollamaParser, OllamaParser.feed, hread, Except.ok.injEq, Prod.mk.injEq] at hok
    obtain ⟨rfl, -⟩ := hok
    exact .silent rfl rfl (by simp [OllamaParser.Completes, hread])
  | some ev =>
    have hnull : ev ≠ .null := by
      rintro rfl
      simp [ollamaParser, OllamaParser.feed, hread] at hok
    simp only [ollamaParser, OllamaParser.feed_event hread hnull] at hok
    split at hok
    · cases hok
    · rename_i buffer hbuffer
      by_cases hdone : OllamaParser.done ev
      · rw [OllamaParser.bufferToken_of_done hdone, Option.some.injEq] at hbuffer
        rw [if_pos hdone, ← hbuffer] at hok
        obtain ⟨text, tokens, htext, hanswer⟩ := OllamaParser.onDone_ok hok
        have hrepeats := OllamaParser.settleDone_repeats now (OllamaParser.onToken ev state
          (OllamaParser.onModel ev state (copyState state)).1
          (OllamaParser.onModel ev state (copyState state)).2).1 text tokens
        obtain rfl : _ = result := (congrArg Prod.fst hanswer).symm
        refine ⟨hrepeats.echoed, Iff.trans ?_ hrepeats.complete⟩
        simp [OllamaParser.Completes, hread, hdone, htext]
      · rw [if_neg hdone] at hok
        cases hok
        exact .silent rfl rfl (by simp [OllamaParser.Completes, hread, hdone])

/-! ## Claude -/

namespace ClaudeParser

/-- The events of a draft repeat its messages. -/
def Draft.Echoed (draft : Draft) : Prop := echoes draft.events = draft.messages.map echo

namespace Draft.Echoed

variable {draft : Draft}

theorem push (h : draft.Echoed) {kind : JsString} (hkind : kind ≠ js "message") (data : Json) :
    (draft.push ⟨kind, data⟩).Echoed := by
  unfold Draft.Echoed Draft.push
  rw [echoes_append, echoes_of_ne hkind, List.append_nil]
  exact h

theorem emit (h : draft.Echoed) (now : Timestamp) (text : JsString) :
    (draft.emit now text).Echoed := by
  unfold Draft.Echoed Draft.emit
  rw [echoes_append, List.map_append, echoes_messageEvent ⟨text, now, none⟩]
  exact congrArg (· ++ _) h

end Draft.Echoed

section Parsers

variable {draft : Draft} (clean : JsString)

theorem echoed_parseMode (h : draft.Echoed) : (parseMode clean draft).Echoed := by
  unfold parseMode
  simp only
  split
  · exact h
  · split
    · exact Draft.Echoed.push h (by decide) _
    · exact h

theorem echoed_parseActivity (h : draft.Echoed) : (parseActivity clean draft).Echoed := by
  unfold parseActivity
  split
  · exact h
  · exact Draft.Echoed.push h (by decide) _

theorem echoed_parseResult (h : draft.Echoed) : (parseResult clean draft).Echoed := by
  unfold parseResult
  split
  · exact h
  · exact Draft.Echoed.push h (by decide) _

theorem echoed_finish (h : draft.Echoed) (now : Timestamp) (text : JsString) :
    (finish now text draft).Echoed := by
  unfold finish
  simp only
  split
  · exact h.emit now _
  · exact h

theorem echoed_parseMessage (h : draft.Echoed) (now : Timestamp) (scratch : ClaudeScratch) :
    (parseMessage now clean draft scratch).1.Echoed := by
  unfold parseMessage onMarker
  simp only
  split
  · split
    · split
      · exact h
      · exact echoed_finish h now _
    · exact h
  · split
    · split
      · exact echoed_finish h now _
      · exact h
    · exact h

theorem echoed_parseBlocking (h : draft.Echoed) : (parseBlocking clean draft).Echoed := by
  unfold parseBlocking
  split
  · exact h
  · exact Draft.Echoed.push h (by decide) _

theorem echoed_parseTasks (h : draft.Echoed) (scratch : ClaudeScratch) :
    (parseTasks clean draft scratch).1.Echoed := by
  unfold parseTasks
  simp only
  split
  · exact h
  · exact Draft.Echoed.push h (by decide) _

theorem echoed_parseModel (h : draft.Echoed) : (parseModel clean draft).Echoed := by
  unfold parseModel
  split
  · exact h
  · simp only
    split
    · exact Draft.Echoed.push h (by decide) _
    · exact h

theorem echoed_parseContextRemaining (h : draft.Echoed) :
    (parseContextRemaining clean draft).Echoed := by
  unfold parseContextRemaining
  split
  · exact h
  · simp only
    split <;> exact h

theorem echoed_settleStatus (h : draft.Echoed) : (settleStatus clean draft).Echoed := by
  unfold settleStatus
  split
  · exact h
  · split
    · exact h
    · split
      · exact h
      · split <;> exact h

end Parsers

theorem echoed_read (now : Timestamp) (clean : JsString) (state : AgentState)
    (scratch : ClaudeScratch) : (read now clean state scratch).1.Echoed := by
  have hfirst : (Draft.mk (copyState state) [] [] false).Echoed := rfl
  have hresult := echoed_parseResult clean (echoed_parseActivity clean
    (echoed_parseMode clean hfirst))
  have htasks := echoed_parseTasks clean (echoed_parseBlocking clean
    (echoed_parseMessage clean hresult now (roll clean scratch)))
  exact echoed_settleStatus clean (echoed_parseContextRemaining clean
    (echoed_parseModel clean (htasks _)))

theorem echoed_feed (now : Timestamp) (chunk : JsString) (state : AgentState)
    (scratch : ClaudeScratch) :
    echoes (feed now chunk state scratch).1.events =
      (feed now chunk state scratch).1.messages.map echo := by
  unfold feed
  simp only
  split
  · unfold flush
    simp only
    split
    · split
      · rfl
      · exact echoes_messageEvent ⟨_, now, none⟩
    · rfl
  · exact echoed_read now (ansiToText chunk) state scratch

end ClaudeParser

namespace ClaudeMessages

/-- A message is being captured that is neither blank nor the one published last, and the chunk
ends it: it shows nothing, or draws a message that is no redrawing of this one, or shows a line
that ends a message. -/
def Completes (chunk : JsString) (lastMessage captured : Option JsString) : Prop :=
  ∃ text, captured = some text ∧ JsString.trim text ≠ [] ∧
    some (JsString.trim text) ≠ lastMessage ∧
      let clean := ansiToText chunk
      if clean = [] then True
      else if ClaudeTui.messageStart.test clean then
        ¬ JsString.startsWith (ClaudeParser.firstText clean) text ∧
          ¬ JsString.startsWith text (ClaudeParser.firstText clean)
      else ClaudeTui.messageEnd.test clean

theorem publish_messages_iff (now : Timestamp) (text : JsString)
    (lastMessage captured : Option JsString) :
    (publish now text lastMessage captured).messages ≠ [] ↔
      JsString.trim text ≠ [] ∧ some (JsString.trim text) ≠ lastMessage := by
  unfold publish
  split
  · rename_i hfresh
    exact iff_of_true (by simp) hfresh
  · rename_i hfresh
    exact iff_of_false (by simp) hfresh

theorem completes_iff (now : Timestamp) (chunk : JsString) (lastMessage captured : Option JsString) :
    Completes chunk lastMessage captured ↔ (tell now chunk lastMessage captured).messages ≠ [] := by
  unfold Completes tell
  cases captured with
  | none =>
    refine iff_of_false (by simp) ?_
    simp only
    split
    · simp [flush]
    · split
      · simp [draw]
      · simp [pass]
  | some text =>
    simp only [Option.some.injEq, exists_eq_left', ← and_assoc (b := some _ ≠ _)]
    by_cases hclean : ansiToText chunk = []
    · simp only [hclean, List.isEmpty_nil, if_true, and_true, flush]
      by_cases hblank : JsString.trim text = []
      · simp [hblank]
      · rw [if_neg hblank, publish_messages_iff]
    · have hshown : (ansiToText chunk).isEmpty = false := List.isEmpty_eq_false_iff.mpr hclean
      simp only [hclean, hshown, if_false, Bool.false_eq_true]
      by_cases hstart : ClaudeTui.messageStart.test (ansiToText chunk) = true
      · simp only [hstart, if_true, draw]
        by_cases hempty : text = []
        · simp [hempty]
        · rw [if_neg hempty]
          split
          · rename_i hredrawn
            exact iff_of_false (fun h ↦ hredrawn.elim h.2.1 h.2.2) (by simp)
          · rename_i hother
            rw [publish_messages_iff]
            exact and_iff_left (not_or.mp hother)
      · simp only [hstart, if_false, Bool.false_eq_true, pass]
        split
        · rename_i hend
          rw [publish_messages_iff]
          exact and_iff_left hend
        · rename_i hopen
          exact iff_of_false (fun h ↦ hopen h.2) (by simp)

end ClaudeMessages

theorem claudeParser_echoing : Echoing claudeParser fun chunk state scratch ↦
    ClaudeMessages.Completes chunk state.lastMessage scratch.captured := by
  intro now chunk state scratch result next hok
  obtain rfl : _ = result := congrArg Prod.fst (Except.ok.inj hok)
  refine ⟨ClaudeParser.echoed_feed now chunk state scratch, ?_⟩
  rw [(ClaudeParser.feed_told now chunk state scratch).1]
  exact ClaudeMessages.completes_iff now chunk state.lastMessage scratch.captured

/-! ## The drivers -/

/-- The built-in drivers. -/
inductive BuiltinDriver
  | claude
  | codex
  | gemini
  | ollama
  deriving DecidableEq, Repr

namespace BuiltinDriver

def Scratch : BuiltinDriver → Type
  | claude => ClaudeScratch
  | codex => Unit
  | gemini => GeminiScratch
  | ollama => OllamaScratch

/-- The parser of a driver. -/
def parser : (driver : BuiltinDriver) → DriverParser driver.Scratch
  | claude => claudeParser
  | codex => codexParser
  | gemini => geminiParser
  | ollama => ollamaParser

/-- The chunk completes a message of the driver. -/
def Completes : (driver : BuiltinDriver) → JsString → AgentState → driver.Scratch → Prop
  | claude => fun chunk state scratch ↦
    ClaudeMessages.Completes chunk state.lastMessage (ClaudeScratch.captured scratch)
  | codex => fun chunk _ _ ↦ CodexParser.Completes chunk
  | gemini => fun chunk _ scratch ↦ GeminiParser.Completes chunk scratch
  | ollama => fun chunk _ scratch ↦ OllamaParser.Completes chunk scratch

theorem echoing : (driver : BuiltinDriver) → Echoing driver.parser driver.Completes
  | claude => claudeParser_echoing
  | codex => codexParser_echoing
  | gemini => geminiParser_echoing
  | ollama => ollamaParser_echoing

end BuiltinDriver

end Cordyceps.Drivers
