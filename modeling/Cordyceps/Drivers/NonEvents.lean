import Cordyceps.Drivers.CodexParser
import Cordyceps.Drivers.GeminiParser
import Cordyceps.Drivers.OllamaParser

/-!
# Lines that are no events

The parsers of JSON streams look for the fields of an object. A line that is not JSON, or
the JSON of anything else, has none of them and is ignored, except that a field of `null`
cannot be read: there the parsers throw.
-/

namespace Cordyceps.Drivers

open Foundations Agents

/-- A line that carries no JSON object, read without its margins as the parsers read it. -/
def NonEvent (line : JsString) : Prop := ∀ members, readEvent line ≠ some (.obj members)

section

variable {ev : Json}

theorem field_of_not_obj (h : ∀ members, ev ≠ .obj members) (key : JsString) :
    ev.field key = none := by
  cases ev with
  | obj members => exact absurd rfl (h members)
  | _ => rfl

theorem hasType_of_not_obj (h : ∀ members, ev ≠ .obj members) (name : JsString) :
    hasType ev name = false := by
  simp [hasType, field_of_not_obj h]

theorem NonEvent.not_obj {line : JsString} (h : NonEvent line) (hread : readEvent line = some ev) :
    ∀ members, ev ≠ .obj members := by
  rintro members rfl
  exact h members hread

end

variable {line : JsString} (now : Timestamp) (state : AgentState)

theorem codex_ignores_iff (h : NonEvent line) :
    CodexParser.feed now line state = .ok .unchanged ↔ readEvent line ≠ some .null := by
  cases hread : readEvent line with
  | none => simp [CodexParser.feed, hread]
  | some ev =>
    by_cases hnull : ev = .null
    · subst hnull
      simp [CodexParser.feed, hread]
    · simp [CodexParser.feed_event hread hnull, hasType_of_not_obj (h.not_obj hread), hnull]

theorem ollama_ignores_iff (h : NonEvent line) (scratch : OllamaScratch) :
    OllamaParser.feed now line state scratch = .ok (.unchanged, scratch) ↔
      readEvent line ≠ some .null := by
  cases hread : readEvent line with
  | none => simp [OllamaParser.feed, hread]
  | some ev =>
    by_cases hnull : ev = .null
    · subst hnull
      simp [OllamaParser.feed, hread]
    · have hfield := field_of_not_obj (h.not_obj hread)
      simp [OllamaParser.feed_event hread hnull, OllamaParser.onModel, OllamaParser.onToken,
        OllamaParser.bufferToken, OllamaParser.streaming, OllamaParser.done, hfield, Json.ifTruthy, stringOf, hnull,
        ParseResult.unchanged]

/-- The empty feed flushes what is pending. -/
theorem gemini_flush_ignores_iff (scratch : GeminiScratch) :
    GeminiParser.flush now state scratch = (.unchanged, scratch) ↔ scratch.messageBuf = [] := by
  unfold GeminiParser.flush
  cases hpending : scratch.pending with
  | true => simp [ParseResult.unchanged, scratch.pending_iff.mp hpending]
  | false =>
    have hbuffer : scratch.messageBuf = [] := by
      by_contra hbuffered
      rw [scratch.pending_iff.mpr hbuffered] at hpending
      cases hpending
    simp [hbuffer]

theorem gemini_ignores_iff (h : NonEvent line) (scratch : GeminiScratch) :
    GeminiParser.feed now line state scratch = .ok (.unchanged, scratch) ↔
      readEvent line ≠ some .null ∧ (line = [] → scratch.messageBuf = []) := by
  cases line with
  | nil =>
    have hread : readEvent [] = none := rfl
    simp [GeminiParser.feed, gemini_flush_ignores_iff, hread]
  | cons unit rest =>
    rw [GeminiParser.feed, if_neg (by simp)]
    cases hread : readEvent (unit :: rest) with
    | none => simp
    | some ev =>
      have htype := hasType_of_not_obj (h.not_obj hread)
      cases ev with
      | null => simp
      | _ => simp [htype]

/-- **Lines that are no events are ignored** by every parser in every state if and only if they are
not `null`; the empty feed, which ends a stream, is ignored by Gemini if nothing is pending. -/
theorem non_events_ignored_iff (h : NonEvent line) :
    (∀ scratch, codexParser.feed now line state scratch = .ok (.unchanged, scratch) ↔
        readEvent line ≠ some .null) ∧
      (∀ scratch, geminiParser.feed now line state scratch = .ok (.unchanged, scratch) ↔
        readEvent line ≠ some .null ∧ (line = [] → scratch.messageBuf = [])) ∧
      (∀ scratch, ollamaParser.feed now line state scratch = .ok (.unchanged, scratch) ↔
        readEvent line ≠ some .null) := by
  refine ⟨fun scratch ↦ ?_, gemini_ignores_iff now state h, ollama_ignores_iff now state h⟩
  rw [← codex_ignores_iff now state h]
  simp only [codexParser]
  cases CodexParser.feed now line state with
  | error error => simp [Except.map]
  | ok result => simp [Except.map]

theorem nonEvent_of_array {elements : List Json} (h : readEvent line = some (.arr elements)) :
    NonEvent line := by
  intro members hread
  rw [h] at hread
  cases hread

/-- An array. -/
theorem array_ignored :
    codexParser.feed 0 (js "[1]") CodexParser.initialState () = .ok (.unchanged, ()) ∧
      geminiParser.feed 0 (js "[1]") GeminiParser.initialState .empty =
        .ok (.unchanged, .empty) ∧
      ollamaParser.feed 0 (js "[1]") OllamaParser.initialState ⟨js "hi"⟩ =
        .ok (.unchanged, ⟨js "hi"⟩) := by
  have hread : readEvent (js "[1]") = some (.arr [.num 1]) := by decide +kernel
  have hevent : NonEvent (js "[1]") := nonEvent_of_array hread
  have hnull : readEvent (js "[1]") ≠ some .null := by simp [hread]
  exact ⟨((non_events_ignored_iff 0 CodexParser.initialState hevent).1 ()).mpr hnull,
    ((non_events_ignored_iff 0 GeminiParser.initialState hevent).2.1 .empty).mpr
      ⟨hnull, fun _ ↦ rfl⟩,
    ((non_events_ignored_iff 0 OllamaParser.initialState hevent).2.2 ⟨js "hi"⟩).mpr hnull⟩

/-- The line `null` makes every parser throw. -/
theorem null_line_throws :
    readEvent (js "null") = some .null ∧
      codexParser.feed 0 (js "null") CodexParser.initialState () = .error (.typeError ()) ∧
      geminiParser.feed 0 (js "null") GeminiParser.initialState .empty =
        .error (.typeError .empty) ∧
      ollamaParser.feed 0 (js "null") OllamaParser.initialState ⟨[]⟩ = .error (.typeError ⟨[]⟩) := by
  have hread : readEvent (js "null") = some .null := by decide +kernel
  have hnonempty : (js "null").isEmpty = false := by decide
  refine ⟨hread, ?_, ?_, ?_⟩
  · simp [codexParser, CodexParser.feed, hread, Except.map]
  · simp [geminiParser, GeminiParser.feed, hread, hnonempty]
  · simp [ollamaParser, OllamaParser.feed, hread]

end Cordyceps.Drivers
