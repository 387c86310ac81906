import Cordyceps.Drivers.Api

/-!
# The Gemini parser

`gemini --output-format stream-json` events. Assistant deltas accumulate in the
parser until a `result` event or the empty feed at the end of the stream emits
them as one message.
-/

namespace Cordyceps.Drivers

open Foundations Agents

/-- The parser's own memory. Buffered text is always marked as pending. -/
structure GeminiScratch where
  messageBuf : JsString
  hasPendingMessage : Bool
  pending_of_buffered : messageBuf ≠ [] → hasPendingMessage = true

namespace GeminiScratch

def empty : GeminiScratch := ⟨[], false, by simp⟩

/-- `messageBuf += content; hasPendingMessage = true`. -/
def append (scratch : GeminiScratch) (content : JsString) : GeminiScratch :=
  ⟨scratch.messageBuf ++ content, true, fun _ ↦ rfl⟩

/-- `hasPendingMessage && messageBuf`. -/
def pending (scratch : GeminiScratch) : Bool :=
  scratch.hasPendingMessage && !scratch.messageBuf.isEmpty

theorem pending_iff (scratch : GeminiScratch) :
    scratch.pending = true ↔ scratch.messageBuf ≠ [] := by
  unfold pending
  rw [Bool.and_eq_true, Bool.not_eq_true', List.isEmpty_eq_false_iff]
  exact ⟨fun h ↦ h.2, fun h ↦ ⟨scratch.pending_of_buffered h, h⟩⟩

end GeminiScratch

namespace GeminiParser

def initialState : AgentState where
  status := .starting
  model := some (.str [])
  mode := some (js "default")
  lastMessage := none
  activity := none
  blocking := none
  tokens := some ⟨.num 0, none⟩
  extra := some [(js "mode", .str (js "exec"))]

/-- The empty flush at the end of a stream. -/
def flush (now : Timestamp) (state : AgentState) (scratch : GeminiScratch) :
    ParseResult × GeminiScratch :=
  if scratch.pending then
    let text := scratch.messageBuf
    (⟨some { state with status := .idle, lastMessage := some text }, [messageEvent text],
      [⟨text, now, none⟩]⟩, .empty)
  else (.unchanged, scratch)

/-- `case "init"`. -/
def onInit (ev : Json) (next : AgentState) : AgentState :=
  let next := match Json.ifTruthy (ev.field (js "model")) with
    | some model => { next with model := some model }
    | none => next
  let next := match Json.ifTruthy (ev.field (js "session_id")) with
    | some session => setExtra (js "sessionId") session next
    | none => next
  next.withStatus .busy

/-- `case "message"`: deltas and complete messages are appended alike. -/
def onMessage (ev : Json) (scratch : GeminiScratch) : GeminiScratch :=
  if ev.field (js "role") = some (.str (js "assistant")) then
    match stringOf (ev.field (js "content")) with
    | some content => scratch.append content
    | none => scratch
  else scratch

/-- `case "result"`. -/
def onResult (now : Timestamp) (ev : Json) (next : AgentState) (scratch : GeminiScratch) :
    ParseResult × GeminiScratch :=
  let stats := ev.field (js "stats")
  let total := stats.bind (Json.field (js "total_tokens"))
  let settled := { (match Json.ifTruthy stats with
    | some _ => { next with tokens := some ⟨Json.orElse (.num 0) total, none⟩ }
    | none => next) with status := Status.idle }
  let completed : ParserEvent := ⟨js "turn.completed", Json.orElse (.obj []) stats⟩
  if scratch.pending then
    let text := scratch.messageBuf
    (⟨some { settled with lastMessage := some text }, [messageEvent text, completed],
      [⟨text, now, total⟩]⟩, .empty)
  else (⟨some settled, [completed], []⟩, scratch)

def feed (now : Timestamp) (chunk : JsString) (state : AgentState) (scratch : GeminiScratch) :
    Except (FeedError GeminiScratch) (ParseResult × GeminiScratch) :=
  if chunk.isEmpty then .ok (flush now state scratch)
  else match readEvent chunk with
    | none => .ok (.unchanged, scratch)
    | some .null => .error (.typeError scratch)
    | some ev =>
      if hasType ev (js "init") then .ok (⟨some (onInit ev (copyState state)), [], []⟩, scratch)
      else if hasType ev (js "message") then .ok (.unchanged, onMessage ev scratch)
      else if hasType ev (js "result") then .ok (onResult now ev (copyState state) scratch)
      else .ok (.unchanged, scratch)

end GeminiParser

def geminiParser : DriverParser GeminiScratch where
  scratch := .empty
  initialState := GeminiParser.initialState
  feed := GeminiParser.feed

end Cordyceps.Drivers
