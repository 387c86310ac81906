import Cordyceps.Drivers.Api

/-!
# The Ollama parser

`/api/generate` NDJSON events. Response tokens accumulate in the parser until
an event with `done: true` emits them as one message; the empty feed at the end
of a stream does nothing.
-/

namespace Cordyceps.Drivers

open Foundations Agents

/-- The parser's own memory. -/
structure OllamaScratch where
  messageBuf : JsString
  deriving DecidableEq, Repr

namespace OllamaParser

def initialState : AgentState where
  status := .starting
  model := some (.str [])
  mode := some (js "default")
  lastMessage := none
  activity := none
  blocking := none
  tokens := some ⟨.num 0, none⟩
  extra := some [(js "mode", .str (js "server-http"))]

/-- `if (ev.response) messageBuf += ev.response`, unless it throws. -/
def appendResponse (ev : Json) (buffer : JsString) : Option JsString :=
  match Json.ifTruthy (ev.field (js "response")) with
  | some response => response.appendTo buffer
  | none => some buffer

/-- `ev.done === false || (!ev.done && typeof ev.response === "string")`. -/
def streaming (ev : Json) : Bool :=
  ev.field (js "done") = some (.bool false) ||
    ((Json.ifTruthy (ev.field (js "done"))).isNone &&
      (stringOf (ev.field (js "response"))).isSome)

/-- `ev.done === true`. -/
def done (ev : Json) : Bool := ev.field (js "done") = some (.bool true)

/-- `(ev.prompt_eval_count ?? 0) + (ev.eval_count ?? 0)`. -/
def tokenCount (ev : Json) : Option Json :=
  Json.add (Json.orElse (.num 0) (ev.field (js "prompt_eval_count")))
    (Json.orElse (.num 0) (ev.field (js "eval_count")))

/-- The model name is recorded once: `ev.model && !state.model`. -/
def onModel (ev : Json) (state next : AgentState) : AgentState × Bool :=
  match Json.ifTruthy (ev.field (js "model")), Json.ifTruthy state.model with
  | some model, none => ({ next with model := some model }, true)
  | _, _ => (next, false)

/-- A token while generating: busy, unless the agent already was. -/
def onToken (ev : Json) (state next : AgentState) (changed : Bool) : AgentState × Bool :=
  if streaming ev ∧ state.status ≠ .busy then (next.withStatus .busy, true) else (next, changed)

/-- The buffer after a token while generating. -/
def bufferToken (ev : Json) (buffer : JsString) : Option JsString :=
  if streaming ev then appendResponse ev buffer else some buffer

/-- What the final event answers: the buffered text, and the agent settles idle. -/
def settleDone (now : Timestamp) (next : AgentState) (text : JsString) (tokens : Json) :
    ParseResult :=
  let settled := { next with status := Status.idle, tokens := some ⟨tokens, none⟩ }
  if text.isEmpty then ⟨some settled, [], []⟩
  else ⟨some { settled with lastMessage := some text }, [messageEvent text],
    [⟨text, now, some tokens⟩]⟩

/-- `if (ev.done === true)`. The buffer is cleared before the counts are added up. -/
def onDone (now : Timestamp) (ev : Json) (next : AgentState) (buffer : JsString) :
    Except (FeedError OllamaScratch) (ParseResult × OllamaScratch) :=
  match appendResponse ev buffer with
  | none => .error (.typeError ⟨buffer⟩)
  | some text =>
    match tokenCount ev with
    | none => .error (.typeError ⟨[]⟩)
    | some tokens => .ok (settleDone now next text tokens, ⟨[]⟩)

def feed (now : Timestamp) (chunk : JsString) (state : AgentState) (scratch : OllamaScratch) :
    Except (FeedError OllamaScratch) (ParseResult × OllamaScratch) :=
  match readEvent chunk with
  | none => .ok (.unchanged, scratch)
  | some .null => .error (.typeError scratch)
  | some ev =>
    let (next, changed) := onModel ev state (copyState state)
    let (next, changed) := onToken ev state next changed
    match bufferToken ev scratch.messageBuf with
    | none => .error (.typeError scratch)
    | some buffer =>
      if done ev then onDone now ev next buffer
      else .ok (⟨if changed then some next else none, [], []⟩, ⟨buffer⟩)

/-- What an event other than `null` does. -/
theorem feed_event {chunk : JsString} {ev : Json} (hread : readEvent chunk = some ev)
    (hnull : ev ≠ .null) (now : Timestamp) (state : AgentState) (scratch : OllamaScratch) :
    feed now chunk state scratch =
      let model := onModel ev state (copyState state)
      let token := onToken ev state model.1 model.2
      match bufferToken ev scratch.messageBuf with
      | none => .error (.typeError scratch)
      | some buffer =>
        if done ev then onDone now ev token.1 buffer
        else .ok (⟨if token.2 then some token.1 else none, [], []⟩, ⟨buffer⟩) := by
  unfold feed
  rw [hread]
  cases ev with
  | null => exact absurd rfl hnull
  | _ => rfl

/-- A response is text, or there is none. -/
def Appendable (ev : Json) : Prop :=
  ∀ response, Json.ifTruthy (ev.field (js "response")) = some response → response.hasText = true

/-- The values that the final event adds up. -/
def Summable (ev : Json) : Prop :=
  (Json.orElse (.num 0) (ev.field (js "prompt_eval_count"))).hasText = true ∧
    (Json.orElse (.num 0) (ev.field (js "eval_count"))).hasText = true

/-- Ollama takes every event but `null`, a response that cannot be appended, and a final event with
a count that cannot be added. -/
def Takes (ev : Json) : Prop :=
  ev ≠ .null ∧ (streaming ev = true ∨ done ev = true → Appendable ev) ∧
    (done ev = true → Summable ev)

theorem appendResponse_isSome_iff (ev : Json) (buffer : JsString) :
    (appendResponse ev buffer).isSome ↔ Appendable ev := by
  unfold appendResponse Appendable
  cases Json.ifTruthy (ev.field (js "response")) with
  | none => simp
  | some response => simp [Json.appendTo_isSome_iff]

/-- The final event is no token. -/
theorem streaming_of_done {ev : Json} (hdone : done ev = true) : streaming ev = false := by
  simp only [done, decide_eq_true_eq] at hdone
  simp [streaming, hdone, Json.ifTruthy, Json.truthy]

theorem bufferToken_of_done {ev : Json} (hdone : done ev = true) (buffer : JsString) :
    bufferToken ev buffer = some buffer := by
  rw [bufferToken, streaming_of_done hdone]
  rfl

/-- The final event throws if its response or its counts do. -/
theorem onDone_isOk_iff (now : Timestamp) (ev : Json) (next : AgentState) (buffer : JsString) :
    (∃ answer, onDone now ev next buffer = .ok answer) ↔ Appendable ev ∧ Summable ev := by
  have hcount : (tokenCount ev).isSome ↔ Summable ev := Json.add_isSome_iff _ _
  rw [← appendResponse_isSome_iff ev buffer, ← hcount]
  unfold onDone
  cases appendResponse ev buffer with
  | none => simp
  | some text => cases tokenCount ev <;> simp

/-- Whether a feed throws does not depend on the memory. -/
theorem feed_isOk_iff {chunk : JsString} {ev : Json} (hread : readEvent chunk = some ev)
    (now : Timestamp) (state : AgentState) (scratch : OllamaScratch) :
    (∃ answer, feed now chunk state scratch = .ok answer) ↔ Takes ev := by
  by_cases hnull : ev = .null
  · subst hnull
    simp [feed, hread, Takes]
  · rw [feed_event hread hnull]
    simp only [Takes, hnull, ne_eq, not_false_eq_true, true_and]
    cases hdone : done ev with
    | true =>
      rw [bufferToken_of_done hdone]
      simp only [if_true, onDone_isOk_iff, or_true, true_implies]
    | false =>
      simp only [Bool.false_eq_true, if_false, or_false, false_implies, and_true]
      unfold bufferToken
      cases streaming ev with
      | false => simp
      | true =>
        rw [if_pos rfl, ← appendResponse_isSome_iff ev scratch.messageBuf]
        cases appendResponse ev scratch.messageBuf <;> simp

end OllamaParser

def ollamaParser : DriverParser OllamaScratch where
  scratch := ⟨[]⟩
  initialState := OllamaParser.initialState
  feed := OllamaParser.feed

end Cordyceps.Drivers
