import Cordyceps.Drivers.Api

/-!
# The Codex parser

`codex exec --json` events. Every assistant item is a complete message, so this
parser keeps no memory between feeds.
-/

namespace Cordyceps.Drivers

open Foundations Agents

namespace CodexParser

def initialState : AgentState where
  status := .starting
  model := some (.str [])
  mode := some (js "default")
  lastMessage := none
  activity := none
  blocking := none
  tokens := some ⟨.num 0, none⟩
  extra := some [(js "mode", .str (js "exec"))]

/-- `case "thread.started"`. -/
def onThreadStarted (ev : Json) (next : AgentState) : ParseResult :=
  match Json.ifTruthy (ev.field (js "thread_id")) with
  | some thread => ⟨some (setExtra (js "threadId") thread next), [], []⟩
  | none => .unchanged

/-- The text of an `agent_message` item. -/
def agentMessage (ev : Json) : Option JsString :=
  (ev.field (js "item")).bind fun item ↦
    if hasType item (js "agent_message") then stringOf (item.field (js "text")) else none

/-- `case "item.completed"`. -/
def onItemCompleted (now : Timestamp) (ev : Json) (next : AgentState) : ParseResult :=
  match agentMessage ev with
  | some text =>
    ⟨some { next with lastMessage := some text }, [messageEvent text], [⟨text, now, none⟩]⟩
  | none => .unchanged

/-- `(usage.input_tokens ?? 0) + (usage.output_tokens ?? 0)`. -/
def tokensUsed (usage : Json) : Option Json :=
  Json.add (Json.orElse (.num 0) (usage.field (js "input_tokens")))
    (Json.orElse (.num 0) (usage.field (js "output_tokens")))

/-- `case "turn.completed"`, unless the sum throws. -/
def onTurnCompleted (ev : Json) (next : AgentState) : Except (FeedError Unit) ParseResult :=
  let usage := ev.field (js "usage")
  let settled := next.withStatus .idle
  let completed : ParserEvent := ⟨js "turn.completed", Json.orElse (.obj []) usage⟩
  match Json.ifTruthy usage with
  | none => .ok ⟨some settled, [completed], []⟩
  | some usage =>
    match tokensUsed usage with
    | none => .error (.typeError ())
    | some used => .ok ⟨some { settled with tokens := some ⟨used, none⟩ }, [completed], []⟩

def feed (now : Timestamp) (chunk : JsString) (state : AgentState) :
    Except (FeedError Unit) ParseResult :=
  match readEvent chunk with
  | none => .ok .unchanged
  | some .null => .error (.typeError ())
  | some ev =>
    let next := copyState state
    if hasType ev (js "thread.started") then .ok (onThreadStarted ev next)
    else if hasType ev (js "turn.started") then
      .ok ⟨some (next.withStatus .busy), [⟨js "turn.started", .obj []⟩], []⟩
    else if hasType ev (js "item.completed") then .ok (onItemCompleted now ev next)
    else if hasType ev (js "turn.completed") then onTurnCompleted ev next
    else .ok .unchanged

/-- What an event other than `null` does. -/
theorem feed_event {chunk : JsString} {ev : Json} (hread : readEvent chunk = some ev)
    (hnull : ev ≠ .null) (now : Timestamp) (state : AgentState) : feed now chunk state =
      if hasType ev (js "thread.started") then .ok (onThreadStarted ev (copyState state))
      else if hasType ev (js "turn.started") then
        .ok ⟨some ((copyState state).withStatus .busy), [⟨js "turn.started", .obj []⟩], []⟩
      else if hasType ev (js "item.completed") then .ok (onItemCompleted now ev (copyState state))
      else if hasType ev (js "turn.completed") then onTurnCompleted ev (copyState state)
      else .ok .unchanged := by
  unfold feed
  rw [hread]
  cases ev with
  | null => exact absurd rfl hnull
  | _ => rfl

/-- The values that `turn.completed` adds up. -/
def Summable (usage : Json) : Prop :=
  (Json.orElse (.num 0) (usage.field (js "input_tokens"))).hasText = true ∧
    (Json.orElse (.num 0) (usage.field (js "output_tokens"))).hasText = true

/-- Codex takes every event but `null` and a `turn.completed` with a count that cannot be added. -/
def Takes (ev : Json) : Prop :=
  ev ≠ .null ∧ (hasType ev (js "turn.completed") = true →
    ∀ usage, Json.ifTruthy (ev.field (js "usage")) = some usage → Summable usage)

instance (usage : Json) : Decidable (Summable usage) := inferInstanceAs (Decidable (_ ∧ _))

instance (ev : Json) : Decidable (Takes ev) :=
  inferInstanceAs (Decidable (_ ∧ (_ → ∀ usage ∈ Json.ifTruthy (ev.field (js "usage")), Summable usage)))

theorem onTurnCompleted_of_throws {ev usage : Json}
    (husage : Json.ifTruthy (ev.field (js "usage")) = some usage) (hsum : ¬ Summable usage)
    (next : AgentState) : onTurnCompleted ev next = .error (.typeError ()) := by
  have hnone : tokensUsed usage = none := by
    rw [← Option.not_isSome_iff_eq_none, tokensUsed, Json.add_isSome_iff]
    exact hsum
  simp only [onTurnCompleted, husage, hnone]

/-- The answer to `turn.completed` tells no message. -/
theorem onTurnCompleted_of_summable {ev : Json}
    (h : ∀ usage, Json.ifTruthy (ev.field (js "usage")) = some usage → Summable usage)
    (next : AgentState) : ∃ tokens, onTurnCompleted ev next =
      .ok ⟨some { next.withStatus .idle with tokens := tokens },
        [⟨js "turn.completed", Json.orElse (.obj []) (ev.field (js "usage"))⟩], []⟩ := by
  cases husage : Json.ifTruthy (ev.field (js "usage")) with
  | none => exact ⟨(next.withStatus .idle).tokens, by simp only [onTurnCompleted, husage]⟩
  | some usage =>
    have hsum : (tokensUsed usage).isSome := (Json.add_isSome_iff _ _).mpr (h usage husage)
    obtain ⟨used, hused⟩ := Option.isSome_iff_exists.mp hsum
    exact ⟨some ⟨used, none⟩, by simp only [onTurnCompleted, husage, hused]⟩

theorem feed_of_not_takes {chunk : JsString} {ev : Json} (hread : readEvent chunk = some ev)
    (h : ¬ Takes ev) (now : Timestamp) (state : AgentState) :
    feed now chunk state = .error (.typeError ()) := by
  by_cases hnull : ev = .null
  · subst hnull
    simp [feed, hread]
  · simp only [Takes, hnull, ne_eq, not_false_eq_true, true_and, not_forall] at h
    obtain ⟨htype, usage, husage, hsum⟩ := h
    have hother : ∀ name, name ≠ js "turn.completed" → hasType ev name = false := by
      intro name hname
      simp only [hasType, decide_eq_true_eq] at htype
      simp [hasType, htype, hname.symm]
    rw [feed_event hread hnull, hother _ (by decide), hother _ (by decide), hother _ (by decide), htype]
    exact onTurnCompleted_of_throws husage hsum _

end CodexParser

def codexParser : DriverParser Unit where
  scratch := ()
  initialState := CodexParser.initialState
  feed now chunk state scratch :=
    (CodexParser.feed now chunk state).map fun result ↦ (result, scratch)

end Cordyceps.Drivers
