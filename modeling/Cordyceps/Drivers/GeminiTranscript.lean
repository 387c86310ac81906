import Cordyceps.Drivers.GeminiParser
import Cordyceps.Drivers.Sessions

/-!
# The transcript of a Gemini session

What a Gemini parser has emitted, followed by what it keeps, is the text that the stream has
brought so far. A `result` event and the empty feed at the end move the kept text into one
message, and nothing else emits one.
-/

namespace Cordyceps.Drivers

open Foundations Foundations.StepMachine Agents

namespace GeminiParser

/-- The text that a line brings: the string `content` of an assistant message. -/
def contentOf (line : JsString) : JsString :=
  match readEvent line with
  | some ev =>
    if hasType ev (js "message") ∧ ev.field (js "role") = some (.str (js "assistant")) then
      (stringOf (ev.field (js "content"))).getD []
    else []
  | none => []

/-- A line with a `result` event. -/
def isResult (line : JsString) : Bool := (readEvent line).any (hasType · (js "result"))

/-! ## One feed -/

/-- An answer that neither loses nor invents text, in at most `bound` messages. -/
structure Conserves (scratch : GeminiScratch) (content : JsString) (bound : ℕ)
    (answer : ParseResult × GeminiScratch) : Prop where
  text : (answer.1.messages.map AssistantMessage.text).flatten ++ answer.2.messageBuf =
    scratch.messageBuf ++ content
  visible : ∀ text ∈ answer.1.messages.map AssistantMessage.text, text ≠ []
  few : answer.1.messages.length ≤ bound

variable (now : Timestamp) (state : AgentState) {scratch : GeminiScratch} {ev : Json}

/-- Nothing is emitted. -/
theorem conserves_silent {result : ParseResult} {kept : GeminiScratch} {content : JsString}
    (bound : ℕ) (hsilent : result.messages = [])
    (hkept : kept.messageBuf = scratch.messageBuf ++ content) :
    Conserves scratch content bound (result, kept) where
  text := by
    rw [hsilent]
    exact hkept
  visible := by simp [hsilent]
  few := by simp [hsilent]

/-- All that is kept is emitted. -/
theorem conserves_emitted {result : ParseResult} {message : AssistantMessage}
    (hpending : scratch.pending = true) (hmessages : result.messages = [message])
    (htext : message.text = scratch.messageBuf) : Conserves scratch [] 1 (result, .empty) where
  text := by simp [hmessages, htext, GeminiScratch.empty]
  visible := by
    rw [hmessages]
    simpa [htext] using scratch.pending_iff.mp hpending
  few := by simp [hmessages]

/-- The empty feed. -/
theorem flush_conserves : Conserves scratch [] 1 (flush now state scratch) ∧
    (flush now state scratch).2.messageBuf = [] := by
  unfold flush
  cases hpending : scratch.pending with
  | true => exact ⟨conserves_emitted hpending rfl rfl, rfl⟩
  | false =>
    refine ⟨conserves_silent 1 rfl (List.append_nil _).symm, ?_⟩
    by_contra hbuffered
    rw [scratch.pending_iff.mpr hbuffered] at hpending
    cases hpending

theorem onResult_conserves (next : AgentState) :
    Conserves scratch [] 1 (onResult now ev next scratch) := by
  unfold onResult
  cases hpending : scratch.pending with
  | true => exact conserves_emitted hpending rfl rfl
  | false => exact conserves_silent 1 rfl (List.append_nil _).symm

theorem messageBuf_onMessage {line : JsString} (hread : readEvent line = some ev)
    (htype : hasType ev (js "message") = true) :
    (onMessage ev scratch).messageBuf = scratch.messageBuf ++ contentOf line := by
  rw [contentOf, hread]
  unfold onMessage
  by_cases hrole : ev.field (js "role") = some (.str (js "assistant"))
  · simp only [hrole, htype, if_true, and_self]
    cases stringOf (ev.field (js "content")) with
    | none => exact (List.append_nil _).symm
    | some content => rfl
  · simp [hrole]

theorem contentOf_of_not_message {line : JsString} (hread : readEvent line = some ev)
    (htype : ¬ hasType ev (js "message") = true) : contentOf line = [] := by
  rw [contentOf, hread]
  exact if_neg fun hboth ↦ htype hboth.1

/-- A line other than `null`. -/
theorem feed_line {line : JsString} (hline : line ≠ []) (hnull : readEvent line ≠ some .null) :
    ∃ answer, feed now line state scratch = .ok answer ∧
      Conserves scratch (contentOf line) (if isResult line then 1 else 0) answer := by
  rw [feed, if_neg (by simpa using hline)]
  cases hread : readEvent line with
  | none =>
    have hcontent : contentOf line = [] := by rw [contentOf, hread]
    refine ⟨_, rfl, conserves_silent _ rfl ?_⟩
    rw [hcontent, List.append_nil]
  | some ev =>
    have hresult : isResult line = hasType ev (js "result") := by rw [isResult, hread]; rfl
    have hquiet : ∀ {result : ParseResult}, ¬ hasType ev (js "message") = true →
        result.messages = [] → ∀ bound, Conserves scratch (contentOf line) bound (result, scratch) := by
      intro result htype hsilent bound
      refine conserves_silent bound hsilent ?_
      rw [contentOf_of_not_message hread htype, List.append_nil]
    have hevent : ∃ answer, (if hasType ev (js "init") then
          .ok (⟨some (onInit ev (copyState state)), [], []⟩, scratch)
        else if hasType ev (js "message") then .ok (.unchanged, onMessage ev scratch)
        else if hasType ev (js "result") then .ok (onResult now ev (copyState state) scratch)
        else .ok (.unchanged, scratch)) = (.ok answer : Except (FeedError GeminiScratch) _) ∧
          Conserves scratch (contentOf line) (if isResult line then 1 else 0) answer := by
      split
      · rename_i hinit
        refine ⟨_, rfl, hquiet ?_ rfl _⟩
        simp only [hasType, decide_eq_true_eq] at hinit ⊢
        rw [hinit]
        decide
      · split
        · rename_i hmessage
          exact ⟨_, rfl, conserves_silent _ rfl (messageBuf_onMessage hread hmessage)⟩
        · rename_i hmessage
          split
          · rename_i htype
            refine ⟨_, rfl, ?_⟩
            rw [hresult, if_pos htype, contentOf_of_not_message hread hmessage]
            exact onResult_conserves now _
          · exact ⟨_, rfl, hquiet hmessage rfl _⟩
    cases ev with
    | null => exact absurd hread hnull
    | _ => exact hevent

end GeminiParser

/-! ## Sessions -/

open GeminiParser

/-- The session of a stream of lines. -/
structure Transcript (lines : List JsString) (session : Session GeminiScratch) : Prop where
  text : session.texts.flatten ++ session.scratch.messageBuf = (lines.map contentOf).flatten
  visible : ∀ text ∈ session.texts, text ≠ []
  few : session.messages.length ≤ lines.countP isResult

theorem Transcript.answered {lines : List JsString} {session : Session GeminiScratch}
    (h : Transcript lines session) {content : JsString} {bound : ℕ}
    {answer : ParseResult × GeminiScratch}
    (hanswer : Conserves session.scratch content bound answer) :
    (session.answered answer).texts.flatten ++ answer.2.messageBuf =
        (lines.map contentOf).flatten ++ content ∧
      (∀ text ∈ (session.answered answer).texts, text ≠ []) ∧
      (session.answered answer).messages.length ≤ lines.countP isResult + bound := by
  have htexts : (session.answered answer).texts =
      session.texts ++ answer.1.messages.map AssistantMessage.text := List.map_append
  refine ⟨?_, ?_, ?_⟩
  · rw [htexts, List.flatten_append, List.append_assoc, hanswer.text, ← List.append_assoc, h.text]
  · rw [htexts]
    exact List.forall_mem_append.mpr ⟨h.visible, hanswer.visible⟩
  · have hlength : (session.answered answer).messages.length =
        session.messages.length + answer.1.messages.length := List.length_append
    have hfew := h.few
    have hbound := hanswer.few
    omega

/-- One more line. -/
theorem Transcript.hear {lines : List JsString} {session : Session GeminiScratch}
    (h : Transcript lines session) (now : Timestamp) {line : JsString} (hline : line ≠ [])
    (hnull : readEvent line ≠ some .null) :
    ∃ next, geminiParser.hear session (now, line) = some next ∧
      Transcript (lines ++ [line]) next := by
  obtain ⟨answer, hfeed, hanswer⟩ := feed_line now session.state hline hnull
  obtain ⟨htext, hvisible, hfew⟩ := h.answered hanswer
  refine ⟨_, geminiParser.hear_of_feed hfeed, ?_, hvisible, ?_⟩
  · rw [List.map_append, List.map_singleton, List.flatten_append, List.flatten_singleton]
    exact htext
  · rw [List.countP_append, List.countP_singleton]
    exact hfew

theorem Transcript.run {feeds : List (Timestamp × JsString)}
    (hlines : ∀ line ∈ feeds.map Prod.snd, line ≠ [] ∧ readEvent line ≠ some .null)
    {lines : List JsString} {session : Session GeminiScratch} (h : Transcript lines session) :
    ∃ final, run geminiParser.hear session feeds = some final ∧
      Transcript (lines ++ feeds.map Prod.snd) final := by
  induction feeds generalizing lines session with
  | nil => exact ⟨session, rfl, by rwa [List.map_nil, List.append_nil]⟩
  | cons feed rest ih =>
    rw [List.map_cons, List.forall_mem_cons] at hlines
    obtain ⟨next, hnext, hkept⟩ := h.hear feed.1 hlines.1.1 hlines.1.2
    obtain ⟨final, hrun, hfinal⟩ := ih hlines.2 hkept
    refine ⟨final, ?_, ?_⟩
    · rw [run_cons, hnext]
      exact hrun
    · rwa [List.append_assoc] at hfinal

theorem transcript_fresh : Transcript [] geminiParser.fresh :=
  ⟨rfl, by simp [Session.texts, DriverParser.fresh], le_rfl⟩

/-- **A Gemini stream is emitted as it came.** A stream of lines without a bare `null`, closed by
the empty feed, is emitted text by text without loss or addition, in visible messages, at most
one for a `result` event and one for the empty feed. -/
theorem gemini_stream_conserved (feeds : List (Timestamp × JsString)) (later : Timestamp)
    (hlines : ∀ line ∈ feeds.map Prod.snd, line ≠ [] ∧ readEvent line ≠ some .null) :
    ∃ final, run geminiParser.hear geminiParser.fresh (feeds ++ [(later, [])]) = some final ∧
      final.texts.flatten = (feeds.map (contentOf ·.2)).flatten ∧
      (∀ text ∈ final.texts, text ≠ []) ∧
      final.messages.length ≤ feeds.countP (isResult ·.2) + 1 := by
  obtain ⟨session, hrun, hsession⟩ := transcript_fresh.run hlines
  obtain ⟨hconserves, hempty⟩ := @flush_conserves later session.state session.scratch
  obtain ⟨htext, hvisible, hfew⟩ := hsession.answered hconserves
  have hflush : geminiParser.hear session (later, []) =
      some (session.answered (flush later session.state session.scratch)) := rfl
  refine ⟨session.answered (flush later session.state session.scratch), ?_, ?_, hvisible, ?_⟩
  · rw [run_append, hrun, Option.bind_some, run_cons, hflush]
    rfl
  · rw [hempty, List.append_nil, List.append_nil] at htext
    rw [htext, List.nil_append, List.map_map]
    rfl
  · rw [List.nil_append, List.countP_map] at hfew
    exact hfew

/-- A turn with a result, and a message that the end of the stream leaves open. -/
def geminiLines : List JsString :=
  [js "\x7b\"type\":\"message\",\"role\":\"assistant\",\"content\":\"hi\"\x7d", js " ",
    js "\x7b\"type\":\"result\"\x7d", js "warning",
    js "\x7b\"type\":\"message\",\"role\":\"assistant\",\"content\":\"there\"\x7d"]

theorem gemini_stream_of_two_turns :
    ∃ final, run geminiParser.hear geminiParser.fresh
        (geminiLines.map (Prod.mk 0) ++ [(1, [])]) = some final ∧
      final.texts.flatten = ((geminiLines.map (Prod.mk 0)).map (contentOf ·.2)).flatten ∧
      (∀ text ∈ final.texts, text ≠ []) ∧
      final.messages.length ≤ (geminiLines.map (Prod.mk 0)).countP (isResult ·.2) + 1 :=
  gemini_stream_conserved (geminiLines.map (Prod.mk 0)) 1 (by decide +kernel)

example : (geminiLines.map contentOf).flatten = js "hithere" := by decide +kernel

end Cordyceps.Drivers
