import Cordyceps.Agents.Runtime
import Cordyceps.Drivers.CodexParser
import Cordyceps.Drivers.GeminiParser
import Cordyceps.Drivers.OllamaParser

/-!
# The messages a parser answers with

For the event-stream drivers the emitted messages, their timestamps apart, and the
parser's memory do not depend on the clock or on the state of the agent that is
fed. Such a parser is a machine over its memory alone, so "the messages of this
output" can be said without an agent.
-/

namespace Cordyceps.Drivers

open Foundations Agents

variable {Scratch : Type*}

/-- A message whenever it was sent. -/
def undated (message : AssistantMessage) : AssistantMessage := { message with ts := 0 }

theorem map_text_undated (messages : List AssistantMessage) :
    (messages.map undated).map AssistantMessage.text = messages.map AssistantMessage.text :=
  List.map_map

/-- The part of an answer that says what was emitted and what is remembered. -/
def view (answer : ParseResult × Scratch) : List AssistantMessage × Scratch :=
  (answer.1.messages.map undated, answer.2)

/-- What a list of chunks makes a parser emit and remember, and whether it threw on the way. -/
structure Replies (Scratch : Type*) where
  messages : List AssistantMessage
  scratch : Scratch
  threw : Bool

namespace DriverParser

variable (parser : DriverParser Scratch)

/-- The answer to one chunk, as a new agent would get it. -/
def reply (chunk : JsString) (scratch : Scratch) :
    Except (FeedError Scratch) (List AssistantMessage × Scratch) :=
  (parser.feed 0 chunk parser.initialState scratch).map view

/-- The clock and the agent's state do not matter for what is emitted and remembered. -/
def Uniform : Prop := ∀ now chunk state scratch,
  (parser.feed now chunk state scratch).map view = parser.reply chunk scratch

/-- The parser throws on this chunk in no memory. -/
def Accepts (chunk : JsString) : Prop := ∀ scratch, ∃ answer, parser.reply chunk scratch = .ok answer

/-- The answers to a list of chunks, up to a throw. -/
def replies : List JsString → Scratch → Replies Scratch
  | [], scratch => ⟨[], scratch, false⟩
  | chunk :: rest, scratch =>
    match parser.reply chunk scratch with
    | .error thrown => ⟨[], thrown.scratch, true⟩
    | .ok (messages, scratch) =>
      let later := replies rest scratch
      { later with messages := messages ++ later.messages }

variable {parser}

theorem replies_cons_ok {chunk : JsString} {scratch next : Scratch}
    {messages : List AssistantMessage} (h : parser.reply chunk scratch = .ok (messages, next))
    (rest : List JsString) : parser.replies (chunk :: rest) scratch =
      { parser.replies rest next with
        messages := messages ++ (parser.replies rest next).messages } := by
  rw [replies, h]

/-- Feeding goes on where it stopped, unless it threw. -/
theorem replies_append {first : List JsString} {scratch : Scratch}
    (h : (parser.replies first scratch).threw = false) (second : List JsString) :
    parser.replies (first ++ second) scratch =
      { parser.replies second (parser.replies first scratch).scratch with
        messages := (parser.replies first scratch).messages ++
          (parser.replies second (parser.replies first scratch).scratch).messages } := by
  induction first generalizing scratch with
  | nil => rfl
  | cons chunk rest ih =>
    cases hreply : parser.reply chunk scratch with
    | error _ => simp [replies, hreply] at h
    | ok answer =>
      obtain ⟨messages, next⟩ := answer
      have hrest : (parser.replies rest next).threw = false := by
        rwa [replies_cons_ok hreply] at h
      rw [List.cons_append, replies_cons_ok hreply, replies_cons_ok hreply, ih hrest]
      simp [List.append_assoc]

/-- Accepted chunks are fed to the end. -/
theorem threw_of_accepts {chunks : List JsString} (h : ∀ chunk ∈ chunks, parser.Accepts chunk)
    (scratch : Scratch) : (parser.replies chunks scratch).threw = false := by
  induction chunks generalizing scratch with
  | nil => rfl
  | cons chunk rest ih =>
    obtain ⟨⟨messages, next⟩, hreply⟩ := h chunk List.mem_cons_self scratch
    rw [replies_cons_ok hreply]
    exact ih (fun later hlater ↦ h later (List.mem_cons_of_mem _ hlater)) next

/-- Feeding an agent appends these messages and leaves this memory. -/
theorem feedAll_replies (huniform : parser.Uniform) (now : Timestamp) (chunks : List JsString)
    (core : AgentCore Scratch) :
    (∃ messages, (core.feedAll parser now chunks).1.transcript = core.transcript ++ messages ∧
      messages.map undated = (parser.replies chunks core.scratch).messages) ∧
    (core.feedAll parser now chunks).1.scratch = (parser.replies chunks core.scratch).scratch ∧
    (core.feedAll parser now chunks).2 = (parser.replies chunks core.scratch).threw := by
  induction chunks generalizing core with
  | nil => exact ⟨⟨[], by simp [AgentCore.feedAll], rfl⟩, rfl, rfl⟩
  | cons chunk rest ih =>
    have hreply := huniform now chunk core.state core.scratch
    cases hfeed : parser.feed now chunk core.state core.scratch with
    | error thrown =>
      have hthrows : core.feedAll parser now (chunk :: rest) =
          ({ core with scratch := thrown.scratch }, true) := by
        simp only [AgentCore.feedAll, AgentCore.feedChunk, hfeed, Except.map]
      rw [hfeed] at hreply
      unfold replies
      rw [hthrows, ← hreply]
      exact ⟨⟨[], (List.append_nil _).symm, rfl⟩, rfl, rfl⟩
    | ok answer =>
      obtain ⟨result, scratch⟩ := answer
      rw [hfeed] at hreply
      obtain ⟨calls, habsorb, _⟩ := core.absorb_eq result scratch
      obtain ⟨⟨messages, htranscript, hmessages⟩, hscratch, hthrew⟩ := ih (core.absorb result scratch)
      rw [replies_cons_ok hreply.symm]
      simp only [AgentCore.feedAll, AgentCore.feedChunk, hfeed, Except.map]
      simp only [habsorb] at htranscript hmessages hscratch hthrew ⊢
      refine ⟨⟨result.messages ++ messages, ?_, ?_⟩, hscratch, hthrew⟩
      · rw [htranscript, List.append_assoc]
      · rw [List.map_append, hmessages]

/-! ### Memories that cannot be told apart -/

variable (parser) in
/-- Whatever comes, both memories answer it with the same messages. -/
def Alike (first second : Scratch) : Prop := ∀ chunks,
  (parser.replies chunks first).messages = (parser.replies chunks second).messages ∧
  (parser.replies chunks first).threw = (parser.replies chunks second).threw

variable (parser) in
/-- The empty feed at the end of a stream does not throw and leaves a memory that cannot be told
from a new parser's. -/
def Settles : Prop := ∀ scratch, ∃ messages next,
  parser.reply [] scratch = .ok (messages, next) ∧ parser.Alike next parser.scratch

theorem Alike.refl (scratch : Scratch) : parser.Alike scratch scratch := fun _ ↦ ⟨rfl, rfl⟩

/-- Alike memories are alike after the same chunks. -/
theorem Alike.after {first second : Scratch} (h : parser.Alike first second)
    {chunks : List JsString} (hthrew : (parser.replies chunks second).threw = false) :
    parser.Alike (parser.replies chunks first).scratch (parser.replies chunks second).scratch := by
  intro later
  have hfirst : (parser.replies chunks first).threw = false := (h chunks).2.trans hthrew
  have hlater := h (chunks ++ later)
  rw [replies_append hfirst, replies_append hthrew, (h chunks).1] at hlater
  exact ⟨List.append_cancel_left hlater.1, hlater.2⟩

/-- A memory like that of a parser which was told the same goes on like it. -/
theorem Alike.append {scratch fresh : Scratch} {told chunks : List JsString}
    (h : parser.Alike scratch (parser.replies told fresh).scratch)
    (htold : (parser.replies told fresh).threw = false)
    (hchunks : (parser.replies chunks scratch).threw = false) :
    (parser.replies (told ++ chunks) fresh).threw = false ∧
    parser.Alike (parser.replies chunks scratch).scratch
      (parser.replies (told ++ chunks) fresh).scratch ∧
    (parser.replies (told ++ chunks) fresh).messages =
      (parser.replies told fresh).messages ++ (parser.replies chunks scratch).messages := by
  have hsame : (parser.replies chunks (parser.replies told fresh).scratch).threw = false :=
    (h chunks).2.symm.trans hchunks
  rw [replies_append htold, (h chunks).1]
  exact ⟨hsame, h.after hsame, rfl⟩

/-- After the flush at the end of a stream the memory is a new parser's. -/
theorem Settles.flush (h : parser.Settles) {chunks : List JsString} {scratch : Scratch}
    (hthrew : (parser.replies chunks scratch).threw = false) :
    (parser.replies (chunks ++ [[]]) scratch).threw = false ∧
    parser.Alike (parser.replies (chunks ++ [[]]) scratch).scratch parser.scratch := by
  obtain ⟨messages, next, hreply, hnext⟩ := h (parser.replies chunks scratch).scratch
  rw [replies_append hthrew, replies_cons_ok hreply]
  exact ⟨rfl, hnext⟩

/-- Memories are alike when a relation that every answer respects holds between them. -/
theorem alike_of_related {Related : Scratch → Scratch → Prop}
    (hreply : ∀ first second chunk, Related first second →
      (∃ error error', parser.reply chunk first = .error error ∧
        parser.reply chunk second = .error error') ∨
      ∃ messages next next', parser.reply chunk first = .ok (messages, next) ∧
        parser.reply chunk second = .ok (messages, next') ∧ Related next next')
    {first second : Scratch} (hrelated : Related first second) : parser.Alike first second := by
  intro chunks
  induction chunks generalizing first second with
  | nil => exact ⟨rfl, rfl⟩
  | cons chunk rest ih =>
    rcases hreply first second chunk hrelated with
      ⟨error, error', hfirst, hsecond⟩ | ⟨messages, next, next', hfirst, hsecond, hnext⟩
    · simp [replies, hfirst, hsecond]
    · rw [replies_cons_ok hfirst, replies_cons_ok hsecond]
      exact ⟨congrArg (messages ++ ·) (ih hnext).1, (ih hnext).2⟩

end DriverParser

/-! ## The three event-stream drivers -/

/-- Codex emits a completed assistant item. -/
theorem codex_messages {chunk : JsString} {ev : Json} (hread : readEvent chunk = some ev)
    (htakes : CodexParser.Takes ev) (now : Timestamp) (state : AgentState) (scratch : Unit) :
    (codexParser.feed now chunk state scratch).map view = .ok (
      if hasType ev (js "thread.started") then ([], scratch)
      else if hasType ev (js "turn.started") then ([], scratch)
      else if hasType ev (js "item.completed") then
        (((CodexParser.agentMessage ev).map fun text ↦ ⟨text, 0, none⟩).toList, scratch)
      else ([], scratch)) := by
  have hthread : ∀ next, (CodexParser.onThreadStarted ev next).messages = [] := by
    intro next
    unfold CodexParser.onThreadStarted
    split <;> rfl
  have hitem : ∀ next, (CodexParser.onItemCompleted now ev next).messages.map undated =
      ((CodexParser.agentMessage ev).map fun text ↦ ⟨text, 0, none⟩).toList := by
    intro next
    unfold CodexParser.onItemCompleted
    split <;> simp [*, ParseResult.unchanged, undated]
  simp only [codexParser, CodexParser.feed_event hread htakes.1]
  split
  · simp only [Except.map, view, hthread, List.map_nil]
  · split
    · rfl
    · split
      · simp only [Except.map, view, hitem]
      · split
        · rename_i htype
          obtain ⟨tokens, hturn⟩ :=
            CodexParser.onTurnCompleted_of_summable (htakes.2 htype) (copyState state)
          rw [hturn]
          rfl
        · rfl

/-- Codex throws on an event that it does not take, and on nothing else. -/
theorem codexParser_accepts_iff (chunk : JsString) :
    codexParser.Accepts chunk ↔ ∀ ev, readEvent chunk = some ev → CodexParser.Takes ev := by
  constructor
  · intro haccepts ev hread
    by_contra htakes
    obtain ⟨answer, hreply⟩ := haccepts ()
    simp [DriverParser.reply, codexParser, CodexParser.feed_of_not_takes hread htakes,
      Except.map] at hreply
  · intro htakes scratch
    unfold DriverParser.reply
    cases hread : readEvent chunk with
    | none => exact ⟨_, by simp [codexParser, CodexParser.feed, hread, Except.map]; rfl⟩
    | some ev =>
      rw [codex_messages hread (htakes ev hread)]
      exact ⟨_, rfl⟩

instance : DecidablePred codexParser.Accepts := fun chunk ↦
  decidable_of_iff (∀ ev ∈ readEvent chunk, CodexParser.Takes ev) (codexParser_accepts_iff chunk).symm

theorem codexParser_uniform : codexParser.Uniform := by
  intro now chunk state scratch
  unfold DriverParser.reply
  cases hread : readEvent chunk with
  | none => simp [codexParser, CodexParser.feed, hread, Except.map, view]
  | some ev =>
    by_cases htakes : CodexParser.Takes ev
    · rw [codex_messages hread htakes, codex_messages hread htakes]
    · simp [codexParser, CodexParser.feed_of_not_takes hread htakes, Except.map]

/-- The Codex parser has nothing to remember. -/
theorem codexParser_settles : codexParser.Settles :=
  fun scratch ↦ ⟨[], scratch, rfl, .refl scratch⟩

theorem geminiParser_uniform : geminiParser.Uniform := by
  intro now chunk state scratch
  simp only [DriverParser.reply, geminiParser, GeminiParser.feed]
  split
  · unfold GeminiParser.flush
    split <;> rfl
  · split
    · rfl
    · rfl
    · split
      · rfl
      · split
        · rfl
        · split
          · unfold GeminiParser.onResult
            split <;> rfl
          · rfl

/-- Only the buffered text of the Gemini parser is ever told. -/
theorem geminiParser_alike {first second : GeminiScratch}
    (h : first.messageBuf = second.messageBuf) : geminiParser.Alike first second := by
  refine @DriverParser.alike_of_related _ _ (fun first second ↦ first.messageBuf = second.messageBuf)
    (fun first second chunk hbuffer ↦ ?_) _ _ h
  have hpending : first.pending = second.pending := by
    rw [Bool.eq_iff_iff, first.pending_iff, second.pending_iff, hbuffer]
  simp only [DriverParser.reply, geminiParser, GeminiParser.feed]
  split
  · right
    unfold GeminiParser.flush
    rw [hpending, hbuffer]
    split
    · exact ⟨_, _, _, rfl, rfl, rfl⟩
    · exact ⟨_, _, _, rfl, rfl, hbuffer⟩
  · split
    · exact .inr ⟨_, _, _, rfl, rfl, hbuffer⟩
    · exact .inl ⟨_, _, rfl, rfl⟩
    · right
      split
      · exact ⟨_, _, _, rfl, rfl, hbuffer⟩
      · split
        · refine ⟨_, _, _, rfl, rfl, ?_⟩
          unfold GeminiParser.onMessage
          split
          · split
            · exact congrArg (· ++ _) hbuffer
            · exact hbuffer
          · exact hbuffer
        · split
          · unfold GeminiParser.onResult
            rw [hpending, hbuffer]
            split
            · exact ⟨_, _, _, rfl, rfl, rfl⟩
            · exact ⟨_, _, _, rfl, rfl, hbuffer⟩
          · exact ⟨_, _, _, rfl, rfl, hbuffer⟩

/-- Gemini throws on the JSON value `null` alone. -/
theorem geminiParser_accepts_iff {chunk : JsString} (hchunk : chunk ≠ []) :
    geminiParser.Accepts chunk ↔ readEvent chunk ≠ some .null := by
  have hnonempty : chunk.isEmpty = false := List.isEmpty_eq_false_iff.mpr hchunk
  constructor
  · intro haccepts hnull
    obtain ⟨answer, hreply⟩ := haccepts .empty
    simp [DriverParser.reply, geminiParser, GeminiParser.feed, hnonempty, hnull,
      Except.map] at hreply
  · intro hnull scratch
    simp only [DriverParser.reply, geminiParser, GeminiParser.feed, hnonempty, Bool.false_eq_true,
      if_false]
    split
    · exact ⟨_, rfl⟩
    · exact absurd ‹_› hnull
    · split
      · exact ⟨_, rfl⟩
      · split
        · exact ⟨_, rfl⟩
        · split <;> exact ⟨_, rfl⟩

theorem geminiParser_settles : geminiParser.Settles := by
  intro scratch
  simp only [DriverParser.reply, geminiParser, GeminiParser.feed, List.isEmpty_nil, if_true]
  unfold GeminiParser.flush
  cases hpending : scratch.pending with
  | true => exact ⟨_, _, rfl, .refl _⟩
  | false =>
    refine ⟨_, _, rfl, geminiParser_alike ?_⟩
    by_contra hbuffer
    rw [(scratch.pending_iff).mpr hbuffer] at hpending
    cases hpending

/-- What the final event tells depends on the event and the memory alone. -/
theorem ollama_onDone (now : Timestamp) (ev : Json) (next : AgentState) (buffer : JsString) :
    (OllamaParser.onDone now ev next buffer).map view =
      match OllamaParser.appendResponse ev buffer with
      | none => .error (.typeError ⟨buffer⟩)
      | some text =>
        match OllamaParser.tokenCount ev with
        | none => .error (.typeError ⟨[]⟩)
        | some tokens => .ok (if text.isEmpty then [] else [⟨text, 0, some tokens⟩], ⟨[]⟩) := by
  unfold OllamaParser.onDone
  cases OllamaParser.appendResponse ev buffer with
  | none => rfl
  | some text =>
    cases OllamaParser.tokenCount ev with
    | none => rfl
    | some tokens =>
      simp only [Except.map, view, OllamaParser.settleDone]
      split <;> rfl

/-- Ollama remembers the streamed responses and emits them with the final event. -/
theorem ollama_messages {chunk : JsString} {ev : Json} (hread : readEvent chunk = some ev)
    (hnull : ev ≠ .null) (now : Timestamp) (state : AgentState) (scratch : OllamaScratch) :
    (ollamaParser.feed now chunk state scratch).map view =
      match OllamaParser.bufferToken ev scratch.messageBuf with
      | none => .error (.typeError scratch)
      | some buffer =>
        if OllamaParser.done ev then
          (OllamaParser.onDone 0 ev ollamaParser.initialState buffer).map view
        else .ok ([], ⟨buffer⟩) := by
  simp only [ollamaParser, OllamaParser.feed_event hread hnull]
  cases OllamaParser.bufferToken ev scratch.messageBuf with
  | none => rfl
  | some buffer =>
    simp only
    split
    · rw [ollama_onDone, ollama_onDone]
    · rfl

theorem ollamaParser_uniform : ollamaParser.Uniform := by
  intro now chunk state scratch
  unfold DriverParser.reply
  cases hread : readEvent chunk with
  | none => simp [ollamaParser, OllamaParser.feed, hread, Except.map, view]
  | some ev =>
    by_cases hnull : ev = .null
    · simp [ollamaParser, OllamaParser.feed, hread, hnull, Except.map]
    · rw [ollama_messages hread hnull, ollama_messages hread hnull]

end Cordyceps.Drivers
