import Cordyceps.Drivers.ClaudeMessages
import Cordyceps.Drivers.Replies
import Cordyceps.Foundations.SharedMemory

/-!
# Agents of one driver

The registry hands every controller of a driver the same driver object, so all of
them feed one parser. Each controller threads its own `AgentState`, but a message
that is being read stays in the parser. What an agent publishes is its own as long
as the parser never holds the unfinished messages of two agents.
-/

namespace Cordyceps.Drivers

open Foundations Foundations.StepMachine Foundations.SharedMemory Agents

/-- What a controller does with its state between two looks at the transcript. -/
inductive ParserCall
  | feed (now : Timestamp) (chunk : JsString)
  | setStatus (status : Status)

variable {Scratch View Index : Type*}

/-- What is seen of an agent: its transcript and the text published last. -/
def outward (core : AgentCore Scratch) : List AssistantMessage × Option JsString :=
  (core.transcript, core.state.lastMessage)

namespace DriverParser

/-- A controller's call, with the memory of the parser object it holds. A feed that throws leaves
the controller as it was. -/
def serve (parser : DriverParser Scratch) (call : ParserCall) (core : AgentCore Scratch)
    (scratch : Scratch) : AgentCore Scratch × Scratch :=
  match call with
  | .feed now chunk =>
    match { core with scratch := scratch }.feedChunk parser now chunk with
    | .ok fed => (fed, fed.scratch)
    | .error thrown => (core, thrown.scratch)
  | .setStatus status => (core.setStatus status, scratch)

/-- Two answers publish the same and leave memories that look the same. -/
def Agree (view : Scratch → View) (state state' : AgentState) :
    Except (FeedError Scratch) (ParseResult × Scratch) →
      Except (FeedError Scratch) (ParseResult × Scratch) → Prop
  | .ok (result, scratch), .ok (result', scratch') => result.messages = result'.messages ∧
      (result.state.getD state).lastMessage = (result'.state.getD state').lastMessage ∧
      view scratch = view scratch'
  | .error thrown, .error thrown' => view thrown.scratch = view thrown'.scratch
  | _, _ => False

/-- What is published depends on the chunk, the text published last and a view of the memory. -/
def Confined (parser : DriverParser Scratch) (view : Scratch → View) : Prop :=
  ∀ now chunk (state state' : AgentState) scratch scratch',
    state.lastMessage = state'.lastMessage → view scratch = view scratch' →
    Agree view state state' (parser.feed now chunk state scratch)
      (parser.feed now chunk state' scratch')

/-- A call of the controller sees no more than the parser does. -/
theorem Confined.respects {parser : DriverParser Scratch} {view : Scratch → View}
    (h : parser.Confined view) : Respects parser.serve outward view := by
  intro call core core' scratch scratch' hseen hview
  obtain ⟨htranscript, hlast⟩ := Prod.mk.inj hseen
  cases call with
  | setStatus status =>
    obtain ⟨_, heq⟩ := core.setStatus_eq status
    obtain ⟨_, heq'⟩ := core'.setStatus_eq status
    unfold serve
    simp only [heq, heq']
    exact ⟨hseen, hview⟩
  | feed now chunk =>
    have hagree := h now chunk core.state core'.state scratch scratch' hlast hview
    unfold serve AgentCore.feedChunk
    simp only
    cases hfeed : parser.feed now chunk core.state scratch with
    | error error =>
      cases hfeed' : parser.feed now chunk core'.state scratch' with
      | error error' =>
        rw [hfeed, hfeed'] at hagree
        exact ⟨hseen, hagree⟩
      | ok answer =>
        rw [hfeed, hfeed'] at hagree
        exact hagree.elim
    | ok answer =>
      cases hfeed' : parser.feed now chunk core'.state scratch' with
      | error error' =>
        rw [hfeed, hfeed'] at hagree
        exact hagree.elim
      | ok answer' =>
        obtain ⟨result, next⟩ := answer
        obtain ⟨result', next'⟩ := answer'
        rw [hfeed, hfeed'] at hagree
        obtain ⟨hmessages, hstate, hnext⟩ := hagree
        obtain ⟨_, habsorb, _⟩ := AgentCore.absorb_eq { core with scratch } result next
        obtain ⟨_, habsorb', _⟩ :=
          AgentCore.absorb_eq { core' with scratch := scratch' } result' next'
        simp only [Except.map, habsorb, habsorb', outward]
        exact ⟨by rw [htranscript, hmessages, hstate], hnext⟩

/-- A controller may set its status at any time. -/
theorem neutral_setStatus (parser : DriverParser Scratch) (view : Scratch → View) (status : Status) :
    Neutral parser.serve outward view (.setStatus status) :=
  fun _ _ _ ↦ ⟨rfl, rfl⟩

/-- So may it feed a chunk on which the parser answers the same whatever it remembers, and
remembers the same. -/
theorem neutral_feed {parser : DriverParser Scratch} {view : Scratch → View} {now : Timestamp}
    {chunk : JsString} (hchunk : ∀ state, ∃ result, ∀ scratch,
      parser.feed now chunk state scratch = .ok (result, scratch)) :
    Neutral parser.serve outward view (.feed now chunk) := by
  intro core scratch scratch'
  obtain ⟨result, hresult⟩ := hchunk core.state
  have hserve : ∀ scratch, outward (parser.serve (.feed now chunk) core scratch).1 =
      (core.transcript ++ result.messages, (result.state.getD core.state).lastMessage) ∧
      (parser.serve (.feed now chunk) core scratch).2 = scratch := by
    intro scratch
    obtain ⟨_, habsorb, _⟩ := AgentCore.absorb_eq { core with scratch } result scratch
    unfold serve AgentCore.feedChunk
    simp [hresult, Except.map, habsorb, outward]
  exact ⟨(hserve scratch).1.trans (hserve scratch').1.symm, congrArg view (hserve scratch).2⟩

end DriverParser

/-! ## The three drivers whose parser remembers -/

theorem lastMessage_onInit (ev : Json) (next : AgentState) :
    (GeminiParser.onInit ev next).lastMessage = next.lastMessage := by
  unfold GeminiParser.onInit
  simp only [AgentState.lastMessage_withStatus]
  split
  · split <;> rfl
  · split <;> rfl

theorem geminiParser_confined : geminiParser.Confined GeminiScratch.messageBuf := by
  intro now chunk state state' scratch scratch' hlast hbuffer
  have hpending : scratch.pending = scratch'.pending := by
    rw [Bool.eq_iff_iff, scratch.pending_iff, scratch'.pending_iff, hbuffer]
  simp only [geminiParser, GeminiParser.feed]
  split
  · unfold GeminiParser.flush
    rw [hpending, hbuffer]
    split
    · exact ⟨rfl, rfl, rfl⟩
    · exact ⟨rfl, hlast, hbuffer⟩
  · split
    · exact ⟨rfl, hlast, hbuffer⟩
    · exact hbuffer
    · rename_i ev _ _
      split
      · refine ⟨rfl, ?_, hbuffer⟩
        simp only [Option.getD_some, lastMessage_onInit]
        exact hlast
      · split
        · refine ⟨rfl, hlast, ?_⟩
          unfold GeminiParser.onMessage
          split
          · split
            · exact congrArg (· ++ _) hbuffer
            · exact hbuffer
          · exact hbuffer
        · split
          · unfold GeminiParser.onResult
            rw [hpending, hbuffer]
            split
            · exact ⟨rfl, rfl, rfl⟩
            · refine ⟨rfl, ?_, hbuffer⟩
              simp only [Option.getD_some]
              split <;> exact hlast
          · exact ⟨rfl, hlast, hbuffer⟩

/-- Gemini's `init` event is no concern of messages. -/
theorem neutral_init {now : Timestamp} {chunk : JsString} {ev : Json} (hchunk : chunk ≠ [])
    (hread : readEvent chunk = some ev) (hinit : hasType ev (js "init") = true) :
    Neutral geminiParser.serve outward GeminiScratch.messageBuf (.feed now chunk) := by
  refine DriverParser.neutral_feed fun state ↦
    ⟨⟨some (GeminiParser.onInit ev (copyState state)), [], []⟩, fun scratch ↦ ?_⟩
  have hnonempty : chunk.isEmpty = false := List.isEmpty_eq_false_iff.mpr hchunk
  simp only [geminiParser, GeminiParser.feed, hnonempty, hread, Bool.false_eq_true, if_false]
  cases ev with
  | null => simp [hasType, Json.field] at hinit
  | _ => simp only [hinit, if_true]

theorem lastMessage_onModel (ev : Json) (state next : AgentState) :
    (OllamaParser.onModel ev state next).1.lastMessage = next.lastMessage := by
  unfold OllamaParser.onModel
  split <;> rfl

theorem lastMessage_onToken (ev : Json) (state next : AgentState) (changed : Bool) :
    (OllamaParser.onToken ev state next changed).1.lastMessage = next.lastMessage := by
  unfold OllamaParser.onToken
  split <;> rfl

/-- The final event publishes the buffer, or nothing if that is empty. -/
theorem ollama_onDone_agree (now : Timestamp) (ev : Json) {state state' next next' : AgentState}
    (hlast : next.lastMessage = next'.lastMessage) (buffer : JsString) :
    DriverParser.Agree OllamaScratch.messageBuf state state'
      (OllamaParser.onDone now ev next buffer) (OllamaParser.onDone now ev next' buffer) := by
  unfold OllamaParser.onDone
  cases OllamaParser.appendResponse ev buffer with
  | none => rfl
  | some text =>
    cases OllamaParser.tokenCount ev with
    | none => rfl
    | some tokens =>
      simp only [OllamaParser.settleDone]
      split
      · exact ⟨rfl, hlast, rfl⟩
      · exact ⟨rfl, rfl, rfl⟩

theorem ollamaParser_confined : ollamaParser.Confined OllamaScratch.messageBuf := by
  intro now chunk state state' scratch scratch' hlast hbuffer
  cases hread : readEvent chunk with
  | none =>
    simp only [ollamaParser, OllamaParser.feed, hread]
    exact ⟨rfl, hlast, hbuffer⟩
  | some ev =>
    by_cases hnull : ev = .null
    · subst hnull
      simp only [ollamaParser, OllamaParser.feed, hread]
      exact hbuffer
    · have hnext : ∀ state : AgentState,
          (OllamaParser.onToken ev state (OllamaParser.onModel ev state (copyState state)).1
            (OllamaParser.onModel ev state (copyState state)).2).1.lastMessage =
            state.lastMessage := by
        intro state
        rw [lastMessage_onToken, lastMessage_onModel]
        rfl
      simp only [ollamaParser, OllamaParser.feed_event hread hnull, hbuffer]
      cases OllamaParser.bufferToken ev scratch'.messageBuf with
      | none => exact hbuffer
      | some buffer =>
        simp only
        split
        · refine ollama_onDone_agree now ev ?_ _
          rw [hnext, hnext, hlast]
        · have hkept : ∀ (changed : Bool) (state next : AgentState),
              next.lastMessage = state.lastMessage →
              ((if changed then some next else none).getD state).lastMessage =
                state.lastMessage := by
            intro changed state next hsame
            cases changed with
            | true => exact hsame
            | false => rfl
          refine ⟨rfl, ?_, rfl⟩
          rw [hkept _ _ _ (hnext state), hkept _ _ _ (hnext state'), hlast]

theorem claudeParser_confined : claudeParser.Confined ClaudeScratch.captured := by
  intro now chunk state state' scratch scratch' hlast hcaptured
  obtain ⟨hmessages, hstate, hnext⟩ := ClaudeParser.feed_told now chunk state scratch
  obtain ⟨hmessages', hstate', hnext'⟩ := ClaudeParser.feed_told now chunk state' scratch'
  rw [hlast, hcaptured] at hmessages hstate hnext
  change DriverParser.Agree _ _ _ (.ok (ClaudeParser.feed now chunk state scratch))
    (.ok (ClaudeParser.feed now chunk state' scratch'))
  -- only what was told matters, so the answers can stay closed
  generalize ClaudeParser.feed now chunk state scratch = answer at hmessages hstate hnext ⊢
  generalize ClaudeParser.feed now chunk state' scratch' = answer' at hmessages' hstate' hnext' ⊢
  refine ⟨?_, ?_, ?_⟩
  · exact hmessages.trans hmessages'.symm
  · exact hstate.trans hstate'.symm
  · exact hnext.trans hnext'.symm

/-! ## Isolation -/

/-- Every agent's transcript is what a parser of its own would have made of its own chunks. -/
def OwnTranscripts (state : SideBySide Index (AgentCore Scratch) Scratch) : Prop :=
  ∀ agent, (state.clients agent).transcript = (state.alone agent).1.transcript

variable [DecidableEq Index]

theorem ownTranscripts_of_exclusive {parser : DriverParser Scratch} {view : Scratch → View}
    (h : parser.Confined view) (cores : Index → AgentCore Scratch)
    {schedule : List (Index × ParserCall)}
    (hmeet : StepsMeet (call parser.serve)
      (Exclusive parser.serve outward view (view parser.scratch)) (start cores parser.scratch)
      schedule) :
    Throughout (call parser.serve) OwnTranscripts (start cores parser.scratch) schedule := by
  have hisolated := isolated_of_exclusive h.respects cores parser.scratch hmeet
  exact hisolated.mono fun _ hstate agent ↦ congrArg Prod.fst (hstate agent)

/-- Agents of one driver: as long as a chunk that concerns messages is fed only while no other
agent of the driver has an unfinished one, every transcript is the agent's own. -/
theorem own_transcripts_of_exclusive (Index : Type) [DecidableEq Index] :
    (∀ (cores : Index → AgentCore GeminiScratch) (schedule : List (Index × ParserCall)),
      StepsMeet (call geminiParser.serve)
        (Exclusive geminiParser.serve outward GeminiScratch.messageBuf [])
        (start cores geminiParser.scratch) schedule →
      Throughout (call geminiParser.serve) OwnTranscripts (start cores geminiParser.scratch)
        schedule) ∧
    (∀ (cores : Index → AgentCore OllamaScratch) (schedule : List (Index × ParserCall)),
      StepsMeet (call ollamaParser.serve)
        (Exclusive ollamaParser.serve outward OllamaScratch.messageBuf [])
        (start cores ollamaParser.scratch) schedule →
      Throughout (call ollamaParser.serve) OwnTranscripts (start cores ollamaParser.scratch)
        schedule) ∧
    ∀ (cores : Index → AgentCore ClaudeScratch) (schedule : List (Index × ParserCall)),
      StepsMeet (call claudeParser.serve)
        (Exclusive claudeParser.serve outward ClaudeScratch.captured none)
        (start cores claudeParser.scratch) schedule →
      Throughout (call claudeParser.serve) OwnTranscripts (start cores claudeParser.scratch)
        schedule :=
  ⟨fun cores _ hmeet ↦ ownTranscripts_of_exclusive geminiParser_confined cores hmeet,
    fun cores _ hmeet ↦ ownTranscripts_of_exclusive ollamaParser_confined cores hmeet,
    fun cores _ hmeet ↦ ownTranscripts_of_exclusive claudeParser_confined cores hmeet⟩

/-- A new Gemini agent. -/
def geminiCore (id : String) : AgentCore GeminiScratch :=
  ⟨js id, GeminiParser.initialState, [], false, none, .empty, []⟩

/-- A delta of the assistant. -/
def geminiDelta (content : String) : ParserCall :=
  .feed 0 (js "\x7b\"type\":\"message\",\"role\":\"assistant\",\"content\":\"" ++ js content ++
    js "\"\x7d")

/-- Two agents whose messages follow each other. -/
theorem own_transcripts_one_after_the_other :
    Throughout (call geminiParser.serve) OwnTranscripts
      (start (fun first : Bool ↦ geminiCore (if first then "a" else "b")) geminiParser.scratch)
      [(true, geminiDelta "one"), (true, .feed 0 []), (false, geminiDelta "two"),
        (false, .feed 0 [])] := by
  apply (own_transcripts_of_exclusive Bool).1 _ _
  apply along_of_step rfl (.inr (by decide +kernel))
  apply along_of_step rfl (.inr (by decide +kernel))
  apply along_of_step rfl (.inr (by decide +kernel))
  exact along_of_step rfl (.inr (by decide +kernel)) trivial

/-- The second agent's delta arrives while the first agent's message is unfinished: the first
agent's flush publishes both. -/
theorem interleaved_deltas_mix : ¬ Throughout (call geminiParser.serve) OwnTranscripts
    (start (fun first : Bool ↦ geminiCore (if first then "a" else "b")) geminiParser.scratch)
    [(true, geminiDelta "one"), (false, geminiDelta "two"), (true, .feed 0 [])] := by
  intro h
  have hmixed : (run (call geminiParser.serve)
      (start (fun first : Bool ↦ geminiCore (if first then "a" else "b")) geminiParser.scratch)
      [(true, geminiDelta "one"), (false, geminiDelta "two"), (true, .feed 0 [])]).any
        (fun final ↦
          (final.clients true).transcript.map AssistantMessage.text == [js "onetwo"] &&
          (final.alone true).1.transcript.map AssistantMessage.text == [js "one"]) = true := by
    decide +kernel
  obtain ⟨final, hrun, htexts⟩ := (Option.any_eq_true _ _).mp hmixed
  rw [Bool.and_eq_true, beq_iff_eq, beq_iff_eq, (h.last hrun) true] at htexts
  have hsame := htexts.1.symm.trans htexts.2
  revert hsame
  decide

end Cordyceps.Drivers
