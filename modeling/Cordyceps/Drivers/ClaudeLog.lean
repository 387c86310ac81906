import Cordyceps.Drivers.ClaudeMessages
import Cordyceps.Drivers.Sessions
import Cordyceps.Foundations.Trimming
import Mathlib.Data.List.Chain

/-!
# The log of a Claude session

Whatever a terminal shows, the messages that the Claude parser emits form a log without
repetitions: every feed adds at most one message, which is visible, trimmed and not the one
published last, and the state always names the last one.
-/

namespace Cordyceps.Drivers

open Foundations Foundations.StepMachine Agents Cordyceps.Core

namespace ClaudeMessages

variable (now : Timestamp) (lastMessage captured : Option JsString)

/-- A chunk publishes nothing, or the captured text if it is visible and new. -/
def Publishes (told : Told) : Prop :=
  told.messages = [] ∧ told.lastMessage = lastMessage ∨
    ∃ text, captured = some text ∧ JsString.trim text ≠ [] ∧
      some (JsString.trim text) ≠ lastMessage ∧ told.messages = [⟨JsString.trim text, now, none⟩] ∧
      told.lastMessage = some (JsString.trim text)

variable {lastMessage captured}

theorem publishes_publish (text : JsString) (captured' : Option JsString)
    (h : captured = some text) :
    Publishes now lastMessage captured (publish now text lastMessage captured') := by
  unfold publish
  split
  · rename_i hfresh
    exact Or.inr ⟨text, h, hfresh.1, hfresh.2, rfl, rfl⟩
  · exact Or.inl ⟨rfl, rfl⟩

variable (lastMessage captured)

/-- What one chunk adds to the log. -/
theorem publishes_tell (chunk : JsString) :
    Publishes now lastMessage captured (tell now chunk lastMessage captured) := by
  unfold tell
  simp only
  split
  · unfold flush
    split
    · exact Or.inl ⟨rfl, rfl⟩
    · split
      · exact Or.inl ⟨rfl, rfl⟩
      · exact publishes_publish now _ none rfl
  · split
    · unfold draw
      split
      · exact Or.inl ⟨rfl, rfl⟩
      · split
        · exact Or.inl ⟨rfl, rfl⟩
        · split
          · exact Or.inl ⟨rfl, rfl⟩
          · exact publishes_publish now _ _ rfl
    · unfold pass
      split
      · exact Or.inl ⟨rfl, rfl⟩
      · split
        · exact publishes_publish now _ none rfl
        · exact Or.inl ⟨rfl, rfl⟩

end ClaudeMessages

/-! ## Sessions -/

/-- What the message machine makes of the next chunk of a session. -/
def Session.told (session : Session ClaudeScratch) (feed : Timestamp × JsString) :
    ClaudeMessages.Told :=
  ClaudeMessages.tell feed.1 feed.2 session.state.lastMessage session.scratch.captured

/-- One feed of the Claude parser, which never throws. -/
def listen (session : Session ClaudeScratch) (feed : Timestamp × JsString) :
    Session ClaudeScratch :=
  session.answered (ClaudeParser.feed feed.1 feed.2 session.state session.scratch)

/-- A new Claude parser after the feeds. -/
def listened (feeds : List (Timestamp × JsString)) : Session ClaudeScratch :=
  feeds.foldl listen claudeParser.fresh

section

variable {session next : Session ClaudeScratch} {feed : Timestamp × JsString}

theorem claudeParser_hear (session : Session ClaudeScratch) (feed : Timestamp × JsString) :
    claudeParser.hear session feed = some (listen session feed) := rfl

theorem run_foldl_listen (session : Session ClaudeScratch) (feeds : List (Timestamp × JsString)) :
    run claudeParser.hear session feeds = some (feeds.foldl listen session) := by
  induction feeds generalizing session with
  | nil => rfl
  | cons feed rest ih => rw [run_cons, claudeParser_hear, Option.bind_some, List.foldl_cons, ih]

/-- What one feed keeps, all feeds keep. -/
theorem listen_invariant {invariant : Session ClaudeScratch → Prop}
    (hkeep : ∀ session feed, invariant session → invariant (listen session feed))
    {session : Session ClaudeScratch} (h : invariant session) (feeds : List (Timestamp × JsString)) :
    invariant (feeds.foldl listen session) := by
  induction feeds generalizing session with
  | nil => exact h
  | cons feed rest ih => exact ih (hkeep session feed h)

theorem run_listened (feeds : List (Timestamp × JsString)) :
    run claudeParser.hear claudeParser.fresh feeds = some (listened feeds) := run_foldl_listen _ feeds

/-- A session simulates the message machine. -/
theorem told_listen (session : Session ClaudeScratch) (feed : Timestamp × JsString) :
    (listen session feed).messages = session.messages ++ (session.told feed).messages ∧
      (listen session feed).state.lastMessage = (session.told feed).lastMessage ∧
      (listen session feed).scratch.captured = (session.told feed).captured := by
  obtain ⟨hmessages, hlast, hcaptured⟩ :=
    ClaudeParser.feed_told feed.1 feed.2 session.state session.scratch
  exact ⟨congrArg _ hmessages, hlast, hcaptured⟩

theorem told_hear (h : claudeParser.hear session feed = some next) :
    next.messages = session.messages ++ (session.told feed).messages ∧
      next.state.lastMessage = (session.told feed).lastMessage ∧
      next.scratch.captured = (session.told feed).captured := by
  rw [claudeParser_hear, Option.some.injEq] at h
  exact h ▸ told_listen session feed

/-- The empty chunk. -/
theorem told_nil (session : Session ClaudeScratch) (now : Timestamp) :
    session.told (now, []) =
      ClaudeMessages.flush now session.state.lastMessage session.scratch.captured := rfl

theorem texts_listen (session : Session ClaudeScratch) (feed : Timestamp × JsString) :
    (listen session feed).texts =
      session.texts ++ (session.told feed).messages.map AssistantMessage.text := by
  rw [Session.texts, (told_listen session feed).1, List.map_append]
  rfl

/-- What holds of the messages so far and of the captured text once trimmed holds of the messages
after the next feed. -/
theorem forall_texts_listen {P : JsString → Prop} {session : Session ClaudeScratch}
    (feed : Timestamp × JsString) (hold : ∀ text ∈ session.texts, P text)
    (hcaptured : ∀ text ∈ session.scratch.captured, P (JsString.trim text)) :
    ∀ text ∈ (listen session feed).texts, P text := by
  rw [texts_listen, List.forall_mem_append]
  refine ⟨hold, ?_⟩
  rcases ClaudeMessages.publishes_tell feed.1 session.state.lastMessage session.scratch.captured
    feed.2 with ⟨hnone, -⟩ | ⟨text, htext, -, -, hone, -⟩
  · simp [Session.told, hnone]
  · rw [Session.told, hone, List.map_singleton, List.forall_mem_singleton]
    exact hcaptured text htext

end

/-! ## The log -/

/-- A log without repetitions, which the state follows. -/
structure Logged (session : Session ClaudeScratch) : Prop where
  visible : ∀ text ∈ session.texts, text ≠ []
  trimmed : ∀ text ∈ session.texts, JsString.trim text = text
  fresh : session.texts.IsChain (· ≠ ·)
  last : session.state.lastMessage = session.texts.getLast?

namespace Logged

variable {session next : Session ClaudeScratch}

theorem quiet (h : Logged session) (hmessages : next.messages = session.messages)
    (hlast : next.state.lastMessage = session.state.lastMessage) : Logged next := by
  have htexts : next.texts = session.texts := congrArg (List.map AssistantMessage.text) hmessages
  exact ⟨htexts ▸ h.visible, htexts ▸ h.trimmed, htexts ▸ h.fresh, by rw [hlast, h.last, htexts]⟩

/-- A new message. -/
theorem add (h : Logged session) {message : AssistantMessage} (hvisible : message.text ≠ [])
    (htrimmed : JsString.trim message.text = message.text)
    (hfresh : some message.text ≠ session.state.lastMessage)
    (hmessages : next.messages = session.messages ++ [message])
    (hlast : next.state.lastMessage = some message.text) : Logged next := by
  have htexts : next.texts = session.texts ++ [message.text] := by
    rw [Session.texts, hmessages, List.map_append]
    rfl
  constructor
  · rw [htexts]
    exact List.forall_mem_append.mpr ⟨h.visible, by simpa using hvisible⟩
  · rw [htexts]
    exact List.forall_mem_append.mpr ⟨h.trimmed, by simpa using htrimmed⟩
  · rw [htexts, List.isChain_append]
    refine ⟨h.fresh, List.isChain_singleton _, ?_⟩
    rintro previous hprevious text htext rfl
    rw [List.head?_singleton, Option.mem_some_iff] at htext
    rw [h.last, htext, Option.mem_def.mp hprevious] at hfresh
    exact hfresh rfl
  · rw [hlast, htexts, List.getLast?_concat]

theorem hear {feed : Timestamp × JsString} (h : Logged session)
    (hnext : claudeParser.hear session feed = some next) : Logged next := by
  obtain ⟨hmessages, hlast, -⟩ := told_hear hnext
  rcases ClaudeMessages.publishes_tell feed.1 session.state.lastMessage session.scratch.captured
    feed.2 with ⟨hnone, hsame⟩ | ⟨text, -, hvisible, hfresh, hone, hnew⟩
  · refine h.quiet ?_ (hlast.trans hsame)
    rw [hmessages, Session.told, hnone, List.append_nil]
  · exact h.add hvisible (JsString.trim_trim text) hfresh (hmessages.trans (congrArg _ hone))
      (hlast.trans hnew)

theorem start : Logged claudeParser.fresh :=
  ⟨by simp [Session.texts, DriverParser.fresh], by simp [Session.texts, DriverParser.fresh],
    List.isChain_nil, rfl⟩

theorem foldl_listen (h : Logged session) (feeds : List (Timestamp × JsString)) :
    Logged (feeds.foldl listen session) := by
  apply listen_invariant _ h
  intro session feed hlogged
  exact hlogged.hear (claudeParser_hear session feed)

end Logged

/-- **The message log.** No feed throws, each adds at most one message, and the log stays free of
blanks and repetitions, with its last message in the state. -/
theorem claude_messages_logged (feeds : List (Timestamp × JsString)) :
    (run claudeParser.hear claudeParser.fresh feeds).isSome ∧
      Throughout claudeParser.hear Logged claudeParser.fresh feeds ∧
      Along claudeParser.hear (fun session _ next ↦
          ∃ added, next.messages = session.messages ++ added ∧ added.length ≤ 1)
        claudeParser.fresh feeds := by
  refine ⟨by rw [run_listened]; rfl, ?_, ?_⟩
  · have hkeep : ∀ session feed next, Logged session → True →
        claudeParser.hear session feed = some next → Logged next :=
      fun _ _ _ hlogged _ hnext ↦ hlogged.hear hnext
    exact throughout_of_invariant hkeep Logged.start (stepsMeet_true _ feeds)
  · have hadds : ∀ session feed next, True → True → claudeParser.hear session feed = some next →
        True ∧ ∃ added, next.messages = session.messages ++ added ∧ added.length ≤ 1 := by
      intro session feed next _ _ hnext
      refine ⟨trivial, _, (told_hear hnext).1, ?_⟩
      rcases ClaudeMessages.publishes_tell feed.1 session.state.lastMessage session.scratch.captured
        feed.2 with ⟨hnone, -⟩ | ⟨text, -, -, -, hone, -⟩
      · rw [Session.told, hnone]
        exact Nat.zero_le 1
      · rw [Session.told, hone]
        exact le_rfl
    exact along_of_invariant hadds trivial (stepsMeet_true _ feeds)

end Cordyceps.Drivers
