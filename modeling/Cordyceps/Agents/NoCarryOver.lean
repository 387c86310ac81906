import Cordyceps.Agents.ServerHttpController
import Cordyceps.Drivers.Replies

/-!
# No carry-over between Ollama submits

One Ollama agent, its submits run one after the other, each response a stream of
NDJSON generate events. A message returned by a submit should be the text of its
own stream. Partial text lives in the parser and is only taken out by an event
with `done: true`, so a stream that ends without one leaves its text to the next.
-/

namespace Cordyceps.Agents

open Foundations Foundations.LineFraming Foundations.StepMachine Drivers

/-! ## Generate events -/

namespace Generate

/-- A generate event: an object whose `response`, if any, is a string and whose `done`, if any, is
a boolean. -/
def isEvent : Json → Bool
  | .obj members =>
    (match Json.lookup (js "response") members with
      | none | some (.str _) => true
      | some _ => false) &&
    match Json.lookup (js "done") members with
      | none | some (.bool _) => true
      | some _ => false
  | _ => false

/-- Generate events, of which only the last may be final. -/
def wellFormed : List Json → Bool
  | [] => true
  | ev :: rest => isEvent ev && (!OllamaParser.done ev || rest.isEmpty) && wellFormed rest

/-- The events of a list of lines. -/
def eventsOf (lines : List JsString) : List Json := lines.filterMap readEvent

def responseText (ev : Json) : JsString := (stringOf (ev.field (js "response"))).getD []

/-- The concatenation of the `response` fields. -/
def responses (events : List Json) : JsString := (events.map responseText).flatten

/-- What well-formed events make of a buffer: the texts emitted, and the buffer afterwards. -/
def tell (buffer : JsString) (events : List Json) : List JsString × JsString :=
  if events.any OllamaParser.done then
    (if (buffer ++ responses events).isEmpty then [] else [buffer ++ responses events], [])
  else ([], buffer ++ responses events)

@[simp]
theorem tell_nil (buffer : JsString) : tell buffer [] = ([], buffer) := by
  simp [tell, responses]

theorem responses_append (first second : List Json) :
    responses (first ++ second) = responses first ++ responses second := by
  rw [responses, List.map_append, List.flatten_append]
  rfl

/-- Whatever is emitted is all that was there. -/
theorem eq_of_mem_tell {buffer text : JsString} {events : List Json}
    (h : text ∈ (tell buffer events).1) : text = buffer ++ responses events := by
  unfold tell at h
  split at h
  · split at h
    · cases h
    · exact List.mem_singleton.mp h
  · cases h

/-- After the final event nothing comes. -/
theorem eq_nil_of_done {first second : List Json} (h : wellFormed (first ++ second) = true)
    (hdone : first.any OllamaParser.done = true) : second = [] := by
  induction first with
  | nil => cases hdone
  | cons ev rest ih =>
    simp only [List.cons_append, wellFormed, Bool.and_eq_true, Bool.or_eq_true,
      Bool.not_eq_true', List.isEmpty_iff, List.append_eq_nil_iff] at h
    obtain ⟨⟨_, hlast⟩, hrest⟩ := h
    rw [List.any_cons, Bool.or_eq_true] at hdone
    rcases hdone with hfirst | hlater
    · rw [hfirst] at hlast
      exact (hlast.resolve_left (by simp)).2
    · exact ih hrest hlater

/-- Telling goes on where it stopped. -/
theorem tell_append {first second : List Json} (h : wellFormed (first ++ second) = true)
    (buffer : JsString) : tell buffer (first ++ second) =
      ((tell buffer first).1 ++ (tell (tell buffer first).2 second).1,
        (tell (tell buffer first).2 second).2) := by
  cases hdone : first.any OllamaParser.done with
  | true =>
    rw [eq_nil_of_done h hdone]
    simp
  | false =>
    have hfirst : tell buffer first = ([], buffer ++ responses first) := by
      rw [tell, if_neg (by simp [hdone])]
    rw [hfirst, tell, tell, List.any_append, hdone, Bool.false_or, responses_append,
      List.append_assoc]
    split <;> rfl

theorem wellFormed_right {first second : List Json} (h : wellFormed (first ++ second) = true) :
    wellFormed second = true := by
  induction first with
  | nil => exact h
  | cons ev rest ih =>
    simp only [List.cons_append, wellFormed, Bool.and_eq_true] at h
    exact ih h.2

/-- The fields of a generate event. -/
theorem fields_of_isEvent {ev : Json} (h : isEvent ev = true) : ev ≠ .null ∧
    (ev.field (js "response") = none ∨ ∃ text, ev.field (js "response") = some (.str text)) ∧
    (ev.field (js "done") = none ∨ ∃ value, ev.field (js "done") = some (.bool value)) := by
  cases ev with
  | obj members =>
    simp only [isEvent, Bool.and_eq_true] at h
    refine ⟨nofun, ?_, ?_⟩
    · cases hresponse : Json.lookup (js "response") members with
      | none => exact .inl hresponse
      | some value => cases value <;> simp_all [Json.field]
    · cases hdone : Json.lookup (js "done") members with
      | none => exact .inl hdone
      | some value => cases value <;> simp_all [Json.field]
  | _ => cases h

/-- The response of a generate event is appended; an empty one changes nothing. -/
theorem appendResponse_event {ev : Json} (h : isEvent ev = true) (buffer : JsString) :
    OllamaParser.appendResponse ev buffer = some (buffer ++ responseText ev) := by
  obtain ⟨_, hresponse, _⟩ := fields_of_isEvent h
  unfold OllamaParser.appendResponse responseText
  rcases hresponse with hnone | ⟨text, hsome⟩
  · simp [hnone, Json.ifTruthy, stringOf]
  · rw [hsome]
    cases text with
    | nil => simp [Json.ifTruthy, Json.truthy, stringOf]
    | cons unit rest => simp [Json.ifTruthy, Json.truthy, stringOf, Json.appendTo, Json.hasText]

/-- A generate event that is not final and not streaming has no response. -/
theorem streaming_or_empty {ev : Json} (h : isEvent ev = true) (hdone : OllamaParser.done ev = false) :
    OllamaParser.streaming ev = true ∨ responseText ev = [] := by
  obtain ⟨_, hresponse, hfinal⟩ := fields_of_isEvent h
  unfold OllamaParser.streaming responseText
  rcases hfinal with hnone | ⟨value, hsome⟩
  · rcases hresponse with hempty | ⟨text, htext⟩
    · simp [hempty, stringOf]
    · simp [hnone, htext, stringOf, Json.ifTruthy]
  · cases value with
    | false => simp [hsome]
    | true => simp [OllamaParser.done, hsome] at hdone

/-- A generate event appends its response, and the final one emits the buffer, or throws at its
counts. -/
theorem reply_event {line : JsString} {ev : Json} (hread : readEvent line = some ev)
    (h : isEvent ev = true) (scratch : OllamaScratch) :
    (∃ thrown, ollamaParser.reply line scratch = .error thrown) ∨ ∃ messages,
      ollamaParser.reply line scratch =
        .ok (messages, ⟨(tell scratch.messageBuf [ev]).2⟩) ∧
      messages.map AssistantMessage.text = (tell scratch.messageBuf [ev]).1 := by
  have hresponses : responses [ev] = responseText ev := by simp [responses]
  have happend := appendResponse_event h
  rw [DriverParser.reply, ollama_messages hread (fields_of_isEvent h).1]
  unfold tell
  rw [hresponses]
  cases hdone : OllamaParser.done ev with
  | true =>
    simp only [OllamaParser.bufferToken_of_done hdone, hdone, if_true, ollama_onDone, happend,
      List.any_cons, Bool.true_or]
    cases OllamaParser.tokenCount ev with
    | none => exact .inl ⟨_, rfl⟩
    | some tokens =>
      refine .inr ⟨_, rfl, ?_⟩
      split <;> rfl
  | false =>
    right
    rcases streaming_or_empty h hdone with hstreaming | hempty
    · simp [OllamaParser.bufferToken, hdone, hstreaming, happend]
    · have hbuffer : OllamaParser.bufferToken ev scratch.messageBuf = some scratch.messageBuf := by
        unfold OllamaParser.bufferToken
        split
        · rw [happend, hempty, List.append_nil]
        · rfl
      simp [hbuffer, hdone, hempty]

/-- What the lines of a stream make the parser emit and remember, if it does not throw. -/
theorem replies_lines {lines : List JsString} (h : wellFormed (eventsOf lines) = true)
    {scratch : OllamaScratch} (hthrew : (ollamaParser.replies lines scratch).threw = false) :
    (ollamaParser.replies lines scratch).scratch =
        ⟨(tell scratch.messageBuf (eventsOf lines)).2⟩ ∧
      (ollamaParser.replies lines scratch).messages.map AssistantMessage.text =
        (tell scratch.messageBuf (eventsOf lines)).1 := by
  induction lines generalizing scratch with
  | nil => simp [DriverParser.replies, eventsOf]
  | cons line rest ih =>
    cases hread : readEvent line with
    | none =>
      have hsame : eventsOf (line :: rest) = eventsOf rest := by simp [eventsOf, hread]
      have hreply : ollamaParser.reply line scratch = .ok ([], scratch) := by
        simp [DriverParser.reply, ollamaParser, OllamaParser.feed, hread, Except.map, view,
          ParseResult.unchanged]
      rw [DriverParser.replies_cons_ok hreply] at hthrew ⊢
      rw [hsame]
      exact ih (hsame ▸ h) hthrew
    | some ev =>
      have hcons : eventsOf (line :: rest) = [ev] ++ eventsOf rest := by
        simp [eventsOf, hread]
      rw [hcons] at h
      have hevent : isEvent ev = true := by
        simp only [List.singleton_append, wellFormed, Bool.and_eq_true] at h
        exact h.1.1
      rcases reply_event hread hevent scratch with ⟨thrown, hthrown⟩ | ⟨first, hreply, hfirst⟩
      · simp [DriverParser.replies, hthrown] at hthrew
      · rw [DriverParser.replies_cons_ok hreply] at hthrew ⊢
        obtain ⟨hscratch, htexts⟩ := ih (wellFormed_right h) hthrew
        rw [hcons, tell_append h, List.map_append, hfirst, htexts]
        exact ⟨hscratch, rfl⟩

theorem eventsOf_append (first second : List JsString) :
    eventsOf (first ++ second) = eventsOf first ++ eventsOf second :=
  List.filterMap_append

/-- The empty flush carries no event. -/
theorem eventsOf_flush (lines : List JsString) : eventsOf (lines ++ [[]]) = eventsOf lines := by
  rw [eventsOf_append]
  exact List.append_nil _

end Generate

/-! ## The session -/

namespace HttpSubmit

/-- The call of `submit` has returned or rejected. -/
def settled (submit : HttpSubmit) : Bool :=
  match submit.phase with
  | .returned _ | .rejected _ => true
  | _ => false

/-- The text of the submit's own stream. -/
def ownText (submit : HttpSubmit) : JsString :=
  Generate.responses (Generate.eventsOf (pieces newline submit.stream))

end HttpSubmit

/-- An Ollama agent. `leftover` observes what the parser's buffer held when the last POST was
issued; no step depends on it. -/
structure OllamaSession where
  agent : HttpAgent OllamaScratch
  leftover : JsString

namespace OllamaSession

def create (id cwd : JsString) (spec : ServerHttpSpec) : OllamaSession :=
  ⟨.create ollamaParser id (js "ollama") cwd spec, []⟩

/-- Submits follow each other, and what the backend sends are NDJSON generate events. -/
def orderly (agent : HttpAgent OllamaScratch) : HttpEvent → Bool
  | .submit _ _ => agent.submits.all HttpSubmit.settled
  | .response _ _ ok contentType hasBody => !ok || !hasBody ||
      JsString.includes contentType (js "x-ndjson") || JsString.includes contentType (js "stream")
  | .chunk k _ text => agent.submits[k]?.all fun submit ↦
      Generate.wellFormed (Generate.eventsOf (lines newline (submit.stream ++ text)))
  | .streamEnd k _ => agent.submits[k]?.all fun submit ↦
      Generate.wellFormed (Generate.eventsOf (pieces newline submit.stream))
  | _ => true

/-- One turn of an orderly run. -/
def step (session : OllamaSession) (event : HttpEvent) : Option OllamaSession :=
  if orderly session.agent event then
    (session.agent.step ollamaParser event).map fun agent ↦
      ⟨agent, match event with
        | .controlDone _ => session.agent.core.scratch.messageBuf
        | _ => session.leftover⟩
  else none

/-- Every returned message is the text of its own stream. -/
def OwnText (session : OllamaSession) : Prop :=
  Each (fun _ submit ↦ ∀ message, submit.phase = .returned (some message) →
    message.text = submit.ownText) session.agent.submits

/-- A submit that returns a message was issued with an empty buffer. -/
def StartsEmpty (session : OllamaSession) : HttpEvent → Prop
  | .settle k => ∀ submit, session.agent.submits[k]? = some submit →
      submit.phase = .answered none → submit.expectMessage = true → submit.messages ≠ [] →
      session.leftover = []
  | _ => True

/-! ## The invariant -/

/-- What the messages of a submit, and the buffer, are in terms of its own stream and of what the
buffer held before it. -/
def Told (scratch : OllamaScratch) (leftover : JsString) (submit : HttpSubmit) : Prop :=
  match submit.phase with
  | .suspended | .preparing => submit.messages = [] ∧ submit.stream = []
  | .requesting .fetching =>
    submit.messages = [] ∧ submit.stream = [] ∧ scratch.messageBuf = leftover
  | .requesting (.streaming ndjson buffer) =>
    ndjson = true ∧ buffer = rest newline submit.stream ∧
      (submit.messages.map AssistantMessage.text, scratch.messageBuf) =
        Generate.tell leftover (Generate.eventsOf (lines newline submit.stream))
  | .answered none => submit.messages.map AssistantMessage.text =
      (Generate.tell leftover (Generate.eventsOf (pieces newline submit.stream))).1
  | .answered (some _) => True
  | .returned message => ∀ m, message = some m → m.text = submit.ownText
  | .rejected _ => True

/-- At most one submit is under way, and all of them are told apart by their streams. -/
structure Coherent (session : OllamaSession) : Prop where
  unique : OneOpen HttpSubmit.settled session.agent.submits
  told : Each (fun _ submit ↦ Told session.agent.core.scratch session.leftover submit)
    session.agent.submits

/-- All other submits are settled. -/
def Alone (agent : HttpAgent OllamaScratch) (k : ℕ) : Prop :=
  ∀ (position : ℕ) other, position ≠ k → agent.submits[position]? = some other →
    other.settled = true

theorem Told.of_settled {submit : HttpSubmit} (hsettled : submit.settled = true)
    {scratch : OllamaScratch} {leftover : JsString} (h : Told scratch leftover submit)
    (scratch' : OllamaScratch) (leftover' : JsString) : Told scratch' leftover' submit := by
  unfold Told HttpSubmit.settled at *
  cases hphase : submit.phase with
  | returned message => simpa [hphase] using h
  | rejected reason => trivial
  | _ => simp [hphase] at hsettled

theorem settled_of_phase {submit : HttpSubmit} {phase : HttpPhase} (hphase : submit.phase = phase)
    (hreturned : ∀ message, phase ≠ .returned message) (hrejected : ∀ reason, phase ≠ .rejected reason) :
    submit.settled = false := by
  unfold HttpSubmit.settled
  rw [hphase]
  cases phase with
  | returned message => exact absurd rfl (hreturned message)
  | rejected reason => exact absurd rfl (hrejected reason)
  | _ => rfl

namespace Coherent

variable {session next : OllamaSession}

theorem ownText (h : session.Coherent) : session.OwnText := by
  intro k submit hget message hphase
  have htold : Told _ _ submit := h.told k submit hget
  unfold Told at htold
  rw [hphase] at htold
  exact htold message rfl

/-- A turn of the submit that is under way: the others are settled and do not change. -/
theorem at_open (h : session.Coherent) {k : ℕ} {submit after : HttpSubmit}
    (hget : session.agent.submits[k]? = some submit) (hopen : submit.settled = false)
    (hsubmits : next.agent.submits = session.agent.submits.set k after)
    (htold : Told next.agent.core.scratch next.leftover after) : next.Coherent := by
  refine ⟨?_, ?_⟩
  · rw [hsubmits]
    exact h.unique.set hget hopen after
  · rw [hsubmits]
    refine h.told.set (fun position other hne hother hold ↦ ?_) htold
    exact hold.of_settled (h.unique.others hget hopen position other hne hother) _ _

/-- A change that the invariant does not look at. -/
theorem of_same (h : session.Coherent) {k : ℕ} (change : HttpSubmit → HttpSubmit)
    (hphase : ∀ submit, (change submit).phase = submit.phase)
    (hmessages : ∀ submit, (change submit).messages = submit.messages)
    (hstream : ∀ submit, (change submit).stream = submit.stream)
    (hsubmits : next.agent.submits = session.agent.submits.modify k change)
    (hscratch : next.agent.core.scratch = session.agent.core.scratch)
    (hleftover : next.leftover = session.leftover) : next.Coherent := by
  have hsettled : ∀ submit, (change submit).settled = submit.settled := by
    intro submit
    rw [HttpSubmit.settled, HttpSubmit.settled, hphase]
  have htold : ∀ submit, Told session.agent.core.scratch session.leftover submit →
      Told next.agent.core.scratch next.leftover (change submit) := by
    intro submit hsubmit
    unfold Told HttpSubmit.ownText at *
    rw [hphase, hmessages, hstream, hscratch, hleftover]
    exact hsubmit
  refine ⟨?_, ?_⟩
  · rw [hsubmits]
    exact h.unique.modify hsettled k
  · rw [hsubmits]
    refine h.told.modify (fun _ submit _ hsubmit ↦ ?_) fun submit _ hsubmit ↦ htold submit hsubmit
    rw [hscratch, hleftover]
    exact hsubmit

/-- A new submit, when all others are settled. -/
theorem push (h : session.Coherent) (hall : ∀ submit ∈ session.agent.submits, submit.settled = true)
    {submit : HttpSubmit} (hsubmits : next.agent.submits = session.agent.submits ++ [submit])
    (hscratch : next.agent.core.scratch = session.agent.core.scratch)
    (hleftover : next.leftover = session.leftover)
    (htold : Told session.agent.core.scratch session.leftover submit) : next.Coherent := by
  refine ⟨?_, ?_⟩
  · rw [hsubmits]
    exact OneOpen.concat hall submit
  · rw [hsubmits, hscratch, hleftover]
    exact h.told.concat htold

end Coherent

/-! ## What a feed does -/

/-- Of well-formed lines the listener gets the texts that are told, and the buffer is what is left,
unless the parser throws. -/
theorem feed_told {lines : List JsString}
    (hlines : Generate.wellFormed (Generate.eventsOf lines) = true) (now : Timestamp)
    (agent : HttpAgent OllamaScratch) : ∃ core messages threw,
      agent.feed ollamaParser now lines =
        ({ agent with
            core := core
            submits := agent.submits.map (HttpSubmit.deliver messages) }, threw) ∧
      (threw = false → (messages.map AssistantMessage.text, core.scratch.messageBuf) =
        Generate.tell agent.core.scratch.messageBuf (Generate.eventsOf lines)) := by
  obtain ⟨⟨messages, htranscript, hmessages⟩, hscratch, hthrew⟩ :=
    DriverParser.feedAll_replies ollamaParser_uniform now lines agent.core
  refine ⟨(agent.core.feedAll ollamaParser now lines).1, messages,
    (agent.core.feedAll ollamaParser now lines).2, ?_, fun hquiet ↦ ?_⟩
  · unfold HttpAgent.feed
    simp only [htranscript, List.drop_left']
  · obtain ⟨hleft, htexts⟩ := Generate.replies_lines hlines (hthrew.symm.trans hquiet)
    rw [← map_text_undated, hmessages, htexts, hscratch, hleft]

theorem deliver_of_settled {submit : HttpSubmit} (hsettled : submit.settled = true)
    (messages : List AssistantMessage) : submit.deliver messages = submit := by
  have hsilent : submit.listening = false := by
    unfold HttpSubmit.settled at hsettled
    unfold HttpSubmit.listening
    split at hsettled <;> simp_all
  rw [HttpSubmit.deliver, if_neg (by simp [hsilent])]

theorem deliver_of_listening {submit : HttpSubmit} (hlistening : submit.listening = true)
    (messages : List AssistantMessage) :
    submit.deliver messages = { submit with messages := submit.messages ++ messages } := by
  rw [HttpSubmit.deliver, if_pos hlistening]

/-- A feed that goes on telling the stream of the submit under way, unless the parser throws. -/
theorem feed_alone {agent : HttpAgent OllamaScratch} {k : ℕ} (halone : Alone agent k)
    {submit : HttpSubmit} (hget : agent.submits[k]? = some submit)
    (hlistening : submit.listening = true) {leftover : JsString} {told : List Json}
    {chunks : List JsString}
    (htold : (submit.messages.map AssistantMessage.text, agent.core.scratch.messageBuf) =
      Generate.tell leftover told)
    (hwell : Generate.wellFormed (told ++ Generate.eventsOf chunks) = true) (now : Timestamp) :
    ∃ core messages threw, agent.feed ollamaParser now chunks =
        ({ agent with
            core := core
            submits := agent.submits.set k { submit with messages := messages } }, threw) ∧
      (threw = false → (messages.map AssistantMessage.text, core.scratch.messageBuf) =
        Generate.tell leftover (told ++ Generate.eventsOf chunks)) := by
  obtain ⟨core, messages, threw, hfeed, htexts⟩ :=
    feed_told (Generate.wellFormed_right hwell) now agent
  refine ⟨core, submit.messages ++ messages, threw, ?_, fun hquiet ↦ ?_⟩
  · have hother : ∀ (position : ℕ) other, position ≠ k →
        agent.submits[position]? = some other → other.deliver messages = other :=
      fun position other hne hsome ↦ deliver_of_settled (halone position other hne hsome) messages
    rw [hfeed, map_eq_set hget hother, deliver_of_listening hlistening]
  · have hmessages : submit.messages.map AssistantMessage.text = (Generate.tell leftover told).1 :=
      congrArg Prod.fst htold
    have hbuffer : agent.core.scratch.messageBuf = (Generate.tell leftover told).2 :=
      congrArg Prod.snd htold
    have htexts := htexts hquiet
    rw [hbuffer] at htexts
    calc ((submit.messages ++ messages).map AssistantMessage.text, core.scratch.messageBuf)
        = ((Generate.tell leftover told).1 ++ messages.map AssistantMessage.text,
            core.scratch.messageBuf) := by rw [List.map_append, hmessages]
      _ = Generate.tell leftover (told ++ Generate.eventsOf chunks) := by
          rw [Generate.tell_append hwell, ← htexts]

namespace Coherent

variable {session : OllamaSession}

/-- The record behind a phase, and what is known of it. -/
theorem at_phase (h : session.Coherent) {k : ℕ} {phase : HttpPhase}
    (hphase : session.agent.phaseOf k = some phase) : ∃ submit,
      session.agent.submits[k]? = some submit ∧ submit.phase = phase ∧
        Told session.agent.core.scratch session.leftover submit := by
  obtain ⟨submit, hget, hsame⟩ := Option.map_eq_some_iff.mp hphase
  exact ⟨submit, hget, hsame, h.told k submit hget⟩

/-- A turn that changes the record of the submit under way. -/
theorem move (h : session.Coherent) {k : ℕ} {submit : HttpSubmit} {next : OllamaSession}
    (change : HttpSubmit → HttpSubmit) (hget : session.agent.submits[k]? = some submit)
    (hopen : submit.settled = false)
    (hsubmits : next.agent.submits = session.agent.submits.modify k change)
    (htold : Told next.agent.core.scratch next.leftover (change submit)) : next.Coherent :=
  h.at_open hget hopen (hsubmits.trans (modify_eq_set hget change)) htold

theorem submit (h : session.Coherent) (hall : ∀ submit ∈ session.agent.submits, submit.settled = true)
    (opts : SubmitOptions) (prompt : JsString) :
    Coherent ⟨session.agent.submit opts prompt, session.leftover⟩ := by
  have hpush : ∀ phase, (∀ stage, phase ≠ .requesting stage) → (∀ failure, phase ≠ .answered failure) →
      (∀ message, phase ≠ .returned message) →
      Coherent ⟨session.agent.push opts prompt phase, session.leftover⟩ := by
    intro phase hrequesting hanswered hreturned
    refine h.push hall rfl rfl rfl ?_
    cases phase with
    | suspended => exact ⟨rfl, rfl⟩
    | preparing => exact ⟨rfl, rfl⟩
    | requesting stage => exact absurd rfl (hrequesting stage)
    | answered failure => exact absurd rfl (hanswered failure)
    | returned message => exact absurd rfl (hreturned message)
    | rejected reason => trivial
  unfold HttpAgent.submit
  split
  · exact hpush _ nofun nofun nofun
  · split
    · split
      · have hsuspended := hpush .suspended nofun nofun nofun
        unfold HttpAgent.abortActive
        split
        · exact hsuspended.of_same HttpSubmit.abort (fun _ ↦ rfl) (fun _ ↦ rfl) (fun _ ↦ rfl) rfl rfl rfl
        · exact hsuspended
      · exact hpush _ nofun nofun nofun
    · exact (hpush .suspended nofun nofun nofun).move (HttpSubmit.withPhase .preparing)
        List.getElem?_concat_length rfl rfl ⟨rfl, rfl⟩

/-- The end of a response: what its last lines tell is what the whole stream tells. -/
theorem feedLast (h : session.Coherent) {k : ℕ} {submit : HttpSubmit}
    (hget : session.agent.submits[k]? = some submit) (hopen : submit.settled = false)
    (hlistening : submit.listening = true) {told : List Json} {chunks : List JsString}
    (htold : (submit.messages.map AssistantMessage.text, session.agent.core.scratch.messageBuf) =
      Generate.tell session.leftover told)
    (hpieces : Generate.eventsOf (pieces newline submit.stream) = told ++ Generate.eventsOf chunks)
    (hwell : Generate.wellFormed (told ++ Generate.eventsOf chunks) = true) (now : Timestamp) :
    Coherent ⟨session.agent.feedLast ollamaParser now k chunks, session.leftover⟩ := by
  obtain ⟨core, messages, threw, hfeed, htexts⟩ :=
    feed_alone (h.unique.others hget hopen) hget hlistening htold hwell now
  have hlt : k < session.agent.submits.length := (List.getElem?_eq_some_iff.mp hget).1
  unfold HttpAgent.feedLast
  rw [hfeed]
  refine h.at_open hget hopen
    ((modify_eq_set (List.getElem?_set_self hlt) _).trans (List.set_set _)) ?_
  cases threw with
  | true => trivial
  | false =>
    change messages.map AssistantMessage.text =
      (Generate.tell session.leftover (Generate.eventsOf (pieces newline submit.stream))).1
    rw [hpieces]
    exact congrArg Prod.fst (htexts rfl)

/-- A chunk of the body: the lines it completes are told. -/
theorem chunk (h : session.Coherent) {k : ℕ} {submit : HttpSubmit}
    (hget : session.agent.submits[k]? = some submit) {ndjson : Bool} {buffer : JsString}
    (hphase : submit.phase = .requesting (.streaming ndjson buffer)) (text : JsString)
    (hwell : Generate.wellFormed
      (Generate.eventsOf (lines newline (submit.stream ++ text))) = true) (now : Timestamp) :
    Coherent ⟨session.agent.onChunk ollamaParser now k text ndjson buffer, session.leftover⟩ := by
  have hsubmit : Told session.agent.core.scratch session.leftover submit := h.told k submit hget
  unfold Told at hsubmit
  rw [hphase] at hsubmit
  obtain ⟨rfl, rfl, htold⟩ := hsubmit
  have hopen : submit.settled = false := settled_of_phase hphase nofun nofun
  have hlt : k < session.agent.submits.length := (List.getElem?_eq_some_iff.mp hget).1
  have hlines := lines_append newline submit.stream text
  have hrest := rest_append newline submit.stream text
  rw [hlines, Generate.eventsOf_append] at hwell
  unfold HttpAgent.onChunk
  simp only [HttpAgent.onSubmit, modify_eq_set hget, if_true]
  -- the record of the submit is written before the lines are fed
  have halone : ∀ core, Alone { session.agent with
      core := core
      submits := session.agent.submits.set k (submit.received true text
        (rest newline (rest newline submit.stream ++ text))) } k :=
    fun _ ↦ h.unique.others_set hget hopen _
  obtain ⟨core, messages, threw, hfeed, htexts⟩ :=
    feed_alone (halone (session.agent.core.record
        [.emit (agentKey session.agent.core.id (js "output")) (.text text)]))
      (List.getElem?_set_self hlt) rfl htold hwell now
  rw [hfeed]
  cases threw with
  | true =>
    -- the request fails, and nothing is returned for it
    have hreceived : k < (session.agent.submits.set k (submit.received true text
        (rest newline (rest newline submit.stream ++ text)))).length := by
      rwa [List.length_set]
    exact h.at_open hget hopen ((modify_eq_set (List.getElem?_set_self hreceived) _).trans
      ((List.set_set _).trans (List.set_set _))) trivial
  | false =>
    refine h.at_open hget hopen (List.set_set _) ⟨rfl, hrest.symm, ?_⟩
    change _ = Generate.tell session.leftover
      (Generate.eventsOf (lines newline (submit.stream ++ text)))
    rw [hlines, Generate.eventsOf_append]
    exact htexts rfl

/-- The response line: an error or an empty body ends the request, a body begins to stream. -/
theorem response (h : session.Coherent) {k : ℕ} {submit : HttpSubmit}
    (hget : session.agent.submits[k]? = some submit)
    (hphase : submit.phase = .requesting .fetching) {now : Timestamp} {ok hasBody : Bool}
    {contentType : JsString}
    (horderly : orderly session.agent (.response k now ok contentType hasBody) = true) :
    Coherent ⟨session.agent.onResponse ollamaParser now k ok contentType hasBody,
      session.leftover⟩ := by
  have hsubmit : Told session.agent.core.scratch session.leftover submit := h.told k submit hget
  unfold Told at hsubmit
  rw [hphase] at hsubmit
  obtain ⟨hmessages, hstream, hbuffer⟩ := hsubmit
  have hopen : submit.settled = false := settled_of_phase hphase nofun nofun
  have htold : (submit.messages.map AssistantMessage.text,
      session.agent.core.scratch.messageBuf) = Generate.tell session.leftover [] := by
    rw [hmessages, hbuffer, Generate.tell_nil]
    rfl
  unfold HttpAgent.onResponse
  split
  · exact h.move _ hget hopen rfl trivial
  · rename_i hok
    split
    · have hlistening : submit.listening = true := by simp [HttpSubmit.listening, hphase]
      refine h.feedLast hget hopen hlistening htold ?_ rfl now
      rw [hstream]
      rfl
    · rename_i hbody
      simp only [orderly, hok, hbody, Bool.false_or] at horderly
      refine h.move _ hget hopen rfl ⟨horderly, ?_, ?_⟩
      · change [] = rest newline submit.stream
        rw [hstream]
        rfl
      · change _ = Generate.tell session.leftover (Generate.eventsOf (lines newline submit.stream))
        rw [hstream]
        exact htold

/-- The end of the body: the open rest and the flush complete the stream. -/
theorem streamEnd (h : session.Coherent) {k : ℕ} {submit : HttpSubmit}
    (hget : session.agent.submits[k]? = some submit) {ndjson : Bool} {buffer : JsString}
    (hphase : submit.phase = .requesting (.streaming ndjson buffer))
    (hwell : Generate.wellFormed (Generate.eventsOf (pieces newline submit.stream)) = true)
    (now : Timestamp) :
    Coherent ⟨session.agent.onStreamEnd ollamaParser now k buffer, session.leftover⟩ := by
  have hsubmit : Told session.agent.core.scratch session.leftover submit := h.told k submit hget
  unfold Told at hsubmit
  rw [hphase] at hsubmit
  obtain ⟨rfl, rfl, htold⟩ := hsubmit
  have hopen : submit.settled = false := settled_of_phase hphase nofun nofun
  have hlistening : submit.listening = true := by simp [HttpSubmit.listening, hphase]
  have hpieces : Generate.eventsOf (pieces newline submit.stream) =
      Generate.eventsOf (lines newline submit.stream) ++
        Generate.eventsOf (piece (rest newline submit.stream) ++ [[]]) := by
    rw [Generate.eventsOf_flush, ← Generate.eventsOf_append]
    rfl
  exact h.feedLast hget hopen hlistening htold hpieces (hpieces ▸ hwell) now

/-- The submit returns: what it heard is what the buffer held, then its own stream. -/
theorem finish (h : session.Coherent) {k : ℕ} {failure : Option HttpRejection}
    (hphase : session.agent.phaseOf k = some (.answered failure))
    (hempty : StartsEmpty session (.settle k)) :
    Coherent ⟨session.agent.finish k failure, session.leftover⟩ := by
  obtain ⟨submit, hget, hanswered, hsubmit⟩ := h.at_phase hphase
  apply h.move _ hget (settled_of_phase hanswered nofun nofun) rfl
  cases failure with
  | some reason => trivial
  | none =>
    unfold Told at hsubmit
    rw [hanswered] at hsubmit
    rintro message hreturned
    cases hexpect : submit.expectMessage with
    | false => simp [hexpect] at hreturned
    | true =>
      rw [hexpect, if_pos rfl] at hreturned
      have hmem : message ∈ submit.messages := List.mem_of_getLast? hreturned
      have hleftover := hempty submit hget hanswered hexpect (List.ne_nil_of_mem hmem)
      have htext : message.text ∈ submit.messages.map AssistantMessage.text :=
        List.mem_map_of_mem hmem
      rw [hsubmit, hleftover] at htext
      exact Generate.eq_of_mem_tell htext

/-- An abort signal concerns neither the buffer nor the streams. -/
theorem abortActive (h : session.Coherent) :
    Coherent ⟨session.agent.abortActive, session.leftover⟩ := by
  unfold HttpAgent.abortActive
  split
  · exact h.of_same HttpSubmit.abort (fun _ ↦ rfl) (fun _ ↦ rfl) (fun _ ↦ rfl) rfl rfl rfl
  · exact h

/-- Every orderly turn that meets the condition keeps the invariant. -/
theorem step (h : session.Coherent) {event : HttpEvent} {next : OllamaSession}
    (hempty : StartsEmpty session event) (hstep : session.step event = some next) :
    next.Coherent := by
  unfold OllamaSession.step at hstep
  split at hstep
  · rename_i horderly
    obtain ⟨agent, hagent, rfl⟩ := Option.map_eq_some_iff.mp hstep
    cases HttpAgent.turn_of_step hagent with
    | submit opts prompt =>
      exact h.submit (fun submit hmem ↦ List.all_eq_true.mp horderly submit hmem) opts prompt
    | resume hphase =>
      obtain ⟨submit, hget, hsuspended, hsubmit⟩ := h.at_phase hphase
      unfold Told at hsubmit
      rw [hsuspended] at hsubmit
      exact h.move _ hget (settled_of_phase hsuspended nofun nofun) rfl hsubmit
    | write data hphase =>
      exact h.of_same (fun submit ↦ { submit with written := some data }) (fun _ ↦ rfl)
        (fun _ ↦ rfl) (fun _ ↦ rfl) rfl rfl rfl
    | controlDone hphase =>
      obtain ⟨submit, hget, hpreparing, hsubmit⟩ := h.at_phase hphase
      unfold Told at hsubmit
      rw [hpreparing] at hsubmit
      refine h.move _ hget (settled_of_phase hpreparing nofun nofun) rfl
        ⟨hsubmit.1, hsubmit.2, ?_⟩
      exact congrArg OllamaScratch.messageBuf (AgentCore.scratch_setStatus _ _)
    | controlThrow hphase =>
      obtain ⟨submit, hget, hpreparing, _⟩ := h.at_phase hphase
      exact h.move _ hget (settled_of_phase hpreparing nofun nofun) rfl trivial
    | fetchFail hphase =>
      obtain ⟨submit, hget, hfetching, _⟩ := h.at_phase hphase
      exact h.move _ hget (settled_of_phase hfetching nofun nofun) rfl trivial
    | response now ok contentType hasBody hphase =>
      obtain ⟨submit, hget, hfetching, _⟩ := h.at_phase hphase
      exact h.response hget hfetching horderly
    | chunk now text hphase =>
      obtain ⟨submit, hget, hstreaming, _⟩ := h.at_phase hphase
      simp only [orderly, hget, Option.all_some] at horderly
      exact h.chunk hget hstreaming text horderly now
    | streamEnd now hphase =>
      obtain ⟨submit, hget, hstreaming, _⟩ := h.at_phase hphase
      simp only [orderly, hget, Option.all_some] at horderly
      exact h.streamEnd hget hstreaming horderly now
    | readFail hphase =>
      obtain ⟨submit, hget, hstreaming, _⟩ := h.at_phase hphase
      exact h.move _ hget (settled_of_phase hstreaming nofun nofun) rfl trivial
    | timer hphase =>
      exact h.of_same HttpSubmit.abort (fun _ ↦ rfl) (fun _ ↦ rfl) (fun _ ↦ rfl) rfl rfl rfl
    | settle hphase => exact h.finish hphase hempty
    | interrupt =>
      unfold HttpAgent.interrupt
      split
      · exact h
      · exact h.abortActive
    | kill signal =>
      unfold HttpAgent.kill
      split
      · exact h
      · have haborted := h.abortActive
        exact ⟨haborted.unique, haborted.told⟩
    | rawWrite data => exact ⟨h.unique, h.told⟩
  · cases hstep

theorem create (id cwd : JsString) (spec : ServerHttpSpec) : (create id cwd spec).Coherent :=
  ⟨OneOpen.nil, Each.nil⟩

end Coherent

/-- A message that starts with what an earlier stream left is not the text of its own stream. -/
theorem not_ownText_step {session next : OllamaSession} (h : session.Coherent) {event : HttpEvent}
    (hbreaks : ¬ StartsEmpty session event) (hstep : session.step event = some next) :
    ¬ next.OwnText := by
  intro hown
  unfold OllamaSession.step at hstep
  split at hstep
  · rename_i horderly
    obtain ⟨agent, hagent, rfl⟩ := Option.map_eq_some_iff.mp hstep
    cases HttpAgent.turn_of_step hagent with
    | settle hphase =>
      rename_i k failure
      simp only [StartsEmpty, not_forall] at hbreaks
      obtain ⟨submit, hget, hanswered, hexpect, hmessages, hleftover⟩ := hbreaks
      have hfailure : failure = none := by
        simpa [HttpAgent.phaseOf, hget, hanswered] using hphase.symm
      subst hfailure
      have hsubmit : Told session.agent.core.scratch session.leftover submit := h.told k submit hget
      unfold Told at hsubmit
      rw [hanswered] at hsubmit
      have hlast := List.getLast?_eq_some_getLast hmessages
      have hmem : (submit.messages.getLast hmessages).text ∈
          submit.messages.map AssistantMessage.text :=
        List.mem_map_of_mem (List.getLast_mem hmessages)
      rw [hsubmit] at hmem
      have htext := Generate.eq_of_mem_tell hmem
      have hreturned : (session.agent.finish k none).submits[k]? = some
          (submit.withPhase (.returned (some (submit.messages.getLast hmessages)))) := by
        simp [HttpAgent.finish, HttpAgent.onSubmit, hget, hexpect, hlast]
      have hsame := hown k _ hreturned _ rfl
      rw [htext] at hsame
      exact hleftover (List.append_left_eq_self.mp hsame)
    | _ => exact hbreaks trivial
  · cases hstep

/-- In every state of an orderly run each returned message is the text of its own stream exactly
when every submit that returns a message was issued with an empty buffer. -/
theorem own_text_iff (id cwd : JsString) (spec : ServerHttpSpec) (schedule : List HttpEvent) :
    Throughout step OwnText (create id cwd spec) schedule ↔
      StepsMeet step StartsEmpty (create id cwd spec) schedule :=
  @throughout_iff _ _ step StartsEmpty Coherent OwnText
    (fun _ _ _ hcoherent hempty hstep ↦ hcoherent.step hempty hstep)
    (fun _ _ _ hcoherent hbreaks hstep ↦ not_ownText_step hcoherent hbreaks hstep)
    (fun _ hcoherent ↦ hcoherent.ownText) _ (Coherent.create id cwd spec) schedule

/-- Two submits; the stream of the first ends without a final event. -/
def truncatedThenFull : List HttpEvent :=
  [.submit ⟨true, false⟩ (js "first"), .controlDone 0,
    .response 0 0 true (js "application/x-ndjson") true,
    .chunk 0 0 (js "\x7b\"response\":\"a\",\"done\":false\x7d\n"), .streamEnd 0 0, .settle 0,
    .submit ⟨true, false⟩ (js "second"), .controlDone 1,
    .response 1 0 true (js "application/x-ndjson") true,
    .chunk 1 0 (js "\x7b\"response\":\"b\",\"done\":true\x7d\n"), .streamEnd 1 0, .settle 1]

/-- The text of the truncated stream opens the message of the next submit. -/
theorem truncated_stream_carries_over : ¬ Throughout step OwnText
    (create (js "o1") (js "/w") ⟨js "http://localhost:11434", none, js "/api/generate"⟩)
    truncatedThenFull := by
  intro h
  have hheard : ((run step (create (js "o1") (js "/w")
      ⟨js "http://localhost:11434", none, js "/api/generate"⟩) truncatedThenFull).bind
        fun session ↦ session.agent.submits[1]?).any (fun submit ↦ submit.phase.message.any
          fun message ↦ message.text == js "ab" && submit.ownText == js "b") = true := by
    decide +kernel
  obtain ⟨submit, hbind, hmessage⟩ := (Option.any_eq_true _ _).mp hheard
  obtain ⟨session, hrun, hget⟩ := Option.bind_eq_some_iff.mp hbind
  obtain ⟨message, hphase, htexts⟩ := (Option.any_eq_true _ _).mp hmessage
  rw [Bool.and_eq_true, beq_iff_eq, beq_iff_eq] at htexts
  have hown : message.text = submit.ownText :=
    h.last hrun 1 submit hget message (HttpPhase.message_eq_some_iff.mp hphase)
  rw [htexts.1, htexts.2] at hown
  revert hown
  decide

end OllamaSession

end Cordyceps.Agents
