import Cordyceps.Agents.OneRequest
import Cordyceps.Drivers.Replies

/-!
# What reaches the parser does not depend on the chunks

The exec controller in jsonl mode and the server-http controller on a line stream
keep the open line in a buffer. So a parser is fed the lines of the whole output,
then the rest, then the empty string, wherever the output was cut, unless it throws:
nothing is fed after that.
-/

namespace Cordyceps.Drivers.DriverParser

open Foundations Agents

variable {Scratch : Type*} (parser : DriverParser Scratch)

/-- The parser's state and memory after the feeds; `none` if one of them throws. -/
def thread : List (Timestamp × JsString) → AgentState × Scratch → Option (AgentState × Scratch)
  | [], memory => some memory
  | (now, chunk) :: rest, (state, scratch) =>
    match parser.feed now chunk state scratch with
    | .ok (result, scratch) => thread rest (result.state.getD state, scratch)
    | .error _ => none

/-- The strings that the feeds pass to the parser: all, or those up to the first throw. -/
def passed : List (Timestamp × JsString) → AgentState × Scratch → List JsString
  | [], _ => []
  | (now, chunk) :: rest, (state, scratch) =>
    chunk :: match parser.feed now chunk state scratch with
      | .ok (result, scratch) => passed rest (result.state.getD state, scratch)
      | .error _ => []

theorem passed_singleton (feed : Timestamp × JsString) (memory : AgentState × Scratch) :
    parser.passed [feed] memory = [feed.2] := by
  rw [passed]
  split <;> rfl

theorem passed_append (first second : List (Timestamp × JsString)) (memory : AgentState × Scratch) :
    parser.passed (first ++ second) memory = parser.passed first memory ++
      match parser.thread first memory with
      | some memory => parser.passed second memory
      | none => [] := by
  induction first generalizing memory with
  | nil => rfl
  | cons head rest ih =>
    rw [List.cons_append, passed, passed, thread, List.cons_append]
    cases parser.feed head.1 head.2 memory.1 memory.2 with
    | error _ => rfl
    | ok answer => exact congrArg _ (ih _)

theorem passed_of_thread {feeds : List (Timestamp × JsString)} {memory : AgentState × Scratch}
    (h : (parser.thread feeds memory).isSome) : parser.passed feeds memory = feeds.map Prod.snd := by
  induction feeds generalizing memory with
  | nil => rfl
  | cons head rest ih =>
    rw [thread] at h
    rw [passed, List.map_cons]
    cases hfeed : parser.feed head.1 head.2 memory.1 memory.2 with
    | error _ => simp [hfeed] at h
    | ok answer =>
      rw [hfeed] at h
      exact congrArg _ (ih h)

theorem length_passed_of_throw {feeds : List (Timestamp × JsString)} {memory : AgentState × Scratch}
    (rest : List (Timestamp × JsString)) (h : parser.thread feeds memory = none) :
    (parser.passed (feeds ++ rest) memory).length ≤ feeds.length := by
  rw [passed_append, h, List.append_nil]
  clear h
  induction feeds generalizing memory with
  | nil => exact le_rfl
  | cons head rest ih =>
    rw [passed, List.length_cons, List.length_cons]
    apply Nat.succ_le_succ
    split
    · exact ih
    · exact Nat.zero_le _

/-- Everything is passed exactly if nothing before the last feed throws. -/
theorem passed_concat_iff (feeds : List (Timestamp × JsString)) (last : Timestamp × JsString)
    (memory : AgentState × Scratch) :
    parser.passed (feeds ++ [last]) memory = (feeds ++ [last]).map Prod.snd ↔
      (parser.thread feeds memory).isSome := by
  constructor
  · intro h
    by_contra hthrow
    rw [Option.not_isSome_iff_eq_none] at hthrow
    have hshort := parser.length_passed_of_throw [last] hthrow
    rw [h, List.length_map, List.length_append, List.length_singleton] at hshort
    omega
  · intro h
    obtain ⟨after, hafter⟩ := Option.isSome_iff_exists.mp h
    rw [passed_append, hafter, parser.passed_of_thread h, List.map_append]
    exact congrArg _ (parser.passed_singleton last after)

/-- Whatever the state and the memory, the parser throws on the events that `takes` leaves out, and
on nothing else. -/
def Admits (takes : Json → Prop) : Prop := ∀ now chunk state scratch,
  (∃ answer, parser.feed now chunk state scratch = .ok answer) ↔
    ∀ ev, readEvent chunk = some ev → takes ev

variable {parser}

/-- Such a parser goes through every text whose lines it takes. -/
theorem Admits.thread_isSome_iff {takes : Json → Prop} (h : parser.Admits takes)
    (feeds : List (Timestamp × JsString)) (memory : AgentState × Scratch) :
    (parser.thread feeds memory).isSome ↔
      ∀ line ∈ feeds.map Prod.snd, ∀ ev, readEvent line = some ev → takes ev := by
  induction feeds generalizing memory with
  | nil => simp [thread]
  | cons head rest ih =>
    have hhead := h head.1 head.2 memory.1 memory.2
    rw [List.map_cons, List.forall_mem_cons, thread]
    cases hfeed : parser.feed head.1 head.2 memory.1 memory.2 with
    | error thrown =>
      have hnot : ¬ ∀ ev, readEvent head.2 = some ev → takes ev := by
        rw [← hhead, hfeed]
        rintro ⟨answer, hanswer⟩
        cases hanswer
      simp [hnot]
    | ok answer => exact (ih _).trans (and_iff_right (hhead.mp ⟨answer, hfeed⟩)).symm

end Cordyceps.Drivers.DriverParser

namespace Cordyceps.Drivers

open Foundations

theorem codexParser_admits : codexParser.Admits CodexParser.Takes := by
  intro now chunk state scratch
  cases hread : readEvent chunk with
  | none => simp [codexParser, CodexParser.feed, hread, Except.map]
  | some ev =>
    simp only [Option.some.injEq, forall_eq']
    constructor
    · rintro ⟨answer, hfeed⟩
      by_contra htakes
      simp [codexParser, CodexParser.feed_of_not_takes hread htakes, Except.map] at hfeed
    · intro htakes
      have hmessages := codex_messages hread htakes now state scratch
      cases hfeed : codexParser.feed now chunk state scratch with
      | error thrown => simp [hfeed, Except.map] at hmessages
      | ok answer => exact ⟨answer, rfl⟩

theorem ollamaParser_admits : ollamaParser.Admits OllamaParser.Takes := by
  intro now chunk state scratch
  cases hread : readEvent chunk with
  | none => simp [ollamaParser, OllamaParser.feed, hread]
  | some ev =>
    simp only [Option.some.injEq, forall_eq']
    exact OllamaParser.feed_isOk_iff hread now state scratch

theorem geminiParser_admits : geminiParser.Admits (· ≠ .null) := by
  intro now chunk state scratch
  simp only [geminiParser, GeminiParser.feed]
  cases chunk with
  | nil => simp [readEvent]
  | cons unit rest =>
    simp only [List.isEmpty_cons, Bool.false_eq_true, if_false]
    cases hread : readEvent (unit :: rest) with
    | none => simp
    | some ev =>
      cases ev with
      | null => simp
      | _ => simp only [← apply_ite Except.ok]; simp

end Cordyceps.Drivers

namespace Cordyceps.Agents

open Foundations Foundations.LineFraming Foundations.StepMachine Drivers

variable {Scratch : Type*}

/-! ## The feeds of a response -/

/-- The non-empty lines of a text, and the empty string. -/
def framed (text : JsString) : List JsString :=
  (text.splitOn newline).filter (fun line ↦ !line.isEmpty) ++ [[]]

/-- The feeds for chunks that arrive after an open line, with the time of each: the lines that a
chunk completes, and at the end the rest. -/
def responseFeeds (buffer : JsString) : List (Timestamp × JsString) → Timestamp →
    List (Timestamp × JsString)
  | [], last => (piece buffer).map (Prod.mk last)
  | (now, chunk) :: more, last =>
    (lines newline (buffer ++ chunk)).map (Prod.mk now) ++
      responseFeeds (rest newline (buffer ++ chunk)) more last

/-- **The cuts do not matter**: the feeds are the pieces of the whole text. -/
theorem strings_responseFeeds (buffer : JsString) (chunks : List (Timestamp × JsString))
    (last : Timestamp) (hopen : pieces newline buffer = piece buffer) :
    (responseFeeds buffer chunks last).map Prod.snd =
      pieces newline (buffer ++ (chunks.map Prod.snd).flatten) := by
  induction chunks generalizing buffer with
  | nil => simp [responseFeeds, hopen]
  | cons head more ih =>
    rw [responseFeeds, List.map_append, ih _ (pieces_rest newline _), List.map_cons,
      List.flatten_cons, ← List.append_assoc, pieces_append newline (buffer ++ head.2)]
    simp

theorem strings_feeds (chunks : List (Timestamp × JsString)) (last : Timestamp) :
    (responseFeeds [] chunks last ++ [(last, [])]).map Prod.snd =
      framed (chunks.map Prod.snd).flatten := by
  rw [List.map_append, strings_responseFeeds [] chunks last rfl, framed, ← pieces_eq_splitOn]
  rfl

namespace AgentCore

/-- What the next feed goes on from. -/
def memory (core : AgentCore Scratch) : AgentState × Scratch := (core.state, core.scratch)

theorem thread_feedAll (parser : DriverParser Scratch) (now : Timestamp) (chunks : List JsString)
    (core : AgentCore Scratch) : parser.thread (chunks.map (Prod.mk now)) core.memory =
      if (core.feedAll parser now chunks).2 then none
      else some (core.feedAll parser now chunks).1.memory := by
  induction chunks generalizing core with
  | nil => rfl
  | cons chunk rest ih =>
    rw [List.map_cons, memory, DriverParser.thread]
    cases hfeed : parser.feed now chunk core.state core.scratch with
    | error thrown =>
      have hthrow : core.feedAll parser now (chunk :: rest) =
          ({ core with scratch := thrown.scratch }, true) := by
        simp [feedAll, feedChunk, hfeed, Except.map]
      rw [hthrow]
      rfl
    | ok answer =>
      have hnext : core.feedAll parser now (chunk :: rest) =
          (core.absorb answer.1 answer.2).feedAll parser now rest := by
        simp [feedAll, feedChunk, hfeed, Except.map]
      obtain ⟨calls, habsorb, _⟩ := core.absorb_eq answer.1 answer.2
      rw [hnext, ← ih, habsorb]
      rfl

end AgentCore

/-! ## The exec controller -/

namespace ExecAgent

variable (parser : DriverParser Scratch)

/-- The strings that a chunk of stdout has the controller feed. -/
def offered (child : Child) (chunk : JsString) : List JsString :=
  match child.spec.parseOutput with
  | .jsonl => lines newline (child.stdoutBuf ++ chunk)
  | .json | .text => []

/-- The strings that the end of the child has the controller feed. -/
def offeredLast (child : Child) : List JsString :=
  match child.spec.parseOutput with
  | .text => []
  | .json | .jsonl => piece child.stdoutBuf ++ [[]]

/-- The strings that a turn passes to the parser. -/
def passed (agent : ExecAgent Scratch) : ExecEvent → List JsString
  | .data k now chunk =>
    match agent.childOf k with
    | some child => parser.passed ((offered child chunk).map (Prod.mk now)) agent.core.memory
    | none => []
  | .exit k now _ _ =>
    match agent.childOf k with
    | some child => parser.passed ((offeredLast child).map (Prod.mk now)) agent.core.memory
    | none => []
  | _ => []

/-- The chunks of a child's stdout, and its exit. -/
def output (k : ℕ) (chunks : List (Timestamp × JsString)) (last : Timestamp) (code : Option ℤ)
    (signal : Option Signal) : List ExecEvent :=
  chunks.map (fun chunk ↦ .data k chunk.1 chunk.2) ++ [.exit k last code signal]

variable {parser} {agent : ExecAgent Scratch} {k : ℕ} {child : Child}

theorem childOf_feed (now : Timestamp) (chunks : List JsString) :
    (agent.feed parser now chunks).childOf k = agent.childOf k := by
  simp only [childOf, feed, List.getElem?_map, Option.bind_map]
  congr 1
  funext submit
  exact submit.child_deliver _

/-- A chunk goes through the lines that it completes, and leaves the rest in the buffer. -/
theorem onData_jsonl (now : Timestamp) (chunk : JsString) (hchild : agent.childOf k = some child)
    (hmode : child.spec.parseOutput = .jsonl) :
    let fed := agent.core.record [.emit (agentKey agent.core.id (js "output")) (.text chunk)] |>.feedAll
      parser now (offered child chunk)
    (onData parser now k chunk child agent).core = fed.1 ∧
      (onData parser now k chunk child agent).crashed = fed.2 ∧
      (onData parser now k chunk child agent).childOf k =
        some (child.received chunk (rest newline (child.stdoutBuf ++ chunk))) := by
  simp only [onData, offered, hmode]
  refine ⟨rfl, rfl, ?_⟩
  rw [childOf_feed]
  obtain ⟨submit, hsubmit, hchild⟩ := Option.bind_eq_some_iff.mp hchild
  simp [childOf, onSubmit, emitOutput, hsubmit, ExecSubmit.onChild, hchild]

/-- The strings of a child's output, up to a throw of the parser. -/
theorem collect_output (hcrashed : agent.crashed = false) (hchild : agent.childOf k = some child)
    (hlife : child.life = .running) (hmode : child.spec.parseOutput = .jsonl)
    (chunks : List (Timestamp × JsString)) (last : Timestamp) (code : Option ℤ)
    (signal : Option Signal) :
    collect (step parser) (passed parser) agent (output k chunks last code signal) =
      parser.passed (responseFeeds child.stdoutBuf chunks last ++ [(last, [])])
        agent.core.memory := by
  induction chunks generalizing agent child with
  | nil =>
    simp [output, collect, step, hcrashed, hchild, hlife, passed, offeredLast, hmode, responseFeeds]
  | cons head more ih =>
    have hstep : step parser agent (.data k head.1 head.2) =
        some (onData parser head.1 k head.2 child agent) := by
      simp [step, hcrashed, hchild, hlife]
    have hpassed : passed parser agent (.data k head.1 head.2) =
        parser.passed ((offered child head.2).map (Prod.mk head.1)) agent.core.memory := by
      simp [passed, hchild]
    obtain ⟨hcore, hthrow, hnext⟩ := @onData_jsonl _ parser _ _ _ head.1 head.2 hchild hmode
    have hthread := AgentCore.thread_feedAll parser head.1 (offered child head.2)
      (agent.core.record [.emit (agentKey agent.core.id (js "output")) (.text head.2)])
    have hoffered : offered child head.2 = lines newline (child.stdoutBuf ++ head.2) := by
      simp [offered, hmode]
    rw [output, List.map_cons, List.cons_append, collect, hstep]
    simp only
    rw [hpassed, responseFeeds, List.append_assoc, DriverParser.passed_append, ← hoffered]
    congr 1
    change parser.thread _ agent.core.memory = _ at hthread
    rw [hthread, ← hthrow]
    cases hcrash : (onData parser head.1 k head.2 child agent).crashed with
    | true =>
      -- the daemon is gone: no turn follows
      cases more with
      | nil => simp [collect, step, hcrash]
      | cons next more => simp [collect, step, hcrash]
    | false =>
      have hrest := ih hcrash hnext hlife hmode
      rw [hcore] at hrest
      exact hrest

end ExecAgent

/-! ## The server-http controller -/

namespace HttpAgent

variable (parser : DriverParser Scratch)

/-- The strings that a turn passes to the parser. -/
def passed (agent : HttpAgent Scratch) : HttpEvent → List JsString
  | .response k now ok _ hasBody =>
    if agent.phaseOf k = some (.requesting .fetching) ∧ ok ∧ !hasBody then
      parser.passed [(now, [])] agent.core.memory
    else []
  | .chunk k now text =>
    match agent.phaseOf k with
    | some (.requesting (.streaming ndjson buffer)) =>
      parser.passed (if ndjson then (lines newline (buffer ++ text)).map (Prod.mk now) else [])
        agent.core.memory
    | _ => []
  | .streamEnd k now =>
    match agent.phaseOf k with
    | some (.requesting (.streaming _ buffer)) =>
      parser.passed ((piece buffer ++ [[]]).map (Prod.mk now)) agent.core.memory
    | _ => []
  | _ => []

/-- The decoded chunks of a body, and its end. -/
def body (k : ℕ) (chunks : List (Timestamp × JsString)) (last : Timestamp) : List HttpEvent :=
  chunks.map (fun chunk ↦ .chunk k chunk.1 chunk.2) ++ [.streamEnd k last]

variable {parser} {agent : HttpAgent Scratch} {k : ℕ} {buffer : JsString}

theorem phaseOf_endRequest (failure : Option HttpRejection) {phase : HttpPhase}
    (hphase : agent.phaseOf k = some phase) :
    (agent.endRequest k failure).phaseOf k = some (.answered failure) := by
  obtain ⟨submit, hget, _⟩ := Option.map_eq_some_iff.mp hphase
  simp [phaseOf, endRequest, onSubmit, hget, HttpSubmit.withPhase]

/-- A chunk goes through the lines that it completes, and leaves the rest in the buffer. -/
theorem onChunk_ndjson (now : Timestamp) (text : JsString)
    (hphase : agent.phaseOf k = some (.requesting (.streaming true buffer))) :
    let fed := agent.core.record [.emit (agentKey agent.core.id (js "output")) (.text text)] |>.feedAll
      parser now (lines newline (buffer ++ text))
    (onChunk parser now k text true buffer agent).core = fed.1 ∧
      (onChunk parser now k text true buffer agent).phaseOf k = some (if fed.2
        then .answered (some .parserThrew)
        else .requesting (.streaming true (rest newline (buffer ++ text)))) := by
  have hreceived := @AllOwned.phaseOf_received _ { agent with core := (agent.core.record
    [.emit (agentKey agent.core.id (js "output")) (.text text)]) } k _ hphase true text
      (rest newline (buffer ++ text))
  have hfed := (AllOwned.phaseOf_feed parser now (lines newline (buffer ++ text)) k).trans hreceived
  simp only [onChunk, if_true]
  split
  · rename_i hthrow
    refine ⟨rfl, ?_⟩
    rw [phaseOf_endRequest _ hfed]
    exact congrArg some (if_pos hthrow).symm
  · rename_i hthrow
    refine ⟨rfl, ?_⟩
    rw [hfed]
    exact congrArg some (if_neg hthrow).symm

/-- The strings of a body, up to a throw of the parser. -/
theorem collect_body (hphase : agent.phaseOf k = some (.requesting (.streaming true buffer)))
    (chunks : List (Timestamp × JsString)) (last : Timestamp) :
    collect (step parser) (passed parser) agent (body k chunks last) =
      parser.passed (responseFeeds buffer chunks last ++ [(last, [])]) agent.core.memory := by
  induction chunks generalizing agent buffer with
  | nil => simp [body, collect, step, hphase, passed, responseFeeds]
  | cons head more ih =>
    have hstep : step parser agent (.chunk k head.1 head.2) =
        some (onChunk parser head.1 k head.2 true buffer agent) := by
      simp [step, hphase]
    have hpassed : passed parser agent (.chunk k head.1 head.2) =
        parser.passed ((lines newline (buffer ++ head.2)).map (Prod.mk head.1)) agent.core.memory := by
      simp [passed, hphase]
    obtain ⟨hcore, hnext⟩ := @onChunk_ndjson _ parser _ _ _ head.1 head.2 hphase
    have hthread := AgentCore.thread_feedAll parser head.1 (lines newline (buffer ++ head.2))
      (agent.core.record [.emit (agentKey agent.core.id (js "output")) (.text head.2)])
    rw [body, List.map_cons, List.cons_append, collect, hstep]
    simp only
    rw [hpassed, responseFeeds, List.append_assoc, DriverParser.passed_append]
    congr 1
    change parser.thread _ agent.core.memory = _ at hthread
    rw [hthread]
    split at hnext
    · rename_i hthrow
      -- the request has failed: nothing of the body is read any more
      rw [if_pos hthrow]
      cases more with
      | nil => simp [collect, step, hnext]
      | cons next more => simp [collect, step, hnext]
    · rename_i hthrow
      rw [if_neg hthrow]
      have hrest := ih hnext
      rw [hcore] at hrest
      exact hrest

end HttpAgent

/-! ## Both controllers -/

/-- A child in jsonl mode runs, and nothing of its output has arrived. -/
structure ExecAgent.Started (agent : ExecAgent Scratch) (k : ℕ) (child : Child) : Prop where
  crashed : agent.crashed = false
  childOf : agent.childOf k = some child
  life : child.life = .running
  mode : child.spec.parseOutput = .jsonl
  stdoutBuf : child.stdoutBuf = []

/-- Both controllers pass the lines of the whole text and the empty string, however the text is
cut, exactly if the parser does not throw on one of the lines. -/
theorem framing_independent_iff (parser : DriverParser Scratch)
    (chunks : List (Timestamp × JsString)) (last : Timestamp) :
    (∀ (agent : ExecAgent Scratch) (k : ℕ) (child : Child) (code : Option ℤ)
      (signal : Option Signal), agent.Started k child →
        (collect (ExecAgent.step parser) (ExecAgent.passed parser) agent
            (ExecAgent.output k chunks last code signal) = framed (chunks.map Prod.snd).flatten ↔
          (parser.thread (responseFeeds [] chunks last) agent.core.memory).isSome)) ∧
    ∀ (agent : HttpAgent Scratch) (k : ℕ),
      agent.phaseOf k = some (.requesting (.streaming true [])) →
        (collect (HttpAgent.step parser) (HttpAgent.passed parser) agent
            (HttpAgent.body k chunks last) = framed (chunks.map Prod.snd).flatten ↔
          (parser.thread (responseFeeds [] chunks last) agent.core.memory).isSome) := by
  refine ⟨fun agent k child code signal h ↦ ?_, fun agent k hphase ↦ ?_⟩
  · rw [ExecAgent.collect_output h.crashed h.childOf h.life h.mode, h.stdoutBuf, ← strings_feeds]
    exact parser.passed_concat_iff _ _ _
  · rw [HttpAgent.collect_body hphase, ← strings_feeds]
    exact parser.passed_concat_iff _ _ _

/-- An agent that has just started a Codex child. -/
def codexAgent : ExecAgent Unit :=
  (ExecAgent.create codexParser (js "a") (js "codex") (js "/") .empty).submit ⟨true, false⟩
    (.starts ⟨js "codex", [], js "/", .empty, none, .jsonl⟩)

theorem framing_independent_two_lines :
    collect (ExecAgent.step codexParser) (ExecAgent.passed codexParser) codexAgent
        (ExecAgent.output 0 [(0, js "o"), (0, js "ne\ntwo")] 0 (some 0) none) =
      framed ([(0, js "o"), (0, js "ne\ntwo")].map Prod.snd).flatten := by
  apply ((framing_independent_iff codexParser [(0, js "o"), (0, js "ne\ntwo")] 0).1 codexAgent 0
    (.spawned ⟨js "codex", [], js "/", .empty, none, .jsonl⟩ .empty .running) (some 0) none
    ⟨rfl, rfl, rfl, rfl, rfl⟩).mpr
  decide +kernel

/-- A `null` line stops the feeding of the lines behind it. -/
theorem null_line_ends_feeding :
    collect (ExecAgent.step codexParser) (ExecAgent.passed codexParser) codexAgent
        (ExecAgent.output 0 [(0, js "null\ntwo\n")] 0 (some 0) none) ≠
      framed ([(0, js "null\ntwo\n")].map Prod.snd).flatten := by
  decide +kernel

end Cordyceps.Agents
