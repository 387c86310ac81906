import Cordyceps.Agents.ExecController

/-!
# The server-http controller

`agents/server-http-controller.ts` as a step machine. A submit runs through the
pre-interrupt, the driver's `control.submit`, one POST and the streaming of its
response; each `await` on the way ends a turn. What the control object writes,
what the network answers and when the timer fires come with the events. The
staging slot `pendingBody` and `activeAbort` belong to the controller and are
shared by all its submits.
-/

namespace Cordyceps.Agents

open Foundations Foundations.LineFraming Drivers

/-- Why a server-http submit rejects. -/
inductive HttpRejection
  | agentExited
  | alreadyProcessing
  | controlFailed
  | fetchFailed
  | httpStatus
  | readFailed
  | parserThrew
  deriving DecidableEq, Repr

/-- Where `performRequest` stands: `fetch` is pending, or the body is being read. `buffer` holds
what has not been fed yet. -/
inductive HttpStage
  | fetching
  | streaming (ndjson : Bool) (buffer : JsString)
  deriving DecidableEq, Repr

/-- Where a call of `submit` stands. From `requesting` on its message listener is on; `answered`
is `performRequest` having ended, with the continuation of the submit still to run. -/
inductive HttpPhase
  | suspended
  | preparing
  | requesting (stage : HttpStage)
  | answered (failure : Option HttpRejection)
  | returned (message : Option AssistantMessage)
  | rejected (reason : HttpRejection)
  deriving DecidableEq, Repr

/-- The message that the call has returned. -/
def HttpPhase.message : HttpPhase → Option AssistantMessage
  | .returned message => message
  | _ => none

theorem HttpPhase.message_eq_some_iff {phase : HttpPhase} {message : AssistantMessage} :
    phase.message = some message ↔ phase = .returned (some message) := by
  cases phase <;> simp [HttpPhase.message]

/-- The arguments of `fetch`. -/
structure HttpRequest where
  url : JsString
  headers : JsMap JsString JsString
  body : JsString

/-- A call of `submit`. `written` observes the last body its control wrote, `posted` the request
that was issued for it, `stream` the decoded response text, `aborted` its abort signal. -/
structure HttpSubmit where
  expectMessage : Bool
  prompt : JsString
  phase : HttpPhase
  messages : List AssistantMessage
  written : Option JsString
  posted : Option HttpRequest
  stream : JsString
  aborted : Bool

/-- The controller. `activeAbort` is the submit whose abort controller is the active one. -/
structure HttpAgent (Scratch : Type*) where
  core : AgentCore Scratch
  spec : ServerHttpSpec
  pendingBody : Option JsString
  activeAbort : Option ℕ
  submits : List HttpSubmit

/-- One turn of the event loop; numbers name the submit. `write` is a call of `ctx.write` by the
control working for the submit, `rawWrite` one by anybody else. -/
inductive HttpEvent
  | submit (opts : SubmitOptions) (prompt : JsString)
  | resume (k : ℕ)
  | write (k : ℕ) (data : JsString)
  | controlDone (k : ℕ)
  | controlThrow (k : ℕ)
  | fetchFail (k : ℕ)
  | response (k : ℕ) (now : Timestamp) (ok : Bool) (contentType : JsString) (hasBody : Bool)
  | chunk (k : ℕ) (now : Timestamp) (text : JsString)
  | streamEnd (k : ℕ) (now : Timestamp)
  | readFail (k : ℕ)
  | timer (k : ℕ)
  | settle (k : ℕ)
  | interrupt
  | kill (signal : Signal)
  | rawWrite (data : JsString)

namespace HttpSubmit

/-- The body of a submit whose control wrote nothing: `JSON.stringify({ prompt })`. -/
def defaultBody (submit : HttpSubmit) : JsString :=
  Json.stringify (.obj [(js "prompt", .str submit.prompt)])

/-- The POST of the submit is in flight. -/
def inFlight (submit : HttpSubmit) : Bool :=
  match submit.phase with
  | .requesting _ => true
  | _ => false

/-- The message listener of the submit is on. -/
def listening (submit : HttpSubmit) : Bool :=
  match submit.phase with
  | .requesting _ | .answered _ => true
  | _ => false

def deliver (messages : List AssistantMessage) (submit : HttpSubmit) : HttpSubmit :=
  if submit.listening then { submit with messages := submit.messages ++ messages } else submit

def withPhase (phase : HttpPhase) (submit : HttpSubmit) : HttpSubmit :=
  { submit with phase := phase }

def abort (submit : HttpSubmit) : HttpSubmit := { submit with aborted := true }

/-- A piece of the body arrived and left `rest` unfed. -/
def received (ndjson : Bool) (text rest : JsString) (submit : HttpSubmit) : HttpSubmit :=
  { submit with
    phase := .requesting (.streaming ndjson rest)
    stream := submit.stream ++ text }

end HttpSubmit

namespace HttpAgent

variable {Scratch : Type*}

/-- The constructor: idle, with the four bus keys written. -/
def create (parser : DriverParser Scratch) (id driverId cwd : JsString) (spec : ServerHttpSpec) :
    HttpAgent Scratch where
  core := AgentCore.announce ⟨id, parser.initialState.withStatus .idle, [], false, none,
    parser.scratch, []⟩ driverId cwd .serverHttp
  spec := spec
  pendingBody := none
  activeAbort := none
  submits := []

def onSubmit (k : ℕ) (change : HttpSubmit → HttpSubmit) (agent : HttpAgent Scratch) :
    HttpAgent Scratch :=
  { agent with submits := agent.submits.modify k change }

def push (opts : SubmitOptions) (prompt : JsString) (phase : HttpPhase)
    (agent : HttpAgent Scratch) : HttpAgent Scratch :=
  { agent with
    submits := agent.submits ++ [⟨opts.expectMessage, prompt, phase, [], none, none, [], false⟩] }

/-- `this.activeAbort?.abort()`. -/
def abortActive (agent : HttpAgent Scratch) : HttpAgent Scratch :=
  match agent.activeAbort with
  | some k => agent.onSubmit k HttpSubmit.abort
  | none => agent

/-- The staging slot is emptied and `control.submit` is called. -/
def prepare (k : ℕ) (agent : HttpAgent Scratch) : HttpAgent Scratch :=
  { agent with pendingBody := none }.onSubmit k (HttpSubmit.withPhase .preparing)

/-- `submit`, up to its first `await`. -/
def submit (opts : SubmitOptions) (prompt : JsString) (agent : HttpAgent Scratch) :
    HttpAgent Scratch :=
  if agent.core.exited then agent.push opts prompt (.rejected .agentExited)
  else
    match agent.activeAbort with
    | some _ =>
      if opts.interruptIfBusy then (agent.push opts prompt .suspended).abortActive
      else agent.push opts prompt (.rejected .alreadyProcessing)
    | none => (agent.push opts prompt .suspended).prepare agent.submits.length

/-- `ctx.write(data)` on behalf of a submit. -/
def write (k : ℕ) (data : JsString) (agent : HttpAgent Scratch) : HttpAgent Scratch :=
  { agent with pendingBody := some data }.onSubmit k fun submit ↦
    { submit with written := some data }

/-- The endpoint: base URL without one trailing slash, path with a leading one. -/
def url (spec : ServerHttpSpec) : JsString :=
  let base := if JsString.endsWith spec.baseUrl (js "/") then spec.baseUrl.dropLast else spec.baseUrl
  let path := if JsString.startsWith spec.submitPath (js "/") then spec.submitPath
    else js "/" ++ spec.submitPath
  base ++ path

def headers (spec : ServerHttpSpec) : JsMap JsString JsString :=
  (JsMap.empty.set (js "content-type") (js "application/json")).assign
    (spec.defaultHeaders.getD JsMap.empty)

/-- `submit` after `control.submit`: the body is taken and the POST is issued. -/
def post (k : ℕ) (agent : HttpAgent Scratch) : HttpAgent Scratch :=
  { agent with
    core := agent.core.setStatus .busy
    pendingBody := none
    activeAbort := some k }.onSubmit k fun submit ↦
      { submit with
        phase := .requesting .fetching
        posted := some {
          url := url agent.spec
          headers := headers agent.spec
          body := agent.pendingBody.getD submit.defaultBody } }

/-- The `finally` block of `performRequest`. -/
def endRequest (k : ℕ) (failure : Option HttpRejection) (agent : HttpAgent Scratch) :
    HttpAgent Scratch :=
  { agent with activeAbort := none }.onSubmit k (HttpSubmit.withPhase (.answered failure))

section Output

variable (parser : DriverParser Scratch) (now : Timestamp)

/-- Feed chunks to the parser; the flag tells whether the parser threw. -/
def feed (chunks : List JsString) (agent : HttpAgent Scratch) : HttpAgent Scratch × Bool :=
  let fed := agent.core.feedAll parser now chunks
  ({ agent with
    core := fed.1
    submits := agent.submits.map (HttpSubmit.deliver
      (fed.1.transcript.drop agent.core.transcript.length)) }, fed.2)

/-- Feed the last chunks of a response and end the request. -/
def feedLast (k : ℕ) (chunks : List JsString) (agent : HttpAgent Scratch) : HttpAgent Scratch :=
  let fed := agent.feed parser now chunks
  fed.1.endRequest k (if fed.2 then some .parserThrew else none)

/-- The response line and headers arrived. -/
def onResponse (k : ℕ) (ok : Bool) (contentType : JsString) (hasBody : Bool)
    (agent : HttpAgent Scratch) : HttpAgent Scratch :=
  if !ok then agent.endRequest k (some .httpStatus)
  else if !hasBody then agent.feedLast parser now k [[]]
  else
    let ndjson := JsString.includes contentType (js "x-ndjson") ||
      JsString.includes contentType (js "stream")
    agent.onSubmit k (HttpSubmit.withPhase (.requesting (.streaming ndjson [])))

/-- A decoded piece of the body. -/
def onChunk (k : ℕ) (text : JsString) (ndjson : Bool) (buffer : JsString)
    (agent : HttpAgent Scratch) : HttpAgent Scratch :=
  let output := BusCall.emit (agentKey agent.core.id (js "output")) (.text text)
  let agent := { agent with core := agent.core.record [output] }
  if ndjson then
    let fed := (agent.onSubmit k (HttpSubmit.received ndjson text (rest newline (buffer ++ text)))).feed
      parser now (lines newline (buffer ++ text))
    if fed.2 then fed.1.endRequest k (some .parserThrew) else fed.1
  else agent.onSubmit k (HttpSubmit.received ndjson text (buffer ++ text))

/-- The body ended: the residual is fed, then the empty flush. -/
def onStreamEnd (k : ℕ) (buffer : JsString) (agent : HttpAgent Scratch) : HttpAgent Scratch :=
  agent.feedLast parser now k (piece buffer ++ [[]])

end Output

/-- The rest of `submit` after `performRequest`: the `finally` block and the result. -/
def finish (k : ℕ) (failure : Option HttpRejection) (agent : HttpAgent Scratch) :
    HttpAgent Scratch :=
  let core := if agent.core.state.status = .busy then agent.core.setStatus .idle else agent.core
  { agent with core }.onSubmit k fun submit ↦
    submit.withPhase (match failure with
      | none => .returned (if submit.expectMessage then submit.messages.getLast? else none)
      | some reason => .rejected reason)

/-- `interrupt`. -/
def interrupt (agent : HttpAgent Scratch) : HttpAgent Scratch :=
  if agent.core.exited then agent else agent.abortActive

/-- `kill`. -/
def kill (signal : Signal) (agent : HttpAgent Scratch) : HttpAgent Scratch :=
  if agent.core.exited then agent
  else
    let payload := Json.obj [(js "code", .num 0), (js "signal", .str signal)]
    let agent := agent.abortActive
    { agent with core := agent.core.markExited 0 payload }

def phaseOf (agent : HttpAgent Scratch) (k : ℕ) : Option HttpPhase :=
  agent.submits[k]?.map HttpSubmit.phase

/-- One turn. An event that cannot happen in a state has no successor. -/
def step (parser : DriverParser Scratch) (agent : HttpAgent Scratch) (event : HttpEvent) :
    Option (HttpAgent Scratch) :=
  match event with
  | .submit opts prompt => some (agent.submit opts prompt)
  | .resume k => if agent.phaseOf k = some .suspended then some (agent.prepare k) else none
  | .write k data => if agent.phaseOf k = some .preparing then some (agent.write k data) else none
  | .controlDone k => if agent.phaseOf k = some .preparing then some (agent.post k) else none
  | .controlThrow k =>
    if agent.phaseOf k = some .preparing then
      some (agent.onSubmit k (HttpSubmit.withPhase (.rejected .controlFailed)))
    else none
  | .fetchFail k =>
    if agent.phaseOf k = some (.requesting .fetching) then
      some (agent.endRequest k (some .fetchFailed))
    else none
  | .response k now ok contentType hasBody =>
    if agent.phaseOf k = some (.requesting .fetching) then
      some (agent.onResponse parser now k ok contentType hasBody)
    else none
  | .chunk k now text =>
    match agent.phaseOf k with
    | some (.requesting (.streaming ndjson buffer)) =>
      some (agent.onChunk parser now k text ndjson buffer)
    | _ => none
  | .streamEnd k now =>
    match agent.phaseOf k with
    | some (.requesting (.streaming _ buffer)) => some (agent.onStreamEnd parser now k buffer)
    | _ => none
  | .readFail k =>
    match agent.phaseOf k with
    | some (.requesting (.streaming _ _)) => some (agent.endRequest k (some .readFailed))
    | _ => none
  | .timer k =>
    match agent.phaseOf k with
    | some (.requesting _) => some (agent.onSubmit k HttpSubmit.abort)
    | _ => none
  | .settle k =>
    match agent.phaseOf k with
    | some (.answered failure) => some (agent.finish k failure)
    | _ => none
  | .interrupt => some agent.interrupt
  | .kill signal => some (agent.kill signal)
  | .rawWrite data => some { agent with pendingBody := some data }

/-- All that one turn can do. -/
inductive Turn (parser : DriverParser Scratch) (agent : HttpAgent Scratch) :
    HttpEvent → HttpAgent Scratch → Prop
  | submit (opts : SubmitOptions) (prompt : JsString) :
      Turn parser agent (.submit opts prompt) (agent.submit opts prompt)
  | resume {k : ℕ} (hphase : agent.phaseOf k = some .suspended) :
      Turn parser agent (.resume k) (agent.prepare k)
  | write {k : ℕ} (data : JsString) (hphase : agent.phaseOf k = some .preparing) :
      Turn parser agent (.write k data) (agent.write k data)
  | controlDone {k : ℕ} (hphase : agent.phaseOf k = some .preparing) :
      Turn parser agent (.controlDone k) (agent.post k)
  | controlThrow {k : ℕ} (hphase : agent.phaseOf k = some .preparing) :
      Turn parser agent (.controlThrow k)
        (agent.onSubmit k (HttpSubmit.withPhase (.rejected .controlFailed)))
  | fetchFail {k : ℕ} (hphase : agent.phaseOf k = some (.requesting .fetching)) :
      Turn parser agent (.fetchFail k) (agent.endRequest k (some .fetchFailed))
  | response {k : ℕ} (now : Timestamp) (ok : Bool) (contentType : JsString) (hasBody : Bool)
      (hphase : agent.phaseOf k = some (.requesting .fetching)) :
      Turn parser agent (.response k now ok contentType hasBody)
        (agent.onResponse parser now k ok contentType hasBody)
  | chunk {k : ℕ} (now : Timestamp) (text : JsString) {ndjson : Bool} {buffer : JsString}
      (hphase : agent.phaseOf k = some (.requesting (.streaming ndjson buffer))) :
      Turn parser agent (.chunk k now text) (agent.onChunk parser now k text ndjson buffer)
  | streamEnd {k : ℕ} (now : Timestamp) {ndjson : Bool} {buffer : JsString}
      (hphase : agent.phaseOf k = some (.requesting (.streaming ndjson buffer))) :
      Turn parser agent (.streamEnd k now) (agent.onStreamEnd parser now k buffer)
  | readFail {k : ℕ} {ndjson : Bool} {buffer : JsString}
      (hphase : agent.phaseOf k = some (.requesting (.streaming ndjson buffer))) :
      Turn parser agent (.readFail k) (agent.endRequest k (some .readFailed))
  | timer {k : ℕ} {stage : HttpStage} (hphase : agent.phaseOf k = some (.requesting stage)) :
      Turn parser agent (.timer k) (agent.onSubmit k HttpSubmit.abort)
  | settle {k : ℕ} {failure : Option HttpRejection}
      (hphase : agent.phaseOf k = some (.answered failure)) :
      Turn parser agent (.settle k) (agent.finish k failure)
  | interrupt : Turn parser agent .interrupt agent.interrupt
  | kill (signal : Signal) : Turn parser agent (.kill signal) (agent.kill signal)
  | rawWrite (data : JsString) :
      Turn parser agent (.rawWrite data) { agent with pendingBody := some data }

theorem turn_of_step {parser : DriverParser Scratch} {agent next : HttpAgent Scratch}
    {event : HttpEvent} (h : agent.step parser event = some next) :
    Turn parser agent event next := by
  unfold step at h
  cases event with
  | submit opts prompt =>
    cases h
    exact .submit opts prompt
  | interrupt =>
    cases h
    exact .interrupt
  | kill signal =>
    cases h
    exact .kill signal
  | rawWrite data =>
    cases h
    exact .rawWrite data
  | _ =>
    simp only at h
    split at h
    · cases h
      constructor
      assumption
    · cases h

section Fields

variable (agent : HttpAgent Scratch)

@[simp]
theorem activeAbort_abortActive : agent.abortActive.activeAbort = agent.activeAbort := by
  unfold abortActive
  split <;> rfl

@[simp]
theorem core_abortActive : agent.abortActive.core = agent.core := by
  unfold abortActive
  split <;> rfl

end Fields

end HttpAgent

end Cordyceps.Agents
