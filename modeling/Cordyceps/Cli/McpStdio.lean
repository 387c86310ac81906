import Cordyceps.Cli.Client

/-!
# The MCP bridge

`cli/commands/mcp-stdio.ts`: `runMcpStdio` from the connection to the daemon on, as a step machine.
Every line of stdin starts a handler of its own. Only a tool call waits, for the client's
promise; its answer may come in any order, next to other lines and the end of stdin.
-/

namespace Cordyceps.Cli

open Foundations Cordyceps.Transport

/-! ## Tools -/

/-- A tool, with the parts of its `inputSchema` that differ. -/
structure McpTool where
  name : JsString
  description : JsString
  properties : List (JsString × Json)
  required : List JsString
  rpc : JsString

def property (name type : JsString) : JsString × Json := (name, .obj [(js "type", .str type)])

def describedProperty (name type description : JsString) : JsString × Json :=
  (name, .obj [(js "type", .str type), (js "description", .str description)])

/-- `TOOLS`. -/
def tools : List McpTool :=
  [{ name := js "agents_list"
     description := js "List all agents currently alive in the cordy daemon."
     properties := []
     required := []
     rpc := js "agents.list" },
   { name := js "agents_spawn"
     description := js "Spawn a new agent. Returns AgentInfo with the assigned id."
     properties :=
       [describedProperty (js "driverId") (js "string")
          (js "Driver id or alias (e.g. 'claude', 'codex', 'gemini', 'ollama')"),
        describedProperty (js "id") (js "string")
          (js "Optional agent id — auto-generated if omitted"),
        describedProperty (js "cwd") (js "string")
          (js "Working directory for the agent (default: daemon cwd)"),
        describedProperty (js "profile") (js "object")
          (js "Driver-specific profile (model, preset, etc.)")]
     required := [js "driverId"]
     rpc := js "agents.spawn" },
   { name := js "agents_submit"
     description := js "Submit a prompt to an agent and wait for its reply."
     properties :=
       [describedProperty (js "id") (js "string") (js "Agent id"),
        describedProperty (js "prompt") (js "string") (js "Prompt text"),
        describedProperty (js "timeoutMs") (js "number") (js "Max wait (default 120_000)"),
        describedProperty (js "expectMessage") (js "boolean")
          (js "Wait for message (default true). Set false for fire-and-forget.")]
     required := [js "id", js "prompt"]
     rpc := js "agents.submit" },
   { name := js "agents_state"
     description := js "Get the current AgentState snapshot for an agent."
     properties := [describedProperty (js "id") (js "string") (js "Agent id")]
     required := [js "id"]
     rpc := js "agents.state" },
   { name := js "agents_transcript"
     description := js "Return an agent's assistant-message transcript."
     properties :=
       [describedProperty (js "id") (js "string") (js "Agent id"),
        describedProperty (js "last") (js "number") (js "Limit to the last N messages")]
     required := [js "id"]
     rpc := js "agents.transcript" },
   { name := js "agents_interrupt"
     description := js "Interrupt an agent that's busy (Escape / SIGTERM depending on driver)."
     properties := [property (js "id") (js "string")]
     required := [js "id"]
     rpc := js "agents.interrupt" },
   { name := js "agents_kill"
     description := js "Kill an agent. The runtime is torn down."
     properties :=
       [property (js "id") (js "string"),
        describedProperty (js "signal") (js "string") (js "Signal (default SIGTERM)")]
     required := [js "id"]
     rpc := js "agents.kill" },
   { name := js "drivers_list"
     description := js "List all drivers known to the daemon, with probe results."
     properties := []
     required := []
     rpc := js "drivers.list" },
   { name := js "bus_get"
     description := js "Read a value from the service bus key/value store."
     properties := [property (js "key") (js "string")]
     required := [js "key"]
     rpc := js "bus.get" },
   { name := js "bus_get_by_prefix"
     description := js "Return all bus entries whose key starts with `prefix`."
     properties := [property (js "prefix") (js "string")]
     required := [js "prefix"]
     rpc := js "bus.getByPrefix" },
   { name := js "peer_ask"
     description := js "Agent `from` asks agent `to` a question and returns the reply. " ++
       js "Blocks up to timeoutMs (default 120s)."
     properties :=
       [describedProperty (js "from") (js "string") (js "Sender agent id"),
        describedProperty (js "to") (js "string") (js "Recipient agent id"),
        describedProperty (js "text") (js "string") (js "Question text"),
        describedProperty (js "timeoutMs") (js "number") (js "Max wait (default 120_000)")]
     required := [js "from", js "to", js "text"]
     rpc := js "peer.ask" },
   { name := js "peer_tell"
     description := js "Agent `from` notifies agent `to` — fire-and-forget, no reply expected."
     properties := [property (js "from") (js "string"), property (js "to") (js "string"),
       property (js "text") (js "string")]
     required := [js "from", js "to", js "text"]
     rpc := js "peer.tell" },
   { name := js "daemons_list"
     description := js "List all cordy daemons running on this host " ++
       js "(for cross-daemon coordination). Tokens are NOT returned."
     properties := []
     required := []
     rpc := js "daemons.list" }]

namespace McpTool

/-- The tool as `tools/list` shows it: without `_rpc`. -/
def shown (tool : McpTool) : Json :=
  jsonObject [(js "name", some (.str tool.name)), (js "description", some (.str tool.description)),
    (js "inputSchema", some (jsonObject [(js "type", some (.str (js "object"))),
      (js "properties", some (.obj tool.properties)),
      (js "required", if tool.required.isEmpty then none
        else some (.arr (tool.required.map Json.str)))]))]

end McpTool

/-! ## Responses -/

/-- `id ?? null`. -/
def idOrNull (id : Option Json) : Json := Json.orElse .null id

/-- `okResponse`. -/
def okResponse (id : Option Json) (result : Json) : Json :=
  envelope [(js "id", some (idOrNull id)), (js "result", some result)]

/-- `errResponse`; no caller has data. -/
def errResponse (id : Option Json) (code : ℤ) (message : JsString) : Json :=
  envelope [(js "id", some (idOrNull id)),
    (js "error", some (.obj [(js "code", .num code), (js "message", .str message)]))]

/-- An error whose message ends with a value of the request. If `ToString` throws on the value, the
`catch` of `handleLine` answers. -/
def errWithValue (id : Option Json) (code : ℤ) (message : JsString) (value : Option Json) : Json :=
  match value with
  | none => errResponse id code (message ++ js "undefined")
  | some value =>
    if value.hasText then errResponse id code (message ++ value.toText)
    else errResponse id (-32603) (js "Internal error: Cannot convert object to primitive value")

def mcpProtocolVersion : JsString := js "2024-11-05"

/-- The result of `initialize`. -/
def serverInfo (version : JsString) : Json :=
  .obj [(js "protocolVersion", .str mcpProtocolVersion),
    (js "capabilities", .obj [(js "tools", .obj [])]),
    (js "serverInfo", .obj [(js "name", .str (js "cordy")), (js "version", .str version)])]

/-- The result of `tools/list`. -/
def toolList : Json := .obj [(js "tools", .arr (tools.map McpTool.shown))]

/-- `content: [{ type: "text", text }]`. -/
def textContent (text : Option JsString) : Json :=
  .arr [jsonObject [(js "type", some (.str (js "text"))), (js "text", text.map Json.str)]]

/-- The message of the error that `client.call` rejects with. -/
def CallError.message (rpc : JsString) : CallError → JsString
  | .rpcError _ message _ => (message.map Json.toText).getD []
  | .timedOut => js "call " ++ rpc ++ js " timed out after 30000ms"
  | .connectionClosed => js "Connection closed"
  -- parameters that were parsed are serialisable
  | .notSerialisable => []

/-- The response to a tool call, with what came of it. -/
def toolResponse (id : Option Json) (result : Option Json) : Json :=
  okResponse id (.obj [(js "content", textContent (result.map (Json.stringifyIndented 0)))])

def toolErrorResponse (rpc : JsString) (id : Option Json) (error : CallError) : Json :=
  okResponse id (.obj [(js "isError", .bool true),
    (js "content", textContent (some (js "cordy error: " ++ error.message rpc)))])

/-! ## One line -/

/-- What `handleLine` does before it first waits: return, having written these responses, call the
daemon, or throw. -/
inductive Handling
  | returns (responses : List Json)
  | calls (rpc : JsString) (args : Json) (id : Option Json)
  | throws

/-- `TOOLS.find((t) => t.name === toolName)`. -/
def findTool (toolName : Option Json) : Option McpTool :=
  tools.find? fun tool ↦ toolName = some (.str tool.name)

/-- `tools/call`. -/
def callTool (connected : Bool) (id params : Option Json) : Handling :=
  let toolName := params.bind (Json.field (js "name"))
  let args := Json.orElse (.obj []) (params.bind (Json.field (js "arguments")))
  match findTool toolName with
  | none => .returns [errWithValue id (-32601) (js "Unknown tool: ") toolName]
  | some tool =>
    if connected then .calls tool.rpc args id
    else .returns [errResponse id (-32000)
      (js "cordy daemon not reachable (is `cordy daemon start` running?)")]

/-- The branch `default`. -/
def unknownMethod (id method : Option Json) : Handling :=
  match id with
  | none => .returns []
  | some id => .returns [errWithValue (some id) (-32601) (js "Method not found: ") method]

/-- `handleLine` with the parsed request. -/
def handleRequest (version : JsString) (connected : Bool) (req : Json) : Handling :=
  let id := req.field (js "id")
  let method := req.field (js "method")
  -- `null` has no members: reading `req.method` throws, and so does reading `req.id` in the `catch`
  if req.isNull then .throws
  else if method = some (.str (js "initialize")) then .returns [okResponse id (serverInfo version)]
  else if method = some (.str (js "notifications/initialized")) then .returns []
  else if method = some (.str (js "tools/list")) then .returns [okResponse id toolList]
  else if method = some (.str (js "tools/call")) then
    callTool connected id (req.field (js "params"))
  else if method = some (.str (js "ping")) then .returns [okResponse id (.obj [])]
  else unknownMethod id method

/-- `handleLine`. -/
def handleLine (version : JsString) (connected : Bool) (line : JsString) : Handling :=
  match Json.parse line with
  | none => .returns [errResponse none (-32700) (js "Parse error")]
  | some req => handleRequest version connected req

/-! ## The bridge -/

/-- Where the handler of a line stands: in `client.call`, behind `handleLine` with the `finally` block
still to run, or at its end. -/
inductive HandlerPhase
  | awaiting (call : ℕ) (rpc : JsString) (id : Option Json)
  | returned
  | threw
  | ended (rejected : Bool)
  deriving DecidableEq

/-- `responses` observes what the handler wrote to stdout. -/
structure LineHandler where
  line : JsString
  phase : HandlerPhase
  responses : List Json

/-- The locals of `runMcpStdio`. `allDone` tells that its promise is resolved. -/
structure Bridge where
  version : JsString
  client : Option RpcClient
  handlers : List LineHandler
  pending : ℕ
  closed : Bool
  allDone : Bool
  returned : Bool
  crashed : Bool

/-- One turn; numbers name the handler or the client's call. `frame`, `timer` and `disconnected` are
the client's own, `closed` is `close` of the reader or `end` of stdin. -/
inductive BridgeEvent
  | line (text : JsString)
  | frame (msg : Json)
  | timer (call : ℕ)
  | disconnected
  | resume (k : ℕ)
  | settled (k : ℕ)
  | closed
  | finish
  | unhandled (k : ℕ)

namespace Bridge

/-- The handlers of stdin are registered; without a daemon there is no client. -/
def start (version : JsString) (client : Option RpcClient) : Bridge :=
  ⟨version, client, [], 0, false, false, false, false⟩

def onHandler (k : ℕ) (change : LineHandler → LineHandler) (bridge : Bridge) : Bridge :=
  { bridge with handlers := bridge.handlers.modify k change }

/-- `maybeFinish`. -/
def maybeFinish (bridge : Bridge) : Bridge :=
  if bridge.closed ∧ bridge.pending = 0 then { bridge with allDone := true } else bridge

/-- The listener of `line`, up to where the handler waits. -/
def onLine (line : JsString) (bridge : Bridge) : Bridge :=
  let counted := { bridge with pending := bridge.pending + 1 }
  match handleLine bridge.version bridge.client.isSome line with
  | .returns responses =>
    { counted with handlers := bridge.handlers ++ [⟨line, .returned, responses⟩] }
  | .throws => { counted with handlers := bridge.handlers ++ [⟨line, .threw, []⟩] }
  | .calls rpc args id =>
    let call := (bridge.client.map fun client ↦ client.calls.length).getD 0
    { counted with
      client := bridge.client.map (RpcClient.call rpc (some args))
      handlers := bridge.handlers ++ [⟨line, .awaiting call rpc id, []⟩] }

/-- The continuation of `await client.call`: the last response of the handler. -/
def respond (response : Json) (handler : LineHandler) : LineHandler :=
  { handler with phase := .returned, responses := handler.responses ++ [response] }

/-- What came of a call. -/
def fateOf (bridge : Bridge) (call : ℕ) : CallFate :=
  ((bridge.client.bind fun client ↦ client.calls[call]?).map fun call ↦ call.promise.fate).getD
    .pending

def resume (k : ℕ) (bridge : Bridge) : Option Bridge :=
  match bridge.handlers[k]?.map LineHandler.phase with
  | some (.awaiting call rpc id) =>
    match bridge.fateOf call with
    | .pending => none
    | .fulfilled result => some (bridge.onHandler k (respond (toolResponse id result)))
    | .rejected error => some (bridge.onHandler k (respond (toolErrorResponse rpc id error)))
  | _ => none

/-- The `finally` block of a handler. -/
def settle (k : ℕ) (rejected : Bool) (bridge : Bridge) : Bridge :=
  ({ bridge with pending := bridge.pending - 1 }.onHandler k fun handler ↦
    { handler with phase := .ended rejected }).maybeFinish

/-- One turn. An event that cannot happen in a state has no successor; the reader has no lines behind
its `close`. -/
def step (bridge : Bridge) (event : BridgeEvent) : Option Bridge :=
  if bridge.crashed ∨ bridge.returned then none
  else
    match event with
    | .line text => if bridge.closed then none else some (bridge.onLine text)
    | .frame msg => bridge.client.map fun client ↦
      { bridge with client := some (client.onMessage msg) }
    | .timer call => (bridge.client.filter fun client ↦ client.calls[call]?.any Call.timer).map
      fun client ↦ { bridge with client := some (client.timeOut call) }
    | .disconnected => bridge.client.map fun client ↦ { bridge with client := some client.onClose }
    | .resume k => bridge.resume k
    | .settled k =>
      match bridge.handlers[k]?.map LineHandler.phase with
      | some .returned => some (bridge.settle k false)
      | some .threw => some (bridge.settle k true)
      | _ => none
    | .closed => some { bridge with closed := true }.maybeFinish
    | .finish => if bridge.allDone then some { bridge with returned := true } else none
    -- nobody observes the promise of a handler, so the process ends with its rejection
    | .unhandled k =>
      if bridge.handlers[k]?.map LineHandler.phase = some (.ended true) then
        some { bridge with crashed := true }
      else none

end Bridge

end Cordyceps.Cli
