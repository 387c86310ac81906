import Cordyceps.Agents.Types
import Cordyceps.Cli.McpStdio
import Cordyceps.Council.Panel
import Mathlib.Data.Rat.Cast.Order
import Mathlib.Tactic.Linarith

/-!
# Who gives up first

`cordy send`, the tools of the MCP bridge and `cordy council` each set a deadline for their call,
and the daemon waits for its agents up to limits of its own. All of them are made of the one
timeout that the user gives or leaves out, each in another way. Times are in milliseconds.
-/

namespace Cordyceps.Cli

open Foundations Cordyceps.Transport

/-! ## Calls -/

/-- The arguments of `client.call`. -/
structure RpcCall where
  method : JsString
  params : Json
  timeoutMs : Option ℚ

/-- When `call` gives up: `timeoutMs = 30_000`. -/
def RpcCall.deadline (request : RpcCall) : ℚ := request.timeoutMs.getD 30000

/-! ## Command lines -/

/-- `parseInt(text, 10)`; `none` is `NaN`. -/
def parseInt (text : JsString) : Option ℤ :=
  let (sign, rest) : ℤ × JsString :=
    match JsString.trimStart text with
    | [] => (1, [])
    | mark :: rest =>
      if mark = 0x2D then (-1, rest) else if mark = 0x2B then (1, rest) else (1, mark :: rest)
  let digits := rest.takeWhile CodeUnit.isDigit
  if digits.isEmpty then none else some (sign * Json.digitsValue digits)

/-- A number in `JSON.stringify`: `NaN` is `null`. -/
def numberJson (value : Option ℤ) : Json :=
  match value with
  | some value => .num value
  | none => .null

/-- The variables that `runSend` fills from its arguments. The timeout is missing, `NaN` or a
number. -/
structure SendOptions where
  timeoutMs : Option (Option ℤ)
  noWait : Bool
  stdin : Bool
  promptParts : List JsString

namespace SendOptions

def initial : SendOptions := ⟨none, false, false, []⟩

/-- The body of the loop at an argument, with the argument behind it, and whether that one is
consumed. -/
def readArg (arg : JsString) (next : Option JsString) (options : SendOptions) :
    SendOptions × Bool :=
  let value := next.getD []
  if arg = js "--timeout" && !value.isEmpty then
    ({ options with timeoutMs := some ((parseInt value).map (· * 1000)) }, true)
  else if arg = js "--no-wait" then ({ options with noWait := true }, false)
  else if arg = js "--stdin" then ({ options with stdin := true }, false)
  else ({ options with promptParts := options.promptParts ++ [arg] }, false)

/-- The loop; the flag says that the first argument was consumed as a value. -/
def readArgs : Bool → List JsString → SendOptions → SendOptions
  | _, [], options => options
  | true, _ :: rest, options => readArgs false rest options
  | false, arg :: rest, options =>
    let read := options.readArg arg rest.head?
    readArgs read.2 rest read.1

/-- `timeoutMs ? timeoutMs + 5000 : undefined`. -/
def deadline (options : SendOptions) : Option ℚ :=
  match options.timeoutMs with
  | some (some timeoutMs) => if timeoutMs = 0 then none else some (timeoutMs + 5000)
  | _ => none

end SendOptions

/-- The call of `runSend`, when there is a prompt. -/
def runSend (stdin : JsString) : List JsString → Option RpcCall
  | [] => none
  | id :: args =>
    let options := SendOptions.readArgs false args .initial
    let prompt :=
      if options.stdin then JsString.trim stdin else (js " ").intercalate options.promptParts
    if prompt.isEmpty then none
    else some
      { method := js "agents.submit"
        params := jsonObject [(js "id", some (.str id)), (js "prompt", some (.str prompt)),
          (js "timeoutMs", options.timeoutMs.map numberJson),
          (js "expectMessage", some (.bool !options.noWait))]
        timeoutMs := options.deadline }

/-- The `client.call` of `tools/call`, which gives no deadline. -/
def toolCall (params : Option Json) : Option RpcCall :=
  match callTool true none params with
  | .calls rpc args _ => some ⟨rpc, args, none⟩
  | .returns _ | .throws => none

/-- `Flags`. -/
structure CouncilFlags where
  panel : Option JsString
  chair : Option JsString
  timeoutMs : Option ℤ
  noChunk : Bool
  noChair : Bool
  staged : Bool
  scope : Option JsString
  inline : Bool
  positional : List JsString

namespace CouncilFlags

def initial : CouncilFlags := ⟨none, none, none, false, false, false, none, false, []⟩

/-- The body of the loop of `parseFlags`, and whether the argument behind is consumed; `none` is
the error about the timeout. -/
def readArg (arg : JsString) (next : Option JsString) (flags : CouncilFlags) :
    Option (CouncilFlags × Bool) :=
  let value := next.getD []
  if arg = js "--panel" && !value.isEmpty then some ({ flags with panel := some value }, true)
  else if arg = js "--chair" && !value.isEmpty then some ({ flags with chair := some value }, true)
  else if arg = js "--timeout" && !value.isEmpty then
    match parseInt value with
    | some seconds =>
      if seconds ≤ 0 then none else some ({ flags with timeoutMs := some (seconds * 1000) }, true)
    | none => none
  else if arg = js "--scope" && !value.isEmpty then some ({ flags with scope := some value }, true)
  else if arg = js "--json" then some (flags, false)
  else if arg = js "--no-chunk" then some ({ flags with noChunk := true }, false)
  else if arg = js "--no-chair" then some ({ flags with noChair := true }, false)
  else if arg = js "--staged" then some ({ flags with staged := true }, false)
  else if arg = js "--inline" then some ({ flags with inline := true }, false)
  else some ({ flags with positional := flags.positional ++ [arg] }, false)

/-- `parseFlags`; how the result is printed is left out. -/
def readArgs : Bool → List JsString → CouncilFlags → Option CouncilFlags
  | _, [], flags => some flags
  | true, _ :: rest, flags => readArgs false rest flags
  | false, arg :: rest, flags =>
    match flags.readArg arg rest.head? with
    | some read => readArgs read.2 rest read.1
    | none => none

/-- `(f.timeoutMs ?? 180_000) * 4 + 120_000`. -/
def deadline (flags : CouncilFlags) : ℚ :=
  (flags.timeoutMs.getD 180000 : ℤ) * 4 + 120000

end CouncilFlags

def parseReviewerSpec (text : JsString) : Json :=
  if JsString.includes text (js ":") then
    jsonObject [(js "driver", some (.str (text.takeWhile (· != 0x3A)))),
      (js "profile", some (.obj [(js "model", .str ((text.dropWhile (· != 0x3A)).drop 1))]))]
  else jsonObject [(js "driver", some (.str text))]

def parsePanelArg (panel : JsString) : Json :=
  .arr ((((panel.splitOn 0x2C).map JsString.trim).filter fun text ↦ !text.isEmpty).map
    parseReviewerSpec)

/-- The members that both kinds of review send. -/
def sharedParams (flags : CouncilFlags) : List (JsString × Option Json) :=
  [(js "panel", flags.panel.map parsePanelArg), (js "chair", flags.chair.map parseReviewerSpec),
    (js "timeoutMs", flags.timeoutMs.map fun timeoutMs : ℤ ↦ Json.num timeoutMs),
    (js "noChunk", some (.bool flags.noChunk)), (js "noChair", some (.bool flags.noChair))]

def runFileReview (processCwd : JsString) (flags : CouncilFlags) : Option RpcCall :=
  let path := flags.positional.head?.getD []
  if path.isEmpty then none
  else some
    { method := js "council.review"
      params := jsonObject ((js "path", some (.str path)) :: (js "cwd", some (.str processCwd)) ::
        (sharedParams flags ++ [(js "forceInline", some (.bool flags.inline))]))
      timeoutMs := some flags.deadline }

def runDiffReview (processCwd : JsString) (flags : CouncilFlags) : Option RpcCall :=
  some
    { method := js "council.review"
      params := jsonObject ((js "diff", some (jsonObject
        [(js "base", flags.positional.head?.map Json.str), (js "staged", some (.bool flags.staged)),
          (js "scope", flags.scope.map Json.str), (js "cwd", some (.str processCwd))])) ::
        sharedParams flags)
      timeoutMs := some flags.deadline }

/-- The call of `runCouncil`; flags are read before the subcommand is known. -/
def runCouncil (processCwd : JsString) : List JsString → Option RpcCall
  | [] => none
  | sub :: args =>
    match CouncilFlags.readArgs false args .initial with
    | none => none
    | some flags =>
      if sub = js "review" then runFileReview processCwd flags
      else if sub = js "diff" then runDiffReview processCwd flags
      else none

/-! ## What the daemon may take -/

/-- `DEFAULT_SUBMIT_TIMEOUT_MS` of the controller for a mode. -/
def defaultSubmitTimeout : Agents.DriverMode → ℚ
  | .pty => 120000
  | .exec => 300000
  | .serverWs => 180000
  | .serverHttp => 180000

/-- `timeoutMs ?? fallback`, when it is a number. -/
def timeLimit (fallback : ℚ) (params : Json) : Option ℚ :=
  match Json.orElse (.num fallback) (params.field (js "timeoutMs")) with
  | .num timeoutMs => some timeoutMs
  | _ => none

/-- The longest a request may take. A submit waits for the agent, `peer.ask` sets a limit of its
own before, and `council.review` waits for all reviewers at once and for the chair after. -/
def daemonTime (mode : Agents.DriverMode) (request : RpcCall) : Option ℚ :=
  if request.method = js "agents.submit" then
    timeLimit (defaultSubmitTimeout mode) request.params
  else if request.method = js "peer.ask" then timeLimit 120000 request.params
  else if request.method = js "council.review" then
    (timeLimit 180000 request.params).map fun timeoutMs ↦ timeoutMs + max timeoutMs 240000
  else none

/-- The client waits at least as long as the daemon may take. -/
def Outlasts (mode : Agents.DriverMode) (request : RpcCall) : Prop :=
  ∃ time, daemonTime mode request = some time ∧ time ≤ request.deadline

/-! ## Front ends -/

/-- What a caller says about the time. -/
inductive Supplied
  | missing
  | milliseconds (value : ℚ)
  | other

/-- No timeout, or a positive one. -/
def Supplied.Sound : Supplied → Prop
  | .missing => True
  | .milliseconds value => 0 < value
  | .other => False

/-- The tools that wait for an agent. -/
inductive WaitingTool
  | agentsSubmit
  | peerAsk

def WaitingTool.name : WaitingTool → JsString
  | .agentsSubmit => js "agents_submit"
  | .peerAsk => js "peer_ask"

/-- A use of a front end: a command with its arguments, or a tool with the object it is given. -/
inductive Front
  | send (stdin : JsString) (args : List JsString)
  | mcpTool (tool : WaitingTool) (members : List (JsString × Json))
  | council (processCwd : JsString) (args : List JsString)

namespace Front

def request : Front → Option RpcCall
  | send stdin args => runSend stdin args
  | mcpTool tool members =>
    toolCall (some (.obj [(js "name", .str tool.name), (js "arguments", .obj members)]))
  | council processCwd args => runCouncil processCwd args

/-- The timeout that is given with a use. -/
def supplied : Front → Supplied
  | send _ args =>
    match (SendOptions.readArgs false args.tail .initial).timeoutMs with
    | none => .missing
    | some none => .other
    | some (some timeoutMs) => .milliseconds timeoutMs
  | mcpTool _ members =>
    match Json.lookup (js "timeoutMs") members with
    | none | some .null => .missing
    | some (.num timeoutMs) => .milliseconds timeoutMs
    | some _ => .other
  | council _ args =>
    match (CouncilFlags.readArgs false args.tail .initial).bind CouncilFlags.timeoutMs with
    | none => .missing
    | some timeoutMs => .milliseconds timeoutMs

/-- When the deadline is long enough: `send` adds to a timeout that it is given, the bridge waits
for half a minute, and four timeouts and two minutes are enough for the council from 40
seconds on. -/
def LongEnough : Front → Supplied → Prop
  | send _ _, supplied => supplied ≠ .missing
  | mcpTool _ _, supplied => ∃ value, supplied = .milliseconds value ∧ value ≤ 30000
  | council _ _, supplied => ∀ value, supplied = .milliseconds value → 40000 ≤ value

end Front

/-! ## The timeout in a call -/

theorem field_jsonObject_of_ne {name key : JsString} (h : name ≠ key) (value : Option Json)
    (members : List (JsString × Option Json)) :
    (jsonObject ((name, value) :: members)).field key = (jsonObject members).field key := by
  cases value with
  | none => rfl
  | some value => simp [jsonObject, Json.field, Json.lookup, h]

theorem field_jsonObject_self (key : JsString) (value : Option Json)
    (members : List (JsString × Option Json)) :
    (jsonObject ((key, value) :: members)).field key =
      value.or ((jsonObject members).field key) := by
  cases value with
  | none => rfl
  | some value => simp [jsonObject, Json.field, Json.lookup]

theorem runSend_eq_some {stdin : JsString} {args : List JsString} {request : RpcCall}
    (h : runSend stdin args = some request) :
    let options := SendOptions.readArgs false args.tail .initial
    request.method = js "agents.submit" ∧ request.timeoutMs = options.deadline ∧
      request.params.field (js "timeoutMs") = options.timeoutMs.map numberJson := by
  cases args with
  | nil => cases h
  | cons id args =>
    simp only [runSend, Option.ite_none_left_eq_some, Option.some.injEq] at h
    obtain ⟨-, rfl⟩ := h
    refine ⟨rfl, rfl, ?_⟩
    rw [field_jsonObject_of_ne (by decide), field_jsonObject_of_ne (by decide),
      field_jsonObject_self, field_jsonObject_of_ne (by decide)]
    exact Option.or_none

/-- The method that a tool calls. -/
def WaitingTool.rpc : WaitingTool → JsString
  | .agentsSubmit => js "agents.submit"
  | .peerAsk => js "peer.ask"

theorem toolCall_eq (tool : WaitingTool) (members : List (JsString × Json)) :
    toolCall (some (.obj [(js "name", .str tool.name), (js "arguments", .obj members)])) =
      some ⟨tool.rpc, .obj members, none⟩ := by
  cases tool <;> rfl

/-- Both kinds of review send the timeout. -/
theorem field_sharedParams (flags : CouncilFlags) (others : List (JsString × Option Json))
    (h : (jsonObject others).field (js "timeoutMs") = none) :
    (jsonObject (sharedParams flags ++ others)).field (js "timeoutMs") =
      flags.timeoutMs.map fun timeoutMs : ℤ ↦ Json.num timeoutMs := by
  simp only [sharedParams, List.cons_append, List.nil_append]
  rw [field_jsonObject_of_ne (by decide), field_jsonObject_of_ne (by decide),
    field_jsonObject_self, field_jsonObject_of_ne (by decide), field_jsonObject_of_ne (by decide), h]
  exact Option.or_none

theorem runCouncil_eq_some {processCwd : JsString} {args : List JsString} {request : RpcCall}
    (h : runCouncil processCwd args = some request) :
    ∃ flags, CouncilFlags.readArgs false args.tail .initial = some flags ∧
      request.method = js "council.review" ∧ request.timeoutMs = some flags.deadline ∧
      request.params.field (js "timeoutMs") =
        flags.timeoutMs.map fun timeoutMs : ℤ ↦ Json.num timeoutMs := by
  cases args with
  | nil => cases h
  | cons sub args =>
    cases hflags : CouncilFlags.readArgs false args .initial with
    | none => simp [runCouncil, hflags] at h
    | some flags =>
      refine ⟨flags, hflags, ?_⟩
      simp only [runCouncil, hflags] at h
      split_ifs at h with hreview hdiff
      · simp only [runFileReview, Option.ite_none_left_eq_some, Option.some.injEq] at h
        obtain ⟨-, rfl⟩ := h
        refine ⟨rfl, rfl, ?_⟩
        rw [field_jsonObject_of_ne (by decide), field_jsonObject_of_ne (by decide)]
        exact field_sharedParams flags _ rfl
      · cases h
        refine ⟨rfl, rfl, ?_⟩
        rw [field_jsonObject_of_ne (by decide), ← List.append_nil (sharedParams flags)]
        exact field_sharedParams flags _ rfl

/-! ## When the client waits long enough -/

theorem timeLimit_of_none {fallback : ℚ} {params : Json}
    (h : params.field (js "timeoutMs") = none) : timeLimit fallback params = some fallback := by
  rw [timeLimit, h]
  rfl

theorem timeLimit_of_null {fallback : ℚ} {params : Json}
    (h : params.field (js "timeoutMs") = some .null) : timeLimit fallback params = some fallback := by
  rw [timeLimit, h]
  rfl

theorem timeLimit_of_num {fallback value : ℚ} {params : Json}
    (h : params.field (js "timeoutMs") = some (.num value)) :
    timeLimit fallback params = some value := by
  rw [timeLimit, h]
  rfl

/-- Every runtime's limit is longer than the bridge waits. -/
theorem lt_defaultSubmitTimeout (mode : Agents.DriverMode) : 30000 < defaultSubmitTimeout mode := by
  cases mode <;> norm_num [defaultSubmitTimeout]

namespace Front

theorem outlasts_send_iff {stdin : JsString} {args : List JsString} {request : RpcCall}
    (h : (send stdin args).request = some request) (hsound : (send stdin args).supplied.Sound)
    (mode : Agents.DriverMode) :
    Outlasts mode request ↔ (send stdin args).supplied ≠ .missing := by
  obtain ⟨hmethod, hdeadline, hfield⟩ := runSend_eq_some h
  have hdefault := lt_defaultSubmitTimeout mode
  simp only [Outlasts, daemonTime, if_pos hmethod, RpcCall.deadline, hdeadline]
  simp only [supplied] at hsound ⊢
  rcases htimeout : (SendOptions.readArgs false args.tail .initial).timeoutMs with _ | _ | timeoutMs
  · rw [htimeout] at hfield
    simp [timeLimit_of_none hfield, SendOptions.deadline, htimeout, hdefault]
  · simp [htimeout, Supplied.Sound] at hsound
  · rw [htimeout] at hfield hsound
    have hpos : (0 : ℚ) < timeoutMs := hsound
    have hne : timeoutMs ≠ 0 := by
      rintro rfl
      simp at hpos
    simp [timeLimit_of_num hfield, SendOptions.deadline, htimeout, hne]

theorem outlasts_tool_iff {tool : WaitingTool} {members : List (JsString × Json)}
    {request : RpcCall} (h : (mcpTool tool members).request = some request)
    (hsound : (mcpTool tool members).supplied.Sound) (mode : Agents.DriverMode) :
    Outlasts mode request ↔
      ∃ value, (mcpTool tool members).supplied = .milliseconds value ∧ value ≤ 30000 := by
  rw [Front.request, toolCall_eq, Option.some.injEq] at h
  subst h
  -- a submit and a question differ in what is taken for a missing timeout
  obtain ⟨fallback, hfallback, htime⟩ : ∃ fallback, 30000 < fallback ∧
      daemonTime mode ⟨tool.rpc, .obj members, none⟩ = timeLimit fallback (.obj members) := by
    cases tool with
    | agentsSubmit => exact ⟨_, lt_defaultSubmitTimeout mode, rfl⟩
    | peerAsk => exact ⟨120000, by norm_num, rfl⟩
  simp only [Outlasts, htime, RpcCall.deadline, Option.getD_none]
  simp only [supplied] at hsound ⊢
  cases hlookup : Json.lookup (js "timeoutMs") members with
  | none =>
    have hfield : (Json.obj members).field (js "timeoutMs") = none := hlookup
    simp [timeLimit_of_none hfield, hfallback]
  | some value =>
    have hfield : (Json.obj members).field (js "timeoutMs") = some value := hlookup
    rw [hlookup] at hsound
    cases value with
    | null => simp [timeLimit_of_null hfield, hfallback]
    | num timeoutMs => simp [timeLimit_of_num hfield]
    | bool | str | arr | obj => exact hsound.elim

theorem outlasts_council_iff {processCwd : JsString} {args : List JsString} {request : RpcCall}
    (h : (council processCwd args).request = some request)
    (hsound : (council processCwd args).supplied.Sound) (mode : Agents.DriverMode) :
    Outlasts mode request ↔
      ∀ value, (council processCwd args).supplied = .milliseconds value → 40000 ≤ value := by
  obtain ⟨flags, hflags, hmethod, hdeadline, hfield⟩ := runCouncil_eq_some h
  have htime : daemonTime mode request =
      (timeLimit 180000 request.params).map fun timeoutMs ↦ timeoutMs + max timeoutMs 240000 := by
    rw [daemonTime, if_neg (by rw [hmethod]; decide), if_neg (by rw [hmethod]; decide),
      if_pos hmethod]
  simp only [Outlasts, htime, RpcCall.deadline, hdeadline, Option.getD_some]
  simp only [supplied, hflags, Option.bind_some] at hsound ⊢
  cases htimeout : flags.timeoutMs with
  | none =>
    rw [htimeout] at hfield
    have hlimit : (180000 : ℚ) + max 180000 240000 ≤ 180000 * 4 + 120000 := by norm_num
    simpa [timeLimit_of_none hfield, CouncilFlags.deadline, htimeout] using hlimit
  | some timeoutMs =>
    rw [htimeout] at hfield hsound
    have hpos : (0 : ℚ) < timeoutMs := hsound
    have hlimit : (timeoutMs : ℚ) + max (timeoutMs : ℚ) 240000 ≤ timeoutMs * 4 + 120000 ↔
        (40000 : ℚ) ≤ timeoutMs := by
      rcases le_total (timeoutMs : ℚ) 240000 with hle | hle
      · rw [max_eq_right hle]
        constructor <;> intro hsum <;> linarith
      · rw [max_eq_left hle]
        constructor <;> intro hsum <;> linarith
    simpa [timeLimit_of_num hfield, CouncilFlags.deadline, htimeout] using hlimit

end Front

/-- The client waits long enough exactly when `send` is given a timeout, the bridge one of at most
half a minute, and the council none or one of at least 40 seconds. -/
theorem outlasts_iff {front : Front} {request : RpcCall} (h : front.request = some request)
    (hsound : front.supplied.Sound) (mode : Agents.DriverMode) :
    Outlasts mode request ↔ front.LongEnough front.supplied := by
  cases front with
  | send stdin args => exact Front.outlasts_send_iff h hsound mode
  | mcpTool tool members => exact Front.outlasts_tool_iff h hsound mode
  | council processCwd args => exact Front.outlasts_council_iff h hsound mode

/-- `cordy send a hi --timeout 10`. -/
theorem outlasts_send_ten : ∃ request,
    (Front.send [] [js "a", js "hi", js "--timeout", js "10"]).request = some request ∧
      Outlasts .exec request := by
  obtain ⟨request, hrequest⟩ : ∃ request,
      (Front.send [] [js "a", js "hi", js "--timeout", js "10"]).request = some request := ⟨_, rfl⟩
  have hsupplied : (Front.send [] [js "a", js "hi", js "--timeout", js "10"]).supplied =
      .milliseconds ((10000 : ℤ) : ℚ) := rfl
  refine ⟨request, hrequest, (outlasts_iff hrequest ?_ .exec).mpr ?_⟩
  · rw [hsupplied, Supplied.Sound]
    norm_num
  · rw [hsupplied]
    exact Supplied.noConfusion

/-- `cordy send a hi` gives up on an agent in `exec` mode after half a minute, and the daemon
after five. -/
theorem outlasts_counterexample :
    ¬ ∀ (front : Front) (request : RpcCall) (mode : Agents.DriverMode),
      front.request = some request → front.supplied.Sound → Outlasts mode request := by
  intro h
  obtain ⟨request, hrequest⟩ : ∃ request,
      (Front.send [] [js "a", js "hi"]).request = some request := ⟨_, rfl⟩
  exact (Front.outlasts_send_iff hrequest trivial .exec).mp (h _ request .exec hrequest trivial) rfl

end Cordyceps.Cli
