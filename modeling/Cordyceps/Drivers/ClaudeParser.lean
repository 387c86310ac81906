import Cordyceps.Core.Ansi
import Cordyceps.Drivers.Api

/-!
# The Claude parser

`drivers/claude/parser.ts` reads the terminal output of Claude Code. A chunk is
cleaned of escape sequences and goes through eight small parsers, each of which
looks for one kind of line. A message starts at its marker, is redrawn and
continued by later chunks, and is emitted when a status line or an empty chunk
ends it.
-/

namespace Cordyceps.Drivers

open Foundations Foundations.Regex Agents Cordyceps.Core

/-- The status of a task in Claude's task list. -/
inductive TaskStatus
  | pending
  | inProgress
  | completed
  deriving DecidableEq, Repr

/-- The parser's own memory. -/
structure ClaudeScratch where
  buffer : JsString
  capturingMessage : Bool
  messageBuf : JsString
  tasks : JsMap JsString TaskStatus

/-! ## Patterns -/

namespace ClaudeTui

/-- `\u23F5`, the mode glyph. -/
def modeMarker : CodeUnit := 0x23F5

/-- `\u23F8`, the plan mode glyph. -/
def modePaused : CodeUnit := 0x23F8

/-- The permission modes as the mode line words them. -/
def modeWords (auto : String) : Regex :=
  anyOf [literal "bypass permissions", literal "accept edits", literal "plan mode",
    literal "default", literal auto,
    cat [literal "don", .single fun unit ↦ unit == 0x27 || unit == 0x2019, literal "t ask"]]

def modeGlyphs : Regex :=
  .group 1 (repeated1 true fun unit ↦ unit == modeMarker || unit == modePaused)

/-- `MODE_RE_FULL`. -/
def modeFull : Regex :=
  cat [modeGlyphs, spaces, .group 2 (modeWords "auto"), spaces, repeated1 true CodeUnit.isWord,
    .repeated false CodeUnit.isDot, .group 3 digits, spaces, literal "file", optional (literal "s"),
    spaces, literal "+", .group 4 digits, spaces, literal "-", .group 5 digits]

/-- `MODE_RE_MIN`. -/
def modeMin : Regex := cat [modeGlyphs, spaces, .group 2 (modeWords "auto mode"), .wordBoundary]

/-- The spinner glyphs that `parseMessage` knows. -/
def isSpinner (unit : CodeUnit) : Bool :=
  [0x2722, 0x2736, 0x273D, 0x273B, 0x2726, 0x2727, 0x2723, 0x280B, 0x2819, 0x2839, 0x2838, 0x283C,
    0x2834, 0x2826, 0x2827, 0x2807, 0x280F].contains unit

/-- The spinner glyphs of `ACTIVITY_RE`: eight more. -/
def isActivity (unit : CodeUnit) : Bool :=
  isSpinner unit ||
    [0x28BE, 0x28BD, 0x28BB, 0x28BF, 0x28FF, 0x28DF, 0x28EF, 0x28F7].contains unit

/-- `\(([^)]+)\)`: a parenthesis, captured without its brackets. -/
def parenthesis (index : ℕ) : Regex :=
  cat [literal "(", .group index (repeated1 true (CodeUnit.notAmong ")")), literal ")"]

/-- `ACTIVITY_RE`. -/
def activity : Regex :=
  cat [.single isActivity, spaces, .group 1 (repeated1 false CodeUnit.isDot),
    .repeated true JsString.isSpace, parenthesis 2]

/-- `\u23BF`, the result glyph. -/
def resultMarker : CodeUnit := 0x23BF

/-- `RESULT_RE`. -/
def result : Regex :=
  cat [.single (· == resultMarker), spaces,
    .group 1 (.seq (.single (!JsString.isSpace ·)) (.repeated false CodeUnit.isDot)),
    .repeated true JsString.isSpace, parenthesis 2]

/-- `\u25CF`, the message marker. -/
def messageMarker : CodeUnit := 0x25CF

/-- `MSG_START_RE`. -/
def messageStart : Regex := cat [.single (· == messageMarker), spaces]

/-- What ends the first line of a message: a return, or a glyph of the status lines. -/
def isTerminator (unit : CodeUnit) : Bool :=
  unit == 0x0D || unit == resultMarker || unit == modeMarker || unit == modePaused ||
    isSpinner unit

/-- `/^([^\r...]*)/`: the text up to the first terminator. -/
def untilTerminator : Regex :=
  cat [.lineStart false, .group 1 (.repeated true (!isTerminator ·))]

/-- `/^[\u23BF\u2722\u2736\u23F5\u23F8]/`: a line that ends a message. -/
def messageEnd : Regex :=
  cat [.lineStart false, .single fun unit ↦ unit == resultMarker || unit == 0x2722 ||
    unit == 0x2736 || unit == modeMarker || unit == modePaused]

/-- `TOOL_BLOCK_RE`. -/
def toolBlock : Regex :=
  cat [anyOf [literal "Allow", literal "Approve"], .repeated true CodeUnit.isDot, literal "?",
    .repeated true JsString.isSpace, optional (literal "("), .single (CodeUnit.among "yYnN")]

/-- `PLAN_BLOCK_RE`. -/
def planBlock : Regex :=
  anyOf [cat [literalIgnoreCase "plan", .wordBoundary, .repeated true CodeUnit.isDot,
      .wordBoundary, literalIgnoreCase "approve"],
    literalIgnoreCase "exit plan mode", literalIgnoreCase "ExitPlanMode"]

/-- `CONFIRM_BLOCK_RE`. -/
def confirmBlock : Regex :=
  anyOf [literalIgnoreCase "Do you want to proceed", literalIgnoreCase "Are you sure",
    literalIgnoreCase "Continue?"]

/-- The glyphs of the task list and the status they stand for; all others are pending. -/
def taskStatus (glyph : JsString) : TaskStatus :=
  if glyph = [0x25FC] then .inProgress
  else if glyph = [0x2714] || glyph = [0x2713] || glyph = [0x2611] then .completed
  else .pending

/-- `TASK_LINE_RE`. -/
def taskLine : Regex :=
  cat [.lineStart false, .repeated true JsString.isSpace,
    .group 1 (.single fun unit ↦ [0x25FC, 0x25FB, 0x2714, 0x2713, 0x2611].contains unit),
    spaces, .group 2 (repeated1 true CodeUnit.isDot)]

/-- `MODEL_RE`. -/
def model : Regex :=
  cat [optional (literalIgnoreCase "claude-"),
    anyOf [literalIgnoreCase "opus", literalIgnoreCase "sonnet", literalIgnoreCase "haiku"],
    .single fun unit ↦ JsString.isSpace unit || unit == 0x2D,
    repeated1 true fun unit ↦ CodeUnit.isDigit unit || unit == 0x2E]

/-- `CONTEXT_RE`. -/
def context : Regex :=
  cat [literal "Context left until auto-compact:", .repeated true JsString.isSpace,
    .group 1 digits, literal "%"]

/-- `CLAUDE_TUI.patterns.promptReady`: the cursor parked at `\u276F`. -/
def promptReady : Regex :=
  cat [.single (· == 0x276F), .repeated true JsString.isSpace, .lineEnd true]

/-- `/^\d+\s+tool\s+uses?$/` -/
def toolUses : Regex :=
  cat [.lineStart false, digits, spaces, literal "tool", spaces, literal "use",
    optional (literal "s"), .lineEnd false]

/-- `/tokens$/` -/
def tokens : Regex := cat [literal "tokens", .lineEnd false]

/-- `/^thought\s+for\s+/.test(seg) || /thinking$/.test(seg)` -/
def thought : Regex :=
  anyOf [cat [.lineStart false, literal "thought", spaces, literal "for", spaces],
    cat [literal "thinking", .lineEnd false]]

/-- `/^\d+[smh]$|^\d+m\s*\d+s$/` -/
def duration : Regex :=
  anyOf [cat [.lineStart false, digits, .single (CodeUnit.among "smh"), .lineEnd false],
    cat [.lineStart false, digits, literal "m", .repeated true JsString.isSpace, digits,
      literal "s", .lineEnd false]]

/-- `/([\d.]+)(k?)\s*tokens/` -/
def tokenCount : Regex :=
  cat [.group 1 (repeated1 true fun unit ↦ CodeUnit.isDigit unit || unit == 0x2E),
    .group 2 (optional (literal "k")), .repeated true JsString.isSpace, literal "tokens"]

end ClaudeTui

namespace ClaudeParser

def initialState : AgentState where
  status := .starting
  model := some (.str [])
  mode := some (js "default")
  lastMessage := none
  activity := none
  blocking := none
  tokens := some ⟨.num 0, none⟩
  extra := some [(js "files", .obj [(js "count", .num 0), (js "added", .num 0),
    (js "removed", .num 0)])]

/-- What a feed has put together so far. `next` is the copied state, `changed` tells whether it
will be returned. -/
structure Draft where
  next : AgentState
  events : List ParserEvent
  messages : List AssistantMessage
  changed : Bool

namespace Draft

/-- `events.push(event)`. -/
def push (event : ParserEvent) (draft : Draft) : Draft :=
  { draft with events := draft.events ++ [event] }

/-- A parser that returns `true` with this state. -/
def change (next : AgentState) (draft : Draft) : Draft :=
  { draft with next := next, changed := true }

/-- Publish a message: `lastMessage`, the message and its event. -/
def emit (now : Timestamp) (text : JsString) (draft : Draft) : Draft :=
  { draft with
    next := { draft.next with lastMessage := some text }
    messages := draft.messages ++ [⟨text, now, none⟩]
    events := draft.events ++ [messageEvent text] }

end Draft

/-- The members of an object literal that are not `undefined`. -/
def object (members : List (JsString × Option Json)) : Json :=
  .obj (members.filterMap fun (key, value) ↦ value.map (Prod.mk key))

/-- `parseInt(text, 10)` of a text that starts with digits. -/
def parseInt (text : JsString) : ℕ := Json.digitsValue (text.takeWhile CodeUnit.isDigit)

/-- `parseFloat` of a text of digits and points; `none` is `NaN`. -/
def parseFloat (text : JsString) : Option ℚ :=
  let whole := text.takeWhile CodeUnit.isDigit
  let fraction := match text.dropWhile CodeUnit.isDigit with
    | 0x2E :: rest => rest.takeWhile CodeUnit.isDigit
    | _ => []
  if whole.isEmpty && fraction.isEmpty then none
  else some (Json.digitsValue (whole ++ fraction) / 10 ^ fraction.length)

/-! ## The parsers -/

/-- The mode that a mode line stands for. -/
def modeOf (glyphs label : JsString) : JsString :=
  if glyphs = [ClaudeTui.modeMarker, ClaudeTui.modeMarker] ∨ JsString.includes label (js "bypass") then
    js "bypassPermissions"
  else if JsString.includes label (js "auto") then js "auto"
  else if glyphs = [ClaudeTui.modePaused] ∨ JsString.includes label (js "plan") then js "plan"
  else if JsString.includes label (js "accept") then js "acceptEdits"
  else if JsString.includes label (js "don") then js "dontAsk"
  else js "default"

/-- The file counts of a full mode line. -/
def filesOf (full : Match) : Json :=
  .obj [(js "count", .num (parseInt (full.text 3))), (js "added", .num (parseInt (full.text 4))),
    (js "removed", .num (parseInt (full.text 5)))]

/-- `parseMode`. -/
def parseMode (clean : JsString) (draft : Draft) : Draft :=
  let full := ClaudeTui.modeFull.exec clean
  match full.or (ClaudeTui.modeMin.exec clean) with
  | none => draft
  | some found =>
    let mode := modeOf (found.text 1) (JsString.toLowerCase (found.text 2))
    let prevMode := draft.next.mode
    let next := setExtra (js "uiReady") (.bool true) { draft.next with mode := some mode }
    let next := match full with
      | some full => setExtra (js "files") (filesOf full) next
      | none => next
    if prevMode ≠ some mode then
      (draft.change next).push ⟨js "mode.changed",
        object [(js "from", prevMode.map Json.str), (js "to", some (.str mode))]⟩
    else draft.change next

/-- The statistics of a status line, in the order in which they were set. -/
abbrev Stats := List (JsString × Json)

/-- One segment of the statistics. -/
def addSegment (stats : Stats) (segment : JsString) : Stats :=
  if ClaudeTui.toolUses.test segment then
    Json.insert (js "toolUses") (.num (parseInt segment)) stats
  else if ClaudeTui.tokens.test segment then Json.insert (js "tokens") (.str segment) stats
  else if ClaudeTui.thought.test segment then Json.insert (js "thought") (.str segment) stats
  else if ClaudeTui.duration.test segment then Json.insert (js "duration") (.str segment) stats
  else stats

/-- `parseStats`. -/
def parseStats (raw : JsString) : Stats :=
  ((raw.splitOn 0xB7).map JsString.trim).foldl addSegment []

def statText (key : String) (stats : Stats) : Option JsString :=
  stringOf (Json.lookup (js key) stats)

/-- `parseTokenCount`; `none` is `NaN`. -/
def parseTokenCount (text : JsString) : Option ℚ :=
  match ClaudeTui.tokenCount.exec text with
  | none => some 0
  | some found =>
    (parseFloat (found.text 1)).map fun value ↦
      if found.text 2 = js "k" then value * 1000 else value

/-- `count > used`. -/
def exceeds (count : Option ℚ) (used : Json) : Bool :=
  match count, used.toNumber with
  | some count, some used => used < count
  | _, _ => false

/-- `if (!next.tokens) next.tokens = { used: 0 }`. -/
def tokensOf (state : AgentState) : Tokens := state.tokens.getD ⟨.num 0, none⟩

/-- The token count of a status line raises the count of the state. -/
def raiseTokens (stats : Stats) (next : AgentState) : AgentState :=
  match statText "tokens" stats with
  | none => next
  | some text =>
    let count := parseTokenCount text
    let tokens := tokensOf next
    if exceeds count tokens.used then
      { next with tokens := some { tokens with used := .num (count.getD 0) } }
    else { next with tokens := some tokens }

/-- `parseActivity`. -/
def parseActivity (clean : JsString) (draft : Draft) : Draft :=
  match ClaudeTui.activity.exec clean with
  | none => draft
  | some found =>
    let stats := parseStats (found.text 2)
    let next := raiseTokens stats { draft.next with
      activity := some ⟨found.text 1, statText "duration" stats, statText "tokens" stats⟩ }
    (draft.change { next with blocking := none }).push
      ⟨js "activity", .obj [(js "label", .str (found.text 1)), (js "stats", .obj stats)]⟩

/-- `parseResult`. -/
def parseResult (clean : JsString) (draft : Draft) : Draft :=
  match ClaudeTui.result.exec clean with
  | none => draft
  | some found =>
    let stats := parseStats (found.text 2)
    let next := raiseTokens stats draft.next
    (draft.change { next with activity := none }).push
      ⟨js "result", .obj [(js "summary", .str (found.text 1)), (js "stats", .obj stats)]⟩

/-- The text after the message marker, up to the first terminator. -/
def firstText (clean : JsString) : JsString :=
  let afterMarker := ClaudeTui.messageStart.replaceFirst [] clean
  JsString.trim (((ClaudeTui.untilTerminator.exec afterMarker).bind (Match.capture 1)).getD
    afterMarker)

/-- Emit a finished message, unless it is blank or the one published last. -/
def finish (now : Timestamp) (buffered : JsString) (draft : Draft) : Draft :=
  let text := JsString.trim buffered
  if text ≠ [] ∧ some text ≠ draft.next.lastMessage then draft.emit now text else draft

/-- The branch of `parseMessage` for a chunk with a message marker. -/
def onMarker (now : Timestamp) (text : JsString) (draft : Draft) (scratch : ClaudeScratch) :
    Draft × ClaudeScratch :=
  let unblock (draft : Draft) : Draft := draft.change { draft.next with blocking := none }
  if scratch.capturingMessage && !scratch.messageBuf.isEmpty then
    let prev := scratch.messageBuf
    if JsString.startsWith text prev || JsString.startsWith prev text then
      -- the same message drawn again: the longer version is kept
      (unblock draft, { scratch with
        messageBuf := if text.length > prev.length then text else prev })
    else (unblock (finish now prev draft), { scratch with messageBuf := text })
  else (unblock draft, { scratch with messageBuf := text, capturingMessage := true })

/-- `parseMessage`. -/
def parseMessage (now : Timestamp) (clean : JsString) (draft : Draft) (scratch : ClaudeScratch) :
    Draft × ClaudeScratch :=
  if ClaudeTui.messageStart.test clean then onMarker now (firstText clean) draft scratch
  else if scratch.capturingMessage then
    if clean.isEmpty || ClaudeTui.messageEnd.test clean then
      let finished := finish now scratch.messageBuf draft
      ({ finished with changed := true }, { scratch with messageBuf := [], capturingMessage := false })
    else (draft, { scratch with messageBuf := scratch.messageBuf ++ newline :: clean })
  else (draft, scratch)

def kindText : BlockKind → JsString
  | .toolApproval => js "tool-approval"
  | .planApproval => js "plan-approval"
  | .confirmation => js "confirmation"
  | .picker => js "picker"
  | .auth => js "auth"
  | .unknown => js "unknown"

/-- The kind of prompt that a chunk shows. -/
def blockKind (clean : JsString) : Option BlockKind :=
  if ClaudeTui.toolBlock.test clean then some .toolApproval
  else if ClaudeTui.planBlock.test clean then some .planApproval
  else if ClaudeTui.confirmBlock.test clean then some .confirmation
  else none

/-- `parseBlocking`. -/
def parseBlocking (clean : JsString) (draft : Draft) : Draft :=
  match blockKind clean with
  | none => draft
  | some kind =>
    (draft.change { draft.next with
      blocking := some ⟨kind, some (clean.take 200)⟩
      status := .blocked }).push ⟨js "blocked", .obj [(js "kind", .str (kindText kind))]⟩

/-- The task that a line of the task list names. -/
def taskOf (line : JsString) : Option (JsString × TaskStatus) :=
  (ClaudeTui.taskLine.exec line).map fun found ↦
    (JsString.trim (found.text 2), ClaudeTui.taskStatus (found.text 1))

def statusText : TaskStatus → JsString
  | .pending => js "pending"
  | .inProgress => js "in_progress"
  | .completed => js "completed"

/-- The summary of the task list. -/
def taskSummary (tasks : JsMap JsString TaskStatus) : Json :=
  let items := tasks.entries
  let count (status : TaskStatus) : Json := .num (items.countP fun entry ↦ entry.2 = status)
  .obj [(js "total", .num items.length), (js "completed", count .completed),
    (js "inProgress", count .inProgress), (js "pending", count .pending),
    (js "items", .arr (items.map fun (name, status) ↦
      .obj [(js "name", .str name), (js "status", .str (statusText status))]))]

/-- `parseTasks`. -/
def parseTasks (clean : JsString) (draft : Draft) (scratch : ClaudeScratch) :
    Draft × ClaudeScratch :=
  let found := (clean.splitOn newline).filterMap taskOf
  if found.isEmpty then (draft, scratch)
  else
    let tasks := found.foldl (fun tasks (name, status) ↦ tasks.set name status) scratch.tasks
    let summary := taskSummary tasks
    ((draft.change (setExtra (js "tasks") summary draft.next)).push ⟨js "tasks", summary⟩,
      { scratch with tasks := tasks })

/-- `parseModel`. -/
def parseModel (clean : JsString) (draft : Draft) : Draft :=
  match ClaudeTui.model.exec clean with
  | none => draft
  | some found =>
    let model := Json.str (JsString.toLowerCase found.matched)
    if some model ≠ draft.next.model then
      (draft.change { draft.next with model := some model }).push ⟨js "model.changed",
        object [(js "from", draft.next.model), (js "to", some model)]⟩
    else draft

/-- `parseContextRemaining`. -/
def parseContextRemaining (clean : JsString) (draft : Draft) : Draft :=
  match ClaudeTui.context.exec clean with
  | none => draft
  | some found =>
    let pct := parseInt (found.text 1)
    let tokens := tokensOf draft.next
    if tokens.contextRemaining ≠ some pct then
      draft.change { draft.next with tokens := some { tokens with contextRemaining := some pct } }
    else { draft with next := { draft.next with tokens := some tokens } }

/-- The status that follows from the other signals. -/
def settleStatus (clean : JsString) (draft : Draft) : Draft :=
  if draft.next.activity.isSome then { draft with next := draft.next.withStatus .busy }
  else if draft.next.blocking.isSome then { draft with next := draft.next.withStatus .blocked }
  else if draft.next.status = .starting ∧ ClaudeTui.promptReady.test clean = true then
    draft.change (draft.next.withStatus .idle)
  else if draft.next.status = .busy then draft.change (draft.next.withStatus .idle)
  else draft

/-! ## Feeding -/

/-- The empty chunk: a pending message is flushed. -/
def flush (now : Timestamp) (state : AgentState) (scratch : ClaudeScratch) :
    ParseResult × ClaudeScratch :=
  let text := JsString.trim scratch.messageBuf
  if scratch.capturingMessage && !text.isEmpty then
    let emptied := { scratch with capturingMessage := false, messageBuf := [] }
    if some text = state.lastMessage then (.unchanged, emptied)
    else (⟨some { state with lastMessage := some text }, [messageEvent text],
      [⟨text, now, none⟩]⟩, emptied)
  else (.unchanged, scratch)

/-- The rolling buffer, bounded at 4KB. -/
def roll (clean : JsString) (scratch : ClaudeScratch) : ClaudeScratch :=
  let buffer := scratch.buffer ++ clean ++ [newline]
  { scratch with buffer := if buffer.length > 4096 then JsString.takeEnd 2048 buffer else buffer }

/-- A chunk that shows something. -/
def read (now : Timestamp) (clean : JsString) (state : AgentState) (scratch : ClaudeScratch) :
    Draft × ClaudeScratch :=
  let draft : Draft := ⟨copyState state, [], [], false⟩
  let draft := parseResult clean (parseActivity clean (parseMode clean draft))
  let (draft, scratch) := parseMessage now clean draft (roll clean scratch)
  let (draft, scratch) := parseTasks clean (parseBlocking clean draft) scratch
  (settleStatus clean (parseContextRemaining clean (parseModel clean draft)), scratch)

def feed (now : Timestamp) (chunk : JsString) (state : AgentState) (scratch : ClaudeScratch) :
    ParseResult × ClaudeScratch :=
  let clean := ansiToText chunk
  if clean.isEmpty then flush now state scratch
  else
    let (draft, scratch) := read now clean state scratch
    (⟨if draft.changed then some draft.next else none, draft.events, draft.messages⟩, scratch)

end ClaudeParser

def claudeParser : DriverParser ClaudeScratch where
  scratch := ⟨[], false, [], .empty⟩
  initialState := ClaudeParser.initialState
  feed now chunk state scratch := .ok (ClaudeParser.feed now chunk state scratch)

end Cordyceps.Drivers
