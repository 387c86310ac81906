import Cordyceps.Council.Chunker
import Cordyceps.Council.Findings
import Cordyceps.Foundations.Json

/-!
# Who reviews what

How `council.review` makes tasks of a panel: reviewers with tools of their own get the path of
the target, one task each, and the others get the source in their prompt, one task for each
chunk of it. Reading the target is left to the caller; prompts are kept as what they are
made of.
-/

namespace Cordyceps.Council

open Foundations

structure ReviewerSpec where
  driver : JsString
  profile : Option (List (JsString × Json))
  deriving DecidableEq

inductive ReviewMode
  | file
  | diff
  deriving DecidableEq, Repr

/-- The resolved target of a review. -/
structure Target where
  source : JsString
  label : JsString
  mode : ReviewMode

/-- The parameters of `council.review` that are read after the target is resolved. -/
structure CouncilParams where
  panel : Option (List ReviewerSpec)
  chair : Option ReviewerSpec
  noChair : Bool
  forceInline : Bool

def maxChunkBytes : ℤ := 30000

def defaultPanel : List ReviewerSpec :=
  [⟨js "claude", none⟩, ⟨js "codex", none⟩, ⟨js "gemini", none⟩]

def defaultChair : ReviewerSpec := ⟨js "codex", none⟩

namespace CouncilParams

/-- `p.panel && p.panel.length ? p.panel : DEFAULT_PANEL`. -/
def reviewers (params : CouncilParams) : List ReviewerSpec :=
  match params.panel with
  | none => defaultPanel
  | some panel => if panel.isEmpty then defaultPanel else panel

def chairSpec (params : CouncilParams) : ReviewerSpec := params.chair.getD defaultChair

end CouncilParams

/-! ## Modes -/

def isClaude (driverId : JsString) : Bool :=
  driverId == js "claude-code" || driverId == js "claude"

def driverSupportsTools (driverId : JsString) (mode : Json) : Bool :=
  if mode = .str (js "pty") ∧ isClaude driverId then true
  else mode = .str (js "exec") ∧
    (driverId = js "codex" ∨ driverId = js "gemini" ∨ isClaude driverId)

def claudePtyOnlyFields : List JsString :=
  [js "resume", js "continue", js "sessionId", js "isolateConfig"]

def profileHasClaudePtyOnlyField (profile : Option (List (JsString × Json))) : Bool :=
  match profile with
  | none => false
  | some members => claudePtyOnlyFields.any fun key ↦ (Json.lookup key members).isSome

/-- Drivers that are not listed in the source run in `exec` mode like most of those that are. -/
def defaultModeFor (driverId : JsString) : JsString :=
  if driverId = js "ollama" ∨ driverId = js "ol" then js "server-http" else js "exec"

namespace ReviewerSpec

/-- `spec.profile?.mode`. -/
def mode (spec : ReviewerSpec) : Option Json := spec.profile.bind (Json.lookup (js "mode"))

end ReviewerSpec

/-- The mode a reviewer or the chair is spawned under. -/
def resolveCouncilMode (spec : ReviewerSpec) : Json :=
  match Json.ifTruthy spec.mode with
  | some mode => mode
  | none =>
    if isClaude spec.driver && profileHasClaudePtyOnlyField spec.profile then .str (js "pty")
    else .str (defaultModeFor spec.driver)

/-- `(spec.profile?.mode) ?? defaultModeFor(spec.driver)`: the mode that decides how a reviewer
is prompted. -/
def requestedMode (spec : ReviewerSpec) : Json :=
  Json.orElse (.str (defaultModeFor spec.driver)) spec.mode

/-! ## Tasks -/

/-- The prompt of a reviewer. -/
inductive ReviewPrompt
  | toolDriven (targetPath : JsString)
  | inline (targetPath : JsString) (chunk : Chunk)
  | diff (label : JsString) (chunk : Chunk)
  deriving DecidableEq

/-- The arguments of a `runOneReviewer` call. -/
structure ReviewTask where
  spec : ReviewerSpec
  index : ℕ
  prompt : ReviewPrompt
  chunk : Option Chunk

/-- The panel, split by capability. -/
structure Buckets where
  toolCapable : List (ReviewerSpec × ℕ)
  inlineReviewers : List (ReviewerSpec × ℕ)

def toolDriven (forceInline : Bool) (spec : ReviewerSpec) : Bool :=
  !forceInline && driverSupportsTools spec.driver (requestedMode spec)

/-- The loop over the panel, from reviewer `i` on. -/
def routeAll (forceInline : Bool) : ℕ → List ReviewerSpec → Buckets → Buckets
  | _, [], buckets => buckets
  | i, spec :: rest, buckets =>
    routeAll forceInline (i + 1) rest <|
      if toolDriven forceInline spec then
        { buckets with toolCapable := buckets.toolCapable ++ [(spec, i)] }
      else { buckets with inlineReviewers := buckets.inlineReviewers ++ [(spec, i)] }

section

variable (params : CouncilParams) (target : Target)

def forceInline : Bool := params.forceInline || target.mode == .diff

def route : Buckets := routeAll (forceInline params target) 0 params.reviewers ⟨[], []⟩

/-- Chunking only happens for inline reviewers. -/
def chunksOf : List Chunk :=
  if (route params target).inlineReviewers.isEmpty then
    [⟨target.source, 1, (target.source.splitOn newline).length, 0, 1⟩]
  else chunkByLines target.source maxChunkBytes

def inlinePrompt (chunk : Chunk) : ReviewPrompt :=
  match target.mode with
  | .diff => .diff target.label chunk
  | .file => .inline target.label chunk

/-- The `runOneReviewer` calls, in order. -/
def reviewTasks : List ReviewTask :=
  ((route params target).toolCapable.map fun (spec, index) ↦
    ⟨spec, index, .toolDriven target.label, none⟩) ++
  (chunksOf params target).flatMap fun chunk ↦
    (route params target).inlineReviewers.map fun (spec, index) ↦
      ⟨spec, index, inlinePrompt target chunk, some chunk⟩

end

/-! ## Names and results -/

/-- The chunk that a task covers only in part: of several chunks. -/
def ReviewTask.partOf (task : ReviewTask) : Option Chunk :=
  task.chunk.filter fun chunk ↦ 1 < chunk.total

def reviewerName (reviewId : JsString) (task : ReviewTask) : JsString :=
  match task.partOf with
  | some chunk =>
    js "council-" ++ reviewId ++ js "-c" ++ Json.decimal chunk.index ++ js "-reviewer-" ++
      Json.decimal task.index ++ js "-" ++ task.spec.driver
  | none =>
    js "council-" ++ reviewId ++ js "-reviewer-" ++ Json.decimal task.index ++ js "-" ++
      task.spec.driver

def chairName (reviewId : JsString) : JsString := js "council-" ++ reviewId ++ js "-chair"

/-- How an agent's turn ended: with the text of a message, if it had one, or an error message. -/
abbrev Outcome := Except JsString (Option JsString)

structure ReviewerResult (Findings : Type*) where
  name : JsString
  driver : JsString
  chunkIndex : Option ℕ
  chunkStartLine : Option ℕ
  chunkEndLine : Option ℕ
  findings : Option Findings
  rawText : Option JsString
  error : Option JsString

variable {Findings : Type*}

/-- What `runOneReviewer` returns. -/
def reviewerResult (parse : JsString → Option Findings) (reviewId : JsString) (task : ReviewTask)
    (outcome : Outcome) : ReviewerResult Findings :=
  match outcome with
  | .ok text =>
    let rawText := text.getD []
    let findings := extractFindings parse rawText
    { name := reviewerName reviewId task
      driver := task.spec.driver
      chunkIndex := task.partOf.map Chunk.index
      chunkStartLine := task.partOf.map Chunk.startLine
      chunkEndLine := task.partOf.map Chunk.endLine
      findings := findings
      rawText := some rawText
      error :=
        if findings.isSome then none
        else some (js "reviewer output did not contain a parseable JSON findings array") }
  | .error message =>
    { name := reviewerName reviewId task
      driver := task.spec.driver
      chunkIndex := task.partOf.map Chunk.index
      chunkStartLine := none
      chunkEndLine := none
      findings := none
      rawText := none
      error := some message }

/-- `!r.error`; an empty error message counts as none. -/
def ReviewerResult.succeeded (result : ReviewerResult Findings) : Bool :=
  match result.error with
  | none => true
  | some message => message.isEmpty

end Cordyceps.Council
