import Cordyceps.Drivers.ClaudeParser

/-!
# The Claude control

`submit` of `drivers/claude/control.ts` is a script with timers between its
steps: wait until the agent is idle, clear the input line, type the prompt,
press Enter. The other operations write their keys in one turn.
-/

namespace Cordyceps.Drivers

open Foundations Agents

namespace ClaudeKeys

def enter : JsString := [0x0D]

def escape : JsString := [0x1B]

def ctrlU : JsString := [0x15]

end ClaudeKeys

/-- A prompt and how many of its three writes were made. -/
structure Prompt where
  text : JsString
  progress : ℕ
  deriving DecidableEq, Repr

namespace Prompt

/-- Clear the input line, type the prompt, press Enter. -/
def block (prompt : Prompt) : List JsString := [ClaudeKeys.ctrlU, prompt.text, ClaudeKeys.enter]

def written (prompt : Prompt) : List JsString := prompt.block.take prompt.progress

def forward (prompt : Prompt) : Prompt := { prompt with progress := prompt.progress + 1 }

/-- The input line was cleared, and Enter not pressed yet. -/
def typing (prompt : Prompt) : Bool := 0 < prompt.progress && prompt.progress < 3

theorem written_forward {prompt : Prompt} {key : JsString}
    (h : prompt.block[prompt.progress]? = some key) :
    prompt.forward.written = prompt.written ++ [key] := by
  change prompt.block.take (prompt.progress + 1) = prompt.block.take prompt.progress ++ [key]
  rw [List.take_add_one, h]
  rfl

end Prompt

/-- Where a call of `ClaudeControl.submit` stands: it was not made yet, awaits an idle state, got
it, lets the banner settle, or has written one, two or three times; `unready` is a wait that timed
out. The flag is `wasStarting`. -/
inductive SubmitStage
  | uncalled
  | waiting (wasStarting : Bool)
  | ready (wasStarting : Bool)
  | settling
  | cleared
  | typed
  | entered
  | unready
  deriving DecidableEq, Repr

/-- A call with its prompt. `enteredAt` and `heardAt` observe how many messages the agent had
emitted before the call pressed Enter, and before the one that its submit took as the reply. -/
structure ControlCall where
  text : JsString
  stage : SubmitStage
  enteredAt : Option ℕ
  heardAt : Option ℕ
  deriving DecidableEq, Repr

namespace ControlCall

def create (text : JsString) : ControlCall := ⟨text, .uncalled, none, none⟩

/-- The call is made. Its first part runs at once: `waitForReady` returns on an idle agent. -/
def begin (state : AgentState) (call : ControlCall) : ControlCall :=
  match call.stage with
  | .uncalled => { call with
      stage := if state.status = .idle then .ready false else .waiting (state.status = .starting) }
  | _ => call

/-- An idle state was published. -/
def wake (call : ControlCall) : ControlCall :=
  match call.stage with
  | .waiting wasStarting => { call with stage := .ready wasStarting }
  | _ => call

/-- `waitForReady` timed out. -/
def giveUp (call : ControlCall) : ControlCall :=
  match call.stage with
  | .waiting _ => { call with stage := .unready }
  | _ => call

/-- What the script does next, if that does not depend on others: the new stage and what it
writes. -/
def next (call : ControlCall) : Option (SubmitStage × List JsString) :=
  match call.stage with
  | .ready true => some (.settling, [])
  | .ready false => some (.cleared, [ClaudeKeys.ctrlU])
  | .settling => some (.cleared, [ClaudeKeys.ctrlU])
  | .cleared => some (.typed, [call.text])
  | .typed => some (.entered, [ClaudeKeys.enter])
  | .uncalled | .waiting _ | .entered | .unready => none

/-- Go to a stage; `emitted` messages came before. -/
def advance (stage : SubmitStage) (emitted : ℕ) (call : ControlCall) : ControlCall :=
  { call with
    stage := stage
    enteredAt := if stage = .entered then some emitted else call.enteredAt }

/-- How much of its block the script has written. -/
def progress (call : ControlCall) : ℕ :=
  match call.stage with
  | .uncalled | .waiting _ | .ready _ | .settling | .unready => 0
  | .cleared => 1
  | .typed => 2
  | .entered => 3

def prompt (call : ControlCall) : Prompt := ⟨call.text, call.progress⟩

/-- The script has cleared the input line and not pressed Enter yet. -/
def typing (call : ControlCall) : Bool := call.stage = .cleared || call.stage = .typed

/-- The script is about to clear the input line. -/
def clears (call : ControlCall) : Bool := call.stage = .ready false || call.stage = .settling

section Stages

variable {call : ControlCall} {stage : SubmitStage} {data : List JsString}

theorem typing_eq (call : ControlCall) : call.typing = call.prompt.typing := by
  unfold typing Prompt.typing prompt progress
  cases call.stage <;> rfl

/-- A step of the script writes nothing, or the next part of the block. -/
theorem next_cases (h : call.next = some (stage, data)) (emitted : ℕ) :
    data = [] ∧ (call.advance stage emitted).prompt = call.prompt ∧ call.clears = false ∨
      ∃ key, data = [key] ∧ call.prompt.block[call.prompt.progress]? = some key ∧
        (call.advance stage emitted).prompt = call.prompt.forward ∧
        (call.clears = true ↔ call.prompt.progress = 0) := by
  unfold next at h
  split at h <;> cases h <;>
    simp [advance, prompt, progress, clears, Prompt.block, Prompt.forward, *]

theorem prompt_begin (state : AgentState) (call : ControlCall) :
    (call.begin state).prompt = call.prompt := by
  unfold begin
  split
  · by_cases hidle : state.status = .idle <;> simp [prompt, progress, *]
  · rfl

theorem prompt_wake (call : ControlCall) : call.wake.prompt = call.prompt := by
  unfold wake
  split
  · simp [prompt, progress, *]
  · rfl

theorem prompt_giveUp (call : ControlCall) : call.giveUp.prompt = call.prompt := by
  unfold giveUp
  split
  · simp [prompt, progress, *]
  · rfl

end Stages

end ControlCall

end Cordyceps.Drivers
