import Cordyceps.Agents.ClaudeTerminal
import Mathlib.Data.List.Chain

/-!
# One answer for each blocking prompt

`approve` and `reject` look at `state.blocking`, which stays until later output
clears it, so a prompt can be answered again. It is not exactly if no such call
comes after an answer and before the parser has found the next prompt.
-/

namespace Cordyceps.Agents

open Foundations Foundations.StepMachine Drivers

/-! ## Marks -/

/-- Between two answers a prompt was detected, and there are not more answers than prompts. -/
def AnsweredOnce (marks : List PromptMark) : Prop :=
  marks.IsChain (fun first second ↦ ¬ (first = .answered ∧ second = .answered)) ∧
    marks.count .answered ≤ marks.count .detected

/-- The last prompt that was detected has no answer yet. -/
def Unanswered (marks : List PromptMark) : Prop := marks.getLast? ≠ some .answered

/-- What the marks of a run are like: an answer follows its prompt. -/
structure Alternating (marks : List PromptMark) : Prop where
  chain : marks.IsChain (fun first second ↦ ¬ (first = .answered ∧ second = .answered))
  count : marks.count .answered ≤ marks.count .detected
  spare : marks.getLast? = some .detected → marks.count .answered < marks.count .detected

namespace Alternating

variable {marks : List PromptMark}

theorem nil : Alternating [] := ⟨.nil, Nat.le_refl _, nofun⟩

theorem detected (h : Alternating marks) : Alternating (marks ++ [.detected]) where
  chain := by
    refine List.isChain_append.mpr ⟨h.chain, .singleton _, ?_⟩
    simp
  count := by
    have hcount := h.count
    simp
    omega
  spare := fun _ ↦ by
    have hcount := h.count
    simp
    omega

theorem answered (h : Alternating marks) (hopen : marks.getLast? = some .detected) :
    Alternating (marks ++ [.answered]) where
  chain := by
    refine List.isChain_append.mpr ⟨h.chain, .singleton _, ?_⟩
    simp [hopen]
  count := by
    have hspare := h.spare hopen
    simp
    omega
  spare := by simp

theorem answeredOnce (h : Alternating marks) : AnsweredOnce marks := ⟨h.chain, h.count⟩

end Alternating

theorem not_answeredOnce {marks : List PromptMark} (h : ¬ Unanswered marks) :
    ¬ AnsweredOnce (marks ++ [.answered]) := by
  rintro ⟨hchain, _⟩
  have hlast : marks.getLast? = some .answered := not_not.mp h
  exact (List.isChain_append.mp hchain).2.2 _ hlast _ rfl ⟨rfl, rfl⟩

/-! ## Approvals -/

namespace ClaudeTerminal

variable {Scratch : Type*} {parser : DriverParser Scratch} {terminal next : ClaudeTerminal Scratch}

/-- `approve` and `reject` are called on a dead agent, on one that is not blocked, or before the
prompt was answered. -/
def AsksOnce (terminal : ClaudeTerminal Scratch) : ClaudeEvent → Prop
  | .approve | .reject => terminal.agent.core.exited = true ∨
      terminal.agent.core.state.blocking = none ∨ Unanswered terminal.marks
  | _ => True

/-- The answers never outnumber the prompts that were detected, and after an answer there is none
before the next prompt. -/
def PromptsAnsweredOnce (terminal : ClaudeTerminal Scratch) : Prop := AnsweredOnce terminal.marks

/-- So far no prompt was answered twice, and a blocked agent has a prompt. -/
structure Settled (terminal : ClaudeTerminal Scratch) : Prop where
  alternating : Alternating terminal.marks
  prompted : terminal.agent.core.state.blocking.isSome → terminal.marks ≠ []

/-- What a turn that neither answers nor reads output leaves. -/
theorem Settled.of_same (h : terminal.Settled) (hmarks : next.marks = terminal.marks)
    (hblocking : next.agent.core.state.blocking = terminal.agent.core.state.blocking) :
    next.Settled where
  alternating := hmarks ▸ h.alternating
  prompted := by
    rw [hmarks, hblocking]
    exact h.prompted

theorem Settled.of_turn (h : terminal.Settled) {event : PtyEvent}
    (hturn : terminal.turn parser event = some next) (hdata : ∀ now chunk, event ≠ .data now chunk) :
    next.Settled := by
  obtain ⟨hmarks, hblocking, _⟩ := told_of_turn hturn hdata
  exact h.of_same hmarks hblocking

/-- An answer to a prompt that has none. -/
theorem Settled.answer (h : terminal.Settled) (key : JsString)
    (hasks : terminal.agent.core.exited = true ∨ terminal.agent.core.state.blocking = none ∨
      Unanswered terminal.marks) : (terminal.answer key).Settled := by
  unfold ClaudeTerminal.answer
  split
  · exact h
  · rename_i hblocked
    simp only [Bool.or_eq_true, Option.isNone_iff_eq_none, not_or, Bool.not_eq_true] at hblocked
    obtain ⟨hexited, hblocking⟩ := hblocked
    rcases hasks with hdead | hfree | hunanswered
    · rw [hexited] at hdead
      cases hdead
    · exact absurd hfree hblocking
    · have hmarks := h.prompted (Option.isSome_iff_ne_none.mpr hblocking)
      obtain ⟨mark, hmark⟩ := Option.ne_none_iff_exists'.mp (mt List.getLast?_eq_none_iff.mp hmarks)
      have hopen : terminal.marks.getLast? = some .detected := by
        cases mark with
        | detected => exact hmark
        | answered => exact absurd hmark hunanswered
      exact ⟨h.alternating.answered hopen, fun _ ↦ List.concat_ne_nil _ _⟩

/-- Output in which the parser may find a prompt. -/
theorem Settled.onData (h : terminal.Settled) (now : Timestamp) (chunk : JsString)
    (agent : PtyAgent Scratch) : (terminal.onData parser now chunk agent).Settled := by
  unfold ClaudeTerminal.onData
  cases hfound : terminal.agent.core.state.blocking.isNone && agent.core.state.blocking.isSome with
  | true => exact ⟨by simpa [hfound] using h.alternating.detected, by simp [hfound]⟩
  | false =>
    refine ⟨by simpa [hfound] using h.alternating, fun hblocked ↦ ?_⟩
    simp only [hfound, Bool.false_eq_true, if_false, List.append_nil]
    apply h.prompted
    change agent.core.state.blocking.isSome = true at hblocked
    rw [hblocked, Bool.and_true] at hfound
    simpa using hfound

theorem Settled.step (h : terminal.Settled) {event : ClaudeEvent} (hasks : terminal.AsksOnce event)
    (hstep : terminal.step parser event = some next) : next.Settled := by
  cases (turn_of_step hstep).2 with
  | submit opts text hturn =>
    have hmiddle := h.of_turn hturn nofun
    rcases enroll_submit text hturn with ⟨_, _, henroll, _⟩ | ⟨_, _, _, henroll, _⟩ |
      ⟨_, _, henroll, _⟩
    · exact henroll ▸ ⟨hmiddle.alternating, hmiddle.prompted⟩
    · exact henroll ▸ ⟨hmiddle.alternating, hmiddle.prompted⟩
    · exact henroll ▸ ⟨hmiddle.alternating, hmiddle.prompted⟩
  | interrupted k hturn => exact (h.of_turn hturn nofun).of_same rfl rfl
  | proceed k hcall hnext =>
    refine h.of_same rfl ?_
    rw [core_press]
    rfl
  | notReady k hstage => exact h.of_same rfl rfl
  | controlDone k hstage hturn => exact h.of_turn hturn nofun
  | controlThrow k hstage hturn => exact h.of_turn hturn nofun
  | approve | reject => exact h.answer _ hasks
  | data now chunk hagent => exact h.onData now chunk _
  | idleEmitted => exact h.of_same rfl rfl
  | timer k hturn => exact h.of_turn hturn nofun
  | settle k hturn => exact h.of_turn hturn nofun
  | start spawns hturn => exact h.of_turn hturn nofun
  | keys data hturn => exact h.of_turn hturn nofun
  | rawWrite data hturn => exact h.of_turn hturn nofun
  | exit code signal hturn => exact h.of_turn hturn nofun
  | kill signal hturn => exact h.of_turn hturn nofun

/-- A second answer is written. -/
theorem not_promptsAnsweredOnce {event : ClaudeEvent} (hasks : ¬ terminal.AsksOnce event)
    (hstep : terminal.step parser event = some next) : ¬ next.PromptsAnsweredOnce := by
  have hanswer : ∀ key, ¬ (terminal.agent.core.exited = true ∨
      terminal.agent.core.state.blocking = none ∨ Unanswered terminal.marks) →
        ¬ (terminal.answer key).PromptsAnsweredOnce := by
    intro key hnot
    rw [not_or, not_or] at hnot
    obtain ⟨hexited, hblocking, hanswered⟩ := hnot
    have hblocked : (terminal.agent.core.exited || terminal.agent.core.state.blocking.isNone) =
        false := by
      simp [hexited, Option.isSome_iff_ne_none, hblocking]
    unfold PromptsAnsweredOnce ClaudeTerminal.answer
    simp only [hblocked, Bool.false_eq_true, if_false]
    exact not_answeredOnce hanswered
  cases (turn_of_step hstep).2 with
  | approve | reject => exact hanswer _ hasks
  | _ => exact absurd trivial hasks

/-- Next to other agents of the driver, each prompt is answered at most once exactly if nobody
answers a prompt that has its answer. -/
theorem prompts_answered_once_iff (id driverId cwd : JsString) (options : SpawnSpec)
    (schedule : List (SharedEvent ClaudeEvent ClaudeScratch)) :
    Throughout (SharedEvent.step (step claudeParser) putScratch) PromptsAnsweredOnce
        (create claudeParser id driverId cwd options) schedule ↔
      StepsMeet (SharedEvent.step (step claudeParser) putScratch) (SharedEvent.OnOwn AsksOnce)
        (create claudeParser id driverId cwd options) schedule := by
  apply @SharedEvent.throughout_iff _ _ _ (step claudeParser) putScratch AsksOnce Settled
  · exact fun _ _ _ hsettled hasks hstep ↦ hsettled.step hasks hstep
  · exact fun _ _ _ _ hasks hstep ↦ not_promptsAnsweredOnce hasks hstep
  · exact fun _ _ hsettled ↦ ⟨hsettled.alternating, hsettled.prompted⟩
  · exact fun _ hsettled ↦ hsettled.alternating.answeredOnce
  · exact ⟨.nil, nofun⟩

/-- Two clients approve the same prompt before the agent goes on. -/
def twoApprovals : List ClaudeEvent :=
  [.start true, .data 0 (js "Allow Bash? (y/n)"), .approve, .approve]

/-- The second approval is written too. -/
theorem two_approvals_are_written :
    ((run (SharedEvent.step (step claudeParser) putScratch) claudeAgent
        (twoApprovals.map .own)).map fun terminal ↦ (terminal.marks, terminal.agent.pty.input)) =
      some ([.detected, .answered, .answered],
        [js "y", ClaudeKeys.enter, js "y", ClaudeKeys.enter]) ∧
    ¬ Throughout (SharedEvent.step (step claudeParser) putScratch) PromptsAnsweredOnce claudeAgent
      (twoApprovals.map .own) := by
  have hrun : ((run (SharedEvent.step (step claudeParser) putScratch) claudeAgent
        (twoApprovals.map .own)).map fun terminal ↦ (terminal.marks, terminal.agent.pty.input)) =
      some ([.detected, .answered, .answered],
        [js "y", ClaudeKeys.enter, js "y", ClaudeKeys.enter]) := by
    decide +kernel
  refine ⟨hrun, fun hthroughout ↦ ?_⟩
  obtain ⟨final, hfinal, heq⟩ := Option.map_eq_some_iff.mp hrun
  obtain ⟨_, hcount⟩ := hthroughout.last hfinal
  have hmarks : final.marks = [.detected, .answered, .answered] := congrArg Prod.fst heq
  rw [hmarks] at hcount
  exact absurd hcount (by decide)

end ClaudeTerminal

end Cordyceps.Agents
