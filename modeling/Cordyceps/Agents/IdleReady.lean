import Cordyceps.Agents.OneRequest
import Cordyceps.Drivers.CodexParser

/-!
# Idle means ready

`waitForIdle` promises its caller that a submit will be accepted. Acceptance is
decided by `activeChild` and `activeAbort`; the status is also written by the
parser, while output is still arriving, and by the `finally` block of a submit,
which may belong to another child or request than the active one. These two
writers are the only ones that can publish `idle` too early.
-/

namespace Cordyceps.Agents

open Foundations Foundations.LineFraming Foundations.StepMachine Drivers

variable {Scratch : Type*}

/-! ## Exec -/

namespace ExecAgent

/-- A plain submit made now would not throw "already processing". -/
def Accepts (agent : ExecAgent Scratch) : Prop :=
  ∀ opts launch, opts.interruptIfBusy = false →
    (agent.submit opts launch).phaseOf agent.submits.length ≠ some (.rejected .alreadyProcessing)

/-- An agent that published `idle`, and has not exited, accepts a plain submit. -/
def IdleReady (agent : ExecAgent Scratch) : Prop :=
  agent.crashed = false → agent.core.exited = false → agent.core.state.status = .idle →
    agent.Accepts

/-- The step does not turn the status idle while a child is active: neither does the parser on
the lines that a chunk completes, nor a submit that goes on after its child. -/
def StaysReady (parser : DriverParser Scratch) (agent : ExecAgent Scratch) : ExecEvent → Prop
  | .settle _ => agent.core.exited = true ∨ agent.core.state.status ≠ .busy ∨
      agent.activeChild = none
  | .data k now chunk => ∀ child, agent.childOf k = some child → child.spec.parseOutput = .jsonl →
      let completed := lines newline (child.stdoutBuf ++ chunk)
      parser.throws now completed agent.core.state agent.core.scratch = true ∨
        agent.core.exited = true ∨
        (parser.after now completed agent.core.state agent.core.scratch).status ≠ .idle ∨
        agent.activeChild = none
  | _ => True

/-- What `IdleReady` says about the fields of the controller. -/
def Ready (agent : ExecAgent Scratch) : Prop :=
  agent.crashed = true ∨ agent.core.exited = true ∨ agent.core.state.status ≠ .idle ∨
    agent.activeChild = none

theorem accepts_iff {agent : ExecAgent Scratch} (hexited : agent.core.exited = false) :
    agent.Accepts ↔ agent.activeChild = none := by
  constructor
  · intro haccepts
    by_contra hactive
    obtain ⟨active, hsome⟩ := Option.ne_none_iff_exists'.mp hactive
    refine haccepts ⟨true, false⟩ .buildThrows rfl ?_
    simp [submit, hexited, hsome, phaseOf, push]
  · intro hactive opts launch _
    have hlast : ((agent.push ⟨opts.expectMessage, .suspended, [], none⟩).submits)[agent.submits.length]? =
        some ⟨opts.expectMessage, .suspended, [], none⟩ := by
      simp [push]
    unfold submit
    rw [if_neg (by simp [hexited]), hactive]
    cases launch <;> simp [proceed, spawn, onSubmit, phaseOf, hlast]

theorem ready_iff {agent : ExecAgent Scratch} : agent.Ready ↔ agent.IdleReady := by
  unfold Ready IdleReady
  constructor
  · intro hready hcrashed hexited hidle
    rw [accepts_iff hexited]
    simpa [hcrashed, hexited, hidle] using hready
  · intro hready
    by_contra hnot
    simp only [not_or, Bool.not_eq_true, not_not] at hnot
    obtain ⟨hcrashed, hexited, hidle, hactive⟩ := hnot
    exact hactive ((accepts_iff hexited).mp (hready hcrashed hexited hidle))

section Fields

variable (agent : ExecAgent Scratch)

theorem activeChild_flushOutput (parser : DriverParser Scratch) (now : Timestamp) (child : Child) :
    (flushOutput parser now child agent).activeChild = agent.activeChild := by
  unfold flushOutput say
  split
  · split <;> rfl
  · rfl
  · rfl

theorem activeChild_onExit (parser : DriverParser Scratch) (now : Timestamp) (k : ℕ)
    (code : Option ℤ) (signal : Option Signal) (child : Child) :
    (onExit parser now k code signal child agent).activeChild = none := by
  unfold onExit
  simp only
  split <;> exact activeChild_flushOutput ..

end Fields

namespace Ready

variable {agent : ExecAgent Scratch}

theorem of_same (h : agent.Ready) {next : ExecAgent Scratch} (hcrashed : next.crashed = agent.crashed)
    (hexited : next.core.exited = agent.core.exited) (hstate : next.core.state = agent.core.state)
    (hactive : next.activeChild = agent.activeChild) : next.Ready := by
  unfold Ready
  rw [hcrashed, hexited, hstate, hactive]
  exact h

theorem signalActive (h : agent.Ready) (signal : Signal) : (agent.signalActive signal).Ready :=
  h.of_same (crashed_signalActive ..) (by simp) (by simp) (activeChild_signalActive ..)

theorem of_none {next : ExecAgent Scratch} (hactive : next.activeChild = none) : next.Ready :=
  .inr (.inr (.inr hactive))

theorem of_busy {next : ExecAgent Scratch} (hstatus : next.core.state.status = .busy) :
    next.Ready :=
  .inr (.inr (.inl (by simp [hstatus])))

theorem proceed (h : agent.Ready) (k : ℕ) (launch : Launch) : (agent.proceed k launch).Ready := by
  cases launch with
  | buildThrows => exact h.of_same rfl rfl rfl rfl
  | spawnThrows spec => exact of_busy (by simp [ExecAgent.proceed, onSubmit])
  | fails spec => exact of_busy (by simp [ExecAgent.proceed, spawn, onSubmit])
  | starts spec => exact of_busy (by simp [ExecAgent.proceed, spawn, onSubmit])

theorem submit (h : agent.Ready) (opts : SubmitOptions) (launch : Launch) :
    (agent.submit opts launch).Ready := by
  have hpush : ∀ record, (agent.push record).Ready := fun record ↦ h.of_same rfl rfl rfl rfl
  unfold ExecAgent.submit
  split
  · exact hpush _
  · split
    · split
      · exact (hpush _).signalActive sigterm
      · exact hpush _
    · exact (hpush _).proceed _ launch

/-- A chunk keeps the agent ready exactly under the guard of its step. -/
theorem onData_iff (h : agent.Ready) (parser : DriverParser Scratch) (now : Timestamp) (k : ℕ)
    (chunk : JsString) {child : Child} (hchild : agent.childOf k = some child) :
    (onData parser now k chunk child agent).Ready ↔
      StaysReady parser agent (.data k now chunk) := by
  simp only [StaysReady, hchild, Option.some.injEq, forall_eq']
  unfold onData
  cases child.spec.parseOutput with
  | jsonl => simp [Ready, ExecAgent.feed, onSubmit, emitOutput]
  | json => exact iff_of_true (h.of_same rfl rfl rfl rfl) nofun
  | text => exact iff_of_true (h.of_same rfl rfl rfl rfl) nofun

/-- The continuation of a submit keeps the agent ready exactly under the guard of its step. -/
theorem finish_iff (h : agent.Ready) (hcrashed : agent.crashed = false)
    (parser : DriverParser Scratch) (k : ℕ) (outcome : Outcome) :
    (agent.finish k outcome).Ready ↔ StaysReady parser agent (.settle k) := by
  by_cases hbusy : agent.core.state.status = .busy
  · simp [Ready, StaysReady, finish, onSubmit, hbusy, hcrashed]
  · have hcore : (agent.finish k outcome).core = agent.core := by
      simp [finish, onSubmit, hbusy]
    have hsame : (agent.finish k outcome).Ready :=
      h.of_same rfl (by rw [hcore]) (by rw [hcore]) rfl
    exact iff_of_true hsame (.inr (.inl hbusy))

/-- A step from a ready state leads to a ready state exactly under its guard. -/
theorem step_iff (h : agent.Ready) {parser : DriverParser Scratch} {event : ExecEvent}
    {next : ExecAgent Scratch} (hstep : agent.step parser event = some next) :
    next.Ready ↔ StaysReady parser agent event := by
  obtain ⟨hcrashed, hturn⟩ := turn_of_step hstep
  cases hturn with
  | submit opts launch => exact iff_of_true (h.submit opts launch) trivial
  | resume launch hphase => exact iff_of_true (h.proceed _ launch) trivial
  | settle hphase => exact h.finish_iff hcrashed parser _ _
  | data now chunk hchild hlife => exact h.onData_iff parser now _ chunk hchild
  | exit now code signal hchild hlife =>
    exact iff_of_true (of_none (activeChild_onExit ..)) trivial
  | error hchild =>
    refine iff_of_true ?_ trivial
    unfold onError
    split
    · exact h
    · exact of_none rfl
  | timer hchild harmed => exact iff_of_true (h.of_same rfl rfl rfl rfl) trivial
  | interrupt =>
    refine iff_of_true ?_ trivial
    unfold interrupt
    split
    · exact h
    · exact h.signalActive sigterm
  | kill signal =>
    refine iff_of_true ?_ trivial
    unfold kill
    split
    · exact h
    · exact .inr (.inl rfl)

end Ready

theorem ready_create (parser : DriverParser Scratch) (id driverId cwd : JsString)
    (env : JsMap JsString JsString) : (create parser id driverId cwd env).Ready :=
  .inr (.inr (.inr rfl))

/-- Throughout a run of the exec controller idle means ready exactly when no step turns the
status idle while a child is active. -/
theorem idle_ready_iff (parser : DriverParser Scratch) (id driverId cwd : JsString)
    (env : JsMap JsString JsString) (schedule : List ExecEvent) :
    Throughout (step parser) IdleReady (create parser id driverId cwd env) schedule ↔
      StepsMeet (step parser) (StaysReady parser) (create parser id driverId cwd env) schedule :=
  @throughout_iff _ _ (step parser) (StaysReady parser) Ready IdleReady
    (fun _ _ _ hready hstays hstep ↦ (hready.step_iff hstep).mpr hstays)
    (fun _ _ _ hready hbreaks hstep hidle ↦
      hbreaks ((hready.step_iff hstep).mp (ready_iff.mpr hidle)))
    (fun _ hready ↦ ready_iff.mp hready) _ (ready_create parser id driverId cwd env) schedule

end ExecAgent

/-! ## Server-http -/

namespace HttpAgent

/-- A plain submit made now would not throw "already processing". -/
def Accepts (agent : HttpAgent Scratch) : Prop :=
  ∀ opts prompt, opts.interruptIfBusy = false →
    (agent.submit opts prompt).phaseOf agent.submits.length ≠ some (.rejected .alreadyProcessing)

/-- An agent that published `idle`, and has not exited, accepts a plain submit. -/
def IdleReady (agent : HttpAgent Scratch) : Prop :=
  agent.core.exited = false → agent.core.state.status = .idle → agent.Accepts

/-- The step does not turn the status idle while a request is active: neither does the parser on
the lines that a piece of the body completes, nor a submit that goes on after its request. -/
def StaysReady (parser : DriverParser Scratch) (agent : HttpAgent Scratch) : HttpEvent → Prop
  | .settle _ => agent.core.exited = true ∨ agent.core.state.status ≠ .busy ∨
      agent.activeAbort = none
  | .chunk k now text => ∀ buffer, agent.phaseOf k = some (.requesting (.streaming true buffer)) →
      let completed := lines newline (buffer ++ text)
      parser.throws now completed agent.core.state agent.core.scratch = true ∨
        agent.core.exited = true ∨
        (parser.after now completed agent.core.state agent.core.scratch).status ≠ .idle ∨
        agent.activeAbort = none
  | _ => True

/-- What `IdleReady` says about the fields of the controller. -/
def Ready (agent : HttpAgent Scratch) : Prop :=
  agent.core.exited = true ∨ agent.core.state.status ≠ .idle ∨ agent.activeAbort = none

theorem accepts_iff {agent : HttpAgent Scratch} (hexited : agent.core.exited = false) :
    agent.Accepts ↔ agent.activeAbort = none := by
  constructor
  · intro haccepts
    by_contra hactive
    obtain ⟨active, hsome⟩ := Option.ne_none_iff_exists'.mp hactive
    refine haccepts ⟨true, false⟩ [] rfl ?_
    simp [submit, hexited, hsome, phaseOf, push]
  · intro hactive opts prompt _
    simp [submit, hexited, hactive, prepare, onSubmit, push, phaseOf, HttpSubmit.withPhase]

theorem ready_iff {agent : HttpAgent Scratch} : agent.Ready ↔ agent.IdleReady := by
  unfold Ready IdleReady
  constructor
  · intro hready hexited hidle
    rw [accepts_iff hexited]
    simpa [hexited, hidle] using hready
  · intro hready
    by_contra hnot
    simp only [not_or, Bool.not_eq_true, not_not] at hnot
    obtain ⟨hexited, hidle, hactive⟩ := hnot
    exact hactive ((accepts_iff hexited).mp (hready hexited hidle))

namespace Ready

variable {agent : HttpAgent Scratch}

theorem of_same (h : agent.Ready) {next : HttpAgent Scratch}
    (hexited : next.core.exited = agent.core.exited) (hstate : next.core.state = agent.core.state)
    (hactive : next.activeAbort = agent.activeAbort) : next.Ready := by
  unfold Ready
  rw [hexited, hstate, hactive]
  exact h

theorem abortActive (h : agent.Ready) : agent.abortActive.Ready :=
  h.of_same (by simp) (by simp) (activeAbort_abortActive _)

theorem of_none {next : HttpAgent Scratch} (hactive : next.activeAbort = none) : next.Ready :=
  .inr (.inr hactive)

theorem submit (h : agent.Ready) (opts : SubmitOptions) (prompt : JsString) :
    (agent.submit opts prompt).Ready := by
  have hpush : ∀ phase, (agent.push opts prompt phase).Ready := fun phase ↦ h.of_same rfl rfl rfl
  unfold HttpAgent.submit
  split
  · exact hpush _
  · split
    · split
      · exact (hpush _).abortActive
      · exact hpush _
    · exact (hpush .suspended).of_same rfl rfl rfl

theorem onResponse (h : agent.Ready) (parser : DriverParser Scratch) (now : Timestamp) (k : ℕ)
    (ok : Bool) (contentType : JsString) (hasBody : Bool) :
    (agent.onResponse parser now k ok contentType hasBody).Ready := by
  unfold HttpAgent.onResponse
  split
  · exact of_none rfl
  · split
    · exact of_none rfl
    · exact h.of_same rfl rfl rfl

/-- A piece of the body keeps the agent ready exactly under the guard of its step. -/
theorem onChunk_iff (h : agent.Ready) (parser : DriverParser Scratch) (now : Timestamp) {k : ℕ}
    (text : JsString) {ndjson : Bool} {buffer : JsString}
    (hphase : agent.phaseOf k = some (.requesting (.streaming ndjson buffer))) :
    (agent.onChunk parser now k text ndjson buffer).Ready ↔
      StaysReady parser agent (.chunk k now text) := by
  cases ndjson with
  | false =>
    simp only [StaysReady, hphase]
    exact iff_of_true (h.of_same rfl rfl rfl) (by simp)
  | true =>
    simp only [StaysReady, hphase, Option.some.injEq, HttpPhase.requesting.injEq,
      HttpStage.streaming.injEq, true_and, forall_eq']
    by_cases hthrows : parser.throws now (lines newline (buffer ++ text)) agent.core.state
        agent.core.scratch = true
    · refine iff_of_true ?_ (.inl hthrows)
      simp [Ready, HttpAgent.onChunk, HttpAgent.feed, onSubmit, endRequest, hthrows]
    · simp [Ready, HttpAgent.onChunk, HttpAgent.feed, onSubmit, hthrows]

theorem finish_iff (h : agent.Ready) (parser : DriverParser Scratch) (k : ℕ)
    (failure : Option HttpRejection) :
    (agent.finish k failure).Ready ↔ StaysReady parser agent (.settle k) := by
  by_cases hbusy : agent.core.state.status = .busy
  · simp [Ready, StaysReady, finish, onSubmit, hbusy]
  · have hcore : (agent.finish k failure).core = agent.core := by
      simp [finish, onSubmit, hbusy]
    have hsame : (agent.finish k failure).Ready :=
      h.of_same (by rw [hcore]) (by rw [hcore]) rfl
    exact iff_of_true hsame (.inr (.inl hbusy))

/-- A step from a ready state leads to a ready state exactly under its guard. -/
theorem step_iff (h : agent.Ready) {parser : DriverParser Scratch} {event : HttpEvent}
    {next : HttpAgent Scratch} (hstep : agent.step parser event = some next) :
    next.Ready ↔ StaysReady parser agent event := by
  cases turn_of_step hstep with
  | submit opts prompt => exact iff_of_true (h.submit opts prompt) trivial
  | resume hphase => exact iff_of_true (h.of_same rfl rfl rfl) trivial
  | write data hphase => exact iff_of_true (h.of_same rfl rfl rfl) trivial
  | controlDone hphase =>
    exact iff_of_true (.inr (.inl (by simp [HttpAgent.post, onSubmit]))) trivial
  | controlThrow hphase => exact iff_of_true (h.of_same rfl rfl rfl) trivial
  | fetchFail hphase => exact iff_of_true (of_none rfl) trivial
  | response now ok contentType hasBody hphase =>
    exact iff_of_true (h.onResponse parser now _ ok contentType hasBody) trivial
  | chunk now text hphase => exact h.onChunk_iff parser now text hphase
  | streamEnd now hphase => exact iff_of_true (of_none rfl) trivial
  | readFail hphase => exact iff_of_true (of_none rfl) trivial
  | timer hphase => exact iff_of_true (h.of_same rfl rfl rfl) trivial
  | settle hphase => exact h.finish_iff parser _ _
  | interrupt =>
    refine iff_of_true ?_ trivial
    unfold HttpAgent.interrupt
    split
    · exact h
    · exact h.abortActive
  | kill signal =>
    refine iff_of_true ?_ trivial
    unfold HttpAgent.kill
    split
    · exact h
    · exact .inl rfl
  | rawWrite data => exact iff_of_true (h.of_same rfl rfl rfl) trivial

end Ready

theorem ready_create (parser : DriverParser Scratch) (id driverId cwd : JsString)
    (spec : ServerHttpSpec) : (create parser id driverId cwd spec).Ready :=
  .inr (.inr rfl)

/-- Throughout a run of the server-http controller idle means ready exactly when no step turns
the status idle while a request is active. -/
theorem idle_ready_iff (parser : DriverParser Scratch) (id driverId cwd : JsString)
    (spec : ServerHttpSpec) (schedule : List HttpEvent) :
    Throughout (step parser) IdleReady (create parser id driverId cwd spec) schedule ↔
      StepsMeet (step parser) (StaysReady parser) (create parser id driverId cwd spec) schedule :=
  @throughout_iff _ _ (step parser) (StaysReady parser) Ready IdleReady
    (fun _ _ _ hready hstays hstep ↦ (hready.step_iff hstep).mpr hstays)
    (fun _ _ _ hready hbreaks hstep hidle ↦
      hbreaks ((hready.step_iff hstep).mp (ready_iff.mpr hidle)))
    (fun _ hready ↦ ready_iff.mp hready) _ (ready_create parser id driverId cwd spec) schedule

end HttpAgent

/-- Both one-shot runtimes: idle means ready in every state of a run exactly when no step of it
turns the status idle while a child or a request is active. -/
theorem idle_means_ready_iff (parser : DriverParser Scratch) (id driverId cwd : JsString) :
    (∀ env schedule, Throughout (ExecAgent.step parser) ExecAgent.IdleReady
        (.create parser id driverId cwd env) schedule ↔
      StepsMeet (ExecAgent.step parser) (ExecAgent.StaysReady parser)
        (.create parser id driverId cwd env) schedule) ∧
    ∀ spec schedule, Throughout (HttpAgent.step parser) HttpAgent.IdleReady
        (.create parser id driverId cwd spec) schedule ↔
      StepsMeet (HttpAgent.step parser) (HttpAgent.StaysReady parser)
        (.create parser id driverId cwd spec) schedule :=
  ⟨ExecAgent.idle_ready_iff parser id driverId cwd, HttpAgent.idle_ready_iff parser id driverId cwd⟩

/-- `turn.completed` arrives before the child's exit: the agent is idle and refuses a submit. -/
theorem turn_completed_before_exit :
    ¬ Throughout (ExecAgent.step codexParser) ExecAgent.IdleReady
        (.create codexParser (js "a") (js "codex") (js "/") .empty)
        [.submit ⟨true, false⟩ (.starts ⟨js "codex", [], js "/", .empty, none, .jsonl⟩),
          .data 0 0 (js "\x7b\"type\":\"turn.completed\"\x7d\n")] := by
  intro h
  have hready := ExecAgent.ready_iff.mpr (h.last rfl)
  revert hready
  unfold ExecAgent.Ready
  decide +kernel

end Cordyceps.Agents
