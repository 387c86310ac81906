import Cordyceps.Agents.ExecController
import Cordyceps.Drivers.CodexParser

/-!
# One child at a time

The exec controller promises that at most one of its children is alive and that
`activeChild` is that child, so that a plain `submit` is refused while a child
lives and `interrupt` and `kill` reach it. The promise is kept by every step
but two: a submit that resumes after its pre-interrupt spawns without looking
again, and an `error` of a child forgets the active child whoever that is.
-/

namespace Cordyceps.Agents

open Foundations Foundations.StepMachine Drivers

variable {Scratch : Type*}

namespace ExecAgent

/-- A plain submit made now would be refused, whatever it wants to launch. -/
def Refuses (agent : ExecAgent Scratch) : Prop :=
  ∀ opts launch, opts.interruptIfBusy = false →
    ∃ reason, (agent.submit opts launch).submits =
      agent.submits ++ [⟨opts.expectMessage, .rejected reason, [], none⟩]

/-- At most one child is alive and it is the active one; a plain submit is refused while it
lives, and after an `interrupt` or a `kill` it has been signalled. -/
structure OneChild (agent : ExecAgent Scratch) : Prop where
  active_of_runs : Each (fun k submit ↦ submit.runs = true → agent.activeChild = some k)
    agent.submits
  refuses : (∃ submit ∈ agent.submits, submit.runs = true) → agent.Refuses
  interrupt_signals : ∀ submit ∈ agent.interrupt.submits,
    submit.runs = true → submit.signalled = true
  kill_signals : ∀ signal, ∀ submit ∈ (agent.kill signal).submits,
    submit.runs = true → submit.signalled = true

/-- The step spawns no child next to a living one or after the end of the agent, and forgets no
living child. -/
def KeepsOne (agent : ExecAgent Scratch) : ExecEvent → Prop
  | .resume _ (.starts _) =>
    agent.core.exited = false ∧ ∀ submit ∈ agent.submits, submit.runs = false
  | .resume _ (.fails _) => ∀ submit ∈ agent.submits, submit.runs = false
  | .error k => ∀ child, agent.childOf k = some child →
      child.errorHandled = false → ∀ submit ∈ agent.submits, submit.runs = false
  | _ => True

/-! ## The invariant of one record -/

/-- A submit that has not gone on has no child; a living child is the active child, and was
signalled if the agent ended. -/
structure Alone (active : Option ℕ) (exited : Bool) (k : ℕ) (submit : ExecSubmit) : Prop where
  unstarted : submit.phase = .suspended → submit.child = none
  living : ∀ child, submit.child = some child → child.life = .running →
    active = some k ∧ (exited = true → child.signals ≠ [])

def Sole (agent : ExecAgent Scratch) : Prop :=
  Each (Alone agent.activeChild agent.core.exited) agent.submits

theorem runs_iff {submit : ExecSubmit} : submit.runs = true ↔
    ∃ child, submit.child = some child ∧ child.life = .running := by
  simp [ExecSubmit.runs, Option.any_eq_true]

theorem runs_eq_false_iff {submit : ExecSubmit} : submit.runs = false ↔
    ∀ child, submit.child = some child → child.life ≠ .running := by
  rw [← Bool.not_eq_true, runs_iff]
  simp

theorem signalled_iff {submit : ExecSubmit} : submit.signalled = true ↔
    ∃ child, submit.child = some child ∧ child.signals ≠ [] := by
  simp [ExecSubmit.signalled, Option.any_eq_true]

/-- A change that starts no child and forgets no signal. -/
structure Tame (change : ExecSubmit → ExecSubmit) : Prop where
  unstarted : ∀ submit, (change submit).phase = .suspended →
    submit.phase = .suspended ∧ (submit.child = none → (change submit).child = none)
  living : ∀ submit child, (change submit).child = some child → child.life = .running →
    ∃ old, submit.child = some old ∧ old.life = .running ∧ (old.signals ≠ [] → child.signals ≠ [])

theorem Tame.alone {change : ExecSubmit → ExecSubmit} (hchange : Tame change)
    {active : Option ℕ} {exited : Bool} {k : ℕ} {submit : ExecSubmit}
    (h : Alone active exited k submit) : Alone active exited k (change submit) where
  unstarted hphase := by
    obtain ⟨hold, hnone⟩ := hchange.unstarted submit hphase
    exact hnone (h.unstarted hold)
  living child hchild hlife := by
    obtain ⟨old, hold, hrunning, hsignals⟩ := hchange.living submit child hchild hlife
    obtain ⟨hactive, hsignalled⟩ := h.living old hold hrunning
    exact ⟨hactive, fun hexited ↦ hsignals (hsignalled hexited)⟩

theorem Alone.of_not_runs {active other : Option ℕ} {exited ended : Bool} {k : ℕ}
    {submit : ExecSubmit} (h : Alone active exited k submit) (hruns : submit.runs = false) :
    Alone other ended k submit where
  unstarted := h.unstarted
  living child hchild hlife := absurd hlife (runs_eq_false_iff.mp hruns child hchild)

theorem Tame.of_child {change : ExecSubmit → ExecSubmit}
    (hphase : ∀ submit, (change submit).phase = .suspended → submit.phase = .suspended)
    (hchild : ∀ submit, (change submit).child = submit.child) : Tame change where
  unstarted submit h := ⟨hphase submit h, fun hnone ↦ (hchild submit).trans hnone⟩
  living submit child hfound hlife := ⟨child, (hchild submit).symm.trans hfound, hlife, id⟩

theorem Tame.onChild {change : Child → Child} (hlife : ∀ child, (change child).life = .running →
      child.life = .running)
    (hsignals : ∀ child, child.signals ≠ [] → (change child).signals ≠ []) :
    Tame (ExecSubmit.onChild change) where
  unstarted submit h := ⟨h, fun hnone ↦ by simp [ExecSubmit.onChild, hnone]⟩
  living submit child hchild hrunning := by
    obtain ⟨old, hold, rfl⟩ := Option.map_eq_some_iff.mp hchild
    exact ⟨old, hold, hlife old hrunning, hsignals old⟩

theorem Tame.comp {second first : ExecSubmit → ExecSubmit} (hsecond : Tame second)
    (hfirst : Tame first) : Tame fun submit ↦ second (first submit) where
  unstarted submit h := by
    obtain ⟨hphase, hnone⟩ := hsecond.unstarted _ h
    obtain ⟨hphase', hnone'⟩ := hfirst.unstarted submit hphase
    exact ⟨hphase', fun hchild ↦ hnone (hnone' hchild)⟩
  living submit child hchild hlife := by
    obtain ⟨middle, hmiddle, hrunning, hsignals⟩ := hsecond.living _ child hchild hlife
    obtain ⟨old, hold, hrunning', hsignals'⟩ := hfirst.living submit middle hmiddle hrunning
    exact ⟨old, hold, hrunning', fun h ↦ hsignals (hsignals' h)⟩

theorem tame_deliver (messages : List AssistantMessage) : Tame (ExecSubmit.deliver messages) := by
  refine Tame.of_child (fun submit h ↦ ?_) (ExecSubmit.child_deliver messages)
  unfold ExecSubmit.deliver at h
  split at h
  · rename_i hphase
    rw [hphase] at h
    cases h
  · exact h

theorem tame_settlePromise (outcome : Outcome) : Tame (ExecSubmit.settlePromise outcome) := by
  refine Tame.of_child (fun submit h ↦ ?_) (ExecSubmit.child_settlePromise outcome)
  unfold ExecSubmit.settlePromise at h
  split at h
  · cases h
  · exact h

theorem tame_kill (signal : Signal) : Tame (ExecSubmit.onChild (Child.kill signal)) := by
  refine Tame.onChild (fun child h ↦ ?_) fun child h ↦ ?_
  · unfold Child.kill at h
    split at h
    · assumption
    · exact h
  · unfold Child.kill
    split
    · simp
    · exact h

/-- A change whose result is past its pre-interrupt and keeps the child. -/
theorem Tame.of_phase {change : ExecSubmit → ExecSubmit}
    (hphase : ∀ submit, (change submit).phase ≠ .suspended)
    (hchild : ∀ submit, (change submit).child = submit.child) : Tame change :=
  Tame.of_child (fun submit h ↦ absurd h (hphase submit)) hchild

namespace Sole

variable {agent : ExecAgent Scratch}

theorem onSubmit (h : agent.Sole) (k : ℕ) {change : ExecSubmit → ExecSubmit}
    (hchange : Tame change) : (agent.onSubmit k change).Sole :=
  h.modify (fun _ _ _ halone ↦ halone) fun _ _ halone ↦ hchange.alone halone

theorem push (h : agent.Sole) (opts : SubmitOptions) (phase : SubmitPhase) :
    (agent.push ⟨opts.expectMessage, phase, [], none⟩).Sole :=
  h.concat ⟨fun _ ↦ rfl, nofun⟩

theorem signalActive (h : agent.Sole) (signal : Signal) : (agent.signalActive signal).Sole := by
  unfold ExecAgent.signalActive
  split
  · exact h.onSubmit _ (tame_kill signal)
  · exact h

theorem withCore (h : agent.Sole) {core : AgentCore Scratch}
    (hcore : core.exited = agent.core.exited) : Sole { agent with core := core } := by
  unfold Sole at h ⊢
  rw [hcore]
  exact h

/-- Signalling the active child reaches every living child. -/
theorem alone_signalActive (h : agent.Sole) (signal : Signal) :
    Each (Alone agent.activeChild true) (agent.signalActive signal).submits := by
  unfold ExecAgent.signalActive
  cases hactive : agent.activeChild with
  | none =>
    refine h.mono fun k submit halone ↦ ⟨halone.unstarted, fun child hchild hlife ↦ ?_⟩
    rw [hactive] at halone
    cases (halone.living child hchild hlife).1
  | some active =>
    refine h.modify
      (fun k submit hne halone ↦ ⟨halone.unstarted, fun child hchild hlife ↦ ?_⟩)
      fun submit _ halone ↦ ⟨((tame_kill signal).alone halone).unstarted,
        fun child hchild hlife ↦ ⟨rfl, fun _ ↦ ?_⟩⟩
    · rw [hactive] at halone
      exact absurd (Option.some.inj (halone.living child hchild hlife).1).symm hne
    · obtain ⟨old, _, rfl⟩ := Option.map_eq_some_iff.mp hchild
      unfold Child.kill at hlife ⊢
      split
      · simp
      · rw [if_neg ‹_›] at hlife
        exact absurd hlife ‹_›

theorem signalled_of_runs {active : Option ℕ} {submits : List ExecSubmit}
    (h : Each (Alone active true) submits) :
    ∀ submit ∈ submits, submit.runs = true → submit.signalled = true := by
  intro submit hmem hruns
  obtain ⟨k, halone⟩ := h.of_mem hmem
  obtain ⟨child, hchild, hlife⟩ := runs_iff.mp hruns
  exact signalled_iff.mpr ⟨child, hchild, (halone.living child hchild hlife).2 rfl⟩

theorem signalled_of_exited (h : agent.Sole) (hexited : agent.core.exited = true) :
    ∀ submit ∈ agent.submits, submit.runs = true → submit.signalled = true := by
  unfold Sole at h
  rw [hexited] at h
  exact signalled_of_runs h

theorem interrupt (h : agent.Sole) : agent.interrupt.Sole := by
  unfold ExecAgent.interrupt
  split
  · exact h
  · exact h.signalActive sigterm

theorem kill (h : agent.Sole) (signal : Signal) : (agent.kill signal).Sole := by
  unfold ExecAgent.kill
  split
  · exact h
  · have halone := h.alone_signalActive signal
    unfold Sole
    rw [AgentCore.exited_markExited, activeChild_signalActive]
    exact halone

theorem feed (h : agent.Sole) (parser : DriverParser Scratch) (now : Timestamp)
    (chunks : List JsString) : (agent.feed parser now chunks).Sole := by
  unfold Sole ExecAgent.feed
  rw [AgentCore.exited_feedAll]
  exact h.map fun k submit halone ↦ (tame_deliver _).alone halone

theorem say (h : agent.Sole) (now : Timestamp) (text : JsString) : (agent.say now text).Sole := by
  unfold ExecAgent.say
  split
  · exact h
  · unfold Sole
    rw [AgentCore.exited_pushMessage]
    exact h.map fun k submit halone ↦ (tame_deliver _).alone halone

theorem onData (h : agent.Sole) (parser : DriverParser Scratch) (now : Timestamp) (k : ℕ)
    (chunk : JsString) (child : Child) : (onData parser now k chunk child agent).Sole := by
  have hreceived : ∀ rest, ((agent.emitOutput chunk).onSubmit k
      (ExecSubmit.onChild (Child.received chunk rest))).Sole := fun rest ↦
    Sole.onSubmit (h.withCore rfl) k (Tame.onChild (fun _ ↦ id) fun _ ↦ id)
  unfold ExecAgent.onData
  cases child.spec.parseOutput with
  | jsonl => exact (hreceived _).feed parser now _
  | json => exact hreceived _
  | text => exact hreceived _

theorem flushOutput (h : agent.Sole) (parser : DriverParser Scratch) (now : Timestamp)
    (child : Child) : (flushOutput parser now child agent).Sole := by
  unfold ExecAgent.flushOutput
  split
  · exact h.say now _
  · exact h.feed parser now _
  · exact h.feed parser now _

/-- A child that exits leaves no other one behind. -/
theorem onExit (h : agent.Sole) (parser : DriverParser Scratch) (now : Timestamp) {k : ℕ}
    (code : Option ℤ) (signal : Option Signal) {child : Child}
    (hchild : agent.childOf k = some child)
    (hlife : child.life = .running) : (onExit parser now k code signal child agent).Sole := by
  obtain ⟨submit, hsubmit, hchild⟩ := Option.bind_eq_some_iff.mp hchild
  have hactive : agent.activeChild = some k := ((h k submit hsubmit).living child hchild hlife).1
  have hended : Sole ({ agent with activeChild := none }.onSubmit k
      (ExecSubmit.onChild (Child.ended code))) := by
    refine h.modify (fun j other hne halone ↦ ⟨halone.unstarted, fun old hold hrunning ↦ ?_⟩)
      fun other _ halone ↦ ⟨fun hphase ↦ ?_, fun old hold hrunning ↦ ?_⟩
    · have hsame := (halone.living old hold hrunning).1
      rw [hactive] at hsame
      exact absurd (Option.some.inj hsame).symm hne
    · simp [ExecSubmit.onChild, halone.unstarted hphase]
    · obtain ⟨_, _, rfl⟩ := Option.map_eq_some_iff.mp hold
      cases hrunning
  have hflushed := (hended.flushOutput parser now child).onSubmit k
    (Tame.onChild (fun _ ↦ id) fun _ ↦ id : Tame (ExecSubmit.onChild Child.clearOutput))
  unfold ExecAgent.onExit
  simp only
  split
  · exact hflushed
  · exact hflushed.onSubmit k (tame_settlePromise _)

theorem onTimer (h : agent.Sole) (k : ℕ) : (agent.onTimer k).Sole := by
  have hdisarm : Tame (ExecSubmit.onChild fun child ↦ child.disarm.kill sigterm) := by
    refine Tame.onChild (fun child hlife ↦ ?_) fun child hsignals ↦ ?_
    · unfold Child.kill at hlife
      split at hlife
      · assumption
      · exact hlife
    · unfold Child.kill
      split
      · simp
      · exact hsignals
  exact h.onSubmit k (hdisarm.comp (tame_settlePromise _))

theorem finish (h : agent.Sole) (k : ℕ) (outcome : Outcome) : (agent.finish k outcome).Sole := by
  have hcore : (if agent.core.state.status = .busy then agent.core.setStatus .idle
      else agent.core).exited = agent.core.exited := by
    split <;> simp
  refine (h.withCore hcore).onSubmit k (Tame.of_phase (fun submit ↦ ?_) fun _ ↦ rfl)
  cases outcome <;> nofun

/-- An `error` leaves the invariant alone when no child lives. -/
theorem onError (h : agent.Sole) {k : ℕ} {child : Child}
    (hquiet : child.errorHandled = false → ∀ submit ∈ agent.submits, submit.runs = false) :
    (agent.onError k child).Sole := by
  unfold ExecAgent.onError
  split
  · exact h
  · have hdead := hquiet (Bool.eq_false_iff.mpr ‹_›)
    have hnone : Sole { agent with activeChild := none } := fun position submit hget ↦
      (h position submit hget).of_not_runs (hdead submit (List.mem_of_getElem? hget))
    exact hnone.onSubmit k
      ((tame_settlePromise _).comp (Tame.onChild (fun _ ↦ id) fun _ ↦ id))

/-- A spawn keeps the invariant when nothing else lives and the agent has not ended. -/
theorem spawn (h : agent.Sole) (k : ℕ) (spec : ExecSpec) {life : Life}
    (hdead : ∀ submit ∈ agent.submits, submit.runs = false)
    (hexited : life = .running → agent.core.exited = false) : (agent.spawn k spec life).Sole := by
  have hsame : (agent.spawn k spec life).core.exited = agent.core.exited :=
    AgentCore.exited_setStatus ..
  have hnone : Each (Alone (some k) agent.core.exited) agent.submits := fun position submit hget ↦
    (h position submit hget).of_not_runs (hdead submit (List.mem_of_getElem? hget))
  unfold Sole
  rw [hsame]
  refine hnone.modify (fun _ _ _ halone ↦ halone)
    fun submit _ _ ↦ ⟨nofun, fun child hchild hlife ↦ ⟨rfl, fun hended ↦ ?_⟩⟩
  cases hchild
  rw [hexited hlife] at hended
  cases hended

/-- Going on to spawn keeps the invariant under the guard of the step. -/
theorem proceed (h : agent.Sole) {k : ℕ} {launch : Launch}
    (hkeeps : KeepsOne agent (.resume k launch)) : (agent.proceed k launch).Sole := by
  cases launch with
  | buildThrows => exact h.onSubmit k (Tame.of_phase (fun _ ↦ nofun) fun _ ↦ rfl)
  | spawnThrows spec =>
    exact Sole.onSubmit (h.withCore (by simp)) k (Tame.of_phase (fun _ ↦ nofun) fun _ ↦ rfl)
  | fails spec => exact h.spawn k spec hkeeps nofun
  | starts spec => exact h.spawn k spec hkeeps.2 fun _ ↦ hkeeps.1

/-- Without an active child nothing lives. -/
theorem not_runs (h : agent.Sole) (hactive : agent.activeChild = none) :
    ∀ submit ∈ agent.submits, submit.runs = false := by
  intro submit hmem
  obtain ⟨k, halone⟩ := h.of_mem hmem
  apply runs_eq_false_iff.mpr
  intro child hchild hlife
  have hsome := (halone.living child hchild hlife).1
  rw [hactive] at hsome
  cases hsome

theorem submit (h : agent.Sole) (opts : SubmitOptions) (launch : Launch) :
    (agent.submit opts launch).Sole := by
  unfold ExecAgent.submit
  split
  · exact h.push opts _
  · rename_i hexited
    split
    · split
      · exact (h.push opts _).signalActive sigterm
      · exact h.push opts _
    · rename_i hactive
      have hpushed := h.push opts .suspended
      have hdead := hpushed.not_runs hactive
      apply hpushed.proceed
      cases launch with
      | buildThrows => trivial
      | spawnThrows spec => trivial
      | fails spec => exact hdead
      | starts spec => exact ⟨Bool.eq_false_iff.mpr hexited, hdead⟩

/-- The invariant is all that the promise needs. -/
theorem oneChild (h : agent.Sole) : agent.OneChild where
  active_of_runs k submit hget hruns := by
    obtain ⟨child, hchild, hlife⟩ := runs_iff.mp hruns
    exact ((h k submit hget).living child hchild hlife).1
  refuses := by
    rintro ⟨submit, hmem, hruns⟩ opts launch hplain
    unfold ExecAgent.submit
    split
    · exact ⟨_, rfl⟩
    · split
      · rw [if_neg (by simp [hplain])]
        exact ⟨_, rfl⟩
      · rename_i hactive
        rw [h.not_runs hactive submit hmem] at hruns
        cases hruns
  interrupt_signals := by
    unfold ExecAgent.interrupt
    split
    · exact h.signalled_of_exited ‹_›
    · exact signalled_of_runs (h.alone_signalActive sigterm)
  kill_signals signal := by
    unfold ExecAgent.kill
    split
    · exact h.signalled_of_exited ‹_›
    · exact signalled_of_runs (h.alone_signalActive signal)

theorem create (parser : DriverParser Scratch) (id driverId cwd : JsString)
    (env : JsMap JsString JsString) : Sole (create parser id driverId cwd env) :=
  Each.nil

/-- Every guarded step keeps the invariant. -/
theorem step (h : agent.Sole) {parser : DriverParser Scratch} {event : ExecEvent}
    {next : ExecAgent Scratch} (hkeeps : KeepsOne agent event)
    (hstep : agent.step parser event = some next) : next.Sole := by
  obtain ⟨_, hturn⟩ := turn_of_step hstep
  cases hturn with
  | submit opts launch => exact h.submit opts launch
  | resume launch hphase => exact h.proceed hkeeps
  | settle hphase => exact h.finish _ _
  | data now chunk hchild hlife => exact h.onData parser now _ chunk _
  | exit now code signal hchild hlife => exact h.onExit parser now code signal hchild hlife
  | error hchild => exact h.onError (hkeeps _ hchild)
  | timer hchild harmed => exact h.onTimer _
  | interrupt => exact h.interrupt
  | kill signal => exact h.kill signal

end Sole

/-! ## The two steps that break the promise -/

section Break

variable {agent : ExecAgent Scratch}

/-- A spawn next to a living child leaves that child without the active mark. -/
theorem not_oneChild_spawn (h : agent.Sole) {k : ℕ} (spec : ExecSpec) (life : Life)
    (hphase : agent.phaseOf k = some .suspended)
    {submit : ExecSubmit} (hmem : submit ∈ agent.submits) (hruns : submit.runs = true) :
    ¬ (agent.spawn k spec life).OneChild := by
  intro hone
  obtain ⟨position, hget⟩ := List.mem_iff_getElem?.mp hmem
  obtain ⟨child, hchild, _⟩ := runs_iff.mp hruns
  have hne : k ≠ position := by
    rintro rfl
    rw [phaseOf, hget, Option.map_some, Option.some.injEq] at hphase
    rw [(h k submit hget).unstarted hphase] at hchild
    cases hchild
  have hkept : (agent.spawn k spec life).submits[position]? = some submit := by
    simp only [spawn, onSubmit, List.getElem?_modify_ne _ _ hne]
    exact hget
  exact hne (Option.some.inj (hone.active_of_runs position submit hkept hruns))

/-- A child started after the end of the agent is out of reach of `interrupt` and `kill`. -/
theorem not_oneChild_spawn_exited {k : ℕ} (spec : ExecSpec) {submit : ExecSubmit}
    (hget : agent.submits[k]? = some submit) (hexited : agent.core.exited = true) :
    ¬ (agent.spawn k spec .running).OneChild := by
  intro hone
  have hended : (agent.spawn k spec .running).core.exited = true :=
    (AgentCore.exited_setStatus ..).trans hexited
  have hstarted : (agent.spawn k spec .running).submits[k]? = some { submit with
      phase := .awaiting none
      child := some (.spawned spec (spec.env.assign agent.env) .running) } := by
    simp [spawn, onSubmit, hget]
  have hsignalled := hone.interrupt_signals
  unfold interrupt at hsignalled
  rw [if_pos hended] at hsignalled
  have hsent := hsignalled _ (List.mem_of_getElem? hstarted) rfl
  simp [ExecSubmit.signalled, Child.spawned] at hsent

/-- An `error` forgets the active child while a child lives. -/
theorem not_oneChild_onError {k : ℕ} {child : Child} (hhandled : child.errorHandled = false)
    {submit : ExecSubmit} (hmem : submit ∈ agent.submits) (hruns : submit.runs = true) :
    ¬ (agent.onError k child).OneChild := by
  intro hone
  unfold onError at hone
  rw [if_neg (by simp [hhandled])] at hone
  obtain ⟨position, hget⟩ := List.mem_iff_getElem?.mp hmem
  obtain ⟨old, hold, hlife⟩ := runs_iff.mp hruns
  have hactive := hone.active_of_runs position
  simp only [onSubmit, List.getElem?_modify, hget, Option.map_eq_map, Option.map_some,
    Option.some.injEq, forall_eq'] at hactive
  have hstill : (if k = position then
      (submit.onChild fun child ↦ { child.disarm with errorHandled := true }).settlePromise
        (.rejected .childError) else submit).runs = true := by
    split
    · refine runs_iff.mpr ⟨{ old.disarm with errorHandled := true }, ?_, hlife⟩
      rw [ExecSubmit.child_settlePromise, ExecSubmit.onChild, hold]
      rfl
    · exact hruns
  cases hactive hstill

theorem not_oneChild_step (h : agent.Sole) {parser : DriverParser Scratch} {event : ExecEvent}
    {next : ExecAgent Scratch} (hbreaks : ¬ KeepsOne agent event)
    (hstep : agent.step parser event = some next) : ¬ next.OneChild := by
  obtain ⟨_, hturn⟩ := turn_of_step hstep
  cases hturn with
  | resume launch hphase =>
    cases launch with
    | buildThrows => exact absurd trivial hbreaks
    | spawnThrows spec => exact absurd trivial hbreaks
    | fails spec =>
      simp only [KeepsOne, not_forall, Bool.not_eq_false] at hbreaks
      obtain ⟨submit, hmem, hruns⟩ := hbreaks
      exact not_oneChild_spawn h spec .failed hphase hmem hruns
    | starts spec =>
      simp only [KeepsOne, not_and_or, not_forall, Bool.not_eq_false] at hbreaks
      rcases hbreaks with hexited | ⟨submit, hmem, hruns⟩
      · obtain ⟨submit, hget, _⟩ := Option.map_eq_some_iff.mp hphase
        exact not_oneChild_spawn_exited spec hget hexited
      · exact not_oneChild_spawn h spec .running hphase hmem hruns
  | error hchild =>
    simp only [KeepsOne, hchild, Option.some.injEq, forall_eq', not_forall,
      Bool.not_eq_false] at hbreaks
    obtain ⟨hhandled, submit, hmem, hruns⟩ := hbreaks
    exact not_oneChild_onError hhandled hmem hruns
  | _ => exact absurd trivial hbreaks

end Break

/-- In every state of a run there is one child at a time exactly when no step of the run spawns
next to a living child or forgets one. -/
theorem one_child_iff (parser : DriverParser Scratch) (id driverId cwd : JsString)
    (env : JsMap JsString JsString) (schedule : List ExecEvent) :
    Throughout (step parser) OneChild (create parser id driverId cwd env) schedule ↔
      StepsMeet (step parser) KeepsOne (create parser id driverId cwd env) schedule :=
  @throughout_iff _ _ (step parser) KeepsOne Sole OneChild
    (fun _ _ _ hsole hkeeps hstep ↦ hsole.step hkeeps hstep)
    (fun _ _ _ hsole hbreaks hstep ↦ not_oneChild_step hsole hbreaks hstep)
    (fun _ hsole ↦ hsole.oneChild) _ (Sole.create parser id driverId cwd env) schedule

/-- A child ignores SIGTERM while a second submit interrupts it and goes on to spawn: two
children are alive. -/
theorem interrupting_submit_spawns_second_child :
    ¬ Throughout (step codexParser) OneChild
        (create codexParser (js "a") (js "codex") (js "/") .empty)
        [.submit ⟨true, false⟩ (.starts ⟨js "codex", [], js "/", .empty, none, .jsonl⟩),
          .submit ⟨true, true⟩ (.starts ⟨js "codex", [], js "/", .empty, none, .jsonl⟩),
          .resume 1 (.starts ⟨js "codex", [], js "/", .empty, none, .jsonl⟩)] := by
  intro h
  have hactive := (h.last rfl).active_of_runs 0 _ rfl (by decide)
  revert hactive
  decide

end ExecAgent

end Cordyceps.Agents
