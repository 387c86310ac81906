import Cordyceps.Agents.ServerHttpController
import Cordyceps.Agents.ServerWsController
import Cordyceps.Drivers.CodexParser

/-!
# Exited is final

Every controller can be marked exited while output, connections or suspended
submits are still on their way. What may still happen then must neither change
the status, nor announce another one, nor start a process or a request. The
handlers do not look at the exited mark, so this hinges on what a late feed
publishes and on three continuations: a submit after its pre-interrupt, a submit
after its control, and `start` after its delay.
-/

namespace Cordyceps.Agents

open Foundations Foundations.LineFraming Foundations.StepMachine Drivers

variable {Scratch : Type*}

/-! ## The shared part -/

namespace AgentCore

/-- What one transition may do with the shared part once the agent is marked exited. -/
structure Final (before after : AgentCore Scratch) : Prop where
  marked : after.exited = true → after.state.status = .exited
  stays : before.exited = true → after.exited = true
  announced : before.exited = true → ∃ states, after.announced = before.announced ++ states ∧
    ∀ state ∈ states, state.status = .exited

/-- Feeding the chunks to an exited agent publishes the exited status only. -/
def QuietFeed (parser : DriverParser Scratch) (now : Timestamp) (chunks : List JsString)
    (core : AgentCore Scratch) : Prop :=
  core.exited = true → ∀ state ∈ parser.published now chunks core.state core.scratch,
    state.status = .exited

/-- The status of an exited agent says so. -/
def Marked (core : AgentCore Scratch) : Prop := core.exited = true → core.state.status = .exited

/-- Nothing changed that the end of an agent is about. -/
structure Silent (before after : AgentCore Scratch) : Prop where
  exited : after.exited = before.exited
  state : after.state = before.state
  scratch : after.scratch = before.scratch
  announced : after.announced = before.announced

variable {before after core : AgentCore Scratch}

theorem Silent.refl (core : AgentCore Scratch) : Silent core core := ⟨rfl, rfl, rfl, rfl⟩

/-- Passing on a chunk of output. -/
theorem Silent.output (core : AgentCore Scratch) (event text : JsString) :
    Silent core (core.record [.emit event (.text text)]) := by
  refine ⟨rfl, rfl, rfl, ?_⟩
  rw [announced_record]
  exact List.append_nil _

theorem Silent.pushMessage (core : AgentCore Scratch) (message : AssistantMessage) :
    Silent core (core.pushMessage message) := by
  obtain ⟨_, _, hannounced⟩ := core.pushMessages_eq [message]
  exact ⟨rfl, rfl, rfl, hannounced⟩

theorem Silent.final (h : Silent before after) (hmarked : Marked before) : Final before after where
  marked hexited := by
    rw [h.state]
    exact hmarked (h.exited ▸ hexited)
  stays hexited := by rw [h.exited, hexited]
  announced _ := ⟨[], by rw [h.announced, List.append_nil], by simp⟩

/-- Before the end nothing is asked but that the mark and the status go together. -/
theorem Final.of_live (hlive : before.exited = false) (hmarked : Marked after) :
    Final before after where
  marked := hmarked
  stays hexited := by simp [hlive] at hexited
  announced hexited := by simp [hlive] at hexited

/-- The end may be reported again. -/
theorem Final.markExited (code : ℤ) (payload : Json) :
    Final core (core.markExited code payload) := by
  refine ⟨fun _ ↦ rfl, fun _ ↦ rfl, fun _ ↦ ⟨[core.state.withStatus .exited], ?_, by simp⟩⟩
  rw [AgentCore.markExited, announced_record, announced_publishState]
  exact List.append_nil _

/-- A status written after the end has to be the exited one. -/
theorem setStatus_final_iff (hmarked : Marked core) (status : Status) :
    Final core (core.setStatus status) ↔ (core.exited = true → status = .exited) := by
  constructor
  · intro hfinal hexited
    have hstatus := hfinal.marked ((exited_setStatus core status).trans hexited)
    rwa [state_setStatus] at hstatus
  · intro hstatus
    cases hexited : core.exited with
    | false => exact Final.of_live hexited fun h ↦ by simp [hexited] at h
    | true =>
      have hsame : core.setStatus status = core := by
        rw [setStatus, if_pos ((hmarked hexited).trans (hstatus hexited).symm)]
      rw [hsame]
      exact (Silent.refl core).final hmarked

/-- The `finally` block of a submit does not touch an exited agent, whose status is not busy. -/
theorem Final.finish (hmarked : Marked core) :
    Final core (if core.state.status = .busy then core.setStatus .idle else core) := by
  split
  · rename_i hbusy
    rw [setStatus_final_iff hmarked]
    intro hexited
    simp [hmarked hexited] at hbusy
  · exact (Silent.refl core).final hmarked

/-- A feed keeps the end final exactly when it is quiet. -/
theorem feedAll_final_iff (hsilent : Silent before core) (hmarked : Marked before)
    (parser : DriverParser Scratch) (now : Timestamp) (chunks : List JsString) :
    Final before (core.feedAll parser now chunks).1 ↔ before.QuietFeed parser now chunks := by
  obtain ⟨_, _, _, hannounced⟩ := core.feedAll_eq parser now chunks
  rw [hsilent.state, hsilent.scratch, hsilent.announced] at hannounced
  constructor
  · intro hfinal hexited state hmem
    obtain ⟨states, hstates, hquiet⟩ := hfinal.announced hexited
    have hsame : states = parser.published now chunks before.state before.scratch := by
      rw [hannounced] at hstates
      exact (List.append_cancel_left hstates).symm
    exact hquiet state (hsame ▸ hmem)
  · intro hquiet
    refine ⟨fun hexited ↦ ?_, fun hexited ↦ ?_, fun hexited ↦ ⟨_, hannounced, hquiet hexited⟩⟩
    · rw [exited_feedAll, hsilent.exited] at hexited
      rw [state_feedAll, hsilent.state, hsilent.scratch, DriverParser.after]
      cases hlast : (parser.published now chunks before.state before.scratch).getLast? with
      | none => exact hmarked hexited
      | some last => exact hquiet hexited last (List.mem_of_getLast? hlast)
    · rw [exited_feedAll, hsilent.exited, hexited]

theorem Marked.create (id driverId cwd : JsString) (state : AgentState) (scratch : Scratch)
    (mode : DriverMode) :
    Marked (announce ⟨id, state, [], false, none, scratch, []⟩ driverId cwd mode) :=
  nofun

end AgentCore

/-! ## Exec -/

namespace ExecSubmit

/-- A process was started for the submit. -/
def launched (submit : ExecSubmit) : Bool := submit.child.any fun child ↦ child.life ≠ .failed

end ExecSubmit

namespace ExecAgent

/-- How many processes were started. -/
def launches (agent : ExecAgent Scratch) : ℕ := agent.submits.countP ExecSubmit.launched

/-- `exited` is final along a transition: the status, the announcements and the processes. -/
def Final (agent : ExecAgent Scratch) (_event : ExecEvent) (next : ExecAgent Scratch) : Prop :=
  agent.core.Final next.core ∧ (agent.core.exited = true → next.launches = agent.launches)

/-- The step does not wake an exited agent: what is fed is quiet, and a submit that goes on after
its pre-interrupt does not get past `buildExec`. -/
def LeavesExited (parser : DriverParser Scratch) (agent : ExecAgent Scratch) : ExecEvent → Prop
  | .resume _ launch => agent.core.exited = true → launch = .buildThrows
  | .data k now chunk => ∀ child, agent.childOf k = some child → child.spec.parseOutput = .jsonl →
      agent.core.QuietFeed parser now (lines newline (child.stdoutBuf ++ chunk))
  | .exit k now _ _ => ∀ child, agent.childOf k = some child → child.spec.parseOutput ≠ .text →
      agent.core.QuietFeed parser now (piece child.stdoutBuf ++ [[]])
  | _ => True

section Launches

variable {agent : ExecAgent Scratch} {k : ℕ}

theorem launches_onSubmit {change : ExecSubmit → ExecSubmit}
    (hchange : ∀ submit, agent.submits[k]? = some submit →
      (change submit).launched = submit.launched) :
    (agent.onSubmit k change).launches = agent.launches :=
  countP_modify hchange

theorem launched_settlePromise (outcome : Outcome) (submit : ExecSubmit) :
    (submit.settlePromise outcome).launched = submit.launched := by
  unfold ExecSubmit.settlePromise
  split <;> rfl

theorem launched_onChild {change : Child → Child}
    (hchange : ∀ child, (change child).life = child.life) (submit : ExecSubmit) :
    (submit.onChild change).launched = submit.launched := by
  cases hchild : submit.child with
  | none => simp [ExecSubmit.onChild, ExecSubmit.launched, hchild]
  | some child => simp [ExecSubmit.onChild, ExecSubmit.launched, hchild, hchange]

theorem launches_onChild (change : Child → Child)
    (hchange : ∀ child, (change child).life = child.life) :
    (agent.onSubmit k (ExecSubmit.onChild change)).launches = agent.launches :=
  launches_onSubmit fun submit _ ↦ launched_onChild hchange submit

/-- Delivering messages starts nothing. -/
theorem launches_deliver (messages : List AssistantMessage) (submits : List ExecSubmit) :
    (submits.map (ExecSubmit.deliver messages)).countP ExecSubmit.launched =
      submits.countP ExecSubmit.launched := by
  apply countP_map
  intro submit
  unfold ExecSubmit.deliver
  split <;> rfl

theorem launches_feed (parser : DriverParser Scratch) (now : Timestamp) (chunks : List JsString) :
    (agent.feed parser now chunks).launches = agent.launches :=
  launches_deliver _ agent.submits

theorem launches_flushOutput (parser : DriverParser Scratch) (now : Timestamp) (child : Child) :
    (flushOutput parser now child agent).launches = agent.launches := by
  unfold flushOutput say
  split
  · split
    · rfl
    · exact launches_deliver _ agent.submits
  · exact launches_feed parser now _
  · exact launches_feed parser now _

theorem launches_onData (parser : DriverParser Scratch) (now : Timestamp) (chunk : JsString)
    (child : Child) : (onData parser now k chunk child agent).launches = agent.launches := by
  have hreceived : ∀ rest, ((agent.emitOutput chunk).onSubmit k
      (ExecSubmit.onChild (Child.received chunk rest))).launches = agent.launches :=
    fun rest ↦ launches_onChild _ fun _ ↦ rfl
  unfold onData
  split
  · exact (launches_feed parser now _).trans (hreceived _)
  · exact hreceived _
  · exact hreceived _

/-- The end of a running child is no start. -/
theorem launches_onExit (parser : DriverParser Scratch) (now : Timestamp) (code : Option ℤ)
    (signal : Option Signal) {child : Child} (hchild : agent.childOf k = some child)
    (hlife : child.life = .running) :
    (onExit parser now k code signal child agent).launches = agent.launches := by
  have hended : ({ agent with activeChild := none }.onSubmit k
      (ExecSubmit.onChild (Child.ended code))).launches = agent.launches := by
    apply launches_onSubmit
    intro submit hget
    have hown : submit.child = some child := by
      simpa [childOf, show agent.submits[k]? = some submit from hget] using hchild
    simp [ExecSubmit.onChild, ExecSubmit.launched, hown, Child.ended, hlife]
  have hflushed : (({ agent with activeChild := none }.onSubmit k
      (ExecSubmit.onChild (Child.ended code))).flushOutput parser now child |>.onSubmit k
        (ExecSubmit.onChild Child.clearOutput)).launches = agent.launches := by
    rw [launches_onChild Child.clearOutput fun _ ↦ rfl, launches_flushOutput, hended]
  unfold onExit
  simp only
  split
  · exact hflushed
  · rw [launches_onSubmit fun submit _ ↦ launched_settlePromise _ submit]
    exact hflushed

end Launches

/-- A turn that leaves the shared part alone and starts nothing. -/
theorem Final.of_same {agent next : ExecAgent Scratch} {event : ExecEvent}
    (hmarked : agent.core.Marked) (hcore : next.core = agent.core)
    (hlaunches : next.launches = agent.launches) : Final agent event next := by
  refine ⟨?_, fun _ ↦ hlaunches⟩
  rw [hcore]
  exact (AgentCore.Silent.refl _).final hmarked

/-- Nothing but `proceed` starts a process; from an exited agent it may do nothing at all. -/
theorem proceed_final_iff {agent : ExecAgent Scratch} (hmarked : agent.core.Marked) (k : ℕ)
    (launch : Launch) : Final agent (.resume k launch) (agent.proceed k launch) ↔
      (agent.core.exited = true → launch = .buildThrows) := by
  have hbusy : ∀ next : ExecAgent Scratch, next.core = agent.core.setStatus .busy →
      (Final agent (.resume k launch) next ↔ agent.core.exited = false) := by
    intro next hcore
    constructor
    · intro hfinal
      have hstatus := (AgentCore.setStatus_final_iff hmarked .busy).mp (hcore ▸ hfinal.1)
      cases hexited : agent.core.exited with
      | false => rfl
      | true => cases hstatus hexited
    · intro hlive
      refine ⟨?_, by simp [hlive]⟩
      rw [hcore]
      exact (AgentCore.setStatus_final_iff hmarked .busy).mpr (by simp [hlive])
  cases launch with
  | buildThrows =>
    exact iff_of_true (Final.of_same hmarked rfl (launches_onSubmit fun _ _ ↦ rfl)) fun _ ↦ rfl
  | spawnThrows spec =>
    rw [hbusy (agent.proceed k (.spawnThrows spec)) rfl]
    simp
  | fails spec =>
    rw [hbusy (agent.proceed k (.fails spec)) rfl]
    simp
  | starts spec =>
    rw [hbusy (agent.proceed k (.starts spec)) rfl]
    simp

/-- The shared part changes with a chunk as it does with the lines that the chunk completes. -/
theorem onData_final_iff {agent : ExecAgent Scratch} (hmarked : agent.core.Marked)
    (parser : DriverParser Scratch) (now : Timestamp) {k : ℕ} (chunk : JsString) {child : Child}
    (hchild : agent.childOf k = some child) :
    Final agent (.data k now chunk) (onData parser now k chunk child agent) ↔
      LeavesExited parser agent (.data k now chunk) := by
  have hlaunches := @launches_onData _ agent k parser now chunk child
  have hsilent := AgentCore.Silent.output agent.core (agentKey agent.core.id (js "output")) chunk
  simp only [Final, hlaunches, implies_true, and_true, LeavesExited, hchild, Option.some.injEq,
    forall_eq']
  unfold onData
  cases child.spec.parseOutput with
  | jsonl =>
    simp only [true_implies]
    exact AgentCore.feedAll_final_iff hsilent hmarked parser now _
  | json => exact iff_of_true (hsilent.final hmarked) nofun
  | text => exact iff_of_true (hsilent.final hmarked) nofun

/-- The shared part after a flush depends on the shared part before it alone. -/
theorem core_flushOutput_congr {first second : ExecAgent Scratch} (hcore : first.core = second.core)
    (parser : DriverParser Scratch) (now : Timestamp) (child : Child) :
    (first.flushOutput parser now child).core = (second.flushOutput parser now child).core := by
  unfold flushOutput
  cases child.spec.parseOutput with
  | text =>
    unfold say
    cases (JsString.trimEnd child.stdoutBuf).isEmpty <;> simp [hcore]
  | json => simp [feed, hcore]
  | jsonl => simp [feed, hcore]

theorem say_final {agent : ExecAgent Scratch} (hmarked : agent.core.Marked) (now : Timestamp)
    (text : JsString) : agent.core.Final (agent.say now text).core := by
  unfold say
  split
  · exact (AgentCore.Silent.refl _).final hmarked
  · exact (AgentCore.Silent.pushMessage _ _).final hmarked

/-- The exit of a child changes the shared part as its flushed output does. -/
theorem onExit_final_iff {agent : ExecAgent Scratch} (hmarked : agent.core.Marked)
    (parser : DriverParser Scratch) (now : Timestamp) {k : ℕ} (code : Option ℤ)
    (signal : Option Signal) {child : Child} (hchild : agent.childOf k = some child)
    (hlife : child.life = .running) :
    Final agent (.exit k now code signal) (onExit parser now k code signal child agent) ↔
      LeavesExited parser agent (.exit k now code signal) := by
  have hlaunches := launches_onExit parser now code signal hchild hlife
  have hcore : (onExit parser now k code signal child agent).core =
      (flushOutput parser now child agent).core := by
    unfold onExit
    simp only
    split <;> exact core_flushOutput_congr (by rfl) parser now child
  simp only [Final, hlaunches, implies_true, and_true, LeavesExited, hchild, Option.some.injEq,
    forall_eq', hcore]
  unfold flushOutput
  cases child.spec.parseOutput with
  | text => exact iff_of_true (say_final hmarked now _) (absurd rfl)
  | json =>
    simp only [ne_eq, reduceCtorEq, not_false_eq_true, true_implies]
    exact AgentCore.feedAll_final_iff (.refl _) hmarked parser now _
  | jsonl =>
    simp only [ne_eq, reduceCtorEq, not_false_eq_true, true_implies]
    exact AgentCore.feedAll_final_iff (.refl _) hmarked parser now _

/-- Submitting to an exited agent is refused; submitting to a live one does not end it. -/
theorem submit_final {agent : ExecAgent Scratch} (hmarked : agent.core.Marked)
    (opts : SubmitOptions) (launch : Launch) :
    Final agent (.submit opts launch) (agent.submit opts launch) := by
  have hpush : ∀ phase, (agent.push ⟨opts.expectMessage, phase, [], none⟩).launches =
      agent.launches := by
    intro phase
    simp [launches, push, List.countP_append, ExecSubmit.launched]
  cases hexited : agent.core.exited with
  | true =>
    rw [submit, if_pos hexited]
    exact Final.of_same hmarked rfl (hpush _)
  | false =>
    have hlive : (agent.submit opts launch).core.exited = false := by
      rw [submit, if_neg (by simp [hexited])]
      split
      · split
        · unfold signalActive
          split <;> exact hexited
        · exact hexited
      · cases launch <;> simp [proceed, spawn, onSubmit, push, hexited]
    exact ⟨AgentCore.Final.of_live hexited fun h ↦ by simp [hlive] at h, by simp [hexited]⟩

/-- A step keeps the end final exactly under its guard. -/
theorem final_iff {parser : DriverParser Scratch} {agent next : ExecAgent Scratch}
    {event : ExecEvent} (hmarked : agent.core.Marked) (hstep : agent.step parser event = some next) :
    Final agent event next ↔ LeavesExited parser agent event := by
  obtain ⟨_, hturn⟩ := turn_of_step hstep
  cases hturn with
  | submit opts launch => exact iff_of_true (submit_final hmarked opts launch) trivial
  | resume launch hphase => exact proceed_final_iff hmarked _ launch
  | settle hphase =>
    exact iff_of_true ⟨.finish hmarked, fun _ ↦ launches_onSubmit fun _ _ ↦ rfl⟩ trivial
  | data now chunk hchild hlife => exact onData_final_iff hmarked parser now chunk hchild
  | exit now code signal hchild hlife =>
    exact onExit_final_iff hmarked parser now code signal hchild hlife
  | @error k child hchild =>
    refine iff_of_true (Final.of_same hmarked ?_ ?_) trivial
    · unfold onError
      split <;> rfl
    · unfold onError
      split
      · rfl
      · apply launches_onSubmit
        intro submit _
        rw [launched_settlePromise]
        apply launched_onChild
        intro child
        rfl
  | @timer k child hchild harmed =>
    refine iff_of_true (Final.of_same hmarked rfl (launches_onSubmit fun submit _ ↦ ?_)) trivial
    rw [launched_onChild, launched_settlePromise]
    intro child
    unfold Child.kill
    split <;> rfl
  | interrupt =>
    refine iff_of_true ?_ trivial
    unfold interrupt
    split
    · exact Final.of_same hmarked rfl rfl
    · rename_i hlive
      refine ⟨.of_live (by simpa using hlive) fun h ↦ ?_, by simp [hlive]⟩
      unfold signalActive at h
      split at h <;> exact absurd h hlive
  | kill signal =>
    refine iff_of_true ?_ trivial
    unfold kill
    split
    · exact Final.of_same hmarked rfl rfl
    · rename_i hlive
      refine ⟨?_, by simp [hlive]⟩
      simp only [core_signalActive]
      exact .markExited _ _

end ExecAgent

/-! ## Server-http -/

namespace HttpSubmit

/-- The request of the submit was issued. -/
def launched (submit : HttpSubmit) : Bool := submit.posted.isSome

end HttpSubmit

namespace HttpAgent

/-- How many requests were issued. -/
def launches (agent : HttpAgent Scratch) : ℕ := agent.submits.countP HttpSubmit.launched

/-- `exited` is final along a transition: the status, the announcements and the requests. -/
def Final (agent : HttpAgent Scratch) (_event : HttpEvent) (next : HttpAgent Scratch) : Prop :=
  agent.core.Final next.core ∧ (agent.core.exited = true → next.launches = agent.launches)

/-- The step does not wake an exited agent: what is fed is quiet, and no submit comes back from
its control. -/
def LeavesExited (parser : DriverParser Scratch) (agent : HttpAgent Scratch) : HttpEvent → Prop
  | .controlDone _ => agent.core.exited = false
  | .response _ now ok _ hasBody => ok = true → hasBody = false →
      agent.core.QuietFeed parser now [[]]
  | .chunk k now text => ∀ buffer,
      agent.phaseOf k = some (.requesting (.streaming true buffer)) →
        agent.core.QuietFeed parser now (lines newline (buffer ++ text))
  | .streamEnd k now => ∀ ndjson buffer,
      agent.phaseOf k = some (.requesting (.streaming ndjson buffer)) →
        agent.core.QuietFeed parser now (piece buffer ++ [[]])
  | _ => True

section Launches

variable {agent : HttpAgent Scratch} {k : ℕ}

theorem launches_onSubmit {change : HttpSubmit → HttpSubmit}
    (hchange : ∀ submit, (change submit).posted = submit.posted) :
    (agent.onSubmit k change).launches = agent.launches :=
  countP_modify fun submit _ ↦ congrArg Option.isSome (hchange submit)

theorem launches_push (opts : SubmitOptions) (prompt : JsString) (phase : HttpPhase) :
    (agent.push opts prompt phase).launches = agent.launches := by
  simp [launches, push, List.countP_append, HttpSubmit.launched]

theorem launches_prepare : (agent.prepare k).launches = agent.launches := by
  apply launches_onSubmit
  intro submit
  rfl

theorem launches_abortActive : agent.abortActive.launches = agent.launches := by
  unfold abortActive
  split
  · apply launches_onSubmit
    intro submit
    rfl
  · rfl

theorem launches_feed (parser : DriverParser Scratch) (now : Timestamp) (chunks : List JsString) :
    (agent.feed parser now chunks).1.launches = agent.launches := by
  apply countP_map
  intro submit
  unfold HttpSubmit.deliver
  split <;> rfl

theorem launches_feedLast (parser : DriverParser Scratch) (now : Timestamp)
    (chunks : List JsString) : (agent.feedLast parser now k chunks).launches = agent.launches :=
  calc
    (agent.feedLast parser now k chunks).launches = (agent.feed parser now chunks).1.launches := by
      apply launches_onSubmit
      intro submit
      rfl
    _ = agent.launches := launches_feed parser now chunks

theorem launches_received (ndjson : Bool) (text left : JsString) :
    (agent.onSubmit k (HttpSubmit.received ndjson text left)).launches = agent.launches := by
  apply launches_onSubmit
  intro submit
  rfl

end Launches

/-- A turn that leaves the shared part alone and issues nothing. -/
theorem Final.of_same {agent next : HttpAgent Scratch} {event : HttpEvent}
    (hmarked : agent.core.Marked) (hcore : next.core = agent.core)
    (hlaunches : next.launches = agent.launches) : Final agent event next := by
  refine ⟨?_, fun _ ↦ hlaunches⟩
  rw [hcore]
  exact (AgentCore.Silent.refl _).final hmarked

/-- The last chunks of a response keep the end final exactly when they are quiet. -/
theorem feedLast_final_iff {agent : HttpAgent Scratch} (hmarked : agent.core.Marked)
    (parser : DriverParser Scratch) (now : Timestamp) (k : ℕ) (chunks : List JsString)
    (event : HttpEvent) : Final agent event (agent.feedLast parser now k chunks) ↔
      agent.core.QuietFeed parser now chunks := by
  simp only [Final, launches_feedLast, implies_true, and_true]
  exact AgentCore.feedAll_final_iff (.refl _) hmarked parser now chunks

theorem onResponse_final_iff {agent : HttpAgent Scratch} (hmarked : agent.core.Marked)
    (parser : DriverParser Scratch) (now : Timestamp) (k : ℕ) (ok : Bool) (contentType : JsString)
    (hasBody : Bool) : Final agent (.response k now ok contentType hasBody)
      (agent.onResponse parser now k ok contentType hasBody) ↔
        LeavesExited parser agent (.response k now ok contentType hasBody) := by
  unfold onResponse LeavesExited
  cases ok with
  | false =>
    exact iff_of_true (Final.of_same hmarked rfl (launches_onSubmit fun _ ↦ rfl)) nofun
  | true =>
    cases hasBody with
    | false => simpa using feedLast_final_iff hmarked parser now k [[]] _
    | true =>
      exact iff_of_true (Final.of_same hmarked rfl (launches_onSubmit fun _ ↦ rfl)) nofun

theorem onChunk_final_iff {agent : HttpAgent Scratch} (hmarked : agent.core.Marked)
    (parser : DriverParser Scratch) (now : Timestamp) {k : ℕ} (text : JsString) {ndjson : Bool}
    {buffer : JsString} (hphase : agent.phaseOf k = some (.requesting (.streaming ndjson buffer))) :
    Final agent (.chunk k now text) (agent.onChunk parser now k text ndjson buffer) ↔
      LeavesExited parser agent (.chunk k now text) := by
  have hsilent := AgentCore.Silent.output agent.core (agentKey agent.core.id (js "output")) text
  simp only [LeavesExited, hphase, Option.some.injEq, HttpPhase.requesting.injEq,
    HttpStage.streaming.injEq]
  unfold onChunk
  cases ndjson with
  | false =>
    exact iff_of_true ⟨hsilent.final hmarked, fun _ ↦ launches_received false text _⟩ nofun
  | true =>
    have hfeed := AgentCore.feedAll_final_iff hsilent hmarked parser now
      (lines newline (buffer ++ text))
    simp only [if_true, true_and, forall_eq']
    rw [← hfeed]
    -- whether the parser threw only decides the phase of the submit
    split
    · apply and_iff_left_of_imp
      intro _ _
      rw [endRequest, launches_onSubmit fun _ ↦ by rfl]
      exact (launches_feed parser now _).trans (launches_received true text _)
    · apply and_iff_left_of_imp
      intro _ _
      exact (launches_feed parser now _).trans (launches_received true text _)

/-- A step keeps the end final exactly under its guard. -/
theorem final_iff {parser : DriverParser Scratch} {agent next : HttpAgent Scratch}
    {event : HttpEvent} (hmarked : agent.core.Marked) (hstep : agent.step parser event = some next) :
    Final agent event next ↔ LeavesExited parser agent event := by
  cases turn_of_step hstep with
  | submit opts prompt =>
    refine iff_of_true ?_ trivial
    unfold submit
    split
    · exact Final.of_same hmarked rfl (launches_push ..)
    · split
      · split
        · refine Final.of_same hmarked (core_abortActive _) ?_
          rw [launches_abortActive, launches_push]
        · exact Final.of_same hmarked rfl (launches_push ..)
      · refine Final.of_same hmarked rfl ?_
        rw [launches_prepare, launches_push]
  | controlDone hphase =>
    constructor
    · intro hfinal
      by_contra hexited
      have hstatus := (AgentCore.setStatus_final_iff hmarked .busy).mp hfinal.1
      cases hstatus (by simpa [LeavesExited] using hexited)
    · intro hlive
      refine ⟨(AgentCore.setStatus_final_iff hmarked .busy).mpr ?_, ?_⟩
      · rw [show agent.core.exited = false from hlive]
        nofun
      · rw [show agent.core.exited = false from hlive]
        nofun
  | response now ok contentType hasBody hphase =>
    exact onResponse_final_iff hmarked parser now _ ok contentType hasBody
  | chunk now text hphase => exact onChunk_final_iff hmarked parser now text hphase
  | streamEnd now hphase =>
    simpa [LeavesExited, hphase, onStreamEnd] using feedLast_final_iff hmarked parser now _ _ _
  | settle hphase =>
    exact iff_of_true ⟨.finish hmarked, fun _ ↦ launches_onSubmit fun _ ↦ rfl⟩ trivial
  | interrupt =>
    refine iff_of_true ?_ trivial
    unfold interrupt
    split
    · exact Final.of_same hmarked rfl rfl
    · exact Final.of_same hmarked (core_abortActive _) launches_abortActive
  | kill signal =>
    refine iff_of_true ?_ trivial
    unfold kill
    split
    · exact Final.of_same hmarked rfl rfl
    · rename_i hlive
      refine ⟨?_, by simp [hlive]⟩
      simp only [core_abortActive]
      exact .markExited _ _
  | rawWrite data => exact iff_of_true (Final.of_same hmarked rfl rfl) trivial
  | _ => exact iff_of_true (Final.of_same hmarked rfl (launches_onSubmit fun _ ↦ rfl)) trivial

end HttpAgent

/-! ## Pty -/

namespace PtyAgent

/-- `exited` is final along a transition: the status, the announcements and the process. -/
def Final (agent : PtyAgent Scratch) (_event : PtyEvent) (next : PtyAgent Scratch) : Prop :=
  agent.core.Final next.core ∧
    (agent.core.exited = true → next.pty.launches = agent.pty.launches)

/-- The step does not wake an exited agent: the output that is parsed is quiet. -/
def LeavesExited (parser : DriverParser Scratch) (agent : PtyAgent Scratch) : PtyEvent → Prop
  | .data now chunk => agent.core.QuietFeed parser now [chunk]
  | _ => True

/-- An agent that has not been started has not exited. -/
structure Settled (agent : PtyAgent Scratch) : Prop where
  marked : agent.core.Marked
  started : agent.core.exited = true → agent.started ≠ none

/-- A turn that leaves the shared part alone and starts nothing. -/
theorem Final.of_same {agent next : PtyAgent Scratch} {event : PtyEvent}
    (hmarked : agent.core.Marked) (hcore : next.core = agent.core)
    (hlife : next.pty.life = agent.pty.life) : Final agent event next := by
  refine ⟨?_, fun _ ↦ by rw [PtyProcess.launches, PtyProcess.launches, hlife]⟩
  rw [hcore]
  exact (AgentCore.Silent.refl _).final hmarked

theorem onPtyData_final_iff {agent : PtyAgent Scratch} (hmarked : agent.core.Marked)
    (parser : DriverParser Scratch) (now : Timestamp) (chunk : JsString) :
    Final agent (.data now chunk) (agent.onPtyData parser now chunk) ↔
      LeavesExited parser agent (.data now chunk) := by
  have hsilent := AgentCore.Silent.output agent.core (agentKey agent.core.id (js "output")) chunk
  have hfeed := AgentCore.feedAll_final_iff hsilent hmarked parser now [chunk]
  exact (and_iff_left_of_imp fun _ _ ↦ rfl).trans hfeed

/-- A step keeps the end final exactly under its guard, and started agents stay started. -/
theorem step_spec {parser : DriverParser Scratch} {agent next : PtyAgent Scratch} {event : PtyEvent}
    (h : agent.Settled) (hstep : agent.step parser event = some next) :
    (Final agent event next ↔ LeavesExited parser agent event) ∧ next.started ≠ none := by
  unfold step at hstep
  split at hstep
  · cases hstep
  · split at hstep
    · rename_i spawns hstarted
      cases hstep
      have hlive : agent.core.exited = false := by
        by_contra hexited
        exact h.started (by simpa using hexited) hstarted
      refine ⟨iff_of_true ⟨?_, by simp [hlive]⟩ trivial, by simp [start]⟩
      exact (AgentCore.Silent.refl _).final h.marked
    · cases hstep
    · cases hstep
    · rename_i hstarted
      obtain ⟨submits, crashed, rfl⟩ := call_eq hstep
      exact ⟨iff_of_true (Final.of_same h.marked rfl rfl) trivial, by simp [hstarted]⟩
    · rename_i hstarted
      cases hstep
      refine ⟨iff_of_true (Final.of_same h.marked rfl ?_) trivial, by simp [controlWrite, hstarted]⟩
      simp [controlWrite]
    · rename_i data hstarted
      cases hstep
      unfold rawWrite
      split
      · exact ⟨iff_of_true (Final.of_same h.marked rfl rfl) trivial, by simp [hstarted]⟩
      · refine ⟨iff_of_true (Final.of_same h.marked rfl ?_) trivial, by simp [controlWrite, hstarted]⟩
        simp [controlWrite]
    · rename_i hstarted
      split at hstep
      · cases hstep
      · cases hstep
        exact ⟨onPtyData_final_iff h.marked parser _ _, by simp [onPtyData, hstarted]⟩
    · rename_i hstarted
      split at hstep
      · rename_i hlife
        cases hstep
        refine ⟨iff_of_true ⟨?_, fun _ ↦ ?_⟩ trivial, by simp [onPtyExit, hstarted]⟩
        · exact AgentCore.Final.markExited _ _
        · simp [onPtyExit, PtyProcess.launches, hlife]
      · cases hstep
    · rename_i hstarted
      cases hstep
      unfold kill
      split
      · exact ⟨iff_of_true (Final.of_same h.marked rfl rfl) trivial, by simp [hstarted]⟩
      · exact ⟨iff_of_true (Final.of_same h.marked rfl (by simp)) trivial, by simp [hstarted]⟩

end PtyAgent

/-! ## Server-ws -/

namespace WsAgent

/-- How many processes were started and connections opened: the WebSocket handshake is an HTTP
request. -/
def launches (agent : WsAgent Scratch) : ℕ :=
  (if agent.server.any fun server ↦ server.life ≠ .failed then 1 else 0) +
    (if agent.socket.isSome then 1 else 0)

/-- `exited` is final along a transition: the status, the announcements, the process and the
connection. -/
def Final (agent : WsAgent Scratch) (_event : WsEvent) (next : WsAgent Scratch) : Prop :=
  agent.core.Final next.core ∧ (agent.core.exited = true → next.launches = agent.launches)

/-- The step does not wake an exited agent: frames that are parsed are quiet, and no connection
is opened once the server is gone. -/
def LeavesExited (parser : DriverParser Scratch) (agent : WsAgent Scratch) : WsEvent → Prop
  | .message now text => agent.core.QuietFeed parser now [text]
  | .delayOver validUrl => agent.core.exited = true → validUrl = false
  | _ => True

/-- An agent that has not been started has not exited, and before the delay is over there is no
socket. -/
structure Settled (agent : WsAgent Scratch) : Prop where
  marked : agent.core.Marked
  started : agent.phase = .constructed → agent.core.exited = false
  unconnected : agent.phase = .constructed ∨ agent.phase = .delaying → agent.socket = none

/-- A turn that leaves the shared part alone and starts nothing. -/
theorem Final.of_same {agent next : WsAgent Scratch} {event : WsEvent}
    (hmarked : agent.core.Marked) (hcore : next.core = agent.core)
    (hlaunches : next.launches = agent.launches) : Final agent event next := by
  refine ⟨?_, fun _ ↦ hlaunches⟩
  rw [hcore]
  exact (AgentCore.Silent.refl _).final hmarked

/-- Replacing the socket by one with another state opens no connection. -/
theorem launches_of_socket {agent next : WsAgent Scratch} (hserver : next.server = agent.server)
    (hsocket : next.socket.isSome = agent.socket.isSome) : next.launches = agent.launches := by
  rw [launches, launches, hserver, hsocket]

section Fields

variable (agent : WsAgent Scratch)

@[simp]
theorem launches_failStart (reason : StartFailure) :
    (agent.failStart reason).launches = agent.launches := by
  unfold failStart
  split <;> rfl

@[simp]
theorem phase_onConnectionClosed (code : ℤ) :
    (agent.onConnectionClosed code).phase = agent.phase := by
  unfold onConnectionClosed
  split <;> rfl

@[simp]
theorem socket_onConnectionClosed (code : ℤ) :
    (agent.onConnectionClosed code).socket = agent.socket := by
  unfold onConnectionClosed
  split <;> rfl

@[simp]
theorem launches_onConnectionClosed (code : ℤ) :
    (agent.onConnectionClosed code).launches = agent.launches := by
  unfold onConnectionClosed
  split <;> rfl

theorem onConnectionClosed_final {agent : WsAgent Scratch} {before : AgentCore Scratch}
    (hcore : agent.core = before) (hmarked : before.Marked) (code : ℤ) :
    before.Final (agent.onConnectionClosed code).core := by
  subst hcore
  unfold onConnectionClosed
  split
  · exact (AgentCore.Silent.refl _).final hmarked
  · exact .markExited _ _

end Fields

/-- Opening the connection after the end is the only start that comes too late. -/
theorem connectWs_final_iff {agent : WsAgent Scratch} (hmarked : agent.core.Marked)
    (hsocket : agent.socket = none) (validUrl : Bool) (event : WsEvent) :
    Final agent event (agent.connectWs validUrl) ↔
      (agent.core.exited = true → validUrl = false) := by
  unfold connectWs
  cases validUrl with
  | false => exact iff_of_true (Final.of_same hmarked (by simp) (by simp)) fun _ ↦ rfl
  | true =>
    have hlaunches : ({ agent with
        socket := some (.connect agent.spec), phase := .connecting } : WsAgent Scratch).launches =
          agent.launches + 1 := by
      simp [launches, hsocket]
    constructor
    · intro hfinal hexited
      have hsame := hfinal.2 hexited
      rw [if_pos rfl, hlaunches] at hsame
      omega
    · intro hnot
      have hlive : agent.core.exited = false := by simpa using hnot
      refine ⟨?_, by simp [hlive]⟩
      exact (AgentCore.Silent.refl _).final hmarked

theorem onMessage_final_iff {agent : WsAgent Scratch} (hmarked : agent.core.Marked)
    (parser : DriverParser Scratch) (now : Timestamp) (text : JsString) :
    Final agent (.message now text) (agent.onMessage parser now text) ↔
      LeavesExited parser agent (.message now text) := by
  have hsilent := AgentCore.Silent.output agent.core (agentKey agent.core.id (js "output")) text
  have hfeed := AgentCore.feedAll_final_iff hsilent hmarked parser now [text]
  exact (and_iff_left_of_imp fun _ _ ↦ rfl).trans hfeed

theorem onOpen_final {agent : WsAgent Scratch} (hmarked : agent.core.Marked) {socket : Socket}
    (hsocket : agent.socket = some socket) : Final agent .open (agent.onOpen socket) := by
  refine ⟨?_, fun _ ↦ launches_of_socket rfl (by simp [onOpen, hsocket])⟩
  unfold onOpen
  split
  · rename_i hstarting
    rw [AgentCore.setStatus_final_iff hmarked]
    intro hexited
    simp [hmarked hexited] at hstarting
  · exact (AgentCore.Silent.refl _).final hmarked

/-- A turn keeps the end final exactly under its guard. -/
theorem final_iff {parser : DriverParser Scratch} {agent next : WsAgent Scratch} {event : WsEvent}
    (h : agent.Settled) (hturn : Turn parser agent event next) :
    Final agent event next ↔ LeavesExited parser agent event := by
  cases hturn with
  | start launch validUrl hphase =>
    have hlive := h.started hphase
    refine iff_of_true ?_ trivial
    unfold start
    split
    · cases launch with
      | throws => exact Final.of_same h.marked (by simp) (by simp)
      | fails => exact ⟨(AgentCore.Silent.refl _).final h.marked, by simp [hlive]⟩
      | starts => exact ⟨(AgentCore.Silent.refl _).final h.marked, by simp [hlive]⟩
    · rw [connectWs_final_iff h.marked (h.unconnected (.inl hphase))]
      simp [hlive]
  | delayOver validUrl hphase =>
    exact connectWs_final_iff h.marked (h.unconnected (.inr hphase)) validUrl _
  | serverError hserver => exact iff_of_true (Final.of_same h.marked rfl rfl) trivial
  | serverExit code hserver hlife =>
    refine iff_of_true ⟨onConnectionClosed_final (by rfl) h.marked _, fun _ ↦ ?_⟩ trivial
    rw [onServerExit, launches_onConnectionClosed]
    simp [launches, hserver, hlife]
  | «open» hsocket hstate => exact iff_of_true (onOpen_final h.marked hsocket) trivial
  | error hsocket =>
    refine iff_of_true ?_ trivial
    unfold onError
    split
    · exact Final.of_same h.marked rfl rfl
    · apply Final.of_same h.marked (by simp)
      rw [launches_failStart]
      exact launches_of_socket rfl (by simp [hsocket])
  | message now text hsocket hstate => exact onMessage_final_iff h.marked parser now text
  | close code hsocket hhandled =>
    refine iff_of_true ⟨onConnectionClosed_final (by rfl) h.marked _, fun _ ↦ ?_⟩ trivial
    rw [onClose, launches_onConnectionClosed]
    exact launches_of_socket rfl (by simp [hsocket])
  | connectTimer hsocket harmed =>
    refine iff_of_true (Final.of_same h.marked (by simp [onConnectTimer]) ?_) trivial
    rw [onConnectTimer, launches_failStart]
    exact launches_of_socket rfl (by simp [hsocket])
  | call event hcall =>
    obtain ⟨submits, crashed, rfl⟩ := call_eq hcall
    exact iff_of_true (Final.of_same h.marked rfl rfl) trivial
  | rawWrite data =>
    refine iff_of_true ?_ trivial
    unfold rawWrite
    split
    · rename_i hsocket
      split
      · exact Final.of_same h.marked rfl rfl
      · exact Final.of_same h.marked rfl (launches_of_socket rfl (by simp [hsocket]))
    · exact Final.of_same h.marked rfl rfl
  | kill signal =>
    refine iff_of_true ?_ trivial
    unfold kill
    split
    · exact Final.of_same h.marked rfl rfl
    · rename_i hlive
      exact ⟨(AgentCore.Silent.refl _).final h.marked, by simp [hlive]⟩
  | killTimer hclosing =>
    refine iff_of_true ⟨onConnectionClosed_final (by rfl) h.marked _, fun _ ↦ ?_⟩ trivial
    rw [onKillTimer, launches_onConnectionClosed]
    rfl

/-- A rejected `start` is neither about to begin nor waiting for its delay. -/
theorem phase_failStart (agent : WsAgent Scratch) (reason : StartFailure) :
    ¬ ((agent.failStart reason).phase = .constructed ∨
      (agent.failStart reason).phase = .delaying) := by
  unfold failStart
  split <;> simp [*]

namespace Settled

variable {agent next : WsAgent Scratch}

/-- Turns other than `start` do not go back to the beginning of `start`. -/
theorem of_phase (h : agent.Settled) (hnot : agent.phase ≠ .constructed)
    (hmarked : next.core.Marked)
    (hphase : next.phase = .constructed ∨ next.phase = .delaying → agent.phase = next.phase)
    (hsocket : agent.socket = none → next.socket = none) : next.Settled where
  marked := hmarked
  started hconstructed := absurd ((hphase (.inl hconstructed)).trans hconstructed) hnot
  unconnected hearly := by
    apply hsocket
    apply h.unconnected
    rw [hphase hearly]
    exact hearly

/-- A turn that ends with `start` rejected or the connection being opened. -/
theorem of_late (hmarked : next.core.Marked)
    (hphase : ¬ (next.phase = .constructed ∨ next.phase = .delaying)) : next.Settled where
  marked := hmarked
  started hconstructed := absurd (.inl hconstructed) hphase
  unconnected hearly := absurd hearly hphase

theorem connectWs (hmarked : (agent.connectWs validUrl).core.Marked) :
    (agent.connectWs validUrl).Settled := by
  apply of_late hmarked
  unfold WsAgent.connectWs
  split
  · simp
  · exact phase_failStart agent _

theorem step (h : agent.Settled) {parser : DriverParser Scratch} {event : WsEvent}
    (hturn : Turn parser agent event next)
    (hfirst : agent.phase = .constructed → ∃ launch validUrl, event = .start launch validUrl)
    (hmarked : next.core.Marked) : next.Settled := by
  have hnot : ∀ other, event = other → (∀ launch validUrl, other ≠ .start launch validUrl) →
      agent.phase ≠ .constructed := by
    intro other hevent hother hphase
    obtain ⟨launch, validUrl, hstart⟩ := hfirst hphase
    exact hother launch validUrl (hevent.symm.trans hstart)
  cases hturn with
  | start launch validUrl hphase =>
    unfold start at hmarked ⊢
    split
    · cases launch with
      | throws => exact of_late (by simpa using h.marked) (phase_failStart agent _)
      | fails => exact ⟨h.marked, nofun, fun _ ↦ h.unconnected (.inl hphase)⟩
      | starts => exact ⟨h.marked, nofun, fun _ ↦ h.unconnected (.inl hphase)⟩
    · rename_i hspec
      simp only [hspec] at hmarked
      exact connectWs hmarked
  | delayOver validUrl hphase => exact connectWs hmarked
  | serverError hserver => exact h.of_phase (hnot _ rfl nofun) hmarked (fun _ ↦ rfl) id
  | serverExit code hserver hlife =>
    exact h.of_phase (hnot _ rfl nofun) hmarked (fun _ ↦ by simp [onServerExit])
      (by simp [onServerExit])
  | «open» hsocket hstate =>
    refine h.of_phase (hnot _ rfl nofun) hmarked (fun hearly ↦ ?_) (by simp [hsocket])
    by_cases hconnecting : agent.phase = .connecting
    · simp [onOpen, hconnecting] at hearly
    · simp [onOpen, hconnecting]
  | error hsocket =>
    unfold onError at hmarked ⊢
    split
    · exact h.of_phase (hnot _ rfl nofun) h.marked (fun _ ↦ rfl) id
    · exact of_late (by simpa using h.marked) (phase_failStart _ _)
  | message now text hsocket hstate =>
    exact h.of_phase (hnot _ rfl nofun) hmarked (fun _ ↦ rfl) id
  | close code hsocket hhandled =>
    exact h.of_phase (hnot _ rfl nofun) hmarked (fun _ ↦ by simp [onClose]) (by simp [hsocket])
  | connectTimer hsocket harmed => exact of_late hmarked (phase_failStart _ _)
  | call event hcall =>
    obtain ⟨submits, crashed, rfl⟩ := call_eq hcall
    exact h.of_phase (hnot _ rfl nofun) hmarked (fun _ ↦ rfl) id
  | rawWrite data =>
    refine h.of_phase (hnot _ rfl nofun) hmarked (fun _ ↦ ?_) fun hnone ↦ ?_
    · unfold rawWrite
      split
      · split <;> rfl
      · rfl
    · simp [rawWrite, hnone]
  | kill signal =>
    refine h.of_phase (hnot _ rfl nofun) hmarked (fun _ ↦ ?_) fun hnone ↦ ?_
    · unfold kill
      split <;> rfl
    · unfold kill
      split
      · exact hnone
      · simp [hnone]
  | killTimer hclosing =>
    exact h.of_phase (hnot _ rfl nofun) hmarked (fun _ ↦ by simp [onKillTimer])
      (by simp [onKillTimer])

end Settled

end WsAgent

/-! ## The four controllers -/

theorem ExecAgent.exited_final_iff (parser : DriverParser Scratch) (id driverId cwd : JsString)
    (env : JsMap JsString JsString) (schedule : List ExecEvent) :
    Along (ExecAgent.step parser) ExecAgent.Final (.create parser id driverId cwd env) schedule ↔
      StepsMeet (ExecAgent.step parser) (ExecAgent.LeavesExited parser)
        (.create parser id driverId cwd env) schedule := by
  refine @along_iff _ _ (ExecAgent.step parser) (ExecAgent.LeavesExited parser)
    (fun agent ↦ agent.core.Marked) ExecAgent.Final ?_ ?_ _ (AgentCore.Marked.create _ _ _ _ _ _) schedule
  · intro agent event next hmarked hleaves hstep
    have hfinal := (ExecAgent.final_iff hmarked hstep).mpr hleaves
    exact ⟨hfinal.1.marked, hfinal⟩
  · intro agent event next hmarked hwakes hstep hfinal
    exact hwakes ((ExecAgent.final_iff hmarked hstep).mp hfinal)

theorem HttpAgent.exited_final_iff (parser : DriverParser Scratch) (id driverId cwd : JsString)
    (spec : ServerHttpSpec) (schedule : List HttpEvent) :
    Along (HttpAgent.step parser) HttpAgent.Final (.create parser id driverId cwd spec) schedule ↔
      StepsMeet (HttpAgent.step parser) (HttpAgent.LeavesExited parser)
        (.create parser id driverId cwd spec) schedule := by
  refine @along_iff _ _ (HttpAgent.step parser) (HttpAgent.LeavesExited parser)
    (fun agent ↦ agent.core.Marked) HttpAgent.Final ?_ ?_ _ (AgentCore.Marked.create _ _ _ _ _ _) schedule
  · intro agent event next hmarked hleaves hstep
    have hfinal := (HttpAgent.final_iff hmarked hstep).mpr hleaves
    exact ⟨hfinal.1.marked, hfinal⟩
  · intro agent event next hmarked hwakes hstep hfinal
    exact hwakes ((HttpAgent.final_iff hmarked hstep).mp hfinal)

theorem PtyAgent.exited_final_iff (parser : DriverParser Scratch) (id driverId cwd : JsString)
    (options : SpawnSpec) (schedule : List PtyEvent) :
    Along (PtyAgent.step parser) PtyAgent.Final (.create parser id driverId cwd options) schedule ↔
      StepsMeet (PtyAgent.step parser) (PtyAgent.LeavesExited parser)
        (.create parser id driverId cwd options) schedule := by
  refine @along_iff _ _ (PtyAgent.step parser) (PtyAgent.LeavesExited parser) PtyAgent.Settled
    PtyAgent.Final ?_ ?_ _ ⟨AgentCore.Marked.create _ _ _ _ _ _, fun hexited ↦ by cases hexited⟩ schedule
  · intro agent event next hsettled hleaves hstep
    obtain ⟨hiff, hstarted⟩ := PtyAgent.step_spec hsettled hstep
    have hfinal := hiff.mpr hleaves
    exact ⟨⟨hfinal.1.marked, fun _ ↦ hstarted⟩, hfinal⟩
  · intro agent event next hsettled hwakes hstep hfinal
    exact hwakes ((PtyAgent.step_spec hsettled hstep).1.mp hfinal)

theorem WsAgent.exited_final_iff (parser : DriverParser Scratch) (id driverId cwd : JsString)
    (env : JsMap JsString JsString) (spec : ServerWsSpec) (schedule : List WsEvent) :
    Along (WsAgent.step parser) WsAgent.Final (.create parser id driverId cwd env spec) schedule ↔
      StepsMeet (WsAgent.step parser) (WsAgent.LeavesExited parser)
        (.create parser id driverId cwd env spec) schedule := by
  refine @along_iff _ _ (WsAgent.step parser) (WsAgent.LeavesExited parser) WsAgent.Settled
    WsAgent.Final ?_ ?_ _ ⟨AgentCore.Marked.create _ _ _ _ _ _, fun _ ↦ rfl, fun _ ↦ rfl⟩ schedule
  · intro agent event next hsettled hleaves hstep
    obtain ⟨hfirst, hturn⟩ := WsAgent.turn_of_step hstep
    have hfinal := (WsAgent.final_iff hsettled hturn).mpr hleaves
    exact ⟨hsettled.step hturn hfirst hfinal.1.marked, hfinal⟩
  · intro agent event next hsettled hwakes hstep hfinal
    exact hwakes ((WsAgent.final_iff hsettled (WsAgent.turn_of_step hstep).2).mp hfinal)

/-- All four controllers: `exited` is final along a run exactly when no step of it wakes an
exited agent. -/
theorem exited_is_final_iff (parser : DriverParser Scratch) (id driverId cwd : JsString) :
    (∀ options schedule, Along (PtyAgent.step parser) PtyAgent.Final
        (.create parser id driverId cwd options) schedule ↔
      StepsMeet (PtyAgent.step parser) (PtyAgent.LeavesExited parser)
        (.create parser id driverId cwd options) schedule) ∧
    (∀ env schedule, Along (ExecAgent.step parser) ExecAgent.Final
        (.create parser id driverId cwd env) schedule ↔
      StepsMeet (ExecAgent.step parser) (ExecAgent.LeavesExited parser)
        (.create parser id driverId cwd env) schedule) ∧
    (∀ env spec schedule, Along (WsAgent.step parser) WsAgent.Final
        (.create parser id driverId cwd env spec) schedule ↔
      StepsMeet (WsAgent.step parser) (WsAgent.LeavesExited parser)
        (.create parser id driverId cwd env spec) schedule) ∧
    ∀ spec schedule, Along (HttpAgent.step parser) HttpAgent.Final
        (.create parser id driverId cwd spec) schedule ↔
      StepsMeet (HttpAgent.step parser) (HttpAgent.LeavesExited parser)
        (.create parser id driverId cwd spec) schedule :=
  ⟨PtyAgent.exited_final_iff parser id driverId cwd,
    ExecAgent.exited_final_iff parser id driverId cwd,
    WsAgent.exited_final_iff parser id driverId cwd,
    HttpAgent.exited_final_iff parser id driverId cwd⟩

/-- A killed agent whose child still reports a started turn is busy again. -/
theorem late_output_wakes_exited_agent :
    ¬ Along (ExecAgent.step codexParser) ExecAgent.Final
        (.create codexParser (js "a") (js "codex") (js "/") .empty)
        [.submit ⟨true, false⟩ (.starts ⟨js "codex", [], js "/", .empty, none, .jsonl⟩),
          .kill sigterm, .data 0 0 (js "\x7b\"type\":\"turn.started\"\x7d\n")] := by
  intro h
  obtain ⟨_, h⟩ := h _ rfl
  obtain ⟨_, h⟩ := h _ rfl
  obtain ⟨hfinal, _⟩ := h _ rfl
  have hmarked := hfinal.1.marked
  revert hmarked
  decide +kernel

end Cordyceps.Agents
