import Cordyceps.Agents.FleetWiring

/-!
# The environment of the caller

A map of variables that is given to `spawn` goes through the factory to the controller. The exec
and the server-ws controller put it over what the driver has for each process they start; the
factory of terminals drops it, so a terminal has it only as far as the daemon or the driver have
the same.
-/

namespace Cordyceps.Agents

open Foundations Foundations.StepMachine Drivers

variable {Scratch : Type*}

/-! ## Environments of processes -/

/-- An environment has every entry of another one. -/
def Carries (wanted env : JsMap JsString JsString) : Prop :=
  ∀ key value, wanted.get key = some value → env.get key = some value

theorem carries_assign (base wanted : JsMap JsString JsString) :
    Carries wanted (base.assign wanted) := by
  intro key value h
  rw [JsMap.get_assign, h]
  rfl

namespace PtyProcess

/-- The environment that `spawn` of `core/pty.ts` starts the process with. -/
def env (processEnv : JsMap JsString JsString) (pty : PtyProcess) : JsMap JsString JsString :=
  if pty.options.cleanEnv then pty.options.env else processEnv.assign pty.options.env

end PtyProcess

namespace PtyAgent

/-- The environment of the process, if one was started. -/
def childEnvs (processEnv : JsMap JsString JsString) (agent : PtyAgent Scratch) :
    List (JsMap JsString JsString) :=
  if agent.pty.life = .absent then [] else [agent.pty.env processEnv]

end PtyAgent

/-- The environment of the child, if there is one. -/
def ExecSubmit.childEnv (submit : ExecSubmit) : Option (JsMap JsString JsString) :=
  submit.child.map Child.env

def ExecAgent.childEnvs (agent : ExecAgent Scratch) : List (JsMap JsString JsString) :=
  agent.submits.filterMap ExecSubmit.childEnv

def WsAgent.childEnvs (agent : WsAgent Scratch) : List (JsMap JsString JsString) :=
  (agent.server.map ServerProcess.env).toList

namespace Controller

/-- The environments of the processes that a controller started. -/
def childEnvs (processEnv : JsMap JsString JsString) :
    Controller Scratch → List (JsMap JsString JsString)
  | .pty agent => agent.childEnvs processEnv
  | .exec agent => agent.childEnvs
  | .serverWs agent => agent.childEnvs
  | .serverHttp _ => []

end Controller

/-! ## One turn of a controller -/

/-- The child of a submit, if there is one, has the map laid over another environment. -/
def ExecSubmit.Overlaid (given : JsMap JsString JsString) (submit : ExecSubmit) : Prop :=
  ∀ child, submit.child = some child → ∃ base : JsMap JsString JsString,
    child.env = base.assign given

namespace ExecSubmit.Overlaid

variable {given : JsMap JsString JsString} {submit : ExecSubmit}

theorem of_child {next : ExecSubmit} (h : submit.Overlaid given)
    (hchild : next.child = submit.child) : next.Overlaid given :=
  fun child hsome ↦ h child (hchild.symm.trans hsome)

theorem onChild (h : submit.Overlaid given) {change : Child → Child}
    (hchange : ∀ child, (change child).env = child.env) :
    (submit.onChild change).Overlaid given := by
  intro child hchild
  obtain ⟨old, hold, rfl⟩ := Option.map_eq_some_iff.mp hchild
  rw [hchange]
  exact h old hold

theorem settlePromise (h : submit.Overlaid given) (outcome : Outcome) :
    (submit.settlePromise outcome).Overlaid given :=
  h.of_child (submit.child_settlePromise outcome)

end ExecSubmit.Overlaid

@[simp]
theorem Child.env_kill (signal : Signal) (child : Child) : (child.kill signal).env = child.env := by
  unfold Child.kill
  split <;> rfl

namespace ExecAgent

/-- Every child has the caller's map laid over what the driver has for it. -/
def Overlaid (agent : ExecAgent Scratch) : Prop :=
  Each (fun _ submit ↦ submit.Overlaid agent.env) agent.submits

/-- The map stays the one that the agent was given, and children get it. -/
structure Lays (agent next : ExecAgent Scratch) : Prop where
  env : next.env = agent.env
  overlaid : agent.Overlaid → next.Overlaid

namespace Lays

variable {agent next last : ExecAgent Scratch}

theorem refl (agent : ExecAgent Scratch) : agent.Lays agent := ⟨rfl, id⟩

theorem trans (h : agent.Lays next) (hnext : next.Lays last) : agent.Lays last :=
  ⟨hnext.env.trans h.env, hnext.overlaid ∘ h.overlaid⟩

theorem of_submits (henv : next.env = agent.env) (hsubmits : next.submits = agent.submits) :
    agent.Lays next := by
  refine ⟨henv, fun h ↦ ?_⟩
  unfold Overlaid
  rw [henv, hsubmits]
  exact h

theorem onSubmit (h : agent.Lays next) (k : ℕ) {change : ExecSubmit → ExecSubmit}
    (hchange : ∀ submit, submit.Overlaid next.env → (change submit).Overlaid next.env) :
    agent.Lays (next.onSubmit k change) := by
  refine h.trans ⟨rfl, fun hoverlaid ↦ ?_⟩
  exact hoverlaid.modify (fun _ _ _ hother ↦ hother) fun submit _ ↦ hchange submit

theorem onChild (h : agent.Lays next) (k : ℕ) {change : Child → Child}
    (hchange : ∀ child, (change child).env = child.env) :
    agent.Lays (next.onSubmit k (ExecSubmit.onChild change)) :=
  h.onSubmit k fun _ hsubmit ↦ hsubmit.onChild hchange

theorem push (agent : ExecAgent Scratch) {submit : ExecSubmit} (hchild : submit.child = none) :
    agent.Lays (agent.push submit) := by
  refine ⟨rfl, fun h ↦ h.concat fun child hsome ↦ ?_⟩
  rw [hchild] at hsome
  cases hsome

theorem signalActive (agent : ExecAgent Scratch) (signal : Signal) :
    agent.Lays (agent.signalActive signal) := by
  unfold ExecAgent.signalActive
  split
  · exact (refl agent).onChild _ fun child ↦ child.env_kill signal
  · exact refl agent

/-- A child gets the map of the agent over the environment of its own specification. -/
theorem spawn (agent : ExecAgent Scratch) (k : ℕ) (spec : ExecSpec) (life : Life) :
    agent.Lays (agent.spawn k spec life) := by
  refine ⟨rfl, fun h ↦ h.modify (fun _ _ _ hother ↦ hother) fun submit _ _ child hchild ↦ ?_⟩
  cases hchild
  exact ⟨spec.env, rfl⟩

theorem proceed (agent : ExecAgent Scratch) (k : ℕ) (launch : Launch) :
    agent.Lays (agent.proceed k launch) := by
  cases launch with
  | buildThrows => exact (refl agent).onSubmit k fun _ hsubmit ↦ hsubmit.of_child rfl
  | spawnThrows spec =>
    apply Lays.onSubmit
    · exact of_submits rfl rfl
    · exact fun _ hsubmit ↦ hsubmit.of_child rfl
  | fails spec => exact spawn agent k spec .failed
  | starts spec => exact spawn agent k spec .running

theorem submit (agent : ExecAgent Scratch) (opts : SubmitOptions) (launch : Launch) :
    agent.Lays (agent.submit opts launch) := by
  unfold ExecAgent.submit
  split
  · exact push agent rfl
  · split
    · split
      · exact (push agent rfl).trans (signalActive _ sigterm)
      · exact push agent rfl
    · exact (push agent rfl).trans (proceed _ _ launch)

theorem deliver (agent : ExecAgent Scratch) (messages : List AssistantMessage) :
    agent.Lays { agent with submits := agent.submits.map (ExecSubmit.deliver messages) } :=
  ⟨rfl, fun h ↦ h.map fun _ submit hsubmit ↦ hsubmit.of_child (submit.child_deliver messages)⟩

theorem feed (agent : ExecAgent Scratch) (parser : DriverParser Scratch) (now : Timestamp)
    (chunks : List JsString) : agent.Lays (agent.feed parser now chunks) :=
  (deliver agent _).trans (of_submits rfl rfl)

theorem say (agent : ExecAgent Scratch) (now : Timestamp) (text : JsString) :
    agent.Lays (agent.say now text) := by
  unfold ExecAgent.say
  split
  · exact refl agent
  · exact (deliver agent _).trans (of_submits rfl rfl)

theorem onData (agent : ExecAgent Scratch) (parser : DriverParser Scratch) (now : Timestamp) (k : ℕ)
    (chunk : JsString) (child : Child) : agent.Lays (onData parser now k chunk child agent) := by
  have hreceived : ∀ rest, agent.Lays ((agent.emitOutput chunk).onSubmit k
      (ExecSubmit.onChild (Child.received chunk rest))) := by
    intro rest
    apply Lays.onChild
    · exact of_submits rfl rfl
    · exact fun _ ↦ rfl
  unfold ExecAgent.onData
  cases child.spec.parseOutput with
  | jsonl => exact (hreceived _).trans (feed _ parser now _)
  | json => exact hreceived _
  | text => exact hreceived _

theorem flushOutput (agent : ExecAgent Scratch) (parser : DriverParser Scratch) (now : Timestamp)
    (child : Child) : agent.Lays (flushOutput parser now child agent) := by
  unfold ExecAgent.flushOutput
  cases child.spec.parseOutput with
  | text => exact say agent now _
  | json => exact feed agent parser now _
  | jsonl => exact feed agent parser now _

theorem onExit (agent : ExecAgent Scratch) (parser : DriverParser Scratch) (now : Timestamp) (k : ℕ)
    (code : Option ℤ) (signal : Option Signal) (child : Child) :
    agent.Lays (onExit parser now k code signal child agent) := by
  have hended : agent.Lays ({ agent with activeChild := none }.onSubmit k
      (ExecSubmit.onChild (Child.ended code))) := by
    apply Lays.onChild
    · exact of_submits rfl rfl
    · exact fun _ ↦ rfl
  have hflushed := (hended.trans (flushOutput _ parser now child)).onChild k
    (fun _ ↦ rfl : ∀ child : Child, child.clearOutput.env = child.env)
  unfold ExecAgent.onExit
  simp only
  split
  · exact hflushed
  · exact hflushed.onSubmit k fun _ hsubmit ↦ hsubmit.settlePromise _

theorem onError (agent : ExecAgent Scratch) (k : ℕ) (child : Child) :
    agent.Lays (agent.onError k child) := by
  unfold ExecAgent.onError
  split
  · exact refl agent
  · apply Lays.onSubmit
    · exact of_submits rfl rfl
    · intro submit hsubmit
      apply ExecSubmit.Overlaid.settlePromise
      exact hsubmit.onChild fun _ ↦ rfl

theorem onTimer (agent : ExecAgent Scratch) (k : ℕ) : agent.Lays (agent.onTimer k) :=
  (refl agent).onSubmit k fun _ hsubmit ↦
    ExecSubmit.Overlaid.onChild (hsubmit.settlePromise _) fun child ↦ child.disarm.env_kill sigterm

theorem finish (agent : ExecAgent Scratch) (k : ℕ) (outcome : Outcome) :
    agent.Lays (agent.finish k outcome) := by
  apply Lays.onSubmit
  · exact of_submits rfl rfl
  · exact fun _ hsubmit ↦ hsubmit.of_child rfl

theorem interrupt (agent : ExecAgent Scratch) : agent.Lays agent.interrupt := by
  unfold ExecAgent.interrupt
  split
  · exact refl agent
  · exact signalActive agent sigterm

theorem kill (agent : ExecAgent Scratch) (signal : Signal) : agent.Lays (agent.kill signal) := by
  unfold ExecAgent.kill
  split
  · exact refl agent
  · exact (signalActive agent signal).trans (of_submits rfl rfl)

end Lays

/-- No turn takes the caller's map away from a child. -/
theorem lays_step {parser : DriverParser Scratch} {agent next : ExecAgent Scratch}
    {event : ExecEvent} (h : agent.step parser event = some next) : agent.Lays next := by
  cases (turn_of_step h).2 with
  | submit opts launch => exact .submit agent opts launch
  | resume launch hphase => exact .proceed agent _ launch
  | settle hphase => exact .finish agent _ _
  | data now chunk hchild hlife => exact .onData agent parser now _ chunk _
  | exit now code signal hchild hlife => exact .onExit agent parser now _ code signal _
  | error hchild => exact .onError agent _ _
  | timer hchild harmed => exact .onTimer agent _
  | interrupt => exact .interrupt agent
  | kill signal => exact .kill agent signal

end ExecAgent

namespace WsAgent

/-- The server has the caller's map laid over what the driver has for it. -/
def Overlaid (agent : WsAgent Scratch) : Prop :=
  ∀ server, agent.server = some server → ∃ base : JsMap JsString JsString,
    server.env = base.assign agent.env

/-- The map stays the one that the agent was given, and the server gets it. -/
structure Lays (agent next : WsAgent Scratch) : Prop where
  env : next.env = agent.env
  overlaid : agent.Overlaid → next.Overlaid

namespace Lays

variable {agent next last : WsAgent Scratch}

theorem trans (h : agent.Lays next) (hnext : next.Lays last) : agent.Lays last :=
  ⟨hnext.env.trans h.env, hnext.overlaid ∘ h.overlaid⟩

theorem of_server (henv : next.env = agent.env) (hserver : next.server = agent.server) :
    agent.Lays next := by
  refine ⟨henv, fun h server hsome ↦ ?_⟩
  rw [henv]
  exact h server (hserver.symm.trans hsome)

/-- The server is another state of the same process. -/
theorem of_map (henv : next.env = agent.env) {change : ServerProcess → ServerProcess}
    (hchange : ∀ server, (change server).env = server.env)
    (hserver : next.server = agent.server.map change) : agent.Lays next := by
  refine ⟨henv, fun h server hsome ↦ ?_⟩
  obtain ⟨old, hold, rfl⟩ := Option.map_eq_some_iff.mp (hserver.symm.trans hsome)
  rw [hchange, henv]
  exact h old hold

theorem failStart (h : agent.Lays next) (reason : StartFailure) :
    agent.Lays (next.failStart reason) := by
  refine h.trans ?_
  unfold WsAgent.failStart
  split <;> exact of_server rfl rfl

theorem connectWs (agent : WsAgent Scratch) (validUrl : Bool) :
    agent.Lays (agent.connectWs validUrl) := by
  unfold WsAgent.connectWs
  split
  · exact of_server rfl rfl
  · exact failStart (of_server rfl rfl) .badUrl

theorem onConnectionClosed (h : agent.Lays next) (code : ℤ) :
    agent.Lays (next.onConnectionClosed code) := by
  refine h.trans ?_
  unfold WsAgent.onConnectionClosed
  split <;> exact of_server rfl rfl

/-- The server gets the map of the agent over the environment of its own specification. -/
theorem start (agent : WsAgent Scratch) (launch : ServerLaunch) (validUrl : Bool) :
    agent.Lays (agent.start launch validUrl) := by
  unfold WsAgent.start
  split
  · rename_i spec _
    cases launch with
    | throws => exact failStart (of_server rfl rfl) .spawnFailed
    | fails =>
      refine ⟨rfl, fun _ server hserver ↦ ?_⟩
      cases hserver
      exact ⟨spec.env, rfl⟩
    | starts =>
      refine ⟨rfl, fun _ server hserver ↦ ?_⟩
      cases hserver
      exact ⟨spec.env, rfl⟩
  · exact connectWs agent validUrl

theorem onServerExit (agent : WsAgent Scratch) (code : Option ℤ) {server : ServerProcess}
    (hserver : agent.server = some server) : agent.Lays (agent.onServerExit code server) := by
  have hended : agent.Lays { agent with server := some { server with life := .exited } } :=
    of_map rfl (fun _ ↦ rfl : ∀ server : ServerProcess,
      ({ server with life := .exited } : ServerProcess).env = server.env) (by rw [hserver]; rfl)
  exact hended.onConnectionClosed _

theorem kill (agent : WsAgent Scratch) (signal : Signal) : agent.Lays (agent.kill signal) := by
  unfold WsAgent.kill
  split
  · exact of_server rfl rfl
  · refine of_map rfl (fun server ↦ ?_) rfl
    unfold ServerProcess.kill
    split <;> rfl

end Lays

/-- No turn takes the caller's map away from the server. -/
theorem lays_step {parser : DriverParser Scratch} {agent next : WsAgent Scratch} {event : WsEvent}
    (h : agent.step parser event = some next) : agent.Lays next := by
  cases (turn_of_step h).2 with
  | start launch validUrl hphase => exact .start agent launch validUrl
  | delayOver validUrl hphase => exact .connectWs agent validUrl
  | serverError hserver => exact .of_server rfl rfl
  | serverExit code hserver hlife => exact .onServerExit agent code hserver
  | «open» hsocket hstate => exact .of_server rfl rfl
  | error hsocket =>
    unfold onError
    split
    · exact .of_server rfl rfl
    · apply Lays.failStart
      exact .of_server rfl rfl
  | message now text hsocket hstate => exact .of_server rfl rfl
  | close code hsocket hhandled =>
    apply Lays.onConnectionClosed
    exact .of_server rfl rfl
  | connectTimer hsocket harmed =>
    apply Lays.failStart
    exact .of_server rfl rfl
  | call event hcall =>
    obtain ⟨submits, crashed, rfl⟩ := call_eq hcall
    exact .of_server rfl rfl
  | rawWrite data =>
    unfold rawWrite
    split
    · split <;> exact .of_server rfl rfl
    · exact .of_server rfl rfl
  | kill signal => exact .kill agent signal
  | killTimer hclosing =>
    apply Lays.onConnectionClosed
    exact .of_server rfl rfl

end WsAgent

namespace PtyAgent

/-- The terminal keeps its options, and only `start` spawns a process. -/
theorem pty_step {parser : DriverParser Scratch} {agent next : PtyAgent Scratch} {event : PtyEvent}
    (h : agent.step parser event = some next) : next.pty.options = agent.pty.options ∧
      (next.pty.life ≠ .absent ↔ agent.pty.life ≠ .absent ∨ event = .start true) := by
  have hwrite : ∀ data, (agent.pty.write data).options = agent.pty.options := fun data ↦ by
    unfold PtyProcess.write
    split <;> rfl
  cases (turn_of_step h).2 with
  | start spawns hstarted => cases spawns <;> simp [start]
  | call event hcall =>
    obtain ⟨submits, crashed, rfl⟩ := call_eq hcall
    simp
  | controlWrite data => exact ⟨hwrite data, by simp [controlWrite]⟩
  | rawWrite data =>
    unfold rawWrite
    split
    · simp
    · exact ⟨hwrite data, by simp [controlWrite]⟩
  | data now chunk hlife => simp [onPtyData]
  | exit code signal hlife => simp [onPtyExit, hlife]
  | kill signal =>
    unfold kill
    split
    · simp
    · refine ⟨?_, by simp⟩
      unfold PtyProcess.kill
      split <;> rfl

end PtyAgent

/-- What the driver has for a terminal makes up for a map that is not passed on: each entry is
there, or the driver says nothing about it and the daemon has the entry and hands it down. -/
def Covers (processEnv wanted : JsMap JsString JsString) (options : SpawnSpec) : Prop :=
  ∀ key value, wanted.get key = some value → options.env.get key = some value ∨
    options.env.get key = none ∧ options.cleanEnv = false ∧ processEnv.get key = some value

/-- The environment of a terminal is made of the daemon's and the driver's. -/
theorem PtyProcess.carries_env_iff {processEnv wanted : JsMap JsString JsString}
    {pty : PtyProcess} :
    Carries wanted (pty.env processEnv) ↔ Covers processEnv wanted pty.options := by
  have hget : ∀ key value, (pty.env processEnv).get key = some value ↔
      pty.options.env.get key = some value ∨ pty.options.env.get key = none ∧
        pty.options.cleanEnv = false ∧ processEnv.get key = some value := by
    intro key value
    unfold env
    cases hclean : pty.options.cleanEnv with
    | false =>
      rw [if_neg Bool.false_ne_true, JsMap.get_assign]
      cases pty.options.env.get key <;> simp
    | true => simp
  constructor
  · exact fun h key value hwanted ↦ (hget key value).mp (h key value hwanted)
  · exact fun h key value hwanted ↦ (hget key value).mpr (h key value hwanted)

namespace Controller

/-- The processes of a controller get the map: it was handed down, or the terminal is covered. -/
def Reaches (processEnv wanted : JsMap JsString JsString) : Controller Scratch → Prop
  | .pty agent => agent.pty.life ≠ .absent → Covers processEnv wanted agent.pty.options
  | .exec agent => agent.env = wanted ∧ agent.Overlaid
  | .serverWs agent => agent.env = wanted ∧ agent.Overlaid
  | .serverHttp _ => True

/-- The terminal that a turn starts is covered. -/
def StartsCovered (processEnv wanted : JsMap JsString JsString) (controller : Controller Scratch)
    (event : ControllerEvent) : Prop :=
  ∀ agent, controller = .pty agent → event = .pty (.start true) →
    Covers processEnv wanted agent.pty.options

variable {processEnv wanted : JsMap JsString JsString} {controller next : Controller Scratch}

namespace Reaches

theorem carries (h : controller.Reaches processEnv wanted) :
    ∀ env ∈ controller.childEnvs processEnv, Carries wanted env := by
  intro env henv
  cases controller with
  | pty agent =>
    simp only [childEnvs, PtyAgent.childEnvs, List.mem_ite_nil_left, List.mem_singleton] at henv
    obtain ⟨hlife, rfl⟩ := henv
    exact PtyProcess.carries_env_iff.mpr (h hlife)
  | exec agent =>
    obtain ⟨rfl, hoverlaid⟩ := h
    obtain ⟨submit, hsubmit, henv⟩ := List.mem_filterMap.mp henv
    obtain ⟨child, hchild, rfl⟩ := Option.map_eq_some_iff.mp henv
    obtain ⟨k, hget⟩ := List.mem_iff_getElem?.mp hsubmit
    obtain ⟨base, hbase⟩ := hoverlaid k submit hget child hchild
    rw [hbase]
    exact carries_assign base agent.env
  | serverWs agent =>
    obtain ⟨rfl, hoverlaid⟩ := h
    obtain ⟨server, hserver, rfl⟩ := Option.map_eq_some_iff.mp (Option.mem_toList.mp henv)
    obtain ⟨base, hbase⟩ := hoverlaid server hserver
    rw [hbase]
    exact carries_assign base agent.env
  | serverHttp agent => cases henv

theorem step (h : controller.Reaches processEnv wanted) {parser : DriverParser Scratch}
    {event : ControllerEvent} (hcovered : controller.StartsCovered processEnv wanted event)
    (hstep : controller.step parser event = some next) : next.Reaches processEnv wanted := by
  unfold Controller.step at hstep
  split at hstep
  · rename_i agent event
    obtain ⟨after, hafter, rfl⟩ := Option.map_eq_some_iff.mp hstep
    obtain ⟨hoptions, hlife⟩ := PtyAgent.pty_step hafter
    intro hpresent
    rw [hoptions]
    rcases hlife.mp hpresent with hbefore | rfl
    · exact h hbefore
    · exact hcovered agent rfl rfl
  · obtain ⟨after, hafter, rfl⟩ := Option.map_eq_some_iff.mp hstep
    have hlays := ExecAgent.lays_step hafter
    exact ⟨hlays.env.trans h.1, hlays.overlaid h.2⟩
  · obtain ⟨after, hafter, rfl⟩ := Option.map_eq_some_iff.mp hstep
    have hlays := WsAgent.lays_step hafter
    exact ⟨hlays.env.trans h.1, hlays.overlaid h.2⟩
  · obtain ⟨after, -, rfl⟩ := Option.map_eq_some_iff.mp hstep
    trivial
  · cases hstep

theorem putScratch (h : controller.Reaches processEnv wanted) (scratch : Scratch) :
    (controller.putScratch scratch).Reaches processEnv wanted := by
  cases controller with
  | pty agent => exact h
  | exec agent => exact h
  | serverWs agent => exact h
  | serverHttp agent => trivial

/-- A new controller has the map that its factory was called with, and no process yet. -/
theorem construct {parser : DriverParser Scratch} {backend : Backend} {opts : RuntimeFactoryOpts}
    (h : Controller.construct parser backend opts = some controller) :
    controller.Reaches processEnv opts.env := by
  unfold Controller.construct at h
  split at h
  · obtain ⟨options, -, rfl⟩ := Option.map_eq_some_iff.mp h
    exact fun hlife ↦ absurd rfl hlife
  · split at h
    · cases h
      exact ⟨rfl, Each.nil⟩
    · cases h
  · obtain ⟨spec, -, rfl⟩ := Option.map_eq_some_iff.mp h
    refine ⟨rfl, fun server hserver ↦ ?_⟩
    cases hserver
  · obtain ⟨spec, -, rfl⟩ := Option.map_eq_some_iff.mp h
    trivial

end Reaches

/-- A terminal that is started without being covered lacks an entry. -/
theorem not_carries_of_start {parser : DriverParser Scratch} {event : ControllerEvent}
    (hcovered : ¬ controller.StartsCovered processEnv wanted event)
    (hstep : controller.step parser event = some next) :
    ∃ env ∈ next.childEnvs processEnv, ¬ Carries wanted env := by
  unfold StartsCovered at hcovered
  push Not at hcovered
  obtain ⟨agent, rfl, rfl, huncovered⟩ := hcovered
  obtain ⟨after, hafter, rfl⟩ := Option.map_eq_some_iff.mp hstep
  obtain ⟨hoptions, hlife⟩ := PtyAgent.pty_step hafter
  refine ⟨after.pty.env processEnv, ?_, fun hcarries ↦ huncovered ?_⟩
  · simp [childEnvs, PtyAgent.childEnvs, hlife.mpr (.inr rfl)]
  · rw [← hoptions]
    exact PtyProcess.carries_env_iff.mp hcarries

end Controller

/-! ## The map on its way to the factory -/

namespace AgentManager

variable {manager next : AgentManager}

/-- The environment map that a call of `spawn` was given. -/
def wantedAt (manager : AgentManager) (k : ℕ) : JsMap JsString JsString :=
  (manager.spawns[k]?.bind fun call ↦ call.opts.env).getD .empty

theorem wantedAt_onSpawn (manager : AgentManager) (k j : ℕ) (phase : SpawnPhase) :
    (manager.onSpawn k phase).wantedAt j = manager.wantedAt j := by
  unfold wantedAt onSpawn
  rw [List.getElem?_modify]
  cases manager.spawns[j]? with
  | none => rfl
  | some call => by_cases hk : k = j <;> simp [hk]

theorem wantedAt_spawn {k : ℕ} (hk : k < manager.spawns.length) (idOrAlias : JsString)
    (opts : SpawnOptions) : (manager.spawn idOrAlias opts).wantedAt k = manager.wantedAt k := by
  unfold wantedAt AgentManager.spawn
  rw [List.getElem?_append_left hk]

theorem env_of_prepare {driver : Driver} {opts : SpawnOptions} {probe : Option DriverProbe}
    {names : NameSource} {built : RuntimeFactoryOpts}
    (h : manager.prepare driver opts probe names = .building built) :
    built.env = opts.env.getD .empty := by
  unfold prepare at h
  split at h
  · cases h
  · split at h
    · cases h
    · simp only at h
      split at h
      · cases h
      · split at h
        · cases h
        · cases h
          rfl

/-- The factory is called with the map of its call. -/
theorem env_of_probed {k : ℕ} {probe : Option DriverProbe} {names : NameSource}
    {built : RuntimeFactoryOpts} (h : manager.step (.probed k probe names) = some next)
    (hphase : next.phaseOf k = some (.building built)) : built.env = manager.wantedAt k := by
  simp only [step] at h
  split at h
  · rename_i opts driver answer hcall
    have hwanted : manager.wantedAt k = opts.env.getD .empty := by
      unfold wantedAt
      rw [hcall]
      rfl
    have hnext : ∀ (drivers : DriverRegistry) phase,
        (({ manager with drivers } : AgentManager).onSpawn k phase).phaseOf k =
          some (.building built) → phase = .building built := by
      intro drivers phase hbuilding
      rw [phaseOf_onSpawn, if_pos rfl] at hbuilding
      obtain ⟨-, -, rfl⟩ := Option.map_eq_some_iff.mp hbuilding
      rfl
    rw [hwanted]
    cases h
    unfold AgentManager.probed at hphase
    split at hphase
    · exact env_of_prepare (hnext manager.drivers _ hphase)
    · cases hnext manager.drivers _ hphase
    · exact env_of_prepare (hnext _ _ hphase)
  · cases h

end AgentManager

namespace Fleet

variable {fleet next : Fleet Scratch} {parserOf : Driver → DriverParser Scratch}
  {event : FleetEvent Scratch}

def wantedAt (fleet : Fleet Scratch) (k : ℕ) : JsMap JsString JsString := fleet.manager.wantedAt k

theorem manager_probed (k : ℕ) (backend : Backend) (manager : AgentManager) :
    (fleet.probed parserOf k backend manager).manager = manager := by
  unfold Fleet.probed
  split
  · split <;> rfl
  · rfl

/-- No turn changes the map of a call. -/
theorem wantedAt_step (hstep : fleet.step parserOf event = some next) {k : ℕ}
    (hk : k < fleet.manager.spawns.length) : next.wantedAt k = fleet.wantedAt k := by
  unfold Fleet.wantedAt
  cases turn_of_step hstep with
  | spawn idOrAlias opts => exact AgentManager.wantedAt_spawn hk idOrAlias opts
  | probed j hmanager =>
    obtain ⟨-, drivers, phase, rfl, -⟩ := probed_cases hmanager
    rw [manager_probed]
    exact AgentManager.wantedAt_onSpawn _ j k phase
  | built j hruntime hbuilt hphase => exact AgentManager.wantedAt_onSpawn _ j k _
  | buildFailed j hruntime hphase => exact AgentManager.wantedAt_onSpawn _ j k _
  | turn j hruntime hafter =>
    change (noteExit j _ fleet.manager).wantedAt k = _
    unfold noteExit
    split
    · split <;> rfl
    · rfl
  | others j scratch hruntime => rfl
  | remove id =>
    simp only [AgentManager.remove]
    split
    · split <;> rfl
    · rfl
  | registry hspawns hagents hobjects hevent => rw [AgentManager.wantedAt, hspawns]; rfl

/-- A runtime is constructed with the map of its call. -/
theorem Wired.constructed (h : fleet.Wired) (hstep : fleet.step parserOf event = some next) {k : ℕ}
    {runtime : Runtime Scratch} (hnone : fleet.runtimeAt k = none)
    (hruntime : next.runtimeAt k = some runtime) : ∃ parser backend opts,
      Controller.construct parser backend opts = some runtime.controller ∧
        opts.env = next.wantedAt k := by
  have hother : ∀ {j : ℕ} {old : Runtime Scratch}, fleet.runtimeAt j = some old → j ≠ k := by
    rintro j old hold rfl
    cases hnone.symm.trans hold
  cases turn_of_step hstep with
  | spawn idOrAlias opts =>
    rw [runtimeAt_spawn, hnone] at hruntime
    cases hruntime
  | @probed j probe names backend manager hmanager =>
    unfold Fleet.probed at hruntime
    split at hruntime
    · rename_i opts hphase
      split at hruntime
      · rename_i controller hcontroller
        obtain ⟨⟨driver, answer, hprobing⟩, -⟩ := probed_cases hmanager
        have hlt := AgentManager.lt_of_phaseOf hprobing
        rw [runtimeAt_put (by exact h.lengths ▸ hlt)] at hruntime
        split at hruntime
        · rename_i hj
          subst hj
          cases hruntime
          refine ⟨_, backend, opts, hcontroller, ?_⟩
          rw [wantedAt_step hstep hlt]
          exact AgentManager.env_of_probed hmanager hphase
        · cases hnone.symm.trans hruntime
      · cases hnone.symm.trans hruntime
    · cases hnone.symm.trans hruntime
  | built j _ _ _ => cases hnone.symm.trans hruntime
  | buildFailed j _ _ => cases hnone.symm.trans hruntime
  | turn j hget hafter =>
    rw [runtimeAt_put_of_ne (hother hget)] at hruntime
    cases hnone.symm.trans hruntime
  | others j scratch hget =>
    rw [runtimeAt_put_of_ne (hother hget)] at hruntime
    cases hnone.symm.trans hruntime
  | remove id => cases hnone.symm.trans hruntime
  | registry _ _ _ _ => cases hnone.symm.trans hruntime

/-! ## The fleet -/

/-- Every process started for an agent has every entry of the map that was given to its `spawn`. -/
def CallerEnv (processEnv : JsMap JsString JsString) (fleet : Fleet Scratch) : Prop :=
  ∀ k runtime, fleet.runtimeAt k = some runtime →
    ∀ env ∈ runtime.controller.childEnvs processEnv, Carries (fleet.wantedAt k) env

/-- A terminal that is started is covered by the driver and the daemon. -/
def KeepsEnv (processEnv : JsMap JsString JsString) (fleet : Fleet Scratch) :
    FleetEvent Scratch → Prop
  | .turn k event => ∀ runtime, fleet.runtimeAt k = some runtime →
      runtime.controller.StartsCovered processEnv (fleet.wantedAt k) event
  | _ => True

/-- Each runtime has the map of its call, or needs none. -/
structure Reaching (processEnv : JsMap JsString JsString) (fleet : Fleet Scratch) : Prop where
  wired : fleet.Wired
  reaches : ∀ k runtime, fleet.runtimeAt k = some runtime →
    runtime.controller.Reaches processEnv (fleet.wantedAt k)

namespace Reaching

variable {processEnv : JsMap JsString JsString}

theorem create (drivers : DriverRegistry) (processCwd : JsString) :
    (Fleet.create drivers processCwd : Fleet Scratch).Reaching processEnv where
  wired := Wired.create drivers processCwd
  reaches _ _ hruntime := by cases hruntime

theorem callerEnv (h : fleet.Reaching processEnv) : fleet.CallerEnv processEnv :=
  fun k runtime hruntime ↦ (h.reaches k runtime hruntime).carries

theorem lt_of_runtimeAt (h : fleet.Reaching processEnv) {k : ℕ} {runtime : Runtime Scratch}
    (hruntime : fleet.runtimeAt k = some runtime) : k < fleet.manager.spawns.length :=
  h.wired.lengths ▸ Wired.lt_of_runtimeAt hruntime

theorem step (h : fleet.Reaching processEnv) (hkeeps : fleet.KeepsEnv processEnv event)
    (hstep : fleet.step parserOf event = some next) : next.Reaching processEnv := by
  refine ⟨h.wired.step hstep, fun k runtime hruntime ↦ ?_⟩
  cases hbefore : fleet.runtimeAt k with
  | none =>
    obtain ⟨parser, backend, opts, hconstruct, henv⟩ := h.wired.constructed hstep hbefore hruntime
    rw [← henv]
    exact .construct hconstruct
  | some before =>
    rw [wantedAt_step hstep (h.lt_of_runtimeAt hbefore)]
    have hreaches := h.reaches k before hbefore
    rcases h.wired.runtimeAt_step hstep hbefore with ⟨turn, after, rfl, hafter, hnext⟩ | ⟨-, hnext⟩
    · cases hnext.symm.trans hruntime
      obtain ⟨controller, hcontroller, rfl⟩ := Option.map_eq_some_iff.mp hafter
      exact hreaches.step (hkeeps before hbefore) hcontroller
    · rcases hnext with hsame | ⟨scratch, hother⟩
      · cases hsame.symm.trans hruntime
        exact hreaches
      · cases hother.symm.trans hruntime
        exact hreaches.putScratch scratch

end Reaching

/-- The environment map of every `spawn` reaches the processes of its agent, as long as what the
driver and the daemon have makes up for the terminals that are started; a terminal started without
that lacks an entry of its map. -/
theorem callerEnv_iff (processEnv : JsMap JsString JsString)
    (parserOf : Driver → DriverParser Scratch) (drivers : DriverRegistry) (processCwd : JsString)
    (schedule : List (FleetEvent Scratch)) :
    Throughout (Fleet.step parserOf) (CallerEnv processEnv) (.create drivers processCwd) schedule ↔
      StepsMeet (Fleet.step parserOf) (KeepsEnv processEnv) (.create drivers processCwd)
        schedule := by
  refine throughout_iff (fun _ _ _ h hkeeps hstep ↦ Reaching.step h hkeeps hstep) ?_
    (fun _ h ↦ h.callerEnv) (Reaching.create drivers processCwd) schedule
  intro fleet event next h hbroken hstep hcaller
  cases event with
  | turn k event =>
    simp only [KeepsEnv, not_forall] at hbroken
    obtain ⟨runtime, hruntime, huncovered⟩ := hbroken
    rcases h.wired.runtimeAt_step hstep hruntime with
      ⟨turn, after, heq, hafter, hnext⟩ | ⟨hother, -⟩
    · cases heq
      obtain ⟨controller, hcontroller, rfl⟩ := Option.map_eq_some_iff.mp hafter
      obtain ⟨env, henv, hlacks⟩ := Controller.not_carries_of_start huncovered hcontroller
      refine hlacks ?_
      rw [← wantedAt_step hstep (h.lt_of_runtimeAt hruntime)]
      exact hcaller k _ hnext env henv
    · exact hother event rfl
  | _ => exact hbroken trivial

/-- What the driver and the system answer while a terminal agent is constructed. -/
def terminalBackend : Backend where
  buildPtySpawn := some ⟨js "claude", [], js "/", .empty, false⟩
  ptySpawns := true
  hasBuildExec := false
  buildServerHttp := none
  buildServerWs := none
  wsRun := []

/-- A terminal agent is spawned with a variable of the caller's. -/
def spawnTerminal : List (FleetEvent Scratch) :=
  [.registerDriver ⟨js "claude", [], [.pty]⟩, .registerRuntime .pty,
    .spawn (js "claude") ⟨some (js "x"), none, none, some (JsMap.empty.set (js "TOKEN") (js "1"))⟩,
    .probed 0 (some ⟨true, [], [.pty]⟩) ⟨[], 0⟩ terminalBackend, .turn 0 (.pty (.start true))]

/-- The process in the terminal starts without it. -/
theorem terminal_lacks_variable : ¬ Throughout (Fleet.step fun _ ↦ codexParser) (CallerEnv .empty)
    (.create .create (js "/")) spawnTerminal := by
  intro h
  have hlacks : (run (Fleet.step fun _ ↦ codexParser) (.create .create (js "/"))
      spawnTerminal).any (fun fleet ↦ (fleet.wantedAt 0).get (js "TOKEN") == some (js "1") &&
        (fleet.runtimeAt 0).any fun runtime ↦ (runtime.controller.childEnvs .empty).any fun env ↦
          env.get (js "TOKEN") == none) = true := by
    decide +kernel
  obtain ⟨fleet, hrun, hcheck⟩ := (Option.any_eq_true _ _).mp hlacks
  rw [Bool.and_eq_true, beq_iff_eq] at hcheck
  obtain ⟨hwanted, hchild⟩ := hcheck
  obtain ⟨runtime, hruntime, hany⟩ := (Option.any_eq_true _ _).mp hchild
  obtain ⟨env, henv, hget⟩ := List.any_eq_true.mp hany
  rw [beq_iff_eq] at hget
  have hcarries := h.last hrun 0 runtime hruntime env henv (js "TOKEN") (js "1") hwanted
  rw [hget] at hcarries
  cases hcarries

end Fleet

end Cordyceps.Agents
