import Cordyceps.Agents.ServerHttpController
import Cordyceps.Agents.ServerWsController

/-!
# What turns do to the shared part

The controllers touch the part they share through its methods only: a turn keeps
house, feeds chunks to the parser, or pushes a message. So a relation between
cores that contains every method, and is closed under doing one thing after the
other, contains every turn of every controller.
-/

namespace Cordyceps.Agents

open Foundations Foundations.LineFraming Drivers

variable {Scratch : Type*} {parser : DriverParser Scratch}

namespace AgentCore

/-- Output is announced, the status changes, or the agent is marked as exited. -/
inductive Housekeeping : AgentCore Scratch → AgentCore Scratch → Prop
  | refl (core : AgentCore Scratch) : Housekeeping core core
  | output (core : AgentCore Scratch) (chunk : JsString) :
    Housekeeping core (core.record [.emit (agentKey core.id (js "output")) (.text chunk)])
  | setStatus (core : AgentCore Scratch) (status : Status) : Housekeeping core (core.setStatus status)
  | markExited (core : AgentCore Scratch) (code : ℤ) (payload : Json) :
    Housekeeping core (core.markExited code payload)

/-- `if (status === from) setStatus(to)`. -/
theorem Housekeeping.setStatus_if (core : AgentCore Scratch) (old new : Status) :
    Housekeeping core (if core.state.status = old then core.setStatus new else core) := by
  split
  · exact .setStatus core new
  · exact .refl core

/-- What a turn does that feeds these chunks at this time. -/
inductive Turned (parser : DriverParser Scratch) (core : AgentCore Scratch) :
    Timestamp × List JsString → AgentCore Scratch → Prop
  | keeps {next : AgentCore Scratch} (h : Housekeeping core next) (now : Timestamp) :
    Turned parser core (now, []) next
  | pushes (message : AssistantMessage) (now : Timestamp) :
    Turned parser core (now, []) (core.pushMessage message)
  | feeds {before : AgentCore Scratch} (h : Housekeeping core before)
    (hstate : before.state = core.state) (hscratch : before.scratch = core.scratch)
    (now : Timestamp) (chunks : List JsString) :
    Turned parser core (now, chunks) (before.feedAll parser now chunks).1

/-- Nothing happens to the shared part. -/
theorem Turned.refl (core : AgentCore Scratch) (now : Timestamp) : Turned parser core (now, []) core :=
  .keeps (.refl core) now

end AgentCore

open AgentCore

/-- A relation that contains what the methods of the shared part do, in any order. -/
structure CoreClosed {Scratch : Type*} (parser : DriverParser Scratch)
    (relation : AgentCore Scratch → AgentCore Scratch → Prop) : Prop where
  refl : ∀ core, relation core core
  trans : ∀ {first second third}, relation first second → relation second third →
    relation first third
  emit : ∀ core name value, relation core (core.record [.emit (agentKey core.id name) value])
  setStatus : ∀ core status, relation core (core.setStatus status)
  pushMessage : ∀ core message, relation core (core.pushMessage message)
  feedAll : ∀ core now chunks, relation core (core.feedAll parser now chunks).1
  markExited : ∀ core code payload, relation core (core.markExited code payload)

namespace CoreClosed

variable {relation : AgentCore Scratch → AgentCore Scratch → Prop} {core next : AgentCore Scratch}

theorem of_housekeeping (h : CoreClosed parser relation) (hkept : Housekeeping core next) :
    relation core next := by
  cases hkept with
  | refl => exact h.refl _
  | output chunk => exact h.emit _ _ _
  | setStatus status => exact h.setStatus _ _
  | markExited code payload => exact h.markExited _ _ _

theorem of_turned (h : CoreClosed parser relation) {fed : Timestamp × List JsString}
    (hturn : Turned parser core fed next) : relation core next := by
  cases hturn with
  | keeps hkept now => exact h.of_housekeeping hkept
  | pushes message now => exact h.pushMessage _ _
  | feeds hkept hstate hscratch now chunks =>
    exact h.trans (h.of_housekeeping hkept) (h.feedAll _ _ _)

end CoreClosed

/-! ## The controllers -/

namespace ExecAgent

/-- The chunks that a turn feeds to the parser. -/
def fed (agent : ExecAgent Scratch) : ExecEvent → Timestamp × List JsString
  | .data k now chunk =>
    match agent.childOf k with
    | some child =>
      (now, if child.spec.parseOutput = .jsonl then lines newline (child.stdoutBuf ++ chunk) else [])
    | none => (now, [])
  | .exit k now _ _ =>
    match agent.childOf k with
    | some child =>
      (now, if child.spec.parseOutput = .text then [] else piece child.stdoutBuf ++ [[]])
    | none => (now, [])
  | _ => (0, [])

theorem housekeeping_proceed (agent : ExecAgent Scratch) (k : ℕ) (launch : Launch) :
    Housekeeping agent.core (agent.proceed k launch).core := by
  cases launch with
  | buildThrows => exact .refl _
  | spawnThrows spec => exact .setStatus _ _
  | fails spec => exact .setStatus _ _
  | starts spec => exact .setStatus _ _

theorem housekeeping_submit (agent : ExecAgent Scratch) (opts : SubmitOptions) (launch : Launch) :
    Housekeeping agent.core (agent.submit opts launch).core := by
  unfold submit
  split
  · exact .refl _
  · split
    · split
      · rw [core_signalActive]
        exact .refl _
      · exact .refl _
    · exact housekeeping_proceed (agent.push _) _ _

theorem turned_say (agent : ExecAgent Scratch) (now : Timestamp) (text : JsString) :
    Turned parser agent.core (now, []) (agent.say now text).core := by
  unfold say
  split
  · exact .refl _ now
  · exact .pushes _ now

theorem core_onExit (agent : ExecAgent Scratch) (now : Timestamp) (k : ℕ) (code : Option ℤ)
    (signal : Option Signal) (child : Child) :
    (agent.onExit parser now k code signal child).core =
      (({ agent with activeChild := none }.onSubmit k
        (ExecSubmit.onChild (Child.ended code))).flushOutput parser now child).core := by
  unfold onExit
  simp only
  split <;> rfl

theorem turned_of_step {agent next : ExecAgent Scratch} {event : ExecEvent}
    (hstep : agent.step parser event = some next) :
    Turned parser agent.core (agent.fed event) next.core := by
  obtain ⟨_, hturn⟩ := turn_of_step hstep
  cases hturn with
  | submit opts launch => exact .keeps (agent.housekeeping_submit opts launch) 0
  | resume launch hphase => exact .keeps (agent.housekeeping_proceed _ launch) 0
  | settle hphase => exact .keeps (.setStatus_if agent.core .busy .idle) 0
  | data now chunk hchild hlife =>
    rename_i k child
    have houtput := Housekeeping.output agent.core chunk
    simp only [fed, hchild]
    unfold onData
    cases child.spec.parseOutput with
    | jsonl => exact .feeds houtput rfl rfl now _
    | json => exact .keeps houtput now
    | text => exact .keeps houtput now
  | exit now code signal hchild hlife =>
    rename_i k child
    rw [core_onExit]
    simp only [fed, hchild]
    unfold flushOutput
    cases child.spec.parseOutput with
    | text =>
      exact turned_say ({ agent with activeChild := none }.onSubmit k
        (ExecSubmit.onChild (Child.ended code))) now (JsString.trimEnd child.stdoutBuf)
    | json => exact .feeds (.refl _) rfl rfl now _
    | jsonl => exact .feeds (.refl _) rfl rfl now _
  | error hchild =>
    unfold onError
    split <;> exact .refl _ 0
  | timer hchild harmed => exact .refl _ 0
  | interrupt =>
    unfold interrupt
    split
    · exact .refl _ 0
    · rw [core_signalActive]
      exact .refl _ 0
  | kill signal =>
    unfold kill
    split
    · exact .refl _ 0
    · simp only [core_signalActive]
      exact .keeps (.markExited _ _ _) 0

end ExecAgent

namespace HttpAgent

/-- The chunks that a turn feeds to the parser. -/
def fed (agent : HttpAgent Scratch) : HttpEvent → Timestamp × List JsString
  | .response _ now ok _ hasBody => (now, if ok && !hasBody then [[]] else [])
  | .chunk k now text =>
    match agent.phaseOf k with
    | some (.requesting (.streaming ndjson buffer)) =>
      (now, if ndjson then lines newline (buffer ++ text) else [])
    | _ => (now, [])
  | .streamEnd k now =>
    match agent.phaseOf k with
    | some (.requesting (.streaming _ buffer)) => (now, piece buffer ++ [[]])
    | _ => (now, [])
  | _ => (0, [])

theorem core_submit (agent : HttpAgent Scratch) (opts : SubmitOptions) (prompt : JsString) :
    (agent.submit opts prompt).core = agent.core := by
  unfold submit
  split
  · rfl
  · split
    · split
      · rw [core_abortActive]
        rfl
      · rfl
    · rfl

theorem turned_of_step {agent next : HttpAgent Scratch} {event : HttpEvent}
    (hstep : agent.step parser event = some next) :
    Turned parser agent.core (agent.fed event) next.core := by
  cases turn_of_step hstep with
  | submit opts prompt =>
    rw [core_submit]
    exact .refl _ 0
  | controlDone hphase => exact .keeps (.setStatus agent.core .busy) 0
  | settle hphase => exact .keeps (.setStatus_if agent.core .busy .idle) 0
  | interrupt =>
    unfold interrupt
    split
    · exact .refl _ 0
    · rw [core_abortActive]
      exact .refl _ 0
  | kill signal =>
    unfold kill
    split
    · exact .refl _ 0
    · simp only [core_abortActive]
      exact .keeps (.markExited _ _ _) 0
  | response now ok contentType hasBody hphase =>
    unfold onResponse
    cases ok with
    | false => exact .refl _ now
    | true =>
      cases hasBody with
      | true => exact .refl _ now
      | false => exact .feeds (.refl _) rfl rfl now _
  | chunk now text hphase =>
    rename_i k ndjson buffer
    have houtput := Housekeeping.output agent.core text
    simp only [fed, hphase]
    unfold onChunk
    cases ndjson with
    | false => exact .keeps houtput now
    | true =>
      simp only [if_true]
      split <;> exact .feeds houtput rfl rfl now _
  | streamEnd now hphase =>
    simp only [fed, hphase]
    exact .feeds (.refl _) rfl rfl now _
  | resume hphase => exact .refl _ 0
  | write data hphase => exact .refl _ 0
  | controlThrow hphase => exact .refl _ 0
  | fetchFail hphase => exact .refl _ 0
  | readFail hphase => exact .refl _ 0
  | timer hphase => exact .refl _ 0
  | rawWrite data => exact .refl _ 0

end HttpAgent

namespace PtyAgent

/-- The chunks that a turn feeds to the parser. -/
def fed : PtyEvent → Timestamp × List JsString
  | .data now chunk => (now, [chunk])
  | _ => (0, [])

theorem turned_of_step {agent next : PtyAgent Scratch} {event : PtyEvent}
    (hstep : agent.step parser event = some next) :
    Turned parser agent.core (fed event) next.core := by
  cases (turn_of_step hstep).2 with
  | start spawns hstarted => exact .refl _ 0
  | call event hcall =>
    obtain ⟨submits, crashed, rfl⟩ := call_eq hcall
    exact .refl _ 0
  | controlWrite data => exact .refl _ 0
  | rawWrite data =>
    unfold rawWrite
    split <;> exact .refl _ 0
  | data now chunk hlife => exact .feeds (.output agent.core chunk) rfl rfl now _
  | exit code signal hlife => exact .keeps (.markExited _ _ _) 0
  | kill signal =>
    unfold kill
    split <;> exact .refl _ 0

end PtyAgent

namespace WsAgent

/-- The chunks that a turn feeds to the parser. -/
def fed : WsEvent → Timestamp × List JsString
  | .message now text => (now, [text])
  | _ => (0, [])

theorem housekeeping_onConnectionClosed {core : AgentCore Scratch} {agent : WsAgent Scratch}
    (hcore : agent.core = core) (code : ℤ) :
    Housekeeping core (agent.onConnectionClosed code).core := by
  subst hcore
  unfold onConnectionClosed
  split
  · exact .refl _
  · exact .markExited _ _ _

@[simp]
theorem core_connectWs (agent : WsAgent Scratch) (validUrl : Bool) :
    (agent.connectWs validUrl).core = agent.core := by
  unfold connectWs
  split
  · rfl
  · rw [core_failStart]

theorem core_start (agent : WsAgent Scratch) (launch : ServerLaunch) (validUrl : Bool) :
    (agent.start launch validUrl).core = agent.core := by
  unfold start
  split
  · cases launch <;> simp
  · rw [core_connectWs]

theorem turned_of_step {agent next : WsAgent Scratch} {event : WsEvent}
    (hstep : agent.step parser event = some next) :
    Turned parser agent.core (fed event) next.core := by
  cases (turn_of_step hstep).2 with
  | start launch validUrl hphase =>
    rw [core_start]
    exact .refl _ 0
  | delayOver validUrl hphase =>
    rw [core_connectWs]
    exact .refl _ 0
  | serverError hserver => exact .refl _ 0
  | serverExit code hserver hlife =>
    unfold onServerExit
    exact .keeps (housekeeping_onConnectionClosed (by rfl) _) 0
  | «open» hsocket hstate => exact .keeps (.setStatus_if agent.core .starting .idle) 0
  | error hsocket =>
    unfold onError
    split
    · exact .refl _ 0
    · rw [core_failStart]
      exact .refl _ 0
  | message now text hsocket hstate => exact .feeds (.output agent.core text) rfl rfl now _
  | close code hsocket hhandled =>
    unfold onClose
    exact .keeps (housekeeping_onConnectionClosed (by rfl) _) 0
  | connectTimer hsocket harmed =>
    unfold onConnectTimer
    rw [core_failStart]
    exact .refl _ 0
  | call event hcall =>
    obtain ⟨submits, crashed, rfl⟩ := call_eq hcall
    exact .refl _ 0
  | rawWrite data =>
    unfold rawWrite
    split
    · split <;> exact .refl _ 0
    · exact .refl _ 0
  | kill signal =>
    unfold kill
    split <;> exact .refl _ 0
  | killTimer hclosing =>
    unfold onKillTimer
    exact .keeps (housekeeping_onConnectionClosed (by rfl) _) 0

end WsAgent

end Cordyceps.Agents
