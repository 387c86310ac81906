import Cordyceps.Agents.SharedParser
import Cordyceps.Drivers.ClaudeParser
import Cordyceps.Foundations.Promise

/-!
# The promise a submit waits for

`submit` of the interactive controllers makes its message promise before it
calls the driver's control, and awaits it afterwards. Its timer runs from the
start. So the promise can be rejected while the control is still at work, or
after it threw, when no handler is attached and none will be.
-/

namespace Cordyceps.Agents

open Foundations Foundations.StepMachine Drivers

namespace ChatSubmit

/-- The submit got as far as `await messagePromise`. -/
def awaited (submit : ChatSubmit) : Bool :=
  match submit.phase with
  | .waiting | .returned _ => true
  | _ => false

/-- The promise of `waitForMessage`, if it was called. -/
def messagePromise (submit : ChatSubmit) : Option (Promise AssistantMessage Unit) :=
  match submit.reply with
  | .unwanted => none
  | .listening => some ⟨.pending, submit.awaited⟩
  | .received message => some ⟨.fulfilled message, submit.awaited⟩
  | .timedOut => some ⟨.rejected (), submit.awaited⟩

/-! ## What the turns do to the promise -/

section Promise

variable (submit : ChatSubmit)

theorem messagePromise_engage : submit.engage.messagePromise =
    if submit.expectMessage then some .create else none := by
  unfold engage messagePromise
  cases submit.expectMessage <;> rfl

/-- The first emitted message resolves the promise. -/
theorem messagePromise_deliver (message : AssistantMessage) (rest : List AssistantMessage) :
    (submit.deliver (message :: rest)).messagePromise =
      submit.messagePromise.map (Promise.resolve message) := by
  cases hreply : submit.reply <;> simp only [deliver, messagePromise, hreply] <;> rfl

/-- The timer rejects it. -/
theorem messagePromise_timer (h : submit.reply = .listening) :
    ({ submit with reply := .timedOut } : ChatSubmit).messagePromise =
      submit.messagePromise.map (Promise.reject ()) := by
  simp only [messagePromise, h]
  rfl

/-- The return of `control.submit` attaches the handler. -/
theorem messagePromise_controlDone :
    submit.controlDone.messagePromise = submit.messagePromise.map Promise.observe := by
  cases hreply : submit.reply <;> simp only [controlDone, messagePromise, withPhase, hreply] <;> rfl

end Promise

/-- The promise is not rejected without a handler, and a submit that returned has no pending one. -/
structure Attended (submit : ChatSubmit) : Prop where
  observed : ∀ promise, submit.messagePromise = some promise → ¬ promise.Unobserved
  settled : submit.reply = .listening → ∀ message, submit.phase ≠ .returned message

/-- No submit's message promise is rejected without a handler. -/
def Observed (submits : List ChatSubmit) : Prop :=
  ∀ submit ∈ submits, ∀ promise, submit.messagePromise = some promise → ¬ promise.Unobserved

/-- The timer of a waiter fires only after `control.submit` has returned. -/
def TimersAwaited (submits : List ChatSubmit) : ChatEvent → Prop
  | .timer k => submits[k]?.map phase = some .waiting
  | _ => True

namespace Attended

variable {submit : ChatSubmit}

/-- A submit without a promise. -/
theorem of_unwanted (h : submit.reply = .unwanted) : Attended submit where
  observed promise hpromise := by simp [messagePromise, h] at hpromise
  settled hlistening := by simp [h] at hlistening

theorem engage (submit : ChatSubmit) : Attended submit.engage where
  observed promise hpromise := by
    rw [messagePromise_engage] at hpromise
    split at hpromise
    · cases hpromise
      simp [Promise.create, Promise.Unobserved]
    · cases hpromise
  settled _ message := by simp [ChatSubmit.engage]

theorem deliver (h : Attended submit) (messages : List AssistantMessage) :
    Attended (submit.deliver messages) := by
  cases messages with
  | nil =>
    have hsame : submit.deliver [] = submit := by
      unfold ChatSubmit.deliver
      cases submit.reply <;> rfl
    rwa [hsame]
  | cons message rest =>
    refine ⟨fun promise hpromise ↦ ?_, fun hlistening ↦ ?_⟩
    · rw [messagePromise_deliver] at hpromise
      obtain ⟨old, hold, rfl⟩ := Option.map_eq_some_iff.mp hpromise
      rw [Promise.unobserved_resolve_iff]
      exact h.observed old hold
    · revert hlistening
      cases hreply : submit.reply <;> simp [ChatSubmit.deliver, hreply]

theorem controlDone (submit : ChatSubmit) : Attended submit.controlDone where
  observed promise hpromise := by
    rw [messagePromise_controlDone] at hpromise
    obtain ⟨old, _, rfl⟩ := Option.map_eq_some_iff.mp hpromise
    exact Promise.not_unobserved_observe
  settled hlistening message := by
    revert hlistening
    cases hreply : submit.reply <;> simp [ChatSubmit.controlDone, withPhase, hreply]

/-- A control that throws leaves the promise without a handler, which harms nobody while the
promise is not rejected. -/
theorem controlThrow (h : Attended submit) (hnot : submit.awaited = false)
    (reason : ChatRejection) : Attended (submit.withPhase (.rejected reason)) where
  observed promise hpromise := by
    apply h.observed promise
    rw [← hpromise, messagePromise, messagePromise, hnot]
    rfl
  settled _ message := by simp [withPhase]

theorem settle (h : Attended submit) {message : Option AssistantMessage}
    (hresult : submit.result = some message) : Attended (submit.withPhase (.returned message)) := by
  have hphase : submit.phase = .waiting ∧ submit.reply ≠ .listening := by
    unfold result at hresult
    split at hresult <;> simp_all
  refine ⟨fun promise hpromise ↦ h.observed promise ?_, fun hlistening ↦ absurd hlistening hphase.2⟩
  rw [← hpromise]
  simp [messagePromise, withPhase, awaited, hphase.1]

/-- A timer that fires at the `await` finds a handler. -/
theorem timer (hphase : submit.phase = .waiting) :
    Attended { submit with reply := .timedOut } where
  observed promise hpromise := by
    simp only [messagePromise, awaited, hphase, Option.some.injEq] at hpromise
    exact hpromise ▸ Promise.not_unobserved_of_handled rfl
  settled hlistening := by cases hlistening

/-- A timer that fires before, or after the control threw, finds none. -/
theorem not_observed_timer (h : Attended submit) (hlistening : submit.reply = .listening)
    (hphase : submit.phase ≠ .waiting) : ∃ promise,
      ({ submit with reply := .timedOut } : ChatSubmit).messagePromise = some promise ∧
        promise.Unobserved := by
  have hnot : submit.awaited = false := by
    unfold awaited
    split
    · exact absurd ‹_› hphase
    · exact absurd ‹_› (h.settled hlistening _)
    · rfl
  refine ⟨⟨.rejected (), submit.awaited⟩, rfl, ?_⟩
  simp [Promise.Unobserved, hnot]

end Attended

theorem phase_at {submits : List ChatSubmit} {k : ℕ} {expected : ChatPhase}
    (h : submits[k]?.map phase = some expected) :
    ∀ submit, submits[k]? = some submit → submit.phase = expected := by
  intro submit hget
  simpa [hget] using h

/-- A turn of the calls keeps all promises attended if its timer is awaited, and otherwise leaves
one unobserved. -/
theorem step_attended {refusal : Option ChatRejection} {busy : Bool} {submits : List ChatSubmit}
    {event : ChatEvent} {next : List ChatSubmit × Bool} (h : Each (fun _ ↦ Attended) submits)
    (hstep : step refusal busy submits event = some next) :
    (TimersAwaited submits event → Each (fun _ ↦ Attended) next.1) ∧
      (¬ TimersAwaited submits event → ¬ Observed next.1) := by
  have hmodify : ∀ {k : ℕ} {change : ChatSubmit → ChatSubmit},
      (∀ submit, submits[k]? = some submit → Attended submit → Attended (change submit)) →
        Each (fun _ ↦ Attended) (submits.modify k change) :=
    fun hchange ↦ h.modify (fun _ _ _ hattended ↦ hattended) hchange
  unfold step at hstep
  cases event with
  | submit opts =>
    refine ⟨fun _ ↦ ?_, fun hnot ↦ absurd trivial hnot⟩
    simp only at hstep
    split at hstep
    · cases hstep
      exact h.concat (.of_unwanted rfl)
    · split at hstep <;> cases hstep
      · exact h.concat (.of_unwanted rfl)
      · exact h.concat (.engage _)
  | interrupted k =>
    refine ⟨fun _ ↦ ?_, fun hnot ↦ absurd trivial hnot⟩
    simp only at hstep
    split at hstep <;> cases hstep
    exact hmodify fun submit _ _ ↦ .engage submit
  | interruptThrow k =>
    refine ⟨fun _ ↦ ?_, fun hnot ↦ absurd trivial hnot⟩
    simp only at hstep
    split at hstep <;> cases hstep
    rename_i hphase
    exact hmodify fun submit hget hattended ↦
      hattended.controlThrow (by rw [awaited, phase_at hphase submit hget]) _
  | controlDone k =>
    refine ⟨fun _ ↦ ?_, fun hnot ↦ absurd trivial hnot⟩
    simp only at hstep
    split at hstep <;> cases hstep
    exact hmodify fun submit _ _ ↦ .controlDone submit
  | controlThrow k =>
    refine ⟨fun _ ↦ ?_, fun hnot ↦ absurd trivial hnot⟩
    simp only at hstep
    split at hstep <;> cases hstep
    rename_i hphase
    exact hmodify fun submit hget hattended ↦
      hattended.controlThrow (by rw [awaited, phase_at hphase submit hget]) _
  | timer k =>
    simp only at hstep
    split at hstep <;> cases hstep
    rename_i hreply
    obtain ⟨submit, hget, hlistening⟩ := Option.map_eq_some_iff.mp hreply
    refine ⟨fun hawaited ↦ ?_, fun hnot hobserved ↦ ?_⟩
    · exact hmodify fun submit hget _ ↦ .timer (phase_at hawaited submit hget)
    · have hphase : submit.phase ≠ .waiting := fun hphase ↦ hnot (by
        simp [TimersAwaited, hget, hphase])
      obtain ⟨promise, hpromise, hunobserved⟩ :=
        (h k submit hget).not_observed_timer hlistening hphase
      have hmem : { submit with reply := .timedOut } ∈
          submits.modify k fun submit ↦ { submit with reply := .timedOut } :=
        List.mem_of_getElem? (i := k) (by simp [hget])
      exact hobserved _ hmem promise hpromise hunobserved
  | settle k =>
    refine ⟨fun _ ↦ ?_, fun hnot ↦ absurd trivial hnot⟩
    simp only at hstep
    split at hstep <;> cases hstep
    rename_i message hresult
    refine hmodify fun submit hget hattended ↦ hattended.settle ?_
    simpa [hget] using hresult

theorem Observed.of_attended {submits : List ChatSubmit} (h : Each (fun _ ↦ Attended) submits) :
    Observed submits := by
  intro submit hmem
  obtain ⟨_, hattended⟩ := h.of_mem hmem
  exact hattended.observed

/-- The turns that end the daemon are those that leave a promise unobserved. -/
theorem step_crashed_iff {refusal : Option ChatRejection} {busy : Bool}
    {submits : List ChatSubmit} {event : ChatEvent} {next : List ChatSubmit × Bool}
    (h : Each (fun _ ↦ Attended) submits) (hstep : step refusal busy submits event = some next) :
    next.2 = true ↔ ¬ Observed next.1 := by
  obtain ⟨hkeep, hbreak⟩ := step_attended h hstep
  have hflag : next.2 = true ↔ ¬ TimersAwaited submits event := by
    unfold step at hstep
    cases event with
    | timer k =>
      simp only at hstep
      split at hstep <;> cases hstep
      simp [TimersAwaited]
    | submit opts =>
      simp only at hstep
      split at hstep
      · cases hstep
        simp [TimersAwaited]
      · split at hstep <;> cases hstep <;> simp [TimersAwaited]
    | _ =>
      simp only at hstep
      split at hstep <;> cases hstep
      simp [TimersAwaited]
  rw [hflag]
  exact ⟨hbreak, fun hunobserved hawaited ↦ hunobserved (.of_attended (hkeep hawaited))⟩

end ChatSubmit

/-! ## Both interactive controllers -/

/-- A timer of a waiter fires only after the submit's `control.submit` has returned. -/
def PtyAgent.TimersAwaited {Scratch : Type*} (agent : PtyAgent Scratch) : PtyEvent → Prop
  | .call event => ChatSubmit.TimersAwaited agent.submits event
  | _ => True

def WsAgent.TimersAwaited {Scratch : Type*} (agent : WsAgent Scratch) : WsEvent → Prop
  | .call event => ChatSubmit.TimersAwaited agent.submits event
  | _ => True

section Turns

open ChatSubmit

variable {Scratch : Type*} {parser : DriverParser Scratch}

theorem PtyAgent.step_attended {agent next : PtyAgent Scratch} {event : PtyEvent}
    (h : Each (fun _ ↦ Attended) agent.submits) (hstep : agent.step parser event = some next) :
    (agent.TimersAwaited event → Each (fun _ ↦ Attended) next.submits) ∧
      (¬ agent.TimersAwaited event → ¬ Observed next.submits) := by
  cases (turn_of_step hstep).2 with
  | call event hcall =>
    obtain ⟨submits, hsubmits, rfl⟩ := Option.map_eq_some_iff.mp hcall
    exact ChatSubmit.step_attended h hsubmits
  | data now chunk hlife =>
    refine ⟨fun _ ↦ ?_, fun hnot ↦ absurd trivial hnot⟩
    exact h.map fun _ _ hattended ↦ hattended.deliver _
  | rawWrite data =>
    refine ⟨fun _ ↦ ?_, fun hnot ↦ absurd trivial hnot⟩
    unfold rawWrite
    split <;> exact h
  | kill signal =>
    refine ⟨fun _ ↦ ?_, fun hnot ↦ absurd trivial hnot⟩
    unfold kill
    split <;> exact h
  | _ => exact ⟨fun _ ↦ h, fun hnot ↦ absurd trivial hnot⟩

/-- Only calls and frames concern the submits of a server-ws agent. -/
theorem WsAgent.submits_eq {agent next : WsAgent Scratch} {event : WsEvent}
    (hstep : agent.step parser event = some next) (hcall : ∀ chat, event ≠ .call chat)
    (hmessage : ∀ now text, event ≠ .message now text) : next.submits = agent.submits := by
  cases (turn_of_step hstep).2 with
  | call event hnext => exact absurd rfl (hcall event)
  | message now text hsocket hstate => exact absurd rfl (hmessage now text)
  | start launch validUrl hphase =>
    unfold start
    split
    · cases launch <;> simp
    · simp
  | delayOver validUrl hphase => simp
  | serverError hserver => rfl
  | serverExit code hserver hlife => simp [onServerExit]
  | «open» hsocket hstate => rfl
  | error hsocket =>
    unfold onError
    split <;> simp
  | close code hsocket hhandled => simp [onClose]
  | connectTimer hsocket harmed => simp [onConnectTimer]
  | rawWrite data =>
    unfold rawWrite
    split
    · split <;> rfl
    · rfl
  | kill signal =>
    unfold kill
    split <;> rfl
  | killTimer hclosing => simp [onKillTimer]

theorem WsAgent.step_attended {agent next : WsAgent Scratch} {event : WsEvent}
    (h : Each (fun _ ↦ Attended) agent.submits) (hstep : agent.step parser event = some next) :
    (agent.TimersAwaited event → Each (fun _ ↦ Attended) next.submits) ∧
      (¬ agent.TimersAwaited event → ¬ Observed next.submits) := by
  cases event with
  | call chat =>
    cases (turn_of_step hstep).2 with
    | call event hcall =>
      obtain ⟨submits, hsubmits, rfl⟩ := Option.map_eq_some_iff.mp hcall
      exact ChatSubmit.step_attended h hsubmits
  | message now text =>
    refine ⟨fun _ ↦ ?_, fun hnot ↦ absurd trivial hnot⟩
    cases (turn_of_step hstep).2
    exact h.map fun _ _ hattended ↦ hattended.deliver _
  | _ =>
    refine ⟨fun _ ↦ ?_, fun hnot ↦ absurd trivial hnot⟩
    rw [submits_eq hstep nofun nofun]
    exact h

end Turns

/-- In every run of an interactive agent next to others of its driver, all message promises are
observed exactly if no waiter's timer fires while its submit's `control.submit` is still at work
or after it threw. -/
theorem message_promise_observed_iff {Scratch : Type*} (parser : DriverParser Scratch)
    (id driverId cwd : JsString) :
    (∀ options schedule,
      Throughout (SharedEvent.step (PtyAgent.step parser) PtyAgent.putScratch)
          (fun agent ↦ ChatSubmit.Observed agent.submits) (.create parser id driverId cwd options)
          schedule ↔
        StepsMeet (SharedEvent.step (PtyAgent.step parser) PtyAgent.putScratch)
          (SharedEvent.OnOwn PtyAgent.TimersAwaited) (.create parser id driverId cwd options)
          schedule) ∧
    ∀ env spec schedule,
      Throughout (SharedEvent.step (WsAgent.step parser) WsAgent.putScratch)
          (fun agent ↦ ChatSubmit.Observed agent.submits) (.create parser id driverId cwd env spec)
          schedule ↔
        StepsMeet (SharedEvent.step (WsAgent.step parser) WsAgent.putScratch)
          (SharedEvent.OnOwn WsAgent.TimersAwaited) (.create parser id driverId cwd env spec)
          schedule := by
  refine ⟨fun options schedule ↦ ?_, fun env spec schedule ↦ ?_⟩
  · apply @SharedEvent.throughout_iff _ _ _ _ _ _
      (fun agent : PtyAgent Scratch ↦ Each (fun _ ↦ ChatSubmit.Attended) agent.submits)
    · exact fun agent event next hattended hawaited hstep ↦
        (PtyAgent.step_attended hattended hstep).1 hawaited
    · exact fun agent event next hattended hnot hstep ↦
        (PtyAgent.step_attended hattended hstep).2 hnot
    · exact fun _ _ hattended ↦ hattended
    · exact fun _ hattended ↦ .of_attended hattended
    · exact Each.nil
  · apply @SharedEvent.throughout_iff _ _ _ _ _ _
      (fun agent : WsAgent Scratch ↦ Each (fun _ ↦ ChatSubmit.Attended) agent.submits)
    · exact fun agent event next hattended hawaited hstep ↦
        (WsAgent.step_attended hattended hstep).1 hawaited
    · exact fun agent event next hattended hnot hstep ↦
        (WsAgent.step_attended hattended hstep).2 hnot
    · exact fun _ _ hattended ↦ hattended
    · exact fun _ hattended ↦ .of_attended hattended
    · exact Each.nil

/-- The agent never becomes idle: `control.submit` gives up after its ten seconds, and the timer of
the waiter rejects a promise that nobody will await. -/
theorem control_failure_leaves_promise_unobserved :
    ¬ Throughout (PtyAgent.step claudeParser) (fun agent ↦ ChatSubmit.Observed agent.submits)
        (.create claudeParser (js "a") (js "claude-code") (js "/")
          ⟨js "claude", [], js "/", .empty, false⟩)
        [.start true, .call (.submit ⟨true, false⟩), .call (.controlThrow 0),
          .call (.timer 0)] := by
  intro h
  have hobserved := h.last rfl
  exact hobserved ⟨true, .rejected .controlFailed, .timedOut⟩ List.mem_cons_self
    ⟨.rejected (), false⟩ rfl ⟨rfl, (), rfl⟩

end Cordyceps.Agents
