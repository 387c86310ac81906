import Cordyceps.Agents.Fleet
import Cordyceps.Agents.MessagePromise

/-!
# What becomes of a submit

The promise of a call of `submit` that expects no message, for every controller.
`Declines` tells when a new call rejects at once, `Fails` which later turns make it
reject; everything else leaves it pending or resolves it.
-/

namespace Cordyceps.Agents

open Foundations Drivers

variable {Scratch : Type*} {parser : DriverParser Scratch}

/-- The options of a caller that does not wait for the reply. -/
def SubmitOptions.unattended : SubmitOptions := ⟨false, false⟩

/-! ## Exec -/

namespace ExecSubmit

/-- The call got past the guards and `buildExec`, and has not rejected. -/
def engaged (submit : ExecSubmit) : Prop :=
  match submit.phase with
  | .awaiting _ | .returned _ => True
  | .suspended | .rejected _ => False

def failed (submit : ExecSubmit) : Prop := ∃ reason, submit.phase = .rejected reason

theorem engaged_onChild {change : Child → Child} (submit : ExecSubmit) (h : submit.engaged) :
    (submit.onChild change).engaged := h

theorem engaged_settlePromise {outcome : Outcome} (submit : ExecSubmit) (h : submit.engaged) :
    (submit.settlePromise outcome).engaged := by
  unfold settlePromise
  split
  · trivial
  · exact h

theorem engaged_deliver {messages : List AssistantMessage} (submit : ExecSubmit)
    (h : submit.engaged) : (submit.deliver messages).engaged := by
  unfold engaged
  rw [phase_deliver]
  exact h

end ExecSubmit

namespace ExecAgent

/-- A new call rejects at once. -/
def Declines (agent : ExecAgent Scratch) (launch : Launch) : Prop :=
  agent.core.exited = true ∨ agent.activeChild ≠ none ∨ launch = .buildThrows

/-- The call learns that its child failed. -/
def Fails (agent : ExecAgent Scratch) (n : ℕ) : ExecEvent → Prop
  | .settle k => k = n ∧ ∃ reason, agent.phaseOf n = some (.awaiting (some (.rejected reason)))
  | _ => False

section Turns

variable {agent next : ExecAgent Scratch} {n : ℕ}

theorem engaged_signalActive (h : At ExecSubmit.engaged n agent.submits) (signal : Signal) :
    At ExecSubmit.engaged n (agent.signalActive signal).submits := by
  unfold signalActive
  split
  · exact h.modify fun _ submit _ ↦ ExecSubmit.engaged_onChild submit
  · exact h

theorem engaged_proceed (h : At ExecSubmit.engaged n agent.submits) {k : ℕ} (hne : n ≠ k)
    (launch : Launch) : At ExecSubmit.engaged n (agent.proceed k launch).submits := by
  cases launch <;> exact h.modify fun heq ↦ absurd heq hne

theorem engaged_feed (h : At ExecSubmit.engaged n agent.submits) (now : Timestamp)
    (chunks : List JsString) : At ExecSubmit.engaged n (agent.feed parser now chunks).submits :=
  h.map ExecSubmit.engaged_deliver

theorem engaged_flushOutput (h : At ExecSubmit.engaged n agent.submits) (now : Timestamp)
    (child : Child) : At ExecSubmit.engaged n (agent.flushOutput parser now child).submits := by
  unfold flushOutput
  split
  · unfold say
    split
    · exact h
    · exact h.map ExecSubmit.engaged_deliver
  · exact engaged_feed h now _
  · exact engaged_feed h now _

theorem engaged_submit (h : At ExecSubmit.engaged n agent.submits) (opts : SubmitOptions)
    (launch : Launch) : At ExecSubmit.engaged n (agent.submit opts launch).submits := by
  unfold submit
  split
  · exact h.concat _
  · split
    · split
      · exact @engaged_signalActive _ (agent.push _) _ (h.concat _) _
      · exact h.concat _
    · exact @engaged_proceed _ (agent.push _) _ (h.concat _) _ (Nat.ne_of_lt h.lt) launch

theorem engaged_onExit (h : At ExecSubmit.engaged n agent.submits) (now : Timestamp) (k : ℕ)
    (code : Option ℤ) (signal : Option Signal) (child : Child) :
    At ExecSubmit.engaged n (agent.onExit parser now k code signal child).submits := by
  have hended : At ExecSubmit.engaged n
      (({ agent with activeChild := none } : ExecAgent Scratch).onSubmit k
        (ExecSubmit.onChild (Child.ended code))).submits :=
    h.modify fun _ submit _ ↦ ExecSubmit.engaged_onChild submit
  have hflushed := (@engaged_flushOutput _ parser _ _ hended now child).modify
    fun (_ : n = k) submit _ ↦ @ExecSubmit.engaged_onChild Child.clearOutput submit
  unfold onExit
  simp only
  split
  · exact hflushed
  · exact hflushed.modify fun _ submit _ ↦ ExecSubmit.engaged_settlePromise submit

/-- A turn keeps the call alive, except the one in which it learns of a failure. -/
theorem engaged_step (h : At ExecSubmit.engaged n agent.submits) {event : ExecEvent}
    (hstep : agent.step parser event = some next) :
    (¬ agent.Fails n event → At ExecSubmit.engaged n next.submits) ∧
      (agent.Fails n event → At ExecSubmit.failed n next.submits) := by
  cases (turn_of_step hstep).2 with
  | submit opts launch => exact ⟨fun _ ↦ engaged_submit h opts launch, False.elim⟩
  | @resume k launch hphase =>
    refine ⟨fun _ ↦ engaged_proceed h ?_ launch, False.elim⟩
    rintro rfl
    obtain ⟨submit, hget, hengaged⟩ := h
    rw [phaseOf, hget, Option.map_some, Option.some.injEq] at hphase
    rw [ExecSubmit.engaged, hphase] at hengaged
    exact hengaged
  | @settle k outcome hphase =>
    constructor
    · intro hfine
      refine h.modify ?_
      rintro rfl submit hget _
      cases outcome with
      | resolved => trivial
      | rejected reason => exact absurd ⟨rfl, reason, hphase⟩ hfine
    · rintro ⟨rfl, reason, hrejected⟩
      obtain rfl : outcome = .rejected reason := by simpa [hphase] using hrejected
      exact h.modify_self fun submit _ ↦ ⟨reason, rfl⟩
  | @data k now chunk child hchild hlife =>
    refine ⟨fun _ ↦ ?_, False.elim⟩
    have hreceived : ∀ rest, At ExecSubmit.engaged n ((agent.emitOutput chunk).onSubmit k
        (ExecSubmit.onChild (Child.received chunk rest))).submits :=
      fun rest ↦ h.modify fun _ submit _ ↦ ExecSubmit.engaged_onChild submit
    unfold onData
    split
    · exact engaged_feed (hreceived _) now _
    · exact hreceived _
    · exact hreceived _
  | exit now code signal hchild hlife =>
    exact ⟨fun _ ↦ engaged_onExit h now _ code signal _, False.elim⟩
  | error hchild =>
    refine ⟨fun _ ↦ ?_, False.elim⟩
    unfold onError
    split
    · exact h
    · exact h.modify fun _ submit _ hengaged ↦
        ExecSubmit.engaged_settlePromise _ (ExecSubmit.engaged_onChild submit hengaged)
  | timer hchild harmed =>
    refine ⟨fun _ ↦ ?_, False.elim⟩
    exact h.modify fun _ submit _ hengaged ↦
      ExecSubmit.engaged_onChild _ (ExecSubmit.engaged_settlePromise submit hengaged)
  | interrupt =>
    refine ⟨fun _ ↦ ?_, False.elim⟩
    unfold interrupt
    split
    · exact h
    · exact engaged_signalActive h _
  | kill signal =>
    refine ⟨fun _ ↦ ?_, False.elim⟩
    unfold kill
    split
    · exact h
    · exact engaged_signalActive h _

/-- A new call is under way, or was declined. -/
theorem engaged_call (agent : ExecAgent Scratch) (launch : Launch) :
    (¬ agent.Declines launch → At ExecSubmit.engaged agent.submits.length
        (agent.submit .unattended launch).submits) ∧
      (agent.Declines launch → At ExecSubmit.failed agent.submits.length
        (agent.submit .unattended launch).submits) := by
  unfold submit Declines
  split
  · rename_i hexited
    exact ⟨fun hfine ↦ absurd (.inl hexited) hfine, fun _ ↦ .last ⟨_, rfl⟩⟩
  · rename_i hexited
    split
    · rename_i hactive
      refine ⟨fun hfine ↦ absurd (.inr (.inl ?_)) hfine, fun _ ↦ .last ⟨_, rfl⟩⟩
      rw [hactive]
      exact nofun
    · rename_i hidle
      have hlast : At (fun _ ↦ True) agent.submits.length
          (agent.push ⟨false, .suspended, [], none⟩).submits := .last trivial
      cases launch with
      | buildThrows =>
        exact ⟨fun hfine ↦ absurd (.inr (.inr rfl)) hfine,
          fun _ ↦ hlast.modify_self fun _ _ ↦ ⟨_, rfl⟩⟩
      | _ =>
        refine ⟨fun _ ↦ hlast.modify_self fun _ _ ↦ trivial, fun hdeclines ↦ ?_⟩
        rcases hdeclines with hexited' | hactive | hlaunch
        · exact absurd hexited' hexited
        · exact absurd hidle hactive
        · cases hlaunch

end Turns

end ExecAgent

/-! ## Server-http -/

namespace HttpSubmit

/-- The call got past the guards and has not rejected. -/
def engaged (submit : HttpSubmit) : Prop :=
  match submit.phase with
  | .preparing | .requesting _ | .answered _ | .returned _ => True
  | .suspended | .rejected _ => False

def failed (submit : HttpSubmit) : Prop := ∃ reason, submit.phase = .rejected reason

theorem engaged_deliver {messages : List AssistantMessage} (submit : HttpSubmit)
    (h : submit.engaged) : (submit.deliver messages).engaged := by
  unfold deliver
  split <;> exact h

end HttpSubmit

namespace HttpAgent

def Declines (agent : HttpAgent Scratch) : Prop :=
  agent.core.exited = true ∨ agent.activeAbort ≠ none

/-- The driver's control throws, or the call learns that its request failed. -/
def Fails (agent : HttpAgent Scratch) (n : ℕ) : HttpEvent → Prop
  | .controlThrow k => k = n
  | .settle k => k = n ∧ ∃ reason, agent.phaseOf n = some (.answered (some reason))
  | _ => False

section Turns

variable {agent next : HttpAgent Scratch} {n : ℕ}

theorem engaged_abortActive (h : At HttpSubmit.engaged n agent.submits) :
    At HttpSubmit.engaged n agent.abortActive.submits := by
  unfold abortActive
  split
  · exact h.modify fun _ _ _ hengaged ↦ hengaged
  · exact h

theorem engaged_endRequest (h : At HttpSubmit.engaged n agent.submits) (k : ℕ)
    (failure : Option HttpRejection) : At HttpSubmit.engaged n (agent.endRequest k failure).submits :=
  h.modify fun _ _ _ _ ↦ trivial

theorem engaged_feed (h : At HttpSubmit.engaged n agent.submits) (now : Timestamp)
    (chunks : List JsString) : At HttpSubmit.engaged n (agent.feed parser now chunks).1.submits :=
  h.map HttpSubmit.engaged_deliver

theorem engaged_feedLast (h : At HttpSubmit.engaged n agent.submits) (now : Timestamp) (k : ℕ)
    (chunks : List JsString) :
    At HttpSubmit.engaged n (agent.feedLast parser now k chunks).submits :=
  engaged_endRequest (engaged_feed h now chunks) k _

theorem engaged_submit (h : At HttpSubmit.engaged n agent.submits) (opts : SubmitOptions)
    (prompt : JsString) : At HttpSubmit.engaged n (agent.submit opts prompt).submits := by
  unfold submit
  split
  · exact h.concat _
  · split
    · split
      · exact @engaged_abortActive _ (agent.push _ _ _) _ (h.concat _)
      · exact h.concat _
    · exact (h.concat _).modify fun _ _ _ _ ↦ trivial

/-- A turn keeps the call alive, except the one in which it learns of a failure. -/
theorem engaged_step (h : At HttpSubmit.engaged n agent.submits) {event : HttpEvent}
    (hstep : agent.step parser event = some next) :
    (¬ agent.Fails n event → At HttpSubmit.engaged n next.submits) ∧
      (agent.Fails n event → At HttpSubmit.failed n next.submits) := by
  cases turn_of_step hstep with
  | submit opts prompt => exact ⟨fun _ ↦ engaged_submit h opts prompt, False.elim⟩
  | resume hphase => exact ⟨fun _ ↦ h.modify fun _ _ _ _ ↦ trivial, False.elim⟩
  | write data hphase => exact ⟨fun _ ↦ h.modify fun _ _ _ hengaged ↦ hengaged, False.elim⟩
  | controlDone hphase => exact ⟨fun _ ↦ h.modify fun _ _ _ _ ↦ trivial, False.elim⟩
  | @controlThrow k hphase =>
    constructor
    · intro hfine
      exact h.modify fun heq ↦ absurd heq.symm hfine
    · rintro rfl
      exact h.modify_self fun submit _ ↦ ⟨_, rfl⟩
  | fetchFail hphase => exact ⟨fun _ ↦ engaged_endRequest h _ _, False.elim⟩
  | response now ok contentType hasBody hphase =>
    refine ⟨fun _ ↦ ?_, False.elim⟩
    unfold onResponse
    split
    · exact engaged_endRequest h _ _
    · split
      · exact engaged_feedLast h now _ _
      · exact h.modify fun _ _ _ _ ↦ trivial
  | @chunk k now text ndjson buffer hphase =>
    refine ⟨fun _ ↦ ?_, False.elim⟩
    have hreceived : ∀ rest, At HttpSubmit.engaged n
        (agent.submits.modify k (HttpSubmit.received ndjson text rest)) :=
      fun rest ↦ h.modify fun _ _ _ _ ↦ trivial
    unfold onChunk
    simp only
    split
    · split
      · exact engaged_endRequest (engaged_feed (by exact hreceived _) now _) _ _
      · exact engaged_feed (by exact hreceived _) now _
    · exact hreceived _
  | streamEnd now hphase => exact ⟨fun _ ↦ engaged_feedLast h now _ _, False.elim⟩
  | readFail hphase => exact ⟨fun _ ↦ engaged_endRequest h _ _, False.elim⟩
  | timer hphase => exact ⟨fun _ ↦ h.modify fun _ _ _ hengaged ↦ hengaged, False.elim⟩
  | @settle k failure hphase =>
    constructor
    · intro hfine
      refine h.modify ?_
      rintro rfl submit hget _
      cases failure with
      | none => trivial
      | some reason => exact absurd ⟨rfl, reason, hphase⟩ hfine
    · rintro ⟨rfl, reason, hrejected⟩
      obtain rfl : failure = some reason := by simpa [hphase] using hrejected
      exact h.modify_self fun submit _ ↦ ⟨reason, rfl⟩
  | interrupt =>
    refine ⟨fun _ ↦ ?_, False.elim⟩
    unfold interrupt
    split
    · exact h
    · exact engaged_abortActive h
  | kill signal =>
    refine ⟨fun _ ↦ ?_, False.elim⟩
    unfold kill
    split
    · exact h
    · exact engaged_abortActive h
  | rawWrite data => exact ⟨fun _ ↦ h, False.elim⟩

theorem engaged_call (agent : HttpAgent Scratch) (prompt : JsString) :
    (¬ agent.Declines → At HttpSubmit.engaged agent.submits.length
        (agent.submit .unattended prompt).submits) ∧
      (agent.Declines → At HttpSubmit.failed agent.submits.length
        (agent.submit .unattended prompt).submits) := by
  unfold submit Declines
  split
  · rename_i hexited
    exact ⟨fun hfine ↦ absurd (.inl hexited) hfine, fun _ ↦ .last ⟨_, rfl⟩⟩
  · rename_i hexited
    split
    · rename_i hactive
      refine ⟨fun hfine ↦ absurd (.inr ?_) hfine, fun _ ↦ .last ⟨_, rfl⟩⟩
      rw [hactive]
      exact nofun
    · rename_i hidle
      have hlast : At (fun _ ↦ True) agent.submits.length
          (agent.push .unattended prompt .suspended).submits := .last trivial
      refine ⟨fun _ ↦ hlast.modify_self fun _ _ ↦ trivial, fun hdeclines ↦ ?_⟩
      rcases hdeclines with hexited' | hactive
      · exact absurd hexited' hexited
      · exact absurd hidle hactive

end Turns

end HttpAgent

/-! ## Pty and server-ws -/

namespace ChatSubmit

/-- The driver's control was called, and the call has not rejected. -/
def engaged (submit : ChatSubmit) : Prop :=
  match submit.phase with
  | .controlling | .waiting | .returned _ => True
  | .interrupting | .rejected _ => False

def failed (submit : ChatSubmit) : Prop := ∃ reason, submit.phase = .rejected reason

/-- The driver's control throws. -/
def Fails (n : ℕ) : ChatEvent → Prop
  | .controlThrow k => k = n
  | _ => False

section Turns

variable {refusal : Option ChatRejection} {busy : Bool} {submits : List ChatSubmit} {n : ℕ}

theorem engaged_deliver {messages : List AssistantMessage} (submit : ChatSubmit)
    (h : submit.engaged) : (submit.deliver messages).engaged := by
  unfold deliver
  split <;> exact h

theorem engaged_controlDone (submit : ChatSubmit) : submit.controlDone.engaged := by
  unfold controlDone
  split <;> trivial

/-- A turn keeps the call alive, except the one in which its control throws. -/
theorem engaged_step (h : At engaged n submits) {event : ChatEvent} {next : List ChatSubmit × Bool}
    (hstep : step refusal busy submits event = some next) :
    (¬ Fails n event → At engaged n next.1) ∧ (Fails n event → At failed n next.1) := by
  unfold step at hstep
  cases event with
  | submit opts =>
    refine ⟨fun _ ↦ ?_, False.elim⟩
    simp only at hstep
    split at hstep
    · cases hstep
      exact h.concat _
    · split at hstep <;> cases hstep <;> exact h.concat _
  | interrupted k =>
    refine ⟨fun _ ↦ ?_, False.elim⟩
    simp only at hstep
    split at hstep <;> cases hstep
    exact h.modify fun _ _ _ _ ↦ trivial
  | interruptThrow k =>
    refine ⟨fun _ ↦ ?_, False.elim⟩
    simp only at hstep
    split at hstep <;> cases hstep
    rename_i hphase
    refine h.modify ?_
    rintro rfl submit hget hengaged
    rw [hget, Option.map_some, Option.some.injEq] at hphase
    rw [engaged, hphase] at hengaged
    exact hengaged.elim
  | controlDone k =>
    refine ⟨fun _ ↦ ?_, False.elim⟩
    simp only at hstep
    split at hstep <;> cases hstep
    exact h.modify fun _ submit _ _ ↦ engaged_controlDone submit
  | controlThrow k =>
    simp only at hstep
    split at hstep <;> cases hstep
    constructor
    · intro hfine
      exact h.modify fun heq ↦ absurd heq.symm hfine
    · rintro rfl
      exact h.modify_self fun submit _ ↦ ⟨_, rfl⟩
  | timer k =>
    refine ⟨fun _ ↦ ?_, False.elim⟩
    simp only at hstep
    split at hstep <;> cases hstep
    exact h.modify fun _ _ _ hengaged ↦ hengaged
  | settle k =>
    refine ⟨fun _ ↦ ?_, False.elim⟩
    simp only at hstep
    split at hstep <;> cases hstep
    exact h.modify fun _ _ _ _ ↦ trivial

theorem engaged_call {next : List ChatSubmit × Bool}
    (hstep : step refusal busy submits (.submit .unattended) = some next) :
    (refusal = none → At engaged submits.length next.1) ∧
      (refusal ≠ none → At failed submits.length next.1) := by
  cases refusal with
  | some reason =>
    cases hstep
    exact ⟨nofun, fun _ ↦ .last ⟨_, rfl⟩⟩
  | none =>
    cases hstep
    exact ⟨fun _ ↦ .last trivial, fun hne ↦ absurd rfl hne⟩

end Turns

end ChatSubmit

namespace PtyAgent

def Declines (agent : PtyAgent Scratch) : Prop := agent.core.exited = true

def Fails (n : ℕ) : PtyEvent → Prop
  | .call event => ChatSubmit.Fails n event
  | _ => False

theorem engaged_step {agent next : PtyAgent Scratch} {n : ℕ} {event : PtyEvent}
    (h : At ChatSubmit.engaged n agent.submits) (hstep : agent.step parser event = some next) :
    (¬ Fails n event → At ChatSubmit.engaged n next.submits) ∧
      (Fails n event → At ChatSubmit.failed n next.submits) := by
  cases (turn_of_step hstep).2 with
  | call event hcall =>
    obtain ⟨submits, hsubmits, rfl⟩ := Option.map_eq_some_iff.mp hcall
    exact ChatSubmit.engaged_step h hsubmits
  | data now chunk hlife => exact ⟨fun _ ↦ h.map ChatSubmit.engaged_deliver, False.elim⟩
  | rawWrite data =>
    refine ⟨fun _ ↦ ?_, False.elim⟩
    unfold rawWrite
    split <;> exact h
  | kill signal =>
    refine ⟨fun _ ↦ ?_, False.elim⟩
    unfold kill
    split <;> exact h
  | _ => exact ⟨fun _ ↦ h, False.elim⟩

theorem engaged_call {agent next : PtyAgent Scratch}
    (hcall : agent.call (.submit .unattended) = some next) :
    (¬ agent.Declines → At ChatSubmit.engaged agent.submits.length next.submits) ∧
      (agent.Declines → At ChatSubmit.failed agent.submits.length next.submits) := by
  obtain ⟨submits, hsubmits, rfl⟩ := Option.map_eq_some_iff.mp hcall
  obtain ⟨hfine, hdeclined⟩ := ChatSubmit.engaged_call hsubmits
  constructor
  · intro hlive
    exact hfine (if_neg hlive)
  · intro hexited
    refine hdeclined fun hnone ↦ ?_
    rw [if_pos (by exact hexited)] at hnone
    cases hnone

end PtyAgent

namespace WsAgent

def Declines (agent : WsAgent Scratch) : Prop := agent.core.exited = true ∨ agent.ready = false

def Fails (n : ℕ) : WsEvent → Prop
  | .call event => ChatSubmit.Fails n event
  | _ => False

theorem engaged_step {agent next : WsAgent Scratch} {n : ℕ} {event : WsEvent}
    (h : At ChatSubmit.engaged n agent.submits) (hstep : agent.step parser event = some next) :
    (¬ Fails n event → At ChatSubmit.engaged n next.submits) ∧
      (Fails n event → At ChatSubmit.failed n next.submits) := by
  cases event with
  | call chat =>
    cases (turn_of_step hstep).2 with
    | call event hcall =>
      obtain ⟨submits, hsubmits, rfl⟩ := Option.map_eq_some_iff.mp hcall
      exact ChatSubmit.engaged_step h hsubmits
  | message now text =>
    cases (turn_of_step hstep).2
    exact ⟨fun _ ↦ h.map ChatSubmit.engaged_deliver, False.elim⟩
  | _ =>
    refine ⟨fun _ ↦ ?_, False.elim⟩
    rw [submits_eq hstep nofun nofun]
    exact h

theorem engaged_call {agent next : WsAgent Scratch}
    (hcall : agent.call (.submit .unattended) = some next) :
    (¬ agent.Declines → At ChatSubmit.engaged agent.submits.length next.submits) ∧
      (agent.Declines → At ChatSubmit.failed agent.submits.length next.submits) := by
  obtain ⟨submits, hsubmits, rfl⟩ := Option.map_eq_some_iff.mp hcall
  obtain ⟨hfine, hdeclined⟩ := ChatSubmit.engaged_call hsubmits
  unfold Declines
  cases hexited : agent.core.exited with
  | true =>
    refine ⟨fun hlive ↦ absurd (.inl rfl) hlive, fun _ ↦ hdeclined ?_⟩
    simp [hexited]
  | false =>
    cases hready : agent.ready with
    | true =>
      refine ⟨fun _ ↦ hfine ?_, by simp⟩
      simp [hexited, hready]
    | false =>
      refine ⟨fun hlive ↦ absurd (.inr rfl) hlive, fun _ ↦ hdeclined ?_⟩
      simp [hexited, hready]

end WsAgent

/-! ## Any mode -/

/-- Why a submit rejects. -/
inductive SubmitFailure
  | exec (reason : Rejection)
  | http (reason : HttpRejection)
  | chat (reason : ChatRejection)
  deriving DecidableEq, Repr

/-- The promise that a call of `submit` returns. -/
abbrev SubmitFate := Fate (Option AssistantMessage) SubmitFailure

def ExecSubmit.fate (submit : ExecSubmit) : SubmitFate :=
  match submit.phase with
  | .suspended | .awaiting _ => .pending
  | .returned message => .fulfilled message
  | .rejected reason => .rejected (.exec reason)

def HttpSubmit.fate (submit : HttpSubmit) : SubmitFate :=
  match submit.phase with
  | .suspended | .preparing | .requesting _ | .answered _ => .pending
  | .returned message => .fulfilled message
  | .rejected reason => .rejected (.http reason)

def ChatSubmit.fate (submit : ChatSubmit) : SubmitFate :=
  match submit.phase with
  | .interrupting | .controlling | .waiting => .pending
  | .returned message => .fulfilled message
  | .rejected reason => .rejected (.chat reason)

namespace Controller

/-- How many calls of `submit` there were. -/
def submitCount : Controller Scratch → ℕ
  | .pty agent => agent.submits.length
  | .exec agent => agent.submits.length
  | .serverWs agent => agent.submits.length
  | .serverHttp agent => agent.submits.length

/-- What has become of a call of `submit`. -/
def submitFate (n : ℕ) : Controller Scratch → Option SubmitFate
  | .pty agent => agent.submits[n]?.map ChatSubmit.fate
  | .exec agent => agent.submits[n]?.map ExecSubmit.fate
  | .serverWs agent => agent.submits[n]?.map ChatSubmit.fate
  | .serverHttp agent => agent.submits[n]?.map HttpSubmit.fate

/-- The turn in which `submit` is called. -/
def submitEvent (opts : SubmitOptions) (prompt : JsString) (launch : Launch) :
    Controller Scratch → ControllerEvent
  | .pty _ => .pty (.call (.submit opts))
  | .exec _ => .exec (.submit opts launch)
  | .serverWs _ => .serverWs (.call (.submit opts))
  | .serverHttp _ => .serverHttp (.submit opts prompt)

/-- A new call rejects at once: the agent has exited, runs a child or a request, has no open
socket, or its `buildExec` throws. -/
def Declines (launch : Launch) : Controller Scratch → Prop
  | .pty agent => agent.Declines
  | .exec agent => agent.Declines launch
  | .serverWs agent => agent.Declines
  | .serverHttp agent => agent.Declines

/-- The turn makes the call reject: the driver's control throws, or the call learns that its child
or its request failed. -/
def Fails (controller : Controller Scratch) (n : ℕ) (event : ControllerEvent) : Prop :=
  match controller, event with
  | .pty _, .pty event => PtyAgent.Fails n event
  | .exec agent, .exec event => agent.Fails n event
  | .serverWs _, .serverWs event => WsAgent.Fails n event
  | .serverHttp agent, .serverHttp event => agent.Fails n event
  | _, _ => False

/-- The call is under way or returned. -/
def Engaged (n : ℕ) : Controller Scratch → Prop
  | .pty agent => At ChatSubmit.engaged n agent.submits
  | .exec agent => At ExecSubmit.engaged n agent.submits
  | .serverWs agent => At ChatSubmit.engaged n agent.submits
  | .serverHttp agent => At HttpSubmit.engaged n agent.submits

def Failed (n : ℕ) (controller : Controller Scratch) : Prop :=
  ∃ reason, controller.submitFate n = some (.rejected reason)

section Turns

variable {controller next : Controller Scratch} {n : ℕ}

theorem failed_of_chat {submits : List ChatSubmit} (h : At ChatSubmit.failed n submits) :
    ∃ reason, submits[n]?.map ChatSubmit.fate = some (.rejected reason) := by
  obtain ⟨submit, hget, reason, hphase⟩ := h
  exact ⟨.chat reason, by rw [hget, Option.map_some, ChatSubmit.fate, hphase]⟩

theorem failed_of_exec {submits : List ExecSubmit} (h : At ExecSubmit.failed n submits) :
    ∃ reason, submits[n]?.map ExecSubmit.fate = some (.rejected reason) := by
  obtain ⟨submit, hget, reason, hphase⟩ := h
  exact ⟨.exec reason, by rw [hget, Option.map_some, ExecSubmit.fate, hphase]⟩

theorem failed_of_http {submits : List HttpSubmit} (h : At HttpSubmit.failed n submits) :
    ∃ reason, submits[n]?.map HttpSubmit.fate = some (.rejected reason) := by
  obtain ⟨submit, hget, reason, hphase⟩ := h
  exact ⟨.http reason, by rw [hget, Option.map_some, HttpSubmit.fate, hphase]⟩

theorem Engaged.not_failed (h : Engaged n controller) : ¬ Failed n controller := by
  rintro ⟨reason, hfate⟩
  cases controller with
  | pty agent | serverWs agent =>
    obtain ⟨submit, hget, hengaged⟩ := h
    simp only [submitFate, hget, Option.map_some, Option.some.injEq, ChatSubmit.fate] at hfate
    unfold ChatSubmit.engaged at hengaged
    split at hfate <;> simp_all
  | exec agent =>
    obtain ⟨submit, hget, hengaged⟩ := h
    simp only [submitFate, hget, Option.map_some, Option.some.injEq, ExecSubmit.fate] at hfate
    unfold ExecSubmit.engaged at hengaged
    split at hfate <;> simp_all
  | serverHttp agent =>
    obtain ⟨submit, hget, hengaged⟩ := h
    simp only [submitFate, hget, Option.map_some, Option.some.injEq, HttpSubmit.fate] at hfate
    unfold HttpSubmit.engaged at hengaged
    split at hfate <;> simp_all

theorem engaged_putScratch (h : Engaged n controller) (scratch : Scratch) :
    Engaged n (controller.putScratch scratch) := by
  cases controller <;> exact h

/-- A turn keeps the call alive, except the one in which it fails. -/
theorem engaged_step (h : Engaged n controller) {event : ControllerEvent}
    (hstep : controller.step parser event = some next) :
    (¬ controller.Fails n event → Engaged n next) ∧ (controller.Fails n event → Failed n next) := by
  unfold step at hstep
  split at hstep
  · obtain ⟨agent, hagent, rfl⟩ := Option.map_eq_some_iff.mp hstep
    obtain ⟨hfine, hfails⟩ := PtyAgent.engaged_step h hagent
    exact ⟨hfine, fun hfail ↦ failed_of_chat (hfails hfail)⟩
  · obtain ⟨agent, hagent, rfl⟩ := Option.map_eq_some_iff.mp hstep
    obtain ⟨hfine, hfails⟩ := ExecAgent.engaged_step h hagent
    exact ⟨hfine, fun hfail ↦ failed_of_exec (hfails hfail)⟩
  · obtain ⟨agent, hagent, rfl⟩ := Option.map_eq_some_iff.mp hstep
    obtain ⟨hfine, hfails⟩ := WsAgent.engaged_step h hagent
    exact ⟨hfine, fun hfail ↦ failed_of_chat (hfails hfail)⟩
  · obtain ⟨agent, hagent, rfl⟩ := Option.map_eq_some_iff.mp hstep
    obtain ⟨hfine, hfails⟩ := HttpAgent.engaged_step h hagent
    exact ⟨hfine, fun hfail ↦ failed_of_http (hfails hfail)⟩
  · cases hstep

/-- A call that nobody waits for is under way, or was declined. -/
theorem engaged_submitEvent {prompt : JsString} {launch : Launch}
    (hstep : controller.step parser (controller.submitEvent .unattended prompt launch) = some next) :
    (¬ controller.Declines launch → Engaged controller.submitCount next) ∧
      (controller.Declines launch → Failed controller.submitCount next) := by
  cases controller with
  | pty agent =>
    obtain ⟨after, hafter, rfl⟩ := Option.map_eq_some_iff.mp hstep
    cases (PtyAgent.turn_of_step hafter).2 with
    | call event hcall =>
      obtain ⟨hfine, hdeclined⟩ := PtyAgent.engaged_call hcall
      exact ⟨hfine, fun hdeclines ↦ failed_of_chat (hdeclined hdeclines)⟩
  | exec agent =>
    obtain ⟨after, hafter, rfl⟩ := Option.map_eq_some_iff.mp hstep
    cases (ExecAgent.turn_of_step hafter).2 with
    | submit opts launch =>
      obtain ⟨hfine, hdeclined⟩ := agent.engaged_call launch
      exact ⟨hfine, fun hdeclines ↦ failed_of_exec (hdeclined hdeclines)⟩
  | serverWs agent =>
    obtain ⟨after, hafter, rfl⟩ := Option.map_eq_some_iff.mp hstep
    cases (WsAgent.turn_of_step hafter).2 with
    | call event hcall =>
      obtain ⟨hfine, hdeclined⟩ := WsAgent.engaged_call hcall
      exact ⟨hfine, fun hdeclines ↦ failed_of_chat (hdeclined hdeclines)⟩
  | serverHttp agent =>
    change (agent.step parser (.submit .unattended prompt)).map Controller.serverHttp = some next at hstep
    obtain ⟨after, hafter, rfl⟩ := Option.map_eq_some_iff.mp hstep
    cases HttpAgent.turn_of_step hafter with
    | submit opts prompt =>
      obtain ⟨hfine, hdeclined⟩ := agent.engaged_call prompt
      exact ⟨hfine, fun hdeclines ↦ failed_of_http (hdeclined hdeclines)⟩

end Turns

end Controller

end Cordyceps.Agents
