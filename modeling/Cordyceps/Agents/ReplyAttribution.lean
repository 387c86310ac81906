import Cordyceps.Agents.ClaudeTerminal

/-!
# Replies to a prompt that was sent

A submit listens for a message before its script has typed anything, so it may
take the reply to an earlier prompt, or text that is flushed meanwhile. It does
not if the parser emits no message while a listening submit has not pressed
Enter yet.
-/

namespace Cordyceps.Agents

open Foundations Foundations.StepMachine Drivers

namespace ClaudeTerminal

variable {Scratch : Type*} {parser : DriverParser Scratch} {terminal next : ClaudeTerminal Scratch}

/-- The message that a submit returned was emitted after its script had pressed Enter. -/
def OwnReply (transcript : List AssistantMessage) (submit : ChatSubmit) (call : ControlCall) : Prop :=
  ∀ message, submit.phase = .returned (some message) → ∃ entered heard,
    call.enteredAt = some entered ∧ call.heardAt = some heard ∧ entered ≤ heard ∧
      transcript[heard]? = some message

def RepliesOwn (terminal : ClaudeTerminal Scratch) : Prop :=
  List.Forall₂ (OwnReply terminal.agent.core.transcript) terminal.agent.submits terminal.calls

/-- The chunk makes the parser emit no message, or every submit that listens has pressed Enter or
was told that the agent is not ready. -/
def HearsAfterEnter (parser : DriverParser Scratch) (terminal : ClaudeTerminal Scratch) :
    ClaudeEvent → Prop
  | .data now chunk =>
    parser.emitted now [chunk] terminal.agent.core.state terminal.agent.core.scratch = [] ∨
      List.Forall₂ (fun submit call ↦ submit.reply = .listening →
        call.stage = .entered ∨ call.stage = .unready) terminal.agent.submits terminal.calls
  | _ => True

instance (parser : DriverParser Scratch) (terminal : ClaudeTerminal Scratch) :
    (event : ClaudeEvent) → Decidable (terminal.HearsAfterEnter parser event)
  | .data _ _ => inferInstanceAs (Decidable (_ ∨ List.Forall₂ _ _ _))
  | .start _ | .submit _ _ | .interrupted _ | .proceed _ | .notReady _ | .controlDone _
  | .controlThrow _ | .timer _ | .settle _ | .approve | .reject | .keys _ | .rawWrite _ | .exit _ _
  | .kill _ | .idleEmitted => isTrue trivial

/-- How a submit stands to its script: it goes on after Enter only, and what it heard came after
Enter, unless the script gave up. -/
structure Attributed (transcript : List AssistantMessage) (submit : ChatSubmit) (call : ControlCall) :
    Prop where
  entered : submit.phase = .waiting ∨ (∃ message, submit.phase = .returned message) →
    call.stage = .entered
  returned : ∀ message, submit.phase = .returned (some message) → submit.reply = .received message
  enteredAt : call.stage = .entered → ∃ entered, call.enteredAt = some entered ∧
    entered ≤ transcript.length
  stage : call.enteredAt ≠ none → call.stage = .entered
  heard : ∀ message, submit.reply = .received message → call.stage = .unready ∨
    ∃ entered heard, call.enteredAt = some entered ∧ call.heardAt = some heard ∧ entered ≤ heard ∧
      transcript[heard]? = some message

namespace Attributed

variable {transcript : List AssistantMessage} {submit : ChatSubmit} {call : ControlCall}

theorem ownReply (h : Attributed transcript submit call) : OwnReply transcript submit call := by
  intro message hphase
  have hstage := h.entered (.inr ⟨_, hphase⟩)
  rcases h.heard message (h.returned message hphase) with hunready | hown
  · rw [hunready] at hstage
    cases hstage
  · exact hown

/-- The script moves without pressing Enter, before it has entered or given up. -/
theorem move (h : Attributed transcript submit call) {moved : ControlCall}
    (henteredAt : moved.enteredAt = call.enteredAt) (hheardAt : moved.heardAt = call.heardAt)
    (hstage : moved.stage = call.stage ∨
      call.stage ≠ .entered ∧ call.stage ≠ .unready ∧ moved.stage ≠ .entered) :
    Attributed transcript submit moved := by
  rcases hstage with hsame | ⟨hentered, hunready, hmoved⟩
  · exact ⟨hsame ▸ h.entered, h.returned, hsame ▸ henteredAt ▸ h.enteredAt,
      hsame ▸ henteredAt ▸ h.stage, hsame ▸ henteredAt ▸ hheardAt ▸ h.heard⟩
  · refine ⟨fun hphase ↦ absurd (h.entered hphase) hentered, h.returned,
      fun heq ↦ absurd heq hmoved, fun hsome ↦ ?_, fun message hreply ↦ ?_⟩
    · exact absurd (h.stage (henteredAt ▸ hsome)) hentered
    · rw [henteredAt, hheardAt]
      exact .inr ((h.heard message hreply).resolve_left hunready)

theorem wake (h : Attributed transcript submit call) : Attributed transcript submit call.wake := by
  unfold ControlCall.wake
  split
  · exact h.move rfl rfl (.inr (by simp [*]))
  · exact h

theorem giveUp (h : Attributed transcript submit call) : Attributed transcript submit call.giveUp := by
  unfold ControlCall.giveUp
  split
  · exact h.move rfl rfl (.inr (by simp [*]))
  · exact h

theorem begin (h : Attributed transcript submit call) (state : AgentState) :
    Attributed transcript submit (call.begin state) := by
  unfold ControlCall.begin
  split
  · refine h.move rfl rfl (.inr ?_)
    by_cases hidle : state.status = .idle <;> simp [*]
  · exact h

/-- A step of the script; it may be the Enter. -/
theorem advance (h : Attributed transcript submit call) {stage : SubmitStage} {data : List JsString}
    (hnext : call.next = some (stage, data)) :
    Attributed transcript submit (call.advance stage transcript.length) := by
  have hbefore : call.stage ≠ .entered ∧ call.stage ≠ .unready := by
    unfold ControlCall.next at hnext
    constructor
    · rintro hstage
      simp [hstage] at hnext
    · rintro hstage
      simp [hstage] at hnext
  by_cases hentered : stage = .entered
  · subst hentered
    refine ⟨fun _ ↦ rfl, h.returned,
      fun _ ↦ ⟨transcript.length, by simp [ControlCall.advance], Nat.le_refl _⟩, fun _ ↦ rfl,
      fun message hreply ↦ ?_⟩
    obtain ⟨entered, _, hat, _⟩ := (h.heard message hreply).resolve_left hbefore.2
    exact absurd (h.stage (by simp [hat])) hbefore.1
  · exact h.move (if_neg hentered) rfl (.inr ⟨hbefore.1, hbefore.2, hentered⟩)

/-- A turn of the submit that gives no message. -/
theorem withPhase (h : Attributed transcript submit call) {phase : ChatPhase}
    (hentered : phase = .waiting ∨ (∃ message, phase = .returned message) → call.stage = .entered)
    (hreturned : ∀ message, phase = .returned (some message) → submit.reply = .received message) :
    Attributed transcript (submit.withPhase phase) call :=
  ⟨hentered, hreturned, h.enteredAt, h.stage, h.heard⟩

/-- `control.interrupt` came back. -/
theorem engage (h : Attributed transcript submit call) : Attributed transcript submit.engage call := by
  refine ⟨fun hphase ↦ ?_, fun message hphase ↦ ?_, h.enteredAt, h.stage, fun message hreply ↦ ?_⟩
  · rcases hphase with hphase | ⟨_, hphase⟩ <;> cases hphase
  · cases hphase
  · unfold ChatSubmit.engage at hreply
    by_cases hexpect : submit.expectMessage = true <;> simp [hexpect] at hreply

theorem timeOut (h : Attributed transcript submit call) (hlistening : submit.reply = .listening) :
    Attributed transcript { submit with reply := .timedOut } call := by
  refine ⟨h.entered, fun message hphase ↦ ?_, h.enteredAt, h.stage, fun message hreply ↦ ?_⟩
  · rw [h.returned message hphase] at hlistening
    cases hlistening
  · cases hreply

/-- More messages than before. -/
theorem grow (h : Attributed transcript submit call) (messages : List AssistantMessage) :
    Attributed (transcript ++ messages) submit call := by
  refine ⟨h.entered, h.returned, fun hstage ↦ ?_, h.stage, fun message hreply ↦ ?_⟩
  · obtain ⟨entered, hat, hle⟩ := h.enteredAt hstage
    refine ⟨entered, hat, ?_⟩
    rw [List.length_append]
    omega
  · refine (h.heard message hreply).imp_right ?_
    rintro ⟨entered, heard, hentered, hheard, hle, hget⟩
    have hlt := (List.getElem?_eq_some_iff.mp hget).1
    exact ⟨entered, heard, hentered, hheard, hle, by rw [List.getElem?_append_left hlt, hget]⟩

/-- Messages are emitted: a submit that listens takes the first one. -/
theorem deliver (h : Attributed transcript submit call) (messages : List AssistantMessage)
    (hready : messages = [] ∨
      (submit.reply = .listening → call.stage = .entered ∨ call.stage = .unready)) :
    Attributed (transcript ++ messages) (submit.deliver messages)
      (hear messages transcript.length submit call) := by
  by_cases hlistening : submit.reply = .listening
  · cases messages with
    | nil =>
      have hdeliver : submit.deliver [] = submit := by simp [ChatSubmit.deliver, hlistening]
      have hhear : hear [] transcript.length submit call = call := if_neg fun hnot ↦ hnot.2 rfl
      rw [hdeliver, hhear]
      exact h.grow []
    | cons message rest =>
      have hdeliver : submit.deliver (message :: rest) = { submit with reply := .received message } := by
        simp [ChatSubmit.deliver, hlistening]
      have hhear : hear (message :: rest) transcript.length submit call =
          { call with heardAt := some transcript.length } :=
        if_pos ⟨hlistening, List.cons_ne_nil _ _⟩
      have hgrown := h.grow (message :: rest)
      rw [hdeliver, hhear]
      refine ⟨hgrown.entered, fun other hphase ↦ ?_, hgrown.enteredAt, hgrown.stage,
        fun other hreply ↦ ?_⟩
      · rw [h.returned other hphase] at hlistening
        cases hlistening
      · cases hreply
        rcases hready.resolve_left (List.cons_ne_nil _ _) hlistening with hentered | hunready
        · obtain ⟨entered, hat, hle⟩ := h.enteredAt hentered
          exact .inr ⟨entered, transcript.length, hat, rfl, hle, by simp⟩
        · exact .inl hunready
  · have hdeliver : submit.deliver messages = submit := by
      unfold ChatSubmit.deliver
      split
      · exact absurd ‹_› hlistening
      · rfl
    have hhear : hear messages transcript.length submit call = call :=
      if_neg fun hnot ↦ hlistening hnot.1
    rw [hdeliver, hhear]
    exact h.grow messages

end Attributed

/-- Every submit stands to its script as it should. -/
def AllAttributed (terminal : ClaudeTerminal Scratch) : Prop :=
  List.Forall₂ (Attributed terminal.agent.core.transcript) terminal.agent.submits terminal.calls

theorem AllAttributed.repliesOwn (h : terminal.AllAttributed) : terminal.RepliesOwn :=
  h.imp fun _ _ hattributed ↦ hattributed.ownReply

namespace AllAttributed

/-- One submit or its script changes. -/
theorem modify (h : terminal.AllAttributed) (k : ℕ) {change : ChatSubmit → ChatSubmit}
    {change' : ControlCall → ControlCall}
    (hchange : ∀ submit call, terminal.agent.submits[k]? = some submit →
      terminal.calls[k]? = some call → Attributed terminal.agent.core.transcript submit call →
        Attributed terminal.agent.core.transcript (change submit) (change' call)) :
    List.Forall₂ (Attributed terminal.agent.core.transcript) (terminal.agent.submits.modify k change)
      (terminal.calls.modify k change') :=
  forall₂_modify h k (fun _ _ hattributed ↦ hattributed) hchange

theorem onCall (h : terminal.AllAttributed) (k : ℕ) {change : ControlCall → ControlCall}
    (hchange : ∀ submit call, Attributed terminal.agent.core.transcript submit call →
      Attributed terminal.agent.core.transcript submit (change call)) :
    (terminal.onCall k change).AllAttributed := by
  have hmodified := @modify _ _ h k id change fun submit call _ _ ↦ hchange submit call
  rw [List.modify_id] at hmodified
  exact hmodified

/-- A turn of a submit. -/
theorem onSubmit (h : terminal.AllAttributed) (k : ℕ) {change : ChatSubmit → ChatSubmit}
    (hchange : ∀ submit call, terminal.agent.submits[k]? = some submit →
      terminal.calls[k]? = some call → Attributed terminal.agent.core.transcript submit call →
        Attributed terminal.agent.core.transcript (change submit) call) :
    List.Forall₂ (Attributed terminal.agent.core.transcript) (terminal.agent.submits.modify k change)
      terminal.calls := by
  have hmodified := @modify _ _ h k change id hchange
  rw [List.modify_id] at hmodified
  exact hmodified

theorem interrupted (h : terminal.AllAttributed) {k : ℕ}
    (hturn : terminal.turn parser (.call (.interrupted k)) = some next) : next.AllAttributed := by
  obtain ⟨submits, crashed, hstep, rfl⟩ := call_of_turn hturn
  simp only [ChatSubmit.step, Option.ite_none_right_eq_some] at hstep
  obtain ⟨_, heq⟩ := hstep
  cases heq
  exact h.onSubmit k fun _ _ _ _ hattributed ↦ hattributed.engage

theorem controlDone (h : terminal.AllAttributed) {k : ℕ}
    (hstage : terminal.calls[k]?.map ControlCall.stage = some .entered)
    (hturn : terminal.turn parser (.call (.controlDone k)) = some next) : next.AllAttributed := by
  obtain ⟨submits, crashed, hstep, rfl⟩ := call_of_turn hturn
  simp only [ChatSubmit.step, Option.ite_none_right_eq_some] at hstep
  obtain ⟨_, heq⟩ := hstep
  cases heq
  refine h.onSubmit k fun submit call _ hcall hattributed ↦ ?_
  rw [hcall, Option.map_some, Option.some.injEq] at hstage
  unfold ChatSubmit.controlDone
  split
  · exact hattributed.withPhase (fun _ ↦ hstage) fun message hphase ↦ by cases hphase
  · exact hattributed.withPhase (fun _ ↦ hstage) fun message hphase ↦ by cases hphase

theorem controlThrow (h : terminal.AllAttributed) {k : ℕ}
    (hturn : terminal.turn parser (.call (.controlThrow k)) = some next) : next.AllAttributed := by
  obtain ⟨submits, crashed, hstep, rfl⟩ := call_of_turn hturn
  simp only [ChatSubmit.step, Option.ite_none_right_eq_some] at hstep
  obtain ⟨_, heq⟩ := hstep
  cases heq
  exact h.onSubmit k fun _ _ _ _ hattributed ↦ hattributed.withPhase
    (fun hphase ↦ by rcases hphase with hphase | ⟨_, hphase⟩ <;> cases hphase)
    fun message hphase ↦ by cases hphase

theorem timer (h : terminal.AllAttributed) {k : ℕ}
    (hturn : terminal.turn parser (.call (.timer k)) = some next) : next.AllAttributed := by
  obtain ⟨submits, crashed, hstep, rfl⟩ := call_of_turn hturn
  simp only [ChatSubmit.step, Option.ite_none_right_eq_some] at hstep
  obtain ⟨hlistening, heq⟩ := hstep
  cases heq
  refine h.onSubmit k fun submit _ hsubmit _ hattributed ↦ hattributed.timeOut ?_
  rw [hsubmit, Option.map_some, Option.some.injEq] at hlistening
  exact hlistening

/-- The submit returns what it heard. -/
theorem settle (h : terminal.AllAttributed) {k : ℕ}
    (hturn : terminal.turn parser (.call (.settle k)) = some next) : next.AllAttributed := by
  obtain ⟨submits, crashed, hstep, rfl⟩ := call_of_turn hturn
  simp only [ChatSubmit.step] at hstep
  split at hstep
  · rename_i message hresult
    cases hstep
    refine h.onSubmit k fun submit _ hsubmit _ hattributed ↦ ?_
    rw [hsubmit, Option.bind_some] at hresult
    unfold ChatSubmit.result at hresult
    split at hresult
    · cases hresult
      refine hattributed.withPhase (fun _ ↦ hattributed.entered (.inl ‹_›)) fun other hphase ↦ ?_
      cases hphase
      assumption
    · cases hresult
      exact hattributed.withPhase (fun _ ↦ hattributed.entered (.inl ‹_›))
        fun other hphase ↦ by cases hphase
    · cases hresult
  · cases hstep

/-- Turns that neither concern a submit nor read output. -/
theorem of_turn (h : terminal.AllAttributed) {event : PtyEvent}
    (hturn : terminal.turn parser event = some next) (hcall : ∀ chat, event ≠ .call chat)
    (hdata : ∀ now chunk, event ≠ .data now chunk) : next.AllAttributed := by
  obtain ⟨hsubmits, hcalls⟩ := submits_of_turn hturn hcall hdata
  rw [AllAttributed, (told_of_turn hturn hdata).2.2, hsubmits, hcalls]
  exact h

/-- A new submit. -/
theorem enroll (h : terminal.AllAttributed) {opts : SubmitOptions} (text : JsString)
    (hturn : terminal.turn parser (.call (.submit opts)) = some next) :
    (next.enroll text).AllAttributed := by
  have htranscript := (told_of_turn hturn nofun).2.2
  have hfresh : ∀ {phase : ChatPhase}, (phase ≠ .waiting ∧ ∀ message, phase ≠ .returned message) →
      Attributed terminal.agent.core.transcript (ChatSubmit.create opts phase)
        (ControlCall.create text) := by
    intro phase hphase
    refine ⟨fun hlate ↦ ?_, fun message hreturned ↦ absurd hreturned (hphase.2 _), nofun,
      fun hsome ↦ absurd rfl hsome, nofun⟩
    rcases hlate with hwaiting | ⟨message, hreturned⟩
    · exact absurd hwaiting hphase.1
    · exact absurd hreturned (hphase.2 message)
  rcases enroll_submit text hturn with ⟨_, _, henroll, hsubmits⟩ | ⟨_, _, _, henroll, hsubmits⟩ |
    ⟨_, _, henroll, hsubmits⟩
  · rw [henroll, AllAttributed, hsubmits, htranscript]
    exact forall₂_concat h (hfresh ⟨nofun, nofun⟩)
  · rw [henroll, AllAttributed, submits_press, core_press, hsubmits, htranscript]
    exact forall₂_concat h (hfresh ⟨nofun, nofun⟩)
  · rw [henroll, AllAttributed, hsubmits, htranscript]
    exact forall₂_concat h ((@hfresh .controlling ⟨nofun, nofun⟩).engage.begin _)

/-- Output of the process. -/
theorem data (h : terminal.AllAttributed) {now : Timestamp} {chunk : JsString}
    {agent : PtyAgent Scratch} (hears : terminal.HearsAfterEnter parser (.data now chunk))
    (hagent : terminal.agent.step parser (.data now chunk) = some agent) :
    (terminal.onData parser now chunk agent).AllAttributed := by
  obtain ⟨htranscript, _, hsubmits⟩ := submits_of_data hagent
  have hready : List.Forall₂ (fun submit call ↦
      Attributed terminal.agent.core.transcript submit call ∧
        (parser.emitted now [chunk] terminal.agent.core.state terminal.agent.core.scratch = [] ∨
          (submit.reply = .listening → call.stage = .entered ∨ call.stage = .unready)))
      terminal.agent.submits terminal.calls := by
    rcases hears with hnone | hentered
    · exact h.imp fun _ _ hattributed ↦ ⟨hattributed, .inl hnone⟩
    · exact h.mp (fun _ _ hattributed hstage ↦ ⟨hattributed, .inr hstage⟩) hentered
  have hwake : ∀ call : ControlCall, call.stage = .entered ∨ call.stage = .unready →
      call.wake = call := by
    intro call hstage
    unfold ControlCall.wake
    rcases hstage with hstage | hstage <;> simp [hstage]
  rw [AllAttributed, onData, hsubmits, htranscript]
  apply @forall₂_map_zipWith _ _ _ _ (fun submit call ↦
    Attributed terminal.agent.core.transcript submit call ∧
      (parser.emitted now [chunk] terminal.agent.core.state terminal.agent.core.scratch = [] ∨
        (submit.reply = .listening → call.stage = .entered ∨ call.stage = .unready)))
  · split
    · refine List.forall₂_map_right_iff.mpr (hready.imp ?_)
      rintro submit call ⟨hattributed, hears⟩
      refine ⟨hattributed.wake, hears.imp_right fun hstage hlistening ↦ ?_⟩
      rw [hwake call (hstage hlistening)]
      exact hstage hlistening
    · exact hready
  · exact fun _ _ hattributed ↦ hattributed.1.deliver _ hattributed.2

theorem step (h : terminal.AllAttributed) {event : ClaudeEvent}
    (hears : terminal.HearsAfterEnter parser event)
    (hstep : terminal.step parser event = some next) : next.AllAttributed := by
  cases (turn_of_step hstep).2 with
  | submit opts text hturn => exact h.enroll text hturn
  | interrupted k hturn => exact (h.interrupted hturn).onCall k fun _ _ hattributed ↦ hattributed.begin _
  | @proceed k call stage data hcall hnext =>
    rw [AllAttributed, submits_press, core_press]
    have hmodified := @modify _ _ h k id
      (ControlCall.advance stage terminal.agent.core.transcript.length)
      fun _ other _ hother hattributed ↦ hattributed.advance
        (Option.some.inj (hcall.symm.trans hother) ▸ hnext)
    rw [List.modify_id] at hmodified
    exact hmodified
  | notReady k hstage => exact h.onCall k fun _ _ hattributed ↦ hattributed.giveUp
  | controlDone k hstage hturn => exact h.controlDone hstage hturn
  | controlThrow k hstage hturn => exact h.controlThrow hturn
  | timer k hturn => exact h.timer hturn
  | settle k hturn => exact h.settle hturn
  | approve | reject =>
    unfold answer
    split
    · exact h
    · exact h
  | data now chunk hagent => exact h.data hears hagent
  | idleEmitted =>
    exact List.forall₂_map_right_iff.mpr (h.imp fun _ _ hattributed ↦ hattributed.wake)
  | start spawns hturn => exact h.of_turn hturn nofun nofun
  | keys data hturn => exact h.of_turn hturn nofun nofun
  | rawWrite data hturn => exact h.of_turn hturn nofun nofun
  | exit code signal hturn => exact h.of_turn hturn nofun nofun
  | kill signal hturn => exact h.of_turn hturn nofun nofun

end AllAttributed

/-- In a run in which the parser emits no message while a listening submit has not pressed Enter,
every reply was emitted after the submit had typed its prompt. -/
theorem replies_own (parser : DriverParser Scratch) (id driverId cwd : JsString)
    (options : SpawnSpec) (schedule : List (SharedEvent ClaudeEvent Scratch))
    (hmeet : StepsMeet (SharedEvent.step (step parser) putScratch)
      (SharedEvent.OnOwn (HearsAfterEnter parser)) (create parser id driverId cwd options) schedule) :
    Throughout (SharedEvent.step (step parser) putScratch) RepliesOwn
      (create parser id driverId cwd options) schedule := by
  have hkeep : ∀ terminal event next, AllAttributed terminal →
      SharedEvent.OnOwn (HearsAfterEnter parser) terminal event →
        SharedEvent.step (step parser) putScratch terminal event = some next →
          AllAttributed next := by
    intro terminal event next hattributed hears hstep
    cases event with
    | own event => exact hattributed.step hears hstep
    | others scratch =>
      cases hstep
      exact hattributed
  have hcreated : (create parser id driverId cwd options).AllAttributed := .nil
  exact (throughout_of_invariant hkeep hcreated hmeet).mono fun _ ↦ AllAttributed.repliesOwn

/-- `● hi`, and a result line that ends the message. -/
def hello : JsString := [0x25CF, 0x20] ++ js "hi"

def resultLine : JsString := [0x23BF, 0x20] ++ js "Done (1 tool use)"

/-- The agent answers after the prompt was typed. -/
theorem replies_own_answered :
    Throughout (SharedEvent.step (step claudeParser) putScratch) RepliesOwn claudeAgent
      ([.start true, .data 0 [0x276F], .submit ⟨true, false⟩ (js "a"), .proceed 0, .proceed 0,
        .proceed 0, .controlDone 0, .data 1 hello, .data 2 resultLine, .settle 0].map .own) :=
  replies_own claudeParser _ _ _ _ _ (by decide +kernel)

/-- A message is flushed when a submit has just cleared the input line: the submit returns it as the
reply to its own prompt. -/
theorem flushed_message_is_returned :
    ¬ Throughout (SharedEvent.step (step claudeParser) putScratch) RepliesOwn claudeAgent
      ([.start true, .data 0 [0x276F], .data 1 hello, .submit ⟨true, false⟩ (js "a"), .proceed 0,
        .data 2 resultLine, .proceed 0, .proceed 0, .controlDone 0, .settle 0].map .own) := by
  intro hthroughout
  have hrun : (run (SharedEvent.step (step claudeParser) putScratch) claudeAgent
      ([.start true, .data 0 [0x276F], .data 1 hello, .submit ⟨true, false⟩ (js "a"), .proceed 0,
        .data 2 resultLine, .proceed 0, .proceed 0, .controlDone 0, .settle 0].map
          .own)).map (fun terminal ↦ (terminal.agent.submits.map ChatSubmit.phase, terminal.calls.map
            fun call ↦ (call.enteredAt, call.heardAt))) =
      some ([.returned (some ⟨js "hi", 2, none⟩)], [(some 1, some 0)]) := by
    decide +kernel
  obtain ⟨final, hfinal, heq⟩ := Option.map_eq_some_iff.mp hrun
  obtain ⟨hsubmits, hcalls⟩ := Prod.mk.inj heq
  obtain ⟨submit, hsubmit, hphase⟩ := List.map_eq_singleton_iff.mp hsubmits
  obtain ⟨call, hcall, hmarks⟩ := List.map_eq_singleton_iff.mp hcalls
  have hreplies := hthroughout.last hfinal
  rw [RepliesOwn, hsubmit, hcall, List.forall₂_cons] at hreplies
  obtain ⟨entered, heard, hentered, hheard, hle, _⟩ := hreplies.1 _ hphase
  obtain ⟨hat, hfrom⟩ := Prod.mk.inj hmarks
  rw [hat] at hentered
  rw [hfrom] at hheard
  cases hentered
  cases hheard
  exact absurd hle (by decide)

end ClaudeTerminal

end Cordyceps.Agents
