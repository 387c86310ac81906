import Cordyceps.Agents.ExecController
import Cordyceps.Drivers.Replies

/-!
# Every exec submit returns its own output

Submits of one exec agent, one after the other. A submit whose child exits with
code 0 should return the last message of that child's complete stdout. The exec
controller answers the submit at the child's `exit`, so this holds as long as the
child's output has arrived by then.
-/

namespace Cordyceps.Agents

open Foundations Foundations.LineFraming Foundations.StepMachine Drivers

variable {Scratch : Type*}

/-! ## What a child said -/

namespace Child

/-- The complete output as it goes to a parser: whole lines or one text, then the flush. -/
def outputChunks (child : Child) : List JsString :=
  match child.spec.parseOutput with
  | .jsonl => pieces newline child.written ++ [[]]
  | .json | .text => piece child.written ++ [[]]

/-- The last message of the complete output, by a new parser of the driver. -/
def answer (parser : DriverParser Scratch) (child : Child) : Option AssistantMessage :=
  match child.spec.parseOutput with
  | .text =>
    let text := JsString.trimEnd child.written
    if text.isEmpty then none else some ⟨text, 0, none⟩
  | .json | .jsonl => (parser.replies child.outputChunks parser.scratch).messages.getLast?

/-- The part of the output that is fed while the child runs. -/
def fed (child : Child) : List JsString :=
  match child.spec.parseOutput with
  | .jsonl => lines newline child.written
  | .json | .text => []

/-- The part of the output that waits for the exit. -/
def heldBack (child : Child) : JsString :=
  match child.spec.parseOutput with
  | .jsonl => rest newline child.written
  | .json | .text => child.written

/-- What is fed in the end completes what was fed before. -/
theorem outputChunks_eq (child : Child) :
    child.outputChunks = child.fed ++ (piece child.heldBack ++ [[]]) := by
  unfold outputChunks fed heldBack
  cases child.spec.parseOutput with
  | jsonl => exact List.append_assoc _ _ _
  | json => rfl
  | text => rfl

end Child

namespace ExecSubmit

/-- The call of `submit` has returned or rejected. -/
def settled (submit : ExecSubmit) : Bool :=
  match submit.phase with
  | .returned _ | .rejected _ => true
  | _ => false

@[simp]
theorem settled_settlePromise (outcome : Outcome) (submit : ExecSubmit) :
    (submit.settlePromise outcome).settled = submit.settled := by
  unfold settlePromise
  split
  · simp [settled, *]
  · rfl

@[simp]
theorem settled_onChild (change : Child → Child) (submit : ExecSubmit) :
    (submit.onChild change).settled = submit.settled := rfl

@[simp]
theorem runs_settlePromise (outcome : Outcome) (submit : ExecSubmit) :
    (submit.settlePromise outcome).runs = submit.runs := by
  unfold settlePromise
  split <;> rfl

/-- The call is over, and its child, which a timer may have left behind, has ended too. -/
def finished (submit : ExecSubmit) : Bool := submit.settled && !submit.runs

theorem finished_iff {submit : ExecSubmit} :
    submit.finished = true ↔ submit.settled = true ∧ submit.runs = false := by
  simp [finished]

theorem not_finished_of_open {submit : ExecSubmit} (h : submit.settled = false) :
    submit.finished = false := by
  rw [finished, h, Bool.false_and]

theorem not_finished_of_runs {submit : ExecSubmit} (h : submit.runs = true) :
    submit.finished = false := by
  rw [finished, h, Bool.not_true, Bool.and_false]

/-- The submit rejects, or will. -/
def Rejects (submit : ExecSubmit) : Prop :=
  ∃ reason, submit.phase = .awaiting (some (.rejected reason)) ∨ submit.phase = .rejected reason

theorem Rejects.ne_awaiting {submit : ExecSubmit} (h : submit.Rejects) :
    submit.phase ≠ .awaiting none := by
  obtain ⟨reason, hphase | hphase⟩ := h
  · simp [hphase]
  · simp [hphase]

theorem Rejects.settlePromise {submit : ExecSubmit} (h : submit.Rejects) (outcome : Outcome) :
    submit.settlePromise outcome = submit := by
  unfold ExecSubmit.settlePromise
  split
  · exact absurd ‹_› h.ne_awaiting
  · rfl

end ExecSubmit

namespace ExecAgent

/-- A child that exited with code 0 has resolved its submit, and a submit that returned a message
returned the last one of its own child's complete output. -/
def Attributed (parser : DriverParser Scratch) (agent : ExecAgent Scratch) : Prop :=
  Each (fun _ submit ↦ ∀ child, submit.child = some child →
    (child.code = some 0 → submit.phase = .awaiting (some .resolved) ∨
      ∃ message, submit.phase = .returned message) ∧
    ∀ message, submit.phase = .returned message →
      message.map undated = if submit.expectMessage then child.answer parser else none)
    agent.submits

/-- The parse mode of what is launched is one of the given ones. -/
def Launch.uses (modes : ParseOutput → Prop) : Launch → Prop
  | .buildThrows => True
  | .spawnThrows spec | .fails spec | .starts spec => modes spec.parseOutput

/-- Submits follow each other and all output of a child comes before its exit; the parser throws
on none of it. A child that outlives its submit, because the timer fired, does not exit with
code 0, and no child is alive when an `error` is handled. -/
def InTime (parser : DriverParser Scratch) (modes : ParseOutput → Prop)
    (agent : ExecAgent Scratch) : ExecEvent → Prop
  | .submit opts launch => opts.interruptIfBusy = false ∧
      (∀ submit ∈ agent.submits, submit.settled = true) ∧ Launch.uses modes launch
  | .data k _ chunk => ∀ child, agent.childOf k = some child → child.life ≠ .exited ∧
      (child.spec.parseOutput = .jsonl →
        ∀ line ∈ lines newline (child.stdoutBuf ++ chunk), parser.Accepts line)
  | .exit k _ code _ => (code = some 0 → agent.phaseOf k = some (.awaiting none)) ∧
      ∀ child, agent.childOf k = some child → child.spec.parseOutput ≠ .text →
        ∀ text ∈ piece child.stdoutBuf, parser.Accepts text
  | .error k => ∀ child, agent.childOf k = some child →
      child.errorHandled = false → ∀ submit ∈ agent.submits, submit.runs = false
  | _ => True

section

variable {parser : DriverParser Scratch} {modes : ParseOutput → Prop} [DecidablePred parser.Accepts]
  [DecidablePred modes]

instance : (launch : Launch) → Decidable (Launch.uses modes launch)
  | .buildThrows => isTrue trivial
  | .spawnThrows spec | .fails spec | .starts spec =>
    inferInstanceAs (Decidable (modes spec.parseOutput))

instance (agent : ExecAgent Scratch) : (event : ExecEvent) → Decidable (InTime parser modes agent event)
  | .submit opts launch => inferInstanceAs (Decidable (opts.interruptIfBusy = false ∧
      (∀ submit ∈ agent.submits, submit.settled = true) ∧ Launch.uses modes launch))
  | .data k _ chunk => inferInstanceAs (Decidable (∀ child ∈ agent.childOf k, child.life ≠ .exited ∧
      (child.spec.parseOutput = .jsonl →
        ∀ line ∈ lines newline (child.stdoutBuf ++ chunk), parser.Accepts line)))
  | .exit k _ code _ => inferInstanceAs (Decidable (
      (code = some 0 → agent.phaseOf k = some (.awaiting none)) ∧
        ∀ child ∈ agent.childOf k, child.spec.parseOutput ≠ .text →
          ∀ text ∈ piece child.stdoutBuf, parser.Accepts text))
  | .error k => inferInstanceAs (Decidable (∀ child ∈ agent.childOf k,
      child.errorHandled = false → ∀ submit ∈ agent.submits, submit.runs = false))
  | .resume _ _ | .settle _ | .timer _ | .interrupt | .kill _ => isTrue trivial

end

/-! ## The invariant -/

/-- Buffer, memory and heard messages of a running child are those of its output so far. -/
structure Following (parser : DriverParser Scratch) (scratch : Scratch) (child : Child)
    (messages : List AssistantMessage) : Prop where
  buffer : child.stdoutBuf = child.heldBack
  accepted : (parser.replies child.fed parser.scratch).threw = false
  memory : parser.Alike scratch (parser.replies child.fed parser.scratch).scratch
  heard : messages.map undated = (parser.replies child.fed parser.scratch).messages

/-- What is known of a child that has not answered its submit: how it did not end and, while it
runs, what was heard of it. -/
structure Watched (parser : DriverParser Scratch) (modes : ParseOutput → Prop) (scratch : Scratch)
    (child : Child) (heard : List AssistantMessage) : Prop where
  code : child.code ≠ some 0
  mode : child.life = .running → modes child.spec.parseOutput
  following : child.life = .running → Following parser scratch child heard

/-- What is known of a submit and its child in each phase. -/
def Told (parser : DriverParser Scratch) (modes : ParseOutput → Prop) (scratch : Scratch)
    (submit : ExecSubmit) : Prop :=
  match submit.phase with
  | .suspended => False
  | .awaiting none => ∃ child, submit.child = some child ∧
      Watched parser modes scratch child submit.messages
  | .awaiting (some .resolved) => ∃ child, submit.child = some child ∧ child.life ≠ .running ∧
      submit.messages.getLast?.map undated = child.answer parser
  | .awaiting (some (.rejected _)) | .rejected _ => ∀ child, submit.child = some child →
      ∃ heard, Watched parser modes scratch child heard
  | .returned message => ∃ child, submit.child = some child ∧ child.life ≠ .running ∧
      message.map undated = if submit.expectMessage then child.answer parser else none

/-- One submit at most is under way or has left a child behind, a running child is the active one,
and while no child runs the parser remembers nothing. -/
structure Orderly (parser : DriverParser Scratch) (modes : ParseOutput → Prop)
    (agent : ExecAgent Scratch) : Prop where
  alive : agent.crashed = false
  unique : OneOpen ExecSubmit.finished agent.submits
  vacant : agent.activeChild = none → ∀ submit ∈ agent.submits, submit.runs = false
  idle : (∀ submit ∈ agent.submits, submit.runs = false) →
    parser.Alike agent.core.scratch parser.scratch
  told : Each (fun _ submit ↦ Told parser modes agent.core.scratch submit) agent.submits

section Records

variable {parser : DriverParser Scratch} {modes : ParseOutput → Prop} {scratch : Scratch}
  {submit : ExecSubmit}

/-- What happens to a child beside its output and its exit. -/
def Harmless (change : Child → Child) : Prop := ∀ child, ∃ armed handled signals,
  change child =
    { child with timerArmed := armed, errorHandled := handled, signals := signals }

theorem harmless_kill (signal : Signal) : Harmless (Child.kill signal) := by
  intro child
  unfold Child.kill
  split <;> exact ⟨_, _, _, rfl⟩

theorem harmless_timer : Harmless fun child ↦ child.disarm.kill sigterm := by
  intro child
  obtain ⟨_, _, _, heq⟩ := harmless_kill sigterm child.disarm
  exact ⟨_, _, _, heq⟩

theorem harmless_error : Harmless fun child ↦ { child.disarm with errorHandled := true } :=
  fun _ ↦ ⟨_, _, _, rfl⟩

theorem Harmless.runs {change : Child → Child} (h : Harmless change) (submit : ExecSubmit) :
    (submit.onChild change).runs = submit.runs := by
  unfold ExecSubmit.runs ExecSubmit.onChild
  cases submit.child with
  | none => rfl
  | some child =>
    obtain ⟨_, _, _, heq⟩ := h child
    simp only [Option.map_some, Option.any_some, heq]

/-- A child that has just been spawned has said nothing. -/
theorem Following.spawned (hidle : parser.Alike scratch parser.scratch) (spec : ExecSpec)
    (env : JsMap JsString JsString) :
    Following parser scratch (.spawned spec env .running) [] := by
  have hfed : (Child.spawned spec env .running).fed = [] := by
    cases hparse : spec.parseOutput <;> simp [Child.fed, Child.spawned, hparse]
  refine ⟨?_, ?_, ?_, ?_⟩
  · cases hparse : spec.parseOutput <;> simp [Child.heldBack, Child.spawned, hparse]
  · rw [hfed]
    rfl
  · rw [hfed]
    exact hidle
  · rw [hfed]
    rfl

/-- Output that is not read line by line is only kept. -/
theorem Following.received {child : Child} {messages : List AssistantMessage}
    (h : Following parser scratch child messages) (hmode : child.spec.parseOutput ≠ .jsonl)
    (chunk : JsString) :
    Following parser scratch (child.received chunk (child.stdoutBuf ++ chunk)) messages := by
  have hbuffer : child.heldBack = child.written ∧
      (child.received chunk (child.stdoutBuf ++ chunk)).heldBack = child.written ++ chunk := by
    cases hparse : child.spec.parseOutput with
    | jsonl => exact absurd hparse hmode
    | json => simp [Child.heldBack, Child.received, hparse]
    | text => simp [Child.heldBack, Child.received, hparse]
  have hfed : (child.received chunk (child.stdoutBuf ++ chunk)).fed = child.fed := by
    cases hparse : child.spec.parseOutput with
    | jsonl => exact absurd hparse hmode
    | json => simp [Child.fed, Child.received, hparse]
    | text => simp [Child.fed, Child.received, hparse]
  refine ⟨?_, hfed ▸ h.accepted, hfed ▸ h.memory, hfed ▸ h.heard⟩
  rw [hbuffer.2, ← hbuffer.1, ← h.buffer]
  rfl

/-- The child of a submit that awaits it or rejects. -/
theorem Told.of_watched {child : Child} {heard : List AssistantMessage}
    (hwatched : Watched parser modes scratch child heard) (hchild : submit.child = some child)
    (hphase : submit.phase = .awaiting none ∧ heard = submit.messages ∨ submit.Rejects) :
    Told parser modes scratch submit := by
  unfold Told
  rcases hphase with ⟨hphase, rfl⟩ | ⟨reason, hphase | hphase⟩
  · rw [hphase]
    exact ⟨child, hchild, hwatched⟩
  · rw [hphase]
    intro other hother
    rw [hchild, Option.some.injEq] at hother
    exact ⟨heard, hother ▸ hwatched⟩
  · rw [hphase]
    intro other hother
    rw [hchild, Option.some.injEq] at hother
    exact ⟨heard, hother ▸ hwatched⟩

/-- A running child is watched, by the submit that awaits it or by one that rejects. -/
theorem Told.running (h : Told parser modes scratch submit) {child : Child}
    (hchild : submit.child = some child) (hlife : child.life = .running) :
    ∃ heard, Watched parser modes scratch child heard ∧
      (submit.phase = .awaiting none ∧ heard = submit.messages ∨ submit.Rejects) := by
  unfold Told at h
  split at h
  · exact h.elim
  · rename_i hphase
    obtain ⟨other, hother, hwatched⟩ := h
    rw [hchild, Option.some.injEq] at hother
    exact ⟨submit.messages, hother ▸ hwatched, .inl ⟨hphase, rfl⟩⟩
  · obtain ⟨other, hother, hnot, _⟩ := h
    rw [hchild, Option.some.injEq] at hother
    exact absurd (hother ▸ hlife) hnot
  · rename_i reason hphase
    obtain ⟨heard, hwatched⟩ := h child hchild
    exact ⟨heard, hwatched, .inr ⟨reason, .inl hphase⟩⟩
  · rename_i reason hphase
    obtain ⟨heard, hwatched⟩ := h child hchild
    exact ⟨heard, hwatched, .inr ⟨reason, .inr hphase⟩⟩
  · obtain ⟨other, hother, hnot, _⟩ := h
    rw [hchild, Option.some.injEq] at hother
    exact absurd (hother ▸ hlife) hnot

/-- The memory matters while a child runs only. -/
theorem Watched.of_ended {child : Child} {heard : List AssistantMessage}
    (h : Watched parser modes scratch child heard) (hlife : child.life ≠ .running)
    (other : Scratch) : Watched parser modes other child heard :=
  ⟨h.code, fun hrunning ↦ absurd hrunning hlife, fun hrunning ↦ absurd hrunning hlife⟩

theorem Told.of_finished (h : Told parser modes scratch submit)
    (hfinished : submit.finished = true) (other : Scratch) : Told parser modes other submit := by
  obtain ⟨hsettled, hruns⟩ := ExecSubmit.finished_iff.mp hfinished
  unfold Told ExecSubmit.settled at *
  cases hphase : submit.phase with
  | suspended => simp [hphase] at hsettled
  | awaiting outcome => simp [hphase] at hsettled
  | returned message => simpa [hphase] using h
  | rejected reason =>
    simp only [hphase] at h ⊢
    intro child hchild
    obtain ⟨heard, hwatched⟩ := h child hchild
    simp only [ExecSubmit.runs, hchild, Option.any_some, decide_eq_false_iff_not] at hruns
    exact ⟨heard, hwatched.of_ended hruns other⟩

theorem Watched.harmless {child : Child} {heard : List AssistantMessage}
    (h : Watched parser modes scratch child heard) {change : Child → Child}
    (hchange : Harmless change) : Watched parser modes scratch (change child) heard := by
  obtain ⟨armed, handled, signals, heq⟩ := hchange child
  rw [heq]
  refine ⟨h.code, h.mode, fun hrunning ↦ ?_⟩
  obtain ⟨hbuffer, haccepted, hmemory, hheard⟩ := h.following hrunning
  exact ⟨hbuffer, haccepted, hmemory, hheard⟩

theorem Told.onChild (h : Told parser modes scratch submit) {change : Child → Child}
    (hchange : Harmless change) : Told parser modes scratch (submit.onChild change) := by
  cases hchild : submit.child with
  | none =>
    have hsame : submit.onChild change = submit := by
      rw [ExecSubmit.onChild, hchild, Option.map_none, ← hchild]
    rwa [hsame]
  | some child =>
    have hafter : submit.onChild change = { submit with child := some (change child) } := by
      rw [ExecSubmit.onChild, hchild, Option.map_some]
    rw [hafter]
    unfold Told at h ⊢
    cases hphase : submit.phase with
    | suspended => simp only [hphase] at h
    | awaiting outcome =>
      simp only [hphase, hchild, Option.some.injEq, exists_eq_left', forall_eq'] at h ⊢
      rcases outcome with _ | _ | _
      · exact h.harmless hchange
      · obtain ⟨armed, handled, signals, heq⟩ := hchange child
        rw [heq]
        exact h
      · obtain ⟨heard, hwatched⟩ := h
        exact ⟨heard, hwatched.harmless hchange⟩
    | returned message =>
      simp only [hphase, hchild, Option.some.injEq, exists_eq_left'] at h ⊢
      obtain ⟨armed, handled, signals, heq⟩ := hchange child
      rw [heq]
      exact h
    | rejected reason =>
      simp only [hphase, hchild, Option.some.injEq, forall_eq'] at h ⊢
      obtain ⟨heard, hwatched⟩ := h
      exact ⟨heard, hwatched.harmless hchange⟩

/-- A promise may be rejected before the child has ended. -/
theorem Told.reject (h : Told parser modes scratch submit) (reason : Rejection) :
    Told parser modes scratch (submit.settlePromise (.rejected reason)) := by
  unfold ExecSubmit.settlePromise
  split
  · rename_i hphase
    unfold Told at h
    rw [hphase] at h
    obtain ⟨child, hchild, hwatched⟩ := h
    exact .of_watched hwatched hchild (.inr ⟨reason, .inl rfl⟩)
  · exact h

end Records

namespace Orderly

variable {parser : DriverParser Scratch} {modes : ParseOutput → Prop}
  {agent next : ExecAgent Scratch}

/-- The record of a child, and what is known of it. -/
theorem at_child (h : agent.Orderly parser modes) {k : ℕ} {child : Child}
    (hchild : agent.childOf k = some child) : ∃ submit, agent.submits[k]? = some submit ∧
      submit.child = some child ∧ Told parser modes agent.core.scratch submit := by
  obtain ⟨submit, hget, hsame⟩ := Option.bind_eq_some_iff.mp hchild
  exact ⟨submit, hget, hsame, h.told k submit hget⟩

/-- While the record that is not finished has no running child, none runs. -/
theorem idle_of (h : agent.Orderly parser modes) {k : ℕ} {submit : ExecSubmit}
    (hget : agent.submits[k]? = some submit) (hopen : submit.finished = false)
    (hruns : submit.runs = false) : parser.Alike agent.core.scratch parser.scratch := by
  apply h.idle
  intro other hmem
  obtain ⟨position, hother⟩ := List.mem_iff_getElem?.mp hmem
  by_cases hposition : position = k
  · subst hposition
    rw [hget, Option.some.injEq] at hother
    rw [← hother, hruns]
  · have hfinished := h.unique.others hget hopen position other hposition hother
    exact (ExecSubmit.finished_iff.mp hfinished).2

/-- A new submit. -/
theorem push (h : agent.Orderly parser modes) {submit : ExecSubmit}
    (hsubmits : next.submits = agent.submits ++ [submit]) (hcrashed : next.crashed = agent.crashed)
    (hscratch : next.core.scratch = agent.core.scratch)
    (hunique : submit.finished = true ∨ ∀ other ∈ agent.submits, other.finished = true)
    (hvacant : next.activeChild = none → agent.activeChild = none ∧ submit.runs = false)
    (htold : Told parser modes agent.core.scratch submit) : next.Orderly parser modes where
  alive := hcrashed.trans h.alive
  unique := by
    rw [hsubmits]
    rcases hunique with hfinished | hall
    · exact h.unique.concat_closed hfinished
    · exact OneOpen.concat hall submit
  vacant := by
    rw [hsubmits]
    intro hnone other hmem
    obtain ⟨hwas, hruns⟩ := hvacant hnone
    rcases List.mem_append.mp hmem with hold | hnew
    · exact h.vacant hwas other hold
    · rw [List.mem_singleton.mp hnew, hruns]
  idle := by
    rw [hsubmits, hscratch]
    exact fun hnone ↦ h.idle fun other hmem ↦ hnone other (List.mem_append_left _ hmem)
  told := by
    rw [hsubmits, hscratch]
    exact h.told.concat htold

/-- A turn that concerns one record only and neither settles nor ends it. -/
theorem modify (h : agent.Orderly parser modes) {k : ℕ} (change : ExecSubmit → ExecSubmit)
    (hsubmits : next.submits = agent.submits.modify k change)
    (hcrashed : next.crashed = agent.crashed) (hscratch : next.core.scratch = agent.core.scratch)
    (hsettled : ∀ submit, (change submit).settled = submit.settled)
    (hruns : ∀ submit, (change submit).runs = submit.runs)
    (hvacant : next.activeChild = none → ∀ submit ∈ agent.submits, submit.runs = false)
    (htold : ∀ submit, agent.submits[k]? = some submit →
      Told parser modes agent.core.scratch submit →
      Told parser modes agent.core.scratch (change submit)) : next.Orderly parser modes where
  alive := hcrashed.trans h.alive
  unique := by
    rw [hsubmits]
    apply h.unique.modify
    intro submit
    rw [ExecSubmit.finished, hsettled, hruns, ExecSubmit.finished]
  vacant := by
    rw [hsubmits, forall_mem_modify fun submit ↦ by rw [hruns]]
    exact hvacant
  idle := by
    rw [hsubmits, hscratch, forall_mem_modify fun submit ↦ by rw [hruns]]
    exact h.idle
  told := by
    rw [hsubmits, hscratch]
    exact h.told.modify (fun _ _ _ hsubmit ↦ hsubmit) htold

/-- A turn of the record that is not finished: the others are, and do not change. -/
theorem at_open (h : agent.Orderly parser modes) {k : ℕ} {submit after : ExecSubmit}
    (hget : agent.submits[k]? = some submit) (hopen : submit.finished = false)
    (hsubmits : next.submits = agent.submits.set k after) (hcrashed : next.crashed = false)
    (hvacant : next.activeChild = none → after.runs = false)
    (hidle : after.runs = false → parser.Alike next.core.scratch parser.scratch)
    (htold : Told parser modes next.core.scratch after) : next.Orderly parser modes where
  alive := hcrashed
  unique := by
    rw [hsubmits]
    exact h.unique.set hget hopen after
  vacant := by
    rw [hsubmits]
    intro hnone other hmem
    obtain ⟨position, hother⟩ := List.mem_iff_getElem?.mp hmem
    by_cases hposition : position = k
    · subst hposition
      rw [List.getElem?_set_self (List.getElem?_eq_some_iff.mp hget).1, Option.some.injEq] at hother
      rw [← hother, hvacant hnone]
    · have hfinished := h.unique.others_set hget hopen after position other hposition hother
      exact (ExecSubmit.finished_iff.mp hfinished).2
  idle := by
    have hlt : k < agent.submits.length := (List.getElem?_eq_some_iff.mp hget).1
    rw [hsubmits]
    exact fun hnone ↦ hidle (hnone after (List.mem_of_getElem? (List.getElem?_set_self hlt)))
  told := by
    rw [hsubmits]
    refine h.told.set (fun position other hne hother hold ↦ ?_) htold
    exact hold.of_finished (h.unique.others hget hopen position other hne hother) _

/-- A signal to the active child changes nothing that matters. -/
theorem signalActive (h : agent.Orderly parser modes) (signal : Signal) :
    (agent.signalActive signal).Orderly parser modes := by
  unfold ExecAgent.signalActive
  split
  · exact h.modify (ExecSubmit.onChild (Child.kill signal)) rfl rfl rfl (fun _ ↦ rfl)
      (harmless_kill signal).runs h.vacant fun _ _ hsubmit ↦ hsubmit.onChild (harmless_kill signal)
  · exact h

/-- A submit issued when all others are settled. While a child is left behind it is refused. -/
theorem submit (h : agent.Orderly parser modes) {opts : SubmitOptions} {launch : Launch}
    (hintime : InTime parser modes agent (.submit opts launch)) :
    (agent.submit opts launch).Orderly parser modes := by
  obtain ⟨hplain, hall, hmode⟩ := hintime
  have hrejected : ∀ reason, Orderly parser modes
      (agent.push ⟨opts.expectMessage, .rejected reason, [], none⟩) :=
    fun reason ↦ h.push rfl rfl rfl (.inl rfl) (fun hnone ↦ ⟨hnone, rfl⟩) nofun
  unfold ExecAgent.submit
  split
  · exact hrejected _
  · split
    · rw [hplain]
      exact hrejected _
    · rename_i hvacant
      have hnone : ∀ submit ∈ agent.submits, submit.runs = false := h.vacant hvacant
      have hfinished : ∀ submit ∈ agent.submits, submit.finished = true := fun submit hmem ↦
        ExecSubmit.finished_iff.mpr ⟨hall submit hmem, hnone submit hmem⟩
      unfold ExecAgent.proceed
      cases launch with
      | buildThrows =>
        exact h.push (modify_concat _ _ _) rfl rfl (.inl rfl) (fun hnone ↦ ⟨hnone, rfl⟩) nofun
      | spawnThrows spec =>
        exact h.push (modify_concat _ _ _) rfl (AgentCore.scratch_setStatus _ _) (.inr hfinished)
          (fun hnone ↦ ⟨hnone, rfl⟩) nofun
      | fails spec =>
        exact h.push (modify_concat _ _ _) rfl (AgentCore.scratch_setStatus _ _) (.inr hfinished)
          nofun ⟨_, rfl, nofun, nofun, nofun⟩
      | starts spec =>
        exact h.push (modify_concat _ _ _) rfl (AgentCore.scratch_setStatus _ _) (.inr hfinished)
          nofun ⟨_, rfl, nofun, fun _ ↦ hmode, fun _ ↦ .spawned (h.idle hnone) spec _⟩

/-- The continuation of a submit whose promise was settled. -/
theorem finish (h : agent.Orderly parser modes) {k : ℕ} {outcome : Outcome}
    (hphase : agent.phaseOf k = some (.awaiting (some outcome))) :
    (agent.finish k outcome).Orderly parser modes := by
  obtain ⟨submit, hget, hawaiting⟩ := Option.map_eq_some_iff.mp hphase
  have hsubmit : Told parser modes agent.core.scratch submit := h.told k submit hget
  have hopen : submit.finished = false := by
    apply ExecSubmit.not_finished_of_open
    simp [ExecSubmit.settled, hawaiting]
  have hscratch : (agent.finish k outcome).core.scratch = agent.core.scratch := by
    unfold ExecAgent.finish
    simp only [ExecAgent.onSubmit]
    split
    · exact AgentCore.scratch_setStatus _ _
    · rfl
  refine h.at_open hget hopen (modify_eq_set hget _) h.alive
    (fun hnone ↦ h.vacant hnone submit (List.mem_of_getElem? hget)) (fun hruns ↦ ?_) ?_
  · rw [hscratch]
    exact h.idle_of hget hopen hruns
  rw [hscratch]
  unfold Told at hsubmit
  rw [hawaiting] at hsubmit
  cases outcome with
  | rejected reason => exact hsubmit
  | resolved =>
    obtain ⟨child, hchild, hlife, hanswer⟩ := hsubmit
    refine ⟨child, hchild, hlife, ?_⟩
    change (if submit.expectMessage then submit.messages.getLast? else none).map undated =
      if submit.expectMessage then child.answer parser else none
    split
    · exact hanswer
    · rfl

end Orderly

/-! ## Output and exit -/

section Output

variable {parser : DriverParser Scratch} {agent : ExecAgent Scratch} {k : ℕ} {submit : ExecSubmit}

theorem deliver_of_settled {other : ExecSubmit} (h : other.settled = true)
    (messages : List AssistantMessage) : other.deliver messages = other := by
  unfold ExecSubmit.settled at h
  unfold ExecSubmit.deliver
  split
  · rename_i hphase
    simp [hphase] at h
  · rfl

/-- Messages reach one submit at most. -/
theorem deliver_alone (halone : ∀ (position : ℕ) other, position ≠ k →
      agent.submits[position]? = some other → other.finished = true)
    (hget : agent.submits[k]? = some submit) (messages : List AssistantMessage) :
    agent.submits.map (ExecSubmit.deliver messages) =
      agent.submits.set k (submit.deliver messages) := by
  apply map_eq_set hget
  intro position other hne hother
  have hfinished := halone position other hne hother
  exact deliver_of_settled (ExecSubmit.finished_iff.mp hfinished).1 messages

/-- What a feed does while one submit listens at most. -/
theorem feed_alone (huniform : parser.Uniform) (halone : ∀ (position : ℕ) other, position ≠ k →
      agent.submits[position]? = some other → other.finished = true)
    (hget : agent.submits[k]? = some submit) (now : Timestamp) (chunks : List JsString) :
    ∃ core messages, agent.feed parser now chunks =
        { agent with
          core := core
          submits := agent.submits.set k (submit.deliver messages)
          crashed := (parser.replies chunks agent.core.scratch).threw } ∧
      messages.map undated = (parser.replies chunks agent.core.scratch).messages ∧
      core.scratch = (parser.replies chunks agent.core.scratch).scratch := by
  obtain ⟨⟨messages, htranscript, hmessages⟩, hscratch, hthrew⟩ :=
    DriverParser.feedAll_replies huniform now chunks agent.core
  refine ⟨(agent.core.feedAll parser now chunks).1, messages, ?_, hmessages, hscratch⟩
  unfold ExecAgent.feed
  simp only [htranscript, List.drop_left', hthrew, deliver_alone halone hget]

/-- What the exit makes of the output that was held back: the last message heard is the answer,
and nothing stays in the parser. -/
theorem flushOutput_alone {child : Child} {heard : List AssistantMessage}
    (hreplays : child.spec.parseOutput ≠ .text → parser.Uniform ∧ parser.Settles)
    (haccepts : child.spec.parseOutput ≠ .text →
      ∀ text ∈ piece child.stdoutBuf, parser.Accepts text)
    (hfollowing : Following parser agent.core.scratch child heard)
    (halone : ∀ (position : ℕ) other, position ≠ k →
      agent.submits[position]? = some other → other.finished = true)
    (hget : agent.submits[k]? = some submit) (hcrashed : agent.crashed = false)
    (now : Timestamp) :
    ∃ core messages, agent.flushOutput parser now child =
        { agent with
          core := core
          submits := agent.submits.set k (submit.deliver messages) } ∧
      (heard ++ messages).getLast?.map undated = child.answer parser ∧
      parser.Alike core.scratch parser.scratch := by
  have hparsed : child.spec.parseOutput ≠ .text → ∃ core messages,
      agent.feed parser now (piece child.stdoutBuf ++ [[]]) =
        { agent with
          core := core
          submits := agent.submits.set k (submit.deliver messages) } ∧
      (heard ++ messages).getLast?.map undated =
        (parser.replies child.outputChunks parser.scratch).messages.getLast? ∧
      parser.Alike core.scratch parser.scratch := by
    intro hmode
    obtain ⟨huniform, hsettles⟩ := hreplays hmode
    obtain ⟨hthrew, hflushed⟩ := hsettles.flush
      (DriverParser.threw_of_accepts (haccepts hmode) agent.core.scratch)
    obtain ⟨_, _, hmessages⟩ := hfollowing.memory.append hfollowing.accepted hthrew
    obtain ⟨core, messages, hfeed, hnew, hscratch⟩ := feed_alone huniform halone hget now
      (piece child.stdoutBuf ++ [[]])
    refine ⟨core, messages, ?_, ?_, ?_⟩
    · rw [hfeed, hthrew, ← hcrashed]
    · calc (heard ++ messages).getLast?.map undated
          = (heard.map undated ++ messages.map undated).getLast? := by
            rw [← List.getLast?_map, List.map_append]
        _ = (parser.replies (child.fed ++ (piece child.stdoutBuf ++ [[]]))
              parser.scratch).messages.getLast? := by
            rw [hfollowing.heard, hnew, hmessages]
        _ = (parser.replies child.outputChunks parser.scratch).messages.getLast? := by
            rw [child.outputChunks_eq, hfollowing.buffer]
    · rw [hscratch]
      exact hflushed
  unfold flushOutput Child.answer
  cases hmode : child.spec.parseOutput with
  | json => exact hparsed (by simp [hmode])
  | jsonl => exact hparsed (by simp [hmode])
  | text =>
    have hbuffer : child.stdoutBuf = child.written := by
      rw [hfollowing.buffer, Child.heldBack, hmode]
    have hfed : child.fed = [] := by rw [Child.fed, hmode]
    have hsilent : heard = [] := by
      have hheard := hfollowing.heard
      rw [hfed] at hheard
      exact List.map_eq_nil_iff.mp hheard
    have hidle := hfollowing.memory
    rw [hfed] at hidle
    simp only [hbuffer, hsilent, List.nil_append]
    unfold say
    split
    · refine ⟨agent.core, [], ?_, rfl, hidle⟩
      have hnothing : submit.deliver [] = submit := by
        unfold ExecSubmit.deliver
        split <;> simp
      rw [hnothing, set_eq_self hget]
    · refine ⟨agent.core.pushMessage ⟨JsString.trimEnd child.written, now, none⟩,
        [⟨JsString.trimEnd child.written, now, none⟩], ?_, rfl, hidle⟩
      rw [deliver_alone halone hget]

end Output

namespace Orderly

variable {parser : DriverParser Scratch} {modes : ParseOutput → Prop} {agent : ExecAgent Scratch}

theorem onChild_some {submit : ExecSubmit} {child : Child} (hchild : submit.child = some child)
    (change : Child → Child) :
    submit.onChild change = { submit with child := some (change child) } := by
  rw [ExecSubmit.onChild, hchild, Option.map_some]

/-- The record of a running child is the one that is not finished, and its child is active. -/
theorem at_running (h : agent.Orderly parser modes) {k : ℕ} {child : Child}
    (hchild : agent.childOf k = some child) (hlife : child.life = .running) :
    ∃ submit, agent.submits[k]? = some submit ∧ submit.child = some child ∧
      submit.finished = false ∧ agent.activeChild ≠ none ∧
      ∃ heard, Watched parser modes agent.core.scratch child heard ∧
        (submit.phase = .awaiting none ∧ heard = submit.messages ∨ submit.Rejects) := by
  obtain ⟨submit, hget, hown, hsubmit⟩ := h.at_child hchild
  have hruns : submit.runs = true := by simp [ExecSubmit.runs, hown, hlife]
  refine ⟨submit, hget, hown, ExecSubmit.not_finished_of_runs hruns, fun hnone ↦ ?_,
    hsubmit.running hown hlife⟩
  rw [h.vacant hnone submit (List.mem_of_getElem? hget)] at hruns
  cases hruns

/-- What a submit hears is added to what it heard, if it still awaits its child. -/
theorem heard_deliver {submit : ExecSubmit} {heard : List AssistantMessage}
    (h : submit.phase = .awaiting none ∧ heard = submit.messages ∨ submit.Rejects)
    (child : Option Child) (messages : List AssistantMessage) :
    (ExecSubmit.deliver messages { submit with child := child }).phase = .awaiting none ∧
        heard ++ messages = (ExecSubmit.deliver messages { submit with child := child }).messages ∨
      (ExecSubmit.deliver messages { submit with child := child }).Rejects := by
  rcases h with ⟨hphase, rfl⟩ | hrejects
  · left
    rw [ExecSubmit.phase_deliver]
    refine ⟨hphase, ?_⟩
    simp only [ExecSubmit.deliver, hphase]
  · right
    unfold ExecSubmit.Rejects
    rwa [ExecSubmit.phase_deliver]

/-- A chunk of output that comes while the child runs. -/
theorem onData (h : agent.Orderly parser modes)
    (hreplays : ∀ mode, modes mode → mode ≠ .text → parser.Uniform ∧ parser.Settles)
    {k : ℕ} {child : Child} (hchild : agent.childOf k = some child) (hlife : child.life = .running)
    {chunk : JsString} (haccepts : child.spec.parseOutput = .jsonl →
      ∀ line ∈ lines newline (child.stdoutBuf ++ chunk), parser.Accepts line) (now : Timestamp) :
    (agent.onData parser now k chunk child).Orderly parser modes := by
  obtain ⟨submit, hget, hown, hopen, hactive, heard, hwatched, hphase⟩ := h.at_running hchild hlife
  have hmode : modes child.spec.parseOutput := hwatched.mode hlife
  have hfollowing : Following parser agent.core.scratch child heard := hwatched.following hlife
  have hruns : ∀ messages rest, ExecSubmit.runs (ExecSubmit.deliver messages
      { submit with child := some (child.received chunk rest) }) = true := by
    intro messages rest
    rw [ExecSubmit.runs, ExecSubmit.child_deliver]
    simp [Child.received, hlife]
  have hkept : child.spec.parseOutput ≠ .jsonl → Orderly parser modes { agent with
      core := agent.core.record [.emit (agentKey agent.core.id (js "output")) (.text chunk)]
      submits := agent.submits.set k { submit with
        child := some (child.received chunk (child.stdoutBuf ++ chunk)) } } := by
    intro hkeeps
    have hreceived : Watched parser modes agent.core.scratch
        (child.received chunk (child.stdoutBuf ++ chunk)) heard :=
      ⟨hwatched.code, fun _ ↦ hmode, fun _ ↦ hfollowing.received hkeeps chunk⟩
    refine h.at_open hget hopen rfl h.alive (fun hnone ↦ absurd hnone hactive) (fun hnot ↦ ?_)
      (Told.of_watched hreceived rfl hphase)
    simp [ExecSubmit.runs, Child.received, hlife] at hnot
  unfold ExecAgent.onData
  simp only [onSubmit, emitOutput, modify_eq_set hget, onChild_some hown]
  cases hparse : child.spec.parseOutput with
  | jsonl =>
    obtain ⟨huniform, -⟩ := hreplays _ hmode (by simp [hparse])
    have hlt : k < agent.submits.length := (List.getElem?_eq_some_iff.mp hget).1
    have hbuffer : child.stdoutBuf = rest newline child.written := by
      rw [hfollowing.buffer, Child.heldBack, hparse]
    have hthrew : (parser.replies (lines newline (child.stdoutBuf ++ chunk))
        agent.core.scratch).threw = false := DriverParser.threw_of_accepts (haccepts hparse) _
    have hfed : (child.received chunk (rest newline (child.stdoutBuf ++ chunk))).fed =
        child.fed ++ lines newline (child.stdoutBuf ++ chunk) := by
      simp only [Child.fed, Child.received, hparse, hbuffer]
      exact lines_append newline child.written chunk
    obtain ⟨haccepted, hmemory, hmessages⟩ := hfollowing.memory.append hfollowing.accepted hthrew
    -- the record is written before the lines are fed
    obtain ⟨core, messages, hfeed, hnew, hscratch⟩ := @feed_alone _ parser { agent with
        core := agent.core.record [.emit (agentKey agent.core.id (js "output")) (.text chunk)]
        submits := agent.submits.set k { submit with
          child := some (child.received chunk (rest newline (child.stdoutBuf ++ chunk))) } }
      k _ huniform (h.unique.others_set hget hopen _) (List.getElem?_set_self hlt) now
      (lines newline (child.stdoutBuf ++ chunk))
    simp only
    rw [hfeed]
    have hreceived : Watched parser modes core.scratch
        (child.received chunk (rest newline (child.stdoutBuf ++ chunk))) (heard ++ messages) := by
      refine ⟨hwatched.code, fun _ ↦ hmode, fun _ ↦ ⟨?_, ?_, ?_, ?_⟩⟩
      · simp only [Child.heldBack, Child.received, hparse, hbuffer]
        exact (rest_append newline child.written chunk).symm
      · rw [hfed]
        exact haccepted
      · rw [hfed]
        exact hscratch ▸ hmemory
      · rw [hfed, hmessages]
        calc (heard ++ messages).map undated
            = heard.map undated ++ messages.map undated := List.map_append
          _ = _ := by rw [hfollowing.heard, hnew]; rfl
    refine h.at_open hget hopen (List.set_set _) hthrew (fun hnone ↦ absurd hnone hactive)
      (fun hnot ↦ ?_) (Told.of_watched hreceived (ExecSubmit.child_deliver _ _)
        (heard_deliver hphase _ messages))
    rw [hruns] at hnot
    cases hnot
  | json => exact hkept (by simp [hparse])
  | text => exact hkept (by simp [hparse])

/-- The exit of a child whose output has all arrived. -/
theorem onExit (h : agent.Orderly parser modes)
    (hreplays : ∀ mode, modes mode → mode ≠ .text → parser.Uniform ∧ parser.Settles)
    {k : ℕ} {child : Child} (hchild : agent.childOf k = some child) (hlife : child.life = .running)
    (haccepts : child.spec.parseOutput ≠ .text →
      ∀ text ∈ piece child.stdoutBuf, parser.Accepts text)
    (now : Timestamp) {code : Option ℤ}
    (hcode : code = some 0 → agent.phaseOf k = some (.awaiting none)) (signal : Option Signal) :
    (agent.onExit parser now k code signal child).Orderly parser modes := by
  obtain ⟨submit, hget, hown, hopen, hactive, heard, hwatched, hphase⟩ := h.at_running hchild hlife
  have hlt : k < agent.submits.length := (List.getElem?_eq_some_iff.mp hget).1
  obtain ⟨core, messages, hflush, hanswer, hidle⟩ := @flushOutput_alone _ parser { agent with
      activeChild := none
      submits := agent.submits.set k { submit with child := some (child.ended code) } }
    k { submit with child := some (child.ended code) } child heard
    (hreplays _ (hwatched.mode hlife)) haccepts (hwatched.following hlife)
    (h.unique.others_set hget hopen _) (List.getElem?_set_self hlt) h.alive now
  have hheard := heard_deliver hphase (some (child.ended code)) messages
  have hchild := ExecSubmit.child_deliver messages { submit with child := some (child.ended code) }
  unfold ExecAgent.onExit
  simp only [onSubmit, modify_eq_set hget, onChild_some hown]
  rw [hflush]
  simp only [h.alive, Bool.false_eq_true, if_false, List.set_set,
    modify_eq_set (List.getElem?_set_self hlt), onChild_some hchild]
  have hruns : ∀ outcome, ExecSubmit.runs (ExecSubmit.settlePromise outcome
      { ExecSubmit.deliver messages { submit with child := some (child.ended code) } with
        child := some (child.ended code).clearOutput }) = false := by
    intro outcome
    rw [ExecSubmit.runs_settlePromise]
    rfl
  apply h.at_open hget hopen rfl rfl (fun _ ↦ hruns _) (fun _ ↦ hidle)
  have hended : ∀ heard, code ≠ some 0 →
      Watched parser modes core.scratch (child.ended code).clearOutput heard :=
    fun _ hnonzero ↦ ⟨hnonzero, nofun, nofun⟩
  rcases hheard with ⟨hawaiting, hmessages⟩ | hrejects
  · unfold ExecSubmit.settlePromise
    simp only [hawaiting]
    by_cases hgood : code = some 0 ∨ signal = some sigterm
    · rw [if_pos hgood]
      rw [hmessages] at hanswer
      exact ⟨_, rfl, nofun, hanswer⟩
    · rw [if_neg hgood]
      exact Told.of_watched (hended [] fun hzero ↦ hgood (.inl hzero)) rfl (.inr ⟨_, .inl rfl⟩)
  · have hnonzero : code ≠ some 0 := by
      intro hzero
      have hawaiting : submit.phase = .awaiting none := by simpa [phaseOf, hget] using hcode hzero
      apply hrejects.ne_awaiting
      rw [ExecSubmit.phase_deliver, hawaiting]
    rw [ExecSubmit.Rejects.settlePromise (by exact hrejects)]
    exact Told.of_watched (hended [] hnonzero) rfl (.inr hrejects)

/-- The `error` of a child, when none is alive. -/
theorem onError (h : agent.Orderly parser modes) {k : ℕ} {child : Child}
    (hnone : child.errorHandled = false → ∀ submit ∈ agent.submits, submit.runs = false) :
    (agent.onError k child).Orderly parser modes := by
  unfold ExecAgent.onError
  split
  · exact h
  · rename_i hhandled
    refine h.modify _ rfl rfl rfl (fun submit ↦ by simp) (fun submit ↦ ?_)
      (fun _ ↦ hnone (by simpa using hhandled)) fun submit _ hsubmit ↦
        (hsubmit.onChild harmless_error).reject _
    rw [ExecSubmit.runs_settlePromise, harmless_error.runs]

/-- The timer of a submit: its child may be left behind. -/
theorem onTimer (h : agent.Orderly parser modes) (k : ℕ) :
    (agent.onTimer k).Orderly parser modes := by
  refine h.modify _ rfl rfl rfl (fun submit ↦ by simp) (fun submit ↦ ?_) h.vacant
    fun submit _ hsubmit ↦ (hsubmit.reject _).onChild harmless_timer
  rw [harmless_timer.runs, ExecSubmit.runs_settlePromise]

/-- Every step in time keeps the invariant. -/
theorem step (h : agent.Orderly parser modes)
    (hreplays : ∀ mode, modes mode → mode ≠ .text → parser.Uniform ∧ parser.Settles)
    {event : ExecEvent} {next : ExecAgent Scratch} (hintime : InTime parser modes agent event)
    (hstep : agent.step parser event = some next) : next.Orderly parser modes := by
  obtain ⟨_, hturn⟩ := turn_of_step hstep
  cases hturn with
  | submit opts launch => exact h.submit hintime
  | resume launch hphase =>
    obtain ⟨submit, hget, hsuspended⟩ := Option.map_eq_some_iff.mp hphase
    have hsubmit : Told parser modes agent.core.scratch submit := h.told _ submit hget
    unfold Told at hsubmit
    rw [hsuspended] at hsubmit
    exact hsubmit.elim
  | settle hphase => exact h.finish hphase
  | data now chunk hchild hlife =>
    rename_i child
    obtain ⟨hexited, haccepts⟩ := hintime child hchild
    have hrunning : child.life = .running := by
      cases hcase : child.life with
      | failed => exact absurd hcase hlife
      | running => rfl
      | exited => exact absurd hcase hexited
    exact h.onData hreplays hchild hrunning haccepts now
  | exit now code signal hchild hlife =>
    exact h.onExit hreplays hchild hlife (hintime.2 _ hchild) now hintime.1 signal
  | error hchild => exact h.onError (hintime _ hchild)
  | timer hchild harmed => exact h.onTimer _
  | interrupt =>
    unfold ExecAgent.interrupt
    split
    · exact h
    · exact h.signalActive sigterm
  | kill signal =>
    unfold ExecAgent.kill
    split
    · exact h
    · have hsignalled := h.signalActive signal
      exact ⟨hsignalled.alive, hsignalled.unique, hsignalled.vacant, hsignalled.idle,
        hsignalled.told⟩

theorem create (parser : DriverParser Scratch) (modes : ParseOutput → Prop)
    (id driverId cwd : JsString) (env : JsMap JsString JsString) :
    (create parser id driverId cwd env).Orderly parser modes :=
  ⟨rfl, OneOpen.nil, by simp [ExecAgent.create], fun _ ↦ .refl _, Each.nil⟩

theorem attributed (h : agent.Orderly parser modes) : agent.Attributed parser := by
  intro k submit hget child hchild
  have hsubmit : Told parser modes agent.core.scratch submit := h.told k submit hget
  unfold Told at hsubmit
  split at hsubmit
  · exact hsubmit.elim
  · rename_i hphase
    obtain ⟨other, hother, hwatched⟩ := hsubmit
    rw [hchild, Option.some.injEq] at hother
    subst hother
    exact ⟨fun hzero ↦ absurd hzero hwatched.code, fun message hreturned ↦ by
      simp [hphase] at hreturned⟩
  · rename_i hphase
    exact ⟨fun _ ↦ .inl hphase, fun message hreturned ↦ by simp [hphase] at hreturned⟩
  · rename_i hphase
    obtain ⟨heard, hwatched⟩ := hsubmit child hchild
    exact ⟨fun hzero ↦ absurd hzero hwatched.code, fun message hreturned ↦ by
      simp [hphase] at hreturned⟩
  · rename_i hphase
    obtain ⟨heard, hwatched⟩ := hsubmit child hchild
    exact ⟨fun hzero ↦ absurd hzero hwatched.code, fun message hreturned ↦ by
      simp [hphase] at hreturned⟩
  · rename_i message hphase
    obtain ⟨other, hother, _, hanswer⟩ := hsubmit
    rw [hchild, Option.some.injEq] at hother
    subst hother
    refine ⟨fun _ ↦ .inr ⟨message, hphase⟩, fun returned hreturned ↦ ?_⟩
    rw [hphase, SubmitPhase.returned.injEq] at hreturned
    rw [← hreturned, hanswer]

end Orderly

/-- A run in time attributes every message, for a driver whose parser is replayable or not used. -/
theorem attributed_of_inTime {parser : DriverParser Scratch} {modes : ParseOutput → Prop}
    (hreplays : ∀ mode, modes mode → mode ≠ .text → parser.Uniform ∧ parser.Settles)
    (id driverId cwd : JsString) (env : JsMap JsString JsString) {schedule : List ExecEvent}
    (hmeet : StepsMeet (step parser) (InTime parser modes)
      (create parser id driverId cwd env) schedule) :
    Throughout (step parser) (Attributed parser) (create parser id driverId cwd env) schedule := by
  have horderly : Throughout (step parser) (Orderly parser modes)
      (create parser id driverId cwd env) schedule :=
    throughout_of_invariant (fun _ _ _ hinv hintime hstep ↦ hinv.step hreplays hintime hstep)
      (Orderly.create parser modes id driverId cwd env) hmeet
  exact horderly.mono fun _ ↦ Orderly.attributed

/-- Exec agents of the built-in drivers: in a run in time every submit returns its own output.
Codex and Gemini may be read in any mode; with plain text the parser does not matter. -/
theorem own_output_of_inTime (id driverId cwd : JsString) (env : JsMap JsString JsString)
    (schedule : List ExecEvent) :
    (StepsMeet (step codexParser) (InTime codexParser fun _ ↦ True)
        (create codexParser id driverId cwd env) schedule →
      Throughout (step codexParser) (Attributed codexParser)
        (create codexParser id driverId cwd env) schedule) ∧
    (StepsMeet (step geminiParser) (InTime geminiParser fun _ ↦ True)
        (create geminiParser id driverId cwd env) schedule →
      Throughout (step geminiParser) (Attributed geminiParser)
        (create geminiParser id driverId cwd env) schedule) ∧
    ∀ (Scratch : Type) (parser : DriverParser Scratch),
      StepsMeet (step parser) (InTime parser (· = .text))
        (create parser id driverId cwd env) schedule →
      Throughout (step parser) (Attributed parser) (create parser id driverId cwd env) schedule := by
  refine ⟨?_, ?_, ?_⟩
  · apply attributed_of_inTime
    exact fun _ _ _ ↦ ⟨codexParser_uniform, codexParser_settles⟩
  · apply attributed_of_inTime
    exact fun _ _ _ ↦ ⟨geminiParser_uniform, geminiParser_settles⟩
  · intro Scratch parser
    apply attributed_of_inTime
    exact fun mode hmode hnot ↦ absurd hmode hnot

/-- A child in jsonl mode whose second line comes in two chunks. -/
def twoLines : List ExecEvent :=
  [.submit ⟨true, false⟩ (.starts ⟨js "codex", [], js "/", .empty, none, .jsonl⟩),
    .data 0 0 (js "\x7b\"type\":\"turn.started\"\x7d\n\x7b\"type\":\"item.completed\",\"item\":\x7b\"ty"),
    .data 0 0 (js "pe\":\"agent_message\",\"text\":\"one\"\x7d\x7d\n"),
    .exit 0 0 (some 0) none, .settle 0]

theorem own_output_of_two_lines : Throughout (step codexParser) (Attributed codexParser)
    (create codexParser (js "a") (js "codex") (js "/") .empty) twoLines :=
  (own_output_of_inTime (js "a") (js "codex") (js "/") .empty twoLines).1 (by decide +kernel)

/-- The first child's output arrives after its exit, when the second submit listens. -/
def lateThenSilent : List ExecEvent :=
  [.submit ⟨true, false⟩ (.starts ⟨js "codex", [], js "/", .empty, none, .jsonl⟩),
    .exit 0 0 (some 0) none, .settle 0,
    .submit ⟨true, false⟩ (.starts ⟨js "codex", [], js "/", .empty, none, .jsonl⟩),
    .data 0 0 (js "\x7b\"type\":\"item.completed\",\"item\":\x7b\"type\":\"agent_message\",\"text\":\"one\"\x7d\x7d\n"),
    .exit 1 0 (some 0) none, .settle 1]

/-- The second submit returns the first one's message; its own child said nothing. -/
theorem late_output_goes_to_next_submit :
    ¬ Throughout (step codexParser) (Attributed codexParser)
      (create codexParser (js "a") (js "codex") (js "/") .empty) lateThenSilent := by
  intro h
  have hheard : ((run (step codexParser) (create codexParser (js "a") (js "codex") (js "/") .empty)
      lateThenSilent).bind fun agent ↦ agent.submits[1]?).any (fun submit ↦
        submit.phase.message.isSome && submit.child.any fun child ↦
          submit.expectMessage && (child.answer codexParser).isNone) = true := by decide +kernel
  obtain ⟨submit, hbind, hmessage⟩ := (Option.any_eq_true _ _).mp hheard
  obtain ⟨agent, hrun, hget⟩ := Option.bind_eq_some_iff.mp hbind
  rw [Bool.and_eq_true, Option.isSome_iff_exists] at hmessage
  obtain ⟨⟨message, hphase⟩, hsilent⟩ := hmessage
  obtain ⟨child, hchild, hnone⟩ := (Option.any_eq_true _ _).mp hsilent
  rw [Bool.and_eq_true, Option.isNone_iff_eq_none] at hnone
  have hanswer := ((h.last hrun) 1 submit hget child hchild).2 _
    (SubmitPhase.message_eq_some_iff.mp hphase)
  rw [hnone.1, if_pos rfl, hnone.2] at hanswer
  cases hanswer

end ExecAgent

end Cordyceps.Agents
