import Cordyceps.Agents.ServerHttpController
import Cordyceps.Drivers.OllamaParser

/-!
# One request at a time, with its own body

The server-http controller promises that at most one POST is in flight, that
`activeAbort` is its controller, and that a POST carries what `control.submit`
wrote for its own prompt. The busy guard is passed before two `await`s and the
staging slot is shared, so the promise hinges on one step: when the driver's
control has finished, no other POST may be in flight and the slot must still
hold what this submit wrote.
-/

namespace Cordyceps.Agents

open Foundations Foundations.StepMachine Drivers

variable {Scratch : Type*}

namespace HttpAgent

/-- The body that belongs to a submit: what its control wrote, or the default. -/
def ownBody (submit : HttpSubmit) : JsString := submit.written.getD submit.defaultBody

/-- A POST in flight is the active one, hence the only one, and every POST that was issued
carries the body that belongs to its submit. -/
structure OneRequest (agent : HttpAgent Scratch) : Prop where
  active_of_inFlight : Each (fun k submit ↦ submit.inFlight = true → agent.activeAbort = some k)
    agent.submits
  own_body : Each (fun _ submit ↦ ∀ request, submit.posted = some request →
    request.body = ownBody submit) agent.submits

theorem OneRequest.unique {agent : HttpAgent Scratch} (h : agent.OneRequest) {j k : ℕ}
    {first second : HttpSubmit} (hfirst : agent.submits[j]? = some first)
    (hsecond : agent.submits[k]? = some second) (hj : first.inFlight = true)
    (hk : second.inFlight = true) : j = k := by
  have hactive := h.active_of_inFlight j first hfirst hj
  rw [h.active_of_inFlight k second hsecond hk] at hactive
  exact (Option.some.inj hactive).symm

/-- When a submit comes back from `control.submit`, nothing is in flight and the staging slot
holds what this submit wrote. -/
def KeepsOwn (agent : HttpAgent Scratch) : HttpEvent → Prop
  | .controlDone k => (∀ submit ∈ agent.submits, submit.inFlight = false) ∧
      ∀ submit, agent.submits[k]? = some submit →
        agent.pendingBody.getD submit.defaultBody = ownBody submit
  | _ => True

/-! ## The invariant of one record -/

/-- A submit that has not got through its control has posted nothing. -/
structure Owned (active : Option ℕ) (k : ℕ) (submit : HttpSubmit) : Prop where
  unposted : submit.phase = .suspended ∨ submit.phase = .preparing → submit.posted = none
  active : submit.inFlight = true → active = some k
  body : ∀ request, submit.posted = some request → request.body = ownBody submit

def AllOwned (agent : HttpAgent Scratch) : Prop :=
  Each (Owned agent.activeAbort) agent.submits

theorem Owned.of_not_inFlight {active other : Option ℕ} {k : ℕ} {submit : HttpSubmit}
    (h : Owned active k submit) (hflight : submit.inFlight = false) : Owned other k submit where
  unposted := h.unposted
  active hinFlight := by simp [hflight] at hinFlight
  body := h.body

/-- A record keeps its invariant when it moves to a phase with no POST in flight, past its
control. -/
theorem Owned.withPhase {active : Option ℕ} {k : ℕ} {submit : HttpSubmit}
    (h : Owned active k submit) {phase : HttpPhase} (hsuspended : phase ≠ .suspended)
    (hpreparing : phase ≠ .preparing) (hflight : (submit.withPhase phase).inFlight = false)
    {other : Option ℕ} : Owned other k (submit.withPhase phase) where
  unposted hphase := absurd hphase (not_or_intro hsuspended hpreparing)
  active hinFlight := by simp [hflight] at hinFlight
  body := h.body

theorem deliver_eq (messages : List AssistantMessage) (submit : HttpSubmit) :
    ∃ received, submit.deliver messages = { submit with messages := received } := by
  unfold HttpSubmit.deliver
  split <;> exact ⟨_, rfl⟩

theorem Owned.deliver {active : Option ℕ} {k : ℕ} {submit : HttpSubmit}
    (h : Owned active k submit) (messages : List AssistantMessage) :
    Owned active k (submit.deliver messages) := by
  obtain ⟨received, heq⟩ := deliver_eq messages submit
  rw [heq]
  exact ⟨h.unposted, h.active, h.body⟩

namespace AllOwned

variable {agent : HttpAgent Scratch}

theorem push (h : agent.AllOwned) (opts : SubmitOptions) (prompt : JsString) {phase : HttpPhase}
    (hphase : ∀ stage, phase ≠ .requesting stage) : (agent.push opts prompt phase).AllOwned := by
  refine h.concat ⟨fun _ ↦ rfl, fun hflight ↦ ?_, nofun⟩
  cases phase with
  | requesting stage => exact absurd rfl (hphase stage)
  | _ => cases hflight

theorem abortAt (h : agent.AllOwned) (k : ℕ) : (agent.onSubmit k HttpSubmit.abort).AllOwned :=
  h.modify (fun _ _ _ howned ↦ howned)
    fun _ _ howned ↦ ⟨howned.unposted, howned.active, howned.body⟩

theorem abortActive (h : agent.AllOwned) : agent.abortActive.AllOwned := by
  unfold HttpAgent.abortActive
  split
  · exact h.abortAt _
  · exact h

/-- Calling the control starts from a record that has posted nothing. -/
theorem prepare (h : agent.AllOwned) {k : ℕ} (hphase : agent.phaseOf k = some .suspended) :
    (agent.prepare k).AllOwned := by
  apply h.modify (fun _ _ _ howned ↦ howned)
  intro submit hget howned
  have hsuspended : submit.phase = .suspended := by
    simpa [phaseOf, hget] using hphase
  have hnone := howned.unposted (.inl hsuspended)
  exact ⟨fun _ ↦ hnone, nofun, fun request hrequest ↦ by
    rw [HttpSubmit.withPhase, hnone] at hrequest
    cases hrequest⟩

theorem submit (h : agent.AllOwned) (opts : SubmitOptions) (prompt : JsString) :
    (agent.submit opts prompt).AllOwned := by
  unfold HttpAgent.submit
  split
  · exact h.push opts prompt (by simp)
  · split
    · split
      · exact (h.push opts prompt (by simp)).abortActive
      · exact h.push opts prompt (by simp)
    · apply (h.push opts prompt (by simp)).prepare
      simp [phaseOf, HttpAgent.push]

theorem write (h : agent.AllOwned) {k : ℕ} (data : JsString)
    (hphase : agent.phaseOf k = some .preparing) : (agent.write k data).AllOwned := by
  apply h.modify (fun _ _ _ howned ↦ howned)
  intro submit hget howned
  have hpreparing : submit.phase = .preparing := by
    simpa [phaseOf, hget] using hphase
  have hnone := howned.unposted (.inr hpreparing)
  exact ⟨fun _ ↦ hnone, howned.active, fun request hrequest ↦ by
    rw [hnone] at hrequest
    cases hrequest⟩

/-- The POST of a submit that found the way clear. -/
theorem post (h : agent.AllOwned) {k : ℕ} (hkeeps : KeepsOwn agent (.controlDone k)) :
    (agent.post k).AllOwned := by
  have hclear : Each (Owned (some k)) agent.submits := fun position submit hget ↦
    (h position submit hget).of_not_inFlight (hkeeps.1 submit (List.mem_of_getElem? hget))
  refine hclear.modify (fun _ _ _ howned ↦ howned) fun submit hget _ ↦ ⟨by simp, fun _ ↦ rfl, ?_⟩
  rintro request hrequest
  cases hrequest
  exact hkeeps.2 submit hget

/-- The end of a request: the one in flight was this one. -/
theorem endRequest (h : agent.AllOwned) {k : ℕ} (failure : Option HttpRejection)
    {stage : HttpStage} (hphase : agent.phaseOf k = some (.requesting stage)) :
    (agent.endRequest k failure).AllOwned := by
  obtain ⟨submit, hget, hrequesting⟩ := Option.map_eq_some_iff.mp hphase
  have hactive : agent.activeAbort = some k :=
    (h k submit hget).active (by simp [HttpSubmit.inFlight, hrequesting])
  refine h.modify (fun position other hne howned ↦ howned.of_not_inFlight ?_)
    fun other _ howned ↦ howned.withPhase (by simp) (by simp) rfl
  by_contra hflight
  have hother := howned.active (by simpa using hflight)
  rw [hactive] at hother
  exact hne (Option.some.inj hother).symm

theorem feed (h : agent.AllOwned) (parser : DriverParser Scratch) (now : Timestamp)
    (chunks : List JsString) : (agent.feed parser now chunks).1.AllOwned :=
  h.map fun _ _ howned ↦ howned.deliver _

theorem phaseOf_feed (parser : DriverParser Scratch) (now : Timestamp) (chunks : List JsString)
    (k : ℕ) : (agent.feed parser now chunks).1.phaseOf k = agent.phaseOf k := by
  simp only [phaseOf, HttpAgent.feed, List.getElem?_map, Option.map_map]
  congr 1
  funext submit
  obtain ⟨received, heq⟩ := deliver_eq ((agent.core.feedAll parser now chunks).1.transcript.drop
    agent.core.transcript.length) submit
  simp only [Function.comp_apply, heq]

theorem feedLast (h : agent.AllOwned) (parser : DriverParser Scratch) (now : Timestamp) {k : ℕ}
    (chunks : List JsString) {stage : HttpStage}
    (hphase : agent.phaseOf k = some (.requesting stage)) :
    (agent.feedLast parser now k chunks).AllOwned :=
  (h.feed parser now chunks).endRequest _ ((phaseOf_feed parser now chunks k).trans hphase)

/-- A request that goes on to another stage stays in flight. -/
theorem advance (h : agent.AllOwned) {k : ℕ} {stage : HttpStage}
    (hphase : agent.phaseOf k = some (.requesting stage)) {change : HttpSubmit → HttpSubmit}
    (hchange : ∀ submit, ∃ next stream, change submit =
      { submit with phase := .requesting next, stream := stream }) :
    (agent.onSubmit k change).AllOwned := by
  apply h.modify (fun _ _ _ howned ↦ howned)
  intro submit hget howned
  have hrequesting : submit.phase = .requesting stage := by
    simpa [phaseOf, hget] using hphase
  obtain ⟨next, stream, heq⟩ := hchange submit
  rw [heq]
  exact ⟨by simp, fun _ ↦ howned.active (by simp [HttpSubmit.inFlight, hrequesting]), howned.body⟩

theorem onResponse (h : agent.AllOwned) (parser : DriverParser Scratch) (now : Timestamp) {k : ℕ}
    (ok : Bool) (contentType : JsString) (hasBody : Bool)
    (hphase : agent.phaseOf k = some (.requesting .fetching)) :
    (agent.onResponse parser now k ok contentType hasBody).AllOwned := by
  unfold HttpAgent.onResponse
  split
  · exact h.endRequest _ hphase
  · split
    · exact h.feedLast parser now _ hphase
    · exact h.advance hphase fun submit ↦ ⟨_, submit.stream, rfl⟩

theorem phaseOf_received {k : ℕ} {phase : HttpPhase} (hphase : agent.phaseOf k = some phase)
    (ndjson : Bool) (text rest : JsString) :
    (agent.onSubmit k (HttpSubmit.received ndjson text rest)).phaseOf k =
      some (.requesting (.streaming ndjson rest)) := by
  obtain ⟨submit, hget, _⟩ := Option.map_eq_some_iff.mp hphase
  simp [phaseOf, onSubmit, hget, HttpSubmit.received]

theorem onChunk (h : agent.AllOwned) (parser : DriverParser Scratch) (now : Timestamp) {k : ℕ}
    (text : JsString) {ndjson : Bool} {buffer : JsString}
    (hphase : agent.phaseOf k = some (.requesting (.streaming ndjson buffer))) :
    (agent.onChunk parser now k text ndjson buffer).AllOwned := by
  have hreceived : ∀ (core : AgentCore Scratch) (rest : JsString), AllOwned (onSubmit k
      (HttpSubmit.received ndjson text rest) { agent with core := core }) := fun core rest ↦
    @advance _ { agent with core := core } h k _ hphase _ fun submit ↦ ⟨_, _, rfl⟩
  have hstreaming : ∀ (core : AgentCore Scratch) (rest : JsString), (onSubmit k
      (HttpSubmit.received ndjson text rest) { agent with core := core }).phaseOf k =
        some (.requesting (.streaming ndjson rest)) := fun core rest ↦
    @phaseOf_received _ { agent with core := core } k _ hphase ndjson text rest
  unfold HttpAgent.onChunk
  simp only
  split
  · split
    · exact ((hreceived _ _).feed parser now _).endRequest _
        ((phaseOf_feed parser now _ k).trans (hstreaming _ _))
    · exact (hreceived _ _).feed parser now _
  · exact hreceived _ _

theorem finish (h : agent.AllOwned) (k : ℕ) (failure : Option HttpRejection) :
    (agent.finish k failure).AllOwned := by
  apply h.modify (fun _ _ _ howned ↦ howned)
  intro submit _ howned
  cases failure <;> exact howned.withPhase (by simp) (by simp) rfl

theorem interrupt (h : agent.AllOwned) : agent.interrupt.AllOwned := by
  unfold HttpAgent.interrupt
  split
  · exact h
  · exact h.abortActive

theorem kill (h : agent.AllOwned) (signal : Signal) : (agent.kill signal).AllOwned := by
  unfold HttpAgent.kill
  split
  · exact h
  · exact h.abortActive

theorem create (parser : DriverParser Scratch) (id driverId cwd : JsString)
    (spec : ServerHttpSpec) : (create parser id driverId cwd spec).AllOwned :=
  Each.nil

/-- Every guarded step keeps the invariant. -/
theorem step (h : agent.AllOwned) {parser : DriverParser Scratch} {event : HttpEvent}
    {next : HttpAgent Scratch} (hkeeps : KeepsOwn agent event)
    (hstep : agent.step parser event = some next) : next.AllOwned := by
  cases turn_of_step hstep with
  | submit opts prompt => exact h.submit opts prompt
  | resume hphase => exact h.prepare hphase
  | write data hphase => exact h.write data hphase
  | controlDone hphase => exact h.post hkeeps
  | controlThrow hphase =>
    exact h.modify (fun _ _ _ howned ↦ howned)
      fun _ _ howned ↦ howned.withPhase (by simp) (by simp) rfl
  | fetchFail hphase => exact h.endRequest _ hphase
  | response now ok contentType hasBody hphase =>
    exact h.onResponse parser now ok contentType hasBody hphase
  | chunk now text hphase => exact h.onChunk parser now text hphase
  | streamEnd now hphase => exact h.feedLast parser now _ hphase
  | readFail hphase => exact h.endRequest _ hphase
  | timer hphase => exact h.abortAt _
  | settle hphase => exact h.finish _ _
  | interrupt => exact h.interrupt
  | kill signal => exact h.kill signal
  | rawWrite data => exact h

theorem oneRequest (h : agent.AllOwned) : agent.OneRequest where
  active_of_inFlight := h.mono fun _ _ howned ↦ howned.active
  own_body := h.mono fun _ _ howned ↦ howned.body

end AllOwned

/-- A POST issued next to another one, or with a foreign body, breaks the promise. -/
theorem not_oneRequest_step {agent next : HttpAgent Scratch} {parser : DriverParser Scratch}
    {event : HttpEvent} (hbreaks : ¬ KeepsOwn agent event)
    (hstep : agent.step parser event = some next) : ¬ next.OneRequest := by
  intro hone
  cases turn_of_step hstep with
  | controlDone hphase =>
    rename_i k
    obtain ⟨own, hown, hpreparing⟩ := Option.map_eq_some_iff.mp hphase
    simp only [KeepsOwn, not_and_or, not_forall, Bool.not_eq_false] at hbreaks
    rcases hbreaks with ⟨submit, hmem, hflight⟩ | ⟨submit, hget, hbody⟩
    · obtain ⟨position, hget⟩ := List.mem_iff_getElem?.mp hmem
      have hne : k ≠ position := by
        rintro rfl
        rw [hget, Option.some.injEq] at hown
        rw [HttpSubmit.inFlight, hown, hpreparing] at hflight
        cases hflight
      have hkept : (agent.post k).submits[position]? = some submit := by
        simp only [HttpAgent.post, onSubmit, List.getElem?_modify_ne _ _ hne]
        exact hget
      exact hne (Option.some.inj (hone.active_of_inFlight position submit hkept hflight))
    · have hposted := hone.own_body k
      simp only [HttpAgent.post, onSubmit, List.getElem?_modify_eq, hget, Option.map_eq_map,
        Option.map_some, Option.some.injEq, forall_eq'] at hposted
      exact hbody hposted
  | _ => exact hbreaks trivial

/-- In every state of a run there is one request at a time, with its own body, exactly when every
control that finishes finds the way clear and its own body staged. -/
theorem one_request_iff (parser : DriverParser Scratch) (id driverId cwd : JsString)
    (spec : ServerHttpSpec) (schedule : List HttpEvent) :
    Throughout (step parser) OneRequest (create parser id driverId cwd spec) schedule ↔
      StepsMeet (step parser) KeepsOwn (create parser id driverId cwd spec) schedule :=
  @throughout_iff _ _ (step parser) KeepsOwn AllOwned OneRequest
    (fun _ _ _ howned hkeeps hstep ↦ howned.step hkeeps hstep)
    (fun _ _ _ _ hbreaks hstep ↦ not_oneRequest_step hbreaks hstep)
    (fun _ howned ↦ howned.oneRequest) _ (AllOwned.create parser id driverId cwd spec) schedule

/-- Two submits in one turn: both pass the guard, the second one's body is posted for the first
and nothing is left for the second. -/
theorem concurrent_submits_cross_bodies :
    ¬ Throughout (step ollamaParser) OneRequest
        (create ollamaParser (js "a") (js "ollama") (js "/")
          ⟨js "http://127.0.0.1:11434", none, js "/api/generate"⟩)
        [.submit ⟨true, false⟩ (js "p1"), .write 0 (js "b1"), .submit ⟨true, false⟩ (js "p2"),
          .write 1 (js "b2"), .controlDone 0] := by
  intro h
  have hbody := (h.last rfl).own_body 0 _ rfl _ rfl
  revert hbody
  decide

end HttpAgent

end Cordyceps.Agents
