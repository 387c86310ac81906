import Cordyceps.Drivers.ClaudeLog

/-!
# What the Claude parser makes of the status

The status, whether an activity is shown and whether a prompt is pending depend on each
other and on five patterns only. `Signals.hear` is that machine; the parser simulates it. An
activity and the status `busy` always come together; a pending prompt and the status
`blocked` do so as long as no chunk mixes a prompt with a spinner or takes a prompt back.
-/

namespace Cordyceps.Drivers

open Foundations Foundations.StepMachine Agents Cordyceps.Core

namespace ClaudeStatus

/-- What the status depends on. -/
structure Signals where
  status : Status
  active : Bool
  prompted : Bool
  deriving DecidableEq, Repr

namespace Signals

/-- A spinner line shows an activity, which clears a prompt. -/
def noteActivity (clean : JsString) (signals : Signals) : Signals :=
  if ClaudeTui.activity.test clean then { signals with active := true, prompted := false }
  else signals

/-- A result line ends the activity. -/
def noteResult (clean : JsString) (signals : Signals) : Signals :=
  if ClaudeTui.result.test clean then { signals with active := false } else signals

/-- A message clears a prompt. -/
def noteMessage (clean : JsString) (signals : Signals) : Signals :=
  if ClaudeTui.messageStart.test clean then { signals with prompted := false } else signals

def notePrompt (clean : JsString) (signals : Signals) : Signals :=
  if (ClaudeParser.blockKind clean).isSome then
    { signals with status := .blocked, prompted := true }
  else signals

def settle (clean : JsString) (signals : Signals) : Signals :=
  if signals.active then { signals with status := .busy }
  else if signals.prompted then { signals with status := .blocked }
  else if signals.status = .starting ∧ ClaudeTui.promptReady.test clean = true then
    { signals with status := .idle }
  else if signals.status = .busy then { signals with status := .idle }
  else signals

/-- One chunk. -/
def hear (clean : JsString) (signals : Signals) : Signals :=
  settle clean (notePrompt clean (noteMessage clean (noteResult clean
    (noteActivity clean signals))))

/-- What settling leaves as it is. -/
structure Settled (signals : Signals) : Prop where
  busy_iff : signals.status = .busy ↔ signals.active = true
  blocked : signals.active = false → signals.prompted = true → signals.status = .blocked

variable (clean : JsString) (signals : Signals)

theorem settled_settle : Settled (settle clean signals) := by
  unfold settle
  split
  · exact ⟨by simp [*], by simp [*]⟩
  · split
    · exact ⟨by simp [*], by simp⟩
    · split
      · exact ⟨by simp [*], by simp [*]⟩
      · split
        · exact ⟨by simp [*], by simp [*]⟩
        · exact ⟨by simp [*], by simp [*]⟩

@[simp]
theorem active_settle : (settle clean signals).active = signals.active := by
  simp only [settle, apply_ite active, ite_self]

@[simp]
theorem prompted_settle : (settle clean signals).prompted = signals.prompted := by
  simp only [settle, apply_ite prompted, ite_self]

theorem settle_blocked_iff : (settle clean signals).status = .blocked ↔
    signals.active = false ∧ (signals.prompted = true ∨ signals.status = .blocked) := by
  unfold settle
  split
  · simp [*]
  · split
    · simp [*]
    · split
      · simp_all
      · split <;> simp_all

/-- A settled state stays as it is unless the cursor is seen for the first time. -/
theorem settle_of_settled {signals : Signals} (h : Settled signals) :
    settle clean signals = signals ∨
      signals.active = false ∧ signals.prompted = false ∧ signals.status = .starting ∧
        ClaudeTui.promptReady.test clean = true := by
  unfold settle
  obtain ⟨status, active, prompted⟩ := signals
  split
  · rename_i hactive
    have hbusy := h.busy_iff.mpr hactive
    simp_all
  · split
    · rename_i hactive hprompted
      have hblocked := h.blocked (by simpa using hactive) hprompted
      simp_all
    · split
      · simp_all
      · split
        · rename_i hactive _ _ hbusy
          exact absurd (h.busy_iff.mp hbusy) hactive
        · exact Or.inl rfl

/-- The empty chunk. -/
theorem hear_nil {signals : Signals} (h : Settled signals) : hear [] signals = signals := by
  rcases settle_of_settled [] h with hsame | ⟨-, -, -, hready⟩
  · exact hsame
  · exact absurd hready (by decide +kernel)

theorem active_hear : (hear clean signals).active = (!ClaudeTui.result.test clean &&
    (ClaudeTui.activity.test clean || signals.active)) := by
  rw [hear, active_settle]
  unfold notePrompt noteMessage noteResult noteActivity
  cases ClaudeTui.activity.test clean <;> cases ClaudeTui.result.test clean <;>
    cases ClaudeTui.messageStart.test clean <;> cases ClaudeParser.blockKind clean <;> simp

theorem prompted_hear : (hear clean signals).prompted = ((ClaudeParser.blockKind clean).isSome ||
    (signals.prompted && !ClaudeTui.activity.test clean && !ClaudeTui.messageStart.test clean)) := by
  rw [hear, prompted_settle]
  unfold notePrompt noteMessage noteResult noteActivity
  cases ClaudeTui.activity.test clean <;> cases ClaudeTui.result.test clean <;>
    cases ClaudeTui.messageStart.test clean <;> cases ClaudeParser.blockKind clean <;> simp

theorem hear_blocked_iff : (hear clean signals).status = .blocked ↔
    (hear clean signals).active = false ∧
      ((hear clean signals).prompted = true ∨ signals.status = .blocked) := by
  rw [hear, active_settle, prompted_settle, settle_blocked_iff]
  unfold notePrompt noteMessage noteResult noteActivity
  cases ClaudeTui.activity.test clean <;> cases ClaudeTui.result.test clean <;>
    cases ClaudeTui.messageStart.test clean <;> cases ClaudeParser.blockKind clean <;> simp

end Signals

end ClaudeStatus

namespace ClaudeParser

open ClaudeStatus

/-- The signals of a state. -/
def signalsOf (state : AgentState) : Signals :=
  ⟨state.status, state.activity.isSome, state.blocking.isSome⟩

/-! ## The parser simulates the machine -/

/-- A parser that acts on the signals as `effect` says, and reports a change if it makes one. -/
structure Acts (effect : Signals → Signals) (before after : Draft) : Prop where
  signals : signalsOf after.next = effect (signalsOf before.next)
  unchanged : after.changed = false →
    before.changed = false ∧ signalsOf after.next = signalsOf before.next

namespace Acts

variable {first second third : Draft} {effect effect' : Signals → Signals}

theorem trans (h : Acts effect first second) (h' : Acts effect' second third) :
    Acts (effect' ∘ effect) first third where
  signals := by rw [h'.signals, h.signals, Function.comp]
  unchanged hchanged := by
    obtain ⟨hsecond, hkept'⟩ := h'.unchanged hchanged
    obtain ⟨hfirst, hkept⟩ := h.unchanged hsecond
    exact ⟨hfirst, hkept'.trans hkept⟩

/-- A parser that is no concern of the status. -/
theorem idle (hsignals : signalsOf second.next = signalsOf first.next)
    (hchanged : second.changed = false → first.changed = false) : Acts id first second where
  signals := hsignals
  unchanged h := ⟨hchanged h, hsignals⟩

end Acts

@[simp]
theorem signalsOf_raiseTokens (stats : Stats) (next : AgentState) :
    signalsOf (raiseTokens stats next) = signalsOf next := by
  unfold raiseTokens
  split
  · rfl
  · simp only
    split <;> rfl

variable (clean : JsString) (draft : Draft)

theorem acts_parseMode : Acts id draft (parseMode clean draft) := by
  unfold parseMode
  simp only
  split
  · exact .idle rfl id
  · split
    · refine .idle ?_ (by simp [Draft.push, Draft.change])
      simp only [Draft.push, Draft.change]
      split <;> rfl
    · refine .idle ?_ (by simp [Draft.change])
      simp only [Draft.change]
      split <;> rfl

theorem acts_parseActivity : Acts (Signals.noteActivity clean) draft (parseActivity clean draft) := by
  unfold parseActivity Signals.noteActivity Regex.test
  cases ClaudeTui.activity.exec clean with
  | none => exact ⟨rfl, fun h ↦ ⟨h, rfl⟩⟩
  | some found =>
    refine ⟨?_, by simp [Draft.push, Draft.change]⟩
    have hraised := signalsOf_raiseTokens (parseStats (found.text 2)) { draft.next with
      activity := some ⟨found.text 1, statText "duration" (parseStats (found.text 2)),
        statText "tokens" (parseStats (found.text 2))⟩ }
    simp only [signalsOf, Signals.mk.injEq] at hraised
    simp [signalsOf, Draft.push, Draft.change, hraised]

theorem acts_parseResult : Acts (Signals.noteResult clean) draft (parseResult clean draft) := by
  unfold parseResult Signals.noteResult Regex.test
  cases ClaudeTui.result.exec clean with
  | none => exact ⟨rfl, fun h ↦ ⟨h, rfl⟩⟩
  | some found =>
    refine ⟨?_, by simp [Draft.push, Draft.change]⟩
    have hraised := signalsOf_raiseTokens (parseStats (found.text 2)) draft.next
    simp only [signalsOf, Signals.mk.injEq] at hraised
    simp [signalsOf, Draft.push, Draft.change, hraised]

theorem signalsOf_finish (now : Timestamp) (buffered : JsString) :
    signalsOf (finish now buffered draft).next = signalsOf draft.next := by
  unfold finish
  simp only
  split <;> rfl

theorem acts_parseMessage (now : Timestamp) (scratch : ClaudeScratch) :
    Acts (Signals.noteMessage clean) draft (parseMessage now clean draft scratch).1 := by
  unfold parseMessage Signals.noteMessage
  split
  · unfold onMarker
    simp only
    split
    · split
      · exact ⟨rfl, by simp [Draft.change]⟩
      · have hfinish := signalsOf_finish draft now scratch.messageBuf
        simp only [signalsOf, Signals.mk.injEq] at hfinish
        exact ⟨by simp [signalsOf, Draft.change, hfinish], by simp [Draft.change]⟩
    · exact ⟨rfl, by simp [Draft.change]⟩
  · split
    · split
      · exact ⟨signalsOf_finish draft now scratch.messageBuf, by simp⟩
      · exact ⟨rfl, fun h ↦ ⟨h, rfl⟩⟩
    · exact ⟨rfl, fun h ↦ ⟨h, rfl⟩⟩

theorem acts_parseBlocking : Acts (Signals.notePrompt clean) draft (parseBlocking clean draft) := by
  unfold parseBlocking Signals.notePrompt
  cases blockKind clean with
  | none => exact ⟨rfl, fun h ↦ ⟨h, rfl⟩⟩
  | some kind => exact ⟨rfl, by simp [Draft.push, Draft.change]⟩

theorem acts_parseTasks (scratch : ClaudeScratch) :
    Acts id draft (parseTasks clean draft scratch).1 := by
  unfold parseTasks
  simp only
  split
  · exact .idle rfl id
  · exact .idle rfl (by simp [Draft.push, Draft.change])

theorem acts_parseModel : Acts id draft (parseModel clean draft) := by
  unfold parseModel
  split
  · exact .idle rfl id
  · simp only
    split
    · exact .idle rfl (by simp [Draft.push, Draft.change])
    · exact .idle rfl id

theorem acts_parseContextRemaining : Acts id draft (parseContextRemaining clean draft) := by
  unfold parseContextRemaining
  split
  · exact .idle rfl id
  · simp only
    split
    · exact .idle rfl (by simp [Draft.change])
    · exact .idle rfl id

theorem signalsOf_settleStatus :
    signalsOf (settleStatus clean draft).next = Signals.settle clean (signalsOf draft.next) := by
  unfold settleStatus Signals.settle
  simp only [signalsOf]
  by_cases hactive : draft.next.activity.isSome = true
  · simp only [hactive, if_true, AgentState.withStatus]
  · by_cases hprompted : draft.next.blocking.isSome = true
    · simp only [hactive, hprompted, if_true, AgentState.withStatus, Bool.false_eq_true, if_false]
    · simp only [hactive, hprompted, Bool.false_eq_true, if_false]
      split
      · simp only [Draft.change, AgentState.withStatus, hactive, hprompted]
      · split <;> simp only [Draft.change, AgentState.withStatus, hactive, hprompted]

theorem changed_settleStatus (h : draft.changed = true) : (settleStatus clean draft).changed = true := by
  unfold settleStatus
  simp only [apply_ite Draft.changed, Draft.change, h, ite_self]

/-- Settling reports the first sight of the cursor. -/
theorem changed_of_ready (hactive : draft.next.activity.isSome = false)
    (hprompted : draft.next.blocking.isSome = false) (hstarting : draft.next.status = .starting)
    (hready : ClaudeTui.promptReady.test clean = true) : (settleStatus clean draft).changed = true := by
  simp [settleStatus, hactive, hprompted, hstarting, hready, Draft.change]

/-- All eight parsers together. -/
theorem acts_read (now : Timestamp) (state : AgentState) (scratch : ClaudeScratch) :
    ∃ draft, Acts (fun signals ↦ Signals.notePrompt clean (Signals.noteMessage clean
        (Signals.noteResult clean (Signals.noteActivity clean signals))))
        ⟨copyState state, [], [], false⟩ draft ∧
      (read now clean state scratch).1 = settleStatus clean draft :=
  ⟨_, (((((((acts_parseMode clean _).trans (acts_parseActivity clean _)).trans
    (acts_parseResult clean _)).trans (acts_parseMessage clean _ now _)).trans
    (acts_parseBlocking clean _)).trans (acts_parseTasks clean _ _)).trans
    (acts_parseModel clean _)).trans (acts_parseContextRemaining clean _), rfl⟩

/-- One feed moves the signals as the machine does. -/
theorem feed_signals (now : Timestamp) (chunk : JsString) {state : AgentState}
    (hsettled : Signals.Settled (signalsOf state)) (scratch : ClaudeScratch) :
    signalsOf ((feed now chunk state scratch).1.state.getD state) =
      Signals.hear (ansiToText chunk) (signalsOf state) := by
  unfold feed
  cases hclean : ansiToText chunk with
  | nil =>
    have hflush : signalsOf ((flush now state scratch).1.state.getD state) = signalsOf state := by
      unfold flush
      simp only
      split
      · split <;> rfl
      · rfl
    rw [Signals.hear_nil hsettled]
    exact hflush
  | cons unit rest =>
    obtain ⟨draft, hacts, hread⟩ := acts_read (unit :: rest) now state scratch
    have hstart : signalsOf (copyState state) = signalsOf state := rfl
    simp only [List.isEmpty_cons, Bool.false_eq_true, if_false, hread]
    have hhear : signalsOf (settleStatus (unit :: rest) draft).next =
        Signals.hear (unit :: rest) (signalsOf state) := by
      rw [signalsOf_settleStatus, hacts.signals, hstart, Signals.hear]
    split
    · exact hhear
    · rename_i hunchanged
      -- nothing was found, so only the settling could have changed something
      rw [Bool.not_eq_true] at hunchanged
      have hdraft : draft.changed = false := by
        by_contra hchanged
        rw [Bool.not_eq_false] at hchanged
        rw [changed_settleStatus _ _ hchanged] at hunchanged
        cases hunchanged
      obtain ⟨-, hkept⟩ := hacts.unchanged hdraft
      rw [hstart] at hkept
      rw [← hhear, signalsOf_settleStatus, hkept]
      rcases Signals.settle_of_settled (unit :: rest) hsettled with hsame | ⟨ha, hp, hs, hready⟩
      · exact hsame.symm
      · rw [← hkept] at ha hp hs
        rw [changed_of_ready _ _ ha hp hs hready] at hunchanged
        cases hunchanged

end ClaudeParser

open ClaudeStatus ClaudeParser

/-! ## Sessions -/

theorem settled_fresh : Signals.Settled (signalsOf claudeParser.fresh.state) where
  busy_iff := by decide
  blocked := by decide

theorem settled_hear {session next : Session ClaudeScratch} {feed : Timestamp × JsString}
    (h : Signals.Settled (signalsOf session.state)) (hnext : claudeParser.hear session feed = some next) :
    signalsOf next.state = Signals.hear (ansiToText feed.2) (signalsOf session.state) ∧
      Signals.Settled (signalsOf next.state) := by
  rw [claudeParser_hear, Option.some.injEq] at hnext
  have hsignals := feed_signals feed.1 feed.2 h session.scratch
  rw [← hnext]
  refine ⟨hsignals, ?_⟩
  rw [listen, Session.answered, hsignals]
  exact Signals.settled_settle _ _

/-- **Busy while an activity is shown.** -/
theorem claude_busy_iff_activity (feeds : List (Timestamp × JsString)) :
    (run claudeParser.hear claudeParser.fresh feeds).isSome ∧
      Throughout claudeParser.hear
        (fun session ↦ session.state.status = .busy ↔ session.state.activity.isSome = true)
        claudeParser.fresh feeds := by
  constructor
  · rw [run_listened]
    rfl
  · have hkeep : ∀ session feed next, Signals.Settled (signalsOf session.state) → True →
        claudeParser.hear session feed = some next → Signals.Settled (signalsOf next.state) :=
      fun _ _ _ hsettled _ hnext ↦ (settled_hear hsettled hnext).2
    have hthroughout := throughout_of_invariant hkeep settled_fresh
      (stepsMeet_true claudeParser.fresh feeds)
    exact hthroughout.mono fun session hsettled ↦ hsettled.busy_iff

/-- What keeps a pending prompt and the status together: a chunk that shows a prompt leaves no
activity, and a pending prompt that is taken back makes room for an activity. -/
structure Distinct (clean : JsString) (signals : Signals) : Prop where
  prompt_alone : (blockKind clean).isSome = true → ClaudeTui.result.test clean = true ∨
    ClaudeTui.activity.test clean = false ∧ signals.active = false
  prompt_kept : signals.prompted = true → (blockKind clean).isSome = false →
    ClaudeTui.activity.test clean = false ∧ ClaudeTui.messageStart.test clean = false ∨
      ClaudeTui.activity.test clean = true ∧ ClaudeTui.result.test clean = false

/-- Blocked while a prompt is pending. -/
def BlockedWhilePrompted (session : Session ClaudeScratch) : Prop :=
  session.state.status = .blocked ↔ session.state.blocking.isSome = true

instance (session : Session ClaudeScratch) : Decidable (BlockedWhilePrompted session) :=
  inferInstanceAs (Decidable (_ ↔ _))

theorem blocked_hear_iff {session next : Session ClaudeScratch} {feed : Timestamp × JsString}
    (hsettled : Signals.Settled (signalsOf session.state)) (hblocked : BlockedWhilePrompted session)
    (hnext : claudeParser.hear session feed = some next) :
    BlockedWhilePrompted next ↔ Distinct (ansiToText feed.2) (signalsOf session.state) := by
  obtain ⟨hsignals, -⟩ := settled_hear hsettled hnext
  have hactive := Signals.active_hear (ansiToText feed.2) (signalsOf session.state)
  have hprompted := Signals.prompted_hear (ansiToText feed.2) (signalsOf session.state)
  have hstatus := Signals.hear_blocked_iff (ansiToText feed.2) (signalsOf session.state)
  rw [← hsignals] at hactive hprompted hstatus
  -- before the feed, no activity is shown next to a pending prompt
  have hquiet : (signalsOf session.state).prompted = true →
      (signalsOf session.state).active = false := by
    intro hpending
    have hstatus := hblocked.mpr hpending
    by_contra hbusy
    rw [Bool.not_eq_false] at hbusy
    have := hsettled.busy_iff.mpr hbusy
    simp [signalsOf, hstatus] at this
  have hbefore : (signalsOf session.state).status = .blocked ↔
      (signalsOf session.state).prompted = true := hblocked
  have hafter : BlockedWhilePrompted next ↔ ((signalsOf next.state).status = .blocked ↔
      (signalsOf next.state).prompted = true) := Iff.rfl
  rw [hafter, hstatus, hbefore, hactive, hprompted]
  constructor
  · intro h
    constructor
    · intro hshown
      cases hresult : ClaudeTui.result.test (ansiToText feed.2) <;> simp_all
    · intro hpending hshown
      cases hresult : ClaudeTui.result.test (ansiToText feed.2) <;>
        cases hmarker : ClaudeTui.messageStart.test (ansiToText feed.2) <;>
        cases hspinner : ClaudeTui.activity.test (ansiToText feed.2) <;> simp_all
  · rintro ⟨halone, hkept⟩
    cases hshown : (blockKind (ansiToText feed.2)).isSome with
    | true =>
      rcases halone hshown with hresult | ⟨hspinner, hactive⟩ <;> simp [*]
    | false =>
      cases hpending : (signalsOf session.state).prompted with
      | false => simp
      | true =>
        have hinactive := hquiet hpending
        rcases hkept hpending hshown with ⟨hspinner, hmarker⟩ | ⟨hspinner, hresult⟩ <;> simp [*]

/-- **Blocked exactly while a prompt is pending**, in every state of a session, if and only if
every chunk of it is distinct about the prompt. -/
theorem claude_blocked_iff_prompted (feeds : List (Timestamp × JsString)) :
    Throughout claudeParser.hear BlockedWhilePrompted claudeParser.fresh feeds ↔
      StepsMeet claudeParser.hear
        (fun session feed ↦ Distinct (ansiToText feed.2) (signalsOf session.state))
        claudeParser.fresh feeds := by
  have hkeep : ∀ session feed next,
      Signals.Settled (signalsOf session.state) ∧ BlockedWhilePrompted session →
      Distinct (ansiToText feed.2) (signalsOf session.state) →
      claudeParser.hear session feed = some next →
      Signals.Settled (signalsOf next.state) ∧ BlockedWhilePrompted next :=
    fun _ _ _ ⟨hsettled, hblocked⟩ hdistinct hnext ↦
      ⟨(settled_hear hsettled hnext).2, (blocked_hear_iff hsettled hblocked hnext).mpr hdistinct⟩
  refine throughout_iff hkeep ?_ (fun _ h ↦ h.2) ⟨settled_fresh, by decide⟩ feeds
  rintro session feed next ⟨hsettled, hblocked⟩ hmixed hnext
  rwa [blocked_hear_iff hsettled hblocked hnext]

/-- A prompt is shown, then a message: the status stays `blocked` with no prompt pending. -/
theorem message_leaves_blocked : ¬ Throughout claudeParser.hear BlockedWhilePrompted
    claudeParser.fresh [(0, js "Are you sure"), (1, js "● ok")] := by
  rintro ⟨-, h⟩
  obtain ⟨-, h⟩ := h _ rfl
  obtain ⟨h, -⟩ := h _ rfl
  revert h
  decide +kernel

end Cordyceps.Drivers
