import Cordyceps.Agents.ClaudeTerminal
import Cordyceps.Foundations.Interleaving
import Cordyceps.Foundations.Slots

/-!
# Prompts are typed in one piece

Nothing keeps the scripts of two submits apart. Their writes are complete blocks
exactly if no submit begins to type, or presses Escape first, while another one
stands between its own Ctrl-U and its Enter.
-/

namespace Cordyceps.Agents

open Foundations Foundations.StepMachine Drivers

/-! ## The keyboard -/

/-- The prompts of all submits with their progress, and what the submits wrote. -/
structure Keyboard where
  prompts : List Prompt
  writes : List (Typist × JsString)

/-- What a turn does at the keyboard. -/
inductive Stroke
  | nothing
  | enroll (text : JsString)
  | interrupt (text : JsString)
  | type (k : ℕ) (key : JsString)

namespace Keyboard

def press (keyboard : Keyboard) : Stroke → Keyboard
  | .nothing => keyboard
  | .enroll text => { keyboard with prompts := keyboard.prompts ++ [⟨text, 0⟩] }
  | .interrupt text =>
    ⟨keyboard.prompts ++ [⟨text, 0⟩],
      keyboard.writes ++ [(.interrupt keyboard.prompts.length, ClaudeKeys.escape)]⟩
  | .type k key => ⟨keyboard.prompts.modify k Prompt.forward, keyboard.writes ++ [(.submit k, key)]⟩

/-- The complete block of a typist. -/
def block (keyboard : Keyboard) : Typist → List JsString
  | .submit k => (keyboard.prompts[k]?.map Prompt.block).getD []
  | .interrupt _ => [ClaudeKeys.escape]

/-- Nobody is between Ctrl-U and Enter. -/
def Quiet (keyboard : Keyboard) : Prop := ∀ prompt ∈ keyboard.prompts, prompt.typing = false

/-- A submit types the next key of its own block. -/
def Legal (keyboard : Keyboard) : Stroke → Prop
  | .type k key => At (fun prompt ↦ prompt.block[prompt.progress]? = some key) k keyboard.prompts
  | _ => True

/-- Only a quiet keyboard gets an Escape or the beginning of a block. -/
def Considerate (keyboard : Keyboard) : Stroke → Prop
  | .interrupt _ => keyboard.Quiet
  | .type k _ => At (fun prompt ↦ prompt.progress = 0) k keyboard.prompts → keyboard.Quiet
  | _ => True

/-- The blocks in `order` are complete. If somebody is typing, a part of that block follows. -/
structure Tidy (keyboard : Keyboard) (order : List Typist) : Prop where
  nodup : order.Nodup
  known : ∀ typist ∈ order, match typist with
    | .submit k => At (fun prompt ↦ prompt.progress = 3) k keyboard.prompts
    | .interrupt k => k < keyboard.prompts.length
  complete : ∀ k prompt, keyboard.prompts[k]? = some prompt → prompt.progress = 3 → .submit k ∈ order
  writes : (keyboard.Quiet ∧ keyboard.writes = order.flatMap (tagged keyboard.block)) ∨
    ∃ k prompt, keyboard.prompts[k]? = some prompt ∧ prompt.typing = true ∧
      (∀ other, At (fun prompt ↦ prompt.typing = true) other keyboard.prompts → other = k) ∧
      keyboard.writes = order.flatMap (tagged keyboard.block) ++
        prompt.written.map (Prod.mk (Typist.submit k))

section Press

variable {keyboard : Keyboard} {order : List Typist} {stroke : Stroke}

/-- The blocks of those who are there stay what they are. -/
theorem block_press (keyboard : Keyboard) (stroke : Stroke) {typist : Typist}
    (h : ∀ k, typist = .submit k → k < keyboard.prompts.length) :
    (keyboard.press stroke).block typist = keyboard.block typist := by
  cases typist with
  | interrupt k => rfl
  | submit k =>
    have hlt := h k rfl
    cases stroke with
    | nothing => rfl
    | enroll text =>
      simp only [press, block]
      rw [List.getElem?_append_left hlt]
    | interrupt text =>
      simp only [press, block]
      rw [List.getElem?_append_left hlt]
    | type j key =>
      simp only [press, block]
      rw [List.getElem?_modify]
      by_cases hk : j = k
      · simp only [if_pos hk]
        cases keyboard.prompts[k]? <;> rfl
      · simp [if_neg hk]

theorem Tidy.blocks_press (h : keyboard.Tidy order) (stroke : Stroke) :
    order.flatMap (tagged (keyboard.press stroke).block) = order.flatMap (tagged keyboard.block) := by
  apply tagged_congr
  intro typist hmem
  apply block_press
  rintro k rfl
  exact (h.known _ hmem).lt

theorem Tidy.fresh (h : keyboard.Tidy order) {k : ℕ} {prompt : Prompt}
    (hget : keyboard.prompts[k]? = some prompt) (hprogress : prompt.progress ≠ 3) :
    .submit k ∉ order := by
  intro hmem
  obtain ⟨other, hother, hthree⟩ := h.known _ hmem
  rw [hget] at hother
  cases hother
  exact hprogress hthree

theorem typing_iff {prompt : Prompt} :
    prompt.typing = true ↔ prompt.progress = 1 ∨ prompt.progress = 2 := by
  simp only [Prompt.typing, Bool.and_eq_true, decide_eq_true_eq]
  omega

/-- The next key of a block is there as long as the block is not complete. -/
theorem progress_of_key {prompt : Prompt} {key : JsString}
    (h : prompt.block[prompt.progress]? = some key) : prompt.progress < 3 :=
  (List.getElem?_eq_some_iff.mp h).1

theorem ne_three_of_typing {prompt : Prompt} (h : prompt.typing = true) : prompt.progress ≠ 3 := by
  rw [typing_iff] at h
  omega

/-- Complete blocks stay complete when somebody else types. -/
theorem Tidy.known_type (h : keyboard.Tidy order) {k : ℕ} {prompt : Prompt}
    (hget : keyboard.prompts[k]? = some prompt) (hprogress : prompt.progress ≠ 3) (key : JsString) :
    ∀ typist ∈ order, match typist with
      | .submit j => At (fun prompt ↦ prompt.progress = 3) j (keyboard.press (.type k key)).prompts
      | .interrupt j => j < (keyboard.press (.type k key)).prompts.length := by
  intro typist hmem
  have hknown := h.known typist hmem
  cases typist with
  | submit j =>
    refine At.modify hknown fun _ record hrecord hthree ↦ ?_
    rw [hget] at hrecord
    cases hrecord
    exact absurd hthree hprogress
  | interrupt j =>
    have hlt : j < keyboard.prompts.length := hknown
    simpa [press] using hlt

/-- So a block of somebody else that is complete has been complete before. -/
theorem Tidy.complete_type (h : keyboard.Tidy order) {k : ℕ} {key : JsString} :
    ∀ j prompt, j ≠ k → (keyboard.press (.type k key)).prompts[j]? = some prompt →
      prompt.progress = 3 → .submit j ∈ order := by
  intro j prompt hne hget hthree
  have hat : At (fun prompt ↦ prompt.progress = 3) j (keyboard.prompts.modify k Prompt.forward) :=
    ⟨prompt, hget, hthree⟩
  obtain ⟨old, hold, holdThree⟩ := hat.of_modify hne
  exact h.complete j old hold holdThree

/-- A new submit has typed nothing. -/
theorem Tidy.enroll (h : keyboard.Tidy order) (text : JsString) :
    (keyboard.press (.enroll text)).Tidy order where
  nodup := h.nodup
  known := by
    intro typist hmem
    have hknown := h.known typist hmem
    cases typist with
    | submit k => exact At.concat hknown _
    | interrupt k =>
      have hlt : k < keyboard.prompts.length := hknown
      simp only [press, List.length_append]
      omega
  complete := by
    intro k prompt hget hprogress
    have hat : At (fun prompt ↦ prompt.progress = 3) k (keyboard.prompts ++ [⟨text, 0⟩]) :=
      ⟨prompt, hget, hprogress⟩
    rcases hat.of_concat with ⟨old, hold, hthree⟩ | ⟨_, hzero⟩
    · exact h.complete k old hold hthree
    · cases hzero
  writes := by
    rw [h.blocks_press]
    rcases h.writes with ⟨hquiet, hwrites⟩ | ⟨k, prompt, hget, htyping, hother, hwrites⟩
    · refine .inl ⟨fun prompt hmem ↦ ?_, hwrites⟩
      rcases List.mem_append.mp hmem with hold | hlast
      · exact hquiet prompt hold
      · rw [List.mem_singleton.mp hlast]
        rfl
    · refine .inr ⟨k, prompt, ?_, htyping, fun other hat ↦ ?_, hwrites⟩
      · exact (List.getElem?_append_left (List.getElem?_eq_some_iff.mp hget).1).trans hget
      · rcases At.of_concat hat with hold | ⟨_, hnew⟩
        · exact hother other hold
        · cases hnew

theorem Tidy.interrupt (h : keyboard.Tidy order) (hquiet : keyboard.Quiet) (text : JsString) :
    (keyboard.press (.interrupt text)).Tidy (order ++ [.interrupt keyboard.prompts.length]) := by
  have henrolled := h.enroll text
  have hfresh : Typist.interrupt keyboard.prompts.length ∉ order :=
    fun hmem ↦ absurd (h.known _ hmem) (Nat.lt_irrefl _)
  refine ⟨?_, ?_, ?_, ?_⟩
  · exact List.concat_eq_append ▸ List.Nodup.concat hfresh h.nodup
  · intro typist hmem
    rcases List.mem_append.mp hmem with hold | hlast
    · exact henrolled.known typist hold
    · rw [List.mem_singleton.mp hlast]
      simp [press]
  · intro k prompt hget hprogress
    exact List.mem_append_left _ (henrolled.complete k prompt hget hprogress)
  · rcases henrolled.writes with ⟨hstill, hwrites⟩ | ⟨k, prompt, hget, htyping, _⟩
    · refine .inl ⟨hstill, ?_⟩
      rw [List.flatMap_append, List.flatMap_singleton]
      exact congrArg (· ++ [(Typist.interrupt keyboard.prompts.length, ClaudeKeys.escape)]) hwrites
    · have hat : At (fun prompt ↦ prompt.typing = true) k (keyboard.prompts ++ [⟨text, 0⟩]) :=
        ⟨prompt, hget, htyping⟩
      rcases hat.of_concat with ⟨old, hold, hbusy⟩ | ⟨_, hnew⟩
      · rw [hquiet old (List.mem_of_getElem? hold)] at hbusy
        cases hbusy
      · cases hnew

/-- The first key of a block, on a quiet keyboard. -/
theorem Tidy.first (h : keyboard.Tidy order) {k : ℕ} {prompt : Prompt} {key : JsString}
    (hget : keyboard.prompts[k]? = some prompt) (hkey : prompt.block[prompt.progress]? = some key)
    (hzero : prompt.progress = 0) (hquiet : keyboard.Quiet)
    (hwrites : keyboard.writes = order.flatMap (tagged keyboard.block)) :
    (keyboard.press (.type k key)).Tidy order where
  nodup := h.nodup
  known := h.known_type hget (by omega) key
  complete := by
    intro j other hother hthree
    by_cases hj : j = k
    · subst hj
      simp only [press, List.getElem?_modify, hget] at hother
      cases hother
      simp [Prompt.forward, hzero] at hthree
    · exact h.complete_type j other hj hother hthree
  writes := by
    rw [h.blocks_press]
    refine .inr ⟨k, prompt.forward, ?_, ?_, fun other hat ↦ ?_, ?_⟩
    · simp [press, hget]
    · simp [Prompt.typing, Prompt.forward, hzero]
    · by_contra hne
      obtain ⟨old, hold, hbusy⟩ := hat.of_modify hne
      rw [hquiet old (List.mem_of_getElem? hold)] at hbusy
      cases hbusy
    · rw [Prompt.written_forward hkey, Prompt.written, hzero]
      simp [press, hwrites]

/-- A further key of the block that is being typed: the last one completes it. -/
theorem Tidy.further (h : keyboard.Tidy order) {k : ℕ} {prompt : Prompt} {key : JsString}
    (hget : keyboard.prompts[k]? = some prompt) (hkey : prompt.block[prompt.progress]? = some key)
    (htyping : prompt.typing = true)
    (halone : ∀ other, At (fun prompt ↦ prompt.typing = true) other keyboard.prompts → other = k)
    (hwrites : keyboard.writes = order.flatMap (tagged keyboard.block) ++
      prompt.written.map (Prod.mk (Typist.submit k))) :
    ∃ order', (keyboard.press (.type k key)).Tidy order' := by
  have hnext : (keyboard.prompts.modify k Prompt.forward)[k]? = some prompt.forward := by
    simp [hget]
  have hothers : ∀ other, other ≠ k → ¬ At (fun prompt ↦ prompt.typing = true) other
      (keyboard.prompts.modify k Prompt.forward) :=
    fun other hne hat ↦ hne (halone other (hat.of_modify hne))
  have hwritten : (keyboard.press (.type k key)).writes = order.flatMap (tagged keyboard.block) ++
      prompt.forward.written.map (Prod.mk (Typist.submit k)) := by
    rw [Prompt.written_forward hkey, List.map_append, ← List.append_assoc, ← hwrites]
    rfl
  have hknown := h.known_type hget (ne_three_of_typing htyping) key
  have hfresh : .submit k ∉ order := h.fresh hget (ne_three_of_typing htyping)
  by_cases hlast : prompt.progress = 2
  · refine ⟨order ++ [.submit k], ?_, ?_, ?_, .inl ⟨?_, ?_⟩⟩
    · exact List.concat_eq_append ▸ List.Nodup.concat hfresh h.nodup
    · intro typist hmem
      rcases List.mem_append.mp hmem with hold | hnew
      · exact hknown typist hold
      · rw [List.mem_singleton.mp hnew]
        exact ⟨prompt.forward, hnext, by rw [Prompt.forward, hlast]⟩
    · intro j other hother hthree
      by_cases hj : j = k
      · rw [hj]
        exact List.mem_append_right _ (List.mem_singleton_self _)
      · exact List.mem_append_left _ (h.complete_type j other hj hother hthree)
    · intro other hmem
      obtain ⟨j, hj⟩ := List.mem_iff_getElem?.mp hmem
      by_contra hbusy
      rw [Bool.not_eq_false] at hbusy
      by_cases hk : j = k
      · rw [hk] at hj
        rw [Option.some.inj (hj.symm.trans hnext), typing_iff] at hbusy
        simp [Prompt.forward, hlast] at hbusy
      · exact hothers j hk ⟨other, hj, hbusy⟩
    · have hblock : (keyboard.press (.type k key)).block (.submit k) = prompt.forward.written := by
        simp [press, block, hget, Prompt.written, Prompt.forward, Prompt.block, hlast]
      rw [List.flatMap_append, h.blocks_press, List.flatMap_singleton, tagged, hblock, hwritten]
  · have hone : prompt.progress = 1 := by
      rw [typing_iff] at htyping
      omega
    refine ⟨order, h.nodup, hknown, fun j other hother hthree ↦ ?_, .inr ⟨k, prompt.forward, hnext, ?_,
      fun other hat ↦ ?_, ?_⟩⟩
    · by_cases hj : j = k
      · rw [hj] at hother
        rw [Option.some.inj (hother.symm.trans hnext), Prompt.forward, hone] at hthree
        cases hthree
      · exact h.complete_type j other hj hother hthree
    · rw [typing_iff, Prompt.forward, hone]
      exact .inr rfl
    · by_contra hne
      exact hothers other hne hat
    · rw [h.blocks_press, hwritten]

/-- What a considerate typist leaves behind. -/
theorem Tidy.press (h : keyboard.Tidy order) (hlegal : keyboard.Legal stroke)
    (hconsiderate : keyboard.Considerate stroke) :
    ∃ order', (keyboard.press stroke).Tidy order' := by
  cases stroke with
  | nothing => exact ⟨order, h⟩
  | enroll text => exact ⟨order, h.enroll text⟩
  | interrupt text => exact ⟨_, h.interrupt hconsiderate text⟩
  | type k key =>
    obtain ⟨prompt, hget, hkey⟩ := hlegal
    have hlt := progress_of_key hkey
    rcases h.writes with ⟨hquiet, hwrites⟩ | ⟨j, busy, hbusy, htyping, halone, hwrites⟩
    · have hstill := hquiet prompt (List.mem_of_getElem? hget)
      have hzero : prompt.progress = 0 := by
        by_contra hne
        have hmiddle : prompt.typing = true := typing_iff.mpr (by omega)
        rw [hstill] at hmiddle
        cases hmiddle
      exact ⟨order, h.first hget hkey hzero hquiet hwrites⟩
    · have hprogress : prompt.progress ≠ 0 := by
        intro hzero
        rw [hconsiderate ⟨prompt, hget, hzero⟩ busy (List.mem_of_getElem? hbusy)] at htyping
        cases htyping
      have hmiddle : prompt.typing = true := typing_iff.mpr (by omega)
      obtain rfl := halone k ⟨prompt, hget, hmiddle⟩
      rw [hget] at hbusy
      cases hbusy
      exact h.further hget hkey htyping halone hwrites

theorem blockwise_of_tidy (h : keyboard.Tidy order) :
    Blockwise keyboard.block keyboard.Quiet keyboard.writes := by
  rcases h.writes with ⟨_, hwrites⟩ | ⟨k, prompt, hget, htyping, _, hwrites⟩
  · exact ⟨order, h.nodup, hwrites ▸ List.prefix_refl _, fun _ ↦ hwrites⟩
  · have hfresh : .submit k ∉ order := h.fresh hget (ne_three_of_typing htyping)
    refine ⟨order ++ [.submit k], ?_, ?_, fun hquiet ↦ ?_⟩
    · exact List.concat_eq_append ▸ List.Nodup.concat hfresh h.nodup
    · rw [hwrites, List.flatMap_append, List.flatMap_singleton, List.prefix_append_right_inj, tagged]
      simp only [block, hget, Option.map_some, Option.getD_some]
      exact (List.take_prefix _ _).map _
    · rw [hquiet prompt (List.mem_of_getElem? hget)] at htyping
      cases htyping

/-- Somebody else's key stands in a block that is not complete. -/
theorem not_blockwise_of_typing (h : keyboard.Tidy order) {j : ℕ} {prompt : Prompt}
    (hget : keyboard.prompts[j]? = some prompt) (htyping : prompt.typing = true)
    (hwrites : keyboard.writes = order.flatMap (tagged keyboard.block) ++
      prompt.written.map (Prod.mk (Typist.submit j))) {other : Typist} {key : JsString}
    (hne : other ≠ .submit j) (hpress : (keyboard.press stroke).writes = keyboard.writes ++ [(other, key)])
    (quiet : Prop) :
    ¬ Blockwise (keyboard.press stroke).block quiet (keyboard.press stroke).writes := by
  rintro ⟨order', hnodup, hinitial, _⟩
  have hfresh : .submit j ∉ order := h.fresh hget (ne_three_of_typing htyping)
  rw [typing_iff] at htyping
  have hlength : prompt.written.length = prompt.progress := by
    rw [Prompt.written, List.length_take, Prompt.block]
    simp only [List.length_cons, List.length_nil]
    omega
  have hown : ownEntries (.submit j) keyboard.writes = prompt.written := by
    rw [hwrites, ownEntries_append, ownEntries_flatMap hfresh, ownEntries_map_self, List.nil_append]
  have hblock : (keyboard.press stroke).block (.submit j) = prompt.block := by
    rw [block_press keyboard stroke fun k hk ↦ by
      cases hk
      exact (List.getElem?_eq_some_iff.mp hget).1]
    simp [block, hget]
  rw [hpress] at hinitial
  have hnonempty : ownEntries (.submit j) keyboard.writes ≠ [] := by
    rw [hown, ← List.length_pos_iff]
    omega
  have hwhole := own_eq_block hnodup hne hinitial hnonempty
  rw [hown, hblock] at hwhole
  have hthree := hlength.symm.trans (congrArg List.length hwhole)
  simp only [Prompt.block, List.length_cons, List.length_nil] at hthree
  omega

theorem not_blockwise (h : keyboard.Tidy order) (hrude : ¬ keyboard.Considerate stroke)
    (quiet : Prop) :
    ¬ Blockwise (keyboard.press stroke).block quiet (keyboard.press stroke).writes := by
  have hbusy : ¬ keyboard.Quiet := by
    intro hquiet
    apply hrude
    cases stroke with
    | type k key => exact fun _ ↦ hquiet
    | interrupt text => exact hquiet
    | _ => trivial
  rcases h.writes with ⟨hquiet, _⟩ | ⟨j, prompt, hget, htyping, _, hwrites⟩
  · exact absurd hquiet hbusy
  · cases stroke with
    | nothing => exact absurd trivial hrude
    | enroll text => exact absurd trivial hrude
    | interrupt text =>
      have hne : Typist.interrupt keyboard.prompts.length ≠ .submit j := nofun
      exact not_blockwise_of_typing h hget htyping hwrites hne rfl quiet
    | type k key =>
      refine not_blockwise_of_typing h hget htyping hwrites (fun heq ↦ ?_) rfl quiet
      cases heq
      refine hrude fun hat ↦ ?_
      obtain ⟨other, hother, hzero⟩ := hat
      rw [hget] at hother
      cases hother
      rw [typing_iff, hzero] at htyping
      omega

end Press

end Keyboard

/-! ## Submits at the keyboard -/

namespace ClaudeTerminal

variable {Scratch : Type*} {parser : DriverParser Scratch} {terminal next : ClaudeTerminal Scratch}

def keyboard (terminal : ClaudeTerminal Scratch) : Keyboard :=
  ⟨terminal.calls.map ControlCall.prompt, terminal.writes⟩

/-- The writes of the submits are the beginning of complete blocks, one for each submit, next to
single Escapes of submits that interrupt first, and the whole of them when no submit is typing. -/
def PromptsIntact (terminal : ClaudeTerminal Scratch) : Prop :=
  Blockwise
    (fun typist ↦ match typist with
      | .submit k => (terminal.calls[k]?.map fun call ↦
          [ClaudeKeys.ctrlU, call.text, ClaudeKeys.enter]).getD []
      | .interrupt _ => [ClaudeKeys.escape])
    (∀ call ∈ terminal.calls, call.typing = false) terminal.writes

/-- A submit clears the input line, or presses Escape, only when no other one is typing. -/
def TypesAlone (terminal : ClaudeTerminal Scratch) : ClaudeEvent → Prop
  | .proceed k => At (fun call ↦ call.clears = true) k terminal.calls →
      ∀ call ∈ terminal.calls, call.typing = false
  | .submit opts _ => terminal.agent.core.exited = false → opts.interruptIfBusy = true →
      terminal.agent.core.state.status = .busy → ∀ call ∈ terminal.calls, call.typing = false
  | _ => True

theorem quiet_keyboard : terminal.keyboard.Quiet ↔ ∀ call ∈ terminal.calls, call.typing = false := by
  simp only [Keyboard.Quiet, keyboard, List.forall_mem_map, ControlCall.typing_eq]

theorem promptsIntact_iff : terminal.PromptsIntact ↔
    Blockwise terminal.keyboard.block terminal.keyboard.Quiet terminal.keyboard.writes := by
  have hblock : terminal.keyboard.block = fun typist ↦ match typist with
      | .submit k => (terminal.calls[k]?.map fun call ↦
          [ClaudeKeys.ctrlU, call.text, ClaudeKeys.enter]).getD []
      | .interrupt _ => [ClaudeKeys.escape] := by
    funext typist
    cases typist with
    | interrupt k => rfl
    | submit k =>
      simp only [Keyboard.block, keyboard, List.getElem?_map, Option.map_map]
      rfl
  rw [hblock, propext quiet_keyboard]
  rfl

/-- A turn of the controller that the scripts do not see. -/
theorem keyboard_turn {event : PtyEvent} (h : terminal.turn parser event = some next) :
    next.keyboard = terminal.keyboard := by
  obtain ⟨agent, _, rfl⟩ := Option.map_eq_some_iff.mp h
  rfl

theorem keyboard_onCall {change : ControlCall → ControlCall}
    (hchange : ∀ call, (change call).prompt = call.prompt) (k : ℕ) :
    (terminal.onCall k change).keyboard = terminal.keyboard := by
  have hprompts : (terminal.calls.modify k change).map ControlCall.prompt =
      terminal.calls.map ControlCall.prompt := by
    apply List.ext_getElem?
    intro position
    rw [List.getElem?_map, List.getElem?_map, List.getElem?_modify]
    cases terminal.calls[position]? with
    | none => rfl
    | some call => by_cases hk : k = position <;> simp [hk, hchange]
  simp only [keyboard, onCall, hprompts]

theorem keyboard_answer (key : JsString) : (terminal.answer key).keyboard = terminal.keyboard := by
  unfold answer
  split <;> rfl

theorem prompts_wake (calls : List ControlCall) :
    (calls.map ControlCall.wake).map ControlCall.prompt = calls.map ControlCall.prompt := by
  rw [List.map_map]
  apply List.map_congr_left
  intro call _
  exact ControlCall.prompt_wake call

theorem prompts_hear (messages : List AssistantMessage) (emitted : ℕ) {submits : List ChatSubmit}
    {calls : List ControlCall} (h : submits.length = calls.length) :
    (List.zipWith (hear messages emitted) submits calls).map ControlCall.prompt =
      calls.map ControlCall.prompt := by
  induction submits generalizing calls with
  | nil => rw [List.eq_nil_of_length_eq_zero h.symm, List.zipWith_nil_right]
  | cons submit rest ih =>
    cases calls with
    | nil => rfl
    | cons call others =>
      have hcall : (hear messages emitted submit call).prompt = call.prompt := by
        unfold hear
        split <;> rfl
      rw [List.zipWith_cons_cons, List.map_cons, List.map_cons, ih (Nat.succ.inj h), hcall]

theorem prompts_modify {calls : List ControlCall} {k : ℕ} {call : ControlCall}
    (h : calls[k]? = some call) (change : ControlCall → ControlCall) :
    (calls.modify k change).map ControlCall.prompt =
      (calls.map ControlCall.prompt).set k (change call).prompt := by
  rw [modify_eq_set h, List.map_set]

/-- A script goes on. -/
theorem keyboard_proceed {k : ℕ} {call : ControlCall} {stage : SubmitStage} {data : List JsString}
    (hcall : terminal.calls[k]? = some call) (hstage : call.next = some (stage, data)) :
    ∃ stroke, ((terminal.onCall k (ControlCall.advance stage
        terminal.agent.core.transcript.length)).press (.submit k) data).keyboard =
          terminal.keyboard.press stroke ∧ terminal.keyboard.Legal stroke ∧
      (terminal.TypesAlone (.proceed k) ↔ terminal.keyboard.Considerate stroke) := by
  have hclears : At (fun call ↦ call.clears = true) k terminal.calls ↔ call.clears = true :=
    ⟨fun ⟨_, hother, hc⟩ ↦ Option.some.inj (hcall.symm.trans hother) ▸ hc, fun hc ↦ ⟨call, hcall, hc⟩⟩
  rcases ControlCall.next_cases hstage terminal.agent.core.transcript.length with
    ⟨rfl, hprompt, hno⟩ | ⟨key, rfl, hkey, hprompt, hfirst⟩
  · refine ⟨.nothing, ?_, trivial, ?_⟩
    · have hset : (terminal.calls.map ControlCall.prompt).set k call.prompt =
          terminal.calls.map ControlCall.prompt := set_eq_self (by simp [hcall])
      change Keyboard.mk ((terminal.calls.modify k _).map ControlCall.prompt)
        (terminal.writes ++ []) = _
      rw [prompts_modify hcall, hprompt, hset, List.append_nil]
      rfl
    · simp only [TypesAlone, hclears, hno, Bool.false_eq_true, false_imp_iff, Keyboard.Considerate]
  · refine ⟨.type k key, ?_, ⟨call.prompt, by simp [keyboard, hcall], hkey⟩, ?_⟩
    · have hforward : (terminal.calls.map ControlCall.prompt).modify k Prompt.forward =
          (terminal.calls.map ControlCall.prompt).set k call.prompt.forward :=
        modify_eq_set (by simp [hcall]) _
      change Keyboard.mk ((terminal.calls.modify k _).map ControlCall.prompt)
        (terminal.writes ++ [(Typist.submit k, key)]) = _
      rw [prompts_modify hcall, hprompt, ← hforward]
      rfl
    · have hzero : At (fun prompt ↦ prompt.progress = 0) k terminal.keyboard.prompts ↔
          call.prompt.progress = 0 := by
        simp [At, keyboard, hcall]
      simp only [TypesAlone, hclears, hfirst, Keyboard.Considerate, hzero, quiet_keyboard]

/-- A turn is one stroke at the keyboard. -/
theorem keyboard_step (hpaired : terminal.Paired) {event : ClaudeEvent}
    (h : terminal.step parser event = some next) :
    ∃ stroke, next.keyboard = terminal.keyboard.press stroke ∧ terminal.keyboard.Legal stroke ∧
      (terminal.TypesAlone event ↔ terminal.keyboard.Considerate stroke) := by
  have hnothing : ∀ event, next.keyboard = terminal.keyboard → terminal.TypesAlone event →
      ∃ stroke, next.keyboard = terminal.keyboard.press stroke ∧ terminal.keyboard.Legal stroke ∧
        (terminal.TypesAlone event ↔ terminal.keyboard.Considerate stroke) :=
    fun event hsame halone ↦ ⟨.nothing, hsame, trivial, fun _ ↦ trivial, fun _ ↦ halone⟩
  cases (turn_of_step h).2 with
  | @submit opts text middle hturn =>
    have hwrites : middle.writes = terminal.writes := congrArg Keyboard.writes (keyboard_turn hturn)
    rcases enroll_submit text hturn with ⟨_, hexited, henroll, _⟩ |
      ⟨hexited, hinterrupt, hbusy, henroll, _⟩ | ⟨hexited, hcalm, henroll, _⟩
    · refine ⟨.enroll text, ?_, trivial, fun _ ↦ trivial, fun _ hnot ↦ ?_⟩
      · rw [henroll]
        change Keyboard.mk ((terminal.calls ++ [_]).map ControlCall.prompt) middle.writes = _
        rw [hwrites, List.map_append]
        rfl
      · rw [hexited] at hnot
        cases hnot
    · refine ⟨.interrupt text, ?_, trivial, ?_⟩
      · rw [henroll]
        change Keyboard.mk ((terminal.calls ++ [_]).map ControlCall.prompt)
          (middle.writes ++ [(Typist.interrupt terminal.calls.length, ClaudeKeys.escape)]) = _
        rw [hwrites, List.map_append]
        simp only [keyboard, Keyboard.press, List.length_map]
        rfl
      · simp only [TypesAlone, hexited, hinterrupt, hbusy, true_imp_iff, Keyboard.Considerate,
          quiet_keyboard]
    · refine ⟨.enroll text, ?_, trivial, fun _ ↦ trivial, fun _ _ hinterrupt hbusy ↦ ?_⟩
      · rw [henroll]
        change Keyboard.mk ((terminal.calls ++ [_]).map ControlCall.prompt) middle.writes = _
        rw [hwrites, List.map_append, List.map_singleton, ControlCall.prompt_begin]
        rfl
      · exact absurd ⟨hinterrupt, hbusy⟩ hcalm
  | interrupted k hturn =>
    exact hnothing _ ((keyboard_onCall (ControlCall.prompt_begin _) k).trans (keyboard_turn hturn))
      trivial
  | proceed k hcall hnext => exact keyboard_proceed hcall hnext
  | notReady k hstage => exact hnothing _ (keyboard_onCall ControlCall.prompt_giveUp k) trivial
  | controlDone k hstage hturn => exact hnothing _ (keyboard_turn hturn) trivial
  | controlThrow k hstage hturn => exact hnothing _ (keyboard_turn hturn) trivial
  | approve | reject => exact hnothing _ (keyboard_answer _) trivial
  | data now chunk hagent =>
    refine hnothing _ ?_ trivial
    unfold keyboard onData
    simp only
    split
    · rw [prompts_hear _ _ (by rw [List.length_map]; exact hpaired), prompts_wake]
    · rw [prompts_hear _ _ hpaired]
  | idleEmitted =>
    exact hnothing _ (congrArg (Keyboard.mk · terminal.writes) (prompts_wake terminal.calls)) trivial
  | start spawns hturn => exact hnothing _ (keyboard_turn hturn) trivial
  | timer k hturn => exact hnothing _ (keyboard_turn hturn) trivial
  | settle k hturn => exact hnothing _ (keyboard_turn hturn) trivial
  | keys data hturn => exact hnothing _ (keyboard_turn hturn) trivial
  | rawWrite data hturn => exact hnothing _ (keyboard_turn hturn) trivial
  | exit code signal hturn => exact hnothing _ (keyboard_turn hturn) trivial
  | kill signal hturn => exact hnothing _ (keyboard_turn hturn) trivial

/-- The scripts have typed in one piece so far. -/
structure Atomic (terminal : ClaudeTerminal Scratch) : Prop where
  paired : terminal.Paired
  tidy : ∃ order, terminal.keyboard.Tidy order

theorem Atomic.promptsIntact (h : terminal.Atomic) : terminal.PromptsIntact :=
  promptsIntact_iff.mpr (h.tidy.elim fun _ ↦ Keyboard.blockwise_of_tidy)

theorem Atomic.step (h : terminal.Atomic) {event : ClaudeEvent} (halone : terminal.TypesAlone event)
    (hstep : terminal.step parser event = some next) : next.Atomic := by
  obtain ⟨stroke, hkeyboard, hlegal, hconsiderate⟩ := keyboard_step h.paired hstep
  obtain ⟨order, htidy⟩ := h.tidy
  exact ⟨h.paired.step hstep, hkeyboard ▸ htidy.press hlegal (hconsiderate.mp halone)⟩

theorem Atomic.not_promptsIntact (h : terminal.Atomic) {event : ClaudeEvent}
    (hrude : ¬ terminal.TypesAlone event) (hstep : terminal.step parser event = some next) :
    ¬ next.PromptsIntact := by
  obtain ⟨stroke, hkeyboard, _, hconsiderate⟩ := keyboard_step h.paired hstep
  obtain ⟨order, htidy⟩ := h.tidy
  rw [promptsIntact_iff, hkeyboard]
  exact Keyboard.not_blockwise htidy (mt hconsiderate.mpr hrude) _

theorem atomic_create (parser : DriverParser Scratch) (id driverId cwd : JsString)
    (options : SpawnSpec) : (create parser id driverId cwd options).Atomic where
  paired := rfl
  tidy := ⟨[], List.nodup_nil, nofun, nofun, .inl ⟨nofun, rfl⟩⟩

/-- Next to other agents of the driver, the prompts are typed in one piece exactly if every submit
types alone. -/
theorem prompts_intact_iff (parser : DriverParser Scratch) (id driverId cwd : JsString)
    (options : SpawnSpec) (schedule : List (SharedEvent ClaudeEvent Scratch)) :
    Throughout (SharedEvent.step (step parser) putScratch) PromptsIntact
        (create parser id driverId cwd options) schedule ↔
      StepsMeet (SharedEvent.step (step parser) putScratch) (SharedEvent.OnOwn TypesAlone)
        (create parser id driverId cwd options) schedule := by
  apply @SharedEvent.throughout_iff _ _ _ (step parser) putScratch TypesAlone Atomic
  · exact fun _ _ _ hatomic halone hstep ↦ hatomic.step halone hstep
  · exact fun _ _ _ hatomic hrude hstep ↦ hatomic.not_promptsIntact hrude hstep
  · exact fun _ _ hatomic ↦ ⟨hatomic.paired, hatomic.tidy⟩
  · exact fun _ hatomic ↦ hatomic.promptsIntact
  · exact atomic_create parser id driverId cwd options

/-- An idle agent gets two prompts at once. -/
def twoPrompts : List ClaudeEvent :=
  [.start true, .data 0 [0x276F], .submit ⟨true, false⟩ (js "a"), .submit ⟨true, false⟩ (js "b"),
    .proceed 0, .proceed 1, .proceed 0, .proceed 1, .proceed 0, .proceed 1]

/-- The two prompts are typed into one line. -/
theorem two_prompts_merge :
    ((run (SharedEvent.step (step claudeParser) putScratch) claudeAgent
        (twoPrompts.map .own)).map ClaudeTerminal.writes =
      some [(.submit 0, ClaudeKeys.ctrlU), (.submit 1, ClaudeKeys.ctrlU), (.submit 0, js "a"),
        (.submit 1, js "b"), (.submit 0, ClaudeKeys.enter), (.submit 1, ClaudeKeys.enter)]) ∧
    ¬ Throughout (SharedEvent.step (step claudeParser) putScratch) PromptsIntact claudeAgent
      (twoPrompts.map .own) := by
  have hrun : (run (SharedEvent.step (step claudeParser) putScratch) claudeAgent
        (twoPrompts.map .own)).map ClaudeTerminal.writes =
      some [(.submit 0, ClaudeKeys.ctrlU), (.submit 1, ClaudeKeys.ctrlU), (.submit 0, js "a"),
        (.submit 1, js "b"), (.submit 0, ClaudeKeys.enter), (.submit 1, ClaudeKeys.enter)] := by
    decide +kernel
  refine ⟨hrun, fun hthroughout ↦ ?_⟩
  obtain ⟨final, hfinal, hwrites⟩ := Option.map_eq_some_iff.mp hrun
  obtain ⟨order, hnodup, hinitial, _⟩ := hthroughout.last hfinal
  rw [hwrites] at hinitial
  have hfirst : [(Typist.submit 0, ClaudeKeys.ctrlU)] ++ [(Typist.submit 1, ClaudeKeys.ctrlU)] <+:
      order.flatMap _ := (List.prefix_append _ _).trans hinitial
  have hwhole := own_eq_block hnodup (by decide) hfirst (by decide : ownEntries (.submit 0) _ ≠ [])
  cases hcall : final.calls[0]? with
  | none =>
    simp only [hcall] at hwhole
    cases hwhole
  | some call =>
    simp only [hcall] at hwhole
    cases hwhole

end ClaudeTerminal

end Cordyceps.Agents
