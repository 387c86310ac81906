import Cordyceps.Core.Ansi
import Cordyceps.Foundations.RegexReplace
import Cordyceps.Foundations.Trimming

/-!
# Text without escape sequences

Every escape pattern starts with the escape character. So `ansiToText` keeps a text without
control characters as it is but for its margins, keeps the first character of a chunk that
starts with something visible, and invents no character but the space.
-/

namespace Cordyceps.Core

open Foundations Regex JsString

namespace Ansi

def isEscape (unit : CodeUnit) : Bool := unit == 0x1B

theorem starts_csi : Starts isEscape csi := starts_cat _ _

theorem starts_osc : Starts isEscape osc := starts_cat _ _

theorem starts_charset : Starts isEscape charset := starts_cat _ _

theorem starts_keypad : Starts isEscape keypad := starts_cat _ _

theorem starts_singleEsc : Starts isEscape singleEsc := starts_cat _ _

theorem starts_cursorForward : Starts isEscape cursorForward := starts_cat _ _

/-- The text before its controls are dropped and its margins are trimmed. -/
def spaced (text : JsString) : JsString := cursorForward.replaceAll
  (fun found ↦ List.replicate (forwardCount (found.text 1)) 0x20) text

theorem ansiToText_eq (text : JsString) :
    ansiToText text = trim ((removeEscapes (spaced text)).filter (!isControl ·)) := by
  rw [ansiToText, remove, replaceAll_single]
  rfl

theorem stripAnsi_eq (text : JsString) :
    stripAnsi text = trim ((removeEscapes text).filter (!isControl ·)) := by
  rw [stripAnsi, remove, replaceAll_single]

theorem isEscape_of_isControl {unit : CodeUnit} (h : isControl unit = false) :
    isEscape unit = false := by
  by_contra hescape
  rw [Bool.not_eq_false, isEscape, beq_iff_eq] at hescape
  rw [hescape] at h
  exact absurd h (by decide)

section

variable {text : JsString}

theorem spaced_eq_self (h : ∀ unit ∈ text, isEscape unit = false) : spaced text = text :=
  starts_cursorForward.replaceAll_eq_self _ h

theorem remove_eq_self {pattern : Regex} (hstarts : Starts isEscape pattern)
    (h : ∀ unit ∈ text, isEscape unit = false) : remove pattern text = text :=
  hstarts.replaceAll_eq_self _ h

theorem removeEscapes_eq_self (h : ∀ unit ∈ text, isEscape unit = false) :
    removeEscapes text = text := by
  rw [removeEscapes, remove_eq_self starts_osc h, remove_eq_self starts_csi h,
    remove_eq_self starts_charset h, remove_eq_self starts_keypad h,
    remove_eq_self starts_singleEsc h]

/-- Plain text keeps all but its margins. -/
theorem ansiToText_of_plain (h : ∀ unit ∈ text, isControl unit = false) :
    ansiToText text = trim text := by
  have hescape : ∀ unit ∈ text, isEscape unit = false :=
    fun unit hunit ↦ isEscape_of_isControl (h unit hunit)
  rw [ansiToText_eq, spaced_eq_self hescape, removeEscapes_eq_self hescape,
    List.filter_eq_self.mpr fun unit hunit ↦ by simp [h unit hunit]]

end

theorem mem_remove {pattern : Regex} {unit : CodeUnit} {text : JsString}
    (h : unit ∈ remove pattern text) : unit ∈ text :=
  (mem_replaceFrom _ h).resolve_right fun ⟨_, hnil⟩ ↦ List.not_mem_nil hnil

theorem mem_removeEscapes {unit : CodeUnit} {text : JsString} (h : unit ∈ removeEscapes text) :
    unit ∈ text :=
  mem_remove (mem_remove (mem_remove (mem_remove (mem_remove h))))

/-- What a chunk shows was in the chunk, or is a space. -/
theorem mem_ansiToText {unit : CodeUnit} {text : JsString} (h : unit ∈ ansiToText text) :
    (unit ∈ text ∨ unit = 0x20) ∧ isControl unit = false := by
  rw [ansiToText_eq] at h
  obtain ⟨hunit, hshown⟩ := List.mem_filter.mp (mem_trim h)
  refine ⟨(mem_replaceFrom _ (mem_removeEscapes hunit)).imp_right ?_, by simpa using hshown⟩
  rintro ⟨found, hfound⟩
  exact List.eq_of_mem_replicate hfound

theorem remove_cons {pattern : Regex} (h : Starts isEscape pattern) {unit : CodeUnit}
    (hunit : isEscape unit = false) (text : JsString) :
    ∃ rest, remove pattern (unit :: text) = unit :: rest :=
  h.replaceAll_cons _ hunit text

/-- A chunk that starts with something visible is shown from there on. -/
theorem ansiToText_cons {unit : CodeUnit} (hcontrol : isControl unit = false)
    (hspace : isSpace unit = false) (text : JsString) :
    ∃ rest, ansiToText (unit :: text) = unit :: rest := by
  have hunit := isEscape_of_isControl hcontrol
  obtain ⟨spaced', hspaced⟩ := starts_cursorForward.replaceAll_cons
    (fun found ↦ List.replicate (forwardCount (found.text 1)) 0x20) hunit text
  obtain ⟨_, hosc⟩ := remove_cons starts_osc hunit spaced'
  obtain ⟨_, hcsi⟩ := remove_cons starts_csi hunit _
  obtain ⟨_, hcharset⟩ := remove_cons starts_charset hunit _
  obtain ⟨_, hkeypad⟩ := remove_cons starts_keypad hunit _
  obtain ⟨rest, hsingle⟩ := remove_cons starts_singleEsc hunit _
  have hremoved : removeEscapes (spaced (unit :: text)) = unit :: rest := by
    rw [spaced, hspaced, removeEscapes, hosc, hcsi, hcharset, hkeypad, hsingle]
  rw [ansiToText_eq, hremoved, List.filter_cons_of_pos (by simp [hcontrol])]
  exact trim_cons hspace _

end Ansi

end Cordyceps.Core
