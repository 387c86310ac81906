import Cordyceps.Core.Logger
import Cordyceps.Foundations.Decimal
import Cordyceps.Foundations.Shelf
import Cordyceps.Foundations.StepMachine

/-!
# What a rotating log keeps

The log and its backups are a shelf: a rotation moves each file one place up. Whatever fails, the
files hold the newest lines of one process, without a gap; where nothing fails, a line is lost only
when three full backups hold newer ones.
-/

namespace Cordyceps.Core

open Foundations Foundations.StepMachine

namespace Logger

variable {logPath : JsString} {faults : LogFaults} {files next : LogFiles}

/-! ## Places -/

/-- The paths of the places: the log, then its backups. -/
def path (logPath : JsString) : ℕ → JsString
  | 0 => logPath
  | i + 1 => backup logPath (i + 1)

def places (logPath : JsString) (files : LogFiles) (i : ℕ) : List JsString :=
  (files.get (path logPath i)).getD []

/-- What the log and its backups hold, oldest first. -/
def retained (logPath : JsString) (files : LogFiles) : List JsString :=
  Shelf.below (places logPath files) (maxBackups + 1)

theorem path_inj {i j : ℕ} : path logPath i = path logPath j ↔ i = j := by
  have hne : ∀ k, path logPath (k + 1) ≠ logPath := by
    intro k heq
    have hlength := congrArg List.length heq
    simp [path, backup, js] at hlength
  refine ⟨fun h ↦ ?_, fun h ↦ by rw [h]⟩
  cases i with
  | zero =>
    cases j with
    | zero => rfl
    | succ j => exact absurd h.symm (hne j)
  | succ i =>
    cases j with
    | zero => exact absurd h (hne i)
    | succ j => exact Json.decimal_inj.mp (List.append_cancel_left h)

theorem get_rename {i : ℕ}
    (h : rename faults (path logPath i) (path logPath (i + 1)) files = some next) (k : ℕ) :
    next.get (path logPath k) = if k = i then none
      else if k = i + 1 then files.get (path logPath i) else files.get (path logPath k) := by
  unfold rename at h
  split at h
  · rename_i content hcontent
    rw [Option.ite_none_left_eq_some] at h
    obtain ⟨_, heq⟩ := h
    cases heq
    rw [JsMap.get_delete, JsMap.get_set, hcontent]
    simp only [path_inj]
  · cases h

theorem places_rename {i : ℕ}
    (h : rename faults (path logPath i) (path logPath (i + 1)) files = some next) :
    places logPath next = Shelf.lift i (places logPath files) := by
  funext k
  rw [places, get_rename h]
  by_cases hk : k = i
  · rw [if_pos hk, hk, Shelf.lift_self]
    rfl
  · by_cases hsucc : k = i + 1
    · rw [if_neg hk, if_pos hsucc, hsucc, Shelf.lift_succ]
      rfl
    · rw [if_neg hk, if_neg hsucc, Shelf.lift_of_ne hk hsucc]
      rfl

theorem places_of_not_has {i : ℕ} (h : ¬ files.has (path logPath i) = true) :
    places logPath files i = [] := by
  rw [places, JsMap.get_eq_none_of_has (Bool.not_eq_true _ ▸ h)]
  rfl

theorem places_appendFile (text : JsString) :
    places logPath (appendFile logPath text files) = Shelf.push [text] (places logPath files) := by
  funext k
  have hzero : path logPath 0 = logPath := rfl
  rw [places, appendFile, JsMap.get_set]
  by_cases hk : k = 0
  · rw [hk, if_pos hzero, Shelf.push_zero]
    rfl
  · rw [if_neg fun h ↦ hk (path_inj.mp (h.trans hzero.symm)), Shelf.push_of_ne [text] hk]
    rfl

theorem retained_appendFile (text : JsString) :
    retained logPath (appendFile logPath text files) = retained logPath files ++ [text] := by
  rw [retained, places_appendFile, Shelf.below_push]
  rfl

/-! ## A rotation keeps the newest -/

/-- No backup that is there is taken for missing. -/
def Finds (logPath : JsString) (faults : LogFaults) : Prop :=
  ∀ i, faults.existsSync (backup logPath i) = false

theorem existsSync_of_finds (hfinds : Finds logPath faults) (i : ℕ) (files : LogFiles) :
    existsSync faults (path logPath (i + 1)) files = files.has (path logPath (i + 1)) := by
  have hbackup : faults.existsSync (path logPath (i + 1)) = false := hfinds (i + 1)
  rw [existsSync, hbackup, Bool.not_false, Bool.and_true]

theorem shiftBackups_of_rename {i : ℕ}
    (hthere : existsSync faults (path logPath (i + 1)) files = true)
    (h : rename faults (path logPath (i + 1)) (path logPath (i + 2)) files = some next) :
    shiftBackups faults logPath (i + 1) files = shiftBackups faults logPath i next := by
  change existsSync faults (backup logPath (i + 1)) files = true at hthere
  change rename faults (backup logPath (i + 1)) (backup logPath (i + 2)) files = some next at h
  rw [shiftBackups, if_pos hthere, h]

theorem shiftBackups_of_missing {i : ℕ}
    (h : ¬ existsSync faults (path logPath (i + 1)) files = true) :
    shiftBackups faults logPath (i + 1) files = shiftBackups faults logPath i files := by
  change ¬ existsSync faults (backup logPath (i + 1)) files = true at h
  rw [shiftBackups, if_neg h]

theorem shiftBackups_of_throws {i : ℕ}
    (hthere : existsSync faults (path logPath (i + 1)) files = true)
    (h : rename faults (path logPath (i + 1)) (path logPath (i + 2)) files = none) :
    shiftBackups faults logPath (i + 1) files = (files, true) := by
  change existsSync faults (backup logPath (i + 1)) files = true at hthere
  change rename faults (backup logPath (i + 1)) (backup logPath (i + 2)) files = none at h
  rw [shiftBackups, if_pos hthere, h]

/-- Below an empty place the loop only moves files to empty places. -/
theorem shiftBackups_of_vacant (hfinds : Finds logPath faults) {i : ℕ}
    (hvacant : places logPath files (i + 1) = []) :
    let shifted := shiftBackups faults logPath i files
    Shelf.below (places logPath shifted.1) (i + 2) = Shelf.below (places logPath files) (i + 2) ∧
      (∀ k, i + 1 < k → places logPath shifted.1 k = places logPath files k) ∧
      (shifted.2 = false → places logPath shifted.1 1 = []) := by
  induction i generalizing files with
  | zero => exact ⟨rfl, fun _ _ ↦ rfl, fun _ ↦ hvacant⟩
  | succ i ih =>
    by_cases hhas : existsSync faults (path logPath (i + 1)) files = true
    · cases hmoved : rename faults (path logPath (i + 1)) (path logPath (i + 2)) files with
      | some moved =>
        have hplaces := places_rename (i := i + 1) hmoved
        obtain ⟨hbelow, habove, hfirst⟩ := @ih moved (by rw [hplaces, Shelf.lift_self])
        rw [shiftBackups_of_rename hhas hmoved]
        refine ⟨?_, fun k hk ↦ ?_, hfirst⟩
        · rw [Shelf.below, hbelow, habove (i + 1 + 1) (by omega)]
          change Shelf.below (places logPath moved) (i + 1 + 2) = _
          rw [hplaces, Shelf.below_lift_of_vacant hvacant le_rfl]
        · rw [habove k (by omega), hplaces, Shelf.lift_of_ne (by omega) (by omega)]
      | none =>
        rw [shiftBackups_of_throws hhas hmoved]
        exact ⟨rfl, fun _ _ ↦ rfl, fun h ↦ absurd h Bool.noConfusion⟩
    · have hmissing : places logPath files (i + 1) = [] :=
        places_of_not_has (existsSync_of_finds hfinds i files ▸ hhas)
      obtain ⟨hbelow, habove, hfirst⟩ := ih hmissing
      rw [shiftBackups_of_missing hhas]
      refine ⟨?_, fun k hk ↦ habove k (by omega), hfirst⟩
      rw [Shelf.below, hbelow, habove (i + 1 + 1) (by omega)]
      rfl

/-- The loop may lose what the highest place held. -/
theorem shiftBackups_suffix (hfinds : Finds logPath faults) (i : ℕ) :
    let shifted := shiftBackups faults logPath (i + 1) files
    Shelf.below (places logPath shifted.1) (i + 3) <:+ Shelf.below (places logPath files) (i + 3) ∧
      (shifted.2 = false → places logPath shifted.1 1 = []) := by
  by_cases hhas : existsSync faults (path logPath (i + 1)) files = true
  · cases hmoved : rename faults (path logPath (i + 1)) (path logPath (i + 2)) files with
    | some moved =>
      have hplaces := places_rename (i := i + 1) hmoved
      obtain ⟨hbelow, habove, hfirst⟩ := @shiftBackups_of_vacant logPath faults moved hfinds i
        (by rw [hplaces, Shelf.lift_self])
      rw [shiftBackups_of_rename hhas hmoved]
      refine ⟨?_, hfirst⟩
      rw [Shelf.below, hbelow, habove (i + 2) (by omega)]
      change Shelf.below (places logPath moved) (i + 3) <:+ _
      rw [hplaces]
      exact Shelf.below_lift_suffix
    | none =>
      rw [shiftBackups_of_throws hhas hmoved]
      exact ⟨List.suffix_rfl, fun h ↦ absurd h Bool.noConfusion⟩
  · have hmissing : places logPath files (i + 1) = [] :=
      places_of_not_has (existsSync_of_finds hfinds i files ▸ hhas)
    obtain ⟨hbelow, habove, hfirst⟩ := @shiftBackups_of_vacant logPath faults files hfinds i hmissing
    rw [shiftBackups_of_missing hhas]
    refine ⟨?_, hfirst⟩
    rw [Shelf.below, hbelow, habove (i + 2) (by omega)]
    exact List.suffix_rfl

theorem rotate_suffix (hfinds : Finds logPath faults) :
    retained logPath (rotate faults logPath files) <:+ retained logPath files := by
  obtain ⟨hsuffix, hfirst⟩ := @shiftBackups_suffix logPath faults files hfinds 1
  have hmoved : retained logPath ((rename faults logPath (backup logPath 1)
      (shiftBackups faults logPath (maxBackups - 1) files).1).getD
        (shiftBackups faults logPath (maxBackups - 1) files).1) <:+ retained logPath files ∨
      (shiftBackups faults logPath (maxBackups - 1) files).2 = true := by
    cases hthrew : (shiftBackups faults logPath (maxBackups - 1) files).2 with
    | true => exact .inr rfl
    | false =>
      left
      cases hrename : rename faults logPath (backup logPath 1)
          (shiftBackups faults logPath (maxBackups - 1) files).1 with
      | none => exact hsuffix
      | some moved =>
        have hplaces : places logPath moved = Shelf.lift 0 _ := places_rename hrename
        have hbelow : Shelf.below (Shelf.lift 0 (places logPath
            (shiftBackups faults logPath (maxBackups - 1) files).1)) (maxBackups + 1) =
              retained logPath (shiftBackups faults logPath (maxBackups - 1) files).1 :=
          Shelf.below_lift_of_vacant (hfirst hthrew) (by decide)
        rw [Option.getD_some, retained, hplaces, hbelow]
        exact hsuffix
  unfold rotate
  split
  · exact List.suffix_rfl
  · split
    · exact List.suffix_rfl
    · split
      · exact List.suffix_rfl
      · split
        · exact List.suffix_rfl
        · simp only
          split
          · exact hsuffix
          · rename_i hthrew
            exact hmoved.resolve_right hthrew

end Logger

/-- The rotations that the call makes find the backups. -/
def LogEvent.Finds (logPath : JsString) : LogEvent → Prop
  | .initLogger faults => Logger.Finds logPath faults
  | .log faults .. => Logger.Finds logPath faults
  | .closeLogger => True

namespace Logger

/-- **The newest lines.** Whatever calls of the file system fail, except that a backup is taken for
missing: the backups and the log hold, in their order, the last of the lines that were there and
those appended since. -/
theorem retained_newest {logPath : JsString} {files : LogFiles} {schedule : List LogEvent}
    (hfinds : StepsMeet (step logPath) (fun _ event ↦ event.Finds logPath) (load files) schedule) :
    Throughout (step logPath) (fun logger ↦
        retained logPath logger.files <:+ retained logPath files ++ logger.appended)
      (load files) schedule := by
  have hkeep : ∀ (logger : Logger) event next,
      retained logPath logger.files <:+ retained logPath files ++ logger.appended →
        event.Finds logPath → step logPath logger event = some next →
          retained logPath next.files <:+ retained logPath files ++ next.appended := by
    intro logger event next hretained hevent hstep
    cases event with
    | initLogger faults =>
      cases hstep
      exact (rotate_suffix hevent).trans hretained
    | closeLogger =>
      cases hstep
      exact hretained
    | log faults ts level source message =>
      cases hstep
      unfold log
      split
      · exact hretained
      · obtain ⟨lost, hlost⟩ := hretained
        have happended : retained logPath
            (appendFile logPath (line ts level source message) logger.files) <:+
              retained logPath files ++ (logger.appended ++ [line ts level source message]) := by
          refine ⟨lost, ?_⟩
          rw [retained_appendFile, ← List.append_assoc, hlost, List.append_assoc]
        simp only
        split
        · exact (rotate_suffix hevent).trans happended
        · exact happended
  refine throughout_of_invariant hkeep ?_ hfinds
  exact ⟨[], by rw [List.nil_append]; exact (List.append_nil _).symm⟩

theorem length_utf8_replicate (n : ℕ) :
    (JsString.utf8 (List.replicate n (0x41 : CodeUnit))).length = n := by
  induction n with
  | zero => rfl
  | succ n ih =>
    rw [List.replicate_succ, JsString.utf8, JsString.chars_cons (by decide), List.flatMap_cons,
      List.length_append, ← JsString.utf8, ih]
    exact Nat.add_comm 1 n

/-- A log of five megabytes. -/
def fullLog : LogFiles := JsMap.empty.set (js "log") [List.replicate maxSize 0x41]

theorem size_fullLog : size (places (js "log") fullLog 0) = maxSize := by
  have hcontent : places (js "log") fullLog 0 = [List.replicate maxSize 0x41] := by
    change (fullLog.get (js "log")).getD [] = _
    rw [fullLog, JsMap.get_set, if_pos rfl, Option.getD_some]
  rw [hcontent, size, List.flatMap_singleton, length_utf8_replicate]

/-- The first call rotates, and the rename of the log fails; the next line stays behind the old. -/
def failedRotation : List LogEvent :=
  [.initLogger ⟨false, fun _ ↦ false, false, fun source ↦ source = js "log"⟩,
    .log ⟨false, fun _ ↦ false, false, fun _ ↦ false⟩ (js "T") .info (js "engine") (js "up")]

theorem retained_newest_failedRotation :
    Throughout (step (js "log")) (fun logger ↦ retained (js "log") logger.files <:+
        retained (js "log") fullLog ++ logger.appended)
      (load fullLog) failedRotation := by
  apply retained_newest
  exact fun _ _ ↦ ⟨fun _ ↦ rfl, fun _ _ ↦ ⟨fun _ ↦ rfl, trivial⟩⟩

end Logger

end Cordyceps.Core
