import Cordyceps.Core.LogRetention

/-!
# What a log costs, and when it forgets

Rotations whose calls do not fail. The log is as large as it was at the last check, below the limit,
plus the lines written since; and a line of the process is gone only when three full backups hold
newer ones, whatever lay in the directory before.
-/

namespace Cordyceps.Core

open Foundations Foundations.StepMachine

/-- No call of a rotation fails. -/
def LogFaults.Sound (faults : LogFaults) : Prop :=
  faults.stat = false ∧ ∀ path, faults.existsSync path = false ∧ faults.rename path = false

def LogEvent.Sound : LogEvent → Prop
  | .initLogger faults => faults.Sound
  | .log faults .. => faults.Sound
  | .closeLogger => True

namespace Logger

variable {logPath : JsString} {faults : LogFaults} {files next : LogFiles} {logger : Logger}

/-! ## A rotation without failures -/

theorem exists_rename {i : ℕ} (hsound : faults.Sound) (hhas : files.has (path logPath i) = true) :
    ∃ next, rename faults (path logPath i) (path logPath (i + 1)) files = some next := by
  obtain ⟨content, hcontent⟩ := JsMap.get_of_has hhas
  rw [rename, hcontent]
  exact ⟨_, if_neg (Bool.not_eq_true _ ▸ (hsound.2 _).2)⟩

theorem existsSync_of_sound (hsound : faults.Sound) (name : JsString) (files : LogFiles) :
    existsSync faults name files = files.has name := by
  rw [existsSync, (hsound.2 name).1, Bool.not_false, Bool.and_true]

/-- Every backup that is there goes one place up, and the first place is free. -/
theorem shiftBackups_of_sound (hsound : faults.Sound) (i : ℕ) :
    let shifted := shiftBackups faults logPath i files
    shifted.2 = false ∧
      (0 < i → shifted.1.get (path logPath 1) = none) ∧
      (∀ k < i, files.has (path logPath (k + 1)) = true →
        shifted.1.get (path logPath (k + 2)) = files.get (path logPath (k + 1))) ∧
      (∀ k, k = 0 ∨ i + 1 < k →
        shifted.1.get (path logPath k) = files.get (path logPath k)) := by
  induction i generalizing files with
  | zero => exact ⟨rfl, fun h ↦ absurd h (by omega), fun k hk ↦ absurd hk (by omega), fun _ _ ↦ rfl⟩
  | succ i ih =>
    have hthere := existsSync_of_sound hsound (path logPath (i + 1)) files
    by_cases hhas : files.has (path logPath (i + 1)) = true
    · obtain ⟨moved, hmoved⟩ := exists_rename (i := i + 1) hsound hhas
      have hget := get_rename (i := i + 1) hmoved
      obtain ⟨hthrew, hfirst, hup, hsame⟩ := @ih moved
      rw [shiftBackups_of_rename (hthere.trans hhas) hmoved]
      refine ⟨hthrew, fun _ ↦ ?_, fun k hk hbackup ↦ ?_, fun k hk ↦ ?_⟩
      · obtain rfl | hi := Nat.eq_zero_or_pos i
        · exact (hget 1).trans (if_pos rfl)
        · exact hfirst hi
      · obtain rfl | hlt := Nat.eq_or_lt_of_le (Nat.le_of_lt_succ hk)
        · rw [hsame (k + 2) (.inr (by omega)), hget (k + 2), if_neg (by omega), if_pos rfl]
        · have hlower : moved.get (path logPath (k + 1)) = files.get (path logPath (k + 1)) := by
            rw [hget (k + 1), if_neg (by omega), if_neg (by omega)]
          have hthere : moved.has (path logPath (k + 1)) = true := by
            rw [JsMap.has, hlower]
            exact hbackup
          rw [hup k hlt hthere, hlower]
      · rw [hsame k (by omega), hget k, if_neg (by omega), if_neg (by omega)]
    · obtain ⟨hthrew, hfirst, hup, hsame⟩ := @ih files
      rw [shiftBackups_of_missing (hthere ▸ hhas)]
      refine ⟨hthrew, fun _ ↦ ?_, fun k hk hbackup ↦ ?_, fun k hk ↦ hsame k (by omega)⟩
      · obtain rfl | hi := Nat.eq_zero_or_pos i
        · exact JsMap.get_eq_none_of_has (Bool.not_eq_true _ ▸ hhas)
        · exact hfirst hi
      · obtain rfl | hlt := Nat.eq_or_lt_of_le (Nat.le_of_lt_succ hk)
        · exact absurd hbackup hhas
        · exact hup k hlt hbackup

/-- A rotation leaves a log below the limit as it is, and takes any other away. -/
theorem rotate_of_sound (hpath : logPath ≠ []) (hsound : faults.Sound) :
    (size (places logPath files 0) < maxSize ∧ rotate faults logPath files = files) ∨
      (maxSize ≤ size (places logPath files 0) ∧
        places logPath (rotate faults logPath files) 0 = [] ∧
        ∀ k < maxBackups, files.has (path logPath k) = true →
          places logPath (rotate faults logPath files) (k + 1) = places logPath files k) := by
  cases hlog : files.get logPath with
  | none =>
    have hmissing : existsSync faults logPath files = false := by
      rw [existsSync, JsMap.has, hlog]
      rfl
    have hempty : places logPath files 0 = [] := by
      change (files.get logPath).getD [] = []
      rw [hlog, Option.getD_none]
    exact .inl ⟨by rw [hempty]; decide, by rw [rotate, if_neg (by simp [hpath]), hmissing]; rfl⟩
  | some content =>
    have hcontent : places logPath files 0 = content := by
      change (files.get logPath).getD [] = content
      rw [hlog, Option.getD_some]
    have hthere : existsSync faults logPath files = true :=
      (existsSync_of_sound hsound logPath files).trans (JsMap.has_of_get hlog)
    rw [hcontent, rotate, if_neg (by simp [hpath]), hthere, hlog]
    simp only [Bool.not_true, Bool.false_eq_true, if_false]
    obtain hsmall | hfull := Nat.lt_or_ge (size content) maxSize
    · exact .inl ⟨hsmall, by simp [hsmall]⟩
    · refine .inr ⟨hfull, ?_⟩
      obtain ⟨hthrew, hfirst, hup, hsame⟩ :=
        @shiftBackups_of_sound logPath faults files hsound (maxBackups - 1)
      have hthere := (hsame 0 (.inl rfl)).trans hlog
      obtain ⟨moved, hmoved⟩ := exists_rename (i := 0) hsound (JsMap.has_of_get hthere)
      have hget := get_rename (i := 0) hmoved
      have hrotated : (rename faults logPath (backup logPath 1)
          (shiftBackups faults logPath (maxBackups - 1) files).1).getD
            (shiftBackups faults logPath (maxBackups - 1) files).1 = moved := by
        exact congrArg (Option.getD · _) hmoved
      simp only [hsound.1, Bool.false_or, decide_eq_true_eq, Nat.not_lt.mpr hfull, if_false, hthrew,
        Bool.false_eq_true, hrotated]
      refine ⟨?_, fun k hk hhas ↦ ?_⟩
      · rw [places, hget 0, if_pos rfl, Option.getD_none]
      · cases k with
        | zero => rw [places, hget 1, if_neg (by omega), if_pos rfl, hthere, Option.getD_some, hcontent]
        | succ k =>
          rw [places, hget (k + 2), if_neg (by omega), if_neg (by omega),
            hup k (by simp [maxBackups] at hk ⊢; omega) hhas, places]

/-! ## When it forgets -/

/-- The first `r` backups are full. -/
def Full (logPath : JsString) (files : LogFiles) (r : ℕ) : Prop :=
  ∀ k, 0 < k → k ≤ r → maxSize ≤ size (places logPath files k)

/-- Three backups are full, or all the lines lie on the places that follow full ones. -/
def Recorded (logPath : JsString) (files : LogFiles) (appended : List JsString) : Prop :=
  Full logPath files maxBackups ∨
    ∃ r < maxBackups, Full logPath files r ∧ appended <:+ Shelf.below (places logPath files) (r + 1)

theorem has_of_full {k : ℕ} (h : maxSize ≤ size (places logPath files k)) :
    files.has (path logPath k) = true := by
  by_contra hnone
  rw [places_of_not_has hnone] at h
  exact absurd h (by decide)

/-- After a rotation one backup more is full, and the lines are where they were, one place up. -/
theorem full_rotate {r : ℕ} (hr : r < maxBackups) (hfull : Full logPath files r)
    (hlog : maxSize ≤ size (places logPath files 0))
    (hup : ∀ k < maxBackups, files.has (path logPath k) = true →
      places logPath next (k + 1) = places logPath files k) :
    Full logPath next (r + 1) ∧ ∀ k < r + 1, places logPath next (k + 1) = places logPath files k := by
  have hsize : ∀ k < r + 1, maxSize ≤ size (places logPath files k) := by
    intro k hk
    obtain rfl | hpos := Nat.eq_zero_or_pos k
    · exact hlog
    · exact hfull k hpos (Nat.le_of_lt_succ hk)
  have hmoved : ∀ k < r + 1, places logPath next (k + 1) = places logPath files k :=
    fun k hk ↦ hup k (by omega) (has_of_full (hsize k hk))
  refine ⟨fun k hpos hk ↦ ?_, hmoved⟩
  obtain ⟨k, rfl⟩ := Nat.exists_eq_succ_of_ne_zero hpos.ne'
  rw [hmoved k hk]
  exact hsize k hk

theorem recorded_rotate {appended : List JsString} (hsound : faults.Sound)
    (h : Recorded logPath files appended) :
    Recorded logPath (rotate faults logPath files) appended := by
  obtain rfl | hpath := eq_or_ne logPath []
  · exact h
  obtain ⟨_, hsame⟩ | ⟨hlog, hfirst, hup⟩ := @rotate_of_sound logPath faults files hpath hsound
  · rw [hsame]
    exact h
  · rcases h with hfull | ⟨r, hr, hfull, happended⟩
    · have hlower : Full logPath files (maxBackups - 1) := fun k hpos hk ↦ hfull k hpos (by omega)
      exact .inl (full_rotate (by decide) hlower hlog hup).1
    · obtain ⟨hnext, hmoved⟩ := full_rotate hr hfull hlog hup
      obtain hlt | hlast := Nat.lt_or_eq_of_le (Nat.succ_le_of_lt hr)
      · refine .inr ⟨r + 1, hlt, hnext, ?_⟩
        rw [Shelf.below_shifted hfirst hmoved]
        exact happended
      · exact .inl (hlast ▸ hnext)

theorem recorded_appendFile {appended : List JsString} (text : JsString)
    (h : Recorded logPath files appended) :
    Recorded logPath (appendFile logPath text files) (appended ++ [text]) := by
  have hfull : ∀ r, Full logPath files r → Full logPath (appendFile logPath text files) r := by
    intro r hfull k hpos hk
    rw [places_appendFile, Shelf.push_of_ne _ hpos.ne']
    exact hfull k hpos hk
  rcases h with h | ⟨r, hr, h, lost, hlost⟩
  · exact .inl (hfull _ h)
  · refine .inr ⟨r, hr, hfull r h, lost, ?_⟩
    rw [places_appendFile, Shelf.below_push, ← List.append_assoc, hlost]

/-- **What is forgotten.** In a run whose rotations do not fail, every line that the process has
appended is still there, or the three backups hold five megabytes each. -/
theorem appended_retained (logPath : JsString) (files : LogFiles) {schedule : List LogEvent}
    (hsound : StepsMeet (step logPath) (fun _ event ↦ event.Sound) (load files) schedule) :
    Throughout (step logPath) (fun logger ↦
        logger.appended <:+ retained logPath logger.files ∨ Full logPath logger.files maxBackups)
      (load files) schedule := by
  have hkeep : ∀ (logger : Logger) event next, Recorded logPath logger.files logger.appended →
      event.Sound → step logPath logger event = some next →
        Recorded logPath next.files next.appended := by
    intro logger event next hrecorded hevent hstep
    cases event with
    | initLogger faults =>
      cases hstep
      exact recorded_rotate hevent hrecorded
    | closeLogger =>
      cases hstep
      exact hrecorded
    | log faults ts level source message =>
      cases hstep
      have happended := recorded_appendFile (line ts level source message) hrecorded
      unfold log
      split
      · exact hrecorded
      · simp only
        split
        · exact recorded_rotate hevent happended
        · exact happended
  have hinit : Recorded logPath (load files).files (load files).appended :=
    .inr ⟨0, by decide, fun k hpos hk ↦ absurd hpos (by omega), List.nil_suffix⟩
  refine (throughout_of_invariant hkeep hinit hsound).mono fun logger hrecorded ↦ ?_
  rcases hrecorded with hfull | ⟨r, hr, _, happended⟩
  · exact .inr hfull
  · exact .inl (happended.trans (Shelf.below_suffix (by omega)))

/-- The first call rotates a log of five megabytes away; the line is the first of the next. -/
def firstLine : List LogEvent :=
  [.initLogger ⟨false, fun _ ↦ false, false, fun _ ↦ false⟩,
    .log ⟨false, fun _ ↦ false, false, fun _ ↦ false⟩ (js "T") .info (js "engine") (js "up")]

theorem firstLine_sound (logger : Logger) :
    StepsMeet (step (js "log")) (fun _ event ↦ event.Sound) logger firstLine :=
  fun _ _ ↦ ⟨⟨rfl, fun _ ↦ ⟨rfl, rfl⟩⟩, fun _ _ ↦ ⟨⟨rfl, fun _ ↦ ⟨rfl, rfl⟩⟩, trivial⟩⟩

theorem appended_retained_firstLine :
    size (places (js "log") fullLog 0) = maxSize ∧
      Throughout (step (js "log")) (fun logger ↦
          logger.appended <:+ retained (js "log") logger.files ∨
            Full (js "log") logger.files maxBackups)
        (load fullLog) firstLine :=
  ⟨size_fullLog, appended_retained (js "log") fullLog (firstLine_sound _)⟩

/-! ## How large the log is -/

/-- What the log holds. There is none without a path. -/
def current (logPath : JsString) (files : LogFiles) : List JsString :=
  if logPath.isEmpty then [] else places logPath files 0

/-- The log: what it was at the last check, and the lines since. -/
def Bounded (logPath : JsString) (logger : Logger) : Prop :=
  ∃ older recent, current logPath logger.files = older ++ recent ∧ size older < maxSize ∧
    recent.length ≤ logger.writeCount % rotateCheckInterval

theorem current_of_ne (hpath : logPath ≠ []) (files : LogFiles) :
    current logPath files = places logPath files 0 := by
  rw [current, List.isEmpty_eq_false_iff.mpr hpath]
  rfl

theorem bounded_rotate (hsound : faults.Sound) (files : LogFiles) :
    size (current logPath (rotate faults logPath files)) < maxSize := by
  obtain rfl | hpath := eq_or_ne logPath []
  · exact Nat.succ_pos _
  rw [current_of_ne hpath]
  obtain ⟨hsmall, hsame⟩ | ⟨_, hfirst, _⟩ := @rotate_of_sound logPath faults files hpath hsound
  · rw [hsame]
    exact hsmall
  · rw [hfirst]
    decide

/-- **The size of the log.** In a run whose rotations do not fail the log of an initialized module
is below five megabytes but for the lines since the last check, fewer than a hundred. -/
theorem log_bounded (logPath : JsString) (files : LogFiles) {schedule : List LogEvent}
    (hsound : StepsMeet (step logPath) (fun _ event ↦ event.Sound) (load files) schedule) :
    Throughout (step logPath) (fun logger ↦ logger.initialized = true → Bounded logPath logger)
      (load files) schedule := by
  have hkeep : ∀ (logger : Logger) event next,
      (logger.initialized = true → Bounded logPath logger) → event.Sound →
        step logPath logger event = some next →
          next.initialized = true → Bounded logPath next := by
    intro logger event next hbounded hevent hstep
    cases event with
    | initLogger faults =>
      cases hstep
      exact fun _ ↦ ⟨_, [], (List.append_nil _).symm, bounded_rotate hevent _, Nat.zero_le _⟩
    | closeLogger =>
      cases hstep
      exact fun h ↦ absurd h Bool.false_ne_true
    | log faults ts level source message =>
      cases hstep
      unfold log
      split
      · exact hbounded
      · rename_i hwrites
        simp only [Bool.or_eq_true, not_or, List.isEmpty_iff] at hwrites
        intro hinitialized
        simp only at hinitialized
        obtain ⟨older, recent, hlog, holder, hrecent⟩ := hbounded hinitialized
        simp only
        split
        · exact ⟨_, [], (List.append_nil _).symm, bounded_rotate hevent _, Nat.zero_le _⟩
        · rename_i hcheck
          refine ⟨older, recent ++ [line ts level source message], ?_, holder, ?_⟩
          · rw [current_of_ne hwrites.2] at hlog ⊢
            rw [places_appendFile, Shelf.push_zero, hlog, List.append_assoc]
          · rw [List.length_append, List.length_singleton]
            simp only [rotateCheckInterval] at hcheck hrecent ⊢
            omega
  exact throughout_of_invariant hkeep (fun h ↦ absurd h Bool.false_ne_true) hsound

theorem log_bounded_firstLine :
    size (places (js "log") fullLog 0) = maxSize ∧
      Throughout (step (js "log")) (fun logger ↦
          logger.initialized = true → Bounded (js "log") logger)
        (load fullLog) firstLine :=
  ⟨size_fullLog, log_bounded (js "log") fullLog (firstLine_sound _)⟩

end Logger

end Cordyceps.Core
