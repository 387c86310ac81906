import Cordyceps.Core.LogRetention
import Mathlib.Logic.Function.Basic

/-!
# One log of several processes

Every daemon rotates the same file, and no lock is held: the calls of one rotation, `existsSync`,
`statSync`, `renameSync`, may have those of other processes between them. A process may end between
any two calls. Alone, a process does what the model of one process says, which does a rotation at
once. Together they may lose lines, but what is kept is in the order in which it was written.
-/

namespace Cordyceps.Core

open Foundations Foundations.StepMachine

/-- The next call of a process in `rotate`. -/
inductive Rotation
  | resting
  | existsLog
  | statLog
  /-- `existsSync` of backup `i`, or the rename of the log if `i` is 0. -/
  | existsBackup (i : ℕ) (h : i < Logger.maxBackups)
  /-- The rename of backup `i + 1`. -/
  | moveBackup (i : ℕ) (h : i + 1 < Logger.maxBackups)
  deriving DecidableEq

/-- The module in one process. -/
structure LogProcess where
  initialized : Bool
  writeCount : ℕ
  rotation : Rotation

/-- The files, the processes by their pids, and the lines in the order of the appends. -/
structure SharedLog where
  files : LogFiles
  processes : ℕ → LogProcess
  appended : List JsString

/-- A process enters the module and goes on to the next call of its rotation, or it ends. -/
inductive SharedLogEvent
  | enter (pid : ℕ) (event : LogEvent)
  | proceed (pid : ℕ) (faults : LogFaults)
  | exit (pid : ℕ)

/-- The process is called, or makes a call. -/
def SharedLogEvent.Of (pid : ℕ) : SharedLogEvent → Prop
  | .enter other _ => other = pid
  | .proceed other _ => other = pid
  | .exit _ => False

namespace SharedLog

open Logger

def update (pid : ℕ) (process : LogProcess) (log : SharedLog) : SharedLog :=
  { log with processes := Function.update log.processes pid process }

/-- A call of a rotation leaves the files as they are then, and leads to the next call. -/
def proceed (pid : ℕ) (rotation : Rotation) (files : LogFiles) (log : SharedLog) : SharedLog :=
  { log.update pid { log.processes pid with rotation := rotation } with files := files }

/-- `rotate` does nothing without a path. -/
def beginRotation (logPath : JsString) : Rotation :=
  if logPath.isEmpty then .resting else .existsLog

/-- The part of a call of the module before its rotation. -/
def enter (logPath : JsString) (pid : ℕ) (log : SharedLog) : LogEvent → SharedLog
  | .initLogger _ =>
    log.update pid
      { log.processes pid with initialized := true, rotation := beginRotation logPath }
  | .closeLogger => log.update pid { log.processes pid with initialized := false }
  | .log faults ts level source message =>
    let process := log.processes pid
    if !process.initialized || faults.append || logPath.isEmpty then log
    else
      let writeCount := process.writeCount + 1
      let text := line ts level source message
      { log.update pid { process with
          writeCount := writeCount
          rotation := if writeCount % rotateCheckInterval = 0 then beginRotation logPath
            else .resting } with
        files := appendFile logPath text log.files
        appended := log.appended ++ [text] }

/-- One call of `rotate`; one that throws ends the rotation. -/
def rotateCall (faults : LogFaults) (logPath : JsString) (files : LogFiles) :
    Rotation → Option (Rotation × LogFiles)
  | .resting => none
  | .existsLog => some (if existsSync faults logPath files then .statLog else .resting, files)
  | .statLog =>
    match files.get logPath with
    | none => some (.resting, files)
    | some content =>
      if faults.stat || size content < maxSize then some (.resting, files)
      else some (.existsBackup (maxBackups - 1) (by decide), files)
  | .existsBackup 0 _ =>
    some (.resting, (Logger.rename faults logPath (backup logPath 1) files).getD files)
  | .existsBackup (i + 1) h =>
    some (if existsSync faults (backup logPath (i + 1)) files then .moveBackup i h
      else .existsBackup i (Nat.lt_of_succ_lt h), files)
  | .moveBackup i h =>
    match Logger.rename faults (backup logPath (i + 1)) (backup logPath (i + 2)) files with
    | some files => some (.existsBackup i (Nat.lt_of_succ_lt h), files)
    | none => some (.resting, files)

/-- A process enters the module when it is in no rotation. The one that follows under the pid of a
process that has ended loads the module anew. -/
def step (logPath : JsString) (log : SharedLog) : SharedLogEvent → Option SharedLog
  | .enter pid event =>
    if (log.processes pid).rotation = .resting then some (log.enter logPath pid event) else none
  | .proceed pid faults =>
    (rotateCall faults logPath log.files (log.processes pid).rotation).map fun made ↦
      log.proceed pid made.1 made.2
  | .exit pid => some (log.update pid ⟨false, 0, .resting⟩)

/-- No process has loaded the module. -/
def start (files : LogFiles) : SharedLog := ⟨files, fun _ ↦ ⟨false, 0, .resting⟩, []⟩

variable {logPath : JsString} {faults : LogFaults} {files : LogFiles} {log : SharedLog} {pid : ℕ}

/-! ## The order of the lines -/

theorem retained_rename {i : ℕ} {next : LogFiles} (hi : i + 2 ≤ maxBackups + 1)
    (h : Logger.rename faults (path logPath i) (path logPath (i + 1)) files = some next) :
    (retained logPath next).Sublist (retained logPath files) := by
  rw [retained, places_rename h]
  exact Shelf.below_lift_sublist hi

/-- Whatever the other processes have done before, a call of a rotation keeps the order. -/
theorem retained_rotateCall {rotation : Rotation} {made : Rotation × LogFiles}
    (h : rotateCall faults logPath files rotation = some made) :
    (retained logPath made.2).Sublist (retained logPath files) := by
  cases rotation with
  | resting => cases h
  | existsLog =>
    cases h
    exact List.Sublist.refl _
  | statLog =>
    rw [rotateCall] at h
    split at h
    · cases h
      exact List.Sublist.refl _
    · split at h <;> cases h <;> exact List.Sublist.refl _
  | existsBackup i hi =>
    cases i with
    | zero =>
      cases h
      cases hmoved : Logger.rename faults logPath (backup logPath 1) files with
      | none => exact List.Sublist.refl _
      | some next => exact retained_rename (i := 0) (by decide) hmoved
    | succ i =>
      cases h
      exact List.Sublist.refl _
  | moveBackup i hi =>
    rw [rotateCall] at h
    split at h
    · rename_i next hmoved
      cases h
      exact retained_rename (i := i + 1) (by omega) hmoved
    · cases h
      exact List.Sublist.refl _

/-- **The order of the lines.** However the calls of the processes fall between one another,
whichever of them fail and wherever a process ends, the backups and the log hold some of the lines
that were there and of those appended since, in the order in which they were appended. -/
theorem retained_ordered (logPath : JsString) (files : LogFiles) (schedule : List SharedLogEvent) :
    Throughout (step logPath) (fun log ↦
        (retained logPath log.files).Sublist (retained logPath files ++ log.appended))
      (start files) schedule := by
  have hkeep : ∀ (log : SharedLog) event next,
      (retained logPath log.files).Sublist (retained logPath files ++ log.appended) → True →
        step logPath log event = some next →
          (retained logPath next.files).Sublist (retained logPath files ++ next.appended) := by
    intro log event next hordered _ hstep
    cases event with
    | enter pid event =>
      rw [step, Option.ite_none_right_eq_some] at hstep
      obtain ⟨_, hnext⟩ := hstep
      cases hnext
      cases event with
      | initLogger => exact hordered
      | closeLogger => exact hordered
      | log faults ts level source message =>
        simp only [enter]
        split
        · exact hordered
        · simp only [retained_appendFile]
          rw [← List.append_assoc]
          exact hordered.append_right _
    | proceed pid faults =>
      obtain ⟨made, hmade, hnext⟩ := Option.map_eq_some_iff.mp hstep
      cases hnext
      exact (retained_rotateCall hmade).trans hordered
    | exit pid =>
      cases hstep
      exact hordered
  refine throughout_of_invariant hkeep ?_ (stepsMeet_true _ schedule)
  exact (List.append_nil (retained logPath files)).symm ▸ List.Sublist.refl _

/-! ## A process alone -/

theorem proceed_proceed (rotation rotation' : Rotation) (files files' : LogFiles) :
    (log.proceed pid rotation files).proceed pid rotation' files' =
      log.proceed pid rotation' files' := by
  simp [proceed, update]

/-- The process makes the next `n` calls of its rotation. -/
def proceeds (pid : ℕ) (faults : LogFaults) (n : ℕ) : List SharedLogEvent :=
  List.replicate n (.proceed pid faults)

theorem run_proceed {rotation : Rotation} {made : Rotation × LogFiles}
    (h : rotateCall faults logPath files rotation = some made) (n : ℕ) :
    run (step logPath) (log.proceed pid rotation files) (proceeds pid faults (n + 1)) =
      run (step logPath) (log.proceed pid made.1 made.2) (proceeds pid faults n) := by
  have hstep : step logPath (log.proceed pid rotation files) (.proceed pid faults) =
      some (log.proceed pid made.1 made.2) := by
    have hrotation : ((log.proceed pid rotation files).processes pid).rotation = rotation := by
      simp [proceed, update]
    rw [step, hrotation]
    change (rotateCall faults logPath files rotation).map _ = _
    rw [h, Option.map_some, proceed_proceed]
  rw [proceeds, List.replicate_succ, run_cons, hstep, Option.bind_some]
  rfl

/-- The calls from backup `i` on do what the loop and the rename after it do. -/
theorem run_shiftBackups (log : SharedLog) (pid : ℕ) (faults : LogFaults) (logPath : JsString)
    (i : ℕ) (h : i < maxBackups) (files : LogFiles) :
    ∃ n, run (step logPath) (log.proceed pid (.existsBackup i h) files) (proceeds pid faults n) =
      some (log.proceed pid .resting
        (let shifted := shiftBackups faults logPath i files
        if shifted.2 then shifted.1
        else (Logger.rename faults logPath (backup logPath 1) shifted.1).getD shifted.1)) := by
  induction i generalizing files with
  | zero =>
    refine ⟨1, ?_⟩
    rw [@run_proceed _ _ _ _ _ _ (.resting, _) rfl]
    rfl
  | succ i ih =>
    simp only [shiftBackups]
    split
    · rename_i hhas
      have hexists : rotateCall faults logPath files (.existsBackup (i + 1) h) =
          some (.moveBackup i h, files) := by rw [rotateCall, if_pos hhas]
      split
      · rename_i moved hmoved
        have hmove : rotateCall faults logPath files (.moveBackup i h) =
            some (.existsBackup i (Nat.lt_of_succ_lt h), moved) := by rw [rotateCall, hmoved]
        obtain ⟨n, hrun⟩ := ih (Nat.lt_of_succ_lt h) moved
        exact ⟨n + 2, by rw [run_proceed hexists, run_proceed hmove, hrun]⟩
      · rename_i hthrew
        have hmove : rotateCall faults logPath files (.moveBackup i h) = some (.resting, files) := by
          rw [rotateCall, hthrew]
        exact ⟨2, by rw [run_proceed hexists, run_proceed hmove]; rfl⟩
    · rename_i hnone
      have hexists : rotateCall faults logPath files (.existsBackup (i + 1) h) =
          some (.existsBackup i (Nat.lt_of_succ_lt h), files) := by rw [rotateCall, if_neg hnone]
      obtain ⟨n, hrun⟩ := ih (Nat.lt_of_succ_lt h) files
      exact ⟨n + 1, by rw [run_proceed hexists, hrun]⟩

theorem run_rotate (log : SharedLog) (pid : ℕ) (faults : LogFaults) (logPath : JsString)
    (files : LogFiles) :
    ∃ n, run (step logPath) (log.proceed pid (beginRotation logPath) files)
      (proceeds pid faults n) = some (log.proceed pid .resting (rotate faults logPath files)) := by
  unfold beginRotation rotate
  split
  · exact ⟨0, rfl⟩
  · split
    · rename_i hmissing
      have hexists : rotateCall faults logPath files .existsLog = some (.resting, files) := by
        rw [rotateCall, if_neg (by simpa using hmissing)]
      exact ⟨1, run_proceed hexists 0⟩
    · rename_i hthere
      have hexists : rotateCall faults logPath files .existsLog = some (.statLog, files) := by
        rw [rotateCall, if_pos (by simpa using hthere)]
      cases hlog : files.get logPath with
      | none =>
        have hstat : rotateCall faults logPath files .statLog = some (.resting, files) := by
          rw [rotateCall, hlog]
        exact ⟨2, by rw [run_proceed hexists, run_proceed hstat]; rfl⟩
      | some content =>
        simp only
        split
        · rename_i hsmall
          have hstat : rotateCall faults logPath files .statLog = some (.resting, files) := by
            rw [rotateCall, hlog]
            exact if_pos hsmall
          exact ⟨2, by rw [run_proceed hexists, run_proceed hstat]; rfl⟩
        · rename_i hfull
          have hstat : rotateCall faults logPath files .statLog =
              some (.existsBackup (maxBackups - 1) (by decide), files) := by
            rw [rotateCall, hlog]
            exact if_neg hfull
          obtain ⟨n, hrun⟩ :=
            run_shiftBackups log pid faults logPath (maxBackups - 1) (by decide) files
          exact ⟨n + 2, by rw [run_proceed hexists, run_proceed hstat, hrun]⟩

/-- What a process alone in the directory sees. -/
structure Alone (pid : ℕ) (logger : Logger) (log : SharedLog) : Prop where
  files : log.files = logger.files
  process : log.processes pid = ⟨logger.initialized, logger.writeCount, .resting⟩
  appended : log.appended = logger.appended

theorem proceeds_of (pid : ℕ) (faults : LogFaults) (n : ℕ) :
    ∀ event ∈ proceeds pid faults n, event.Of pid := by
  intro event hmem
  rw [List.eq_of_mem_replicate hmem]
  rfl

/-- A call that has entered a rotation goes on to its end. -/
theorem enter_rotate {event : LogEvent} {entered : SharedLog}
    (henter : step logPath log (.enter pid event) =
      some (entered.proceed pid (beginRotation logPath) files)) (faults : LogFaults) :
    ∃ calls, (∀ call ∈ calls, call.Of pid) ∧ run (step logPath) log calls =
      some (entered.proceed pid .resting (rotate faults logPath files)) := by
  obtain ⟨n, hrun⟩ := run_rotate entered pid faults logPath files
  refine ⟨.enter pid event :: proceeds pid faults n, ?_, ?_⟩
  · exact List.forall_mem_cons.mpr ⟨rfl, proceeds_of pid faults n⟩
  · rw [run_cons, henter, Option.bind_some, hrun]

theorem step_enter (h : (log.processes pid).rotation = .resting) (event : LogEvent) :
    step logPath log (.enter pid event) = some (log.enter logPath pid event) :=
  if_pos h

theorem run_enter (h : (log.processes pid).rotation = .resting) (event : LogEvent) :
    run (step logPath) log [.enter pid event] = some (log.enter logPath pid event) := by
  rw [run_cons, step_enter h, Option.bind_some, run_nil]

/-- A call of the module is its calls of the file system, one after the other. -/
theorem alone_step {logger next : Logger} {event : LogEvent} (h : Alone pid logger log)
    (hstep : Logger.step logPath logger event = some next) :
    ∃ calls log', (∀ call ∈ calls, call.Of pid) ∧
      run (step logPath) log calls = some log' ∧ Alone pid next log' := by
  have hrest : (log.processes pid).rotation = .resting := by rw [h.process]
  have honce : ∀ event : LogEvent, ∀ call ∈ [SharedLogEvent.enter pid event], call.Of pid :=
    fun event ↦ List.forall_mem_singleton.mpr rfl
  cases event with
  | closeLogger =>
    cases hstep
    refine ⟨_, log.enter logPath pid .closeLogger, honce _, run_enter hrest _, h.files, ?_, h.appended⟩
    simp [enter, update, h.process, Logger.closeLogger]
  | initLogger faults =>
    cases hstep
    have henter : log.enter logPath pid (.initLogger faults) =
        (log.update pid { log.processes pid with initialized := true }).proceed pid
          (beginRotation logPath) logger.files := by
      simp [enter, proceed, update, h.files]
    obtain ⟨calls, hcalls, hrun⟩ := enter_rotate (henter ▸ step_enter hrest _) faults
    refine ⟨calls, _, hcalls, hrun, rfl, ?_, h.appended⟩
    simp [proceed, update, h.process, Logger.initLogger]
  | log faults ts level source message =>
    cases hstep
    by_cases hskip : (!logger.initialized || faults.append || logPath.isEmpty) = true
    · have henter : log.enter logPath pid (.log faults ts level source message) = log := by
        rw [enter, h.process]
        exact if_pos hskip
      rw [Logger.log, if_pos hskip]
      exact ⟨_, log, honce _, henter ▸ run_enter hrest _, h⟩
    · let text := line ts level source message
      let written : SharedLog :=
        { log.update pid ⟨logger.initialized, logger.writeCount + 1, .resting⟩ with
          appended := logger.appended ++ [text] }
      have henter : log.enter logPath pid (.log faults ts level source message) =
          written.proceed pid
            (if (logger.writeCount + 1) % rotateCheckInterval = 0 then beginRotation logPath
              else .resting) (appendFile logPath text logger.files) := by
        rw [enter, h.process]
        simp only [if_neg hskip]
        simp [written, text, proceed, update, h.files, h.appended]
      rw [Logger.log, if_neg hskip]
      by_cases hcheck : (logger.writeCount + 1) % rotateCheckInterval = 0
      · rw [if_pos hcheck] at henter
        obtain ⟨calls, hcalls, hrun⟩ := enter_rotate (henter ▸ step_enter hrest _) faults
        refine ⟨calls, _, hcalls, hrun, (if_pos hcheck).symm, ?_, rfl⟩
        simp [written, proceed, update]
      · rw [if_neg hcheck] at henter
        refine ⟨_, _, honce _, henter ▸ run_enter hrest _, (if_neg hcheck).symm, ?_, rfl⟩
        simp [written, proceed, update]

/-- **Two levels of one log.** What the model of one process does, the process does by its own calls
of the file system, from the same files to the same files. -/
theorem alone_simulates (logPath : JsString) (pid : ℕ) (files : LogFiles)
    (schedule : List LogEvent) :
    ∃ logger calls log, run (Logger.step logPath) (load files) schedule = some logger ∧
      (∀ call ∈ calls, call.Of pid) ∧
      run (step logPath) (start files) calls = some log ∧ Alone pid logger log := by
  have htotal : ∀ (logger : Logger) event, ∃ next, Logger.step logPath logger event = some next := by
    intro logger event
    cases event <;> exact ⟨_, rfl⟩
  have hsimulates : ∀ (schedule : List LogEvent) (first : Logger) (shared : SharedLog),
      Alone pid first shared →
        ∃ logger calls log, run (Logger.step logPath) first schedule = some logger ∧
          (∀ call ∈ calls, call.Of pid) ∧
          run (step logPath) shared calls = some log ∧ Alone pid logger log := by
    intro schedule
    induction schedule with
    | nil =>
      intro first shared halone
      exact ⟨first, [], shared, rfl, List.forall_mem_nil _, rfl, halone⟩
    | cons event rest ih =>
      intro first shared halone
      obtain ⟨next, hnext⟩ := htotal first event
      obtain ⟨calls, middle, hcalls, hmiddle, hsame⟩ := alone_step halone hnext
      obtain ⟨logger, more, last, hrest, hmore, hlast, hend⟩ := ih next middle hsame
      refine ⟨logger, calls ++ more, last, ?_, List.forall_mem_append.mpr ⟨hcalls, hmore⟩, ?_, hend⟩
      · rw [run_cons, hnext, Option.bind_some, hrest]
      · rw [run_append, hmiddle, Option.bind_some, hlast]
  exact hsimulates schedule (load files) (start files) ⟨rfl, rfl, rfl⟩

end SharedLog

end Cordyceps.Core
