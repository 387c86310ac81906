import Cordyceps.Foundations.JsMap
import Cordyceps.Foundations.Json
import Cordyceps.Foundations.Utf8

/-!
# The rotating log

`core/logger.ts`. A file is the list of the texts that were appended to it. Calls of the file system
may fail, which the logger swallows: a failed append writes nothing, a failed rename moves nothing
and ends the rotation, and a failed `existsSync` answers that nothing is there.
-/

namespace Cordyceps.Core

open Foundations

inductive LogLevel
  | debug
  | info
  | warn
  | error
  | fatal
  deriving DecidableEq, Repr

def LogLevel.text : LogLevel → JsString
  | .debug => js "DEBUG"
  | .info => js "INFO"
  | .warn => js "WARN"
  | .error => js "ERROR"
  | .fatal => js "FATAL"

/-- The files of the log directory by their paths. -/
abbrev LogFiles := JsMap JsString (List JsString)

/-- The calls of the file system that fail. -/
structure LogFaults where
  append : Bool
  existsSync : JsString → Bool
  stat : Bool
  rename : JsString → Bool

/-- What the module keeps, with the files. `appended` observes the lines that were appended. -/
structure Logger where
  initialized : Bool
  writeCount : ℕ
  files : LogFiles
  appended : List JsString

namespace Logger

/-- `MAX_SIZE`: 5 MB. -/
def maxSize : ℕ := 5 * 1024 * 1024

def maxBackups : ℕ := 3

def rotateCheckInterval : ℕ := 100

/-- `[${ts}] [${level}] [${source}] ${message}\n`. -/
def line (ts : JsString) (level : LogLevel) (source message : JsString) : JsString :=
  js "[" ++ ts ++ js "] [" ++ level.text ++ js "] [" ++ source ++ js "] " ++ message ++ [newline]

/-- `${logPath}.${i}`. -/
def backup (logPath : JsString) (i : ℕ) : JsString := logPath ++ js "." ++ Json.decimal i

/-- `stat.size`: the bytes of the texts. -/
def size (content : List JsString) : ℕ := (content.flatMap JsString.utf8).length

/-- `appendFileSync`: a file that is not there is made. -/
def appendFile (path text : JsString) (files : LogFiles) : LogFiles :=
  files.set path ((files.get path).getD [] ++ [text])

/-- `existsSync`. -/
def existsSync (faults : LogFaults) (path : JsString) (files : LogFiles) : Bool :=
  files.has path && !faults.existsSync path

/-- `renameSync`; `none` is a call that throws. -/
def rename (faults : LogFaults) (source target : JsString) (files : LogFiles) : Option LogFiles :=
  match files.get source with
  | some content =>
    if faults.rename source then none else some ((files.set target content).delete source)
  | none => none

/-- The loop of `rotate`, from `i` down to 1; the flag says that it threw. -/
def shiftBackups (faults : LogFaults) (logPath : JsString) : ℕ → LogFiles → LogFiles × Bool
  | 0, files => (files, false)
  | i + 1, files =>
    if existsSync faults (backup logPath (i + 1)) files then
      match rename faults (backup logPath (i + 1)) (backup logPath (i + 2)) files with
      | some files => shiftBackups faults logPath i files
      | none => (files, true)
    else shiftBackups faults logPath i files

/-- `rotate`. -/
def rotate (faults : LogFaults) (logPath : JsString) (files : LogFiles) : LogFiles :=
  if logPath.isEmpty then files
  else if !existsSync faults logPath files then files
  else match files.get logPath with
    | none => files
    | some content =>
      if faults.stat || size content < maxSize then files
      else
        let shifted := shiftBackups faults logPath (maxBackups - 1) files
        if shifted.2 then shifted.1
        else (rename faults logPath (backup logPath 1) shifted.1).getD shifted.1

/-- `initLogger`; whether the directory could be made shows in the calls that follow. -/
def initLogger (faults : LogFaults) (logPath : JsString) (logger : Logger) : Logger :=
  { logger with initialized := true, files := rotate faults logPath logger.files }

/-- `log`, with the line that it writes. There is no file without a path. -/
def log (faults : LogFaults) (logPath text : JsString) (logger : Logger) : Logger :=
  if !logger.initialized || faults.append || logPath.isEmpty then logger
  else
    let writeCount := logger.writeCount + 1
    let files := appendFile logPath text logger.files
    { logger with
      writeCount := writeCount
      files := if writeCount % rotateCheckInterval = 0 then rotate faults logPath files else files
      appended := logger.appended ++ [text] }

/-- `closeLogger`. -/
def closeLogger (logger : Logger) : Logger := { logger with initialized := false }

end Logger

/-- A call of the module. -/
inductive LogEvent
  | initLogger (faults : LogFaults)
  | log (faults : LogFaults) (ts : JsString) (level : LogLevel) (source message : JsString)
  | closeLogger

namespace Logger

/-- The calls that a process makes, all for one path. -/
def step (logPath : JsString) (logger : Logger) : LogEvent → Option Logger
  | .initLogger faults => some (logger.initLogger faults logPath)
  | .log faults ts level source message =>
    some (logger.log faults logPath (line ts level source message))
  | .closeLogger => some logger.closeLogger

/-- The module when it is loaded. -/
def load (files : LogFiles) : Logger := ⟨false, 0, files, []⟩

end Logger

end Cordyceps.Core
