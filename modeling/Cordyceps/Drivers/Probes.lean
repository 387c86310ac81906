import Cordyceps.Agents.Manager
import Cordyceps.Core.Semver
import Cordyceps.Foundations.Delimiters

/-!
# Probes and version ranges

What the probes of the drivers with a `supportedVersions` range make of the answers of the
machine, and what a spawn makes of the result. A detected version outside the range is graded
`unsupported`, while the warning is for the grade `untested` only and a spawn reads no grade.
-/

namespace Cordyceps.Drivers

open Foundations Cordyceps.Core Agents

/-! ## The probes -/

/-- `DriverProbe` with what a spawn does not read. -/
structure ProbeResult extends DriverProbe where
  version : Option JsString
  capabilities : List (JsString × Bool)
  compat : Option Compat

/-- What `execFileSync` does: return the output, or throw an error with a code. -/
inductive Execution
  | output (text : JsString)
  | threw (code : Option JsString) (message : JsString)

/-- `\d+\.\d+\.\d+`. -/
def threeNumbers : List Regex :=
  [Regex.digits, .single (· == 0x2E), Regex.digits, .single (· == 0x2E), Regex.digits]

/-- `/(\d+\.\d+\.\d+)/`. -/
def plainVersion : Regex := .group 1 (Regex.cat threeNumbers)

/-- `/(\d+\.\d+\.\d+(?:-[\w.]+)?)/`. -/
def taggedVersion : Regex :=
  .group 1 (Regex.cat (threeNumbers ++ [Regex.optional (.seq (.single (· == 0x2D))
    (Regex.repeated1 true fun unit ↦ unit.isWord || unit == 0x2E))]))

/-- `const m = out.match(pattern); if (m) version = m[1]`. -/
def detectVersion (pattern : Regex) (out : JsString) : Option JsString :=
  (pattern.exec out).map (Match.text 1)

/-- `if (compat === "untested" && version) warnings.push(...)`. -/
def rangeWarnings (compat : Compat) (version : Option JsString) (warning : JsString → JsString) :
    List JsString :=
  match version.filter (!·.isEmpty) with
  | some version => if compat = .untested then [warning version] else []
  | none => []

namespace ClaudeDriver

def supportedVersions : JsString := js ">=2.1.100 <2.2.0"

def driver : Driver := ⟨js "claude-code", [js "claude"], [.pty, .exec]⟩

/-- `--print|^\s*-p,` under the `m` flag. -/
def printPattern : Regex :=
  .alt (Regex.literal "--print")
    (Regex.cat [.lineStart true, .repeated true JsString.isSpace, Regex.literal "-p,"])

/-- The tests of the help text. -/
def readHelp (help : JsString) : List (JsString × Bool) :=
  [(js "bareMode", JsString.includes help (js "--bare")),
    (js "sessionId", JsString.includes help (js "--session-id")),
    (js "mcpConfig", JsString.includes help (js "--mcp-config")),
    (js "agentsFlag", JsString.includes help (js "--agents")),
    (js "effort", JsString.includes help (js "--effort")),
    (js "permissionMode", JsString.includes help (js "--permission-mode")),
    (js "printMode", printPattern.test help)]

def rangeWarning (version : JsString) : JsString :=
  js "Claude Code " ++ version ++ js " is outside the tested range (" ++ supportedVersions ++
    js "). Parser drift is possible; run `cordy capture` if you hit issues."

def notFound : ProbeResult where
  available := false
  warnings := [js "claude binary not found on PATH"]
  supportedModes := []
  version := none
  capabilities := []
  compat := none

/-- The version and the warnings of `claude --version`; `none` when there is no binary. -/
def readVersion : Execution → Option (Option JsString × List JsString)
  | .output out => some (detectVersion plainVersion out, [])
  | .threw code message =>
    if code = some (js "ENOENT") then none
    else some (none, [js "claude --version failed: " ++ message])

/-- `probe`, with the answers to `--version` and `--help`. -/
def probe (versionRun helpRun : Execution) : ProbeResult :=
  match readVersion versionRun with
  | none => notFound
  | some (version, warnings) =>
    let (capabilities, helpWarnings) : List (JsString × Bool) × List JsString :=
      match helpRun with
      | .output help => (readHelp help, [])
      | .threw _ _ => ([], [js "could not parse `claude --help` for capability detection"])
    let compat := gradeCompat version (some supportedVersions)
    { available := true
      warnings := warnings ++ helpWarnings ++ rangeWarnings compat version rangeWarning
      supportedModes :=
        if capabilities.lookup (js "printMode") = some false then [.pty] else [.pty, .exec]
      version := version
      capabilities := capabilities
      compat := some compat }

end ClaudeDriver

/-- `<command> --version` of the drivers that run a command for each prompt: whether it is
available, the version and the warnings. -/
def readVersion (command : JsString) : Execution → Bool × Option JsString × List JsString
  | .output out => (true, detectVersion taggedVersion (JsString.trim out), [])
  | .threw code message =>
    if code = some (js "ENOENT") then (false, none, [])
    else (true, none, [command ++ js " --version failed: " ++ message])

namespace CodexDriver

def supportedVersions : JsString := js ">=0.120.0 <0.200.0"

def driver : Driver := ⟨js "codex", [js "cx"], [.exec]⟩

def authWarning : JsString :=
  js "No codex auth detected (~/.codex/auth.json missing). Run `codex login` first."

def rangeWarning (version : JsString) : JsString :=
  js "Codex " ++ version ++ js " is outside the tested range (" ++ supportedVersions ++
    js "). Exec JSONL events may have shifted; run `cordy capture` if messages don't land."

/-- `probe`, with the answer to `--version` and whether the file with the login is there. -/
def probe (versionRun : Execution) (loggedIn : Bool) : ProbeResult :=
  let (available, version, warnings) := readVersion (js "codex") versionRun
  let compat := gradeCompat version (some supportedVersions)
  { available := available
    warnings := warnings ++ (if available && !loggedIn then [authWarning] else []) ++
      rangeWarnings compat version rangeWarning
    supportedModes := if available then [.exec] else []
    version := version
    capabilities := [(js "exec", available), (js "pty", false), (js "serverWs", false)]
    compat := some compat }

end CodexDriver

namespace GeminiDriver

def supportedVersions : JsString := js ">=0.38.0 <1.0.0"

def driver : Driver := ⟨js "gemini", [js "gm"], [.exec]⟩

def authVariables : List JsString :=
  [js "GEMINI_API_KEY", js "GOOGLE_GENAI_USE_VERTEXAI", js "GOOGLE_GENAI_USE_GCA"]

/-- Whether a variable is set to a text that is not empty. -/
def hasAuth (env : JsMap JsString JsString) : Bool :=
  authVariables.any fun name ↦ !((env.get name).getD []).isEmpty

def authWarning : JsString :=
  js "No Gemini auth detected. Export GEMINI_API_KEY before launching the daemon (or use Vertex/GCA)."

def rangeWarning (version : JsString) : JsString :=
  js "Gemini " ++ version ++ js " is outside the tested range (" ++ supportedVersions ++
    js "). Stream-JSON event shape may have changed; run `cordy capture` if messages don't land."

/-- `probe`, with the answer to `--version` and the environment of the daemon. -/
def probe (versionRun : Execution) (env : JsMap JsString JsString) : ProbeResult :=
  let (available, version, warnings) := readVersion (js "gemini") versionRun
  let compat := gradeCompat version (some supportedVersions)
  { available := available
    warnings := warnings ++ (if available && !hasAuth env then [authWarning] else []) ++
      rangeWarnings compat version rangeWarning
    supportedModes := if available then [.exec] else []
    version := version
    capabilities := [(js "exec", available)]
    compat := some compat }

end GeminiDriver

namespace OllamaDriver

def supportedVersions : JsString := js ">=0.1.0 <1.0.0"

def driver : Driver := ⟨js "ollama", [js "ol"], [.serverHttp]⟩

/-- What the request for `/api/version` gives: a response that is not `ok`, the body of one that
is, or an error. -/
inductive VersionAnswer
  | notOk
  | body (value : Json)
  | threw (message : JsString)

def unreachable (message : JsString) : JsString :=
  js "Ollama daemon not reachable at http://127.0.0.1:11434: " ++ message ++
    js ". Run `ollama serve`."

/-- `probe`. A body `null` has no members; a version that is no text is none. -/
def probe (answer : VersionAnswer) : ProbeResult :=
  let (available, version, warnings) : Bool × Option JsString × List JsString :=
    match answer with
    | .notOk => (false, none, [])
    | .body .null =>
      (false, none, [unreachable (js "Cannot read properties of null (reading 'version')")])
    | .body value => (true, stringOf (value.field (js "version")), [])
    | .threw message => (false, none, [unreachable message])
  { available := available
    warnings := warnings
    supportedModes := if available then [.serverHttp] else []
    version := version
    capabilities := [(js "generate", available), (js "chat", available)]
    compat := some (if available then .supported else .untested) }

end OllamaDriver

/-! ## Detected versions -/

/-- A driver with a range, and the answers its probe gets. -/
inductive Probing
  | claude (versionRun helpRun : Execution)
  | codex (versionRun : Execution) (loggedIn : Bool)
  | gemini (versionRun : Execution) (env : JsMap JsString JsString)
  | ollama (answer : OllamaDriver.VersionAnswer)

namespace Probing

def driver : Probing → Driver
  | claude _ _ => ClaudeDriver.driver
  | codex _ _ => CodexDriver.driver
  | gemini _ _ => GeminiDriver.driver
  | ollama _ => OllamaDriver.driver

def supportedVersions : Probing → JsString
  | claude _ _ => ClaudeDriver.supportedVersions
  | codex _ _ => CodexDriver.supportedVersions
  | gemini _ _ => GeminiDriver.supportedVersions
  | ollama _ => OllamaDriver.supportedVersions

def probe : Probing → ProbeResult
  | claude versionRun helpRun => ClaudeDriver.probe versionRun helpRun
  | codex versionRun loggedIn => CodexDriver.probe versionRun loggedIn
  | gemini versionRun env => GeminiDriver.probe versionRun env
  | ollama answer => OllamaDriver.probe answer

/-- The result has a warning about the range: one that names it. -/
def WarnsAboutRange (probing : Probing) : Prop :=
  ∃ warning ∈ probing.probe.warnings,
    JsString.includes warning probing.supportedVersions = true

/-- No runtime is registered that the driver could use on this machine. Without a look at the
help text Claude is taken to have both of its modes. -/
def Unusable (runtimes : List DriverMode) : Probing → Prop
  | claude _ (.output help) =>
    .pty ∉ runtimes ∧ (.exec ∈ runtimes → ClaudeDriver.printPattern.test help = false)
  | claude _ (.threw _ _) => .pty ∉ runtimes ∧ .exec ∉ runtimes
  | codex _ _ => .exec ∉ runtimes
  | gemini _ _ => .exec ∉ runtimes
  | ollama _ => .serverHttp ∉ runtimes

end Probing

/-- A spawn that is refused for its driver: the driver is not available, or has no runtime. -/
def RefusesDriver : SpawnPhase → Prop
  | .failed (.notAvailable _ _) => True
  | .failed (.noRuntime _ _ _ _) => True
  | _ => False

/-! ## What passes silently -/

theorem rangeWarnings_gradeCompat (version supportedRange : Option JsString)
    (warning : JsString → JsString) :
    rangeWarnings (gradeCompat version supportedRange) version warning = [] := by
  unfold rangeWarnings
  split
  · rename_i text htext
    obtain ⟨rfl, hne⟩ := Option.filter_eq_some_iff.mp htext
    exact if_neg (gradeCompat_ne_untested (by simpa using hne) supportedRange)
  · rfl

/-- A command whose version is detected did not fail. -/
theorem readVersion_detected {command version : JsString} {run : Execution} {available : Bool}
    {warnings : List JsString} (h : readVersion command run = (available, some version, warnings)) :
    warnings = [] := by
  cases run with
  | output out =>
    simp only [readVersion, Prod.mk.injEq] at h
    exact h.2.2.symm
  | threw code message =>
    simp only [readVersion] at h
    split_ifs at h <;> cases h

/-- A command whose version is detected comes with at most the one warning added to it. -/
theorem readVersion_complaint {command version complaint warning : JsString} {run : Execution}
    {available complains : Bool} {warnings : List JsString}
    (h : readVersion command run = (available, some version, warnings))
    (hmem : warning ∈ warnings ++ if complains then [complaint] else []) : warning = complaint := by
  rw [readVersion_detected h, List.nil_append] at hmem
  split at hmem
  · exact List.mem_singleton.mp hmem
  · cases hmem

/-- Of a Claude whose version is detected only the help text may be complained about. -/
theorem ClaudeDriver.warnings_of_version {versionRun helpRun : Execution} {version : JsString}
    (h : (ClaudeDriver.probe versionRun helpRun).version = some version) :
    ∀ warning ∈ (ClaudeDriver.probe versionRun helpRun).warnings,
      warning = js "could not parse `claude --help` for capability detection" := by
  intro warning hwarning
  cases versionRun with
  | output out =>
    cases helpRun with
    | output help => simp [probe, readVersion, rangeWarnings_gradeCompat] at hwarning
    | threw code message => simpa [probe, readVersion, rangeWarnings_gradeCompat] using hwarning
  | threw code message =>
    simp only [probe, readVersion] at h
    split_ifs at h <;> cases h

/-- Of a Codex whose version is detected only the login may be missing. -/
theorem CodexDriver.warnings_of_version {versionRun : Execution} {loggedIn : Bool}
    {version : JsString} (h : (CodexDriver.probe versionRun loggedIn).version = some version) :
    ∀ warning ∈ (CodexDriver.probe versionRun loggedIn).warnings, warning = authWarning := by
  intro warning hwarning
  rcases hread : readVersion (js "codex") versionRun with ⟨available, detected, warnings⟩
  simp only [probe, hread, rangeWarnings_gradeCompat, List.append_nil] at h hwarning
  subst h
  exact readVersion_complaint hread hwarning

/-- Of a Gemini whose version is detected only the credentials may be missing. -/
theorem GeminiDriver.warnings_of_version {versionRun : Execution} {env : JsMap JsString JsString}
    {version : JsString} (h : (GeminiDriver.probe versionRun env).version = some version) :
    ∀ warning ∈ (GeminiDriver.probe versionRun env).warnings, warning = authWarning := by
  intro warning hwarning
  rcases hread : readVersion (js "gemini") versionRun with ⟨available, detected, warnings⟩
  simp only [probe, hread, rangeWarnings_gradeCompat, List.append_nil] at h hwarning
  subst h
  exact readVersion_complaint hread hwarning

/-- An Ollama that tells its version comes without any warning. -/
theorem OllamaDriver.warnings_of_version {answer : OllamaDriver.VersionAnswer} {version : JsString}
    (h : (OllamaDriver.probe answer).version = some version) :
    (OllamaDriver.probe answer).warnings = [] := by
  cases answer with
  | notOk => rfl
  | body value =>
    cases value with
    | null => cases h
    | _ => rfl
  | threw message => cases h

/-- A text without the sign `<` names none of the ranges. -/
theorem Probing.not_includes_supportedVersions (probing : Probing) {warning : JsString}
    (h : 0x3C ∉ warning) : JsString.includes warning probing.supportedVersions = false := by
  have hsign : 0x3C ∈ probing.supportedVersions := by
    cases probing <;> simp only [supportedVersions] <;> decide
  rw [Bool.eq_false_iff]
  intro hnames
  exact h ((JsString.includes_iff.mp hnames).subset hsign)

/-- A version that is detected comes without a warning about a range. -/
theorem not_warnsAboutRange {probing : Probing} {version : JsString}
    (h : probing.probe.version = some version) : ¬ probing.WarnsAboutRange := by
  rintro ⟨warning, hwarning, hrange⟩
  suffices hsign : 0x3C ∉ warning by
    rw [probing.not_includes_supportedVersions hsign] at hrange
    cases hrange
  cases probing with
  | claude versionRun helpRun =>
    rw [ClaudeDriver.warnings_of_version h warning hwarning]
    decide +kernel
  | codex versionRun loggedIn =>
    rw [CodexDriver.warnings_of_version h warning hwarning]
    decide +kernel
  | gemini versionRun env =>
    rw [GeminiDriver.warnings_of_version h warning hwarning]
    decide +kernel
  | ollama answer =>
    rw [Probing.probe, OllamaDriver.warnings_of_version h] at hwarning
    cases hwarning

theorem chooseMode_eq_none_iff (driver : Driver) (preferred : Option DriverMode)
    (supportedModes registeredRuntimes : List DriverMode) :
    DriverRegistry.chooseMode driver preferred supportedModes registeredRuntimes = none ↔
      ∀ mode ∈ driver.modes, mode ∈ supportedModes → mode ∉ registeredRuntimes := by
  have hviable : (driver.modes.filter fun mode ↦
      mode ∈ supportedModes ∧ mode ∈ registeredRuntimes) = [] ↔
        ∀ mode ∈ driver.modes, mode ∈ supportedModes → mode ∉ registeredRuntimes := by
    simp [List.filter_eq_nil_iff]
  rw [← hviable]
  unfold DriverRegistry.chooseMode
  cases preferred with
  | none => exact List.head?_eq_none_iff
  | some mode =>
    simp only
    split_ifs with hmem
    · exact iff_of_false id (List.ne_nil_of_mem hmem)
    · exact List.head?_eq_none_iff

/-- A prepared spawn is refused for its driver when the probe says that the driver is not there,
or when there is no mode in common. -/
theorem refusesDriver_prepare_iff (manager : AgentManager) (driver : Driver) (opts : SpawnOptions)
    (probe : DriverProbe) (names : NameSource) :
    RefusesDriver (manager.prepare driver opts (some probe) names) ↔
      probe.available = false ∨
        ∀ mode ∈ driver.modes, mode ∈ probe.supportedModes → mode ∉ manager.runtimes := by
  rw [← chooseMode_eq_none_iff driver
    (DriverMode.ofJson (Json.lookup (js "mode") (opts.profile.getD []))) probe.supportedModes
    manager.runtimes]
  simp only [AgentManager.prepare]
  cases probe.available with
  | false => simp [RefusesDriver]
  | true =>
    simp only [Bool.not_true, Bool.false_eq_true, if_false, Bool.true_eq_false, false_or]
    split
    · rename_i hnone
      simp [hnone, RefusesDriver]
    · rename_i mode hmode
      split_ifs <;> simp [hmode, RefusesDriver]

/-- A probe that detects a version finds the driver there. -/
theorem available_of_version {probing : Probing} {version : JsString}
    (h : probing.probe.version = some version) : probing.probe.available = true := by
  cases probing with
  | claude versionRun helpRun =>
    simp only [Probing.probe, ClaudeDriver.probe] at h ⊢
    split at h
    · cases h
    · rfl
  | codex versionRun loggedIn =>
    cases versionRun with
    | output out => rfl
    | threw code message =>
      simp only [Probing.probe, CodexDriver.probe, readVersion] at h
      split_ifs at h
  | gemini versionRun env =>
    cases versionRun with
    | output out => rfl
    | threw code message =>
      simp only [Probing.probe, GeminiDriver.probe, readVersion] at h
      split_ifs at h
  | ollama answer =>
    simp only [Probing.probe, OllamaDriver.probe] at h ⊢
    split at h <;> first | cases h | rfl

/-- With a detected version, the modes in common are those of `Unusable`. -/
theorem no_mode_iff_unusable {probing : Probing} {version : JsString}
    (h : probing.probe.version = some version) (runtimes : List DriverMode) :
    (∀ mode ∈ probing.driver.modes, mode ∈ probing.probe.supportedModes → mode ∉ runtimes) ↔
      probing.Unusable runtimes := by
  have havailable := available_of_version h
  cases probing with
  | claude versionRun helpRun =>
    cases versionRun with
    | output out =>
      cases helpRun with
      | output help =>
        have hprint : (ClaudeDriver.readHelp help).lookup (js "printMode") =
            some (ClaudeDriver.printPattern.test help) := rfl
        simp only [Probing.driver, ClaudeDriver.driver, Probing.probe, ClaudeDriver.probe,
          ClaudeDriver.readVersion, Probing.Unusable, hprint]
        cases ClaudeDriver.printPattern.test help <;> simp
      | threw code message =>
        simp [Probing.driver, ClaudeDriver.driver, Probing.probe, ClaudeDriver.probe,
          ClaudeDriver.readVersion, Probing.Unusable]
    | threw code message =>
      simp only [Probing.probe, ClaudeDriver.probe, ClaudeDriver.readVersion] at h
      split_ifs at h <;> cases h
  | codex versionRun loggedIn =>
    simp only [Probing.probe, CodexDriver.probe] at havailable
    simp [Probing.driver, CodexDriver.driver, Probing.probe, CodexDriver.probe, Probing.Unusable,
      havailable]
  | gemini versionRun env =>
    simp only [Probing.probe, GeminiDriver.probe] at havailable
    simp [Probing.driver, GeminiDriver.driver, Probing.probe, GeminiDriver.probe, Probing.Unusable,
      havailable]
  | ollama answer =>
    simp only [Probing.probe, OllamaDriver.probe] at havailable
    simp [Probing.driver, OllamaDriver.driver, Probing.probe, OllamaDriver.probe, Probing.Unusable,
      havailable]

/-- Whatever version a probe detects, in the range or outside, a spawn is refused or there is a
warning about the range exactly when the manager has no runtime that the driver could use. -/
theorem refused_or_warned_iff {probing : Probing} {version : JsString}
    (h : probing.probe.version = some version) (manager : AgentManager) (opts : SpawnOptions)
    (names : NameSource) :
    (RefusesDriver (manager.prepare probing.driver opts (some probing.probe.toDriverProbe) names) ∨
        probing.WarnsAboutRange) ↔
      probing.Unusable manager.runtimes := by
  rw [or_iff_left (not_warnsAboutRange h), refusesDriver_prepare_iff, ← no_mode_iff_unusable h,
    or_iff_right]
  rw [available_of_version h]
  exact Bool.true_eq_false.mp

/-- Codex 9.9.9, asked for by a manager that cannot run it. -/
theorem refused_or_warned_codex :
    RefusesDriver ((AgentManager.create .create (js "/")).prepare CodexDriver.driver
        ⟨none, none, none, none⟩
        (some (CodexDriver.probe (.output (js "codex-cli 9.9.9")) true).toDriverProbe) ⟨[], 0⟩) ∨
      (Probing.codex (.output (js "codex-cli 9.9.9")) true).WarnsAboutRange := by
  have hversion : (Probing.codex (.output (js "codex-cli 9.9.9")) true).probe.version =
      some (js "9.9.9") := by
    decide +kernel
  exact (refused_or_warned_iff hversion (AgentManager.create .create (js "/"))
    ⟨none, none, none, none⟩ ⟨[], 0⟩).mpr List.not_mem_nil

/-- Codex 9.9.9 is spawned by a manager that can run commands, and nobody is warned. -/
theorem refused_or_warned_counterexample :
    ¬ ∀ (probing : Probing) (version : JsString) (manager : AgentManager) (opts : SpawnOptions)
      (names : NameSource), probing.probe.version = some version →
        satisfies version probing.supportedVersions = false →
          RefusesDriver
              (manager.prepare probing.driver opts (some probing.probe.toDriverProbe) names) ∨
            probing.WarnsAboutRange := by
  intro h
  have hversion : (Probing.codex (.output (js "codex-cli 9.9.9")) true).probe.version =
      some (js "9.9.9") := by
    decide +kernel
  have hrange : satisfies (js "9.9.9")
      (Probing.codex (.output (js "codex-cli 9.9.9")) true).supportedVersions = false := by
    decide +kernel
  have hnot := h _ _ ((AgentManager.create .create (js "/")).registerRuntime .exec)
    ⟨none, none, none, none⟩ ⟨[], 0⟩ hversion hrange
  rcases hnot with hrefused | hwarned
  · rw [refusesDriver_prepare_iff, available_of_version hversion, no_mode_iff_unusable hversion]
      at hrefused
    rcases hrefused with hgone | hunusable
    · cases hgone
    · exact hunusable (by decide)
  · exact not_warnsAboutRange hversion hwarned

end Cordyceps.Drivers
