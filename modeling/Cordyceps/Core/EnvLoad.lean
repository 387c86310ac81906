import Cordyceps.Core.EnvFile
import Cordyceps.Core.Logger
import Cordyceps.Foundations.PosixPath

/-!
# Loading the env file

`loadEnvFile` of `core/env.ts`. The first candidate that is there and can be read fills the gaps of
the environment. What the loader tells, to the log and to its caller, depends on the names of the
variables and not on their values.
-/

namespace Cordyceps.Core

open Foundations

/-! ## The loader -/

/-- What is found under a path. Reading it, `stat` and `chmod` may throw; `mode` are the permission
bits. -/
structure EnvNode where
  content : Except JsString JsString
  mode : Option ℕ
  chmod : Bool

abbrev EnvDisk := JsMap JsString EnvNode

/-- A line of the log. -/
structure LogCall where
  level : LogLevel
  source : JsString
  message : JsString
  deriving DecidableEq, Repr

structure EnvLoadResult where
  path : JsString
  loaded : List JsString
  skippedAlreadySet : List JsString
  deriving DecidableEq, Repr

/-- `process.env`, the files, and what was logged. -/
structure EnvWorld where
  env : JsMap JsString JsString
  disk : EnvDisk
  log : List LogCall

namespace EnvWorld

def tell (level : LogLevel) (message : JsString) (world : EnvWorld) : EnvWorld :=
  { world with log := world.log ++ [⟨level, js "env", message⟩] }

/-- `(st.mode & 0o077) !== 0`: others may read the file. -/
def exposed (mode : ℕ) : Bool := mode &&& 0o077 ≠ 0

/-- The permissions of a file that is about to be read. -/
def tighten (path : JsString) (node : EnvNode) (world : EnvWorld) : EnvWorld :=
  if node.mode.any exposed && node.chmod then
    { world with disk := world.disk.set path { node with mode := some 0o600 } }.tell .info
      (js "tightened permissions on " ++ path ++ js " → 0600")
  else world

/-- What `process.env` inherits from `Object.prototype`. -/
def inherited : List JsString :=
  [js "constructor", js "__defineGetter__", js "__defineSetter__", js "hasOwnProperty",
    js "__lookupGetter__", js "__lookupSetter__", js "isPrototypeOf", js "propertyIsEnumerable",
    js "toString", js "valueOf", js "__proto__", js "toLocaleString"]

/-- `process.env[k] !== undefined`, which holds for an inherited name too. -/
def isSet (env : JsMap JsString JsString) (key : JsString) : Bool :=
  env.has key || decide (key ∈ inherited)

/-- The body of the loop over the variables of a file. -/
def loadVariable (state : JsMap JsString JsString × List JsString × List JsString)
    (entry : JsString × JsString) : JsMap JsString JsString × List JsString × List JsString :=
  if isSet state.1 entry.1 then (state.1, state.2.1, state.2.2 ++ [entry.1])
  else (state.1.set entry.1 entry.2, state.2.1 ++ [entry.1], state.2.2)

/-- The line for the log. -/
def summary (result : EnvLoadResult) : JsString :=
  let names := (js ", ").intercalate
  js "loaded " ++ Json.decimal result.loaded.length ++ js " vars from " ++ result.path ++
    (if 0 < result.loaded.length then js " (" ++ names result.loaded ++ js ")" else []) ++
    if 0 < result.skippedAlreadySet.length then
      js " — skipped " ++ Json.decimal result.skippedAlreadySet.length ++
        js " already in shell env (" ++ names result.skippedAlreadySet ++ js ")"
    else []

/-- The variables of the file that was read. -/
def fill (path content : JsString) (world : EnvWorld) : EnvLoadResult × EnvWorld :=
  let filled := (parseEnvFile content).entries.foldl loadVariable (world.env, [], [])
  let result : EnvLoadResult := ⟨path, filled.2.1, filled.2.2⟩
  (result, { world with env := filled.1 }.tell .info (summary result))

/-- The loop over the candidates. -/
def loadFrom : List JsString → EnvWorld → Option EnvLoadResult × EnvWorld
  | [], world => (none, world)
  | path :: rest, world =>
    match world.disk.get path with
    | none => loadFrom rest world
    | some node =>
      match node.content with
      | .error message => loadFrom rest ((world.tighten path node).tell .warn
          (js "failed to read " ++ path ++ js ": " ++ message))
      | .ok content => (fill path content (world.tighten path node)).map some id

/-- The candidates: `$CORDY_ENV_FILE` unless it is empty, the project's file, the user's. -/
def candidates (cwd home : JsString) (world : EnvWorld) : List JsString :=
  ((world.env.get (js "CORDY_ENV_FILE")).filter (· ≠ [])).toList ++
    [PosixPath.join [cwd, js ".cordyceps", js "env"], PosixPath.join [home, js ".cordyceps", js "env"]]

/-- `loadEnvFile`. -/
def loadEnvFile (cwd home : JsString) (world : EnvWorld) : Option EnvLoadResult × EnvWorld :=
  loadFrom (world.candidates cwd home) world

/-- The first candidate that is there and can be read, with its text. -/
def chosen (disk : EnvDisk) : List JsString → Option (JsString × JsString)
  | [] => none
  | path :: rest =>
    match (disk.get path).bind fun node ↦ node.content.toOption with
    | some content => some (path, content)
    | none => chosen disk rest

/-! ## Filling gaps -/

variable {world : EnvWorld}

theorem isSet_set_of_ne {env : JsMap JsString JsString} {key other : JsString} (h : other ≠ key)
    (value : JsString) : isSet (env.set key value) other = isSet env other := by
  rw [isSet, isSet, JsMap.has, JsMap.has, JsMap.get_set, if_neg h]

/-- The variables of a file go where nothing is. -/
theorem foldl_loadVariable (entries : List (JsString × JsString)) (env : JsMap JsString JsString)
    (loaded skipped : List JsString) (h : (entries.map Prod.fst).Nodup) :
    entries.foldl loadVariable (env, loaded, skipped) =
      (env.setAll (entries.filter fun entry ↦ !isSet env entry.1),
        loaded ++ (entries.map Prod.fst).filter (fun key ↦ !isSet env key),
        skipped ++ (entries.map Prod.fst).filter (isSet env)) := by
  induction entries generalizing env loaded skipped with
  | nil => simp [JsMap.setAll]
  | cons entry rest ih =>
    obtain ⟨hfresh, hrest⟩ := List.nodup_cons.mp h
    rw [List.foldl_cons, loadVariable]
    cases hset : isSet env entry.1 with
    | true =>
      simp only [if_true, ih env loaded _ hrest]
      simp [hset]
    | false =>
      have hother : ∀ key ∈ rest.map Prod.fst,
          isSet (env.set entry.1 entry.2) key = isSet env key := by
        intro key hkey
        have hne : key ≠ entry.1 := fun heq ↦ hfresh (heq ▸ hkey)
        exact isSet_set_of_ne hne entry.2
      have hentries : (rest.filter fun other ↦ !isSet (env.set entry.1 entry.2) other.1) =
          rest.filter fun other ↦ !isSet env other.1 :=
        List.filter_congr fun other hmem ↦ by rw [hother other.1 (List.mem_map_of_mem hmem)]
      have hmissing : ((rest.map Prod.fst).filter fun key ↦ !isSet (env.set entry.1 entry.2) key) =
          (rest.map Prod.fst).filter fun key ↦ !isSet env key :=
        List.filter_congr fun key hkey ↦ by rw [hother key hkey]
      have hpresent : (rest.map Prod.fst).filter (isSet (env.set entry.1 entry.2)) =
          (rest.map Prod.fst).filter (isSet env) :=
        List.filter_congr hother
      simp only [Bool.false_eq_true, if_false, ih _ _ skipped hrest, hentries, hmissing, hpresent]
      simp [hset, JsMap.setAll]

/-- The environment wins, and what it inherits is not set. -/
theorem get_filled (env parsed : JsMap JsString JsString) (key : JsString) :
    (env.setAll (parsed.entries.filter fun entry ↦ !isSet env entry.1)).get key =
      (env.get key).or (if key ∈ inherited then none else parsed.get key) := by
  rw [JsMap.get_setAll]
  have hnodup : ((parsed.entries.filter fun entry ↦ !isSet env entry.1).map Prod.fst).Nodup :=
    parsed.nodup.sublist (List.filter_sublist.map _)
  have hwritten : ∀ value, JsMap.lastWrite (parsed.entries.filter fun entry ↦ !isSet env entry.1) key =
      some value ↔ parsed.get key = some value ∧ isSet env key = false := by
    intro value
    rw [JsMap.lastWrite_of_nodup hnodup, List.mem_filter, JsMap.get_eq_some_iff,
      Bool.not_eq_true']
  have hunwritten (hset : isSet env key = true) :
      JsMap.lastWrite (parsed.entries.filter fun entry ↦ !isSet env entry.1) key = none :=
    Option.eq_none_iff_forall_not_mem.mpr fun value hmem ↦
      Bool.false_ne_true (((hwritten value).mp hmem).2.symm.trans hset)
  cases hget : env.get key with
  | some old =>
    have hset : isSet env key = true := by rw [isSet, JsMap.has_of_get hget, Bool.true_or]
    rw [hunwritten hset, Option.none_or, Option.some_or]
  | none =>
    have hset : isSet env key = decide (key ∈ inherited) := by
      rw [isSet, JsMap.has, hget]
      rfl
    rw [Option.or_none, Option.none_or]
    split
    · rename_i hinherited
      exact hunwritten (hset.trans (decide_eq_true hinherited))
    · rename_i hown
      ext value
      exact (hwritten value).trans (and_iff_left (hset.trans (decide_eq_false hown)))

/-- The variables that a text assigns, in the order of the parser's map. -/
def keysOf (content : JsString) : List JsString := (parseEnvFile content).entries.map Prod.fst

/-- What the caller learns of the file that was read. -/
def resultOf (env : JsMap JsString JsString) (path content : JsString) : EnvLoadResult where
  path := path
  loaded := (keysOf content).filter fun key ↦ !isSet env key
  skippedAlreadySet := (keysOf content).filter (isSet env)

theorem fill_eq (path content : JsString) (world : EnvWorld) :
    fill path content world = (resultOf world.env path content,
      { world with
        env := world.env.setAll ((parseEnvFile content).entries.filter fun entry ↦
          !isSet world.env entry.1) }.tell .info (summary (resultOf world.env path content))) := by
  rw [fill, foldl_loadVariable _ _ _ _ (parseEnvFile content).nodup]
  simp only [List.nil_append]
  rfl

@[simp]
theorem env_tell (level : LogLevel) (message : JsString) :
    (world.tell level message).env = world.env := rfl

@[simp]
theorem disk_tell (level : LogLevel) (message : JsString) :
    (world.tell level message).disk = world.disk := rfl

@[simp]
theorem env_tighten (path : JsString) (node : EnvNode) :
    (world.tighten path node).env = world.env := by
  unfold tighten
  split <;> rfl

/-- The permissions of one file may change, and nothing else. -/
theorem get_tighten {path : JsString} {node : EnvNode} (h : world.disk.get path = some node)
    (name : JsString) : ∃ mode : ℕ → ℕ, (world.tighten path node).disk.get name =
      (world.disk.get name).map fun found ↦ { found with mode := found.mode.map mode } := by
  unfold tighten
  split
  · rename_i htightened
    rw [disk_tell, JsMap.get_set]
    by_cases hname : name = path
    · refine ⟨fun _ ↦ 0o600, ?_⟩
      rw [if_pos hname, hname, h]
      cases hmode : node.mode with
      | none => simp [hmode] at htightened
      | some mode => simp [hmode]
    · exact ⟨id, by simp [hname]⟩
  · exact ⟨id, by simp⟩

/-- The permissions do not decide which candidate is read. -/
theorem chosen_tighten {path : JsString} {node : EnvNode} (h : world.disk.get path = some node)
    (paths : List JsString) : chosen (world.tighten path node).disk paths = chosen world.disk paths := by
  induction paths with
  | nil => rfl
  | cons name rest ih =>
    obtain ⟨mode, hget⟩ := get_tighten h name
    rw [chosen, chosen, hget, ih]
    cases world.disk.get name <;> rfl

theorem loadFrom_of_none {path : JsString} (h : world.disk.get path = none) (rest : List JsString) :
    loadFrom (path :: rest) world = loadFrom rest world := by
  rw [loadFrom, h]

theorem loadFrom_of_error {path message : JsString} {node : EnvNode}
    (h : world.disk.get path = some node) (hcontent : node.content = .error message)
    (rest : List JsString) : loadFrom (path :: rest) world = loadFrom rest
      ((world.tighten path node).tell .warn (js "failed to read " ++ path ++ js ": " ++ message)) := by
  rw [loadFrom, h]
  simp only [hcontent]

theorem loadFrom_of_ok {path content : JsString} {node : EnvNode}
    (h : world.disk.get path = some node) (hcontent : node.content = .ok content)
    (rest : List JsString) : loadFrom (path :: rest) world =
      (some (resultOf world.env path content),
        { world.tighten path node with
          env := world.env.setAll ((parseEnvFile content).entries.filter fun entry ↦
            !isSet world.env entry.1) }.tell .info (summary (resultOf world.env path content))) := by
  rw [loadFrom, h]
  simp only [hcontent, fill_eq, env_tighten]
  rfl

theorem chosen_of_none {disk : EnvDisk} {path : JsString}
    (h : (disk.get path).bind (fun node ↦ node.content.toOption) = none) (rest : List JsString) :
    chosen disk (path :: rest) = chosen disk rest := by
  rw [chosen, h]

theorem chosen_of_some {disk : EnvDisk} {path content : JsString}
    (h : (disk.get path).bind (fun node ↦ node.content.toOption) = some content)
    (rest : List JsString) : chosen disk (path :: rest) = some (path, content) := by
  rw [chosen, h]

/-- The loop reads the first candidate that it can. -/
theorem loadFrom_spec (paths : List JsString) (world : EnvWorld) :
    (loadFrom paths world).1 = (chosen world.disk paths).map
        (fun found ↦ resultOf world.env found.1 found.2) ∧
      ∀ key, (loadFrom paths world).2.env.get key = (world.env.get key).or
        (if key ∈ inherited then none
          else (chosen world.disk paths).bind fun found ↦ (parseEnvFile found.2).get key) := by
  induction paths generalizing world with
  | nil => exact ⟨rfl, fun key ↦ by rw [chosen, Option.bind_none, ite_self, Option.or_none, loadFrom]⟩
  | cons path rest ih =>
    cases hnode : world.disk.get path with
    | none =>
      rw [loadFrom_of_none hnode, chosen_of_none (by rw [hnode]; rfl)]
      exact ih world
    | some node =>
      cases hcontent : node.content with
      | error message =>
        have hnone : (world.disk.get path).bind (fun node ↦ node.content.toOption) = none := by
          rw [hnode, Option.bind_some, hcontent]
          rfl
        have hrest := ih ((world.tighten path node).tell .warn
          (js "failed to read " ++ path ++ js ": " ++ message))
        simp only [env_tell, env_tighten, disk_tell, chosen_tighten hnode] at hrest
        rw [loadFrom_of_error hnode hcontent, chosen_of_none hnone]
        exact hrest
      | ok content =>
        have hsome : (world.disk.get path).bind (fun node ↦ node.content.toOption) = some content := by
          rw [hnode, Option.bind_some, hcontent]
          rfl
        rw [loadFrom_of_ok hnode hcontent, chosen_of_some hsome]
        exact ⟨rfl, fun key ↦ get_filled world.env (parseEnvFile content) key⟩

theorem get_of_announced {file : EnvFile} (h : ∀ key assignment,
    file.lastAssignment key = some assignment → assignment.Announced) (key : JsString) :
    (parseEnvFile file.text).get key = file.denoted key := by
  rw [EnvFile.get_parseEnvFile, EnvFile.denoted]
  cases hlast : file.lastAssignment key with
  | none => rfl
  | some assignment =>
    rw [Option.map_some, Option.map_some,
      assignment.readValue_valueText_iff.mpr (h key assignment hlast)]

theorem mem_keysOf {content key : JsString} :
    key ∈ keysOf content ↔ ((parseEnvFile content).get key).isSome = true :=
  JsMap.has_iff.symm

/-- If the first readable candidate is a file of the documented form, each variable has the value
that it had, or else the one that the file denotes; the caller is told which were set and which were
there. An inherited name counts as there. -/
theorem loaded_denoted {cwd home path : JsString} {world : EnvWorld} {file : EnvFile}
    (hchosen : chosen world.disk (world.candidates cwd home) = some (path, file.text))
    (hannounced : ∀ key assignment, file.lastAssignment key = some assignment →
      assignment.Announced) :
    (∀ key, (loadEnvFile cwd home world).2.env.get key =
      (world.env.get key).or (if key ∈ inherited then none else file.denoted key)) ∧
    ∃ result, (loadEnvFile cwd home world).1 = some result ∧ result.path = path ∧
      (∀ key, key ∈ result.loaded ↔
        (file.denoted key).isSome = true ∧ isSet world.env key = false) ∧
      ∀ key, key ∈ result.skippedAlreadySet ↔
        (file.denoted key).isSome = true ∧ isSet world.env key = true := by
  obtain ⟨hresult, henv⟩ := loadFrom_spec (world.candidates cwd home) world
  rw [hchosen, Option.map_some] at hresult
  refine ⟨fun key ↦ ?_, _, hresult, rfl, fun key ↦ ?_, fun key ↦ ?_⟩
  · rw [loadEnvFile, henv, hchosen, Option.bind_some, get_of_announced hannounced]
  · rw [resultOf, List.mem_filter, mem_keysOf, get_of_announced hannounced, Bool.not_eq_true']
  · rw [resultOf, List.mem_filter, mem_keysOf, get_of_announced hannounced]

theorem isBlank_nil : IsBlank [] := List.forall_mem_nil _

/-- `export B='two words'`. -/
def quoted : EnvAssignment where
  lead := []
  exported := some (js " ")
  key := js "B"
  value := .singleQuoted (js "two words") (List.all_eq_true.mp rfl) (by decide)
  blanks := []
  comment := none
  lead_blank := isBlank_nil
  exported_blank := by
    rintro gap ⟨⟩
    exact ⟨List.cons_ne_nil _ _, List.forall_mem_singleton.mpr ⟨rfl, rfl⟩⟩
  key_identifier := ⟨0x42, [], rfl, rfl, List.forall_mem_nil _⟩
  key_ordinary := by decide
  blanks_blank := isBlank_nil
  comment_plain := by
    intro text htext
    cases htext
  comment_apart := by
    intro _ hcomment
    cases hcomment

/-- `export toString='two words'`. -/
def quotedInherited : EnvAssignment :=
  { quoted with
    key := js "toString"
    key_identifier := ⟨0x74, js "oString", rfl, rfl, List.all_eq_true.mp rfl⟩
    key_ordinary := by decide }

theorem quoted_announced : quoted.Announced := fun hword ↦
  absurd hword Bool.false_ne_true

theorem quotedInherited_announced : quotedInherited.Announced := fun hword ↦
  absurd hword Bool.false_ne_true

/-- Both, one a line. -/
def twoLines : EnvFile := ⟨[(.assignment quotedInherited, .lf)], .assignment quoted⟩

/-- The shell has another variable, and the project has the file. -/
def projectWorld : EnvWorld where
  env := JsMap.empty.set (js "A") (js "shell")
  disk := JsMap.empty.set (js "/w/.cordyceps/env") ⟨.ok twoLines.text, some 0o644, true⟩
  log := []

theorem loaded_denoted_twoLines :
    (∀ key, (loadEnvFile (js "/w") (js "/h") projectWorld).2.env.get key =
      (projectWorld.env.get key).or (if key ∈ inherited then none else twoLines.denoted key)) ∧
    ∃ result, (loadEnvFile (js "/w") (js "/h") projectWorld).1 = some result ∧
      result.path = js "/w/.cordyceps/env" ∧
      (∀ key, key ∈ result.loaded ↔
        (twoLines.denoted key).isSome = true ∧ isSet projectWorld.env key = false) ∧
      ∀ key, key ∈ result.skippedAlreadySet ↔
        (twoLines.denoted key).isSome = true ∧ isSet projectWorld.env key = true := by
  refine loaded_denoted (by decide +kernel) fun key assignment hlast ↦ ?_
  have hlines : twoLines.lastAssignment key =
      if key = js "B" then some quoted
      else if key = js "toString" then some quotedInherited else none := by
    rw [EnvFile.lastAssignment]
    exact (JsMap.lastWrite_concat [(quotedInherited.key, quotedInherited)] (quoted.key, quoted) key).trans
      (congrArg _ (JsMap.lastWrite_concat [] (quotedInherited.key, quotedInherited) key))
  rw [hlines] at hlast
  split at hlast
  · cases hlast
    exact quoted_announced
  · obtain ⟨_, hinherited⟩ := Option.ite_none_right_eq_some.mp hlast
    cases hinherited
    exact quotedInherited_announced

/-! ## What is told -/

/-- What the loader may tell of a file. -/
def told (node : EnvNode) : Except JsString (List JsString) × Option ℕ × Bool :=
  (node.content.map keysOf, node.mode, node.chmod)

/-- Two worlds that differ in the values of variables alone. -/
structure Alike (first second : EnvWorld) : Prop where
  vars : ∀ key, first.env.has key = second.env.has key
  nodes : ∀ path, (first.disk.get path).map told = (second.disk.get path).map told
  log : first.log = second.log

namespace Alike

variable {first second : EnvWorld}

theorem tell (h : Alike first second) (level : LogLevel) (message : JsString) :
    Alike (first.tell level message) (second.tell level message) where
  vars := h.vars
  nodes := h.nodes
  log := by
    rw [EnvWorld.tell, EnvWorld.tell, h.log]

theorem withEnv (h : Alike first second) {env env' : JsMap JsString JsString}
    (hvars : ∀ key, env.has key = env'.has key) :
    Alike { first with env := env } { second with env := env' } := ⟨hvars, h.nodes, h.log⟩

theorem withDisk (h : Alike first second) {disk disk' : EnvDisk}
    (hnodes : ∀ path, (disk.get path).map told = (disk'.get path).map told) :
    Alike { first with disk := disk } { second with disk := disk' } := ⟨h.vars, hnodes, h.log⟩

theorem resultOf (h : Alike first second) {path content content' : JsString}
    (hkeys : keysOf content = keysOf content') :
    EnvWorld.resultOf first.env path content = EnvWorld.resultOf second.env path content' := by
  have hvars : isSet first.env = isSet second.env := by
    funext key
    rw [isSet, isSet, h.vars key]
  rw [EnvWorld.resultOf, EnvWorld.resultOf, hkeys, hvars]

theorem tighten (h : Alike first second) (path : JsString) {node node' : EnvNode}
    (hnode : told node = told node') :
    Alike (first.tighten path node) (second.tighten path node') := by
  obtain ⟨hcontent, hmode, hchmod⟩ : node.content.map keysOf = node'.content.map keysOf ∧
      node.mode = node'.mode ∧ node.chmod = node'.chmod := by
    simpa [told, Prod.ext_iff] using hnode
  unfold EnvWorld.tighten
  rw [hmode, hchmod]
  split
  · apply tell
    apply h.withDisk
    intro name
    rw [JsMap.get_set, JsMap.get_set]
    split
    · rw [Option.map_some, Option.map_some, told, told, hcontent]
    · exact h.nodes name
  · exact h

theorem fill (h : Alike first second) {content content' : JsString}
    (hkeys : keysOf content = keysOf content') (message : JsString) :
    Alike
      ({ first with env := first.env.setAll ((parseEnvFile content).entries.filter fun entry ↦
        !isSet first.env entry.1) }.tell .info message)
      ({ second with env := second.env.setAll ((parseEnvFile content').entries.filter fun entry ↦
        !isSet second.env entry.1) }.tell .info message) := by
  apply tell
  apply h.withEnv
  intro key
  have hparsed : ((parseEnvFile content).get key).isSome = ((parseEnvFile content').get key).isSome := by
    rw [Bool.eq_iff_iff, ← mem_keysOf, ← mem_keysOf, hkeys]
  have hvar : (first.env.get key).isSome = (second.env.get key).isSome := h.vars key
  rw [JsMap.has, JsMap.has, get_filled, get_filled, Option.isSome_or, Option.isSome_or, hvar]
  split
  · rfl
  · rw [hparsed]

/-- Files that are told alike are read alike. -/
theorem loadFrom (h : Alike first second) (paths : List JsString) :
    (EnvWorld.loadFrom paths first).1 = (EnvWorld.loadFrom paths second).1 ∧
      Alike (EnvWorld.loadFrom paths first).2 (EnvWorld.loadFrom paths second).2 := by
  induction paths generalizing first second with
  | nil => exact ⟨rfl, h⟩
  | cons path rest ih =>
    have hnodes := h.nodes path
    cases hnode : first.disk.get path with
    | none =>
      have hnode' : second.disk.get path = none := by
        rw [hnode, Option.map_none] at hnodes
        exact Option.map_eq_none_iff.mp hnodes.symm
      rw [loadFrom_of_none hnode, loadFrom_of_none hnode']
      exact ih h
    | some node =>
      rw [hnode, Option.map_some] at hnodes
      obtain ⟨node', hnode', htold⟩ := Option.map_eq_some_iff.mp hnodes.symm
      have htightened := h.tighten path htold.symm
      have hcontents : node.content.map keysOf = node'.content.map keysOf :=
        congrArg Prod.fst htold.symm
      cases hcontent : node.content with
      | error message =>
        cases hcontent' : node'.content with
        | ok content' =>
          rw [hcontent, hcontent'] at hcontents
          cases hcontents
        | error message' =>
          rw [hcontent, hcontent'] at hcontents
          obtain rfl : message = message' := Except.error.inj hcontents
          rw [loadFrom_of_error hnode hcontent, loadFrom_of_error hnode' hcontent']
          exact ih (htightened.tell _ _)
      | ok content =>
        cases hcontent' : node'.content with
        | error message' =>
          rw [hcontent, hcontent'] at hcontents
          cases hcontents
        | ok content' =>
          rw [hcontent, hcontent'] at hcontents
          have hkeys : keysOf content = keysOf content' := Except.ok.inj hcontents
          have hfilled := htightened.fill hkeys (summary (EnvWorld.resultOf first.env path content))
          rw [loadFrom_of_ok hnode hcontent, loadFrom_of_ok hnode' hcontent', h.resultOf hkeys]
          rw [h.resultOf hkeys, env_tighten, env_tighten] at hfilled
          exact ⟨rfl, hfilled⟩

end Alike

end EnvWorld

end Cordyceps.Core
