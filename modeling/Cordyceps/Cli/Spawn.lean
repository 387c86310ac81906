import Cordyceps.Transport.Rpc
import Cordyceps.Foundations.JsMap
import Cordyceps.Foundations.Delimiters

/-!
# `cordy spawn`

The argument loop of `runSpawn` in `cli/commands/spawn.ts`, and the parameters of the
`agents.spawn` call that it makes. An option `--key=value` is split at every `=`, and the
first two pieces are kept: a profile gets the value up to its own first `=`.
-/

namespace Cordyceps.Cli

open Foundations Cordyceps.Transport

def equalsSign : CodeUnit := 0x3D

/-! ## The argument loop -/

/-- The variables that `runSpawn` fills from its arguments. -/
structure SpawnOptions where
  id : Option JsString
  cwd : Option JsString
  profile : JsMap JsString Json

namespace SpawnOptions

def initial : SpawnOptions := ⟨none, none, .empty⟩

/-- `profile[key] = value`, for a value that is no object: the setter of `__proto__` ignores it. -/
def assign (key : JsString) (value : Json) (options : SpawnOptions) : SpawnOptions :=
  if key = js "__proto__" then options
  else { options with profile := options.profile.set key value }

/-- `const [k, v] = text.split("=", 2); profile[k] = v`, where the text has an `=`. -/
def assignSplit (text : JsString) (options : SpawnOptions) : SpawnOptions :=
  match (text.splitOn equalsSign).take 2 with
  | key :: value :: _ => options.assign key (.str value)
  | _ => options

/-- The body of the loop at an argument, with the argument behind it, and whether that one is
consumed: `args[++i]`. -/
def readArg (arg : JsString) (next : Option JsString) (options : SpawnOptions) :
    SpawnOptions × Bool :=
  -- as a condition a missing argument is the same as an empty one
  let value := next.getD []
  if arg = js "--name" && !value.isEmpty then ({ options with id := some value }, true)
  else if arg = js "--cwd" && !value.isEmpty then ({ options with cwd := some value }, true)
  else if arg = js "--profile" && !value.isEmpty then
    (options.assign (js "preset") (.str value), true)
  else if arg = js "--bare" then (options.assign (js "bare") (.bool true), false)
  else if JsString.startsWith arg (js "--") && JsString.includes arg (js "=") then
    (options.assignSplit (arg.drop 2), false)
  else if JsString.startsWith arg (js "--") && !value.isEmpty &&
      !JsString.startsWith value (js "--") then
    (options.assign (arg.drop 2) (.str value), true)
  else (options, false)

/-- The loop; the flag says that the first argument was consumed as a value. -/
def readArgs : Bool → List JsString → SpawnOptions → SpawnOptions
  | _, [], options => options
  | true, _ :: rest, options => readArgs false rest options
  | false, arg :: rest, options =>
    let read := options.readArg arg rest.head?
    readArgs read.2 rest read.1

end SpawnOptions

/-- `{ driverId, id, cwd: effectiveCwd, profile }`. -/
def spawnParams (driverId processCwd : JsString) (options : SpawnOptions) : Json :=
  jsonObject [(js "driverId", some (.str driverId)), (js "id", options.id.map Json.str),
    (js "cwd", some (.str (options.cwd.getD processCwd))),
    (js "profile", some (.obj options.profile.entries))]

/-- The parameters that `runSpawn` calls `agents.spawn` with; without arguments it prints its
usage. -/
def runSpawn (processCwd : JsString) : List JsString → Option Json
  | [] => none
  | driverId :: args => some (spawnParams driverId processCwd (.readArgs false args .initial))

/-- `profile[key]` in the parameters. -/
def sentProfile (params : Option Json) (key : JsString) : Option Json :=
  (params.bind (Json.field (js "profile"))).bind (Json.field key)

/-! ## Options with a value -/

/-- An option `--key=value`, for an ordinary key. -/
structure ProfileOption where
  key : JsString
  value : JsString
  key_ne_nil : key ≠ []
  key_plain : equalsSign ∉ key
  key_ordinary : key ≠ js "__proto__"

namespace ProfileOption

def argument (option : ProfileOption) : JsString :=
  js "--" ++ (option.key ++ equalsSign :: option.value)

/-- The key with the value as it was given. -/
def pair (option : ProfileOption) : JsString × JsString := (option.key, option.value)

/-- The key with the value up to its first `=`. -/
def cutPair (option : ProfileOption) : JsString × JsString :=
  (option.key, option.value.takeWhile (· != equalsSign))

end ProfileOption

theorem includes_equalsSign {text : JsString} (h : equalsSign ∈ text) :
    JsString.includes text (js "=") = true := by
  rw [JsString.includes_iff]
  exact (List.singleton_infix_iff _ _).mpr h

/-- The first piece of a text. -/
theorem head?_splitOn (sign : CodeUnit) (text : JsString) :
    ∃ rest, text.splitOn sign = text.takeWhile (· != sign) :: rest := by
  induction text with
  | nil => exact ⟨[], rfl⟩
  | cons unit text ih =>
    obtain ⟨rest, hrest⟩ := ih
    rw [List.splitOn_cons_eq_if_modifyHead, hrest]
    by_cases hunit : unit = sign
    · rw [if_pos (by simpa using hunit), List.takeWhile_cons_of_neg (by simpa using hunit)]
      exact ⟨_, rfl⟩
    · rw [if_neg (by simpa using hunit), List.takeWhile_cons_of_pos (by simpa using hunit)]
      exact ⟨rest, rfl⟩

namespace SpawnOptions

theorem assignSplit_pair (option : ProfileOption) (options : SpawnOptions) :
    options.assignSplit (option.key ++ equalsSign :: option.value) =
      options.assign option.key (.str option.cutPair.2) := by
  obtain ⟨rest, hrest⟩ := head?_splitOn equalsSign option.value
  rw [assignSplit, List.splitOn_append_cons_self_of_not_mem option.key_plain, hrest]
  rfl

/-- An option with a value is read by itself: whatever is behind it is not consumed. -/
theorem readArg_argument (option : ProfileOption) (next : Option JsString)
    (options : SpawnOptions) : options.readArg option.argument next =
      (options.assign option.key (.str option.cutPair.2), false) := by
  have hsign : equalsSign ∈ option.argument := by simp [ProfileOption.argument]
  have hother : ∀ {name : JsString}, equalsSign ∉ name → ¬ option.argument = name := by
    rintro name hname rfl
    exact hname hsign
  have hname : ¬ option.argument = js "--name" := hother (by decide)
  have hcwd : ¬ option.argument = js "--cwd" := hother (by decide)
  have hprofile : ¬ option.argument = js "--profile" := hother (by decide)
  have hbare : ¬ option.argument = js "--bare" := hother (by decide)
  have hdashes : JsString.startsWith option.argument (js "--") = true := by
    rw [JsString.startsWith, List.isPrefixOf_iff_prefix]
    exact List.prefix_append _ _
  have hdrop : option.argument.drop 2 = option.key ++ equalsSign :: option.value := rfl
  simp only [readArg, hname, hcwd, hprofile, hbare, hdashes, includes_equalsSign hsign, hdrop,
    assignSplit_pair, decide_false, Bool.false_and, Bool.false_eq_true, if_false, Bool.and_self,
    if_true]

/-- The loop over options with a value writes the cut values in order. -/
theorem readArgs_arguments (pairs : List ProfileOption) (options : SpawnOptions) :
    readArgs false (pairs.map ProfileOption.argument) options =
      { options with
        profile := options.profile.setAll
          ((pairs.map ProfileOption.cutPair).map fun pair ↦ (pair.1, Json.str pair.2)) } := by
  induction pairs generalizing options with
  | nil => rfl
  | cons option pairs ih =>
    rw [List.map_cons, readArgs, readArg_argument, assign, if_neg option.key_ordinary, ih]
    rfl

end SpawnOptions

theorem lookup_entries (map : JsMap JsString Json) (key : JsString) :
    Json.lookup key map.entries = map.get key := by
  rw [JsMap.get]
  induction map.entries with
  | nil => rfl
  | cons entry rest ih =>
    rw [Json.lookup, JsMap.lookup_cons_if, ih]
    exact if_congr eq_comm rfl rfl

theorem sentProfile_runSpawn (processCwd driverId : JsString) (args : List JsString)
    (key : JsString) : sentProfile (runSpawn processCwd (driverId :: args)) key =
      (SpawnOptions.readArgs false args .initial).profile.get key := by
  rw [← lookup_entries, sentProfile, runSpawn, spawnParams]
  cases (SpawnOptions.readArgs false args .initial).id <;> rfl

/-- What is sent for options with a value: the last one of each key, cut at its first `=`. -/
theorem sentProfile_arguments (processCwd driverId : JsString) (pairs : List ProfileOption)
    (key : JsString) :
    sentProfile (runSpawn processCwd (driverId :: pairs.map ProfileOption.argument)) key =
      ((JsMap.lastWrite (pairs.map ProfileOption.pair) key).map
        (List.takeWhile (· != equalsSign))).map Json.str := by
  have hcut : pairs.map ProfileOption.cutPair = (pairs.map ProfileOption.pair).map
      fun pair ↦ (pair.1, pair.2.takeWhile (· != equalsSign)) := by
    rw [List.map_map]
    rfl
  calc
    sentProfile (runSpawn processCwd (driverId :: pairs.map ProfileOption.argument)) key =
        (JsMap.empty.setAll ((pairs.map ProfileOption.cutPair).map
          fun pair ↦ (pair.1, Json.str pair.2))).get key := by
      rw [sentProfile_runSpawn, SpawnOptions.readArgs_arguments]
      rfl
    _ = (JsMap.lastWrite (pairs.map ProfileOption.cutPair) key).map Json.str := by
      rw [JsMap.get_setAll, JsMap.lastWrite_map Json.str]
      exact Option.or_none
    _ = _ := by rw [hcut, JsMap.lastWrite_map (List.takeWhile (· != equalsSign))]

/-- The profile that is sent maps every key to the value of its last option. -/
def OptionsSurvive (processCwd driverId : JsString) (pairs : List ProfileOption) : Prop :=
  ∀ key, sentProfile (runSpawn processCwd (driverId :: pairs.map ProfileOption.argument)) key =
    (JsMap.lastWrite (pairs.map ProfileOption.pair) key).map Json.str

/-- Exactly the values without an `=` survive. -/
theorem optionsSurvive_iff (processCwd driverId : JsString) (pairs : List ProfileOption) :
    OptionsSurvive processCwd driverId pairs ↔
      ∀ key value, JsMap.lastWrite (pairs.map ProfileOption.pair) key = some value →
        equalsSign ∉ value := by
  have hkey : ∀ key, sentProfile
      (runSpawn processCwd (driverId :: pairs.map ProfileOption.argument)) key =
        (JsMap.lastWrite (pairs.map ProfileOption.pair) key).map Json.str ↔
      ∀ value, JsMap.lastWrite (pairs.map ProfileOption.pair) key = some value →
        equalsSign ∉ value := by
    intro key
    rw [sentProfile_arguments]
    cases JsMap.lastWrite (pairs.map ProfileOption.pair) key with
    | none => simp
    | some value =>
      simp only [Option.map_some, Option.some.injEq, Json.str.injEq, List.takeWhile_eq_self_iff,
        bne_iff_ne, forall_eq']
      exact ⟨fun h hmem ↦ h _ hmem rfl, fun h unit hunit heq ↦ h (heq ▸ hunit)⟩
  exact forall_congr' hkey

/-- `cordy spawn claude --model=a=b` sends the model `a`. -/
theorem optionsSurvive_counterexample :
    ¬ OptionsSurvive (js "/") (js "claude")
      [⟨js "model", js "a=b", by decide, by decide, by decide⟩] := by
  intro h
  have hmodel := h (js "model")
  revert hmodel
  decide

end Cordyceps.Cli
