import Cordyceps.Foundations.JsMap
import Cordyceps.Foundations.JsonRoundTrip
import Cordyceps.Foundations.StepMachine

/-!
# The instances directory

`daemon/instances.ts`. Daemons announce themselves by a file, `${pid}.json`, which they write under
another name and rename; clients list the directory and remove what they take for stale. Each is a
sequence of calls of the file system, and those of other processes may come between any two.
-/

namespace Cordyceps.Daemon

open Foundations

structure InstanceRecord where
  pid : ℕ
  url : JsString
  token : JsString
  port : ℕ
  startedAt : JsString
  version : JsString
  deriving DecidableEq

namespace InstanceRecord

def toJson (record : InstanceRecord) : Json :=
  .obj [
    (js "pid", .num record.pid),
    (js "url", .str record.url),
    (js "token", .str record.token),
    (js "port", .num record.port),
    (js "startedAt", .str record.startedAt),
    (js "version", .str record.version)]

/-- `JSON.stringify(record, null, 2)`. -/
def text (record : InstanceRecord) : JsString := Json.stringifyIndented 0 record.toJson

end InstanceRecord

/-- `${pid}.json`. -/
def instanceFile (pid : ℕ) : JsString := Json.decimal pid ++ js ".json"

/-- `${path}.tmp.${process.pid}`. -/
def temporaryFile (pid : ℕ) : JsString := instanceFile pid ++ js ".tmp." ++ Json.decimal pid

/-- `isPidAlive`: signal 0 reaches the process. No process has a pid that is no positive integer. -/
def isPidAlive (alive : ℕ → Bool) : Option Json → Bool
  | some (.num value) => 0 < value && value.den = 1 && alive value.num.toNat
  | _ => false

/-- How far a process is in `writeInstance`. -/
inductive Announcement
  | silent
  | writing (record : InstanceRecord)
  | written (record : InstanceRecord)
  | published (record : InstanceRecord)
  deriving DecidableEq

/-- How far a client is in `listInstances`: the names it has not looked at, and its results. -/
inductive Listing
  | idle
  | listing (names : List JsString) (records : List Json)
  | probing (name : JsString) (record : Json) (names : List JsString) (records : List Json)
  | unlinking (name : JsString) (names : List JsString) (records : List Json)
  | returned (records : List Json)
  deriving DecidableEq

/-- The directory, the processes and the clients. `announced` observes the records that were renamed
to their place. -/
structure Instances where
  files : JsMap JsString JsString
  alive : ℕ → Bool
  daemons : ℕ → Announcement
  clients : ℕ → Listing
  announced : List InstanceRecord

inductive InstancesEvent
  | spawn (pid : ℕ)
  | die (pid : ℕ)
  /-- A part of the temporary file is written. -/
  | write (record : InstanceRecord) (length : ℕ)
  | finish (pid : ℕ)
  | rename (pid : ℕ)
  | removeInstance (pid : ℕ)
  /-- `readdirSync`, whatever the order of the names. -/
  | readdir (client : ℕ) (names : List JsString)
  /-- The next call of a listing, which may fail. -/
  | call (client : ℕ) (fails : Bool)

namespace Instances

def announce (pid : ℕ) (announcement : Announcement) (state : Instances) : Instances :=
  { state with daemons := Function.update state.daemons pid announcement }

def enter (client : ℕ) (listing : Listing) (state : Instances) : Instances :=
  { state with clients := Function.update state.clients client listing }

/-- `writeFileSync` of the temporary file, in parts; what is there before is cut off. -/
def write (record : InstanceRecord) (length : ℕ) (state : Instances) : Instances :=
  { state.announce record.pid (.writing record) with
    files := state.files.set (temporaryFile record.pid) (record.text.take length) }

def finish (record : InstanceRecord) (state : Instances) : Instances :=
  { state.announce record.pid (.written record) with
    files := state.files.set (temporaryFile record.pid) record.text }

/-- `renameSync(tmp, path)`. -/
def rename (record : InstanceRecord) (content : JsString) (state : Instances) : Instances :=
  { state.announce record.pid (.published record) with
    files := (state.files.set (instanceFile record.pid) content).delete (temporaryFile record.pid)
    announced := state.announced ++ [record] }

def removeInstance (pid : ℕ) (state : Instances) : Instances :=
  { state.announce pid .silent with files := state.files.delete (instanceFile pid) }

/-- What `JSON.parse(raw)` and the access to `pid` lead to. -/
def examine (name raw : JsString) (names : List JsString) (records : List Json) : Listing :=
  match Json.parse raw with
  | none | some .null => .unlinking name names records
  | some record => .probing name record names records

/-- The next call of `listInstances`. -/
def callListing (client : ℕ) (fails : Bool) (state : Instances) : Option Instances :=
  match state.clients client with
  | .idle | .returned _ => none
  | .listing [] records => some (state.enter client (.returned records))
  | .listing (name :: names) records =>
    if !JsString.endsWith name (js ".json") then some (state.enter client (.listing names records))
    else
      match if fails then none else state.files.get name with
      | none => some (state.enter client (.unlinking name names records))
      | some raw => some (state.enter client (examine name raw names records))
  | .probing name record names records =>
    if isPidAlive state.alive (record.field (js "pid")) then
      some (state.enter client (.listing names (records ++ [record])))
    else some (state.enter client (.unlinking name names records))
  | .unlinking name names records =>
    some { state.enter client (.listing names records) with
      files := if fails then state.files else state.files.delete name }

def step (state : Instances) : InstancesEvent → Option Instances
  | .spawn pid =>
    if pid = 0 || state.alive pid then none
    else some { state with alive := Function.update state.alive pid true }
  | .die pid =>
    some { state.announce pid .silent with alive := Function.update state.alive pid false }
  | .write record length =>
    if state.alive record.pid then
      match state.daemons record.pid with
      | .silent => some (state.write record length)
      | .writing begun => if begun = record then some (state.write record length) else none
      | _ => none
    else none
  | .finish pid =>
    match state.daemons pid with
    | .writing record => some (state.finish record)
    | _ => none
  | .rename pid =>
    match state.daemons pid with
    | .written record =>
      (state.files.get (temporaryFile pid)).map fun content ↦ state.rename record content
    | _ => none
  | .removeInstance pid => if state.alive pid then some (state.removeInstance pid) else none
  | .readdir client names =>
    match state.clients client with
    | .idle | .returned _ =>
      if names.Perm (state.files.entries.map Prod.fst) then
        some (state.enter client (.listing names []))
      else none
    | _ => none
  | .call client fails => state.callListing client fails

/-- No process has been started and the directory is empty. -/
def start : Instances :=
  ⟨.empty, fun _ ↦ false, fun _ ↦ .silent, fun _ ↦ .idle, []⟩

end Instances

/-- `findLatestInstance`: the first of the records, the later ones first. -/
def findLatestInstance (localeCompare : JsString → JsString → Ordering)
    (records : List InstanceRecord) : Option InstanceRecord :=
  (records.mergeSort fun first second ↦
    (localeCompare second.startedAt first.startedAt).isLE).head?

/-! ## Names and texts -/

theorem instanceFile_inj {first second : ℕ} :
    instanceFile first = instanceFile second ↔ first = second := by
  rw [instanceFile, instanceFile, List.append_left_inj, Json.decimal_inj]

theorem endsWith_instanceFile (pid : ℕ) : JsString.endsWith (instanceFile pid) (js ".json") = true :=
  List.isSuffixOf_iff_suffix.mpr (List.suffix_append ..)

/-- A listing passes over what is being written. -/
theorem endsWith_temporaryFile (pid : ℕ) :
    JsString.endsWith (temporaryFile pid) (js ".json") = false := by
  rw [Bool.eq_false_iff]
  intro hends
  obtain ⟨before, hsuffix⟩ := List.isSuffixOf_iff_suffix.mp hends
  have hlast : (temporaryFile pid).getLast? = some 0x6E := by
    rw [← hsuffix, List.getLast?_append]
    rfl
  rw [temporaryFile, List.getLast?_append_of_ne_nil _ (Json.decimal_ne_nil pid)] at hlast
  have hdigit := Json.isDigit_of_mem_decimal (List.mem_of_mem_getLast? hlast)
  exact absurd hdigit (by decide)

theorem instanceFile_ne_temporaryFile (pid other : ℕ) : instanceFile pid ≠ temporaryFile other := by
  intro h
  have hends := endsWith_instanceFile pid
  rw [h, endsWith_temporaryFile] at hends
  cases hends

theorem temporaryFile_inj {first second : ℕ} :
    temporaryFile first = temporaryFile second ↔ first = second := by
  refine ⟨fun h ↦ ?_, fun h ↦ by rw [h]⟩
  have hdot : ∀ pid, temporaryFile pid =
      Json.decimal pid ++ 0x2E :: (js "json.tmp." ++ Json.decimal pid) := by
    intro pid
    simp [temporaryFile, instanceFile, js]
  rw [hdot, hdot] at h
  exact (Json.decimal_append_inj (by decide) h).1

theorem InstanceRecord.exact_toJson (record : InstanceRecord) : Json.Exact record.toJson := by
  have hpid := Json.decimalFraction_natCast 400 record.pid
  have hport := Json.decimalFraction_natCast 400 record.port
  refine ⟨?_, hpid, trivial, trivial, hport, trivial, trivial, trivial⟩
  simp only [List.map_cons, List.map_nil]
  decide

/-- A file that is whole is read back. -/
theorem InstanceRecord.parse_text (record : InstanceRecord) :
    Json.parse record.text = some record.toJson :=
  Json.parse_stringifyIndented record.exact_toJson

theorem InstanceRecord.toJson_injective : Function.Injective InstanceRecord.toJson := by
  intro first second h
  cases first
  cases second
  simpa [toJson] using h

theorem isPidAlive_toJson (alive : ℕ → Bool) (record : InstanceRecord) :
    isPidAlive alive (record.toJson.field (js "pid")) = (decide (0 < record.pid) && alive record.pid) := by
  have hfield : record.toJson.field (js "pid") = some (.num record.pid) := rfl
  rw [hfield, isPidAlive]
  simp

/-- The latest record is not older than any. -/
theorem findLatestInstance_isLE (localeCompare : JsString → JsString → Ordering)
    [Std.TransCmp localeCompare] {records : List InstanceRecord} {record : InstanceRecord}
    (h : record ∈ records) :
    ∃ latest ∈ records, findLatestInstance localeCompare records = some latest ∧
      (localeCompare record.startedAt latest.startedAt).isLE = true := by
  let later (first second : InstanceRecord) : Bool :=
    (localeCompare second.startedAt first.startedAt).isLE
  have htotal : ∀ first second, (later first second || later second first) = true := by
    intro first second
    have hswap := @Std.OrientedCmp.eq_swap _ localeCompare _ first.startedAt second.startedAt
    simp only [later, hswap]
    cases localeCompare second.startedAt first.startedAt <;> rfl
  have hsorted := @List.pairwise_mergeSort _ later
    (fun _ _ _ hfirst hsecond ↦ Std.TransCmp.isLE_trans hsecond hfirst) htotal records
  have hmem : ∀ other, other ∈ records.mergeSort later ↔ other ∈ records :=
    fun other ↦ List.mem_mergeSort
  change ∃ latest ∈ records, (records.mergeSort later).head? = some latest ∧ _
  cases hlist : records.mergeSort later with
  | nil =>
    rw [← hmem, hlist] at h
    cases h
  | cons latest rest =>
    rw [hlist] at hsorted
    refine ⟨latest, (hmem latest).mp (hlist ▸ List.mem_cons_self), rfl, ?_⟩
    rw [← hmem, hlist] at h
    obtain rfl | hrest := List.mem_cons.mp h
    · have hself := htotal record record
      rwa [Bool.or_self] at hself
    · exact (List.pairwise_cons.mp hsorted).1 record hrest

end Cordyceps.Daemon
