import Cordyceps.Daemon.Instances

/-!
# What clients learn of the daemons

A listing returns whole records only, whatever is being written meanwhile. The removal of stale
files can hit a record that is not stale: when a read fails for another reason, or when a process
announces itself under a pid whose former file is being removed. Where this does not happen, the
file of a running daemon stays, and a listing returns every daemon that runs while it lasts.
-/

namespace Cordyceps.Daemon.Instances

open Foundations Foundations.StepMachine

variable {state next : Instances}

/-! ## Only whole records -/

/-- The process is writing its record or has it in its place. -/
def Announces (record : InstanceRecord) (announcement : Announcement) : Prop :=
  announcement = .writing record ∨ announcement = .written record ∨ announcement = .published record

/-- The records were announced. -/
def Known (announced : List InstanceRecord) (records : List Json) : Prop :=
  ∀ value ∈ records, ∃ record ∈ announced, value = record.toJson

/-- All that a listing holds was announced, and a file has the name of its record. -/
def Truthful (announced : List InstanceRecord) : Listing → Prop
  | .idle => True
  | .listing _ records | .returned records => Known announced records
  | .unlinking name _ records =>
    JsString.endsWith name (js ".json") = true ∧ Known announced records
  | .probing name value _ records =>
    (∃ record ∈ announced, value = record.toJson ∧ name = instanceFile record.pid) ∧
      Known announced records

structure Lawful (state : Instances) : Prop where
  pid_pos : ∀ pid, state.alive pid = true → 0 < pid
  own : ∀ pid record, Announces record (state.daemons pid) → record.pid = pid ∧ state.alive pid = true
  temporary : ∀ pid record, state.daemons pid = .written record →
    state.files.get (temporaryFile pid) = some record.text
  whole : ∀ name content, state.files.get name = some content →
    JsString.endsWith name (js ".json") = true →
      ∃ record ∈ state.announced, name = instanceFile record.pid ∧ content = record.text
  truthful : ∀ client, Truthful state.announced (state.clients client)

theorem Known.mono {announced more : List InstanceRecord} {records : List Json}
    (h : Known announced records) : Known (announced ++ more) records := by
  intro value hvalue
  obtain ⟨record, hrecord, heq⟩ := h value hvalue
  exact ⟨record, List.mem_append_left _ hrecord, heq⟩

theorem Known.map {announced : List InstanceRecord} {records : List Json}
    (h : Known announced records) :
    ∃ found : List InstanceRecord,
      (∀ record ∈ found, record ∈ announced) ∧ records = found.map InstanceRecord.toJson := by
  induction records with
  | nil => exact ⟨[], fun _ hmem ↦ absurd hmem List.not_mem_nil, rfl⟩
  | cons value rest ih =>
    obtain ⟨record, hrecord, hvalue⟩ := h value List.mem_cons_self
    obtain ⟨found, hfound, hrest⟩ := ih fun value hmem ↦ h value (List.mem_cons_of_mem _ hmem)
    refine ⟨record :: found, ?_, by rw [hvalue, hrest, List.map_cons]⟩
    exact List.forall_mem_cons.mpr ⟨hrecord, hfound⟩

theorem Truthful.mono {announced more : List InstanceRecord} {listing : Listing}
    (h : Truthful announced listing) : Truthful (announced ++ more) listing := by
  cases listing with
  | idle => trivial
  | listing | returned => exact Known.mono h
  | unlinking => exact ⟨h.1, h.2.mono⟩
  | probing =>
    obtain ⟨⟨record, hrecord, heq⟩, hknown⟩ := h
    exact ⟨⟨record, List.mem_append_left _ hrecord, heq⟩, hknown.mono⟩

/-- A client goes on; only the files may change beside. -/
theorem Lawful.enter {client : ℕ} {listing : Listing} (h : Lawful state)
    (hlisting : Truthful state.announced listing) : Lawful (state.enter client listing) where
  pid_pos := h.pid_pos
  own := h.own
  temporary := h.temporary
  whole := h.whole
  truthful other := by
    change Truthful state.announced (Function.update state.clients client listing other)
    by_cases hother : other = client
    · rw [hother, Function.update_self]
      exact hlisting
    · rw [Function.update_of_ne hother]
      exact h.truthful other

/-- A file with a record's name is removed. -/
theorem Lawful.unlink {name : JsString} (h : Lawful state)
    (hname : JsString.endsWith name (js ".json") = true) :
    Lawful { state with files := state.files.delete name } where
  pid_pos := h.pid_pos
  own := h.own
  temporary pid record hwritten := by
    rw [JsMap.get_delete, if_neg]
    · exact h.temporary pid record hwritten
    · intro heq
      rw [← heq, endsWith_temporaryFile] at hname
      cases hname
  whole other content hget := by
    rw [JsMap.get_delete, Option.ite_none_left_eq_some] at hget
    exact h.whole other content hget.2
  truthful := h.truthful

/-- The temporary file is not the file of a record, nor that of another process. -/
theorem Lawful.setTemporary {pid : ℕ} {announcement : Announcement} {content : JsString}
    (h : Lawful state)
    (hown : ∀ record, Announces record announcement → record.pid = pid ∧ state.alive pid = true)
    (hwritten : ∀ record, announcement = .written record → content = record.text) :
    Lawful { state.announce pid announcement with
      files := state.files.set (temporaryFile pid) content } where
  pid_pos := h.pid_pos
  own other record hannounces := by
    change Announces record (Function.update state.daemons pid announcement other) at hannounces
    by_cases hother : other = pid
    · rw [hother, Function.update_self] at hannounces
      rw [hother]
      exact hown record hannounces
    · rw [Function.update_of_ne hother] at hannounces
      exact h.own other record hannounces
  temporary other record hother := by
    change Function.update state.daemons pid announcement other = _ at hother
    rw [JsMap.get_set]
    by_cases hsame : other = pid
    · rw [hsame, Function.update_self] at hother
      rw [if_pos (congrArg _ hsame), hwritten record hother]
    · rw [Function.update_of_ne hsame] at hother
      rw [if_neg (hsame ∘ temporaryFile_inj.mp), h.temporary other record hother]
  whole name content hget hname := by
    rw [JsMap.get_set, if_neg] at hget
    · exact h.whole name content hget hname
    · rintro rfl
      rw [endsWith_temporaryFile] at hname
      cases hname
  truthful := h.truthful

theorem Lawful.rename {record : InstanceRecord} {content : JsString} (h : Lawful state)
    (hwritten : state.daemons record.pid = .written record)
    (hcontent : state.files.get (temporaryFile record.pid) = some content) :
    Lawful (state.rename record content) where
  pid_pos := h.pid_pos
  own other found hannounces := by
    change Announces found (Function.update state.daemons record.pid (.published record) other)
      at hannounces
    by_cases hother : other = record.pid
    · rw [hother, Function.update_self] at hannounces
      obtain hwriting | hwritten' | hpublished := hannounces
      · cases hwriting
      · cases hwritten'
      · cases hpublished
        rw [hother]
        exact h.own record.pid record (.inr (.inl hwritten))
    · rw [Function.update_of_ne hother] at hannounces
      exact h.own other found hannounces
  temporary other found hother := by
    change Function.update state.daemons record.pid (.published record) other = _ at hother
    by_cases hsame : other = record.pid
    · rw [hsame, Function.update_self] at hother
      cases hother
    · rw [Function.update_of_ne hsame] at hother
      change ((state.files.set (instanceFile record.pid) content).delete
        (temporaryFile record.pid)).get (temporaryFile other) = _
      rw [JsMap.get_delete, if_neg (hsame ∘ temporaryFile_inj.mp), JsMap.get_set,
        if_neg (instanceFile_ne_temporaryFile record.pid other).symm, h.temporary other found hother]
  whole name text hget hname := by
    change ((state.files.set (instanceFile record.pid) content).delete
      (temporaryFile record.pid)).get name = some text at hget
    rw [JsMap.get_delete, Option.ite_none_left_eq_some, JsMap.get_set] at hget
    obtain ⟨_, hget⟩ := hget
    split at hget
    · rename_i hsame
      rw [h.temporary record.pid record hwritten] at hcontent
      cases hcontent
      cases hget
      exact ⟨record, List.mem_append_right _ List.mem_cons_self, hsame, rfl⟩
    · obtain ⟨found, hfound, heq⟩ := h.whole name text hget hname
      exact ⟨found, List.mem_append_left _ hfound, heq⟩
  truthful client := (h.truthful client).mono

/-- A process that ends, or has removed its file, announces nothing. -/
theorem Lawful.silence {pid : ℕ} {alive : ℕ → Bool} (h : Lawful state)
    (halive : ∀ other, alive other = true → state.alive other = true)
    (hothers : ∀ other, other ≠ pid → alive other = state.alive other) :
    Lawful { state.announce pid .silent with alive := alive } where
  pid_pos other hother := h.pid_pos other (halive other hother)
  own other record hannounces := by
    change Announces record (Function.update state.daemons pid .silent other) at hannounces
    by_cases hother : other = pid
    · rw [hother, Function.update_self] at hannounces
      obtain hwriting | hwritten | hpublished := hannounces
      · cases hwriting
      · cases hwritten
      · cases hpublished
    · rw [Function.update_of_ne hother] at hannounces
      change record.pid = other ∧ alive other = true
      rw [hothers other hother]
      exact h.own other record hannounces
  temporary other record hother := by
    change Function.update state.daemons pid .silent other = _ at hother
    by_cases hsame : other = pid
    · rw [hsame, Function.update_self] at hother
      cases hother
    · rw [Function.update_of_ne hsame] at hother
      exact h.temporary other record hother
  whole := h.whole
  truthful := h.truthful

theorem Lawful.spawn {pid : ℕ} (h : Lawful state) (hpid : pid ≠ 0) :
    Lawful { state with alive := Function.update state.alive pid true } where
  pid_pos other hother := by
    change Function.update state.alive pid true other = true at hother
    by_cases hsame : other = pid
    · omega
    · rw [Function.update_of_ne hsame] at hother
      exact h.pid_pos other hother
  own other record hannounces := by
    obtain ⟨hpid, halive⟩ := h.own other record hannounces
    refine ⟨hpid, ?_⟩
    change Function.update state.alive pid true other = true
    by_cases hsame : other = pid
    · rw [hsame, Function.update_self]
    · rw [Function.update_of_ne hsame, halive]
  temporary := h.temporary
  whole := h.whole
  truthful := h.truthful

/-- What a file is read as. -/
theorem examine_text {name : JsString} {record : InstanceRecord} {names : List JsString}
    {records : List Json} :
    examine name record.text names records = .probing name record.toJson names records := by
  rw [examine, record.parse_text]
  rfl

/-- What the next call of a listing does. -/
inductive Calls (state : Instances) (client : ℕ) (fails : Bool) : Instances → Prop
  | done {records : List Json} (hlisting : state.clients client = .listing [] records) :
      Calls state client fails (state.enter client (.returned records))
  | pass {name : JsString} {names : List JsString} {records : List Json}
      (hlisting : state.clients client = .listing (name :: names) records)
      (hname : JsString.endsWith name (js ".json") = false) :
      Calls state client fails (state.enter client (.listing names records))
  | missed {name : JsString} {names : List JsString} {records : List Json}
      (hlisting : state.clients client = .listing (name :: names) records)
      (hname : JsString.endsWith name (js ".json") = true)
      (hget : fails = true ∨ state.files.get name = none) :
      Calls state client fails (state.enter client (.unlinking name names records))
  | read {name raw : JsString} {names : List JsString} {records : List Json}
      (hlisting : state.clients client = .listing (name :: names) records)
      (hname : JsString.endsWith name (js ".json") = true)
      (hget : state.files.get name = some raw) :
      Calls state client fails (state.enter client (examine name raw names records))
  | alive {name : JsString} {record : Json} {names : List JsString} {records : List Json}
      (hlisting : state.clients client = .probing name record names records)
      (halive : isPidAlive state.alive (record.field (js "pid")) = true) :
      Calls state client fails (state.enter client (.listing names (records ++ [record])))
  | stale {name : JsString} {record : Json} {names : List JsString} {records : List Json}
      (hlisting : state.clients client = .probing name record names records)
      (halive : isPidAlive state.alive (record.field (js "pid")) = false) :
      Calls state client fails (state.enter client (.unlinking name names records))
  | kept {name : JsString} {names : List JsString} {records : List Json}
      (hlisting : state.clients client = .unlinking name names records) :
      Calls state client fails (state.enter client (.listing names records))
  | unlinked {name : JsString} {names : List JsString} {records : List Json}
      (hlisting : state.clients client = .unlinking name names records) :
      Calls state client fails { state.enter client (.listing names records) with
        files := state.files.delete name }

theorem calls_of_callListing {client : ℕ} {fails : Bool}
    (h : state.callListing client fails = some next) : Calls state client fails next := by
  unfold callListing at h
  split at h
  · cases h
  · cases h
  · rename_i hlisting
    cases h
    exact .done hlisting
  · rename_i name names records hlisting
    split at h
    · rename_i hname
      cases h
      exact .pass hlisting (by simpa using hname)
    · rename_i hname
      have hjson : JsString.endsWith name (js ".json") = true := by simpa using hname
      split at h
      · rename_i hget
        cases h
        cases fails with
        | false => exact .missed hlisting hjson (.inr hget)
        | true => exact .missed hlisting hjson (.inl rfl)
      · rename_i raw hget
        cases h
        cases fails with
        | false => exact .read hlisting hjson hget
        | true => cases hget
  · rename_i hlisting
    split at h
    · rename_i halive
      cases h
      exact .alive hlisting halive
    · rename_i halive
      cases h
      exact .stale hlisting (by simpa using halive)
  · rename_i hlisting
    cases h
    cases fails with
    | false => exact .unlinked hlisting
    | true => exact .kept hlisting

theorem lawful_calls {client : ℕ} {fails : Bool} (h : Lawful state)
    (hcalls : Calls state client fails next) : Lawful next := by
  have htruthful := h.truthful client
  cases hcalls with
  | done hlisting =>
    rw [hlisting] at htruthful
    exact h.enter htruthful
  | pass hlisting hname =>
    rw [hlisting] at htruthful
    exact h.enter htruthful
  | missed hlisting hname hget =>
    rw [hlisting] at htruthful
    exact h.enter ⟨hname, htruthful⟩
  | read hlisting hname hget =>
    rw [hlisting] at htruthful
    obtain ⟨record, hrecord, hsame, rfl⟩ := h.whole _ _ hget hname
    rw [examine_text]
    exact h.enter ⟨⟨record, hrecord, rfl, hsame⟩, htruthful⟩
  | alive hlisting halive =>
    rw [hlisting] at htruthful
    obtain ⟨⟨record, hrecord, hvalue, _⟩, hknown⟩ := htruthful
    refine h.enter fun value hmem ↦ ?_
    obtain hmem | hmem := List.mem_append.mp hmem
    · exact hknown value hmem
    · exact ⟨record, hrecord, (List.mem_singleton.mp hmem).trans hvalue⟩
  | stale hlisting halive =>
    rw [hlisting] at htruthful
    obtain ⟨⟨record, _, _, hname⟩, hknown⟩ := htruthful
    exact h.enter ⟨hname ▸ endsWith_instanceFile record.pid, hknown⟩
  | kept hlisting =>
    rw [hlisting] at htruthful
    exact h.enter htruthful.2
  | unlinked hlisting =>
    rw [hlisting] at htruthful
    exact (h.unlink htruthful.1).enter htruthful.2

theorem step_write {record : InstanceRecord} {length : ℕ}
    (h : step state (.write record length) = some next) :
    state.alive record.pid = true ∧ next = state.write record length := by
  rw [step, Option.ite_none_right_eq_some] at h
  obtain ⟨halive, hwrite⟩ := h
  refine ⟨halive, ?_⟩
  split at hwrite
  · exact (Option.some.inj hwrite).symm
  · rw [Option.ite_none_right_eq_some] at hwrite
    exact (Option.some.inj hwrite.2).symm
  · cases hwrite

theorem step_finish {pid : ℕ} (h : step state (.finish pid) = some next) :
    ∃ record, state.daemons pid = .writing record ∧ next = state.finish record := by
  rw [step] at h
  split at h
  · rename_i record hwriting
    exact ⟨record, hwriting, (Option.some.inj h).symm⟩
  · cases h

theorem step_rename {pid : ℕ} (h : step state (.rename pid) = some next) :
    ∃ record content, state.daemons pid = .written record ∧
      state.files.get (temporaryFile pid) = some content ∧ next = state.rename record content := by
  rw [step] at h
  split at h
  · rename_i record hwritten
    obtain ⟨content, hcontent, hnext⟩ := Option.map_eq_some_iff.mp h
    exact ⟨record, content, hwritten, hcontent, hnext.symm⟩
  · cases h

theorem step_readdir {client : ℕ} {names : List JsString}
    (h : step state (.readdir client names) = some next) :
    names.Perm (state.files.entries.map Prod.fst) ∧ next = state.enter client (.listing names []) := by
  rw [step] at h
  split at h
  · rw [Option.ite_none_right_eq_some] at h
    exact ⟨h.1, (Option.some.inj h.2).symm⟩
  · rw [Option.ite_none_right_eq_some] at h
    exact ⟨h.1, (Option.some.inj h.2).symm⟩
  · cases h

theorem lawful_step {event : InstancesEvent} (h : Lawful state) (hstep : step state event = some next) :
    Lawful next := by
  cases event with
  | spawn pid =>
    rw [step, Option.ite_none_left_eq_some] at hstep
    obtain ⟨hpid, hnext⟩ := hstep
    cases hnext
    simp only [Bool.or_eq_true, decide_eq_true_eq, not_or] at hpid
    exact h.spawn hpid.1
  | die pid =>
    cases hstep
    refine h.silence (fun other hother ↦ ?_) fun other hother ↦ Function.update_of_ne hother ..
    by_cases hsame : other = pid
    · rw [hsame, Function.update_self] at hother
      cases hother
    · rwa [Function.update_of_ne hsame] at hother
  | write record length =>
    obtain ⟨halive, rfl⟩ := step_write hstep
    refine h.setTemporary (fun found hannounces ↦ ?_) fun found hwritten ↦ by cases hwritten
    obtain hwriting | hwritten | hpublished := hannounces
    · cases hwriting
      exact ⟨rfl, halive⟩
    · cases hwritten
    · cases hpublished
  | finish pid =>
    obtain ⟨record, hwriting, rfl⟩ := step_finish hstep
    obtain ⟨rfl, halive⟩ := h.own pid record (.inl hwriting)
    refine h.setTemporary (fun found hannounces ↦ ?_) fun found hwritten ↦ by cases hwritten; rfl
    obtain hwriting | hwritten | hpublished := hannounces
    · cases hwriting
    · cases hwritten
      exact ⟨rfl, halive⟩
    · cases hpublished
  | rename pid =>
    obtain ⟨record, content, hwritten, hcontent, rfl⟩ := step_rename hstep
    obtain ⟨rfl, _⟩ := h.own pid record (.inr (.inl hwritten))
    exact h.rename hwritten hcontent
  | removeInstance pid =>
    rw [step, Option.ite_none_right_eq_some] at hstep
    obtain ⟨_, hnext⟩ := hstep
    cases hnext
    exact (h.silence (fun _ hother ↦ hother) fun _ _ ↦ rfl).unlink (endsWith_instanceFile pid)
  | readdir client names =>
    obtain ⟨_, rfl⟩ := step_readdir hstep
    exact h.enter fun value hvalue ↦ absurd hvalue List.not_mem_nil
  | call client fails => exact lawful_calls h (calls_of_callListing hstep)

theorem lawful_start : Lawful start where
  pid_pos _ h := by cases h
  own pid record h := by
    obtain h | h | h := h <;> cases h
  temporary pid record h := by cases h
  whole name content h := by cases h
  truthful _ := trivial

/-- **Only whole records.** In every run of daemons and clients, whatever is being written while a
client reads and whichever calls fail, a listing returns records that were announced, complete. -/
theorem listing_announced (schedule : List InstancesEvent) :
    Throughout step (fun state ↦ ∀ client records, state.clients client = .returned records →
        ∃ found : List InstanceRecord,
          (∀ record ∈ found, record ∈ state.announced) ∧ records = found.map InstanceRecord.toJson)
      start schedule := by
  have hlawful : Throughout step Lawful start schedule :=
    throughout_of_invariant (fun _ _ _ h _ hstep ↦ lawful_step h hstep) lawful_start
      (stepsMeet_true _ schedule)
  refine hlawful.mono fun state h client records hreturned ↦ ?_
  have hknown := h.truthful client
  rw [hreturned] at hknown
  exact hknown.map

/-! ## The file of a running daemon stays -/

/-- Reads do not fail, and no process takes its place while its file is being removed. -/
def Settled (state : Instances) : InstancesEvent → Prop
  | .rename pid => ∀ client names records,
      state.clients client ≠ .unlinking (instanceFile pid) names records
  | .call client fails => fails = true → ∀ names records,
      state.clients client ≠ .listing names records
  | _ => True

structure Kept (state : Instances) : Prop where
  lawful : Lawful state
  file : ∀ pid record, state.daemons pid = .published record →
    state.files.get (instanceFile pid) = some record.text
  spared : ∀ client pid names records, state.clients client = .unlinking (instanceFile pid) names records →
    ∀ record, state.daemons pid ≠ .published record

theorem kept_start : Kept start where
  lawful := lawful_start
  file pid record h := by cases h
  spared client pid names records h := by cases h

/-- A client goes on to what is not the removal of a daemon's file. -/
theorem Kept.enter {client : ℕ} {listing : Listing} (h : Kept state)
    (hlisting : Truthful state.announced listing)
    (hspared : ∀ pid names records, listing = .unlinking (instanceFile pid) names records →
      ∀ record, state.daemons pid ≠ .published record) : Kept (state.enter client listing) where
  lawful := h.lawful.enter hlisting
  file := h.file
  spared other pid names records hother := by
    change Function.update state.clients client listing other = _ at hother
    by_cases hsame : other = client
    · rw [hsame, Function.update_self] at hother
      exact hspared pid names records hother
    · rw [Function.update_of_ne hsame] at hother
      exact h.spared other pid names records hother

theorem Kept.unlink {name : JsString} (h : Kept state)
    (hname : JsString.endsWith name (js ".json") = true)
    (hspared : ∀ pid, name = instanceFile pid → ∀ record, state.daemons pid ≠ .published record) :
    Kept { state with files := state.files.delete name } where
  lawful := h.lawful.unlink hname
  file pid record hpublished := by
    rw [JsMap.get_delete, if_neg]
    · exact h.file pid record hpublished
    · exact fun heq ↦ hspared pid heq.symm record hpublished
  spared := h.spared

theorem kept_calls {client : ℕ} {fails : Bool} (h : Kept state)
    (hsettled : Settled state (.call client fails)) (hcalls : Calls state client fails next) :
    Kept next := by
  have hlawful := lawful_calls h.lawful hcalls
  have htruthful := hlawful.truthful client
  have hself : ∀ listing, (state.enter client listing).clients client = listing :=
    fun listing ↦ Function.update_self ..
  cases hcalls with
  | done hlisting =>
    rw [hself] at htruthful
    exact h.enter htruthful fun _ _ _ heq ↦ by cases heq
  | pass hlisting hname =>
    rw [hself] at htruthful
    exact h.enter htruthful fun _ _ _ heq ↦ by cases heq
  | missed hlisting hname hget =>
    rw [hself] at htruthful
    refine h.enter htruthful fun pid names records heq record hpublished ↦ ?_
    cases heq
    obtain hfails | hnone := hget
    · exact hsettled hfails _ _ hlisting
    · rw [h.file pid record hpublished] at hnone
      cases hnone
  | read hlisting hname hget =>
    obtain ⟨record, _, _, rfl⟩ := h.lawful.whole _ _ hget hname
    rw [hself] at htruthful
    refine h.enter htruthful fun _ _ _ heq ↦ ?_
    rw [examine_text] at heq
    cases heq
  | alive hlisting halive =>
    rw [hself] at htruthful
    exact h.enter htruthful fun _ _ _ heq ↦ by cases heq
  | stale hlisting halive =>
    have hprobing := h.lawful.truthful client
    rw [hlisting] at hprobing
    obtain ⟨⟨record, _, rfl, hname⟩, _⟩ := hprobing
    rw [hself] at htruthful
    refine h.enter htruthful fun pid names records heq found hpublished ↦ ?_
    cases heq
    obtain ⟨_, hrunning⟩ := h.lawful.own pid found (.inr (.inr hpublished))
    rw [isPidAlive_toJson, ← instanceFile_inj.mp hname, hrunning,
      decide_eq_true (h.lawful.pid_pos pid hrunning)] at halive
    cases halive
  | kept hlisting =>
    rw [hself] at htruthful
    exact h.enter htruthful fun _ _ _ heq ↦ by cases heq
  | unlinked hlisting =>
    have hunlinking := h.lawful.truthful client
    rw [hlisting] at hunlinking
    refine (h.unlink hunlinking.1 fun pid heq ↦ ?_).enter hunlinking.2 fun _ _ _ heq ↦ by cases heq
    subst heq
    exact h.spared client pid _ _ hlisting

/-- A process says something else that is not that it is announced. -/
theorem Kept.announce {pid : ℕ} {announcement : Announcement} {files : JsMap JsString JsString}
    {alive : ℕ → Bool} (h : Kept state)
    (hlawful : Lawful { state.announce pid announcement with files := files, alive := alive })
    (hnot : ∀ record, announcement ≠ .published record)
    (hfiles : ∀ other, other ≠ pid → files.get (instanceFile other) = state.files.get (instanceFile other)) :
    Kept { state.announce pid announcement with files := files, alive := alive } where
  lawful := hlawful
  file other record hpublished := by
    change Function.update state.daemons pid announcement other = _ at hpublished
    by_cases hother : other = pid
    · rw [hother, Function.update_self] at hpublished
      exact absurd hpublished (hnot record)
    · rw [Function.update_of_ne hother] at hpublished
      change files.get (instanceFile other) = _
      rw [hfiles other hother, h.file other record hpublished]
  spared client other names records hunlinking record hpublished := by
    change Function.update state.daemons pid announcement other = _ at hpublished
    by_cases hother : other = pid
    · rw [hother, Function.update_self] at hpublished
      exact hnot record hpublished
    · rw [Function.update_of_ne hother] at hpublished
      exact h.spared client other names records hunlinking record hpublished

theorem kept_step {event : InstancesEvent} (h : Kept state) (hsettled : Settled state event)
    (hstep : step state event = some next) : Kept next := by
  have hlawful := lawful_step h.lawful hstep
  cases event with
  | spawn pid =>
    rw [step, Option.ite_none_left_eq_some] at hstep
    cases hstep.2
    exact ⟨hlawful, h.file, h.spared⟩
  | die pid =>
    cases hstep
    exact h.announce hlawful (fun _ heq ↦ by cases heq) fun _ _ ↦ rfl
  | write record length =>
    obtain ⟨_, rfl⟩ := step_write hstep
    refine h.announce hlawful (fun _ heq ↦ by cases heq) fun other _ ↦ ?_
    rw [JsMap.get_set, if_neg (instanceFile_ne_temporaryFile other _)]
  | finish pid =>
    obtain ⟨record, _, rfl⟩ := step_finish hstep
    refine h.announce hlawful (fun _ heq ↦ by cases heq) fun other _ ↦ ?_
    rw [JsMap.get_set, if_neg (instanceFile_ne_temporaryFile other _)]
  | rename pid =>
    obtain ⟨record, content, hwritten, hcontent, rfl⟩ := step_rename hstep
    obtain ⟨rfl, _⟩ := h.lawful.own pid record (.inr (.inl hwritten))
    refine ⟨hlawful, fun other found hpublished ↦ ?_,
      fun client other names records hunlinking found hpublished ↦ ?_⟩
    · change Function.update state.daemons record.pid (.published record) other = _ at hpublished
      change ((state.files.set (instanceFile record.pid) content).delete
        (temporaryFile record.pid)).get (instanceFile other) = _
      rw [JsMap.get_delete, if_neg (instanceFile_ne_temporaryFile other record.pid), JsMap.get_set]
      by_cases hother : other = record.pid
      · rw [hother, Function.update_self] at hpublished
        cases hpublished
        rw [h.lawful.temporary record.pid record hwritten] at hcontent
        rw [if_pos (congrArg _ hother), hcontent]
      · rw [Function.update_of_ne hother] at hpublished
        rw [if_neg (hother ∘ instanceFile_inj.mp), h.file other found hpublished]
    · change Function.update state.daemons record.pid (.published record) other = _ at hpublished
      by_cases hother : other = record.pid
      · subst hother
        exact hsettled client names records hunlinking
      · rw [Function.update_of_ne hother] at hpublished
        exact h.spared client other names records hunlinking found hpublished
  | removeInstance pid =>
    rw [step, Option.ite_none_right_eq_some] at hstep
    cases hstep.2
    refine h.announce hlawful (fun _ heq ↦ by cases heq) fun other hother ↦ ?_
    rw [JsMap.get_delete, if_neg (hother ∘ instanceFile_inj.mp)]
  | readdir client names =>
    obtain ⟨_, rfl⟩ := step_readdir hstep
    exact h.enter (fun value hvalue ↦ absurd hvalue List.not_mem_nil) fun _ _ _ heq ↦ by cases heq
  | call client fails => exact kept_calls h hsettled (calls_of_callListing hstep)

theorem kept_run {schedule : List InstancesEvent} (hsettled : StepsMeet step Settled start schedule) :
    Throughout step Kept start schedule :=
  throughout_of_invariant (fun _ _ _ ↦ kept_step) kept_start hsettled

/-- **The file of a running daemon stays.** Where reads do not fail and no process announces itself
while its file is being removed, no client removes the file of a daemon that has announced itself
and neither ended nor removed it. -/
theorem running_kept {schedule : List InstancesEvent}
    (hsettled : StepsMeet step Settled start schedule) :
    Throughout step (fun state ↦ ∀ pid record, state.daemons pid = .published record →
        state.files.get (instanceFile pid) = some record.text) start schedule :=
  (kept_run hsettled).mono fun _ h ↦ h.file

/-- The event is not a client's. -/
def ofDaemon : InstancesEvent → Bool
  | .readdir _ _ | .call _ _ => false
  | _ => true

theorem clients_step {event : InstancesEvent} (hdaemon : ofDaemon event = true)
    (hstep : step state event = some next) : next.clients = state.clients := by
  cases event with
  | spawn pid =>
    rw [step, Option.ite_none_left_eq_some] at hstep
    rw [← Option.some.inj hstep.2]
  | die pid =>
    rw [← Option.some.inj hstep]
    rfl
  | write record length =>
    obtain ⟨-, rfl⟩ := step_write hstep
    rfl
  | finish pid =>
    obtain ⟨record, -, rfl⟩ := step_finish hstep
    rfl
  | rename pid =>
    obtain ⟨record, content, -, -, rfl⟩ := step_rename hstep
    rfl
  | removeInstance pid =>
    rw [step, Option.ite_none_right_eq_some] at hstep
    rw [← Option.some.inj hstep.2]
    rfl
  | readdir client names => cases hdaemon
  | call client fails => cases hdaemon

/-- Daemons come and go before any client lists, and no read fails then. -/
theorem settled_append (before rest : List InstancesEvent)
    (hidle : ∀ client, state.clients client = .idle)
    (hbefore : ∀ event ∈ before, ofDaemon event = true)
    (hrest : ∀ event ∈ rest, ∀ state, Settled state event) :
    StepsMeet step Settled state (before ++ rest) := by
  induction before generalizing state with
  | nil => exact stepsMeet_of_forall hrest state
  | cons event before ih =>
    obtain ⟨hevent, hlater⟩ := List.forall_mem_cons.mp hbefore
    intro next hnext
    have hclients := clients_step hevent hnext
    refine ⟨?_, ih (fun client ↦ by rw [hclients, hidle]) hlater⟩
    cases event with
    | rename pid =>
      intro client names records hunlinking
      rw [hidle] at hunlinking
      cases hunlinking
    | call client fails => cases hevent
    | _ => trivial

/-- A daemon that announces itself in an empty directory. -/
def firstRecord : InstanceRecord :=
  ⟨1, js "ws://127.0.0.1:3201/rpc", js "t", 3201, js "2026-04-18T00:00:00.000Z", js "0.0.1"⟩

def firstDaemon : List InstancesEvent :=
  [.spawn 1, .write firstRecord 7, .finish 1, .rename 1]

theorem settled_firstDaemon : StepsMeet step Settled start firstDaemon :=
  settled_append firstDaemon [] (fun _ ↦ rfl) (by decide) (List.forall_mem_nil _)

/-- It dies, and a second one announces itself. -/
def secondRecord : InstanceRecord :=
  { firstRecord with pid := 2, startedAt := js "2026-04-18T00:00:01.000Z" }

def secondDaemon : List InstancesEvent :=
  firstDaemon ++ [.die 1, .spawn 2, .write secondRecord 7, .finish 2, .rename 2]

/-- A client finds the files of both. -/
def cleanUp : List InstancesEvent :=
  .readdir 0 [instanceFile 1, instanceFile 2] :: List.replicate 6 (.call 0 false)

theorem settled_cleanUp : StepsMeet step Settled start (secondDaemon ++ cleanUp) := by
  refine settled_append secondDaemon cleanUp (fun _ ↦ rfl) (by decide) fun event hevent state ↦ ?_
  obtain rfl | hcall := List.mem_cons.mp hevent
  · trivial
  · rw [List.eq_of_mem_replicate hcall]
    exact fun hfails ↦ absurd hfails Bool.false_ne_true

/-- The client removes the file of the first daemon, and that of the second stays. -/
theorem running_kept_cleanUp :
    Throughout step (fun state ↦ ∀ pid record, state.daemons pid = .published record →
        state.files.get (instanceFile pid) = some record.text) start (secondDaemon ++ cleanUp) ∧
      ((run step start (secondDaemon ++ cleanUp)).map fun state ↦
        (state.files.get (instanceFile 1), state.daemons 2)) = some (none, .published secondRecord) :=
  ⟨running_kept settled_cleanUp, by decide +kernel⟩

/-! ## A listing returns the running daemons -/

/-- The record is among the results, or still to be found. -/
def Covers (record : InstanceRecord) : Listing → Prop
  | .idle => True
  | .listing names records | .unlinking _ names records =>
    instanceFile record.pid ∈ names ∨ record.toJson ∈ records
  | .probing _ value names records =>
    instanceFile record.pid ∈ names ∨ record.toJson ∈ records ∨ value = record.toJson
  | .returned records => record.toJson ∈ records

theorem mem_of_covers {name : JsString} {record : InstanceRecord} {names : List JsString}
    {records : List Json} (h : Covers record (.listing (name :: names) records))
    (hname : name ≠ instanceFile record.pid) :
    instanceFile record.pid ∈ names ∨ record.toJson ∈ records := by
  obtain hmem | hmem := h
  · exact .inl ((List.mem_cons.mp hmem).resolve_left hname.symm)
  · exact .inr hmem

theorem covers_calls {client : ℕ} {fails : Bool} {record : InstanceRecord} (h : Kept state)
    (hsettled : Settled state (.call client fails))
    (hpublished : state.daemons record.pid = .published record)
    (hcalls : Calls state client fails next) (hcovers : Covers record (state.clients client)) :
    Covers record (next.clients client) := by
  have hself : ∀ listing, (state.enter client listing).clients client = listing :=
    fun listing ↦ Function.update_self ..
  have hfile := h.file record.pid record hpublished
  cases hcalls with
  | done hlisting =>
    rw [hlisting] at hcovers
    rw [hself]
    exact hcovers.resolve_left List.not_mem_nil
  | pass hlisting hname =>
    rw [hlisting] at hcovers
    rw [hself]
    refine mem_of_covers hcovers ?_
    rintro rfl
    rw [endsWith_instanceFile] at hname
    cases hname
  | missed hlisting hname hget =>
    rw [hlisting] at hcovers
    rw [hself]
    refine mem_of_covers hcovers ?_
    rintro rfl
    obtain hfails | hnone := hget
    · exact hsettled hfails _ _ hlisting
    · rw [hfile] at hnone
      cases hnone
  | @read name raw names records hlisting hname hget =>
    obtain ⟨found, _, rfl, rfl⟩ := h.lawful.whole _ _ hget hname
    rw [hlisting] at hcovers
    rw [hself, examine_text]
    by_cases hsame : instanceFile found.pid = instanceFile record.pid
    · rw [hsame, hfile] at hget
      have hparse := found.parse_text
      rw [← Option.some.inj hget, record.parse_text] at hparse
      exact .inr (.inr (Option.some.inj hparse).symm)
    · exact (mem_of_covers hcovers hsame).imp_right .inl
  | alive hlisting halive =>
    rw [hlisting] at hcovers
    rw [hself]
    obtain hmem | hmem | rfl := hcovers
    · exact .inl hmem
    · exact .inr (List.mem_append_left _ hmem)
    · exact .inr (List.mem_append_right _ List.mem_cons_self)
  | stale hlisting halive =>
    rw [hlisting] at hcovers
    rw [hself]
    obtain hmem | hmem | rfl := hcovers
    · exact .inl hmem
    · exact .inr hmem
    · obtain ⟨_, hrunning⟩ := h.lawful.own _ _ (.inr (.inr hpublished))
      rw [isPidAlive_toJson, hrunning, decide_eq_true (h.lawful.pid_pos _ hrunning)] at halive
      cases halive
  | kept hlisting =>
    rw [hlisting] at hcovers
    rw [hself]
    exact hcovers
  | unlinked hlisting =>
    rw [hlisting] at hcovers
    change Covers record ((state.enter client _).clients client)
    rw [hself]
    exact hcovers

theorem mem_names_of_published {record : InstanceRecord} {names : List JsString} (h : Kept state)
    (hpublished : state.daemons record.pid = .published record)
    (hnames : names.Perm (state.files.entries.map Prod.fst)) : instanceFile record.pid ∈ names := by
  have hfile := h.file record.pid record hpublished
  exact hnames.mem_iff.mpr (JsMap.has_iff.mp (JsMap.has_of_get hfile))

theorem covers_step {client : ℕ} {record : InstanceRecord} {event : InstancesEvent} (h : Kept state)
    (hsettled : Settled state event) (hpublished : state.daemons record.pid = .published record)
    (hcovers : Covers record (state.clients client)) (hstep : step state event = some next) :
    Covers record (next.clients client) := by
  cases event with
  | spawn pid =>
    rw [step, Option.ite_none_left_eq_some] at hstep
    cases hstep.2
    exact hcovers
  | die pid =>
    cases hstep
    exact hcovers
  | write other length =>
    obtain ⟨_, rfl⟩ := step_write hstep
    exact hcovers
  | finish pid =>
    obtain ⟨_, _, rfl⟩ := step_finish hstep
    exact hcovers
  | rename pid =>
    obtain ⟨_, _, _, _, rfl⟩ := step_rename hstep
    exact hcovers
  | removeInstance pid =>
    rw [step, Option.ite_none_right_eq_some] at hstep
    cases hstep.2
    exact hcovers
  | readdir other names =>
    obtain ⟨hnames, rfl⟩ := step_readdir hstep
    change Covers record (Function.update state.clients other _ client)
    by_cases hsame : client = other
    · rw [hsame, Function.update_self]
      exact .inl (mem_names_of_published h hpublished hnames)
    · rwa [Function.update_of_ne hsame]
  | call other fails =>
    by_cases hsame : client = other
    · subst hsame
      exact covers_calls h hsettled hpublished (calls_of_callListing hstep) hcovers
    · have hother : next.clients client = state.clients client := by
        cases calls_of_callListing hstep <;> exact Function.update_of_ne hsame ..
      rwa [hother]

/-- A run with a listing in it, by which the daemon is announced all the time. -/
structure Lists (client : ℕ) (record : InstanceRecord) (records : List Json)
    (before during : List InstancesEvent) (names : List JsString) (first begun last : Instances) :
    Prop where
  settled : StepsMeet step Settled start before
  reached : run step start before = some first
  readdir : step first (.readdir client names) = some begun
  meanwhile : StepsMeet step Settled begun during
  announced : StepsMeet step (fun state _ ↦ state.daemons record.pid = .published record) begun during
  finished : run step begun during = some last
  returned : last.clients client = .returned records

section Listed

variable {client : ℕ} {record : InstanceRecord} {records : List Json}
  {before during : List InstancesEvent} {names : List JsString} {first begun last : Instances}

theorem Lists.kept_covers (h : Lists client record records before during names first begun last) :
    Kept last ∧ Covers record (last.clients client) := by
  have hfirst : Kept first := (kept_run h.settled).last h.reached
  obtain ⟨hnames, hbegun⟩ := step_readdir h.readdir
  have hlisting : begun.clients client = .listing names [] := by
    rw [hbegun]
    exact Function.update_self ..
  have hpublished : first.daemons record.pid = .published record := by
    have hsame : begun.daemons = first.daemons := by rw [hbegun]; rfl
    cases during with
    | nil =>
      cases h.finished
      have hreturned := h.returned
      rw [hlisting] at hreturned
      cases hreturned
    | cons event rest =>
      have hfinished := h.finished
      rw [run_cons, Option.bind_eq_some_iff] at hfinished
      obtain ⟨next, hnext, _⟩ := hfinished
      exact hsame ▸ (h.announced next hnext).1
  have hkeep : ∀ state event next, Kept state ∧ Covers record (state.clients client) →
      Settled state event ∧ state.daemons record.pid = .published record →
        step state event = some next → Kept next ∧ Covers record (next.clients client) :=
    fun state event next hinv hmeet hstep ↦ ⟨kept_step hinv.1 hmeet.1 hstep,
      covers_step hinv.1 hmeet.1 hmeet.2 hinv.2 hstep⟩
  have hcovers : Covers record (begun.clients client) := by
    rw [hlisting]
    exact .inl (mem_names_of_published hfirst hpublished hnames)
  have hsettled : Settled first (.readdir client names) := trivial
  exact (throughout_of_invariant hkeep ⟨kept_step hfirst hsettled h.readdir, hcovers⟩
    (h.meanwhile.and h.announced)).last h.finished

theorem Lists.covers (h : Lists client record records before during names first begun last) :
    record.toJson ∈ records := by
  have hcovers := h.kept_covers.2
  rw [h.returned] at hcovers
  exact hcovers

/-- **Running daemons are found.** Where reads do not fail and no process announces itself while its
file is being removed, a listing returns the record of every daemon that is announced while it
lasts, whatever other clients remove and other daemons write meanwhile. -/
theorem listing_complete (h : Lists client record records before during names first begun last) :
    record.toJson ∈ records :=
  h.covers

/-- Where the calls lead from the empty directory. -/
def after (schedule : List InstancesEvent) : Instances := (run step start schedule).getD start

theorem run_after {before rest : List InstancesEvent}
    (h : (run step start (before ++ rest)).isSome = true) :
    run step (after before) rest = some (after (before ++ rest)) := by
  rw [run_append] at h
  unfold after
  cases hbefore : run step start before with
  | none =>
    rw [hbefore] at h
    cases h
  | some state =>
    rw [run_append, hbefore, Option.bind_some, Option.getD_some]
    rw [hbefore, Option.bind_some] at h
    exact (Option.some_get h).symm.trans (congrArg some (Option.get_eq_getD ..))

theorem lists_firstDaemon :
    Lists 0 firstRecord [firstRecord.toJson] firstDaemon (List.replicate 3 (.call 0 false))
      [instanceFile 1] (after firstDaemon) (after (firstDaemon ++ [.readdir 0 [instanceFile 1]]))
      (after (firstDaemon ++ [.readdir 0 [instanceFile 1]] ++ List.replicate 3 (.call 0 false))) where
  settled := settled_firstDaemon
  reached := @run_after [] firstDaemon (by decide +kernel)
  readdir := by
    have hrun := @run_after firstDaemon [.readdir 0 [instanceFile 1]] (by decide +kernel)
    exact (Option.bind_fun_some _).symm.trans hrun
  meanwhile := by
    have hcall : ∀ state, Settled state (.call 0 false) := fun _ h ↦ absurd h Bool.false_ne_true
    exact fun _ _ ↦ ⟨hcall _, fun _ _ ↦ ⟨hcall _, fun _ _ ↦ ⟨hcall _, trivial⟩⟩⟩
  announced := by decide +kernel
  finished := run_after (by decide +kernel)
  returned := by decide +kernel

theorem listing_complete_firstDaemon : firstRecord.toJson ∈ [firstRecord.toJson] :=
  listing_complete lists_firstDaemon

/-- **The latest daemon.** The record that a client takes from such a listing is one that was
announced, and it is not older than that of any daemon announced all the time. -/
theorem latest_complete {localeCompare : JsString → JsString → Ordering}
    [Std.TransCmp localeCompare]
    (h : Lists client record records before during names first begun last) :
    ∃ found latest, records = found.map InstanceRecord.toJson ∧
      findLatestInstance localeCompare found = some latest ∧ latest ∈ last.announced ∧
      (localeCompare record.startedAt latest.startedAt).isLE = true := by
  have hknown := h.kept_covers.1.lawful.truthful client
  rw [h.returned] at hknown
  obtain ⟨found, hfound, hrecords⟩ := hknown.map
  have hmem := h.covers
  rw [hrecords, List.mem_map] at hmem
  obtain ⟨other, hother, hsame⟩ := hmem
  rw [InstanceRecord.toJson_injective hsame] at hother
  obtain ⟨latest, hlatest, hfind, hle⟩ := findLatestInstance_isLE localeCompare hother
  exact ⟨found, latest, hrecords, hfind, hfound latest hlatest, hle⟩

theorem latest_complete_firstDaemon :
    ∃ found latest, [firstRecord.toJson] = found.map InstanceRecord.toJson ∧
      findLatestInstance (List.compareLex compare) found = some latest ∧
      latest ∈ (after (firstDaemon ++ [.readdir 0 [instanceFile 1]] ++
        List.replicate 3 (.call 0 false))).announced ∧
      (List.compareLex compare firstRecord.startedAt latest.startedAt).isLE = true :=
  latest_complete lists_firstDaemon

end Listed

end Cordyceps.Daemon.Instances
