import Cordyceps.Agents.RegistryLabels
import Cordyceps.Council.Names
import Cordyceps.Council.Review

/-!
# Coverage and cleanup

When a review returns, it has one result for every task, in the order of the tasks, and no agent
that it spawned and whose kill returned is in the registry, whatever else the manager did in the
meantime. The `finally` block removes by the id of the runtime that `spawn` returned. If that
id names another runtime by then, the spawned one has already left the registry.
-/

namespace Cordyceps.Council

open Foundations Foundations.StepMachine Cordyceps.Agents

/-! ## One agent -/

namespace AgentUse

/-- What is known of the agent that was looked up, for an id and a `spawn` call. -/
structure Holds (manager : AgentManager) (name : JsString) (call agent : ℕ) (actualId : JsString) :
    Prop where
  id : actualId = name
  found : ∃ runtime, manager.objects[agent]? = some runtime ∧ runtime.id = name
  spawned : ∃ r, manager.phaseOf call = some (.succeeded r) ∧ (r = agent ∨ manager.Unlisted r)

/-- The spawned runtime has left the registry. -/
def Cleaned (manager : AgentManager) (call : ℕ) : Prop :=
  ∃ r, manager.phaseOf call = some (.succeeded r) ∧ manager.Unlisted r

def InPhase (manager : AgentManager) (name : JsString) (call : ℕ) : UsePhase → Prop
  | .spawning => True
  | .warming agent actualId => Holds manager name call agent actualId
  | .submitting agent actualId => Holds manager name call agent actualId
  | .killing agent actualId _ => Holds manager name call agent actualId
  | .done _ kill => kill = .returned → Cleaned manager call

structure Sound (manager : AgentManager) (use : AgentUse) : Prop where
  named : use.name ≠ []
  requested : ∃ call, manager.spawns[use.call]? = some call ∧ call.opts.id = some use.name
  inPhase : InPhase manager use.name use.call use.phase

variable {before after manager next : AgentManager} {use later : AgentUse} {name : JsString}
  {call agent : ℕ} {actualId : JsString}

/-- A returned runtime that is not listed stays so. -/
theorem unlisted_of_extends (h : before.Labelled) (hgrown : before.Extends after) {r : ℕ}
    (hreturned : before.phaseOf call = some (.succeeded r)) (hgone : before.Unlisted r) :
    after.Unlisted r := by
  obtain ⟨spawn, hspawn, hphase⟩ := Option.map_eq_some_iff.mp hreturned
  obtain ⟨runtime, hget, -⟩ := h.returned call spawn r hspawn hphase
  exact hgrown.unlisted r (List.getElem?_eq_some_iff.mp hget).1 hgone

theorem Holds.mono (h : before.Labelled) (hgrown : before.Extends after)
    (hheld : Holds before name call agent actualId) : Holds after name call agent actualId where
  id := hheld.id
  found := by
    obtain ⟨runtime, hget, hname⟩ := hheld.found
    obtain ⟨other, hother, hsame, -⟩ := hgrown.ids agent runtime hget
    exact ⟨other, hother, hsame.trans hname⟩
  spawned := by
    obtain ⟨r, hreturned, hwhere⟩ := hheld.spawned
    exact ⟨r, hgrown.returned _ r hreturned,
      hwhere.imp_right (unlisted_of_extends h hgrown hreturned)⟩

theorem Cleaned.mono (h : before.Labelled) (hgrown : before.Extends after)
    (hcleaned : Cleaned before call) : Cleaned after call := by
  obtain ⟨r, hreturned, hgone⟩ := hcleaned
  exact ⟨r, hgrown.returned _ r hreturned, unlisted_of_extends h hgrown hreturned hgone⟩

/-- What the manager does in between changes nothing of this. -/
theorem Sound.mono (h : before.Labelled) (hgrown : before.Extends after)
    (huse : use.Sound before) : use.Sound after where
  named := huse.named
  requested := by
    obtain ⟨call, hcall, hid⟩ := huse.requested
    obtain ⟨other, hother, hopts⟩ := hgrown.opts _ call hcall
    exact ⟨other, hother, hopts ▸ hid⟩
  inPhase := by
    have hphase := huse.inPhase
    cases hcase : use.phase with
    | spawning => trivial
    | warming agent actualId =>
      rw [hcase] at hphase
      exact Holds.mono h hgrown hphase
    | submitting agent actualId =>
      rw [hcase] at hphase
      exact Holds.mono h hgrown hphase
    | killing agent actualId outcome =>
      rw [hcase] at hphase
      exact Holds.mono h hgrown hphase
    | done outcome kill =>
      rw [hcase] at hphase
      exact fun hkill ↦ (hphase hkill).mono h hgrown

/-- Another phase of the same use. -/
theorem Sound.withPhase (huse : use.Sound manager) {phase : UsePhase}
    (hphase : InPhase manager use.name use.call phase) : Sound manager { use with phase } := by
  exact ⟨huse.named, huse.requested, hphase⟩

/-- The runtime that `spawn` returned has the requested id. -/
theorem Sound.id_of_returned (huse : use.Sound manager) (h : manager.Labelled) {r : ℕ}
    (hreturned : manager.phaseOf use.call = some (.succeeded r)) :
    ∃ runtime, manager.objects[r]? = some runtime ∧ runtime.id = use.name := by
  obtain ⟨call, hcall, hphase⟩ := Option.map_eq_some_iff.mp hreturned
  obtain ⟨runtime, hget, hids⟩ := h.returned use.call call r hcall hphase
  obtain ⟨other, hother, hid⟩ := huse.requested
  rw [hcall] at hother
  cases hother
  exact ⟨runtime, hget, hids use.name hid⟩

theorem Sound.lookUp (huse : use.Sound manager) (h : manager.Labelled) {r : ℕ}
    (hreturned : manager.phaseOf use.call = some (.succeeded r)) (isPty : Bool) :
    (use.lookUp isPty use.name manager).Sound manager := by
  unfold AgentUse.lookUp
  split
  · exact huse.withPhase nofun
  · rename_i agent hagent
    have hheld : Holds manager use.name use.call agent use.name := by
      refine ⟨rfl, h.listed use.name agent hagent, r, hreturned, ?_⟩
      by_cases hsame : r = agent
      · exact Or.inl hsame
      · right
        intro id hid
        obtain ⟨runtime, hget, hname⟩ := huse.id_of_returned h hreturned
        obtain ⟨listed, hlisted, hlabel⟩ := h.listed id r hid
        rw [hget] at hlisted
        cases hlisted
        rw [← hlabel, hname, hagent] at hid
        exact hsame (Option.some.inj hid).symm
    cases isPty
    · exact huse.withPhase hheld
    · exact huse.withPhase hheld

/-- After a kill that returned, the spawned runtime is gone from the registry. -/
theorem Holds.cleaned (h : manager.Labelled) (hheld : Holds manager name call agent actualId)
    (hexited : manager.exitedOf agent = true) : Cleaned (manager.remove actualId) call := by
  obtain ⟨runtime, hget, hname⟩ := hheld.found
  obtain ⟨r, hreturned, hwhere⟩ := hheld.spawned
  have hgrown := (h.remove actualId).grown
  refine ⟨r, hgrown.returned _ r hreturned, ?_⟩
  rcases hwhere with rfl | hgone
  · rw [hheld.id, ← hname]
    refine h.unlisted_remove hget ?_
    simpa [AgentManager.exitedOf, hget] using hexited
  · exact unlisted_of_extends h hgrown hreturned hgone

theorem continues_removeAgent (h : manager.Labelled) (actualId : JsString) :
    manager.Continues (AgentUse.removeAgent actualId manager) := by
  unfold AgentUse.removeAgent
  split
  · exact ⟨h, .refl manager⟩
  · exact h.remove actualId

theorem step_spec {describe : SpawnError → JsString} {event : UseEvent} (h : manager.Labelled)
    (huse : use.Sound manager) (hstep : use.step describe manager event = some (later, next)) :
    manager.Continues next ∧ later.Sound next ∧ later.name = use.name ∧ use.outcome = none := by
  have hphase := huse.inPhase
  unfold AgentUse.step at hstep
  split at hstep
  case h_1 isPty hspawning =>
    split at hstep
    · cases hstep
      exact ⟨⟨h, .refl manager⟩, huse.withPhase nofun, rfl, by rw [outcome, hspawning]⟩
    · rename_i r hreturned
      obtain ⟨info, hinfo, hlater⟩ := Option.map_eq_some_iff.mp hstep
      obtain ⟨runtime, hget, hname⟩ := huse.id_of_returned h hreturned
      rw [hget] at hinfo
      cases hinfo
      cases hlater
      rw [hname]
      refine ⟨⟨h, .refl manager⟩, huse.lookUp h hreturned isPty, ?_, by rw [outcome, hspawning]⟩
      unfold AgentUse.lookUp
      split <;> rfl
    · cases hstep
  case h_2 agent actualId hwarming =>
    cases hstep
    rw [hwarming] at hphase
    exact ⟨⟨h, .refl manager⟩, huse.withPhase hphase, rfl, by rw [outcome, hwarming]⟩
  case h_3 answer agent actualId hsubmitting =>
    cases hstep
    rw [hsubmitting] at hphase
    have hkilled := h.killRuntime (js "SIGTERM") agent
    exact ⟨hkilled, (huse.mono h hkilled.grown).withPhase (hphase.mono h hkilled.grown), rfl,
      by rw [outcome, hsubmitting]⟩
  case h_4 threw agent actualId answer hkilling =>
    rw [hkilling] at hphase
    have hremoved := continues_removeAgent h actualId
    have hsame := huse.mono h hremoved.grown
    split at hstep
    · cases hstep
      exact ⟨hremoved, hsame.withPhase nofun, rfl, by rw [outcome, hkilling]⟩
    · split at hstep
      · rename_i hexited
        cases hstep
        refine ⟨hremoved, hsame.withPhase fun _ ↦ ?_, rfl, by rw [outcome, hkilling]⟩
        have hid : actualId.isEmpty = false := by
          rw [List.isEmpty_eq_false_iff, hphase.id]
          exact huse.named
        rw [AgentUse.removeAgent, hid]
        exact hphase.cleaned h hexited
      · cases hstep
  case h_5 => cases hstep

/-- A use starts with a spawn that asks for its id. -/
theorem start_spec (h : manager.Labelled) (spec : ReviewerSpec) {name : JsString} (hname : name ≠ [])
    (lookupFailed : JsString) :
    manager.Continues (AgentUse.start spec name lookupFailed manager).2 ∧
      (AgentUse.start spec name lookupFailed manager).1.Sound
        (AgentUse.start spec name lookupFailed manager).2 :=
  ⟨h.spawn spec.driver _, hname, ⟨_, List.getElem?_concat_length, rfl⟩, trivial⟩

/-- A use whose kill returned. -/
theorem Sound.cleaned (huse : use.Sound manager) (hkill : use.killFate = .returned) :
    Cleaned manager use.call := by
  have hphase := huse.inPhase
  unfold killFate at hkill
  split at hkill
  · rename_i outcome kill hdone
    rw [hdone] at hphase
    exact hphase hkill
  · exact absurd hkill (by decide)

end AgentUse

/-! ## The whole review -/

variable {Findings : Type*}

namespace ReviewPhase

def chair : ReviewPhase Findings → Option AgentUse
  | .reviewing => none
  | .chairing _ chair => some chair
  | .returned _ chair => chair

/-- The results of the reviewers, once they are gathered. -/
def reviews : ReviewPhase Findings → Option (List (ReviewerResult Findings))
  | .reviewing => none
  | .chairing prompt _ => some prompt.reviewers
  | .returned result _ => some result.reviews

end ReviewPhase

/-- All agents that the review used. -/
def Review.uses (review : Review Findings) : List AgentUse :=
  review.reviewers ++ review.phase.chair.toList

namespace ReviewCall

variable (call : ReviewCall Findings)

structure Sound (review : Review Findings) : Prop where
  labelled : review.manager.Labelled
  uses : ∀ use ∈ review.uses, use.Sound review.manager
  names : review.reviewers.map AgentUse.name = call.tasks.map (reviewerName call.reviewId)
  chair : ∀ chair ∈ review.phase.chair, chair.name = chairName call.reviewId
  gathered : ∀ reviews ∈ review.phase.reviews, call.results review.reviewers = some reviews
  finished : ∀ result chair, review.phase = .returned result (some chair) → chair.outcome.isSome

theorem reviewerName_ne_nil (reviewId : JsString) (task : ReviewTask) :
    reviewerName reviewId task ≠ [] := by
  rw [reviewerName_eq]
  exact List.cons_ne_nil _ _

theorem startAll_spec (tasks : List ReviewTask) {manager : AgentManager} (h : manager.Labelled) :
    manager.Continues (call.startAll tasks manager).2 ∧
      (∀ use ∈ (call.startAll tasks manager).1, use.Sound (call.startAll tasks manager).2) ∧
      (call.startAll tasks manager).1.map AgentUse.name =
        tasks.map (reviewerName call.reviewId) := by
  induction tasks generalizing manager with
  | nil => exact ⟨⟨h, .refl manager⟩, nofun, rfl⟩
  | cons task rest ih =>
    obtain ⟨hfirst, huse⟩ := AgentUse.start_spec h task.spec
      (reviewerName_ne_nil call.reviewId task) (js "spawn succeeded but agent lookup failed")
    obtain ⟨hrest, huses, hnames⟩ := ih hfirst.labelled
    refine ⟨hfirst.trans hrest, ?_, ?_⟩
    · intro use hmem
      rcases List.mem_cons.mp hmem with rfl | hmem
      · exact huse.mono hfirst.labelled hrest.grown
      · exact huses use hmem
    · rw [List.map_cons, ← hnames]
      rfl

theorem sound_start {manager : AgentManager} (h : manager.Labelled) :
    call.Sound (call.start manager) := by
  obtain ⟨hgrown, huses, hnames⟩ := call.startAll_spec call.tasks h
  refine ⟨hgrown.labelled, ?_, hnames, nofun, nofun, nofun⟩
  intro use hmem
  rw [Review.uses, start] at hmem
  exact huses use (by simpa [ReviewPhase.chair] using hmem)

variable {call} {review next : Review Findings}

/-- What the manager does in between. -/
theorem Sound.withManager (h : call.Sound review) {manager : AgentManager}
    (hgrown : review.manager.Continues manager) : call.Sound { review with manager } where
  labelled := hgrown.labelled
  uses use hmem := (h.uses use hmem).mono h.labelled hgrown.grown
  names := h.names
  chair := h.chair
  gathered := h.gathered
  finished := h.finished

theorem map_outcome {reviewers : List AgentUse} {outcomes : List Outcome}
    (h : reviewers.mapM AgentUse.outcome = some outcomes) :
    reviewers.map AgentUse.outcome = outcomes.map some := by
  induction reviewers generalizing outcomes with
  | nil =>
    cases h
    rfl
  | cons use rest ih =>
    rw [List.mapM_cons] at h
    cases hfirst : use.outcome with
    | none => simp [hfirst] at h
    | some outcome =>
      cases hrest : rest.mapM AgentUse.outcome with
      | none => simp [hfirst, hrest] at h
      | some others =>
        obtain rfl : outcome :: others = outcomes := by simpa [hfirst, hrest] using h
        rw [List.map_cons, List.map_cons, hfirst, ih hrest]

/-- A reviewer that is still at work: the results are not gathered yet. -/
theorem Sound.phase_eq (h : call.Sound review) {use : AgentUse} (hmem : use ∈ review.reviewers)
    (hopen : use.outcome = none) : review.phase = .reviewing := by
  have hnone : review.phase.reviews = none := by
    rw [Option.eq_none_iff_forall_ne_some]
    intro reviews hreviews
    obtain ⟨outcomes, houtcomes, -⟩ := Option.map_eq_some_iff.mp (h.gathered reviews hreviews)
    have hdone : use.outcome ∈ outcomes.map some := by
      rw [← map_outcome houtcomes]
      exact List.mem_map_of_mem hmem
    rw [hopen] at hdone
    simp at hdone
  cases hphase : review.phase with
  | reviewing => rfl
  | chairing prompt chair => simp [hphase, ReviewPhase.reviews] at hnone
  | returned result chair => simp [hphase, ReviewPhase.reviews] at hnone

theorem Sound.reviewer (h : call.Sound review) {k : ℕ} {use later : AgentUse} {event : UseEvent}
    {manager : AgentManager} (hget : review.reviewers[k]? = some use)
    (hstep : use.step call.describe review.manager event = some (later, manager)) :
    call.Sound { review with manager, reviewers := review.reviewers.set k later } := by
  have hmem : use ∈ review.reviewers := List.mem_of_getElem? hget
  obtain ⟨hgrown, hlater, hname, hopen⟩ := AgentUse.step_spec h.labelled
    (h.uses use (List.mem_append_left _ hmem)) hstep
  have hphase := h.phase_eq hmem hopen
  refine ⟨hgrown.labelled, ?_, ?_, h.chair, ?_, h.finished⟩
  · intro other hother
    rcases List.mem_append.mp hother with hreviewer | hchair
    · rcases List.mem_or_eq_of_mem_set hreviewer with hold | rfl
      · exact (h.uses other (List.mem_append_left _ hold)).mono h.labelled hgrown.grown
      · exact hlater
    · exact (h.uses other (List.mem_append_right _ hchair)).mono h.labelled hgrown.grown
  · have hsame : (review.reviewers.map AgentUse.name)[k]? = some later.name := by
      rw [List.getElem?_map, hget, hname]
      rfl
    change (review.reviewers.set k later).map AgentUse.name = _
    rw [List.map_set, set_eq_self hsame, h.names]
  · change ∀ reviews ∈ review.phase.reviews, _
    rw [hphase]
    exact nofun

theorem Sound.chairTurn (h : call.Sound review) {prompt : ChairPrompt Findings}
    {chair later : AgentUse} {event : UseEvent} {manager : AgentManager}
    (hphase : review.phase = .chairing prompt chair)
    (hstep : chair.step call.describe review.manager event = some (later, manager)) :
    call.Sound { review with manager, phase := .chairing prompt later } := by
  have hchair : review.phase.chair = some chair := by rw [hphase]; rfl
  have hmem : chair ∈ review.uses := by
    rw [Review.uses, hchair]
    exact List.mem_append_right _ (by simp)
  obtain ⟨hgrown, hlater, hname, -⟩ := AgentUse.step_spec h.labelled (h.uses chair hmem) hstep
  refine ⟨hgrown.labelled, ?_, h.names, ?_, ?_, nofun⟩
  · intro other hother
    rcases List.mem_append.mp hother with hreviewer | hother
    · exact (h.uses other (List.mem_append_left _ hreviewer)).mono h.labelled hgrown.grown
    · obtain rfl : other = later := by simpa [ReviewPhase.chair] using hother
      exact hlater
  · intro other hother
    obtain rfl : other = later := by simpa [ReviewPhase.chair, eq_comm] using hother
    rw [hname]
    exact h.chair chair hchair
  · intro reviews hreviews
    refine h.gathered reviews ?_
    rw [hphase]
    exact hreviews

/-- The handler returns without a chair. -/
theorem Sound.withoutChair (h : call.Sound review) {result : CouncilResult Findings}
    (hphase : review.phase = .reviewing)
    (hresults : call.results review.reviewers = some result.reviews) :
    call.Sound { review with phase := .returned result none } := by
  refine ⟨h.labelled, ?_, h.names, nofun, ?_, nofun⟩
  · intro use hmem
    refine h.uses use ?_
    rw [Review.uses, hphase]
    exact hmem
  · intro reviews hreviews
    cases hreviews
    exact hresults

theorem Sound.gather (h : call.Sound review) {reviews : List (ReviewerResult Findings)}
    (hphase : review.phase = .reviewing) (hresults : call.results review.reviewers = some reviews) :
    call.Sound (call.gather reviews review) := by
  unfold ReviewCall.gather
  split
  · exact h.withoutChair hphase hresults
  · split
    · exact h.withoutChair hphase hresults
    · obtain ⟨hgrown, hchair⟩ := AgentUse.start_spec h.labelled call.params.chairSpec
        (show chairName call.reviewId ≠ [] from List.cons_ne_nil _ _)
        (js "chair spawn succeeded but lookup failed")
      refine ⟨hgrown.labelled, ?_, h.names, ?_, ?_, nofun⟩
      · intro other hother
        rcases List.mem_append.mp hother with hreviewer | hother
        · exact (h.uses other (List.mem_append_left _ hreviewer)).mono h.labelled hgrown.grown
        · rw [List.mem_singleton.mp hother]
          exact hchair
      · intro other hother
        cases hother
        rfl
      · intro other hother
        cases hother
        exact hresults

theorem Sound.synthesized (h : call.Sound review) {prompt : ChairPrompt Findings}
    {chair : AgentUse} {outcome : Outcome} (hphase : review.phase = .chairing prompt chair)
    (houtcome : chair.outcome = some outcome) {result : CouncilResult Findings}
    (hreviews : result.reviews = prompt.reviewers) :
    call.Sound { review with phase := .returned result (some chair) } := by
  refine ⟨h.labelled, ?_, h.names, ?_, ?_, ?_⟩
  · intro use hmem
    refine h.uses use ?_
    rw [Review.uses, hphase]
    exact hmem
  · intro other hother
    refine h.chair other ?_
    rw [hphase]
    exact hother
  · intro reviews hgathered
    refine h.gathered reviews ?_
    rw [hphase]
    exact (congrArg some hreviews.symm).trans hgathered
  · intro other returned hreturned
    cases hreturned
    rw [houtcome]
    rfl

theorem Sound.step (h : call.Sound review) {event : ReviewEvent}
    (hstep : call.step review event = some next) : call.Sound next := by
  unfold ReviewCall.step at hstep
  split at hstep
  case h_1 event phase =>
    obtain ⟨manager, hmanager, rfl⟩ := Option.map_eq_some_iff.mp hstep
    exact h.withManager (h.labelled.step hmanager)
  case h_2 k event phase =>
    obtain ⟨⟨later, manager⟩, huse, rfl⟩ := Option.map_eq_some_iff.mp hstep
    obtain ⟨use, hget, hturn⟩ := Option.bind_eq_some_iff.mp huse
    exact h.reviewer hget hturn
  case h_3 hphase =>
    obtain ⟨reviews, hresults, rfl⟩ := Option.map_eq_some_iff.mp hstep
    exact h.gather hphase hresults
  case h_4 event prompt chair hphase =>
    obtain ⟨⟨later, manager⟩, hturn, rfl⟩ := Option.map_eq_some_iff.mp hstep
    exact h.chairTurn hphase hturn
  case h_5 prompt chair hphase =>
    obtain ⟨outcome, houtcome, rfl⟩ := Option.map_eq_some_iff.mp hstep
    exact h.synthesized hphase houtcome rfl
  case h_6 => cases hstep

/-! ## What a returned review has done -/

variable (call) in
/-- The result is the one of a task. -/
structure Answers (task : ReviewTask) (result : ReviewerResult Findings) : Prop where
  name : result.name = reviewerName call.reviewId task
  driver : result.driver = task.spec.driver
  chunkIndex : result.chunkIndex = partIndex task.chunk

theorem answers_reviewerResult (task : ReviewTask) (outcome : Outcome) :
    Answers call task (reviewerResult call.parse call.reviewId task outcome) := by
  cases outcome <;> exact ⟨rfl, rfl, rfl⟩

theorem forall₂_answers {tasks : List ReviewTask} {outcomes : List Outcome}
    (h : tasks.length = outcomes.length) : List.Forall₂ (Answers call) tasks
      (tasks.zipWith (reviewerResult call.parse call.reviewId) outcomes) := by
  induction tasks generalizing outcomes with
  | nil => exact .nil
  | cons task rest ih =>
    cases outcomes with
    | nil => exact absurd h (by simp)
    | cons outcome others =>
      exact .cons (answers_reviewerResult task outcome) (ih (by simpa using h))

/-- Gathered results answer the tasks one by one. -/
theorem Sound.answers (h : call.Sound review) {reviews : List (ReviewerResult Findings)}
    (hreviews : reviews ∈ review.phase.reviews) :
    List.Forall₂ (Answers call) call.tasks reviews := by
  obtain ⟨outcomes, houtcomes, rfl⟩ := Option.map_eq_some_iff.mp (h.gathered reviews hreviews)
  refine forall₂_answers ?_
  have hdone := congrArg List.length (map_outcome houtcomes)
  have hnames := congrArg List.length h.names
  simp only [List.length_map] at hdone hnames
  rw [← hnames, hdone]

/-- Once the results are gathered, every reviewer is done. -/
theorem Sound.done (h : call.Sound review) {reviews : List (ReviewerResult Findings)}
    (hreviews : reviews ∈ review.phase.reviews) {use : AgentUse} (hmem : use ∈ review.reviewers) :
    use.outcome.isSome := by
  by_contra hopen
  rw [h.phase_eq hmem (by simpa using hopen)] at hreviews
  exact absurd hreviews (by simp [ReviewPhase.reviews])

/-- The manager is in a state it can reach. -/
def Reachable (manager : AgentManager) : Prop :=
  ∃ drivers processCwd schedule,
    run AgentManager.step (AgentManager.create drivers processCwd) schedule = some manager

variable (call) in
/-- One result for each task, ids that differ, and no agent left behind. -/
structure Covered (review : Review Findings) (reviews : List (ReviewerResult Findings)) : Prop where
  tasks : call.tasks.map (fun task ↦ ((task.spec, task.index), task.chunk)) =
    coverage call.params call.target
  results : List.Forall₂ (Answers call) call.tasks reviews
  distinct : (requestedIds call.params call.target call.reviewId).Nodup
  requested : review.uses.map AgentUse.name <+:
      requestedIds call.params call.target call.reviewId ∧
    ∀ use ∈ review.uses, ∃ spawn, review.manager.spawns[use.call]? = some spawn ∧
      spawn.opts.id = some use.name
  cleaned : ∀ use ∈ review.uses, use.outcome.isSome ∧
    (use.killFate = .returned → ∃ r, review.manager.phaseOf use.call = some (.succeeded r) ∧
      ∀ id, review.manager.get id ≠ some r)

/-- The ids of the reviewers' agents come first, then that of the chair's, if there is one. -/
theorem Sound.uses_requested (h : call.Sound review) : review.uses.map AgentUse.name <+:
    requestedIds call.params call.target call.reviewId := by
  rw [Review.uses, List.map_append, h.names, requestedIds, tasks, List.prefix_append_right_inj]
  cases hchair : review.phase.chair with
  | none => exact List.nil_prefix
  | some chair =>
    rw [← h.chair chair hchair]
    exact List.prefix_refl _

theorem Reachable.labelled {manager : AgentManager} (h : Reachable manager) : manager.Labelled := by
  obtain ⟨drivers, processCwd, schedule, hrun⟩ := h
  exact (throughout_of_invariant (fun _ _ _ hlabelled _ hstep ↦ (hlabelled.step hstep).labelled)
    (AgentManager.labelled_create drivers processCwd) (stepsMeet_true _ schedule)).last hrun

/-- Every returned review has covered its tasks and cleaned up, however its turns and those of the
manager interleave. -/
theorem council_review_covered {manager : AgentManager} (hmanager : Reachable manager)
    {schedule : List ReviewEvent} (hrun : run call.step (call.start manager) schedule = some review)
    {result : CouncilResult Findings} {chair : Option AgentUse}
    (hreturned : review.phase = .returned result chair) : Covered call review result.reviews := by
  have h : call.Sound review :=
    (throughout_of_invariant (fun _ _ _ hsound _ hstep ↦ hsound.step hstep)
      (call.sound_start hmanager.labelled) (stepsMeet_true _ schedule)).last hrun
  have hreviews : result.reviews ∈ review.phase.reviews := by
    rw [hreturned]
    rfl
  refine ⟨reviewTasks_coverage _ _, h.answers hreviews, requestedIds_nodup _ _ _,
    ⟨h.uses_requested, fun use hmem ↦ (h.uses use hmem).requested⟩, fun use hmem ↦ ⟨?_, fun hkill ↦ ?_⟩⟩
  · rcases List.mem_append.mp hmem with hreviewer | hchair
    · exact h.done hreviews hreviewer
    · rw [hreturned] at hchair
      cases chair with
      | none => exact absurd hchair List.not_mem_nil
      | some last =>
        rw [List.mem_singleton.mp hchair]
        exact h.finished result last hreturned
  · exact (h.uses use hmem).cleaned hkill

/-! ### A review by two reviewers -/

/-- One reviewer has tools of its own, the other gets the source in its prompt. -/
def ofPanel (source : JsString) : ReviewCall JsString where
  params := ⟨some [⟨js "codex", none⟩, ⟨js "ollama", none⟩], none, false, false⟩
  target := ⟨source, js "x.ts", .file⟩
  reviewId := js "r"
  parse := some
  describe _ := js "no agent"

/-- A manager with the drivers of both and the runtimes they need. -/
def panelManager : AgentManager :=
  ((AgentManager.create
    ⟨(JsMap.empty.set (js "codex") ⟨js "codex", [], [.exec]⟩).set (js "ollama")
      ⟨js "ollama", [], [.serverHttp]⟩, .empty, .empty⟩
    (js "/")).registerRuntime .exec).registerRuntime .serverHttp

def spawnTurns (k : ℕ) (mode : DriverMode) : List ReviewEvent :=
  [.manager (.probed k (some ⟨true, [], [mode]⟩) ⟨[], 0⟩), .manager (.built k false)]

/-- A reviewer answers, is killed, and is removed. -/
def answerTurns (k : ℕ) : List ReviewEvent :=
  [.reviewer k (.resumed false), .reviewer k (.answered (.ok (some (js "[]")))),
    .manager (.exit k), .reviewer k (.killed false)]

def panelTurns : List ReviewEvent :=
  spawnTurns 0 .exec ++ spawnTurns 1 .serverHttp ++ spawnTurns 2 .serverHttp ++
    answerTurns 1 ++ answerTurns 0 ++ answerTurns 2

def chairTurns : List ReviewEvent :=
  spawnTurns 3 .exec ++ [.chair (.resumed false), .chair (.answered (.ok (some (js "done")))),
    .manager (.exit 3), .chair (.killed false), .synthesized]

/-- Lines that are too long for one chunk come in two. -/
theorem chunkByLines_two {first second : JsString} {maxBytes : ℤ} (hfirst : newline ∉ first)
    (hsecond : newline ∉ second) (hlong : maxBytes < (first.length + second.length + 1 : ℕ)) :
    chunkByLines (LineGroups.join newline [first, second]) maxBytes =
      [⟨first, 1, 1, 0, 2⟩, ⟨second, 2, 2, 1, 2⟩] := by
  have hlength : (LineGroups.join newline [first, second]).length =
      first.length + second.length + 1 := by
    rw [LineGroups.join_cons newline first (List.cons_ne_nil _ _), LineGroups.join_singleton,
      List.length_append, List.length_cons]
    omega
  have hlines : (LineGroups.join newline [first, second]).splitOn newline = [first, second] := by
    apply LineGroups.splitOn_join (List.cons_ne_nil _ _)
    rintro line hline
    rcases List.mem_pair.mp hline with rfl | rfl
    · exact hfirst
    · exact hsecond
  have hfull : maxBytes < (first.length : ℤ) + 1 + ((second.length : ℤ) + 1) := by
    push_cast at hlong
    omega
  rw [chunkByLines, if_neg (by rw [hlength]; exact not_le.mpr hlong), hlines]
  cases hblank : isBlank first <;>
    simp [Chunking.loop, Chunking.step, Chunking.start, Chunking.full, Chunking.push, Chunking.cut,
      Chunking.finish, number, hblank, hfull]

section

variable {source first second : JsString}

/-- The two reviewers, the second once for each of two chunks. -/
def panelTasks (first second : JsString) : List ReviewTask :=
  [⟨⟨js "codex", none⟩, 0, .toolDriven (js "x.ts"), none⟩,
    ⟨⟨js "ollama", none⟩, 1, .inline (js "x.ts") ⟨first, 1, 1, 0, 2⟩, some ⟨first, 1, 1, 0, 2⟩⟩,
    ⟨⟨js "ollama", none⟩, 1, .inline (js "x.ts") ⟨second, 2, 2, 1, 2⟩, some ⟨second, 2, 2, 1, 2⟩⟩]

theorem tasks_ofPanel (h : chunkByLines source maxChunkBytes =
    [⟨first, 1, 1, 0, 2⟩, ⟨second, 2, 2, 1, 2⟩]) : (ofPanel source).tasks = panelTasks first second := by
  have hroute : route (ofPanel source).params (ofPanel source).target =
      ⟨[(⟨js "codex", none⟩, 0)], [(⟨js "ollama", none⟩, 1)]⟩ := rfl
  have hchunks : chunksOf (ofPanel source).params (ofPanel source).target =
      [⟨first, 1, 1, 0, 2⟩, ⟨second, 2, 2, 1, 2⟩] := by
    rw [chunksOf, hroute]
    exact h
  rw [tasks, reviewTasks, hroute, hchunks]
  rfl

theorem reviewerName_of_partOf {reviewId : JsString} {task : ReviewTask} {chunk : Chunk}
    (h : task.partOf = some chunk) : reviewerName reviewId task =
      js "council-" ++ reviewId ++ js "-c" ++ Json.decimal chunk.index ++ js "-reviewer-" ++
        Json.decimal task.index ++ js "-" ++ task.spec.driver := by
  rw [reviewerName, h]

/-- The uses of agents that the reviewers are, and the manager with their spawns. -/
def panelStart : List AgentUse × AgentManager :=
  let start (spec : ReviewerSpec) (name : JsString) (manager : AgentManager) :=
    AgentUse.start spec name (js "spawn succeeded but agent lookup failed") manager
  let codex := start ⟨js "codex", none⟩ (js "council-r-reviewer-0-codex") panelManager
  let ollama := start ⟨js "ollama", none⟩ (js "council-r-c0-reviewer-1-ollama") codex.2
  let again := start ⟨js "ollama", none⟩ (js "council-r-c1-reviewer-1-ollama") ollama.2
  ([codex.1, ollama.1, again.1], again.2)

theorem startAll_ofPanel : (ofPanel source).startAll (panelTasks first second) panelManager =
    panelStart := by
  have hcodex : reviewerName (ofPanel source).reviewId
      ⟨⟨js "codex", none⟩, 0, .toolDriven (js "x.ts"), none⟩ = js "council-r-reviewer-0-codex" := rfl
  have hname (chunk : Chunk) (hpart : chunk.total = 2) : reviewerName (ofPanel source).reviewId
      ⟨⟨js "ollama", none⟩, 1, .inline (js "x.ts") chunk, some chunk⟩ =
        js "council-" ++ js "r" ++ js "-c" ++ Json.decimal chunk.index ++ js "-reviewer-" ++
          Json.decimal 1 ++ js "-" ++ js "ollama" := by
    apply reviewerName_of_partOf
    rw [ReviewTask.partOf, Option.filter_some, hpart]
    rfl
  have hollama : js "council-" ++ js "r" ++ js "-c" ++ Json.decimal 0 ++ js "-reviewer-" ++
      Json.decimal 1 ++ js "-" ++ js "ollama" = js "council-r-c0-reviewer-1-ollama" := by decide
  have hagain : js "council-" ++ js "r" ++ js "-c" ++ Json.decimal 1 ++ js "-reviewer-" ++
      Json.decimal 1 ++ js "-" ++ js "ollama" = js "council-r-c1-reviewer-1-ollama" := by decide
  simp only [panelTasks, startAll, hcodex, hname, hollama, hagain]
  rfl

/-- All reviewers answer, and then the chair. -/
theorem run_ofPanel (h : chunkByLines source maxChunkBytes =
    [⟨first, 1, 1, 0, 2⟩, ⟨second, 2, 2, 1, 2⟩]) : ∃ review prompt chair last result lastChair,
      run (ofPanel source).step ((ofPanel source).start panelManager) (panelTurns ++ [.gathered]) =
        some review ∧
      review.phase = .chairing prompt chair ∧
      review.reviewers.map AgentUse.outcome =
        List.replicate 3 (some (.ok (some (js "[]")))) ∧
      run (ofPanel source).step review chairTurns = some last ∧
      last.phase = .returned result (some lastChair) ∧ result.reviews.length = 3 ∧
      last.manager.list = [] := by
  have htasks := tasks_ofPanel h
  have hstart : (ofPanel source).start panelManager =
      ⟨panelStart.2, panelStart.1, .reviewing⟩ := by
    rw [start, htasks, startAll_ofPanel]
  have hgather : ∀ review : Review JsString, review.phase = .reviewing →
      review.reviewers.mapM AgentUse.outcome = some (List.replicate 3 (.ok (some (js "[]")))) →
      (ofPanel source).step review .gathered = some ((ofPanel source).gather
        (List.zipWith (reviewerResult (ofPanel source).parse (ofPanel source).reviewId)
          (panelTasks first second) (List.replicate 3 (.ok (some (js "[]"))))) review) := by
    intro review hphase houtcomes
    unfold step
    rw [hphase]
    simp only [results, htasks, houtcomes, Option.map_some]
  rw [hstart, run_append]
  have hpanel : run (ofPanel source).step ⟨panelStart.2, panelStart.1, .reviewing⟩ panelTurns =
      some _ := rfl
  rw [hpanel, Option.bind_some, run_cons, hgather _ rfl rfl, Option.bind_some, run_nil]
  exact ⟨_, _, _, _, _, _, rfl, rfl, rfl, rfl, rfl, rfl, rfl⟩

end

/-- A line that fills a chunk, and another. -/
def longSource : JsString := LineGroups.join newline [List.replicate 30000 0x78, js "y"]

theorem chunks_longSource : chunkByLines longSource maxChunkBytes =
    [⟨List.replicate 30000 0x78, 1, 1, 0, 2⟩, ⟨js "y", 2, 2, 1, 2⟩] := by
  apply chunkByLines_two
  · intro hmem
    exact absurd (List.eq_of_mem_replicate hmem) (by decide)
  · decide
  · rw [List.length_replicate, maxChunkBytes]
    decide

theorem reachable_panelManager : Reachable panelManager :=
  ⟨_, _, [.registerRuntime .exec, .registerRuntime .serverHttp], rfl⟩

/-- Three reviews, then the chair's, and no agent is left. -/
theorem council_review_covered_panel :
    ∃ review result chair, Reachable panelManager ∧
      run (ofPanel longSource).step ((ofPanel longSource).start panelManager)
        (panelTurns ++ [.gathered] ++ chairTurns) = some review ∧
      review.phase = .returned result (some chair) ∧
      Covered (ofPanel longSource) review result.reviews ∧
      result.reviews.length = 3 ∧ review.manager.list = [] := by
  obtain ⟨review, prompt, chair, last, result, lastChair, hrun, -, -, hchair, hreturned, hthree,
    hempty⟩ := run_ofPanel chunks_longSource
  have hlast : run (ofPanel longSource).step ((ofPanel longSource).start panelManager)
      (panelTurns ++ [.gathered] ++ chairTurns) = some last := by
    rw [run_append, hrun, Option.bind_some, hchair]
  exact ⟨last, result, lastChair, reachable_panelManager, hlast, hreturned,
    council_review_covered reachable_panelManager hlast hreturned, hthree, hempty⟩

end ReviewCall

end Cordyceps.Council
