import Cordyceps.Agents.Manager
import Cordyceps.Council.Panel

/-!
# A council review

The handler of `council.review` from the resolved target on, as a step machine over the agent
manager. All reviewers run at the same time, and any turn of the manager may come between
two turns of the review: what happens inside `spawn`, what other clients do, an agent exiting.
A reviewer and the chair use an agent alike: spawn it, look it up, wait if it is a terminal,
submit, kill, and remove it by the id it was given.
-/

namespace Cordyceps.Council

open Foundations Foundations.StepMachine Cordyceps.Agents

/-! ## Using an agent -/

/-- What became of the kill in the `finally` block. -/
inductive KillFate
  | noAgent
  | returned
  | threw
  deriving DecidableEq, Repr

/-- Where `runOneReviewer` or `runChair` stands. `agent` is what `ctx.agents.get` gave. -/
inductive UsePhase
  | spawning
  | warming (agent : ℕ) (actualId : JsString)
  | submitting (agent : ℕ) (actualId : JsString)
  | killing (agent : ℕ) (actualId : JsString) (outcome : Outcome)
  | done (outcome : Outcome) (kill : KillFate)

/-- One use of an agent: the requested id, the `spawn` call, and the error of a failed lookup. -/
structure AgentUse where
  name : JsString
  call : ℕ
  lookupFailed : JsString
  phase : UsePhase

/-- What an agent does next. A terminal is given time to warm up first. -/
inductive UseEvent
  | resumed (isPty : Bool)
  | warmedUp
  | answered (outcome : Outcome)
  | killed (threw : Bool)

/-- The argument of `ctx.agents.spawn`. -/
def spawnOptions (spec : ReviewerSpec) (name : JsString) : SpawnOptions where
  id := some name
  cwd := none
  profile := some (Json.insert (js "mode") (resolveCouncilMode spec) (spec.profile.getD []))
  env := none

namespace AgentUse

/-- A call of `runOneReviewer` or `runChair`, up to the `await` of the spawn. -/
def start (spec : ReviewerSpec) (name lookupFailed : JsString) (manager : AgentManager) :
    AgentUse × AgentManager :=
  (⟨name, manager.spawns.length, lookupFailed, .spawning⟩,
    manager.spawn spec.driver (spawnOptions spec name))

def outcome (use : AgentUse) : Option Outcome :=
  match use.phase with
  | .done outcome _ => some outcome
  | _ => none

def killFate (use : AgentUse) : KillFate :=
  match use.phase with
  | .done _ kill => kill
  | _ => .noAgent

/-- The continuation of `await ctx.agents.spawn`, with the runtime it returned. -/
def lookUp (use : AgentUse) (isPty : Bool) (actualId : JsString) (manager : AgentManager) :
    AgentUse :=
  match manager.get actualId with
  | none => { use with phase := .done (.error use.lookupFailed) .noAgent }
  | some agent =>
    { use with phase := if isPty then .warming agent actualId else .submitting agent actualId }

/-- `ctx.agents.remove(actualId)` behind the kill; what it throws is ignored. -/
def removeAgent (actualId : JsString) (manager : AgentManager) : AgentManager :=
  if actualId.isEmpty then manager else manager.remove actualId

/-- One turn of an agent's use; `describe` gives the texts of spawn errors. A kill that returns has
seen the agent exit. -/
def step (describe : SpawnError → JsString) (use : AgentUse) (manager : AgentManager)
    (event : UseEvent) : Option (AgentUse × AgentManager) :=
  match event, use.phase with
  | .resumed isPty, .spawning =>
    match manager.phaseOf use.call with
    | some (.failed error) =>
      some ({ use with phase := .done (.error (describe error)) .noAgent }, manager)
    | some (.succeeded r) =>
      manager.objects[r]?.map fun info ↦ (use.lookUp isPty info.id manager, manager)
    | _ => none
  | .warmedUp, .warming agent actualId =>
    some ({ use with phase := .submitting agent actualId }, manager)
  | .answered outcome, .submitting agent actualId =>
    some ({ use with phase := .killing agent actualId outcome },
      manager.killRuntime (js "SIGTERM") agent)
  | .killed threw, .killing agent actualId outcome =>
    if threw then
      some ({ use with phase := .done outcome .threw }, removeAgent actualId manager)
    else if manager.exitedOf agent then
      some ({ use with phase := .done outcome .returned }, removeAgent actualId manager)
    else none
  | _, _ => none

end AgentUse

/-! ## The handler -/

section

variable {Findings : Type*}

/-- What `chairPrompt` is called with. -/
structure ChairPrompt (Findings : Type*) where
  targetPath : JsString
  reviewers : List (ReviewerResult Findings)
  totalChunks : ℕ

structure CouncilResult (Findings : Type*) where
  reviews : List (ReviewerResult Findings)
  synthesis : JsString
  chairError : Option JsString

/-- What `runChair` returns. -/
def chairOut (outcome : Outcome) : JsString × Option JsString :=
  match outcome with
  | .ok text => (text.getD (js "(chair produced no output)"), none)
  | .error message => ([], some message)

inductive ReviewPhase (Findings : Type*)
  | reviewing
  | chairing (prompt : ChairPrompt Findings) (chair : AgentUse)
  | returned (result : CouncilResult Findings) (chair : Option AgentUse)

structure Review (Findings : Type*) where
  manager : AgentManager
  reviewers : List AgentUse
  phase : ReviewPhase Findings

inductive ReviewEvent
  | manager (event : ManagerEvent)
  | reviewer (k : ℕ) (event : UseEvent)
  | gathered
  | chair (event : UseEvent)
  | synthesized

/-- What a review is called with, and what it takes from elsewhere: the random `reviewId`,
`JSON.parse`, and the texts of spawn errors. -/
structure ReviewCall (Findings : Type*) where
  params : CouncilParams
  target : Target
  reviewId : JsString
  parse : JsString → Option Findings
  describe : SpawnError → JsString

namespace ReviewCall

variable (call : ReviewCall Findings)

def tasks : List ReviewTask := reviewTasks call.params call.target

/-- The reviewers are started one after the other, without waiting. -/
def startAll : List ReviewTask → AgentManager → List AgentUse × AgentManager
  | [], manager => ([], manager)
  | task :: rest, manager =>
    let (use, manager) := AgentUse.start task.spec (reviewerName call.reviewId task)
      (js "spawn succeeded but agent lookup failed") manager
    let (uses, manager) := startAll rest manager
    (use :: uses, manager)

/-- The handler, up to the `await` of the reviewers. -/
def start (manager : AgentManager) : Review Findings :=
  let (reviewers, manager) := call.startAll call.tasks manager
  ⟨manager, reviewers, .reviewing⟩

/-- The results of the reviewers, once all of them have one. -/
def results (reviewers : List AgentUse) : Option (List (ReviewerResult Findings)) :=
  (reviewers.mapM AgentUse.outcome).map fun outcomes ↦
    call.tasks.zipWith (reviewerResult call.parse call.reviewId) outcomes

/-- The handler with the results of the reviewers. -/
def gather (reviews : List (ReviewerResult Findings)) (review : Review Findings) :
    Review Findings :=
  if reviews.all fun result ↦ !result.succeeded then
    { review with
      phase := .returned ⟨reviews, js "(all reviewers failed — no synthesis)", none⟩ none }
  else if call.params.noChair then { review with phase := .returned ⟨reviews, [], none⟩ none }
  else
    let (chair, manager) := AgentUse.start call.params.chairSpec (chairName call.reviewId)
      (js "chair spawn succeeded but lookup failed") review.manager
    { review with
      manager
      phase := .chairing
        ⟨call.target.label, reviews, (chunksOf call.params call.target).length⟩ chair }

/-- One turn. An event that cannot happen in a state has no successor. -/
def step (review : Review Findings) (event : ReviewEvent) : Option (Review Findings) :=
  match event, review.phase with
  | .manager event, _ => (review.manager.step event).map fun manager ↦ { review with manager }
  | .reviewer k event, _ =>
    (review.reviewers[k]?.bind fun use ↦ use.step call.describe review.manager event).map
      fun (use, manager) ↦ { review with manager, reviewers := review.reviewers.set k use }
  | .gathered, .reviewing =>
    (call.results review.reviewers).map fun reviews ↦ call.gather reviews review
  | .chair event, .chairing prompt chair =>
    (chair.step call.describe review.manager event).map fun (chair, manager) ↦
      { review with manager, phase := .chairing prompt chair }
  | .synthesized, .chairing prompt chair =>
    chair.outcome.map fun outcome ↦
      { review with
        phase := .returned
          ⟨prompt.reviewers, (chairOut outcome).1, (chairOut outcome).2⟩ (some chair) }
  | _, _ => none

end ReviewCall

end

end Cordyceps.Council
