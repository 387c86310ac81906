import Cordyceps.Agents.ServerHttpController
import Cordyceps.Agents.ServerWsController

/-!
# Agents of one driver

A driver has one parser object, so the memory that an agent's parser keeps
between two feeds is at the mercy of the other agents of the driver. A run of
one agent next to any others is a run of its controller in which the memory may
be replaced between any two turns.
-/

namespace Cordyceps.Agents

open Foundations Foundations.StepMachine

/-- A turn of an agent, or turns of other agents under the same driver: they feed the same parser
object and may leave its memory in any state. -/
inductive SharedEvent (Event Scratch : Type*)
  | own (event : Event)
  | others (scratch : Scratch)

namespace SharedEvent

variable {Scratch Agent Event : Type*}

/-- The turns of an agent next to those of others. `put` overwrites the parser's memory. -/
def step (turn : Agent → Event → Option Agent) (put : Scratch → Agent → Agent) (agent : Agent) :
    SharedEvent Event Scratch → Option Agent
  | .own event => turn agent event
  | .others scratch => some (put scratch agent)

/-- A condition on the turns of the agent itself. -/
def OnOwn (condition : Agent → Event → Prop) (agent : Agent) : SharedEvent Event Scratch → Prop
  | .own event => condition agent event
  | .others _ => True

instance {condition : Agent → Event → Prop} [∀ agent event, Decidable (condition agent event)]
    (agent : Agent) : (event : SharedEvent Event Scratch) → Decidable (OnOwn condition agent event)
  | .own event => inferInstanceAs (Decidable (condition agent event))
  | .others _ => isTrue trivial

/-- The rule for runs of the controller alone holds next to other agents, if their turns keep the
invariant. -/
theorem throughout_iff {turn : Agent → Event → Option Agent} {put : Scratch → Agent → Agent}
    {condition : Agent → Event → Prop} {invariant property : Agent → Prop}
    (hkeep : ∀ agent event next, invariant agent → condition agent event →
      turn agent event = some next → invariant next)
    (hbreak : ∀ agent event next, invariant agent → ¬ condition agent event →
      turn agent event = some next → ¬ property next)
    (hput : ∀ scratch agent, invariant agent → invariant (put scratch agent))
    (hproperty : ∀ agent, invariant agent → property agent)
    {agent : Agent} (hinit : invariant agent) (schedule : List (SharedEvent Event Scratch)) :
    Throughout (step turn put) property agent schedule ↔
      StepsMeet (step turn put) (OnOwn condition) agent schedule := by
  apply StepMachine.throughout_iff
  · intro agent event next hinvariant hcondition hstep
    cases event with
    | own event => exact hkeep agent event next hinvariant hcondition hstep
    | others scratch =>
      cases hstep
      exact hput scratch agent hinvariant
  · intro agent event next hinvariant hcondition hstep
    cases event with
    | own event => exact hbreak agent event next hinvariant hcondition hstep
    | others scratch => exact absurd trivial hcondition
  · exact hproperty
  · exact hinit

end SharedEvent

section Put

variable {Scratch : Type*}

def ExecAgent.putScratch (scratch : Scratch) (agent : ExecAgent Scratch) : ExecAgent Scratch :=
  { agent with core := { agent.core with scratch } }

def HttpAgent.putScratch (scratch : Scratch) (agent : HttpAgent Scratch) : HttpAgent Scratch :=
  { agent with core := { agent.core with scratch } }

def PtyAgent.putScratch (scratch : Scratch) (agent : PtyAgent Scratch) : PtyAgent Scratch :=
  { agent with core := { agent.core with scratch } }

def WsAgent.putScratch (scratch : Scratch) (agent : WsAgent Scratch) : WsAgent Scratch :=
  { agent with core := { agent.core with scratch } }

end Put

end Cordyceps.Agents
