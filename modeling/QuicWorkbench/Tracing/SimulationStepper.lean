import QuicWorkbench.Tracing.SimulationStep

/-!
# The stepper

What can be asked about the steps recorded so far: where a packet has been, and when.
-/

namespace QuicWorkbench

/-- The hop of the step, if the packet with the id is in a node. -/
def SimulationStep.hop (id : Uuid) (step : SimulationStep) : Option (Nat × String) :=
  match step.kind with
  | .packetInNode s => if s.packetId = id then some (step.relativeTime, s.nodeId) else none
  | _ => none

/-- When the packet with the id came to the node, if the step says so. -/
def SimulationStep.arrivedAt (packetId : Uuid) (nodeId : String) (step : SimulationStep) : Option Nat :=
  match step.kind with
  | .packetInNode kind => if kind.packetId = packetId ∧ kind.nodeId = nodeId then some step.relativeTime else none
  | _ => none

structure SimulationStepper where
  steps : List SimulationStep

namespace SimulationStepper

def record (self : SimulationStepper) (step : SimulationStep) : SimulationStepper := { steps := self.steps ++ [step] }

def getPacketHops (self : SimulationStepper) (id : Uuid) : List (Nat × String) := self.steps.filterMap (·.hop id)

def getPacketPath (self : SimulationStepper) (id : Uuid) : List String := (self.getPacketHops id).map Prod.snd

def getPacketArrivedAt (self : SimulationStepper) (packetId : Uuid) (nodeId : String) : Option Nat :=
  (self.steps.filterMap (·.arrivedAt packetId nodeId)).head?

end SimulationStepper

end QuicWorkbench
