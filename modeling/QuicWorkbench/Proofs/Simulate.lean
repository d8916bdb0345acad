import QuicWorkbench.Proofs.Runs

/-!
# Simulations

`simulate` initializes a network at instant 0, in time-warp mode, and performs a run: states that
`Reaches` speaks about, computed. `hostPair` are small networks to simulate: a host `A` with two links
to a host `B`, the first one preferred.
-/

namespace QuicWorkbench

/-- The network of a graph and the state after a run, or `none` where the graph is rejected or an action
is not enabled. -/
def simulate (spec : NetworkSpec) (events : List NetworkEvent) (actions : List Action) :
    Option (InMemoryNetwork × State) :=
  match InMemoryNetwork.initializeNetwork spec (.new events spec.nodes spec.links) 0 0 0 false with
  | .error _ => none
  | .ok (net, s) => (net.machine.run s actions).map fun s => (net, s)

theorem reaches_of_simulate {spec : NetworkSpec} {events : List NetworkEvent} {actions : List Action}
    {net : InMemoryNetwork} {s : State} (h : simulate spec events actions = some (net, s)) :
    Reaches false spec events net s := by
  unfold simulate at h
  split at h
  · simp at h
  · rename_i net₀ s₀ hinit
    obtain ⟨s', hrun, heq⟩ := Option.map_eq_some_iff.1 h
    obtain ⟨rfl, rfl⟩ := by simpa using heq
    exact ⟨0, 0, 0, s₀, actions, Nat.le_refl _, Nat.le_refl _, hinit, hrun⟩

theorem exists_reaches_of_simulate (spec : NetworkSpec) (events : List NetworkEvent) (actions : List Action)
    (P : InMemoryNetwork → State → Bool) (h : (simulate spec events actions).any (fun x => P x.1 x.2)) :
    ∃ net s, Reaches false spec events net s ∧ P net s = true := by
  cases hsim : simulate spec events actions with
  | none => simp [hsim] at h
  | some x => exact ⟨x.1, x.2, reaches_of_simulate hsim, by simpa [hsim] using h⟩

/-- The run is enabled, every action of it meets `C`, and `P` holds in the end. -/
def simulateGuarded (spec : NetworkSpec) (events : List NetworkEvent) (actions : List Action)
    (C : InMemoryNetwork → State → Action → Prop) [∀ net s a, Decidable (C net s a)]
    (P : InMemoryNetwork → State → Bool) : Bool :=
  match InMemoryNetwork.initializeNetwork spec (.new events spec.nodes spec.links) 0 0 0 false with
  | .error _ => false
  | .ok (net, s) => decide (net.machine.Guarded (C net) s actions) && (net.machine.run s actions).any (P net)

theorem exists_of_simulateGuarded (spec : NetworkSpec) (events : List NetworkEvent) (actions : List Action)
    (C : InMemoryNetwork → State → Action → Prop) [∀ net s a, Decidable (C net s a)]
    (P : InMemoryNetwork → State → Bool) (h : simulateGuarded spec events actions C P) :
    ∃ net s₀ s, InMemoryNetwork.initializeNetwork spec (.new events spec.nodes spec.links) 0 0 0 false = .ok (net, s₀) ∧
      net.machine.Guarded (C net) s₀ actions ∧ net.machine.run s₀ actions = some s ∧ P net s = true := by
  unfold simulateGuarded at h
  split at h
  · simp at h
  · rename_i net s₀ hinit
    rw [Bool.and_eq_true, decide_eq_true_eq] at h
    obtain ⟨hC, hP⟩ := h
    cases hrun : net.machine.run s₀ actions with
    | none => simp [hrun] at hP
    | some s => exact ⟨net, s₀, s, hinit, hC, hrun, by simpa [hrun] using hP⟩

/-! ### Hosts with two links -/

namespace HostPair

def a₁ : BitVec 32 := 0x0a000001

def a₂ : BitVec 32 := 0x0a000002

def b : BitVec 32 := 0x0a000009

def host (id : String) (addresses : List (BitVec 32)) (bufferSizeBytes : Nat) : NetworkNodeSpec :=
  { id, bufferSizeBytes
    kind := .host
    interfaces := [{ addresses := addresses.map fun a => ⟨a, 24⟩, routes := [] }]
    packetLossRatio := 0
    packetDuplicationRatio := 0 }

/-- A link to `B` with a delay of 5 ms. -/
def link (id : String) (source : BitVec 32) (bandwidthBps : Nat) (congestionEventRatio : ℚ) : NetworkLinkSpec :=
  { id
    source := .v4 source
    target := .v4 b
    delay := Duration.fromMillis 5
    bandwidthBps
    congestionEventRatio
    extraDelay := 0
    extraDelayRatio := 0 }

end HostPair

def hostPair (bandwidthBps : Nat) (congestionEventRatio : ℚ) : NetworkSpec :=
  { nodes := [HostPair.host "A" [HostPair.a₁, HostPair.a₂] 1000, HostPair.host "B" [HostPair.b] 1000]
    links := [HostPair.link "a1b" HostPair.a₁ bandwidthBps congestionEventRatio,
      HostPair.link "a2b" HostPair.a₂ bandwidthBps congestionEventRatio] }

/-- Two hosts with links both ways. -/
def hostLoop : NetworkSpec :=
  { nodes := [HostPair.host "A" [HostPair.a₁] 1000, HostPair.host "B" [HostPair.b] 1000]
    links := [HostPair.link "ab" HostPair.a₁ 8000000 0,
      { HostPair.link "ba" HostPair.b 8000000 0 with target := .v4 HostPair.a₁ }] }

namespace HostPair

/-- A packet of 128 bytes to `B`. -/
def transmit : OwnedTransmit :=
  { destination := ⟨.v4 b, hostPort⟩
    ecn := some .ect0
    contents := List.replicate 100 0
    segmentSize := none }

/-- The packet that `A` sends first, with id 1. -/
def firstPacket : InTransitData :=
  { id := 1
    duplicate := false
    sourceEndpoint := ⟨⟨.v4 a₁, hostPort⟩⟩
    sourceId := "A"
    transmit
    number := 0 }

def draws (uuid : Uuid) : Draws := { roll := ⟨0, by decide, by decide⟩, uuid, slot := 0 }

def rolls : Nat → Roll × Roll := fun _ => (⟨0, by decide, by decide⟩, ⟨0, by decide, by decide⟩)

/-- `A` sends a packet, and its node's task offers it to both links. -/
def sendFromA (uuid : Uuid) : List Action := [.trySend 0 transmit uuid (draws 0), .nodeTask 0 rolls]

def linkEvent (relativeTime : Nat) (linkId : String) (status : UpdateLinkStatus) : NetworkEvent :=
  { relativeTime, kind := .link { linkId, status := some status } }

def nodeEvent (relativeTime : Nat) (nodeId : String) (status : Option UpdateNodeStatus) (clearBuffer : Bool) :
    NetworkEvent :=
  { relativeTime, kind := .node { nodeId, status, clearBuffer } }

end HostPair

end QuicWorkbench
