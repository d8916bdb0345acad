import QuicWorkbench.Transmit

/-!
# Network graphs

The parsed form of a network graph: nodes with interfaces, addresses and routes, and directed links
between addresses.
-/

namespace QuicWorkbench

structure Ipv4Cidr where
  address : BitVec 32
  networkPrefix : Nat
  deriving DecidableEq

def Ipv4Cidr.asIpAddr (c : Ipv4Cidr) : IpAddr := .v4 c.address

structure IpRange where
  start : IpAddr
  endInclusive : IpAddr
  deriving DecidableEq

def IpRange.contains (r : IpRange) (ip : IpAddr) : Bool :=
  r.start.le ip && ip.le r.endInclusive

/-- Why the mask of a range is not computed. A release build goes on with a number that has wrapped around. -/
inductive MaskPanic
  | subtractWithOverflow
  | shiftLeftWithOverflow
  deriving DecidableEq

def subU8 (a b : Nat) : Except MaskPanic Nat :=
  if b ≤ a then .ok (a - b) else .error .subtractWithOverflow

def shlU32 (a : BitVec 32) (k : Nat) : Except MaskPanic (BitVec 32) :=
  if k < 32 then .ok (a <<< k) else .error .shiftLeftWithOverflow

def IpRange.fromCidr (addr : Ipv4Cidr) : Except MaskPanic IpRange := do
  let shift ← subU8 32 addr.networkPrefix
  let mask ← shlU32 (.allOnes 32) shift
  return { start := .v4 (addr.address &&& mask), endInclusive := .v4 (addr.address ||| ~~~mask) }

structure Route where
  destination : IpRange
  next : IpAddr
  cost : Nat
  deriving DecidableEq

def Route.nextHopTowardsDestination (r : Route) (ip : IpAddr) : Option IpAddr :=
  if r.destination.contains ip then some r.next else none

inductive NodeKind
  | host
  | router
  deriving DecidableEq

structure NetworkInterface where
  addresses : List Ipv4Cidr
  routes : List Route
  deriving DecidableEq

structure NetworkNodeSpec where
  id : String
  bufferSizeBytes : Nat
  kind : NodeKind
  interfaces : List NetworkInterface
  packetLossRatio : ℚ
  packetDuplicationRatio : ℚ

def NetworkNodeSpec.addresses (n : NetworkNodeSpec) : List IpAddr :=
  n.interfaces.flatMap fun i => i.addresses.map Ipv4Cidr.asIpAddr

structure NetworkLinkSpec where
  id : String
  source : IpAddr
  target : IpAddr
  delay : Nat
  bandwidthBps : Nat
  congestionEventRatio : ℚ
  extraDelay : Nat
  extraDelayRatio : ℚ

structure NetworkSpec where
  nodes : List NetworkNodeSpec
  links : List NetworkLinkSpec

end QuicWorkbench
