import Mathlib.Data.List.AList
import Mathlib.Data.Rat.Defs
import Mathlib.Algebra.Order.Ring.Rat

/-!
# Time, addresses and packets

Instants and durations are natural numbers of nanoseconds, an instant counting from an arbitrary
origin of the (pausable) clock. The `f64` ratios of the network graph and the `f64` draws of the
random generator are rationals.
-/

namespace QuicWorkbench

def Duration.fromMillis (ms : Nat) : Nat := ms * 1000000

def Duration.fromSecs (s : Nat) : Nat := s * 1000000000

abbrev Uuid := BitVec 128

/-- The standard library's hash map: at most one value for a key. Where the code iterates over a
map, the order of the iteration is given separately. -/
abbrev HashMap (K V : Type) := AList (fun _ : K => V)

/-- A draw of `Rng::f64`. -/
abbrev Roll := { q : ℚ // 0 ≤ q ∧ q < 1 }

def u64Max : Nat := 2 ^ 64 - 1

def usizeMax : Nat := 2 ^ 64 - 1

/-! ### Addresses -/

inductive IpAddr
  | v4 (bits : BitVec 32)
  | v6 (bits : BitVec 128)
  deriving DecidableEq, Repr

def IpAddr.isIpv4 : IpAddr → Bool
  | .v4 _ => true
  | .v6 _ => false

/-- The derived order of `IpAddr`: every v4 address is before every v6 address. -/
def IpAddr.le : IpAddr → IpAddr → Bool
  | .v4 a, .v4 b => a.toNat ≤ b.toNat
  | .v4 _, .v6 _ => true
  | .v6 _, .v4 _ => false
  | .v6 a, .v6 b => a.toNat ≤ b.toNat

structure SocketAddr where
  ip : IpAddr
  port : BitVec 16
  deriving DecidableEq, Repr

def hostPort : BitVec 16 := 8080

/-! ### Packets -/

inductive EcnCodepoint
  | ect0
  | ect1
  | ce
  deriving DecidableEq, Repr

/-- `EcnCodepoint as u8`. -/
def EcnCodepoint.toBits : EcnCodepoint → Nat
  | .ect0 => 0b10
  | .ect1 => 0b01
  | .ce => 0b11

structure OwnedTransmit where
  destination : SocketAddr
  ecn : Option EcnCodepoint
  contents : List UInt8
  segmentSize : Option Nat
  deriving DecidableEq

def udpOverhead : Nat := 8

def ipv4Overhead : Nat := 20

def ipv6Overhead : Nat := 40

def OwnedTransmit.packetSize (t : OwnedTransmit) : Nat :=
  let ipOverhead := if t.destination.ip.isIpv4 then ipv4Overhead else ipv6Overhead
  udpOverhead + ipOverhead + t.contents.length

theorem OwnedTransmit.packetSize_pos (t : OwnedTransmit) : 0 < t.packetSize := by
  simp only [packetSize, udpOverhead]; omega

/-- The address of a host's socket; its inbound queue is in the host's `NodeState`. -/
structure UdpEndpoint where
  addr : SocketAddr
  deriving DecidableEq

structure InTransitData where
  id : Uuid
  duplicate : Bool
  sourceEndpoint : UdpEndpoint
  sourceId : String
  transmit : OwnedTransmit
  number : Nat
  deriving DecidableEq

def InTransitData.packetSize (d : InTransitData) : Nat := d.transmit.packetSize

end QuicWorkbench
