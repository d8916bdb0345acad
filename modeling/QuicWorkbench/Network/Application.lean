import QuicWorkbench.Network.Tasks
import QuicWorkbench.QuinnInterop

/-!
# Applications on hosts

What applications ask of the network: the host at an address, a send whose panic reaches them, and a `receive` on the
socket of a host, into the slots of a `BufsAndMeta`.
-/

namespace QuicWorkbench

/-- The host bound to the provided address; `none` is a panic. -/
def InMemoryNetwork.host (net : InMemoryNetwork) (ip : IpAddr) : Option NodeIx :=
  (net.nodesByAddr.lookup ip).filter fun i => (net.node i).udpEndpoint.isSome

/-- Tasks of the network, events and the clock, but no application. -/
def Action.isInternal : Action → Bool
  | .trySend .. | .pollRecv .. => false
  | _ => true

/-- A packet with its source, as an application gets it. -/
structure UdpPacket where
  sourceAddr : SocketAddr
  payload : List UInt8
  deriving DecidableEq

namespace Slots

/-- `RecvMeta::default` -/
def defaultMeta : RecvMeta := { addr := ⟨.v6 0, 0⟩, len := 0, stride := 0, ecn := none, dstIp := none }

/-- `BufsAndMeta::new` -/
def new (maxPacketSize maxPacketsPerRead : Nat) : Slots :=
  { metas := List.replicate maxPacketsPerRead defaultMeta
    bufs := List.replicate maxPacketsPerRead (List.replicate maxPacketSize 0) }

/-- The packet in the slot; `none` is an index out of bounds. -/
def packet (slots : Slots) (i : Nat) : Option UdpPacket := do
  let recvMeta ← slots.metas[i]?
  let buf ← slots.bufs[i]?
  if recvMeta.len ≤ buf.length then some { sourceAddr := recvMeta.addr, payload := buf.take recvMeta.len } else none

end Slots

namespace State
variable (net : InMemoryNetwork) (s : State)

/-- `try_send`, whose panic in `forward` reaches the application (`error`). `none` is an assertion that fails. -/
def sendFrom (i : NodeIx) (transmit : OwnedTransmit) (uuid : Uuid) (draws : Draws) : Option (Except State State) :=
  match (net.node i).udpEndpoint with
  | none => none
  | some endpoint =>
    if transmit.segmentSize.isSome then none
    else
      let data := s.inTransitData net i endpoint transmit uuid
      let s := { s.newPacketId uuid with nextTransmitNumber := s.nextTransmitNumber + 1 }
      some (s.forward net i data draws)

/-- What a poll of `receive` leaves behind. -/
structure Received where
  /-- `none` while the read is pending. -/
  packets : Option (List UdpPacket)
  slots : Slots
  state : State

/-- A poll of `receive`; `none` is a panic. -/
def receive (i : NodeIx) (slots : Slots) : Option Received := do
  let recv ← InMemoryUdpSocket.pollRecv (s.sockets i) (s.nodes i).inbound s.now i slots
  let state := recv.read.foldl (fun s data => s.trackReadByHost net i data)
    { s.setNode i { s.nodes i with inbound := recv.queue } with
      sockets := Function.update s.sockets i (some recv.nextPacketDelivery) }
  match recv.result with
  | none => some { packets := none, slots := recv.slots, state }
  | some count => do
    let packets ← (List.range count).mapM recv.slots.packet
    some { packets := some packets, slots := recv.slots, state }

end State
end QuicWorkbench
