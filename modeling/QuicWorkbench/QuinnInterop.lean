import QuicWorkbench.Network.InboundQueue

/-!
# Reading from a socket

`InMemoryUdpSocket::poll_recv` with the slices of the call. The tracer and the pcap exporter are left to the list of the
packets that the loop goes through.
-/

namespace QuicWorkbench

structure RecvMeta where
  addr : SocketAddr
  len : Nat
  stride : Nat
  ecn : Option EcnCodepoint
  dstIp : Option IpAddr
  deriving DecidableEq

/-- The meta of a slot, once a packet has been written to it. -/
def RecvMeta.ofPacket (data : InTransitData) : RecvMeta :=
  { addr := data.sourceEndpoint.addr
    ecn := data.transmit.ecn
    dstIp := some data.transmit.destination.ip
    len := data.transmit.contents.length
    stride := data.transmit.segmentSize.getD data.transmit.contents.length }

/-- The slices that a caller of `poll_recv` passes. -/
structure Slots where
  metas : List RecvMeta
  bufs : List (List UInt8)
  deriving DecidableEq

/-- `buf[..contents.len()].copy_from_slice(contents)`. -/
def copyFromSlice (buf contents : List UInt8) : List UInt8 := contents ++ buf.drop contents.length

namespace InMemoryUdpSocket

/-- The loop of `poll_recv` over the delivered packets, zipped with the slots: what it leaves in the slots, and the packets
that it tracks as read by the host (and in the capture). `none` is a panic: a packet does not fit its buffer. -/
def fillSlots : List DeliveredTransmit → List RecvMeta → List (List UInt8) → Option (Slots × List InTransitData)
  | x :: delivered, _ :: metas, buf :: bufs =>
    if buf.length < x.data.transmit.contents.length then none
    else
      (fillSlots delivered metas bufs).map fun r =>
        ({ metas := .ofPacket x.data :: r.1.metas, bufs := copyFromSlice buf x.data.transmit.contents :: r.1.bufs },
          x.data :: r.2)
  | _, metas, bufs => some ({ metas, bufs }, [])

/-- What a call of `poll_recv` leaves behind. -/
structure Recv where
  /-- The count that is returned, unless the call is pending. -/
  result : Option Nat
  slots : Slots
  read : List InTransitData
  nextPacketDelivery : NextPacketDelivery
  queue : InboundQueue

/-- `none` is a panic. The future is created by the first call, with the number of its slots. -/
def pollRecv (nextPacketDelivery : Option NextPacketDelivery) (queue : InboundQueue) (now : Nat) (waker : Waker)
    (slots : Slots) : Option Recv :=
  let maxTransmits := slots.metas.length
  if slots.bufs.length < slots.metas.length then none
  else
    let delivery := nextPacketDelivery.getD (.new maxTransmits)
    match delivery.poll queue now waker with
    | (.pending _, nextPacketDelivery, queue) => some { result := none, slots, read := [], nextPacketDelivery, queue }
    | (.ready delivered, nextPacketDelivery, queue) =>
      let deliveredLen := delivered.length
      (fillSlots delivered slots.metas slots.bufs).map fun r =>
        { result := some deliveredLen, slots := r.1, read := r.2, nextPacketDelivery, queue }

end InMemoryUdpSocket
end QuicWorkbench
