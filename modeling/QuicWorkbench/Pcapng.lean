import QuicWorkbench.Lib.BitFields
import QuicWorkbench.Lib.F64
import QuicWorkbench.PcapExporter

/-!
# The bytes and time stamps of a capture

The exporter once more, with the bytes of its packets and with the clock: `PcapExporter` leaves out how a packet is wrapped
and when it is written, and `capture_readsAs` says that it leaves out nothing else. The functions of the packet library that
write and sum the bytes of a packet are a parameter (`PnetPacket`); the blocks of a packet are as they are handed to the
capture's writer.
-/

namespace QuicWorkbench
namespace Pcapng
open BigEndian BitFields

/-! ### The packet library -/

inductive UdpField
  | source
  | destination
  | length
  | checksum
  deriving DecidableEq

/-- The layout of RFC 768. -/
def udpHeader : Header UdpField where
  layout
    | .source => ⟨0, 16⟩
    | .destination => ⟨16, 16⟩
    | .length => ⟨32, 16⟩
    | .checksum => ⟨48, 16⟩
  size := 8
  disjoint f g h := by cases f <;> cases g <;> first | exact absurd rfl h | decide
  fits f := by cases f <;> decide

inductive Ipv4Field
  | version
  | headerLength
  | dscp
  | ecn
  | totalLength
  | identification
  | flags
  | fragmentOffset
  | ttl
  | nextLevelProtocol
  | checksum
  | source
  | destination
  deriving DecidableEq

/-- The layout of RFC 791, without options. -/
def ipv4Header : Header Ipv4Field where
  layout
    | .version => ⟨0, 4⟩
    | .headerLength => ⟨4, 4⟩
    | .dscp => ⟨8, 6⟩
    | .ecn => ⟨14, 2⟩
    | .totalLength => ⟨16, 16⟩
    | .identification => ⟨32, 16⟩
    | .flags => ⟨48, 3⟩
    | .fragmentOffset => ⟨51, 13⟩
    | .ttl => ⟨64, 8⟩
    | .nextLevelProtocol => ⟨72, 8⟩
    | .checksum => ⟨80, 16⟩
    | .source => ⟨96, 32⟩
    | .destination => ⟨128, 32⟩
  size := 20
  disjoint f g h := by cases f <;> cases g <;> first | exact absurd rfl h | decide
  fits f := by cases f <;> decide

/-- The protocol number of UDP. -/
def udpProtocol : Nat := 17

/-- The words of the pseudo-header of a UDP packet. -/
def pseudoHeader (source destination : BitVec 32) (udpLength : Nat) : List Nat :=
  [source.toNat / 2 ^ 16, source.toNat % 2 ^ 16, destination.toNat / 2 ^ 16, destination.toNat % 2 ^ 16, udpProtocol, udpLength]

/-- Write bytes over those of a buffer. -/
def setBytes (buffer : List UInt8) (offset : Nat) (bytes : List UInt8) : List UInt8 :=
  buffer.take offset ++ bytes ++ buffer.drop (offset + bytes.length)

/-- What the exporter calls of `pnet_packet`, on the bytes that back a packet: the setters of `MutableUdpPacket` and
`MutableIpv4Packet`, of which those of the payload may panic, the two checksums, and `packet_size`. -/
structure PnetPacket where
  setUdp : UdpField → Nat → List UInt8 → List UInt8
  setUdpPayload : List UInt8 → List UInt8 → Option (List UInt8)
  udpIpv4Checksum : List UInt8 → BitVec 32 → BitVec 32 → Nat
  setIpv4 : Ipv4Field → Nat → List UInt8 → List UInt8
  setIpv4Payload : List UInt8 → List UInt8 → Option (List UInt8)
  ipv4Checksum : List UInt8 → Nat
  ipv4PacketSize : List UInt8 → Nat

/-- What the library documents of them, as far as the exporter relies on it. -/
structure PnetPacket.Documented (P : PnetPacket) : Prop where
  setUdp : udpHeader.SetBy P.setUdp
  /-- The payload is copied behind the header if it fits the slice. -/
  setUdpPayload : ∀ payload slice, P.setUdpPayload payload slice =
    if 8 + payload.length ≤ slice.length then some (setBytes slice 8 payload) else none
  /-- All of the slice is summed but for the checksum, and its length is the one of the pseudo-header. -/
  udpIpv4Checksum : ∀ slice source destination, P.udpIpv4Checksum slice source destination =
    InternetChecksum.checksum (pseudoHeader source destination slice.length ++ (words slice).eraseIdx 3)
  setIpv4 : ipv4Header.SetBy P.setIpv4
  /-- It is asserted that the payload is no longer than the total length says, which is the one in the slice at the time. -/
  setIpv4Payload : ∀ payload slice, ipv4Header.get .headerLength slice = 5 → P.setIpv4Payload payload slice =
    if payload.length ≤ ipv4Header.get .totalLength slice - 20 ∧ 20 + payload.length ≤ slice.length then
      some (setBytes slice 20 payload)
    else none
  ipv4PacketSize : ∀ slice, ipv4Header.get .headerLength slice = 5 → 20 ≤ ipv4Header.get .totalLength slice →
    P.ipv4PacketSize slice = ipv4Header.get .totalLength slice

/-- A library that does what is documented. -/
def PnetPacket.reference : PnetPacket where
  setUdp := udpHeader.put
  setUdpPayload payload slice := if 8 + payload.length ≤ slice.length then some (setBytes slice 8 payload) else none
  udpIpv4Checksum slice source destination :=
    InternetChecksum.checksum (pseudoHeader source destination slice.length ++ (words slice).eraseIdx 3)
  setIpv4 := ipv4Header.put
  setIpv4Payload payload slice :=
    let headerLength := ipv4Header.get .headerLength slice * 4
    if payload.length ≤ ipv4Header.get .totalLength slice - headerLength ∧ headerLength + payload.length ≤ slice.length then
      some (setBytes slice headerLength payload)
    else none
  ipv4Checksum slice := InternetChecksum.checksum ((words (slice.take (ipv4Header.get .headerLength slice * 4))).eraseIdx 5)
  ipv4PacketSize slice := max (ipv4Header.get .headerLength slice * 4) (ipv4Header.get .totalLength slice)

theorem PnetPacket.reference_documented : PnetPacket.reference.Documented where
  setUdp := udpHeader.setBy_put
  setUdpPayload _ _ := rfl
  udpIpv4Checksum _ _ _ := rfl
  setIpv4 := ipv4Header.setBy_put
  setIpv4Payload payload slice h := by simp only [reference, h]
  ipv4PacketSize slice h hle := by
    show max (ipv4Header.get .headerLength slice * 4) (ipv4Header.get .totalLength slice) = _
    rw [h]
    omega

/-! ### Packets -/

def bufferSize : Nat := 2000

/-- The buffer with the contents wrapped in a UDP packet. The checksum is computed before it is set. -/
def udpBuffer (P : PnetPacket) (source destination : BitVec 32) (sourcePort destinationPort : BitVec 16)
    (contents : List UInt8) : Option (List UInt8) := do
  let buffer := List.replicate bufferSize 0
  let udpPacketLength := udpOverhead + contents.length
  let buffer := P.setUdp .source sourcePort.toNat buffer
  let buffer := P.setUdp .destination destinationPort.toNat buffer
  let buffer := P.setUdp .length udpPacketLength buffer
  let buffer ← P.setUdpPayload contents buffer
  let checksum := P.udpIpv4Checksum buffer source destination
  some (P.setUdp .checksum checksum buffer)

/-- The UDP packet at the front of the buffer, wrapped in an IP packet in the same buffer: the total length is set behind the
payload, so that the bytes of the UDP packet are in its place before. -/
def ipPacket (P : PnetPacket) (source destination : BitVec 32) (ecn udpPacketLength : Nat) (buffer : List UInt8) :
    Option (List UInt8) := do
  let udpPacket := buffer.take udpPacketLength
  let ipPacketLength := ipv4Overhead + udpPacketLength
  let buffer := P.setIpv4 .version 4 buffer
  let buffer := P.setIpv4 .headerLength 5 buffer -- we don't use options
  let buffer := P.setIpv4 .dscp 0 buffer
  let buffer := P.setIpv4 .identification 0 buffer -- we never fragment
  let buffer := P.setIpv4 .flags 0b010 buffer
  let buffer := P.setIpv4 .fragmentOffset 0 buffer
  let buffer := P.setIpv4 .ttl 64 buffer
  let buffer := P.setIpv4 .nextLevelProtocol udpProtocol buffer
  let buffer := P.setIpv4 .source source.toNat buffer
  let buffer := P.setIpv4 .destination destination.toNat buffer
  let buffer ← P.setIpv4Payload udpPacket buffer
  let buffer := P.setIpv4 .totalLength ipPacketLength buffer
  let buffer := P.setIpv4 .ecn ecn buffer
  let buffer := P.setIpv4 .checksum (P.ipv4Checksum buffer) buffer
  let ipPacketLength := P.ipv4PacketSize buffer
  if ipPacketLength ≤ buffer.length then some (buffer.take ipPacketLength) else none

structure EnhancedPacketBlock where
  interfaceId : Nat
  timestamp : Nat
  originalLen : Nat
  data : List UInt8
  deriving DecidableEq

/-- A block of the capture. -/
inductive Block
  | sectionHeader (majorVersion minorVersion : Nat)
  | interfaceDescription (snaplen : Nat)
  | raw (bytes : List UInt8)
  | enhancedPacket (block : EnhancedPacketBlock)
  deriving DecidableEq

/-! ### Secrets -/

/-- The loop that pads to a 4-byte boundary. It ends after at most three iterations, so a `fuel` of 4 is never used up. -/
def padToBoundary : Nat → List UInt8 → List UInt8
  | 0, block => block
  | fuel + 1, block => if block.length % 4 ≠ 0 then padToBoundary fuel (block ++ [0]) else block

/-- The block of the secrets, as it is assembled. -/
def assembleSecretsBlock (secrets : List UInt8) : List UInt8 :=
  let block := toBeBytes blockType
  -- save space for length
  let lengthOffset := block.length
  let block := block ++ [0, 0, 0, 0]
  let block := block ++ toBeBytes secretsType
  let block := block ++ toBeBytes secrets.length
  let block := block ++ secrets
  let block := padToBoundary 4 block
  let totalLength := block.length % 2 ^ 32 + 4
  let block := block ++ toBeBytes totalLength
  setBytes block lengthOffset (toBeBytes totalLength)

/-! ### The exporter -/

/-- Round to the nearest millisecond, and return the time, an order of magnitude smaller: a millisecond is returned as a
microsecond. -/
def correctTimestamp (d : Nat) : Nat :=
  let millis := F64.round (F64.asSecs d * F64.ofNat 1000)
  F64.fromSecs (millis / F64.ofNat 1000000)

/-- The product of 0.5005 and 1000 is below 500.5, and the half is not rounded up. -/
example : correctTimestamp 500500000 = 500000 ∧ correctTimestamp 1500000 = 2000 := by decide +kernel

structure PcapExporter where
  captureStart : Nat
  totalTrackedPackets : Nat
  written : List Block
  bufferedPackets : List (SocketAddr × OwnedTransmit)
  keylogWritten : Bool

namespace PcapExporter

def new (now : Nat) : PcapExporter :=
  { captureStart := now
    totalTrackedPackets := 0
    written := [.sectionHeader 1 0, .interfaceDescription 65535]
    bufferedPackets := []
    keylogWritten := false }

/-- `none` is a panic: the addresses are IPv4 addresses, and the packet fits the buffer and, at the time at which it is set as a
payload, the total length. -/
def writePcapngTransmit (P : PnetPacket) (now : Nat) (e : PcapExporter) (sourceAddr : SocketAddr) (transmit : OwnedTransmit) :
    Option PcapExporter :=
  match sourceAddr.ip, transmit.destination.ip with
  | .v4 source, .v4 destination => do
    let buffer ← udpBuffer P source destination sourceAddr.port transmit.destination.port transmit.contents
    let ipPacket ← ipPacket P source destination ((transmit.ecn.map EcnCodepoint.toBits).getD 0)
      (udpOverhead + transmit.contents.length) buffer
    some { e with
      totalTrackedPackets := e.totalTrackedPackets + 1
      written := e.written ++ [.enhancedPacket
        { interfaceId := 0
          timestamp := correctTimestamp (now - e.captureStart)
          originalLen := ipPacket.length
          data := ipPacket }] }
  | _, _ => none

/-- Write the packets that are buffered, which is also all that `drop` does. -/
def writeBuffered (P : PnetPacket) (now : Nat) (e : PcapExporter) : Option PcapExporter :=
  e.bufferedPackets.foldlM (fun e packet => writePcapngTransmit P now e packet.1 packet.2) { e with bufferedPackets := [] }

/-- `track_transmit`, with the key log that the exporter was created with as it is now. -/
def trackTransmit (P : PnetPacket) (now : Nat) (e : PcapExporter) (keylog : Option InMemoryKeyLog) (sourceAddr : SocketAddr)
    (transmit : OwnedTransmit) : Option PcapExporter :=
  match keylog with
  | none => writePcapngTransmit P now e sourceAddr transmit
  | some keylog =>
    if e.keylogWritten then writePcapngTransmit P now e sourceAddr transmit
    -- buffer packets internally if not enough key material is present to decrypt them yet
    else if keylog.log.length < 5 then
      some { e with bufferedPackets := e.bufferedPackets ++ [(sourceAddr, transmit)] }
    else do
      let block := assembleSecretsBlock (joinLines keylog.log)
      -- `RawBlock::from_slice` accepts the block: see `wellFormed_secretsBlock`
      let e := { e with keylogWritten := true, written := e.written ++ [.raw block] }
      let e ← writeBuffered P now e
      writePcapngTransmit P now e sourceAddr transmit

end PcapExporter

/-! ### Captures -/

/-- An operation and the clock at it. -/
structure TimedOp where
  time : Nat
  op : PcapOp

/-- The key log of an exporter without one is not logged to. -/
def TimedOp.apply (P : PnetPacket) (s : PcapExporter × Option InMemoryKeyLog) (x : TimedOp) :
    Option (PcapExporter × Option InMemoryKeyLog) :=
  match x.op with
  | .log label clientRandom secret => some (s.1, s.2.map fun keylog => KeyLog.log keylog label clientRandom secret)
  | .trackTransmit sourceAddr transmit =>
    (s.1.trackTransmit P x.time s.2 sourceAddr transmit).map fun e => (e, s.2)

/-- The capture of an exporter that is created with the key log, or without one, and dropped after the operations. -/
def capture (P : PnetPacket) (start : Nat) (keylog : Option InMemoryKeyLog) (ops : List TimedOp) (dropTime : Nat) :
    Option (List Block) := do
  let s ← ops.foldlM (TimedOp.apply P) (.new start, keylog)
  let e ← s.1.writeBuffered P dropTime
  some e.written

end Pcapng
end QuicWorkbench
