import QuicWorkbench.Proofs.PcapPackets

/-!
# The UDP checksum of a packet

The checksum is computed over the whole buffer, not over the datagram that is cut from it, and the length of the
pseudo-header is then the one of the buffer. The zeros behind the datagram do not matter, but the length does: the sums differ
by 20 at least and 1992 at most, and never by a multiple of 65535 (`udpChecksum_ne`).
-/

namespace QuicWorkbench
namespace Pcapng
open BigEndian BitFields

/-- The checksum of RFC 768: the pseudo-header has the length of the datagram. One that is computed as zero is transmitted as
all ones. -/
def rfc768Checksum (source destination : BitVec 32) (datagram : List UInt8) : Nat :=
  let checksum := InternetChecksum.checksum (pseudoHeader source destination datagram.length ++ (words datagram).eraseIdx 3)
  if checksum = 0 then 0xFFFF else checksum

/-- The checksum field of a datagram. -/
def storedChecksum (datagram : List UInt8) : Nat := udpHeader.get .checksum datagram

section
variable (source destination : BitVec 32) (sourcePort destinationPort : BitVec 16) (contents : List UInt8)

theorem summedWords_le {udpLength length : Nat} (h : udpLength ≤ 65535) (hlength : length ≤ 65535) :
    ∀ w ∈ summedWords source destination sourcePort destinationPort udpLength length contents, w ≤ 65535 := by
  intro w hw
  have hsource := source.isLt
  have hdestination := destination.isLt
  have hsourcePort := sourcePort.isLt
  have hdestinationPort := destinationPort.isLt
  have hcontents := words_lt contents w
  simp only [summedWords, pseudoHeader, udpProtocol, List.mem_append, List.mem_cons, List.not_mem_nil, or_false] at hw
  rcases hw with (hw | hw | hw | hw | hw | hw) | hw | hw | hw | hw
  case inr.inr.inr.inr => exact hcontents hw
  all_goals omega

/-- The sum is positive, since the number of the protocol is. -/
theorem summedWords_sum (udpLength length : Nat) :
    (summedWords source destination sourcePort destinationPort udpLength length contents).sum =
      udpLength + 17 + (source.toNat / 2 ^ 16 + source.toNat % 2 ^ 16 + destination.toNat / 2 ^ 16 +
        destination.toNat % 2 ^ 16 + sourcePort.toNat + destinationPort.toNat + length + (words contents).sum) := by
  simp only [summedWords, pseudoHeader, udpProtocol, List.sum_append, List.sum_cons, List.sum_nil]
  omega

/-- The sums of the datagram and of the buffer differ, and neither is zero. -/
theorem onesComplementSum_ne (h : contents.length ≤ 1972) (n : Nat) :
    InternetChecksum.onesComplementSum (summedWords source destination sourcePort destinationPort bufferSize
        (udpOverhead + contents.length) (contents ++ List.replicate n 0)) ≠
      InternetChecksum.onesComplementSum (summedWords source destination sourcePort destinationPort
        (udpOverhead + contents.length) (udpOverhead + contents.length) contents) := by
  have hbuffer := summedWords_sum source destination sourcePort destinationPort (contents ++ List.replicate n 0) bufferSize
    (udpOverhead + contents.length)
  have hdatagram := summedWords_sum source destination sourcePort destinationPort contents (udpOverhead + contents.length)
    (udpOverhead + contents.length)
  rw [sum_words_append_zeros] at hbuffer
  have hle : udpOverhead + contents.length ≤ 65535 := by
    simp only [udpOverhead]
    omega
  have hsize : bufferSize = udpOverhead + contents.length + (1992 - contents.length) := by
    simp only [udpOverhead, bufferSize]
    omega
  rw [Ne, InternetChecksum.onesComplementSum_eq_iff (summedWords_le _ _ _ _ _ (by decide) hle)
    (summedWords_le _ _ _ _ _ hle hle) (by omega) (by omega), Nat.ModEq]
  omega

/-- Different sums have different checksums, also if a checksum of zero is replaced. -/
theorem complement_ne {sum sum' : Nat} (hne : sum ≠ sum') (h : sum ≤ 65535) (h' : sum' ≤ 65535) (hpos : sum ≠ 0) :
    (65535 - sum) % 2 ^ 16 ≠ if 65535 - sum' = 0 then 0xFFFF else 65535 - sum' := by
  split_ifs with hzero
  · omega
  · omega

end

section
variable {source destination : BitVec 32} {sourcePort destinationPort : BitVec 16} {contents buffer : List UInt8}
  (hudp : UdpFields source destination sourcePort destinationPort contents buffer) (h : contents.length ≤ 1972)
include hudp

/-- The checksum that is stored is the one of the padded contents, with the length of the buffer. -/
theorem storedChecksum_eq : storedChecksum (buffer.take (udpOverhead + contents.length)) =
    InternetChecksum.checksum (summedWords source destination sourcePort destinationPort bufferSize
      (udpOverhead + contents.length) (contents ++ List.replicate (bufferSize - (udpOverhead + contents.length)) 0)) % 2 ^ 16 := by
  rw [← hudp.checksum]
  exact Header.get_take (Nat.le_add_right _ _) _ buffer

include h

theorem rfc768Checksum_eq : rfc768Checksum source destination (buffer.take (udpOverhead + contents.length)) =
    let checksum := InternetChecksum.checksum (summedWords source destination sourcePort destinationPort
      (udpOverhead + contents.length) (udpOverhead + contents.length) contents)
    if checksum = 0 then 0xFFFF else checksum := by
  have hcut : ∀ f, udpHeader.get f (buffer.take (udpOverhead + contents.length)) = udpHeader.get f buffer := fun f =>
    Header.get_take (Nat.le_add_right _ _) f buffer
  have hlength : (buffer.take (udpOverhead + contents.length)).length = udpOverhead + contents.length := by
    rw [List.length_take, hudp.size]
    simp only [bufferSize, udpOverhead]
    omega
  have hcontents : (buffer.take (udpOverhead + contents.length)).drop 8 = contents := by
    rw [List.drop_take, hudp.contents, udpOverhead, Nat.add_sub_cancel_left, List.take_left]
  rw [rfc768Checksum, hlength, words_udp (by rw [hlength]; exact Nat.le_add_right _ _), hcut, hcut, hcut, hudp.source,
    hudp.destination, hudp.length, hcontents]
  rfl

/-- The checksum of the datagram that is cut from a buffer is not the one of RFC 768. -/
theorem storedChecksum_ne : storedChecksum (buffer.take (udpOverhead + contents.length)) ≠
    rfc768Checksum source destination (buffer.take (udpOverhead + contents.length)) := by
  have hle : udpOverhead + contents.length ≤ 65535 := by
    simp only [udpOverhead]
    omega
  have hbuffer := summedWords_le source destination sourcePort destinationPort
    (contents ++ List.replicate (bufferSize - (udpOverhead + contents.length)) 0) (show bufferSize ≤ 65535 by decide) hle
  have hsum := InternetChecksum.onesComplementSum_le hbuffer
  have hsum' := InternetChecksum.onesComplementSum_le
    (summedWords_le source destination sourcePort destinationPort contents hle hle)
  have hpos := (InternetChecksum.onesComplementSum_eq_zero hbuffer).not.2 (by rw [summedWords_sum]; omega)
  have hne := onesComplementSum_ne source destination sourcePort destinationPort contents h
    (bufferSize - (udpOverhead + contents.length))
  rw [storedChecksum_eq hudp, rfc768Checksum_eq hudp h]
  exact complement_ne hne hsum hsum' hpos

end

theorem exists_written {P : PnetPacket} (now : Nat) (e : PcapExporter) (segmentSize : Option Nat) {source destination : BitVec 32}
    {sourcePort destinationPort : BitVec 16} {ecn : Option EcnCodepoint} {contents buffer data : List UInt8}
    (hbuffer : udpBuffer P source destination sourcePort destinationPort contents = some buffer)
    (hdata : ipPacket P source destination ((ecn.map EcnCodepoint.toBits).getD 0) (udpOverhead + contents.length) buffer =
      some data) :
    ∃ e' block, e.writePcapngTransmit P now ⟨.v4 source, sourcePort⟩
          ⟨⟨.v4 destination, destinationPort⟩, ecn, contents, segmentSize⟩ = some e' ∧
      e'.written = e.written ++ [.enhancedPacket block] ∧ block.data = data := by
  let block : EnhancedPacketBlock := ⟨0, correctTimestamp (now - e.captureStart), data.length, data⟩
  refine ⟨{ e with totalTrackedPackets := e.totalTrackedPackets + 1, written := e.written ++ [.enhancedPacket block] }, block,
    ?_, rfl, rfl⟩
  simp only [PcapExporter.writePcapngTransmit, hbuffer, hdata, Option.bind_eq_bind, Option.bind_some, block]

/-- A packet that is written never has the checksum of RFC 768. One that is longer than its destination port is not
written. -/
theorem udpChecksum_ne {P : PnetPacket} (hP : P.Documented) (now : Nat) (e : PcapExporter) (source destination : BitVec 32)
    (sourcePort destinationPort : BitVec 16) (ecn : Option EcnCodepoint) (contents : List UInt8) (segmentSize : Option Nat)
    (h : contents.length ≤ 1972) :
    (ipv4Overhead + udpOverhead + contents.length ≤ destinationPort.toNat →
      ∃ e' block, e.writePcapngTransmit P now ⟨.v4 source, sourcePort⟩
            ⟨⟨.v4 destination, destinationPort⟩, ecn, contents, segmentSize⟩ = some e' ∧
        e'.written = e.written ++ [.enhancedPacket block] ∧
        storedChecksum (block.data.drop 20) ≠ rfc768Checksum source destination (block.data.drop 20)) ∧
      (destinationPort.toNat < ipv4Overhead + udpOverhead + contents.length →
        e.writePcapngTransmit P now ⟨.v4 source, sourcePort⟩
          ⟨⟨.v4 destination, destinationPort⟩, ecn, contents, segmentSize⟩ = none) := by
  have hfits : ipv4Overhead + udpOverhead + contents.length ≤ bufferSize := by
    simp only [ipv4Overhead, udpOverhead, bufferSize]
    omega
  constructor
  · intro hport
    obtain ⟨buffer, data, hbuffer, hdata, hudp, hip⟩ :=
      exists_packet hP source destination sourcePort destinationPort (toBits_lt ecn) contents hfits hport
    obtain ⟨e', block, hwrite, hwritten, hblock⟩ := exists_written now e segmentSize hbuffer hdata
    refine ⟨e', block, hwrite, hwritten, ?_⟩
    rw [hblock, hip.datagram]
    exact storedChecksum_ne hudp h
  · intro hport
    refine Option.eq_none_iff_forall_ne_some.2 fun e' hwrite => ?_
    obtain ⟨-, hfitsPort⟩ := PcapExporter.writable_of_writePcapngTransmit hP hwrite
    exact absurd hfitsPort (Nat.not_le.2 hport)

/-- An empty packet for port 8080. -/
theorem udpChecksum_ne_empty :
    ∃ e' block, (PcapExporter.new 0).writePcapngTransmit .reference 0 ⟨.v4 0, hostPort⟩ ⟨⟨.v4 0, hostPort⟩, none, [], none⟩ =
        some e' ∧
      e'.written = (PcapExporter.new 0).written ++ [.enhancedPacket block] ∧
      storedChecksum (block.data.drop 20) ≠ rfc768Checksum 0 0 (block.data.drop 20) :=
  (udpChecksum_ne PnetPacket.reference_documented 0 (.new 0) 0 0 hostPort hostPort none [] none (by decide)).1 (by decide)

/-- The checksum of that packet is the one of 2000 bytes, not of 8. -/
theorem udpChecksum_empty :
    ∃ e' block, (PcapExporter.new 0).writePcapngTransmit .reference 0 ⟨.v4 0, hostPort⟩ ⟨⟨.v4 0, hostPort⟩, none, [], none⟩ =
        some e' ∧
      e'.written = (PcapExporter.new 0).written ++ [.enhancedPacket block] ∧
      storedChecksum (block.data.drop 20) = 65535 - (17 + 2000 + 8080 + 8080 + 8) ∧
      rfc768Checksum 0 0 (block.data.drop 20) = 65535 - (17 + 8 + 8080 + 8080 + 8) := by
  obtain ⟨buffer, data, hbuffer, hdata, hudp, hip⟩ :=
    exists_packet PnetPacket.reference_documented 0 0 hostPort hostPort (toBits_lt none) [] (by decide) (by decide)
  obtain ⟨e', block, hwrite, hwritten, hblock⟩ := exists_written 0 (.new 0) none hbuffer hdata
  refine ⟨e', block, hwrite, hwritten, ?_, ?_⟩
  · rw [hblock, hip.datagram, storedChecksum_eq hudp]
    decide +kernel
  · rw [hblock, hip.datagram, rfc768Checksum_eq hudp (by decide)]
    decide +kernel

end Pcapng
end QuicWorkbench
