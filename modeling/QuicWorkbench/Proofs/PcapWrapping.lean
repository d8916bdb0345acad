import QuicWorkbench.Pcapng

/-!
# The bytes of a packet

The exporter wraps the contents in a UDP packet and the UDP packet in an IP packet, in the same buffer. When the second payload
is set, the bytes of the total length are still those of the destination port (`setIpv4Payload_eq`), and the packet library
asserts that the payload is no longer than that: a packet that is longer than its destination port panics
(`packet_eq_none`). Any other one that fits the buffer is read back from its bytes (`decodePacket_of_fields`).
-/

namespace QuicWorkbench
namespace Pcapng
open BigEndian BitFields

/-! ### Reading a packet -/

/-- The source, the destination and the contents of a packet, if it is an IPv4 packet without options with nothing in it but
a UDP packet. -/
def decodePacket (data : List UInt8) : Option (SocketAddr × SocketAddr × List UInt8) :=
  let datagram := data.drop 20
  if ipv4Header.get .version data = 4 ∧ ipv4Header.get .headerLength data = 5 ∧
      ipv4Header.get .nextLevelProtocol data = udpProtocol ∧ ipv4Header.get .totalLength data = data.length ∧
      udpHeader.get .length datagram = datagram.length then
    some (⟨.v4 (.ofNat 32 (ipv4Header.get .source data)), .ofNat 16 (udpHeader.get .source datagram)⟩,
      ⟨.v4 (.ofNat 32 (ipv4Header.get .destination data)), .ofNat 16 (udpHeader.get .destination datagram)⟩, datagram.drop 8)
  else none

theorem words_udp {bytes : List UInt8} (h : 8 ≤ bytes.length) : words bytes =
    udpHeader.get .source bytes :: udpHeader.get .destination bytes :: udpHeader.get .length bytes ::
      udpHeader.get .checksum bytes :: words (bytes.drop 8) := by
  rw [words_eq_cons (by omega), words_eq_cons (by simp; omega), words_eq_cons (by simp; omega),
    words_eq_cons (by simp; omega)]
  simp only [List.drop_drop, bits_drop]
  rfl

/-! ### Writing a packet -/

theorem setBytes_spec {F : Type} (H : Header F) (payload slice : List UInt8) (h : H.size + payload.length ≤ slice.length) :
    (setBytes slice H.size payload).length = slice.length ∧
      (∀ f, H.get f (setBytes slice H.size payload) = H.get f slice) ∧
      (setBytes slice H.size payload).drop H.size = payload ++ slice.drop (H.size + payload.length) := by
  have hfront : (slice.take H.size).length = H.size := by
    rw [List.length_take]
    omega
  rw [setBytes, List.append_assoc]
  refine ⟨?_, fun f => ?_, List.drop_left' hfront⟩
  · simp only [List.length_append, hfront, List.length_drop]
    omega
  · have hfits := H.fits f
    rw [← Header.get_take (Nat.le_refl _) f slice]
    exact bits_append_left (by omega)

/-- The words that are summed for a datagram whose pseudo-header has the length `udpLength`. -/
def summedWords (source destination : BitVec 32) (sourcePort destinationPort : BitVec 16) (udpLength length : Nat)
    (contents : List UInt8) : List Nat :=
  pseudoHeader source destination udpLength ++ (sourcePort.toNat :: destinationPort.toNat :: length :: words contents)

/-- The UDP packet at the front of a buffer. -/
structure UdpFields (source destination : BitVec 32) (sourcePort destinationPort : BitVec 16) (contents buffer : List UInt8) :
    Prop where
  size : buffer.length = bufferSize
  checksum : udpHeader.get .checksum buffer =
    InternetChecksum.checksum (summedWords source destination sourcePort destinationPort bufferSize
      (udpOverhead + contents.length) (contents ++ List.replicate (bufferSize - (udpOverhead + contents.length)) 0)) % 2 ^ 16
  source : udpHeader.get .source buffer = sourcePort.toNat
  destination : udpHeader.get .destination buffer = destinationPort.toNat
  length : udpHeader.get .length buffer = udpOverhead + contents.length
  contents : buffer.drop 8 = contents ++ List.replicate (bufferSize - (udpOverhead + contents.length)) 0

theorem udpBuffer_eq (P : PnetPacket) (source destination : BitVec 32) (sourcePort destinationPort : BitVec 16)
    (contents : List UInt8) : udpBuffer P source destination sourcePort destinationPort contents =
      (P.setUdpPayload contents (Header.setAll P.setUdp [(.source, sourcePort.toNat), (.destination, destinationPort.toNat),
        (.length, udpOverhead + contents.length)] (List.replicate bufferSize 0))).bind fun buffer =>
        some (P.setUdp .checksum (P.udpIpv4Checksum buffer source destination) buffer) := rfl

section
variable {P : PnetPacket} (hP : P.Documented)
include hP

theorem exists_udpBuffer (source destination : BitVec 32) (sourcePort destinationPort : BitVec 16) (contents : List UInt8)
    (h : udpOverhead + contents.length ≤ bufferSize) :
    ∃ buffer, udpBuffer P source destination sourcePort destinationPort contents = some buffer ∧
      UdpFields source destination sourcePort destinationPort contents buffer := by
  simp only [udpOverhead, bufferSize] at h
  -- the header without the checksum
  generalize hheader : Header.setAll P.setUdp
    [(.source, sourcePort.toNat), (.destination, destinationPort.toNat), (.length, udpOverhead + contents.length)]
    (List.replicate bufferSize 0) = header
  obtain ⟨hlength, hvalues, hdrop⟩ := Header.setAll_spec hP.setUdp
    [(.source, sourcePort.toNat), (.destination, destinationPort.toNat), (.length, udpOverhead + contents.length)]
    (List.replicate bufferSize 0) (by rw [List.length_replicate]; decide)
  rw [hheader] at hlength hvalues hdrop
  replace hlength : header.length = 2000 := hlength.trans List.length_replicate
  replace hdrop : header.drop 8 = List.replicate 1992 0 := hdrop
  have hsource : udpHeader.get .source header = sourcePort.toNat % 2 ^ 16 := congrFun hvalues .source
  have hdestination : udpHeader.get .destination header = destinationPort.toNat % 2 ^ 16 := congrFun hvalues .destination
  have hudpLength : udpHeader.get .length header = (udpOverhead + contents.length) % 2 ^ 16 := congrFun hvalues .length
  rw [Nat.mod_eq_of_lt sourcePort.isLt] at hsource
  rw [Nat.mod_eq_of_lt destinationPort.isLt] at hdestination
  rw [Nat.mod_eq_of_lt (by simp only [udpOverhead]; omega)] at hudpLength
  -- and the contents behind it
  have hpayload := hP.setUdpPayload contents header
  rw [if_pos (by omega)] at hpayload
  obtain ⟨hsize, hget, hcontents⟩ := setBytes_spec udpHeader contents header (by
    rw [hlength]
    exact h)
  generalize hbuffer : setBytes header udpHeader.size contents = buffer at hsize hget hcontents
  replace hpayload : P.setUdpPayload contents header = some buffer := hbuffer ▸ hpayload
  replace hsize : buffer.length = 2000 := hsize.trans hlength
  replace hcontents : buffer.drop 8 = contents ++ List.replicate (1992 - contents.length) 0 := by
    rw [← List.drop_drop] at hcontents
    refine hcontents.trans ?_
    show contents ++ (header.drop 8).drop contents.length = _
    rw [hdrop, List.drop_replicate]
  -- the checksum is set last
  generalize hchecksum : P.udpIpv4Checksum buffer source destination = checksum
  rw [hP.udpIpv4Checksum, words_udp (by omega), hget, hget, hget, hsource, hdestination, hudpLength, hcontents, hsize] at hchecksum
  obtain ⟨hlast, hvalues', hdrop'⟩ := Header.setAll_spec hP.setUdp [(.checksum, checksum)] buffer (by
    rw [hsize]
    decide)
  refine ⟨P.setUdp .checksum checksum buffer, ?_, ?_⟩
  · rw [udpBuffer_eq, hheader, hpayload, Option.bind_some, hP.udpIpv4Checksum, words_udp (by omega), hget, hget, hget, hsource,
      hdestination, hudpLength, hcontents, hsize]
    exact congrArg (fun checksum => some (P.setUdp .checksum checksum buffer)) hchecksum
  · have hsum : bufferSize - (udpOverhead + contents.length) = 1992 - contents.length := by
      simp only [bufferSize, udpOverhead]
      omega
    refine ⟨hlast.trans hsize, ?_, ?_, ?_, ?_, ?_⟩
    · rw [hsum]
      exact (congrFun hvalues' .checksum).trans (congrArg (· % 2 ^ 16) hchecksum.symm)
    · exact (congrFun hvalues' .source).trans ((hget _).trans hsource)
    · exact (congrFun hvalues' .destination).trans ((hget _).trans hdestination)
    · exact (congrFun hvalues' .length).trans ((hget _).trans hudpLength)
    · rw [hsum]
      exact hdrop'.trans hcontents

theorem udpBuffer_eq_none (source destination : BitVec 32) (sourcePort destinationPort : BitVec 16) {contents : List UInt8}
    (h : bufferSize < udpOverhead + contents.length) :
    udpBuffer P source destination sourcePort destinationPort contents = none := by
  obtain ⟨hlength, -⟩ := Header.setAll_spec hP.setUdp
    [(.source, sourcePort.toNat), (.destination, destinationPort.toNat), (.length, udpOverhead + contents.length)]
    (List.replicate bufferSize 0) (by rw [List.length_replicate]; decide)
  rw [udpBuffer_eq, hP.setUdpPayload, if_neg]
  · rfl
  · rw [hlength, List.length_replicate]
    exact Nat.not_le.2 h

end

/-- An IP packet with the datagram in it. -/
structure IpFields (source destination : BitVec 32) (ecn : Nat) (datagram data : List UInt8) : Prop where
  version : ipv4Header.get .version data = 4
  headerLength : ipv4Header.get .headerLength data = 5
  ecn : ipv4Header.get .ecn data = ecn
  totalLength : ipv4Header.get .totalLength data = data.length
  nextLevelProtocol : ipv4Header.get .nextLevelProtocol data = udpProtocol
  source : ipv4Header.get .source data = source.toNat
  destination : ipv4Header.get .destination data = destination.toNat
  datagram : data.drop 20 = datagram

/-- The settings of the IP header in front of the payload. -/
def ipSettings (source destination : BitVec 32) : List (Ipv4Field × Nat) :=
  [(.version, 4), (.headerLength, 5), (.dscp, 0), (.identification, 0), (.flags, 0b010), (.fragmentOffset, 0), (.ttl, 64),
    (.nextLevelProtocol, udpProtocol), (.source, source.toNat), (.destination, destination.toNat)]

theorem ipPacket_eq (P : PnetPacket) (source destination : BitVec 32) (ecn udpPacketLength : Nat) (buffer : List UInt8) :
    ipPacket P source destination ecn udpPacketLength buffer =
      (P.setIpv4Payload (buffer.take udpPacketLength) (Header.setAll P.setIpv4 (ipSettings source destination) buffer)).bind
        fun buffer =>
          let buffer := Header.setAll P.setIpv4 [(.totalLength, ipv4Overhead + udpPacketLength), (.ecn, ecn)] buffer
          let buffer := Header.setAll P.setIpv4 [(.checksum, P.ipv4Checksum buffer)] buffer
          if P.ipv4PacketSize buffer ≤ buffer.length then some (buffer.take (P.ipv4PacketSize buffer)) else none := rfl

section
variable {P : PnetPacket} (hP : P.Documented)
include hP

/-- The payload is set when the bytes of the total length are still those of the destination port. -/
theorem setIpv4Payload_eq (source destination : BitVec 32) {buffer : List UInt8} (hsize : buffer.length = bufferSize)
    (payload : List UInt8) :
    P.setIpv4Payload payload (Header.setAll P.setIpv4 (ipSettings source destination) buffer) =
      if payload.length ≤ udpHeader.get .destination buffer - 20 ∧ 20 + payload.length ≤ bufferSize then
        some (setBytes (Header.setAll P.setIpv4 (ipSettings source destination) buffer) 20 payload)
      else none := by
  obtain ⟨hlength, hvalues, -⟩ := Header.setAll_spec hP.setIpv4 (ipSettings source destination) buffer (by
    rw [hsize]
    decide)
  generalize Header.setAll P.setIpv4 (ipSettings source destination) buffer = header at hlength hvalues
  have hheaderLength : ipv4Header.get .headerLength header = 5 := congrFun hvalues .headerLength
  have htotal : ipv4Header.get .totalLength header = udpHeader.get .destination buffer := congrFun hvalues .totalLength
  rw [hP.setIpv4Payload payload header hheaderLength, htotal, hlength, hsize]

theorem exists_cut {ecn udpPacketLength : Nat} {packet : List UInt8} (hecn : ecn < 4) (hsize : packet.length = bufferSize)
    (hheaderLength : ipv4Header.get .headerLength packet = 5) (hfits : ipv4Overhead + udpPacketLength ≤ bufferSize) :
    ∃ data, (let buffer := Header.setAll P.setIpv4 [(.totalLength, ipv4Overhead + udpPacketLength), (.ecn, ecn)] packet
        let buffer := Header.setAll P.setIpv4 [(.checksum, P.ipv4Checksum buffer)] buffer
        if P.ipv4PacketSize buffer ≤ buffer.length then some (buffer.take (P.ipv4PacketSize buffer)) else none) = some data ∧
      data.length = ipv4Overhead + udpPacketLength ∧ data.drop 20 = (packet.drop 20).take udpPacketLength ∧
      ipv4Header.get .totalLength data = ipv4Overhead + udpPacketLength ∧ ipv4Header.get .ecn data = ecn ∧
      ∀ f, f ≠ .totalLength → f ≠ .ecn → f ≠ .checksum → ipv4Header.get f data = ipv4Header.get f packet := by
  obtain ⟨hlength₁, hvalues₁, hdrop₁⟩ := Header.setAll_spec hP.setIpv4
    [(.totalLength, ipv4Overhead + udpPacketLength), (.ecn, ecn)] packet (by rw [hsize]; decide)
  generalize Header.setAll P.setIpv4 [(.totalLength, ipv4Overhead + udpPacketLength), (.ecn, ecn)] packet = packet₁
    at hlength₁ hvalues₁ hdrop₁
  obtain ⟨hlength₂, hvalues₂, hdrop₂⟩ := Header.setAll_spec hP.setIpv4 [(.checksum, P.ipv4Checksum packet₁)]
    packet₁ (by rw [hlength₁, hsize]; decide)
  dsimp only
  generalize Header.setAll P.setIpv4 [(.checksum, P.ipv4Checksum packet₁)] packet₁ = packet₂ at hlength₂ hvalues₂ hdrop₂
  have hsize₂ : packet₂.length = bufferSize := hlength₂.trans (hlength₁.trans hsize)
  have hget : ∀ f, f ≠ .totalLength → f ≠ .ecn → f ≠ .checksum → ipv4Header.get f packet₂ = ipv4Header.get f packet := by
    intro f htotal hecn' hchecksum
    calc ipv4Header.get f packet₂ = Function.update (fun g => ipv4Header.get g packet₁) .checksum _ f := congrFun hvalues₂ f
      _ = ipv4Header.get f packet₁ := Function.update_of_ne hchecksum _ _
      _ = Function.update (Function.update (fun g => ipv4Header.get g packet) .totalLength _) .ecn _ f := congrFun hvalues₁ f
      _ = ipv4Header.get f packet := by rw [Function.update_of_ne hecn', Function.update_of_ne htotal]
  have htotal : ipv4Header.get .totalLength packet₂ = ipv4Overhead + udpPacketLength := by
    have hset : ipv4Header.get .totalLength packet₂ = (ipv4Overhead + udpPacketLength) % 2 ^ 16 :=
      (congrFun hvalues₂ .totalLength).trans (congrFun hvalues₁ .totalLength)
    rw [hset, Nat.mod_eq_of_lt (hfits.trans_lt (by decide))]
  have hecnBits : ipv4Header.get .ecn packet₂ = ecn := by
    have hset : ipv4Header.get .ecn packet₂ = ecn % 4 := (congrFun hvalues₂ .ecn).trans (congrFun hvalues₁ .ecn)
    rw [hset, Nat.mod_eq_of_lt hecn]
  have hpacketSize : P.ipv4PacketSize packet₂ = ipv4Overhead + udpPacketLength := by
    rw [hP.ipv4PacketSize packet₂ ((hget .headerLength (by decide) (by decide) (by decide)).trans hheaderLength)
      (by rw [htotal]; exact Nat.le_add_right _ _), htotal]
  have hcut : ∀ f, ipv4Header.get f (packet₂.take (ipv4Overhead + udpPacketLength)) = ipv4Header.get f packet₂ := fun f =>
    Header.get_take (Nat.le_add_right _ _) f packet₂
  rw [hpacketSize, hsize₂, if_pos hfits]
  refine ⟨_, rfl, ?_, ?_, (hcut _).trans htotal, (hcut _).trans hecnBits, fun f h h' h'' => (hcut f).trans (hget f h h' h'')⟩
  · rw [List.length_take, hsize₂]
    exact Nat.min_eq_left hfits
  · have hdrop : packet₂.drop 20 = packet.drop 20 := hdrop₂.trans hdrop₁
    rw [List.drop_take, hdrop, ipv4Overhead, Nat.add_sub_cancel_left]

theorem exists_ipPacket (source destination : BitVec 32) (udpPacketLength : Nat) {ecn : Nat} {buffer : List UInt8}
    (hecn : ecn < 4) (hsize : buffer.length = bufferSize) (hudp : udpPacketLength ≤ udpHeader.get .destination buffer - 20)
    (hfits : 20 + udpPacketLength ≤ bufferSize) :
    ∃ data, ipPacket P source destination ecn udpPacketLength buffer = some data ∧
      IpFields source destination ecn (buffer.take udpPacketLength) data := by
  have htake : (buffer.take udpPacketLength).length = udpPacketLength := by
    rw [List.length_take]
    omega
  have hpayload := setIpv4Payload_eq hP source destination hsize (buffer.take udpPacketLength)
  rw [htake, if_pos ⟨hudp, hfits⟩] at hpayload
  obtain ⟨hlength, hvalues, -⟩ := Header.setAll_spec hP.setIpv4 (ipSettings source destination) buffer (by
    rw [hsize]
    decide)
  rw [ipPacket_eq, hpayload, Option.bind_some]
  generalize Header.setAll P.setIpv4 (ipSettings source destination) buffer = header at hlength hvalues
  obtain ⟨hlength', hget, hdrop⟩ := setBytes_spec ipv4Header (buffer.take udpPacketLength) header (by
    rw [htake, hlength, hsize]
    exact hfits)
  rw [show setBytes header 20 (buffer.take udpPacketLength) = setBytes header ipv4Header.size (buffer.take udpPacketLength)
    from rfl]
  generalize setBytes header ipv4Header.size (buffer.take udpPacketLength) = packet at hlength' hget hdrop
  -- the fields that are set in front of the payload, and the payload
  have hset : ∀ f, ipv4Header.get f packet =
      ipv4Header.valuesAfter (ipSettings source destination) (fun g => ipv4Header.get g buffer) f := fun f =>
    (hget f).trans (congrFun hvalues f)
  obtain ⟨data, hdata, hdataLength, hdatagram, htotal, hecn', hothers⟩ :=
    exists_cut hP hecn (hlength'.trans (hlength.trans hsize)) (hset .headerLength) hfits
  refine ⟨data, hdata, ⟨?_, ?_, hecn', htotal.trans hdataLength.symm, ?_, ?_, ?_, ?_⟩⟩
  · exact (hothers .version (by decide) (by decide) (by decide)).trans (hset .version)
  · exact (hothers .headerLength (by decide) (by decide) (by decide)).trans (hset .headerLength)
  · exact (hothers .nextLevelProtocol (by decide) (by decide) (by decide)).trans (hset .nextLevelProtocol)
  · exact ((hothers .source (by decide) (by decide) (by decide)).trans (hset .source)).trans (Nat.mod_eq_of_lt source.isLt)
  · exact ((hothers .destination (by decide) (by decide) (by decide)).trans (hset .destination)).trans
      (Nat.mod_eq_of_lt destination.isLt)
  · rw [hdatagram]
    exact (congrArg (List.take udpPacketLength) hdrop).trans (List.take_left' htake)

/-- The UDP packet does not fit the buffer behind the header, or not the number that is in the place of the total length. -/
theorem ipPacket_eq_none (source destination : BitVec 32) (ecn : Nat) {udpPacketLength : Nat} {buffer : List UInt8}
    (hsize : buffer.length = bufferSize) (hle : udpPacketLength ≤ bufferSize)
    (h : ¬ (udpPacketLength ≤ udpHeader.get .destination buffer - 20 ∧ 20 + udpPacketLength ≤ bufferSize)) :
    ipPacket P source destination ecn udpPacketLength buffer = none := by
  have htake : (buffer.take udpPacketLength).length = udpPacketLength := by
    rw [List.length_take]
    omega
  rw [ipPacket_eq, setIpv4Payload_eq hP source destination hsize, htake, if_neg h]
  rfl

theorem exists_packet (source destination : BitVec 32) (sourcePort destinationPort : BitVec 16) {ecn : Nat} (hecn : ecn < 4)
    (contents : List UInt8) (hfits : ipv4Overhead + udpOverhead + contents.length ≤ bufferSize)
    (hport : ipv4Overhead + udpOverhead + contents.length ≤ destinationPort.toNat) :
    ∃ buffer data, udpBuffer P source destination sourcePort destinationPort contents = some buffer ∧
      ipPacket P source destination ecn (udpOverhead + contents.length) buffer = some data ∧
      UdpFields source destination sourcePort destinationPort contents buffer ∧
      IpFields source destination ecn (buffer.take (udpOverhead + contents.length)) data := by
  simp only [ipv4Overhead] at hfits hport
  obtain ⟨buffer, hbuffer, hudp⟩ := exists_udpBuffer hP source destination sourcePort destinationPort contents (by omega)
  obtain ⟨data, hdata, hip⟩ := exists_ipPacket hP source destination (udpOverhead + contents.length) hecn
    hudp.size (by rw [hudp.destination]; omega) (by omega)
  exact ⟨buffer, data, hbuffer, hdata, hudp, hip⟩

theorem packet_eq_none (source destination : BitVec 32) (sourcePort destinationPort : BitVec 16) (ecn : Nat)
    (contents : List UInt8) (h : ¬ (ipv4Overhead + udpOverhead + contents.length ≤ bufferSize ∧
      ipv4Overhead + udpOverhead + contents.length ≤ destinationPort.toNat)) :
    ((udpBuffer P source destination sourcePort destinationPort contents).bind
      (ipPacket P source destination ecn (udpOverhead + contents.length))) = none := by
  by_cases hle : udpOverhead + contents.length ≤ bufferSize
  · obtain ⟨buffer, hbuffer, hudp⟩ := exists_udpBuffer hP source destination sourcePort destinationPort contents hle
    rw [hbuffer, Option.bind_some]
    refine ipPacket_eq_none hP source destination ecn hudp.size hle fun hfits => h ?_
    rw [hudp.destination] at hfits
    simp only [ipv4Overhead, udpOverhead] at hfits ⊢
    omega
  · rw [udpBuffer_eq_none hP source destination sourcePort destinationPort (Nat.not_le.1 hle)]
    rfl

end

theorem decodePacket_of_fields {source destination : BitVec 32} {sourcePort destinationPort : BitVec 16} {ecn : Nat}
    {contents buffer data : List UInt8} (hfits : udpOverhead + contents.length ≤ bufferSize)
    (hudp : UdpFields source destination sourcePort destinationPort contents buffer)
    (hip : IpFields source destination ecn (buffer.take (udpOverhead + contents.length)) data) :
    decodePacket data = some (⟨.v4 source, sourcePort⟩, ⟨.v4 destination, destinationPort⟩, contents) := by
  have hcut : ∀ f, udpHeader.get f (buffer.take (udpOverhead + contents.length)) = udpHeader.get f buffer := fun f =>
    Header.get_take (Nat.le_add_right _ _) f buffer
  have hlength : (buffer.take (udpOverhead + contents.length)).length = udpOverhead + contents.length := by
    rw [List.length_take, hudp.size]
    exact Nat.min_eq_left hfits
  have hcontents : (buffer.take (udpOverhead + contents.length)).drop 8 = contents := by
    rw [List.drop_take, hudp.contents, udpOverhead, Nat.add_sub_cancel_left, List.take_left]
  rw [decodePacket, hip.datagram, if_pos, hip.source, hip.destination, hcut, hcut, hudp.source, hudp.destination, hcontents]
  · simp
  · exact ⟨hip.version, hip.headerLength, hip.nextLevelProtocol, hip.totalLength, by rw [hcut, hudp.length, hlength]⟩

end Pcapng
end QuicWorkbench
