import QuicWorkbench.Lib.Lockstep
import QuicWorkbench.Proofs.PcapPackets
import QuicWorkbench.Proofs.SecretsBlock

/-!
# The two models of the captures

The exporter without bytes and clock is the abstraction of the one with them: both panic on the same operations, and read back
from their bytes, the blocks of the one are those of the other (`capture_readsAs`). That is what the exporter without bytes is
for: what is in its secrets blocks is in the bytes of the capture (`secretsCovered_bytes_iff`).
-/

namespace QuicWorkbench
namespace Pcapng
open BigEndian BitFields

/-- The block without its time stamp, as its bytes say. -/
def Block.readBack : Block → Option PcapBlock
  | .sectionHeader majorVersion minorVersion => some (.sectionHeader majorVersion minorVersion)
  | .interfaceDescription snaplen => some (.interfaceDescription snaplen)
  | .raw bytes => some (.raw bytes)
  | .enhancedPacket b =>
    match decodePacket b.data with
    | some (⟨.v4 source, sourcePort⟩, ⟨.v4 destination, destinationPort⟩, contents) =>
      some (.enhancedPacket source destination sourcePort destinationPort (ipv4Header.get .ecn b.data) contents)
    | _ => none

def BlocksReadAs (blocks : List Block) (blocks' : List PcapBlock) : Prop := blocks.map Block.readBack = blocks'.map some

theorem BlocksReadAs.snoc {blocks : List Block} {blocks' : List PcapBlock} {b : Block} {b' : PcapBlock}
    (h : BlocksReadAs blocks blocks') (hb : b.readBack = some b') : BlocksReadAs (blocks ++ [b]) (blocks' ++ [b']) := by
  unfold BlocksReadAs at h ⊢
  simp [h, hb]

/-- The exporter without bytes and clock that an exporter is. -/
structure ReadsAs (e : PcapExporter) (e' : QuicWorkbench.PcapExporter) : Prop where
  written : BlocksReadAs e.written e'.written
  bufferedPackets : e.bufferedPackets = e'.bufferedPackets
  keylogWritten : e.keylogWritten = e'.keylogWritten

section
variable {P : PnetPacket} (hP : P.Documented)
include hP

namespace ReadsAs
variable {e : PcapExporter} {e' : QuicWorkbench.PcapExporter}

/-- Both exporters write the packet, or both panic. -/
theorem writePcapngTransmit (h : ReadsAs e e') (now : Nat) (sourceAddr : SocketAddr) (transmit : OwnedTransmit) :
    Option.Rel ReadsAs (e.writePcapngTransmit P now sourceAddr transmit) (e'.writePcapngTransmit sourceAddr transmit) := by
  obtain ⟨sourceIp, sourcePort⟩ := sourceAddr
  obtain ⟨⟨destinationIp, destinationPort⟩, ecn, contents, segmentSize⟩ := transmit
  cases sourceIp with
  | v6 source => exact .none
  | v4 source =>
    cases destinationIp with
    | v6 destination => exact .none
    | v4 destination =>
      by_cases hfits : ipv4Overhead + udpOverhead + contents.length ≤ 2000 ∧
          ipv4Overhead + udpOverhead + contents.length ≤ destinationPort.toNat
      · obtain ⟨b, hb, hwrite⟩ := PcapExporter.exists_writePcapngTransmit hP now e
          (show Writable ⟨.v4 source, sourcePort⟩ ⟨⟨.v4 destination, destinationPort⟩, ecn, contents, segmentSize⟩ from
            ⟨⟨rfl, rfl, hfits.1⟩, hfits.2⟩)
        have hblock : (Block.enhancedPacket b).readBack = some (.enhancedPacket source destination sourcePort destinationPort
            ((ecn.map EcnCodepoint.toBits).getD 0) contents) := by
          rw [Block.readBack, hb.packet, hb.ecn]
        have hwrite' : e'.writePcapngTransmit ⟨.v4 source, sourcePort⟩
            ⟨⟨.v4 destination, destinationPort⟩, ecn, contents, segmentSize⟩ = some _ := if_pos hfits
        rw [hwrite, hwrite']
        exact .some ⟨h.written.snoc hblock, h.bufferedPackets, h.keylogWritten⟩
      · have hwrite : e.writePcapngTransmit P now ⟨.v4 source, sourcePort⟩
            ⟨⟨.v4 destination, destinationPort⟩, ecn, contents, segmentSize⟩ = none :=
          Option.eq_none_iff_forall_ne_some.2 fun e₁ hwrite =>
            have hwritable := PcapExporter.writable_of_writePcapngTransmit hP hwrite
            hfits ⟨hwritable.1.2.2, hwritable.2⟩
        have hwrite' : e'.writePcapngTransmit ⟨.v4 source, sourcePort⟩
            ⟨⟨.v4 destination, destinationPort⟩, ecn, contents, segmentSize⟩ = none := if_neg hfits
        rw [hwrite, hwrite']
        exact .none

theorem writeBuffered (h : ReadsAs e e') (now : Nat) : Option.Rel ReadsAs (e.writeBuffered P now) e'.writeBuffered := by
  have hempty : ReadsAs { e with bufferedPackets := [] } { e' with bufferedPackets := [] } :=
    ⟨h.written, rfl, h.keylogWritten⟩
  have hfold := Lockstep.foldlM (R := ReadsAs) (φ := id)
    (g := fun t packet => QuicWorkbench.PcapExporter.writePcapngTransmit t packet.1 packet.2)
    (fun s t packet hst => hst.writePcapngTransmit hP now packet.1 packet.2) e.bufferedPackets hempty
  rw [List.map_id] at hfold
  rw [PcapExporter.writeBuffered, QuicWorkbench.PcapExporter.writeBuffered, ← h.bufferedPackets]
  exact hfold

/-- The block that is assembled is the secrets block. -/
theorem trackTransmit (h : ReadsAs e e') (now : Nat) (keylog : Option InMemoryKeyLog) (sourceAddr : SocketAddr)
    (transmit : OwnedTransmit) :
    Option.Rel ReadsAs (e.trackTransmit P now keylog sourceAddr transmit) (e'.trackTransmit keylog sourceAddr transmit) := by
  cases keylog with
  | none => exact h.writePcapngTransmit hP now sourceAddr transmit
  | some keylog =>
    rw [PcapExporter.trackTransmit, QuicWorkbench.PcapExporter.trackTransmit, h.keylogWritten]
    dsimp only
    split_ifs with hwritten hfew
    · exact h.writePcapngTransmit hP now sourceAddr transmit
    · exact .some ⟨h.written, congrArg (· ++ [(sourceAddr, transmit)]) h.bufferedPackets, rfl⟩
    · have hsecrets : ReadsAs
          { e with keylogWritten := true, written := e.written ++ [.raw (assembleSecretsBlock (joinLines keylog.log))] }
          { e'.writeRawBlock (secretsBlock (joinLines keylog.log)) with keylogWritten := true } := by
        rw [assembleSecretsBlock_eq]
        exact ⟨h.written.snoc rfl, h.bufferedPackets, rfl⟩
      exact Lockstep.bind (hsecrets.writeBuffered hP now) fun s t hst => hst.writePcapngTransmit hP now sourceAddr transmit

end ReadsAs

/-- The states of the two exporters, with the key log of both. -/
def StatesReadAs (s : PcapExporter × Option InMemoryKeyLog) (t : QuicWorkbench.PcapExporter × InMemoryKeyLog) : Prop :=
  ReadsAs s.1 t.1 ∧ s.2 = some t.2

theorem StatesReadAs.apply {s : PcapExporter × Option InMemoryKeyLog} {t : QuicWorkbench.PcapExporter × InMemoryKeyLog}
    (x : TimedOp) (h : StatesReadAs s t) : Option.Rel StatesReadAs (x.apply P s) (x.op.apply t) := by
  obtain ⟨e, keylog⟩ := s
  obtain ⟨e', keylog'⟩ := t
  obtain ⟨hreads, rfl⟩ : ReadsAs e e' ∧ keylog = some keylog' := h
  obtain ⟨time, op⟩ := x
  cases op with
  | log label clientRandom secret => exact .some ⟨hreads, rfl⟩
  | trackTransmit sourceAddr transmit =>
    have htrack := hreads.trackTransmit hP time (some keylog') sourceAddr transmit
    show Option.Rel StatesReadAs ((e.trackTransmit P time (some keylog') sourceAddr transmit).map _)
      ((e'.trackTransmit (some keylog') sourceAddr transmit).map _)
    rw [Option.map_eq_bind, Option.map_eq_bind]
    exact Lockstep.bind htrack fun s t hst => .some ⟨hst, rfl⟩

/-- For every start, all operations at all times and every end: the bytes that are written read back as the capture of the
exporter without bytes and clock, and one of them panics if the other does. -/
theorem capture_readsAs (start : Nat) (ops : List TimedOp) (dropTime : Nat) :
    Option.Rel BlocksReadAs (capture P start (some {}) ops dropTime) (QuicWorkbench.capture (ops.map TimedOp.op)) := by
  have hstart : StatesReadAs (PcapExporter.new start, some {}) (QuicWorkbench.PcapExporter.new, {}) := ⟨⟨rfl, rfl, rfl⟩, rfl⟩
  refine Lockstep.bind (Lockstep.foldlM (fun s t x => StatesReadAs.apply hP x) ops hstart) fun s t hst => ?_
  exact Lockstep.bind (hst.1.writeBuffered hP dropTime) fun e e' h => .some h.written

end

theorem BlocksReadAs.raw_mem_iff {blocks : List Block} {blocks' : List PcapBlock} (h : BlocksReadAs blocks blocks')
    (bytes : List UInt8) : .raw bytes ∈ blocks ↔ .raw bytes ∈ blocks' := by
  have hback : ∀ block : Block, block.readBack = some (.raw bytes) → block = .raw bytes := by
    intro block hblock
    cases block with
    | sectionHeader => cases hblock
    | interfaceDescription => cases hblock
    | raw => cases hblock; rfl
    | enhancedPacket b =>
      rw [Block.readBack] at hblock
      split at hblock <;> cases hblock
  constructor
  · intro hmem
    have himage : some (.raw bytes) ∈ blocks.map Block.readBack := List.mem_map_of_mem (f := Block.readBack) hmem
    rw [h] at himage
    obtain ⟨block, hblock, heq⟩ := List.mem_map.1 himage
    exact Option.some.inj heq ▸ hblock
  · intro hmem
    have himage : some (.raw bytes) ∈ blocks'.map some := List.mem_map_of_mem hmem
    rw [← h] at himage
    obtain ⟨block, hblock, heq⟩ := List.mem_map.1 himage
    exact hback block heq ▸ hblock

/-- The bytes of a capture have all secrets that were logged before the last packet exactly if all of them were logged before
the first packet that was tracked with at least five lines. -/
theorem secretsCovered_bytes_iff {P : PnetPacket} (hP : P.Documented) {start : Nat} {ops : List TimedOp} {dropTime : Nat}
    {blocks : List Block} (h : capture P start (some {}) ops dropTime = some blocks) :
    (∀ before sourceAddr transmit after, ops.map TimedOp.op = before ++ .trackTransmit sourceAddr transmit :: after →
      ∀ line ∈ loggedIn before, ∃ secrets, .raw (secretsBlock secrets) ∈ blocks ∧ line ∈ secrets.splitOn lineBreak) ↔
      LoggedFirst (ops.map TimedOp.op) := by
  have hreads := capture_readsAs hP start ops dropTime
  rw [h] at hreads
  cases hcapture : QuicWorkbench.capture (ops.map TimedOp.op) with
  | none => rw [hcapture] at hreads; cases hreads
  | some blocks' =>
    rw [hcapture] at hreads
    cases hreads with
    | some hreads =>
      have happears : ∀ line ≠ [], (∃ secrets, .raw (secretsBlock secrets) ∈ blocks ∧ line ∈ secrets.splitOn lineBreak) ↔
          ∃ lines, firstSecrets (ops.map TimedOp.op) = some lines ∧ line ∈ lines := by
        intro line hline
        simp only [hreads.raw_mem_iff]
        exact appearsIn_iff hcapture hline
      constructor
      · intro hcovered before sourceAddr transmit after hsplit line hline
        exact (happears line (lineBreak_notMem_of_logged hline).2).1 (hcovered before sourceAddr transmit after hsplit line hline)
      · intro hfirst before sourceAddr transmit after hsplit line hline
        exact (happears line (lineBreak_notMem_of_logged hline).2).2 (hfirst before sourceAddr transmit after hsplit line hline)

end Pcapng
end QuicWorkbench
