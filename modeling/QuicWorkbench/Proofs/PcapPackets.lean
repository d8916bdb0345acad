import QuicWorkbench.Proofs.PcapWrapping
import QuicWorkbench.Proofs.Secrets

/-!
# The packets of a capture

Every packet that is tracked gets a block of its own, in the order of the calls (`capture_eq`): at once, or behind the
secrets block in the call that finds enough key material, or when the exporter is dropped. The time stamp of a block is the
time at which it is written (`timestamps_eq`). The exporter panics if a packet cannot be written, whenever that is tried
(`exists_capture_iff`).
-/

namespace QuicWorkbench
namespace Pcapng
open BigEndian BitFields

/-! ### What is written, and when -/

/-- A packet that is tracked. -/
structure Call where
  time : Nat
  sourceAddr : SocketAddr
  transmit : OwnedTransmit

def TimedOp.call? (x : TimedOp) : Option Call :=
  match x.op with
  | .log _ _ _ => none
  | .trackTransmit sourceAddr transmit => some { time := x.time, sourceAddr, transmit }

def calls (ops : List TimedOp) : List Call := ops.filterMap TimedOp.call?

/-- The key log after an operation. -/
def TimedOp.keylogAfter (keylog : Option InMemoryKeyLog) (x : TimedOp) : Option InMemoryKeyLog :=
  match x.op with
  | .log label clientRandom secret => keylog.map fun keylog => KeyLog.log keylog label clientRandom secret
  | .trackTransmit _ _ => keylog

/-- There is no key log, or there is enough key material in it. -/
def enough (keylog : Option InMemoryKeyLog) : Bool := keylog.all fun keylog => 5 ≤ keylog.log.length

/-- When the packets are written that are in the buffer: by the next call that finds enough key material, or at the end. -/
def flushTime (keylog : Option InMemoryKeyLog) (dropTime : Nat) : List TimedOp → Nat
  | [] => dropTime
  | x :: ops => if x.op.tracks && enough keylog then x.time else flushTime (x.keylogAfter keylog) dropTime ops

/-- The packets that are tracked, with the times at which they are written. -/
def writes (keylog : Option InMemoryKeyLog) (dropTime : Nat) : List TimedOp → List (Nat × Call)
  | [] => []
  | x :: ops =>
    (x.call?.map fun call => (if enough keylog then call.time else flushTime keylog dropTime ops, call)).toList ++
      writes (x.keylogAfter keylog) dropTime ops

/-- The lines that the first call finds that finds enough of them. -/
def secretsWritten (keylog : Option InMemoryKeyLog) : List TimedOp → Option (List (List UInt8))
  | [] => none
  | x :: ops =>
    if x.op.tracks && enough keylog then keylog.map (·.log) else secretsWritten (x.keylogAfter keylog) ops

section
variable (keylog : Option InMemoryKeyLog) (dropTime time : Nat) (sourceAddr : SocketAddr) (transmit : OwnedTransmit)
  (ops : List TimedOp)

theorem flushTime_track : flushTime keylog dropTime (⟨time, .trackTransmit sourceAddr transmit⟩ :: ops) =
    if enough keylog then time else flushTime keylog dropTime ops := by
  simp [flushTime, PcapOp.tracks, TimedOp.keylogAfter]

theorem writes_track : writes keylog dropTime (⟨time, .trackTransmit sourceAddr transmit⟩ :: ops) =
    (if enough keylog then time else flushTime keylog dropTime ops, ⟨time, sourceAddr, transmit⟩) ::
      writes keylog dropTime ops := by
  simp [writes, TimedOp.call?, TimedOp.keylogAfter]

theorem secretsWritten_track : secretsWritten keylog (⟨time, .trackTransmit sourceAddr transmit⟩ :: ops) =
    if enough keylog then keylog.map (·.log) else secretsWritten keylog ops := by
  simp [secretsWritten, PcapOp.tracks, TimedOp.keylogAfter]

end

theorem map_writes (keylog : Option InMemoryKeyLog) (dropTime : Nat) (ops : List TimedOp) :
    (writes keylog dropTime ops).map Prod.snd = calls ops := by
  induction ops generalizing keylog with
  | nil => rfl
  | cons x ops ih =>
    simp only [writes, List.map_append, ih, calls, List.filterMap_cons]
    cases x.call? <;> simp

theorem enough_keylogAfter {keylog : Option InMemoryKeyLog} (x : TimedOp) (h : enough keylog = true) :
    enough (x.keylogAfter keylog) = true := by
  cases keylog with
  | none => cases hop : x.op <;> simp [TimedOp.keylogAfter, enough, hop]
  | some keylog =>
    have h : 5 ≤ keylog.log.length := by simpa [enough] using h
    cases hop : x.op <;> simp [TimedOp.keylogAfter, enough, KeyLog.log, hop, h]
    omega

/-- The block is the block of the packet, written at `time`. -/
structure EnhancedPacketBlock.Of (b : EnhancedPacketBlock) (start time : Nat) (sourceAddr : SocketAddr)
    (transmit : OwnedTransmit) : Prop where
  packet : decodePacket b.data = some (sourceAddr, transmit.destination, transmit.contents)
  ecn : ipv4Header.get .ecn b.data = (transmit.ecn.map EcnCodepoint.toBits).getD 0
  originalLen : b.originalLen = b.data.length
  timestamp : b.timestamp = correctTimestamp (time - start)

theorem toBits_lt (ecn : Option EcnCodepoint) : (ecn.map EcnCodepoint.toBits).getD 0 < 4 := by
  rcases ecn with _ | _ | _ | _ <;> decide

section
variable {P : PnetPacket} (hP : P.Documented)
include hP

namespace PcapExporter
variable {e e' : PcapExporter}

theorem exists_writePcapngTransmit (now : Nat) (e : PcapExporter) {sourceAddr : SocketAddr} {transmit : OwnedTransmit}
    (h : Writable sourceAddr transmit) :
    ∃ b, b.Of e.captureStart now sourceAddr transmit ∧ writePcapngTransmit P now e sourceAddr transmit =
      some { e with totalTrackedPackets := e.totalTrackedPackets + 1, written := e.written ++ [.enhancedPacket b] } := by
  obtain ⟨⟨hsource, hdestination, hfits⟩, hport⟩ := h
  obtain ⟨sourceIp, sourcePort⟩ := sourceAddr
  obtain ⟨⟨destinationIp, destinationPort⟩, ecn, contents, segmentSize⟩ := transmit
  cases sourceIp with
  | v6 => simp [IpAddr.isIpv4] at hsource
  | v4 source =>
    cases destinationIp with
    | v6 => simp [IpAddr.isIpv4] at hdestination
    | v4 destination =>
      obtain ⟨buffer, data, hbuffer, hdata, hudp, hip⟩ :=
        exists_packet hP source destination sourcePort destinationPort (toBits_lt ecn) contents hfits hport
      have hudpFits : udpOverhead + contents.length ≤ bufferSize := by
        replace hfits : ipv4Overhead + udpOverhead + contents.length ≤ bufferSize := hfits
        omega
      refine ⟨⟨0, correctTimestamp (now - e.captureStart), data.length, data⟩,
        ⟨decodePacket_of_fields hudpFits hudp hip, hip.ecn, rfl, rfl⟩, ?_⟩
      simp only [writePcapngTransmit, hbuffer, hdata, Option.bind_eq_bind, Option.bind_some]

theorem writable_of_writePcapngTransmit {now : Nat} {sourceAddr : SocketAddr} {transmit : OwnedTransmit}
    (h : writePcapngTransmit P now e sourceAddr transmit = some e') : Writable sourceAddr transmit := by
  obtain ⟨sourceIp, sourcePort⟩ := sourceAddr
  obtain ⟨⟨destinationIp, destinationPort⟩, ecn, contents, segmentSize⟩ := transmit
  cases sourceIp with
  | v6 => simp [writePcapngTransmit] at h
  | v4 source =>
    cases destinationIp with
    | v6 => simp [writePcapngTransmit] at h
    | v4 destination =>
      by_contra hnot
      have hnone := packet_eq_none hP source destination sourcePort destinationPort ((ecn.map EcnCodepoint.toBits).getD 0)
        contents fun hfits => hnot ⟨⟨rfl, rfl, hfits.1⟩, hfits.2⟩
      simp only [writePcapngTransmit, Option.bind_eq_bind] at h
      rw [← Option.bind_assoc, hnone] at h
      cases h

theorem exists_writeBuffered (now : Nat) (h : ∀ packet ∈ e.bufferedPackets, Writable packet.1 packet.2) :
    ∃ bs, List.Forall₂ (fun b packet => EnhancedPacketBlock.Of b e.captureStart now packet.1 packet.2) bs e.bufferedPackets ∧
      ∃ n, writeBuffered P now e = some { e with
        totalTrackedPackets := n, written := e.written ++ bs.map .enhancedPacket, bufferedPackets := [] } := by
  have hfold : ∀ (packets : List (SocketAddr × OwnedTransmit)) (e : PcapExporter),
      (∀ packet ∈ packets, Writable packet.1 packet.2) →
      ∃ bs, List.Forall₂ (fun b packet => EnhancedPacketBlock.Of b e.captureStart now packet.1 packet.2) bs packets ∧
        ∃ n, packets.foldlM (fun e packet => writePcapngTransmit P now e packet.1 packet.2) e =
          some { e with totalTrackedPackets := n, written := e.written ++ bs.map .enhancedPacket } := by
    intro packets
    induction packets with
    | nil => exact fun e _ => ⟨[], .nil, e.totalTrackedPackets, by simp⟩
    | cons packet packets ih =>
      intro e hpackets
      obtain ⟨b, hb, hwrite⟩ := exists_writePcapngTransmit hP now e (hpackets packet (List.mem_cons_self ..))
      obtain ⟨bs, hbs, n, hwrites⟩ := ih { e with
        totalTrackedPackets := e.totalTrackedPackets + 1, written := e.written ++ [.enhancedPacket b] }
        fun packet hmem => hpackets packet (List.mem_cons_of_mem _ hmem)
      refine ⟨b :: bs, .cons hb hbs, n, ?_⟩
      rw [List.foldlM_cons, hwrite]
      exact hwrites.trans (by simp)
  exact hfold e.bufferedPackets { e with bufferedPackets := [] } h

theorem writable_of_writeBuffered {now : Nat} (h : writeBuffered P now e = some e') :
    ∀ packet ∈ e.bufferedPackets, Writable packet.1 packet.2 := by
  have hfold : ∀ (packets : List (SocketAddr × OwnedTransmit)) (e : PcapExporter),
      packets.foldlM (fun e packet => writePcapngTransmit P now e packet.1 packet.2) e = some e' →
      ∀ packet ∈ packets, Writable packet.1 packet.2 := by
    intro packets
    induction packets with
    | nil => exact fun e _ packet hpacket => absurd hpacket (List.not_mem_nil)
    | cons packet packets ih =>
      intro e h
      rw [List.foldlM_cons] at h
      obtain ⟨e₁, h₁, h⟩ := Option.bind_eq_some_iff.1 h
      exact List.forall_mem_cons.2 ⟨writable_of_writePcapngTransmit hP h₁, ih e₁ h⟩
  exact hfold e.bufferedPackets { e with bufferedPackets := [] } h

end PcapExporter

end

/-- The operations, and the end of the exporter. -/
def run (P : PnetPacket) (s : PcapExporter × Option InMemoryKeyLog) (ops : List TimedOp) (dropTime : Nat) :
    Option PcapExporter :=
  (ops.foldlM (TimedOp.apply P) s).bind fun s => s.1.writeBuffered P dropTime

/-- The blocks are those of the packets, as they are written. -/
def Written (start : Nat) (bs : List EnhancedPacketBlock) (packets : List (Nat × Call)) : Prop :=
  List.Forall₂ (fun b x => EnhancedPacketBlock.Of b start x.1 x.2.sourceAddr x.2.transmit) bs packets

theorem Written.map_eq {β : Type} {f : EnhancedPacketBlock → β} {g : Nat × Call → β} {start : Nat}
    {bs : List EnhancedPacketBlock} {packets : List (Nat × Call)} (h : Written start bs packets)
    (hfg : ∀ b x, EnhancedPacketBlock.Of b start x.1 x.2.sourceAddr x.2.transmit → f b = g x) :
    bs.map f = packets.map g := by
  unfold Written at h
  induction h with
  | nil => rfl
  | cons hb _ ih => rw [List.map_cons, List.map_cons, hfg _ _ hb, ih]

/-- All packets that are tracked can be written. -/
def AllWritable (ops : List TimedOp) : Prop := ∀ call ∈ calls ops, Writable call.sourceAddr call.transmit

instance (ops : List TimedOp) : Decidable (AllWritable ops) := by
  unfold AllWritable Writable
  infer_instance

variable {P : PnetPacket} {s s' : PcapExporter × Option InMemoryKeyLog} {e e' : PcapExporter} {x : TimedOp}
  {ops : List TimedOp} {dropTime : Nat}

theorem run_cons (h : x.apply P s = some s') : run P s (x :: ops) dropTime = run P s' ops dropTime := by
  rw [run, run, List.foldlM_cons, h]
  rfl

theorem run_trackTransmit {keylog : Option InMemoryKeyLog} {time : Nat} {sourceAddr : SocketAddr} {transmit : OwnedTransmit}
    (h : e.trackTransmit P time keylog sourceAddr transmit = some e') :
    run P (e, keylog) (⟨time, .trackTransmit sourceAddr transmit⟩ :: ops) dropTime = run P (e', keylog) ops dropTime :=
  run_cons (congrArg (Option.map fun e => (e, keylog)) h)

theorem PcapExporter.trackTransmit_of_written {keylog : Option InMemoryKeyLog}
    (h : keylog.isSome → e.keylogWritten = true) (time : Nat) (sourceAddr : SocketAddr) (transmit : OwnedTransmit) :
    e.trackTransmit P time keylog sourceAddr transmit = writePcapngTransmit P time e sourceAddr transmit := by
  cases keylog with
  | none => rfl
  | some keylog => exact if_pos (h rfl)

/-- Nothing is waiting for key material, neither a packet nor the secrets. -/
structure Ready (e : PcapExporter) (keylog : Option InMemoryKeyLog) : Prop where
  enough : enough keylog = true
  written : keylog.isSome → e.keylogWritten = true
  buffered : e.bufferedPackets = []

theorem run_of_ready (hP : P.Documented) {keylog : Option InMemoryKeyLog} (dropTime : Nat) (h : Ready e keylog)
    (hops : AllWritable ops) :
    ∃ bs e', run P (e, keylog) ops dropTime = some e' ∧ e'.written = e.written ++ bs.map .enhancedPacket ∧
      Written e.captureStart bs (writes keylog dropTime ops) := by
  induction ops generalizing e keylog with
  | nil =>
    obtain ⟨bs, hbs, n, hrun⟩ := PcapExporter.exists_writeBuffered hP (e := e) dropTime (by simp [h.buffered])
    rw [h.buffered] at hbs
    cases hbs
    exact ⟨[], _, hrun, rfl, .nil⟩
  | cons x ops ih =>
    obtain ⟨time, op⟩ := x
    cases op with
    | log label clientRandom secret =>
      have hops' : AllWritable ops := hops
      have hready : Ready e (keylog.map fun keylog => KeyLog.log keylog label clientRandom secret) :=
        ⟨enough_keylogAfter ⟨time, .log label clientRandom secret⟩ h.enough, by simpa using h.written, h.buffered⟩
      obtain ⟨bs, e', hrun, hwritten, hbs⟩ := ih hready hops'
      exact ⟨bs, e', (run_cons rfl).trans hrun, hwritten, hbs⟩
    | trackTransmit sourceAddr transmit =>
      have hwritable : Writable sourceAddr transmit := hops _ (List.mem_cons_self ..)
      have hops' : AllWritable ops := fun call hcall => hops call (List.mem_cons_of_mem _ hcall)
      obtain ⟨b, hb, hwrite⟩ := PcapExporter.exists_writePcapngTransmit hP time e hwritable
      rw [← PcapExporter.trackTransmit_of_written h.written] at hwrite
      have hready : Ready { e with
          totalTrackedPackets := e.totalTrackedPackets + 1, written := e.written ++ [.enhancedPacket b] } keylog :=
        ⟨h.enough, h.written, h.buffered⟩
      obtain ⟨bs, e', hrun, hwritten, hbs⟩ := ih hready hops'
      refine ⟨b :: bs, e', (run_trackTransmit hwrite).trans hrun, by simp [hwritten], ?_⟩
      rw [writes_track, if_pos h.enough]
      exact .cons hb hbs

theorem PcapExporter.trackTransmit_of_few {keylog : InMemoryKeyLog} (h : e.keylogWritten = false) (hfew : keylog.log.length < 5)
    (time : Nat) (sourceAddr : SocketAddr) (transmit : OwnedTransmit) :
    e.trackTransmit P time (some keylog) sourceAddr transmit =
      some { e with bufferedPackets := e.bufferedPackets ++ [(sourceAddr, transmit)] } := by
  simp [trackTransmit, h, hfew]

/-- A packet is tracked with enough key material for the first time: the secrets, the buffered packets and the packet are
written. -/
theorem PcapExporter.exists_trackTransmit_of_enough (hP : P.Documented) {keylog : InMemoryKeyLog} (time : Nat)
    {sourceAddr : SocketAddr} {transmit : OwnedTransmit} (h : e.keylogWritten = false) (henough : enough (some keylog) = true)
    (hbuffered : ∀ packet ∈ e.bufferedPackets, Writable packet.1 packet.2) (hwritable : Writable sourceAddr transmit) :
    ∃ bs b e', e.trackTransmit P time (some keylog) sourceAddr transmit = some e' ∧
      List.Forall₂ (fun b packet => EnhancedPacketBlock.Of b e.captureStart time packet.1 packet.2) bs e.bufferedPackets ∧
      b.Of e.captureStart time sourceAddr transmit ∧ e'.captureStart = e.captureStart ∧ Ready e' (some keylog) ∧
      e'.written = e.written ++ [.raw (assembleSecretsBlock (joinLines keylog.log))] ++ (bs ++ [b]).map .enhancedPacket := by
  have hmany : ¬ keylog.log.length < 5 := by simpa [enough] using henough
  obtain ⟨bs, hbs, n, hflushed⟩ := exists_writeBuffered hP (e := { e with
    keylogWritten := true, written := e.written ++ [.raw (assembleSecretsBlock (joinLines keylog.log))] }) time hbuffered
  obtain ⟨b, hb, hwrite⟩ := exists_writePcapngTransmit hP time { e with
    totalTrackedPackets := n, keylogWritten := true, bufferedPackets := []
    written := e.written ++ [.raw (assembleSecretsBlock (joinLines keylog.log))] ++ bs.map .enhancedPacket } hwritable
  have htrack : e.trackTransmit P time (some keylog) sourceAddr transmit = (writeBuffered P time { e with
      keylogWritten := true, written := e.written ++ [.raw (assembleSecretsBlock (joinLines keylog.log))] }).bind
      fun e => writePcapngTransmit P time e sourceAddr transmit := by
    simp [trackTransmit, h, hmany]
  refine ⟨bs, b, _, htrack.trans ((congrArg (Option.bind · _) hflushed).trans hwrite), hbs, hb, rfl,
    ⟨henough, fun _ => rfl, rfl⟩, by simp⟩

/-- The blocks of the secrets that are written. -/
def secretsBlocks (secrets : Option (List (List UInt8))) : List Block :=
  secrets.toList.map fun lines => .raw (assembleSecretsBlock (joinLines lines))

/-- Until there is enough key material nothing is written; then the secrets are, and behind them all packets in order. -/
theorem run_of_waiting (hP : P.Documented) (keylog : InMemoryKeyLog) (dropTime : Nat) (h : e.keylogWritten = false)
    (hbuffered : ∀ packet ∈ e.bufferedPackets, Writable packet.1 packet.2) (hops : AllWritable ops) :
    ∃ bs bs' e', run P (e, some keylog) ops dropTime = some e' ∧
      e'.written = e.written ++ secretsBlocks (secretsWritten (some keylog) ops) ++ (bs ++ bs').map .enhancedPacket ∧
      List.Forall₂ (fun b packet => EnhancedPacketBlock.Of b e.captureStart (flushTime (some keylog) dropTime ops)
        packet.1 packet.2) bs e.bufferedPackets ∧
      Written e.captureStart bs' (writes (some keylog) dropTime ops) := by
  induction ops generalizing e keylog with
  | nil =>
    obtain ⟨bs, hbs, n, hrun⟩ := PcapExporter.exists_writeBuffered hP dropTime hbuffered
    exact ⟨bs, [], _, hrun, by simp [secretsWritten, secretsBlocks], hbs, .nil⟩
  | cons x ops ih =>
    obtain ⟨time, op⟩ := x
    cases op with
    | log label clientRandom secret =>
      have hops' : AllWritable ops := hops
      obtain ⟨bs, bs', e', hrun, hwritten, hbs, hbs'⟩ :=
        ih (KeyLog.log keylog label clientRandom secret) h hbuffered hops'
      exact ⟨bs, bs', e', (run_cons rfl).trans hrun, hwritten, hbs, hbs'⟩
    | trackTransmit sourceAddr transmit =>
      have hwritable : Writable sourceAddr transmit := hops _ (List.mem_cons_self ..)
      have hops' : AllWritable ops := fun call hcall => hops call (List.mem_cons_of_mem _ hcall)
      by_cases hfew : keylog.log.length < 5
      · have hnot : enough (some keylog) = false := by simpa [enough] using hfew
        obtain ⟨bs, bs', e', hrun, hwritten, hbs, hbs'⟩ := ih
          (e := { e with bufferedPackets := e.bufferedPackets ++ [(sourceAddr, transmit)] }) keylog h
          (fun packet hmem => by
            rcases List.mem_append.1 hmem with hmem | hmem
            · exact hbuffered packet hmem
            · rw [List.mem_singleton.1 hmem]
              exact hwritable) hops'
        -- the packet is the last one in the buffer
        have hfront := List.forall₂_take_append _ _ _ hbs
        have hback := List.forall₂_drop_append _ _ _ hbs
        rw [flushTime_track, writes_track, secretsWritten_track, hnot]
        simp only [Bool.false_eq_true, if_false]
        refine ⟨bs.take e.bufferedPackets.length, bs.drop e.bufferedPackets.length ++ bs', e',
          (run_trackTransmit (PcapExporter.trackTransmit_of_few h hfew time sourceAddr transmit)).trans hrun, ?_, ?_, ?_⟩
        · rw [hwritten, ← List.append_assoc, List.take_append_drop]
        · exact hfront
        · generalize bs.drop e.bufferedPackets.length = back at hback
          cases hback with
          | cons hb hnil =>
            cases hnil
            exact .cons hb hbs'
      · have henough : enough (some keylog) = true := by simpa [enough] using hfew
        obtain ⟨bs, b, e', htrack, hbs, hb, hstart, hready, hwritten⟩ :=
          PcapExporter.exists_trackTransmit_of_enough hP time h henough hbuffered hwritable
        obtain ⟨bs', e'', hrun, hwritten', hbs'⟩ := run_of_ready hP dropTime hready hops'
        rw [flushTime_track, writes_track, secretsWritten_track, henough]
        simp only [if_true]
        refine ⟨bs, b :: bs', e'', (run_trackTransmit htrack).trans hrun, ?_, ?_, ?_⟩
        · rw [hwritten', hwritten]
          simp [secretsBlocks]
        · exact hbs
        · exact .cons hb (hstart ▸ hbs')

/-- A capture with the blocks of secrets in front of those of packets. -/
def blocksOf (secrets : Option (List (List UInt8))) (bs : List EnhancedPacketBlock) : List Block :=
  [.sectionHeader 1 0, .interfaceDescription 65535] ++ secretsBlocks secrets ++ bs.map .enhancedPacket

theorem keylogAfter_none (x : TimedOp) : x.keylogAfter none = none := by
  cases hop : x.op <;> simp [TimedOp.keylogAfter, hop]

theorem secretsWritten_none (ops : List TimedOp) : secretsWritten none ops = none := by
  induction ops with
  | nil => rfl
  | cons x ops ih => rw [secretsWritten, keylogAfter_none, ih, Option.map_none, ite_self]

theorem capture_eq_run (P : PnetPacket) (start : Nat) (keylog : Option InMemoryKeyLog) (ops : List TimedOp) (dropTime : Nat) :
    capture P start keylog ops dropTime = (run P (.new start, keylog) ops dropTime).map (·.written) := by
  unfold capture run
  cases ops.foldlM (TimedOp.apply P) (PcapExporter.new start, keylog) with
  | none => rfl
  | some s => cases hdrop : s.1.writeBuffered P dropTime <;> simp [hdrop]

/-- A capture: the secrets, if a call finds enough key material, and behind them every packet that is tracked, in order. -/
theorem capture_eq (hP : P.Documented) (start : Nat) (keylog : Option InMemoryKeyLog) (dropTime : Nat)
    (hops : AllWritable ops) :
    ∃ bs, capture P start keylog ops dropTime = some (blocksOf (secretsWritten keylog ops) bs) ∧
      Written start bs (writes keylog dropTime ops) := by
  rw [capture_eq_run]
  cases keylog with
  | none =>
    obtain ⟨bs, e, hrun, hwritten, hbs⟩ := run_of_ready hP (e := .new start) dropTime
      (show Ready (.new start) none from ⟨rfl, by simp, rfl⟩) hops
    refine ⟨bs, ?_, hbs⟩
    rw [hrun, Option.map_some, hwritten, secretsWritten_none]
    rfl
  | some keylog =>
    obtain ⟨bs, bs', e, hrun, hwritten, hbs, hbs'⟩ := run_of_waiting hP (e := .new start) keylog dropTime rfl
      (by simp [PcapExporter.new]) hops
    cases hbs
    refine ⟨bs', ?_, hbs'⟩
    rw [hrun, Option.map_some, hwritten]
    rfl

/-! ### Captures that are written -/

theorem PcapExporter.bufferedPackets_writePcapngTransmit (hP : P.Documented) {now : Nat} {sourceAddr : SocketAddr}
    {transmit : OwnedTransmit} (h : writePcapngTransmit P now e sourceAddr transmit = some e') :
    e'.bufferedPackets = e.bufferedPackets := by
  obtain ⟨b, -, hwrite⟩ := exists_writePcapngTransmit hP now e (writable_of_writePcapngTransmit hP h)
  obtain rfl := Option.some.inj (h.symm.trans hwrite)
  rfl

/-- A packet that is tracked is written or buffered, and so are the packets that were in the buffer. -/
theorem PcapExporter.writable_of_trackTransmit (hP : P.Documented) {time : Nat} {keylog : Option InMemoryKeyLog}
    {sourceAddr : SocketAddr} {transmit : OwnedTransmit} (h : e.trackTransmit P time keylog sourceAddr transmit = some e')
    (hbuffered : ∀ packet ∈ e'.bufferedPackets, Writable packet.1 packet.2) :
    Writable sourceAddr transmit ∧ ∀ packet ∈ e.bufferedPackets, Writable packet.1 packet.2 := by
  have hwrite : writePcapngTransmit P time e sourceAddr transmit = some e' →
      Writable sourceAddr transmit ∧ ∀ packet ∈ e.bufferedPackets, Writable packet.1 packet.2 := fun h =>
    ⟨writable_of_writePcapngTransmit hP h, by rwa [← bufferedPackets_writePcapngTransmit hP h]⟩
  cases keylog with
  | none => exact hwrite h
  | some keylog =>
    rw [trackTransmit] at h
    dsimp only at h
    split_ifs at h with hwritten hfew
    · exact hwrite h
    · obtain rfl := Option.some.inj h
      exact ⟨hbuffered _ (List.mem_append_right _ (List.mem_singleton_self _)),
        fun packet hmem => hbuffered packet (List.mem_append_left _ hmem)⟩
    · obtain ⟨e₁, h₁, h⟩ := Option.bind_eq_some_iff.1 h
      have hflushed := writable_of_writeBuffered (e := { e with
        keylogWritten := true, written := e.written ++ [.raw (assembleSecretsBlock (joinLines keylog.log))] }) hP h₁
      exact ⟨writable_of_writePcapngTransmit hP h, hflushed⟩

/-- The induction is on the operations: what is in the buffer is written by a later one, or at the end. -/
theorem writable_of_run (hP : P.Documented) {keylog : Option InMemoryKeyLog}
    (h : run P (e, keylog) ops dropTime = some e') :
    (∀ packet ∈ e.bufferedPackets, Writable packet.1 packet.2) ∧ AllWritable ops := by
  induction ops generalizing e keylog with
  | nil => exact ⟨PcapExporter.writable_of_writeBuffered hP h, by simp [AllWritable, calls]⟩
  | cons x ops ih =>
    obtain ⟨time, op⟩ := x
    cases op with
    | log label clientRandom secret => exact ih ((run_cons (by rfl)).symm.trans h)
    | trackTransmit sourceAddr transmit =>
      obtain ⟨s, hs, -⟩ := Option.bind_eq_some_iff.1 h
      obtain ⟨s₁, hs₁, -⟩ := Option.bind_eq_some_iff.1 (List.foldlM_cons.symm.trans hs)
      obtain ⟨e₁, h₁, -⟩ := Option.map_eq_some_iff.1 hs₁
      obtain ⟨hbuffered₁, hops⟩ := ih ((run_trackTransmit h₁).symm.trans h)
      obtain ⟨hwritable, hbuffered⟩ := PcapExporter.writable_of_trackTransmit hP h₁ hbuffered₁
      exact ⟨hbuffered, List.forall_mem_cons.2 ⟨hwritable, hops⟩⟩

/-- A capture is written exactly if all packets can be. -/
theorem exists_capture_iff (hP : P.Documented) (start : Nat) (keylog : Option InMemoryKeyLog) (ops : List TimedOp)
    (dropTime : Nat) : (∃ blocks, capture P start keylog ops dropTime = some blocks) ↔ AllWritable ops := by
  constructor
  · rintro ⟨blocks, h⟩
    rw [capture_eq_run] at h
    obtain ⟨e, he, -⟩ := Option.map_eq_some_iff.1 h
    exact (writable_of_run hP he).2
  · intro hops
    obtain ⟨bs, hcapture, -⟩ := capture_eq hP start keylog dropTime hops
    exact ⟨_, hcapture⟩

/-! ### Results -/

/-- All packets that are tracked have IPv4 addresses and fit the buffer. -/
def AllFitBuffer (ops : List TimedOp) : Prop := ∀ call ∈ calls ops, FitsBuffer call.sourceAddr call.transmit

instance (ops : List TimedOp) : Decidable (AllFitBuffer ops) := by
  unfold AllFitBuffer
  infer_instance

/-- There is one block for each call, with its source, destination and contents, in the order of the calls and behind the
secrets, exactly if no packet is longer than its destination port. -/
theorem captures_every_call_iff (hP : P.Documented) (start : Nat) (keylog : Option InMemoryKeyLog) (ops : List TimedOp)
    (dropTime : Nat) (hops : AllFitBuffer ops) :
    (∃ bs, capture P start keylog ops dropTime = some (blocksOf (secretsWritten keylog ops) bs) ∧
      bs.map (fun b => decodePacket b.data) =
        (calls ops).map fun call => some (call.sourceAddr, call.transmit.destination, call.transmit.contents)) ↔
      ∀ call ∈ calls ops, FitsPort call.transmit := by
  constructor
  · rintro ⟨bs, hcapture, -⟩ call hcall
    exact ((exists_capture_iff hP start keylog ops dropTime).1 ⟨_, hcapture⟩ call hcall).2
  · intro hports
    obtain ⟨bs, hcapture, hbs⟩ := capture_eq hP start keylog dropTime
      (show AllWritable ops from fun call hcall => ⟨hops call hcall, hports call hcall⟩)
    refine ⟨bs, hcapture, ?_⟩
    rw [← map_writes keylog dropTime ops, List.map_map]
    exact hbs.map_eq fun b x hb => hb.packet

/-- A second packet is tracked when there is enough key material. -/
def twoPackets : List TimedOp :=
  [⟨0, trackedPacket⟩] ++ List.replicate 5 ⟨0, secretOf 1⟩ ++ [⟨7000000, trackedPacket⟩]

theorem captures_twoPackets :
    ∃ bs, capture .reference 0 (some {}) twoPackets 9000000 = some (blocksOf (secretsWritten (some {}) twoPackets) bs) ∧
      bs.map (fun b => decodePacket b.data) =
        (calls twoPackets).map fun call => some (call.sourceAddr, call.transmit.destination, call.transmit.contents) :=
  (captures_every_call_iff PnetPacket.reference_documented 0 (some {}) twoPackets 9000000 (by decide +kernel)).2
    (by decide +kernel)

/-- A packet of 1200 bytes for port 443. -/
def smallPort : List TimedOp :=
  [⟨0, .trackTransmit ⟨.v4 1, hostPort⟩
    { destination := ⟨.v4 2, 443⟩, ecn := none, contents := List.replicate 1200 0, segmentSize := none }⟩]

/-- The packet fits the buffer, and the exporter panics. -/
theorem smallPort_not_captured : AllFitBuffer smallPort ∧ capture .reference 0 none smallPort 0 = none := by
  refine ⟨by decide +kernel, ?_⟩
  have hnot : ¬ AllWritable smallPort := by decide +kernel
  rw [← exists_capture_iff PnetPacket.reference_documented 0 none smallPort 0] at hnot
  exact Option.eq_none_iff_forall_ne_some.2 fun blocks h => hnot ⟨blocks, h⟩

def Block.timestamp? : Block → Option Nat
  | .enhancedPacket b => some b.timestamp
  | _ => none

/-- The key log after operations. -/
def keylogOf (keylog : Option InMemoryKeyLog) (ops : List TimedOp) : Option InMemoryKeyLog :=
  ops.foldl TimedOp.keylogAfter keylog

theorem keylogOf_none (ops : List TimedOp) : keylogOf none ops = none := by
  induction ops with
  | nil => rfl
  | cons x ops ih => rw [keylogOf, List.foldl_cons, keylogAfter_none, ← keylogOf, ih]

/-- A packet that is tracked without enough key material is written at a time that is rounded as the one at which it is
tracked. -/
def StampedInTime (start : Nat) (keylog : Option InMemoryKeyLog) (ops : List TimedOp) (dropTime : Nat) : Prop :=
  ∀ before x after call, ops = before ++ x :: after → x.call? = some call → enough (keylogOf keylog before) = false →
    correctTimestamp (flushTime (keylogOf keylog before) dropTime after - start) = correctTimestamp (call.time - start)

theorem mem_writes {keylog : Option InMemoryKeyLog} {t : Nat} {call : Call} : (t, call) ∈ writes keylog dropTime ops ↔
    ∃ before x after, ops = before ++ x :: after ∧ x.call? = some call ∧
      t = if enough (keylogOf keylog before) then call.time else flushTime (keylogOf keylog before) dropTime after := by
  induction ops generalizing keylog with
  | nil => simp [writes]
  | cons y ops ih =>
    rw [writes, List.mem_append, ih]
    constructor
    · rintro (hy | ⟨before, x, after, rfl, hx, ht⟩)
      · obtain ⟨call', hcall, heq⟩ := Option.map_eq_some_iff.1 (Option.mem_toList.1 hy)
        obtain ⟨rfl, rfl⟩ := Prod.mk.inj heq
        exact ⟨[], y, ops, rfl, hcall, rfl⟩
      · exact ⟨y :: before, x, after, rfl, hx, ht⟩
    · rintro ⟨before, x, after, hsplit, hx, ht⟩
      cases before with
      | nil =>
        obtain ⟨rfl, rfl⟩ := List.cons.inj hsplit
        rw [hx, ht]
        exact .inl (List.mem_cons_self ..)
      | cons z before =>
        obtain ⟨rfl, rfl⟩ := List.cons.inj hsplit
        exact .inr ⟨before, x, after, rfl, hx, ht⟩

theorem map_eq_map_snd {f : Nat × Call → Nat} {g : Call → Nat} {l : List (Nat × Call)} :
    l.map f = (l.map Prod.snd).map g ↔ ∀ t call, (t, call) ∈ l → f (t, call) = g call := by
  rw [List.map_map, List.map_inj_left, Prod.forall]
  rfl

theorem writes_correctTimestamp_iff {start : Nat} {keylog : Option InMemoryKeyLog} :
    (∀ t call, (t, call) ∈ writes keylog dropTime ops → correctTimestamp (t - start) = correctTimestamp (call.time - start)) ↔
      StampedInTime start keylog ops dropTime := by
  constructor
  · intro h before x after call hsplit hx hfew
    refine h _ call (mem_writes.2 ⟨before, x, after, hsplit, hx, ?_⟩)
    rw [hfew, if_neg Bool.false_ne_true]
  · intro h t call hmem
    obtain ⟨before, x, after, hsplit, hx, rfl⟩ := mem_writes.1 hmem
    split_ifs with henough
    · rfl
    · exact h before x after call hsplit hx (by simpa using henough)

/-- The time stamps are the times at which the packets are written. -/
theorem timestamps_eq (hP : P.Documented) {start : Nat} {keylog : Option InMemoryKeyLog} {blocks : List Block}
    (h : capture P start keylog ops dropTime = some blocks) :
    blocks.filterMap Block.timestamp? = (writes keylog dropTime ops).map fun x => correctTimestamp (x.1 - start) := by
  have hops := (exists_capture_iff hP start keylog ops dropTime).1 ⟨blocks, h⟩
  obtain ⟨bs, hcapture, hbs⟩ := capture_eq hP start keylog dropTime hops
  obtain rfl := Option.some.inj (h.symm.trans hcapture)
  have hblocks : (blocksOf (secretsWritten keylog ops) bs).filterMap Block.timestamp? = bs.map (·.timestamp) := by
    simp [blocksOf, secretsBlocks, Block.timestamp?, List.filterMap_cons, List.filterMap_append, List.filterMap_map,
      Function.comp_def]
  rw [hblocks]
  exact hbs.map_eq fun b x hb => hb.timestamp

/-- The time stamps of a capture are the times of the calls exactly if every packet that waits for key material is written at
a time that is rounded as the one of its call. -/
theorem timestamps_iff (hP : P.Documented) {start : Nat} {keylog : Option InMemoryKeyLog} {ops : List TimedOp} {dropTime : Nat}
    {blocks : List Block} (h : capture P start keylog ops dropTime = some blocks) :
    blocks.filterMap Block.timestamp? = (calls ops).map (fun call => correctTimestamp (call.time - start)) ↔
      StampedInTime start keylog ops dropTime := by
  rw [timestamps_eq hP h, ← map_writes keylog dropTime ops, map_eq_map_snd]
  exact writes_correctTimestamp_iff

/-- Without a key log there is nothing to wait for. -/
theorem stampedInTime_none (start : Nat) (ops : List TimedOp) (dropTime : Nat) : StampedInTime start none ops dropTime := by
  intro before x after call _ _ hfew
  simp [keylogOf_none, enough] at hfew

theorem timestamps_withoutKeylog : ∃ blocks, capture .reference 0 none twoPackets 9000000 = some blocks ∧
    blocks.filterMap Block.timestamp? = (calls twoPackets).map fun call => correctTimestamp (call.time - 0) := by
  obtain ⟨blocks, h⟩ := (exists_capture_iff PnetPacket.reference_documented 0 none twoPackets 9000000).2 (by decide +kernel)
  exact ⟨blocks, h, (timestamps_iff PnetPacket.reference_documented h).2 (stampedInTime_none 0 twoPackets 9000000)⟩

/-- The first packet is tracked at 0 and stamped with the time of the second one, of seven milliseconds. -/
theorem late_timestamp : ∃ blocks, capture .reference 0 (some {}) twoPackets 9000000 = some blocks ∧
    blocks.filterMap Block.timestamp? = [7000, 7000] ∧
    blocks.filterMap Block.timestamp? ≠ (calls twoPackets).map fun call => correctTimestamp (call.time - 0) := by
  obtain ⟨blocks, h⟩ := (exists_capture_iff PnetPacket.reference_documented 0 (some {}) twoPackets 9000000).2 (by decide +kernel)
  refine ⟨blocks, h, ?_, ?_⟩ <;> rw [timestamps_eq PnetPacket.reference_documented h] <;> decide +kernel

end Pcapng
end QuicWorkbench
