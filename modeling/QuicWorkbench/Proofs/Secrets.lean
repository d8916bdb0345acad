import QuicWorkbench.Lib.Along
import QuicWorkbench.PcapExporter
import Mathlib.Data.List.Induction

/-!
# The secrets in a capture

The exporter writes the key log once, when it tracks a packet and finds at least five lines. A line that is logged later
is in no secrets block, and without five lines there is no such block at all (`secretsCovered_iff`).
-/

namespace QuicWorkbench

/-! ### Secrets blocks -/

theorem padding_lt (n : Nat) : padding n < 4 := Nat.mod_lt _ (by omega)

@[simp] theorem length_toBeBytes (n : Nat) : (toBeBytes n).length = 4 := rfl

theorem toUInt8_inj {a b : Nat} (ha : a < 256) (hb : b < 256) (h : a.toUInt8 = b.toUInt8) : a = b := by
  have h := congrArg UInt8.toNat h
  simp only [Nat.toUInt8_eq, UInt8.toNat_ofNat'] at h
  omega

theorem toBeBytes_mod {m n : Nat} (h : toBeBytes m = toBeBytes n) : m % 2 ^ 32 = n % 2 ^ 32 := by
  simp only [toBeBytes, List.cons.injEq, and_true] at h
  obtain ⟨h₁, h₂, h₃, h₄⟩ := h
  have h₁ := toUInt8_inj (Nat.mod_lt _ (by omega)) (Nat.mod_lt _ (by omega)) h₁
  have h₂ := toUInt8_inj (Nat.mod_lt _ (by omega)) (Nat.mod_lt _ (by omega)) h₂
  have h₃ := toUInt8_inj (Nat.mod_lt _ (by omega)) (Nat.mod_lt _ (by omega)) h₃
  have h₄ := toUInt8_inj (Nat.mod_lt _ (by omega)) (Nat.mod_lt _ (by omega)) h₄
  omega

theorem secretsBlock_inj {secrets secrets' : List UInt8} (h : secretsBlock secrets = secretsBlock secrets') :
    secrets = secrets' := by
  have hlen := congrArg List.length h
  simp only [secretsBlock, List.append_assoc, List.length_append, length_toBeBytes, List.length_replicate] at hlen
  have hpad := padding_lt (16 + secrets.length)
  have hpad' := padding_lt (16 + secrets'.length)
  simp only [secretsBlock, List.append_assoc] at h
  obtain ⟨-, h⟩ := List.append_inj h (by simp)
  obtain ⟨-, h⟩ := List.append_inj h (by simp)
  obtain ⟨-, h⟩ := List.append_inj h (by simp)
  obtain ⟨hlength, h⟩ := List.append_inj h (by simp)
  have hmod := toBeBytes_mod hlength
  exact (List.append_inj h (by omega)).1

theorem splitOn_joinLines {lines : List (List UInt8)} (hlines : lines ≠ []) (hbreaks : ∀ line ∈ lines, lineBreak ∉ line) :
    (joinLines lines).splitOn lineBreak = lines ++ [[]] := by
  rw [joinLines, List.splitOn_append_cons_self, List.splitOn_intercalate lineBreak hbreaks hlines, List.splitOn_nil]

theorem lineBreak_notMem_hexEncode (bytes : List UInt8) : lineBreak ∉ hexEncode bytes := by
  have hdigit : ∀ d < 16, (Hex.digitChar d).toNat.toUInt8 ≠ lineBreak := by decide
  simp only [hexEncode, List.mem_flatMap, not_exists, not_and, List.mem_map]
  rintro b - c hc hbreak
  simp only [Hex.digits, List.nil_append, List.cons_append, List.mem_cons, List.not_mem_nil, or_false] at hc
  rcases hc with rfl | rfl
  · exact hdigit _ (Nat.mod_lt _ (by omega)) hbreak
  · exact hdigit _ (Nat.mod_lt _ (by omega)) hbreak

theorem lineBreak_notMem_keyLogLine (label : Label) (clientRandom secret : List UInt8) :
    lineBreak ∉ keyLogLine label clientRandom secret := by
  have hspace : (32 : UInt8) ≠ lineBreak := by decide
  simp [keyLogLine, label.noLineBreak, lineBreak_notMem_hexEncode, hspace.symm]

/-! ### What the operations say -/

/-- The line that the operation logs. -/
def PcapOp.line : PcapOp → Option (List UInt8)
  | .log label clientRandom secret => some (keyLogLine label clientRandom secret)
  | .trackTransmit _ _ => none

def PcapOp.tracks : PcapOp → Bool
  | .log _ _ _ => false
  | .trackTransmit _ _ => true

/-- The lines that the operations log. -/
def loggedIn (ops : List PcapOp) : List (List UInt8) := ops.filterMap PcapOp.line

/-- The lines that are logged when a packet is tracked with at least five of them for the first time. -/
def firstSecrets (ops : List PcapOp) : Option (List (List UInt8)) :=
  foldAlong (fun before secrets op =>
    secrets.or (if op.tracks ∧ 5 ≤ (loggedIn before).length then some (loggedIn before) else none)) none ops

theorem firstSecrets_snoc (ops : List PcapOp) (op : PcapOp) : firstSecrets (ops ++ [op]) =
    (firstSecrets ops).or (if op.tracks ∧ 5 ≤ (loggedIn ops).length then some (loggedIn ops) else none) := foldAlong_snoc

theorem loggedIn_snoc (ops : List PcapOp) (op : PcapOp) : loggedIn (ops ++ [op]) = loggedIn ops ++ op.line.toList := by
  cases op <;> simp [loggedIn, PcapOp.line]

/-- The first secrets are at least five lines that were logged. -/
theorem firstSecrets_spec {ops : List PcapOp} {lines : List (List UInt8)} (h : firstSecrets ops = some lines) :
    5 ≤ lines.length ∧ ∀ line ∈ lines, line ∈ loggedIn ops := by
  induction ops using List.reverseRecOn with
  | nil => simp [firstSecrets] at h
  | append_singleton ops op ih =>
    rw [firstSecrets_snoc] at h
    rw [loggedIn_snoc]
    cases hfirst : firstSecrets ops with
    | some lines' =>
      rw [hfirst, Option.some_or] at h
      obtain rfl := Option.some.inj h
      obtain ⟨hlength, hmem⟩ := ih hfirst
      exact ⟨hlength, fun line hline => List.mem_append_left _ (hmem line hline)⟩
    | none =>
      rw [hfirst, Option.none_or] at h
      split_ifs at h with hfive
      obtain rfl := Option.some.inj h
      exact ⟨hfive.2, fun line hline => List.mem_append_left _ hline⟩

theorem lineBreak_notMem_of_logged {ops : List PcapOp} {line : List UInt8} (h : line ∈ loggedIn ops) :
    lineBreak ∉ line ∧ line ≠ [] := by
  obtain ⟨op, -, hop⟩ := List.mem_filterMap.1 h
  cases op with
  | log label clientRandom secret =>
    obtain rfl := Option.some.inj hop
    exact ⟨lineBreak_notMem_keyLogLine label clientRandom secret, by simp [keyLogLine]⟩
  | trackTransmit => simp [PcapOp.line] at hop

/-! ### Blocks -/

def PcapBlock.rawBytes : PcapBlock → Option (List UInt8)
  | .raw bytes => some bytes
  | _ => none

/-- The raw blocks that are written. -/
def PcapExporter.rawBlocks (e : PcapExporter) : List (List UInt8) := e.written.filterMap PcapBlock.rawBytes

namespace PcapExporter
variable {e e' : PcapExporter}

theorem writePcapngTransmit_spec {sourceAddr : SocketAddr} {transmit : OwnedTransmit}
    (h : e.writePcapngTransmit sourceAddr transmit = some e') :
    e'.rawBlocks = e.rawBlocks ∧ e'.keylogWritten = e.keylogWritten := by
  unfold writePcapngTransmit at h
  split at h
  · dsimp only at h
    split_ifs at h
    obtain rfl := Option.some.inj h
    exact ⟨by simp [rawBlocks, PcapBlock.rawBytes], rfl⟩
  · simp at h

theorem writeBuffered_spec (h : e.writeBuffered = some e') :
    e'.rawBlocks = e.rawBlocks ∧ e'.keylogWritten = e.keylogWritten := by
  have hfold : ∀ (packets : List (SocketAddr × OwnedTransmit)) (e : PcapExporter),
      packets.foldlM (fun e packet => e.writePcapngTransmit packet.1 packet.2) e = some e' →
      e'.rawBlocks = e.rawBlocks ∧ e'.keylogWritten = e.keylogWritten := by
    intro packets
    induction packets with
    | nil =>
      intro e h
      obtain rfl := Option.some.inj h
      exact ⟨rfl, rfl⟩
    | cons packet packets ih =>
      intro e h
      rw [List.foldlM_cons] at h
      obtain ⟨e₁, h₁, h⟩ := Option.bind_eq_some_iff.1 h
      obtain ⟨hraw, hwritten⟩ := writePcapngTransmit_spec h₁
      rw [← hraw, ← hwritten]
      exact ih e₁ h
  exact hfold e.bufferedPackets { e with bufferedPackets := [] } h

end PcapExporter

/-- What the exporter has written of the secrets, and the key log. -/
structure Exported (ops : List PcapOp) (s : PcapExporter × InMemoryKeyLog) : Prop where
  log : s.2.log = loggedIn ops
  keylogWritten : s.1.keylogWritten = (firstSecrets ops).isSome
  rawBlocks : s.1.rawBlocks = (firstSecrets ops).toList.map fun lines => secretsBlock (joinLines lines)

theorem Exported.step {ops : List PcapOp} {op : PcapOp} {s s' : PcapExporter × InMemoryKeyLog} (h : Exported ops s)
    (hop : op.apply s = some s') : Exported (ops ++ [op]) s' := by
  cases op with
  | log label clientRandom secret =>
    obtain rfl := Option.some.inj hop
    have hsame : firstSecrets (ops ++ [.log label clientRandom secret]) = firstSecrets ops := by
      simp [firstSecrets_snoc, PcapOp.tracks]
    refine ⟨?_, hsame ▸ h.keylogWritten, hsame ▸ h.rawBlocks⟩
    rw [loggedIn_snoc, ← h.log]
    rfl
  | trackTransmit sourceAddr transmit =>
    obtain ⟨e, he, rfl⟩ := Option.map_eq_some_iff.1 hop
    have hlog : s.2.log = loggedIn (ops ++ [.trackTransmit sourceAddr transmit]) := by
      rw [loggedIn_snoc, h.log]
      exact (List.append_nil _).symm
    have hwritten := h.keylogWritten
    have hraw := h.rawBlocks
    simp only [PcapExporter.trackTransmit] at he
    cases hfirst : firstSecrets ops with
    | some lines =>
      rw [hfirst] at hwritten hraw
      replace hwritten : s.1.keylogWritten = true := hwritten
      rw [if_pos hwritten] at he
      obtain ⟨hsame, hsame'⟩ := PcapExporter.writePcapngTransmit_spec he
      have hlast : firstSecrets (ops ++ [.trackTransmit sourceAddr transmit]) = some lines := by
        rw [firstSecrets_snoc, hfirst, Option.some_or]
      exact ⟨hlog, by rw [hsame', hwritten, hlast]; rfl, by rw [hsame, hraw, hlast]⟩
    | none =>
      rw [hfirst] at hwritten hraw
      rw [if_neg (by simp [hwritten])] at he
      have hlast : firstSecrets (ops ++ [.trackTransmit sourceAddr transmit]) =
          if 5 ≤ (loggedIn ops).length then some (loggedIn ops) else none := by
        rw [firstSecrets_snoc, hfirst, Option.none_or]
        simp [PcapOp.tracks]
      rw [h.log] at he
      split_ifs at he with hfew
      · rw [if_neg (by omega)] at hlast
        obtain rfl := Option.some.inj he
        exact ⟨hlog, by rw [hlast]; exact hwritten, by rw [hlast]; exact hraw⟩
      · rw [if_pos (by omega)] at hlast
        obtain ⟨e₁, h₁, he⟩ := Option.bind_eq_some_iff.1 he
        obtain ⟨hsame₁, hsame₁'⟩ := PcapExporter.writeBuffered_spec h₁
        obtain ⟨hsame, hsame'⟩ := PcapExporter.writePcapngTransmit_spec he
        refine ⟨hlog, by rw [hsame', hsame₁', hlast]; rfl, ?_⟩
        rw [hsame, hsame₁, hlast]
        have hblocks : s.1.written.filterMap PcapBlock.rawBytes = [] := hraw
        simp [PcapExporter.rawBlocks, PcapExporter.writeRawBlock, PcapBlock.rawBytes, hblocks]

theorem exported_of_foldlM {ops : List PcapOp} {s : PcapExporter × InMemoryKeyLog}
    (h : ops.foldlM PcapOp.apply (.new, {}) = some s) : Exported ops s := by
  induction ops using List.reverseRecOn generalizing s with
  | nil =>
    obtain rfl := Option.some.inj h
    exact ⟨rfl, rfl, rfl⟩
  | append_singleton ops op ih =>
    rw [List.foldlM_append] at h
    obtain ⟨s₀, h₀, h⟩ := Option.bind_eq_some_iff.1 h
    rw [List.foldlM_cons] at h
    obtain ⟨s₁, h₁, h⟩ := Option.bind_eq_some_iff.1 h
    obtain rfl := Option.some.inj h
    exact (ih h₀).step h₁

/-! ### Captures that are written -/

/-- The packet has IPv4 addresses and fits the buffer. -/
def FitsBuffer (sourceAddr : SocketAddr) (transmit : OwnedTransmit) : Prop :=
  sourceAddr.ip.isIpv4 ∧ transmit.destination.ip.isIpv4 ∧ ipv4Overhead + udpOverhead + transmit.contents.length ≤ 2000

/-- The destination port is no smaller than the packet is long. -/
def FitsPort (transmit : OwnedTransmit) : Prop :=
  ipv4Overhead + udpOverhead + transmit.contents.length ≤ transmit.destination.port.toNat

/-- The exporter can write the packet. -/
def Writable (sourceAddr : SocketAddr) (transmit : OwnedTransmit) : Prop :=
  FitsBuffer sourceAddr transmit ∧ FitsPort transmit

instance (sourceAddr : SocketAddr) (transmit : OwnedTransmit) : Decidable (FitsBuffer sourceAddr transmit) := by
  unfold FitsBuffer
  infer_instance

instance (transmit : OwnedTransmit) : Decidable (FitsPort transmit) := by
  unfold FitsPort
  infer_instance

namespace PcapExporter
variable {e : PcapExporter}

theorem exists_writePcapngTransmit (e : PcapExporter) {sourceAddr : SocketAddr} {transmit : OwnedTransmit}
    (h : Writable sourceAddr transmit) :
    ∃ e', e.writePcapngTransmit sourceAddr transmit = some e' ∧ e'.bufferedPackets = e.bufferedPackets := by
  obtain ⟨⟨hsource, hdestination, hfits⟩, hport⟩ := h
  rw [FitsPort] at hport
  unfold writePcapngTransmit
  cases hs : sourceAddr.ip with
  | v6 => simp [hs, IpAddr.isIpv4] at hsource
  | v4 source =>
    cases hd : transmit.destination.ip with
    | v6 => simp [hd, IpAddr.isIpv4] at hdestination
    | v4 destination =>
      simp only [hfits, hport, and_self, if_true]
      exact ⟨_, rfl, rfl⟩

theorem exists_writeBuffered (h : ∀ packet ∈ e.bufferedPackets, Writable packet.1 packet.2) :
    ∃ e', e.writeBuffered = some e' ∧ e'.bufferedPackets = [] := by
  have hfold : ∀ (packets : List (SocketAddr × OwnedTransmit)) (e : PcapExporter),
      (∀ packet ∈ packets, Writable packet.1 packet.2) →
      ∃ e', packets.foldlM (fun e packet => e.writePcapngTransmit packet.1 packet.2) e = some e' ∧
        e'.bufferedPackets = e.bufferedPackets := by
    intro packets
    induction packets with
    | nil => exact fun e _ => ⟨e, rfl, rfl⟩
    | cons packet packets ih =>
      intro e hpackets
      obtain ⟨e₁, h₁, hsame₁⟩ := exists_writePcapngTransmit e (hpackets packet (List.mem_cons_self ..))
      obtain ⟨e', h', hsame⟩ := ih e₁ fun packet hmem => hpackets packet (List.mem_cons_of_mem _ hmem)
      refine ⟨e', ?_, hsame.trans hsame₁⟩
      rw [List.foldlM_cons, h₁]
      exact h'
  exact hfold e.bufferedPackets { e with bufferedPackets := [] } h

end PcapExporter

/-- If all packets can be written, so can the capture. -/
theorem exists_capture {ops : List PcapOp}
    (h : ∀ sourceAddr transmit, .trackTransmit sourceAddr transmit ∈ ops → Writable sourceAddr transmit) :
    ∃ blocks, capture ops = some blocks := by
  have hrun : ∃ s, ops.foldlM PcapOp.apply (.new, {}) = some s ∧
      ∀ packet ∈ s.1.bufferedPackets, Writable packet.1 packet.2 := by
    induction ops using List.reverseRecOn with
    | nil => exact ⟨_, rfl, by simp [PcapExporter.new]⟩
    | append_singleton ops op ih =>
      obtain ⟨s, hs, hbuffered⟩ := ih fun sourceAddr transmit hmem => h _ _ (List.mem_append_left _ hmem)
      simp only [List.foldlM_append, hs, List.foldlM_cons, List.foldlM_nil]
      cases op with
      | log label clientRandom secret => exact ⟨_, rfl, hbuffered⟩
      | trackTransmit sourceAddr transmit =>
        have hwritable := h sourceAddr transmit (by simp)
        obtain ⟨e, he, hsame⟩ := PcapExporter.exists_writePcapngTransmit s.1 hwritable
        by_cases hwritten : s.1.keylogWritten
        · refine ⟨(e, s.2), ?_, hsame ▸ hbuffered⟩
          simp [PcapOp.apply, PcapExporter.trackTransmit, hwritten, he]
        · by_cases hfew : s.2.log.length < 5
          · refine ⟨({ s.1 with bufferedPackets := s.1.bufferedPackets ++ [(sourceAddr, transmit)] }, s.2), ?_, ?_⟩
            · simp [PcapOp.apply, PcapExporter.trackTransmit, hwritten, hfew]
            · intro packet hpacket
              rcases List.mem_append.1 hpacket with hpacket | hpacket
              · exact hbuffered packet hpacket
              · rw [List.mem_singleton.1 hpacket]
                exact hwritable
          · obtain ⟨e₁, h₁, hempty⟩ := PcapExporter.exists_writeBuffered
              (e := { s.1.writeRawBlock (secretsBlock (joinLines s.2.log)) with keylogWritten := true }) hbuffered
            obtain ⟨e₂, h₂, hsame₂⟩ := PcapExporter.exists_writePcapngTransmit e₁ hwritable
            refine ⟨(e₂, s.2), ?_, by simp [hsame₂, hempty]⟩
            simp [PcapOp.apply, PcapExporter.trackTransmit, hwritten, hfew, h₁, h₂]
  obtain ⟨s, hs, hbuffered⟩ := hrun
  obtain ⟨e, he, -⟩ := PcapExporter.exists_writeBuffered hbuffered
  exact ⟨e.written, by simp [capture, hs, he]⟩

/-! ### Results -/

/-- The line is one of the lines of a secrets block. -/
def AppearsIn (line : List UInt8) (blocks : List PcapBlock) : Prop :=
  ∃ secrets, .raw (secretsBlock secrets) ∈ blocks ∧ line ∈ secrets.splitOn lineBreak

/-- The only secrets block of a capture has the first secrets. -/
theorem appearsIn_iff {ops : List PcapOp} {blocks : List PcapBlock} (h : capture ops = some blocks) {line : List UInt8}
    (hline : line ≠ []) : AppearsIn line blocks ↔ ∃ lines, firstSecrets ops = some lines ∧ line ∈ lines := by
  obtain ⟨s, hs, h⟩ := Option.bind_eq_some_iff.1 h
  obtain ⟨e, he, h⟩ := Option.bind_eq_some_iff.1 h
  obtain rfl := Option.some.inj h
  have hexported := exported_of_foldlM hs
  have hraw := (PcapExporter.writeBuffered_spec he).1.trans hexported.rawBlocks
  have hmem : ∀ bytes, .raw bytes ∈ e.written ↔ ∃ lines, firstSecrets ops = some lines ∧ bytes = secretsBlock (joinLines lines) := by
    intro bytes
    have hiff : .raw bytes ∈ e.written ↔ bytes ∈ e.rawBlocks := by
      rw [PcapExporter.rawBlocks, List.mem_filterMap]
      constructor
      · exact fun hmem => ⟨_, hmem, rfl⟩
      · rintro ⟨block, hmem, hblock⟩
        cases block <;> simp_all [PcapBlock.rawBytes]
    rw [hiff, hraw, List.mem_map]
    simp only [Option.mem_toList, eq_comm (b := bytes)]
  have hsplit : ∀ lines, firstSecrets ops = some lines → (joinLines lines).splitOn lineBreak = lines ++ [[]] := by
    intro lines hlines
    obtain ⟨hlength, hlogged⟩ := firstSecrets_spec hlines
    refine splitOn_joinLines (List.ne_nil_of_length_pos (by omega)) fun line hline => ?_
    exact (lineBreak_notMem_of_logged (hlogged line hline)).1
  constructor
  · rintro ⟨secrets, hblock, hmem'⟩
    obtain ⟨lines, hlines, heq⟩ := (hmem _).1 hblock
    obtain rfl := secretsBlock_inj heq
    rw [hsplit lines hlines] at hmem'
    exact ⟨lines, hlines, by simpa [hline] using hmem'⟩
  · rintro ⟨lines, hlines, hmem'⟩
    refine ⟨joinLines lines, (hmem _).2 ⟨lines, hlines, rfl⟩, ?_⟩
    rw [hsplit lines hlines]
    exact List.mem_append_left _ hmem'

/-- Every line that is logged before a packet is tracked appears in the capture. -/
def SecretsCovered (ops : List PcapOp) (blocks : List PcapBlock) : Prop :=
  ∀ before sourceAddr transmit after, ops = before ++ .trackTransmit sourceAddr transmit :: after →
    ∀ line ∈ loggedIn before, AppearsIn line blocks

/-- Every line that is logged before a packet is tracked is one of the first secrets. -/
def LoggedFirst (ops : List PcapOp) : Prop :=
  ∀ before sourceAddr transmit after, ops = before ++ .trackTransmit sourceAddr transmit :: after →
    ∀ line ∈ loggedIn before, ∃ lines, firstSecrets ops = some lines ∧ line ∈ lines

/-- A capture has all secrets that were logged before the last packet exactly if all of them were logged before the first
packet that was tracked with at least five lines. -/
theorem secretsCovered_iff {ops : List PcapOp} {blocks : List PcapBlock} (h : capture ops = some blocks) :
    SecretsCovered ops blocks ↔ LoggedFirst ops := by
  constructor
  · intro hcovered before sourceAddr transmit after hsplit line hline
    have hne := (lineBreak_notMem_of_logged hline).2
    exact (appearsIn_iff h hne).1 (hcovered before sourceAddr transmit after hsplit line hline)
  · intro hfirst before sourceAddr transmit after hsplit line hline
    have hne := (lineBreak_notMem_of_logged hline).2
    exact (appearsIn_iff h hne).2 (hfirst before sourceAddr transmit after hsplit line hline)

theorem loggedFirst_of_all {ops : List PcapOp} (h : firstSecrets ops = some (loggedIn ops)) : LoggedFirst ops := by
  rintro before sourceAddr transmit after rfl line hline
  refine ⟨_, h, ?_⟩
  rw [loggedIn, List.filterMap_append]
  exact List.mem_append_left _ hline

/-- A secret of a connection, which the connection's number stands for. -/
def secretOf (connection : UInt8) : PcapOp := .log ⟨[83], by decide⟩ [connection] [0]

def trackedPacket : PcapOp :=
  .trackTransmit ⟨.v4 1, hostPort⟩ { destination := ⟨.v4 2, hostPort⟩, ecn := none, contents := [], segmentSize := none }

/-- One connection logs its secrets before the first packet is tracked. -/
def oneConnection : List PcapOp := List.replicate 5 (secretOf 1) ++ [trackedPacket]

/-- A second connection logs a secret after that, and another packet is tracked. -/
def twoConnections : List PcapOp := oneConnection ++ [secretOf 2, trackedPacket]

theorem secretsCovered_oneConnection :
    ∃ blocks, capture oneConnection = some blocks ∧ SecretsCovered oneConnection blocks := by
  obtain ⟨blocks, h⟩ := Option.isSome_iff_exists.1 (by decide +kernel : (capture oneConnection).isSome)
  exact ⟨blocks, h, (secretsCovered_iff h).2 (loggedFirst_of_all (by decide +kernel))⟩

/-- The secret of the second connection does not get into the capture. -/
theorem second_connection_not_covered :
    ∃ blocks, capture twoConnections = some blocks ∧ ¬ SecretsCovered twoConnections blocks := by
  obtain ⟨blocks, h⟩ := Option.isSome_iff_exists.1 (by decide +kernel : (capture twoConnections).isSome)
  refine ⟨blocks, h, fun hcovered => ?_⟩
  have hlogged : keyLogLine ⟨[83], by decide⟩ [2] [0] ∈ loggedIn (oneConnection ++ [secretOf 2]) := by decide +kernel
  have happears := hcovered (oneConnection ++ [secretOf 2]) _ _ [] rfl _ hlogged
  obtain ⟨lines, hlines, hmem⟩ := (appearsIn_iff h (lineBreak_notMem_of_logged hlogged).2).1 happears
  have hfirst : firstSecrets twoConnections = some (List.replicate 5 (keyLogLine ⟨[83], by decide⟩ [1] [0])) := by
    decide +kernel
  obtain rfl := Option.some.inj (hfirst.symm.trans hlines)
  revert hmem
  decide +kernel

end QuicWorkbench
