import QuicWorkbench.Lib.Hex
import QuicWorkbench.Transmit

/-!
# The packet captures

A host writes the packets that it sends and receives to a capture, together with the TLS secrets that its connections
have logged so far. Strings are their bytes. How a packet is wrapped and its time stamp are left out: `Pcapng` has them, and
`capture_readsAs` connects the two, so that what is said here of the secrets holds of the bytes.
-/

namespace QuicWorkbench

/-- The byte of a line break. -/
def lineBreak : UInt8 := 10

/-- The label of a secret, which is a word. -/
structure Label where
  bytes : List UInt8
  noLineBreak : lineBreak ∉ bytes

/-- `hex::encode`. -/
def hexEncode (bytes : List UInt8) : List UInt8 :=
  bytes.flatMap fun b => (Hex.digits 2 b.toNat).map fun c => c.toNat.toUInt8

structure InMemoryKeyLog where
  log : List (List UInt8) := []

/-- The line that `KeyLog::log` pushes. -/
def keyLogLine (label : Label) (clientRandom secret : List UInt8) : List UInt8 :=
  label.bytes ++ 32 :: hexEncode clientRandom ++ 32 :: hexEncode secret

def KeyLog.log (keylog : InMemoryKeyLog) (label : Label) (clientRandom secret : List UInt8) : InMemoryKeyLog :=
  { log := keylog.log ++ [keyLogLine label clientRandom secret] }

/-- A block of the capture. -/
inductive PcapBlock
  | sectionHeader (majorVersion minorVersion : Nat)
  | interfaceDescription (snaplen : Nat)
  | raw (bytes : List UInt8)
  | enhancedPacket (source destination : BitVec 32) (sourcePort destinationPort : BitVec 16) (ecn : Nat)
      (payload : List UInt8)
  deriving DecidableEq

/-- `u32::to_be_bytes`, of a number that is cast to `u32`. -/
def toBeBytes (n : Nat) : List UInt8 :=
  [(n / 2 ^ 24 % 256).toUInt8, (n / 2 ^ 16 % 256).toUInt8, (n / 2 ^ 8 % 256).toUInt8, (n % 256).toUInt8]

def blockType : Nat := 0x0000000A

def secretsType : Nat := 0x544c534b

/-- How many bytes are missing to the next 4-byte boundary. -/
def padding (length : Nat) : Nat := (4 - length % 4) % 4

/-- The block of the secrets, as bytes: its type and length, the type and length of the secrets, the secrets, padding, and
the length again. -/
def secretsBlock (secrets : List UInt8) : List UInt8 :=
  let totalLength := 16 + secrets.length + padding (16 + secrets.length) + 4
  toBeBytes blockType ++ toBeBytes totalLength ++ toBeBytes secretsType ++ toBeBytes secrets.length ++ secrets ++
    List.replicate (padding (16 + secrets.length)) 0 ++ toBeBytes totalLength

/-- The lines of a key log, as one text. -/
def joinLines (lines : List (List UInt8)) : List UInt8 := [lineBreak].intercalate lines ++ [lineBreak]

structure PcapExporter where
  written : List PcapBlock
  bufferedPackets : List (SocketAddr × OwnedTransmit)
  keylogWritten : Bool

namespace PcapExporter

def new : PcapExporter :=
  { written := [.sectionHeader 1 0, .interfaceDescription 65535]
    bufferedPackets := []
    keylogWritten := false }

def writeRawBlock (e : PcapExporter) (bytes : List UInt8) : PcapExporter := { e with written := e.written ++ [.raw bytes] }

/-- `none` is a panic: the addresses are IPv4 addresses, and the packet fits the buffer and the total length. That one is set
behind the payload, and up to then the destination port of the UDP packet is in its place. -/
def writePcapngTransmit (e : PcapExporter) (sourceAddr : SocketAddr) (transmit : OwnedTransmit) : Option PcapExporter :=
  match sourceAddr.ip, transmit.destination.ip with
  | .v4 source, .v4 destination =>
    let ipPacketLength := ipv4Overhead + udpOverhead + transmit.contents.length
    if ipPacketLength ≤ 2000 ∧ ipPacketLength ≤ transmit.destination.port.toNat then
      some { e with written := e.written ++ [.enhancedPacket source destination sourceAddr.port transmit.destination.port
        ((transmit.ecn.map EcnCodepoint.toBits).getD 0) transmit.contents] }
    else none
  | _, _ => none

/-- Write the packets that are buffered, which is also all that `drop` does. -/
def writeBuffered (e : PcapExporter) : Option PcapExporter :=
  e.bufferedPackets.foldlM (fun e packet => e.writePcapngTransmit packet.1 packet.2) { e with bufferedPackets := [] }

/-- `track_transmit`, with the key log that the exporter was created with as it is now. -/
def trackTransmit (e : PcapExporter) (keylog : Option InMemoryKeyLog) (sourceAddr : SocketAddr) (transmit : OwnedTransmit) :
    Option PcapExporter :=
  match keylog with
  | none => e.writePcapngTransmit sourceAddr transmit
  | some keylog =>
    if e.keylogWritten then e.writePcapngTransmit sourceAddr transmit
    -- buffer packets internally if not enough key material is present to decrypt them yet
    else if keylog.log.length < 5 then
      some { e with bufferedPackets := e.bufferedPackets ++ [(sourceAddr, transmit)] }
    else do
      let e ← { e.writeRawBlock (secretsBlock (joinLines keylog.log)) with keylogWritten := true }.writeBuffered
      e.writePcapngTransmit sourceAddr transmit

end PcapExporter

/-! ### Captures -/

/-- What happens to an exporter and to its key log: a connection logs a secret, or the host sends or receives a packet. -/
inductive PcapOp
  | log (label : Label) (clientRandom secret : List UInt8)
  | trackTransmit (sourceAddr : SocketAddr) (transmit : OwnedTransmit)

def PcapOp.apply (s : PcapExporter × InMemoryKeyLog) : PcapOp → Option (PcapExporter × InMemoryKeyLog)
  | .log label clientRandom secret => some (s.1, KeyLog.log s.2 label clientRandom secret)
  | .trackTransmit sourceAddr transmit => (s.1.trackTransmit (some s.2) sourceAddr transmit).map fun e => (e, s.2)

/-- The blocks of the capture that is written when the exporter is created with a key log, the operations happen in
order, and the exporter is dropped. -/
def capture (ops : List PcapOp) : Option (List PcapBlock) := do
  let s ← ops.foldlM PcapOp.apply (.new, {})
  let e ← s.1.writeBuffered
  some e.written

end QuicWorkbench
