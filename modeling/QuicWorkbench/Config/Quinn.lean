import QuicWorkbench.Transmit

/-!
# The QUIC configuration of a node

`QuinnJsonConfig` is what the JSON of a node can say about QUIC, and `transportConfig` turns it into a configuration of
`quinn_proto`. Of that configuration the model has what is set; what is `none` has the library's default. The qlog stream is
left out: it is assumed to open.
-/

namespace QuicWorkbench

/-- An integer below 2^62. -/
abbrev VarInt := { n : Nat // n < 2 ^ 62 }

namespace VarInt

def max : VarInt := ⟨2 ^ 62 - 1, by decide⟩

def fromU32 (n : UInt32) : VarInt := ⟨n.toNat, by have h := n.toNat_lt; omega⟩

end VarInt

/-- Why the configuration is not built. The overflows are those of a debug build; a release build, which the readme runs, wraps
around and goes on. -/
inductive ConfigPanic
  | multiplyWithOverflow
  | subtractWithOverflow
  | varIntBoundsExceeded
  deriving DecidableEq

/-- `*` in a debug build -/
def mulU64 (a b : UInt64) : Except ConfigPanic UInt64 :=
  if a.toNat * b.toNat < 2 ^ 64 then .ok (a * b) else .error .multiplyWithOverflow

/-- `-` in a debug build -/
def subU32 (a b : UInt32) : Except ConfigPanic UInt32 :=
  if b ≤ a then .ok (a - b) else .error .subtractWithOverflow

def VarInt.tryFrom (n : Nat) : Except ConfigPanic VarInt :=
  if h : n < 2 ^ 62 then .ok ⟨n, h⟩ else .error .varIntBoundsExceeded

def Duration.asMillis (d : Nat) : Nat := d / 1000000

/-! ### The JSON -/

inductive CongestionControlAlgorithm
  | cubic
  | newReno
  | noCc
  | ecnReno
  deriving DecidableEq

structure AckFrequencyJsonConfig where
  ackElicitingThreshold : Option UInt32 := none
  maxAckDelayMs : Option UInt64 := none
  deriving DecidableEq

structure QuinnJsonConfig where
  initialRttMs : Option UInt64 := none
  maximumIdleTimeoutMs : Option UInt64 := none
  packetThreshold : Option UInt32 := none
  mtuDiscovery : Option Bool := none
  maximizeSendAndReceiveWindows : Option Bool := none
  ackFrequencyConfig : Option AckFrequencyJsonConfig := none
  congestionController : Option CongestionControlAlgorithm := none
  initialCongestionWindowPackets : Option UInt64 := none
  deriving DecidableEq

/-! ### The configuration of the library -/

/-- The congestion controllers, with the initial window. -/
inductive CcFactory
  | cubic (initialWindow : Option UInt64)
  | newReno (initialWindow : Option UInt64)
  | noCc (initialWindow : UInt64)
  | ecnReno (initialWindow : Option UInt64)
  deriving DecidableEq

structure AckFrequencyConfig where
  ackElicitingThreshold : Option VarInt := none
  maxAckDelay : Option Nat := none
  reorderingThreshold : VarInt
  deriving DecidableEq

structure TransportConfig where
  mtuDiscoveryDisabled : Bool := false
  maxIdleTimeout : Option VarInt := none
  receiveWindow : Option VarInt := none
  streamReceiveWindow : Option VarInt := none
  sendWindow : Option UInt64 := none
  packetThreshold : Option UInt32 := none
  congestionControllerFactory : CcFactory
  ackFrequencyConfig : Option AckFrequencyConfig := none
  initialRtt : Option Nat := none
  deriving DecidableEq

def baseDatagramSize : UInt64 := 1200

def getCongestionWindowBytes (packets : UInt64) : Except ConfigPanic UInt64 := mulU64 packets baseDatagramSize

namespace QuinnJsonConfig

/-- The idle timeout that is set, if any. -/
def maxIdleTimeout (quinnConfig : QuinnJsonConfig) : Except ConfigPanic (Option VarInt) :=
  quinnConfig.maximumIdleTimeoutMs.mapM fun timeout => VarInt.tryFrom (Duration.asMillis (Duration.fromMillis timeout.toNat))

/-- The initial window that is set, if any: the same for all controllers. -/
def initialWindow (quinnConfig : QuinnJsonConfig) : Except ConfigPanic (Option UInt64) :=
  quinnConfig.initialCongestionWindowPackets.mapM getCongestionWindowBytes

def ccFactory (quinnConfig : QuinnJsonConfig) : Except ConfigPanic CcFactory :=
  match quinnConfig.congestionController.getD .cubic with
  | .cubic => do
    let window ← quinnConfig.initialWindow
    pure (.cubic window)
  | .newReno => do
    let window ← quinnConfig.initialWindow
    pure (.newReno window)
  | .noCc => do
    let window ← quinnConfig.initialWindow
    pure (.noCc (window.getD (.ofNat u64Max)))
  | .ecnReno => do
    let window ← quinnConfig.initialWindow
    pure (.ecnReno window)

/-- The configuration of the extension, if it is enabled. The recommended reordering threshold is the packet threshold less
one. -/
def ackFrequency (quinnConfig : QuinnJsonConfig) : Except ConfigPanic (Option AckFrequencyConfig) :=
  quinnConfig.ackFrequencyConfig.mapM fun ackFrequency => do
    let reorderingThreshold ← subU32 (quinnConfig.packetThreshold.getD 3) 1
    pure
      { ackElicitingThreshold := ackFrequency.ackElicitingThreshold.map VarInt.fromU32
        maxAckDelay := ackFrequency.maxAckDelayMs.map fun delay => Duration.fromMillis delay.toNat
        reorderingThreshold := .fromU32 reorderingThreshold }

end QuinnJsonConfig

def transportConfig (quinnConfig : QuinnJsonConfig) : Except ConfigPanic TransportConfig := do
  let mtuEnabled := quinnConfig.mtuDiscovery.getD true
  let maxIdleTimeout ← quinnConfig.maxIdleTimeout
  let maximize := quinnConfig.maximizeSendAndReceiveWindows.getD false
  let ccFactory ← quinnConfig.ccFactory
  let ackFrequencyConfig ← quinnConfig.ackFrequency
  pure
    { mtuDiscoveryDisabled := !mtuEnabled
      maxIdleTimeout
      receiveWindow := if maximize then some .max else none
      streamReceiveWindow := if maximize then some .max else none
      sendWindow := if maximize then some (.ofNat u64Max) else none
      packetThreshold := quinnConfig.packetThreshold
      congestionControllerFactory := ccFactory
      ackFrequencyConfig
      initialRtt := quinnConfig.initialRttMs.map fun initialRtt => Duration.fromMillis initialRtt.toNat }

end QuicWorkbench
