import QuicWorkbench.Config.Quinn
import QuicWorkbench.QuinnExtensions.EcnCc

/-!
# No congestion control

`NoCC` has a window that it never changes. `CcFactory.build` is the controller that a connection gets; the factories of cubic
and NewReno are of `quinn_proto`, and given an initial window or left with the default one.
-/

namespace QuicWorkbench

/-- By default the window is almost infinite. -/
structure NoCCConfig where
  initialWindow : UInt64 := .ofNat u64Max

structure NoCC where
  config : NoCCConfig
  /-- Maximum number of bytes in flight that may be sent. -/
  window : UInt64

def NoCC.new (config : NoCCConfig) (_now : Nat) (_currentMtu : UInt16) : NoCC :=
  { window := config.initialWindow
    config }

/-- Of `on_sent` and `on_end_acks` there is what the interface provides, which does nothing. -/
instance {RttEstimator : Type} : Controller RttEstimator NoCC where
  onSent c _ _ _ := c
  onAck c _ _ _ _ _ := c
  onEndAcks c _ _ _ _ := c
  onCongestionEvent c _ _ _ _ := c
  onMtuUpdate c _ := c
  window c := c.window
  cloneBox c := c
  initialWindow c := c.config.initialWindow

instance {RttEstimator : Type} : ControllerFactory RttEstimator NoCCConfig where
  build config now currentMtu := ⟨NoCC.new config now currentMtu⟩

section
variable {RttEstimator Cubic NewReno : Type} [ControllerFactory RttEstimator Cubic] [ControllerFactory RttEstimator NewReno]

def CcFactory.build (cubicConfig : Option UInt64 → Cubic) (newRenoConfig : Option UInt64 → NewReno) (now : Nat)
    (currentMtu : UInt16) : CcFactory → DynController RttEstimator
  | .cubic window => ControllerFactory.build (cubicConfig window) now currentMtu
  | .newReno window => ControllerFactory.build (newRenoConfig window) now currentMtu
  | .noCc window => ControllerFactory.build (NoCCConfig.mk window) now currentMtu
  | .ecnReno window => ControllerFactory.build (EcnCcFactory.mk (newRenoConfig window)) now currentMtu

end

end QuicWorkbench
