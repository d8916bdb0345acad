import Mathlib.Logic.Basic

/-!
# Congestion control by ECN only

`Controller` and `ControllerFactory` are the interfaces of `quinn_proto`; the state of a controller, the round-trip
times that it is told, and what it does with its callbacks are up to the implementation. `EcnCc` wraps a controller
and keeps the losses of packets from it, and `EcnCcFactory` wraps a factory.
-/

namespace QuicWorkbench

/-- Controllers with a state of type `C`. Instants are in ns; `RttEstimator` is of `quinn_proto`, too. -/
class Controller (RttEstimator C : Type) where
  onSent (c : C) (now : Nat) (bytes lastPacketNumber : UInt64) : C
  onAck (c : C) (now sent : Nat) (bytes : UInt64) (appLimited : Bool) (rtt : RttEstimator) : C
  onEndAcks (c : C) (now : Nat) (inFlight : UInt64) (appLimited : Bool) (largestPacketNumAcked : Option UInt64) : C
  onCongestionEvent (c : C) (now sent : Nat) (isPersistentCongestion : Bool) (lostBytes : UInt64) : C
  onMtuUpdate (c : C) (newMtu : UInt16) : C
  window (c : C) : UInt64
  cloneBox (c : C) : C
  initialWindow (c : C) : UInt64

/-- `Box<dyn Controller>` -/
structure DynController (RttEstimator : Type) where
  {C : Type}
  [controller : Controller RttEstimator C]
  state : C

class ControllerFactory (RttEstimator F : Type) where
  build (factory : F) (now : Nat) (currentMtu : UInt16) : DynController RttEstimator

/-- A call of one of the methods that change the controller; with `cloneBox`, the calls go on with the clone. -/
inductive Callback (RttEstimator : Type)
  | onSent (now : Nat) (bytes lastPacketNumber : UInt64)
  | onAck (now sent : Nat) (bytes : UInt64) (appLimited : Bool) (rtt : RttEstimator)
  | onEndAcks (now : Nat) (inFlight : UInt64) (appLimited : Bool) (largestPacketNumAcked : Option UInt64)
  | onCongestionEvent (now sent : Nat) (isPersistentCongestion : Bool) (lostBytes : UInt64)
  | onMtuUpdate (newMtu : UInt16)
  | cloneBox

/-- A congestion event triggered by packet loss, not by ECN. -/
def Callback.isLoss {RttEstimator : Type} : Callback RttEstimator → Bool
  | .onCongestionEvent _ _ _ lostBytes => 0 < lostBytes
  | _ => false

namespace Controller
variable {RttEstimator C : Type} [Controller RttEstimator C]

def call (c : C) : Callback RttEstimator → C
  | .onSent now bytes lastPacketNumber => onSent RttEstimator c now bytes lastPacketNumber
  | .onAck now sent bytes appLimited rtt => onAck c now sent bytes appLimited rtt
  | .onEndAcks now inFlight appLimited largestPacketNumAcked =>
    onEndAcks RttEstimator c now inFlight appLimited largestPacketNumAcked
  | .onCongestionEvent now sent isPersistentCongestion lostBytes =>
    onCongestionEvent RttEstimator c now sent isPersistentCongestion lostBytes
  | .onMtuUpdate newMtu => onMtuUpdate RttEstimator c newMtu
  | .cloneBox => cloneBox RttEstimator c

/-- The controller after the calls. -/
def feed (c : C) (calls : List (Callback RttEstimator)) : C := calls.foldl call c

end Controller

/-- The window of the controller after the calls. -/
def DynController.windowAfter {RttEstimator : Type} (c : DynController RttEstimator)
    (calls : List (Callback RttEstimator)) : UInt64 :=
  letI := c.controller
  Controller.window RttEstimator (Controller.feed c.state calls)

/-! ### The extension -/

structure EcnCc (C : Type) where
  inner : C

instance {RttEstimator C : Type} [Controller RttEstimator C] : Controller RttEstimator (EcnCc C) where
  onSent c now bytes lastPacketNumber := ⟨Controller.onSent RttEstimator c.inner now bytes lastPacketNumber⟩
  onAck c now sent bytes appLimited rtt := ⟨Controller.onAck c.inner now sent bytes appLimited rtt⟩
  onEndAcks c now inFlight appLimited largestPacketNumAcked :=
    ⟨Controller.onEndAcks RttEstimator c.inner now inFlight appLimited largestPacketNumAcked⟩
  onCongestionEvent c now sent isPersistentCongestion lostBytes :=
    -- congestion events triggered by packet loss are ignored, those triggered by ECN forwarded
    if lostBytes = 0 then
      ⟨Controller.onCongestionEvent RttEstimator c.inner now sent isPersistentCongestion lostBytes⟩
    else c
  onMtuUpdate c newMtu := ⟨Controller.onMtuUpdate RttEstimator c.inner newMtu⟩
  window c := Controller.window RttEstimator c.inner
  cloneBox c := ⟨Controller.cloneBox RttEstimator c.inner⟩
  initialWindow c := Controller.initialWindow RttEstimator c.inner

structure EcnCcFactory (F : Type) where
  factory : F

instance {RttEstimator F : Type} [ControllerFactory RttEstimator F] :
    ControllerFactory RttEstimator (EcnCcFactory F) where
  build f now currentMtu := ControllerFactory.build f.factory now currentMtu

end QuicWorkbench
