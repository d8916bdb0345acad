import QuicWorkbench.QuinnExtensions.EcnCc

/-!
# Whether losses reach the controller

`EcnCc` does what its name says: it is, after any calls, what the inner controller is after those that are not about
loss. `EcnCcFactory` builds the inner controller without it, so losses do reach the controller.
-/

namespace QuicWorkbench

/-- The controller that the wrapped factory builds has, after the calls, the window that a controller of the inner
factory has after those of them that are not about loss. -/
def IgnoresLoss {RttEstimator F : Type} [ControllerFactory RttEstimator F] (factory : F) (now : Nat) (currentMtu : UInt16)
    (calls : List (Callback RttEstimator)) : Prop :=
  let controller : DynController RttEstimator := ControllerFactory.build (EcnCcFactory.mk factory) now currentMtu
  let inner : DynController RttEstimator := ControllerFactory.build factory now currentMtu
  controller.windowAfter calls = inner.windowAfter (calls.filter fun call => !call.isLoss)

section
variable {RttEstimator C : Type} [Controller RttEstimator C]

theorem EcnCc.call_mk (c : C) (call : Callback RttEstimator) :
    Controller.call (EcnCc.mk c) call = EcnCc.mk (if call.isLoss then c else Controller.call c call) := by
  cases call with
  | onCongestionEvent now sent isPersistentCongestion lostBytes =>
    simp only [Controller.call, Controller.onCongestionEvent, Callback.isLoss, decide_eq_true_eq]
    by_cases hlost : lostBytes = 0
    · simp [hlost]
    · have hpos : 0 < lostBytes := UInt64.pos_iff_ne_zero.2 hlost
      rw [if_neg hlost, if_pos hpos]
  | _ => rfl

/-- The wrapper keeps exactly the losses from the controller. -/
theorem EcnCc.feed_mk (c : C) (calls : List (Callback RttEstimator)) :
    Controller.feed (EcnCc.mk c) calls = EcnCc.mk (Controller.feed c (calls.filter fun call => !call.isLoss)) := by
  induction calls generalizing c with
  | nil => rfl
  | cons call calls ih =>
    have hstep : Controller.feed (EcnCc.mk c) (call :: calls) = Controller.feed (Controller.call (EcnCc.mk c) call) calls := rfl
    rw [hstep, EcnCc.call_mk, ih]
    cases hloss : call.isLoss with
    | true => simp [hloss]
    | false => simp [hloss, Controller.feed]

end

/-! ### A controller that reacts to loss -/

/-- The window is reduced to two packets at the first loss. -/
structure LossReaction where
  currentMtu : UInt16
  window : UInt64
  deriving DecidableEq

namespace LossReaction

instance {RttEstimator : Type} : Controller RttEstimator LossReaction where
  onSent c _ _ _ := c
  onAck c _ _ _ _ _ := c
  onEndAcks c _ _ _ _ := c
  onCongestionEvent c _ _ _ lostBytes := if 0 < lostBytes then { c with window := 2 * c.currentMtu.toUInt64 } else c
  onMtuUpdate c _ := c
  window c := c.window
  cloneBox c := c
  initialWindow c := c.window

structure Config where
  initialWindow : UInt64

instance {RttEstimator : Type} : ControllerFactory RttEstimator Config where
  build config _ currentMtu := ⟨{ currentMtu, window := config.initialWindow : LossReaction }⟩

variable {RttEstimator : Type}

theorem call_eq (c : LossReaction) (call : Callback RttEstimator) :
    Controller.call c call = if call.isLoss then { c with window := 2 * c.currentMtu.toUInt64 } else c := by
  cases call with
  | onCongestionEvent now sent isPersistentCongestion lostBytes =>
    simp only [Controller.call, Controller.onCongestionEvent, Callback.isLoss, decide_eq_true_eq]
  | _ => rfl

theorem feed_eq (c : LossReaction) (calls : List (Callback RttEstimator)) :
    Controller.feed c calls = if calls.any Callback.isLoss then { c with window := 2 * c.currentMtu.toUInt64 } else c := by
  induction calls generalizing c with
  | nil => rfl
  | cons call calls ih =>
    have hstep : Controller.feed c (call :: calls) = Controller.feed (Controller.call c call) calls := rfl
    rw [hstep, call_eq, ih]
    by_cases hloss : call.isLoss
    · simp [hloss]
    · simp [hloss]

end LossReaction

/-- With every inner factory, losses are ignored as long as there are none. -/
theorem ignoresLoss_iff_forall_not_isLoss {RttEstimator : Type} (calls : List (Callback RttEstimator)) :
    (∀ (F : Type) (_ : ControllerFactory RttEstimator F) (factory : F) (now : Nat) (currentMtu : UInt16),
      IgnoresLoss factory now currentMtu calls) ↔ ∀ call ∈ calls, call.isLoss = false := by
  constructor
  · intro h call hcall
    cases hloss : call.isLoss with
    | false => rfl
    | true =>
      have hany : calls.any Callback.isLoss = true := List.any_eq_true.2 ⟨call, hcall, hloss⟩
      have hnone : (calls.filter fun call => !call.isLoss).any Callback.isLoss = false := by simp
      have hwindow : (Controller.feed (LossReaction.mk 1200 12000) calls).window =
          (Controller.feed (LossReaction.mk 1200 12000) (calls.filter fun call => !call.isLoss)).window :=
        h LossReaction.Config inferInstance ⟨12000⟩ 0 1200
      rw [LossReaction.feed_eq, LossReaction.feed_eq, hany, hnone] at hwindow
      revert hwindow
      decide
  · intro h F _ factory now currentMtu
    have hall : (calls.filter fun call => !call.isLoss) = calls :=
      List.filter_eq_self.2 fun call hcall => by simp [h call hcall]
    rw [IgnoresLoss, hall]
    rfl

/-- A controller that is told of a loss although it was built by `EcnCcFactory`. -/
theorem loss_reaches_controller : ∃ calls : List (Callback Unit), calls = [.onCongestionEvent 1 0 false 1200] ∧
    ¬ IgnoresLoss (LossReaction.Config.mk 12000) 0 1200 calls := by
  refine ⟨_, rfl, ?_⟩
  intro h
  have h : (2400 : UInt64) = 12000 := h
  revert h
  decide

end QuicWorkbench
