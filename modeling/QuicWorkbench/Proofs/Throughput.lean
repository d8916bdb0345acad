import QuicWorkbench.Proofs.BandwidthWindow
import QuicWorkbench.Udp.Throughput

/-!
# The smoothed throughput

The window of the throughput test is a sliding window, too: its maximum is the one of a recomputation for every packet
(`maxSmoothedThroughputBps_eq`).
-/

namespace QuicWorkbench
namespace Throughput

/-- The throughput when the packet arrives, recomputed over all packets so far. -/
def throughputAt (before : List (Nat × Nat)) (packet : Nat × Nat) : Nat :=
  80 * (((before ++ [packet]).filter fun p => packet.1 - windowDuration ≤ p.1).map Prod.snd).sum

/-- The packet `p` is no longer in the window when `q` arrives. -/
def Gone (p q : Nat × Nat) : Prop := p.1 + windowDuration < q.1

instance : DecidableRel Gone := fun p q => inferInstanceAs (Decidable (p.1 + windowDuration < q.1))

theorem ages_gone : SlidingWindow.Ages (fun p q : Nat × Nat => p.1 ≤ q.1) Gone := SlidingWindow.ages_of_time Prod.fst _

/-- Eight bits, and ten windows a second. -/
def rate (bytes : Nat) : Nat := bytes * 8 * 10

namespace Smoothing

/-- The variables for a window. -/
def ofWindow (w : SlidingWindow.Window (Nat × Nat)) : Smoothing := ⟨w.elements, w.total, w.peak⟩

theorem add_ofWindow (w : SlidingWindow.Window (Nat × Nat)) (packet : Nat × Nat) :
    (ofWindow w).add packet.1 packet.2 = (SlidingWindow.push Gone Prod.snd rate w packet).map ofWindow := by
  have hevict := ReplayedLink.evict_eq_evict windowDuration packet.1 w.elements w.total
  show (ReplayedLink.evict windowDuration packet.1 w.elements w.total).bind _ = _
  rw [hevict, SlidingWindow.push, Option.map_map, Option.map_eq_bind]
  rfl

theorem foldlM_add_ofWindow (packets : List (Nat × Nat)) (w : SlidingWindow.Window (Nat × Nat)) :
    packets.foldlM (fun (s : Smoothing) packet => s.add packet.1 packet.2) (ofWindow w) =
      (packets.foldlM (SlidingWindow.push Gone Prod.snd rate) w).map ofWindow := by
  have h := Lockstep.foldlM_map (f := fun (s : Smoothing) packet => s.add packet.1 packet.2) (φ := id) (ψ := ofWindow)
    add_ofWindow packets w
  rwa [List.map_id] at h

end Smoothing

theorem rateAt_eq (before : List (Nat × Nat)) (packet : Nat × Nat) :
    SlidingWindow.rateAt Gone Prod.snd rate before packet = throughputAt before packet := by
  have hheld : SlidingWindow.held Gone before packet =
      (before ++ [packet]).filter fun p => packet.1 - windowDuration ≤ p.1 := by
    refine List.filter_congr fun p _ => ?_
    rw [decide_eq_decide, Gone]
    omega
  rw [SlidingWindow.rateAt, hheld, throughputAt, rate]
  omega

/-- For all packets in the order of their arrival: the loop does not underflow, and the maximum is the one over the packets of
the throughput of the window that ends with the packet. -/
theorem maxSmoothedThroughputBps_eq (packets : List (Nat × Nat)) (hsorted : packets.Pairwise fun p q => p.1 ≤ q.1) :
    maxSmoothedThroughputBps packets = some ((mapAlong throughputAt packets).foldl max 0) := by
  have hrun := SlidingWindow.foldlM_push Prod.snd rate ages_gone hsorted
  have hrate : SlidingWindow.rateAt Gone Prod.snd rate = throughputAt := funext₂ rateAt_eq
  rw [hrate] at hrun
  have hfold := Smoothing.foldlM_add_ofWindow packets {}
  rw [hrun] at hfold
  exact congrArg (Option.map Smoothing.maxSmoothedThroughputBps) hfold

/-- Two packets at one instant, and one after both have left the window. -/
theorem maxSmoothedThroughputBps_threePackets : maxSmoothedThroughputBps [(0, 100), (0, 200), (100000001, 50)] =
    some ((mapAlong throughputAt [(0, 100), (0, 200), (100000001, 50)]).foldl max 0) :=
  maxSmoothedThroughputBps_eq _ (by decide)

end Throughput
end QuicWorkbench
