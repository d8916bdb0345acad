import QuicWorkbench.Network.Link
import QuicWorkbench.Proofs.BandwidthWindow
import Mathlib.Tactic.Ring
import Mathlib.Tactic.NormNum

/-!
# The pacer and the bandwidth check

The pacer sends one packet at a time; the verifier adds up the bits of the packets that were sent in a
sliding window. A window that ends with a send contains that packet whole, although none of it has gone
over the link yet: the check asks for more than the pacer gives. It passes exactly where the link has been
idle long enough, in the gaps between the sends before, for the packet to be sent in that time (`FitsIdle`).
-/

namespace QuicWorkbench

def pacerAfter (bandwidthBps : Nat) (sends : List LinkSend) : PacketPacer :=
  sends.foldl (fun pacer x => pacer.trackSend x.time x.sizeBytes) (.new bandwidthBps)

/-- The pacer can send. -/
def PacedSend (bandwidthBps : Nat) (before : List LinkSend) (x : LinkSend) : Prop :=
  (pacerAfter bandwidthBps before).canSend x.time

/-- The verifier finds the bandwidth respected. -/
def UsageWithin (bandwidthBps : Nat) (before : List LinkSend) (x : LinkSend) : Prop :=
  ∃ usage, observedUsage bandwidthBps before x = some usage ∧ usage ≤ bandwidthBps

/-- What the link could have sent while it was idle in the window before the instant, in bits times the nanoseconds of a
second; the sends come latest first. In the gap between two sends the link is idle when it is done with the bits of the first
one, and it is idle before the first send of the window. -/
def idleCapacity (bandwidthBps : Nat) : Nat → Nat → List LinkSend → Nat
  | window, _, [] => bandwidthBps * window
  | window, now, x :: earlier =>
    let gap := now - x.time
    if window < gap then bandwidthBps * window
    else bandwidthBps * gap - x.bits * 1000000000 + idleCapacity bandwidthBps (window - gap) x.time earlier

/-- The packet could have been sent while the link was idle in the window before it, up to the rounding. -/
def FitsIdle (bandwidthBps : Nat) (before : List LinkSend) (x : LinkSend) : Prop :=
  let window := ReplayedLink.windowSeconds bandwidthBps
  x.bits * 1000000000 <
    idleCapacity bandwidthBps (Duration.fromSecs window) x.time before.reverse + window * 1000000000

/-! ### The pacer -/

section
variable {bandwidthBps : Nat} {sends : List LinkSend} {x : LinkSend}

theorem pacerAfter_snoc : pacerAfter bandwidthBps (sends ++ [x]) =
    (pacerAfter bandwidthBps sends).trackSend x.time x.sizeBytes := by
  simp [pacerAfter]

theorem bandwidthBps_pacerAfter (bandwidthBps : Nat) (sends : List LinkSend) :
    (pacerAfter bandwidthBps sends).bandwidthBps = bandwidthBps := by
  induction sends using List.reverseRecOn with
  | nil => rfl
  | append_singleton sends x ih =>
    rw [pacerAfter_snoc]
    exact ih

/-- A packet takes as long as the bandwidth needs for its bits, or longer. -/
theorem bits_le_sendDurationMs (hB : 0 < bandwidthBps) (bits : Nat) :
    bits * 1000 ≤ bandwidthBps * PacketPacer.sendDurationMs bits bandwidthBps := by
  rw [PacketPacer.sendDurationMs, if_neg (by omega)]
  have hdiv := Nat.div_add_mod (bits * 1000 + (bandwidthBps - 1)) bandwidthBps
  have hmod := Nat.mod_lt (bits * 1000 + (bandwidthBps - 1)) hB
  omega

/-- The pacer can send when the bits of the last packet have been sent. -/
theorem canSend_snoc_iff {instant : Nat} : (pacerAfter bandwidthBps (sends ++ [x])).canSend instant ↔
    x.time + Duration.fromMillis (PacketPacer.sendDurationMs x.bits bandwidthBps) ≤ instant := by
  rw [pacerAfter_snoc]
  have hB := bandwidthBps_pacerAfter bandwidthBps sends
  simp [PacketPacer.trackSend, PacketPacer.canSend, hB, LinkSend.bits]

theorem time_le_of_canSend (hpaced : Along (PacedSend bandwidthBps) sends) {instant : Nat}
    (hcan : (pacerAfter bandwidthBps sends).canSend instant) : ∀ x ∈ sends, x.time ≤ instant := by
  induction sends using List.reverseRecOn generalizing instant with
  | nil => simp
  | append_singleton sends y ih =>
    obtain ⟨hpaced, hy⟩ := along_snoc.1 hpaced
    have hle := canSend_snoc_iff.1 hcan
    intro x hx
    rcases List.mem_append.1 hx with hx | hx
    · have := ih hpaced hy x hx
      omega
    · obtain rfl := List.mem_singleton.1 hx
      omega

theorem sorted_of_paced (hpaced : Along (PacedSend bandwidthBps) sends) : sends.Pairwise fun x y => x.time ≤ y.time := by
  induction sends using List.reverseRecOn with
  | nil => exact .nil
  | append_singleton sends y ih =>
    obtain ⟨hpaced, hy⟩ := along_snoc.1 hpaced
    rw [List.pairwise_append]
    refine ⟨ih hpaced, List.pairwise_singleton .., fun x hx y' hy' => ?_⟩
    rw [List.mem_singleton.1 hy']
    exact time_le_of_canSend hpaced hy x hx

/-- The pacer never lets more bits through than the bandwidth allows for the time. -/
theorem bitsSince_le_of_canSend (hB : 0 < bandwidthBps) (hpaced : Along (PacedSend bandwidthBps) sends) {instant : Nat}
    (hcan : (pacerAfter bandwidthBps sends).canSend instant) (since : Nat) :
    bitsSince since sends * 1000000000 ≤ bandwidthBps * (instant - since) := by
  induction sends using List.reverseRecOn generalizing instant with
  | nil => simp [bitsSince_nil]
  | append_singleton sends x ih =>
    obtain ⟨hpaced, hx⟩ := along_snoc.1 hpaced
    have hbefore := ih hpaced hx
    have hle := canSend_snoc_iff.1 hcan
    have hbits := bits_le_sendDurationMs hB x.bits
    rw [bitsSince_snoc]
    generalize PacketPacer.sendDurationMs x.bits bandwidthBps = ms at hle hbits
    rw [Duration.fromMillis] at hle
    split_ifs with hsince
    · have hspan : x.time - since + ms * 1000000 ≤ instant - since := by omega
      calc (bitsSince since sends + x.bits) * 1000000000
          = bitsSince since sends * 1000000000 + x.bits * 1000 * 1000000 := by ring
        _ ≤ bandwidthBps * (x.time - since) + bandwidthBps * ms * 1000000 :=
          Nat.add_le_add hbefore (Nat.mul_le_mul_right _ hbits)
        _ = bandwidthBps * (x.time - since + ms * 1000000) := by ring
        _ ≤ bandwidthBps * (instant - since) := Nat.mul_le_mul_left _ hspan
    · rw [Nat.add_zero]
      exact hbefore.trans (Nat.mul_le_mul_left _ (by omega))

theorem bitsSince_eq_zero {since : Nat} (h : ∀ x ∈ sends, x.time < since) : bitsSince since sends = 0 := by
  have hnone : sends.filter (fun x => since ≤ x.time) = [] :=
    List.filter_eq_nil_iff.2 fun x hx => by simpa using h x hx
  simp [bitsSince, hnone]

/-- A window is made up of what was sent in it and of what could have been sent while the link was idle. -/
theorem idleCapacity_add_bitsSince (hB : 0 < bandwidthBps) (hpaced : Along (PacedSend bandwidthBps) sends) {now : Nat}
    (hcan : (pacerAfter bandwidthBps sends).canSend now) (window : Nat) :
    idleCapacity bandwidthBps window now sends.reverse + bitsSince (now - window) sends * 1000000000 =
      bandwidthBps * window := by
  induction sends using List.reverseRecOn generalizing now window with
  | nil => simp [idleCapacity, bitsSince_nil]
  | append_singleton sends x ih =>
    obtain ⟨hpaced, hx⟩ := along_snoc.1 hpaced
    have hle := canSend_snoc_iff.1 hcan
    have hbits := bits_le_sendDurationMs hB x.bits
    generalize PacketPacer.sendDurationMs x.bits bandwidthBps = ms at hle hbits
    rw [Duration.fromMillis] at hle
    rw [List.reverse_append, List.reverse_singleton, List.singleton_append, idleCapacity]
    split_ifs with hout
    · -- no packet was sent in the window
      have hbefore : ∀ y ∈ sends ++ [x], y.time < now - window := by
        intro y hy
        rcases List.mem_append.1 hy with hy | hy
        · have := time_le_of_canSend hpaced hx y hy
          omega
        · obtain rfl := List.mem_singleton.1 hy
          omega
      rw [bitsSince_eq_zero hbefore, Nat.zero_mul, Nat.add_zero]
    · have hih := ih hpaced hx (window - (now - x.time))
      have hsince : x.time - (window - (now - x.time)) = now - window := by omega
      have hspan : ms * 1000000 ≤ now - x.time := Nat.le_sub_of_add_le' hle
      have hgap : x.bits * 1000000000 ≤ bandwidthBps * (now - x.time) :=
        calc x.bits * 1000000000 = x.bits * 1000 * 1000000 := by ring
          _ ≤ bandwidthBps * ms * 1000000 := Nat.mul_le_mul_right _ hbits
          _ = bandwidthBps * (ms * 1000000) := by ring
          _ ≤ bandwidthBps * (now - x.time) := Nat.mul_le_mul_left _ hspan
      have hwindow : bandwidthBps * window = bandwidthBps * (now - x.time) + bandwidthBps * (window - (now - x.time)) := by
        rw [← Nat.mul_add, Nat.add_sub_cancel' (Nat.not_lt.1 hout)]
      have hrecent : now - window ≤ x.time := by omega
      rw [hsince] at hih
      rw [bitsSince_snoc, if_pos hrecent, hwindow, ← hih]
      omega

end

/-! ### The check -/

section
variable {bandwidthBps : Nat} {sends : List LinkSend} {x : LinkSend}

/-- What `packet_sent` returns: the bits in the window before the send, and the packet's own. -/
theorem observedUsage_eq (hsorted : (sends ++ [x]).Pairwise fun x y => x.time ≤ y.time) :
    observedUsage bandwidthBps sends x =
      some ((bitsSince (x.time - Duration.fromSecs (ReplayedLink.windowSeconds bandwidthBps)) sends + x.bits) /
        ReplayedLink.windowSeconds bandwidthBps) := by
  rw [observedUsage_eq_windowUsage hsorted, windowUsage, bitsSince_snoc, if_pos (Nat.sub_le ..)]

/-- The check of one send passes exactly where the packet could have been sent while the link was idle. -/
theorem usageWithin_iff (hB : 0 < bandwidthBps) (hpaced : Along (PacedSend bandwidthBps) (sends ++ [x])) :
    UsageWithin bandwidthBps sends x ↔ FitsIdle bandwidthBps sends x := by
  have hsorted := sorted_of_paced hpaced
  obtain ⟨hbefore, hx⟩ := along_snoc.1 hpaced
  have hsum := idleCapacity_add_bitsSince hB hbefore hx (Duration.fromSecs (ReplayedLink.windowSeconds bandwidthBps))
  have hpos := windowSeconds_pos bandwidthBps
  rw [UsageWithin, observedUsage_eq hsorted, FitsIdle]
  generalize ReplayedLink.windowSeconds bandwidthBps = window at hsum hpos
  generalize bitsSince (x.time - Duration.fromSecs window) sends = bits at hsum
  have hiff : (bits + x.bits) / window ≤ bandwidthBps ↔ bits + x.bits < bandwidthBps * window + window := by
    rw [← Nat.lt_succ_iff, Nat.div_lt_iff_lt_mul hpos, Nat.succ_mul]
  have hcapacity : bandwidthBps * Duration.fromSecs window = bandwidthBps * window * 1000000000 := by
    rw [Duration.fromSecs, Nat.mul_assoc]
  rw [hcapacity] at hsum
  simp only [Option.some.injEq, exists_eq_left', hiff]
  omega

/-- For every link with bandwidth and all sends that the pacer allows, the verifier never finds the bandwidth
exceeded exactly if every packet could have been sent while the link was idle. -/
theorem along_usageWithin_iff (hB : 0 < bandwidthBps) (hpaced : Along (PacedSend bandwidthBps) sends) :
    Along (UsageWithin bandwidthBps) sends ↔ Along (FitsIdle bandwidthBps) sends := by
  induction sends using List.reverseRecOn with
  | nil => exact ⟨fun _ => along_nil, fun _ => along_nil⟩
  | append_singleton sends x ih =>
    rw [along_snoc, along_snoc, ih (along_snoc.1 hpaced).1, usageWithin_iff hB hpaced]

end

end QuicWorkbench
