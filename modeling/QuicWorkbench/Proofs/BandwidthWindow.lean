import QuicWorkbench.Lib.Lockstep
import QuicWorkbench.Lib.SlidingWindow
import QuicWorkbench.Tracing.Verifier

/-!
# The window of a replayed link

The verifier keeps the packets that were sent on a link in the last seconds, with the sum of their bits. This is a sliding
window, so that the usage that `packet_sent` returns is the one of a recomputation over all sends (`packetSent_recomputes`).
-/

namespace QuicWorkbench

/-- A packet is sent on the link. -/
structure LinkSend where
  time : Nat
  sizeBytes : Nat
  deriving DecidableEq

def LinkSend.bits (x : LinkSend) : Nat := x.sizeBytes * 8

/-- The replayed link after the sends; `none` is a panic. -/
def replayedAfter (bandwidthBps : Nat) (sends : List LinkSend) : Option ReplayedLink :=
  sends.foldlM (fun link x => (link.packetSent x.time x.sizeBytes bandwidthBps).map Prod.fst) {}

/-- The usage that `packet_sent` returns for the send, `none` being a panic. -/
def observedUsage (bandwidthBps : Nat) (before : List LinkSend) (x : LinkSend) : Option Nat :=
  (replayedAfter bandwidthBps before).bind fun link =>
    (link.packetSent x.time x.sizeBytes bandwidthBps).map Prod.snd

/-- The bits of the packets sent at the instant or later. -/
def bitsSince (instant : Nat) (sends : List LinkSend) : Nat :=
  ((sends.filter fun x => instant ≤ x.time).map LinkSend.bits).sum

/-- The usage with the send, recomputed over all sends so far. -/
def windowUsage (bandwidthBps : Nat) (before : List LinkSend) (x : LinkSend) : Nat :=
  let window := ReplayedLink.windowSeconds bandwidthBps
  bitsSince (x.time - Duration.fromSecs window) (before ++ [x]) / window

theorem bitsSince_nil (instant : Nat) : bitsSince instant [] = 0 := rfl

theorem bitsSince_snoc (instant : Nat) (sends : List LinkSend) (x : LinkSend) :
    bitsSince instant (sends ++ [x]) = bitsSince instant sends + if instant ≤ x.time then x.bits else 0 := by
  by_cases h : instant ≤ x.time <;> simp [bitsSince, h]

theorem windowSeconds_pos (bandwidthBps : Nat) : 0 < ReplayedLink.windowSeconds bandwidthBps := by
  unfold ReplayedLink.windowSeconds
  split_ifs <;> omega

/-! ### The replayed link as a sliding window -/

/-- The entry of the deque. -/
def LinkSend.entry (x : LinkSend) : Nat × Nat := (x.time, x.bits)

namespace ReplayedLink

def window (l : ReplayedLink) : SlidingWindow.Window (Nat × Nat) :=
  { elements := l.packetsInBandwidthWindow
    total := l.bandwidthUsageBps
    peak := l.maxBandwidthUsageBps }

def withWindow (l : ReplayedLink) (w : SlidingWindow.Window (Nat × Nat)) : ReplayedLink :=
  { l with packetsInBandwidthWindow := w.elements, bandwidthUsageBps := w.total, maxBandwidthUsageBps := w.peak }

@[simp] theorem window_withWindow (l : ReplayedLink) (w : SlidingWindow.Window (Nat × Nat)) : (l.withWindow w).window = w := rfl

/-- The entry `p` has fallen out of the window when `q` is sent. -/
def FallenOut (bandwidthBps : Nat) (p q : Nat × Nat) : Prop := p.1 + Duration.fromSecs (windowSeconds bandwidthBps) < q.1

instance (bandwidthBps : Nat) : DecidableRel (FallenOut bandwidthBps) := fun p q =>
  inferInstanceAs (Decidable (p.1 + Duration.fromSecs (windowSeconds bandwidthBps) < q.1))

theorem fallenOut_entry {bandwidthBps : Nat} {x y : LinkSend} : FallenOut bandwidthBps x.entry y.entry ↔
    x.time + Duration.fromSecs (windowSeconds bandwidthBps) < y.time := Iff.rfl

theorem ages_fallenOut (bandwidthBps : Nat) : SlidingWindow.Ages (fun p q : Nat × Nat => p.1 ≤ q.1) (FallenOut bandwidthBps) :=
  SlidingWindow.ages_of_time Prod.fst _

theorem evict_eq_evict (window now : Nat) (packets : List (Nat × Nat)) (usage : Nat) :
    evict window now packets usage = SlidingWindow.evict Prod.snd (fun p => p.1 + window < now) packets usage := by
  induction packets generalizing usage with
  | nil => rfl
  | cons p packets ih =>
    obtain ⟨time, bits⟩ := p
    rw [evict, SlidingWindow.evict]
    by_cases hout : time + window < now
    · rw [if_pos hout, if_pos (by simpa using hout), checkedSub]
      by_cases hle : bits ≤ usage
      · rw [if_pos hle, if_pos hle, Option.bind_some, ih]
      · rw [if_neg hle, if_neg hle, Option.bind_none]
    · rw [if_neg hout, if_neg (by simpa using hout)]

variable {bandwidthBps : Nat} {l : ReplayedLink}

theorem packetSent_eq_push (x : LinkSend) : l.packetSent x.time x.sizeBytes bandwidthBps =
    (SlidingWindow.push (FallenOut bandwidthBps) Prod.snd (· / windowSeconds bandwidthBps) l.window x.entry).map fun w =>
      (l.withWindow w, w.total / windowSeconds bandwidthBps) := by
  have hevict := evict_eq_evict (Duration.fromSecs (windowSeconds bandwidthBps)) x.time l.packetsInBandwidthWindow
    l.bandwidthUsageBps
  show (evict _ x.time l.packetsInBandwidthWindow l.bandwidthUsageBps).bind _ = _
  rw [hevict, SlidingWindow.push, Option.map_map, Option.map_eq_bind]
  rfl

end ReplayedLink

/-! ### Runs -/

section
variable {bandwidthBps : Nat} {sends : List LinkSend} {x : LinkSend}

theorem replayedAfter_eq_foldlM (bandwidthBps : Nat) (sends : List LinkSend) : replayedAfter bandwidthBps sends =
    ((sends.map LinkSend.entry).foldlM (SlidingWindow.push (ReplayedLink.FallenOut bandwidthBps) Prod.snd
      (· / ReplayedLink.windowSeconds bandwidthBps)) {}).map (ReplayedLink.withWindow {}) := by
  refine Lockstep.foldlM_map (ψ := ReplayedLink.withWindow {}) (fun w x => ?_) sends {}
  rw [ReplayedLink.packetSent_eq_push, ReplayedLink.window_withWindow, Option.map_map]
  rfl

theorem sum_held (bandwidthBps : Nat) (before : List LinkSend) (x : LinkSend) :
    ((SlidingWindow.held (ReplayedLink.FallenOut bandwidthBps) (before.map LinkSend.entry) x.entry).map Prod.snd).sum =
      bitsSince (x.time - Duration.fromSecs (ReplayedLink.windowSeconds bandwidthBps)) (before ++ [x]) := by
  have hentry : before.map LinkSend.entry ++ [x.entry] = (before ++ [x]).map LinkSend.entry := by simp
  rw [SlidingWindow.held, hentry, List.filter_map, List.map_map, bitsSince]
  refine congrArg List.sum (congrArg (List.map LinkSend.bits) (List.filter_congr fun y _ => ?_))
  rw [Function.comp_apply, decide_eq_decide, ReplayedLink.fallenOut_entry]
  omega

theorem rateAt_entry (bandwidthBps : Nat) (before : List LinkSend) (x : LinkSend) :
    SlidingWindow.rateAt (ReplayedLink.FallenOut bandwidthBps) Prod.snd (· / ReplayedLink.windowSeconds bandwidthBps)
      (before.map LinkSend.entry) x.entry = windowUsage bandwidthBps before x :=
  congrArg (· / ReplayedLink.windowSeconds bandwidthBps) (sum_held bandwidthBps before x)

theorem mapAlong_rateAt_entry (bandwidthBps : Nat) (sends : List LinkSend) :
    mapAlong (SlidingWindow.rateAt (ReplayedLink.FallenOut bandwidthBps) Prod.snd (· / ReplayedLink.windowSeconds bandwidthBps))
      (sends.map LinkSend.entry) = mapAlong (windowUsage bandwidthBps) sends := by
  induction sends using List.reverseRecOn with
  | nil => rfl
  | append_singleton sends x ih =>
    rw [List.map_append, List.map_cons, List.map_nil, mapAlong_snoc, mapAlong_snoc, ih, rateAt_entry]

theorem pairwise_entry (hsorted : sends.Pairwise fun x y => x.time ≤ y.time) :
    (sends.map LinkSend.entry).Pairwise fun p q => p.1 ≤ q.1 :=
  List.pairwise_map.2 hsorted

/-- The replay of sorted sends never panics, and the usage and its peak are those of a recomputation. -/
theorem replayedAfter_eq (bandwidthBps : Nat) (hsorted : sends.Pairwise fun x y => x.time ≤ y.time) :
    ∃ packets, replayedAfter bandwidthBps sends = some
      { packetsInBandwidthWindow := packets
        bandwidthUsageBps := (packets.map Prod.snd).sum
        maxBandwidthUsageBps := (mapAlong (windowUsage bandwidthBps) sends).foldl max 0 } := by
  have hrun := SlidingWindow.foldlM_push Prod.snd (· / ReplayedLink.windowSeconds bandwidthBps)
    (ReplayedLink.ages_fallenOut bandwidthBps) (pairwise_entry hsorted)
  rw [mapAlong_rateAt_entry] at hrun
  refine ⟨SlidingWindow.current (ReplayedLink.FallenOut bandwidthBps) (sends.map LinkSend.entry), ?_⟩
  rw [replayedAfter_eq_foldlM, hrun]
  rfl

/-- What `packet_sent` returns is what a recomputation gives. -/
theorem observedUsage_eq_windowUsage (hsorted : (sends ++ [x]).Pairwise fun x y => x.time ≤ y.time) :
    observedUsage bandwidthBps sends x = some (windowUsage bandwidthBps sends x) := by
  have hages := ReplayedLink.ages_fallenOut bandwidthBps
  have hentries : (sends.map LinkSend.entry ++ [x.entry]).Pairwise fun p q => p.1 ≤ q.1 := by
    have h := pairwise_entry hsorted
    rwa [List.map_append] at h
  have hrun := SlidingWindow.foldlM_push Prod.snd (· / ReplayedLink.windowSeconds bandwidthBps)
    hages (List.pairwise_append.1 hentries).1
  rw [observedUsage, replayedAfter_eq_foldlM, hrun, Option.map_some, Option.bind_some, ReplayedLink.packetSent_eq_push,
    ReplayedLink.window_withWindow, SlidingWindow.push_eq hages hentries rfl rfl, Option.map_some, Option.map_some, sum_held]
  rfl

end

/-- For every bandwidth and all sends in the order of time: every call returns the usage of a recomputation, the usage that is
kept is the sum of the bits in the deque, without an underflow, and its peak is the maximum of what was returned. -/
theorem packetSent_recomputes (bandwidthBps : Nat) (sends : List LinkSend)
    (hsorted : sends.Pairwise fun x y => x.time ≤ y.time) :
    Along (fun before x => observedUsage bandwidthBps before x = some (windowUsage bandwidthBps before x)) sends ∧
      ∃ link, replayedAfter bandwidthBps sends = some link ∧
        link.bandwidthUsageBps = (link.packetsInBandwidthWindow.map Prod.snd).sum ∧
        link.maxBandwidthUsageBps = (mapAlong (windowUsage bandwidthBps) sends).foldl max 0 := by
  refine ⟨along_iff_forall_split.2 fun before x hsplit => ?_, ?_⟩
  · exact observedUsage_eq_windowUsage (hsorted.sublist hsplit.sublist)
  · obtain ⟨packets, hreplayed⟩ := replayedAfter_eq bandwidthBps hsorted
    exact ⟨_, hreplayed, rfl, rfl⟩

/-- Two packets at one instant, and one after both have fallen out. -/
theorem packetSent_recomputes_threeSends :
    Along (fun before x => observedUsage 9984 before x = some (windowUsage 9984 before x))
        [⟨0, 100⟩, ⟨0, 200⟩, ⟨1000000001, 300⟩] ∧
      ∃ link, replayedAfter 9984 [⟨0, 100⟩, ⟨0, 200⟩, ⟨1000000001, 300⟩] = some link ∧
        link.bandwidthUsageBps = (link.packetsInBandwidthWindow.map Prod.snd).sum ∧
        link.maxBandwidthUsageBps = (mapAlong (windowUsage 9984) [⟨0, 100⟩, ⟨0, 200⟩, ⟨1000000001, 300⟩]).foldl max 0 :=
  packetSent_recomputes 9984 _ (by decide)

end QuicWorkbench
