import QuicWorkbench.Lib.Sums
import QuicWorkbench.Proofs.BandwidthWindow
import QuicWorkbench.Proofs.OnePlace

/-!
# Replays that do not stop

A handler panics where a subtraction underflows or a table lacks a node. Neither happens in a sound replayed
state: the buffer usage of every node is the size of its packets, the bandwidth usage of every link is that of
the packets in its window, and every node has its metadata.
-/

namespace QuicWorkbench

/-- The size of the packets in the buffer. -/
def bufferedBytes (packets : HashMap Uuid ReplayedPacket) : Nat := (packets.entries.map fun e => e.2.sizeBytes).sum

section
variable {packets : HashMap Uuid ReplayedPacket} {id : Uuid} {p : ReplayedPacket}

theorem bufferedBytes_insert (h : packets.lookup id = none) :
    bufferedBytes (packets.insert id p) = bufferedBytes packets + p.sizeBytes :=
  AList.sumOf_insert_of_none (f := ReplayedPacket.sizeBytes) p h

theorem bufferedBytes_erase (h : packets.lookup id = some p) :
    bufferedBytes (packets.erase id) + p.sizeBytes = bufferedBytes packets :=
  AList.sumOf_erase (f := ReplayedPacket.sizeBytes) h

end

def ReplayedNode.Sound (n : ReplayedNode) : Prop := n.bufferUsage = bufferedBytes n.packets

def ReplayedLink.Sound (l : ReplayedLink) : Prop := l.bandwidthUsageBps = (l.packetsInBandwidthWindow.map Prod.snd).sum

/-- Whatever the window, the bits of the packets that leave it are part of the usage. -/
theorem ReplayedLink.evict_sound (window now : Nat) (packets : List (Nat × Nat)) :
    ∃ rest, evict window now packets (packets.map Prod.snd).sum = some (rest, (rest.map Prod.snd).sum) := by
  rw [evict_eq_evict, SlidingWindow.evict_eq]
  exact ⟨_, rfl⟩

theorem ReplayedLink.Sound.packetSent {l : ReplayedLink} (h : l.Sound) (now size bandwidthBps : Nat) :
    ∃ l' usage, l.packetSent now size bandwidthBps = some (l', usage) ∧ l'.Sound ∧ l'.status = l.status ∧
      l'.lastDownRelative = l.lastDownRelative := by
  obtain ⟨rest, hevict⟩ := evict_sound (Duration.fromSecs (windowSeconds bandwidthBps)) now l.packetsInBandwidthWindow
  rw [← h] at hevict
  let l' : ReplayedLink := { l with
    packetsInBandwidthWindow := rest ++ [(now, size * 8)]
    bandwidthUsageBps := (rest.map Prod.snd).sum + size * 8
    maxBandwidthUsageBps :=
      max l.maxBandwidthUsageBps (((rest.map Prod.snd).sum + size * 8) / windowSeconds bandwidthBps) }
  have hl' : l.packetSent now size bandwidthBps =
      some (l', ((rest.map Prod.snd).sum + size * 8) / windowSeconds bandwidthBps) := by
    simp only [ReplayedLink.packetSent, hevict, Option.bind_eq_bind, Option.bind_some]
    rfl
  have hsound : l'.Sound := by simp [ReplayedLink.Sound, l']
  exact ⟨l', _, hl', hsound, rfl, rfl⟩

structure Replay.Sound (v : SimulationVerifier) (r : Replay) : Prop where
  nodes : ∀ id n, r.nodes.lookup id = some n → n.Sound
  links : ∀ id l, r.links.lookup id = some l → l.Sound
  metadata : ∀ id n, r.nodes.lookup id = some n → (v.nodeMetadata.lookup id).isSome
  ids : ∀ id n, r.nodes.lookup id = some n → n.id = id

namespace ReplayedNode.Sound
variable {n : ReplayedNode} {id : Uuid} {p : ReplayedPacket}

theorem add (h : n.Sound) (hid : n.packets.lookup id = none) {n' : ReplayedNode}
    (hpackets : n'.packets = n.packets.insert id p) (husage : n'.bufferUsage = n.bufferUsage + p.sizeBytes) : n'.Sound := by
  rw [Sound, husage, hpackets, bufferedBytes_insert hid, h]

theorem le_usage (h : n.Sound) (hid : n.packets.lookup id = some p) : p.sizeBytes ≤ n.bufferUsage := by
  rw [h, ← bufferedBytes_erase hid]
  exact Nat.le_add_left ..

theorem remove (h : n.Sound) (hid : n.packets.lookup id = some p) {n' : ReplayedNode}
    (hpackets : n'.packets = n.packets.erase id) (husage : n'.bufferUsage = n.bufferUsage - p.sizeBytes) : n'.Sound := by
  rw [Sound, husage, hpackets, h, ← bufferedBytes_erase hid, Nat.add_sub_cancel_right]

end ReplayedNode.Sound

namespace Replay

/-- The status of the node, and when its buffer was last cleared. -/
def nodeState (r : Replay) (id : String) : Option (UpdateNodeStatus × Option Nat) :=
  (r.nodes.lookup id).map fun n => (n.status, n.lastBufferClear)

/-- The status of the link, and when it last went down. -/
def linkState (r : Replay) (id : String) : Option (UpdateLinkStatus × Option Nat) :=
  (r.links.lookup id).map fun l => (l.status, l.lastDownRelative)

variable {v : SimulationVerifier} {r : Replay} {nodeId : String} {n : ReplayedNode}

theorem Sound.insert_node (h : r.Sound v) (n' : ReplayedNode) (hn : r.nodes.lookup nodeId = some n) (hn' : n'.Sound)
    (hid : n'.id = n.id) : Sound v { r with nodes := r.nodes.insert nodeId n' } where
  nodes id m hm := by
    by_cases heq : id = nodeId
    · subst heq
      rw [AList.lookup_insert] at hm
      exact Option.some.inj hm ▸ hn'
    · rw [AList.lookup_insert_ne heq] at hm
      exact h.nodes id m hm
  links := h.links
  metadata id m hm := by
    by_cases heq : id = nodeId
    · subst heq
      exact h.metadata id n hn
    · rw [AList.lookup_insert_ne heq] at hm
      exact h.metadata id m hm
  ids id m hm := by
    by_cases heq : id = nodeId
    · subst heq
      rw [AList.lookup_insert] at hm
      rw [← Option.some.inj hm, hid]
      exact h.ids id n hn
    · rw [AList.lookup_insert_ne heq] at hm
      exact h.ids id m hm

theorem Sound.usagesUpdated (h : r.Sound v) {nodes : HashMap String ReplayedNode} {time : Nat} {update : Option Nat}
    (hnodes : SimulationVerifier.UsagesUpdated r.nodes nodes) :
    Sound v { r with nodes, lastStepTime := time, lastBufferUsageUpdate := update } := by
  refine ⟨fun id m hm => ?_, h.links, fun id m hm => ?_, fun id m hm => ?_⟩
  · obtain ⟨n, usage, hn, rfl⟩ := hnodes.origin hm
    exact h.nodes id n hn
  · obtain ⟨n, usage, hn, rfl⟩ := hnodes.origin hm
    exact h.metadata id n hn
  · obtain ⟨n, usage, hn, rfl⟩ := hnodes.origin hm
    exact h.ids id n hn

theorem nodeState_insert (r : Replay) (n' : ReplayedNode) (hn : r.nodes.lookup nodeId = some n) (hstatus : n'.status = n.status)
    (hclear : n'.lastBufferClear = n.lastBufferClear) :
    nodeState { r with nodes := r.nodes.insert nodeId n' } = r.nodeState := by
  funext id
  by_cases hid : id = nodeId
  · subst hid
    simp [nodeState, hn, hstatus, hclear]
  · simp [nodeState, AList.lookup_insert_ne hid]

end Replay

/-! ### The highest buffer usages -/

namespace SimulationVerifier
variable {v : SimulationVerifier} {r : Replay} {P : NonFatalError → Prop}

theorem exists_updateMaxBufferUsageLoop (hP : ∀ id size usage, P (.nodeExceedsBufferSize id size usage))
    (order : List String) (nodes : HashMap String ReplayedNode)
    (hnodes : ∀ id n, nodes.lookup id = some n → (v.nodeMetadata.lookup id).isSome) :
    ∃ nodes', (v.updateMaxBufferUsageLoop order nodes).Within P nodes' := by
  induction order generalizing nodes with
  | nil => exact ⟨nodes, Tracked.within_pure_iff.2 rfl⟩
  | cons nodeId order ih =>
    rw [updateMaxBufferUsageLoop]
    split
    · exact ih nodes hnodes
    · rename_i n hn
      obtain ⟨metadata, hmetadata⟩ := Option.isSome_iff_exists.1 (hnodes nodeId n hn)
      have hnodes' : ∀ id m, (nodes.insert nodeId n.updateMaxBufferUsage).lookup id = some m →
          (v.nodeMetadata.lookup id).isSome := fun id m hm => by
        by_cases hid : id = nodeId
        · subst hid
          exact hnodes id n hn
        · rw [AList.lookup_insert_ne hid] at hm
          exact hnodes id m hm
      by_cases hexceeds : metadata.bufferSizeBytes < n.updateMaxBufferUsage.maxBufferUsage
      · refine ⟨nodes.insert nodeId n.updateMaxBufferUsage,
          Tracked.within_bind_iff.2 ⟨metadata, within_unwrap_iff.2 hmetadata, ?_⟩⟩
        rw [if_pos hexceeds]
        exact Tracked.within_bind_iff.2 ⟨(), Tracked.within_track_iff.2 (hP ..), Tracked.within_pure_iff.2 rfl⟩
      · obtain ⟨nodes', hok⟩ := ih _ hnodes'
        refine ⟨nodes', Tracked.within_bind_iff.2 ⟨metadata, within_unwrap_iff.2 hmetadata, ?_⟩⟩
        rw [if_neg hexceeds]
        exact hok

theorem exists_updateMaxBufferUsage (hP : ∀ id size usage, P (.nodeExceedsBufferSize id size usage)) (h : r.Sound v) :
    ∃ nodes, UsagesUpdated r.nodes nodes ∧ (v.updateMaxBufferUsage r).Within P { r with nodes } := by
  obtain ⟨nodes, hok⟩ := exists_updateMaxBufferUsageLoop hP v.nodeOrder r.nodes h.metadata
  refine ⟨nodes, (v.updateMaxBufferUsageLoop_ensures v.nodeOrder r.nodes).result nodes hok.1, ?_⟩
  exact Tracked.within_bind_iff.2 ⟨nodes, hok, Tracked.within_pure_iff.2 rfl⟩

/-- Before a step is replayed, the buffer usages are updated, and that does not stop. -/
theorem exists_advanceTime (hP : ∀ id size usage, P (.nodeExceedsBufferSize id size usage)) (h : r.Sound v) (time : Nat) :
    ∃ nodes update, UsagesUpdated r.nodes nodes ∧
      (v.advanceTime r time).Within P { r with nodes, lastStepTime := time, lastBufferUsageUpdate := update } := by
  unfold advanceTime
  split_ifs with htime
  · obtain ⟨nodes, hnodes, hok⟩ := exists_updateMaxBufferUsage hP h
    exact ⟨nodes, some r.lastStepTime, hnodes, Tracked.within_bind_iff.2 ⟨_, hok, Tracked.within_pure_iff.2 rfl⟩⟩
  · refine ⟨r.nodes, r.lastBufferUsageUpdate, usagesUpdated_refl _, Tracked.within_pure_iff.2 ?_⟩
    rw [show time = r.lastStepTime by simpa using htime]

end SimulationVerifier

end QuicWorkbench
