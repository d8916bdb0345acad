import QuicWorkbench.Proofs.Conserved

/-!
# The verifier does not panic

Whatever the log, the replay stops with a fatal error or not at all: the summaries that the subtractions rely on are
right along every replay, the packets in flight are on links that the verifier knows, and were sent before. Nor do the
sums of bytes overflow: all of them are bounded by the sizes that the steps say.
-/

namespace QuicWorkbench

namespace SimulationVerifier

/-- If the computation stops, it does so with a fatal error. -/
abbrev NoPanic {α : Type} (x : Replaying α) : Prop := x.StopsAs (· ≠ .panic)

variable {α : Type}

theorem noPanic_tryFatal (o : Option α) (e : FatalError) : NoPanic (tryFatal o e) :=
  Tracked.stopsAs_ofOption fun _ => by simp

theorem noPanic_unwrap {o : Option α} {a : α} (h : o = some a) : NoPanic (unwrap o) :=
  Tracked.stopsAs_ofOption fun hnone => absurd (h.symm.trans hnone) (by simp)

theorem checkedSub_of_le {a b : Nat} (h : b ≤ a) : checkedSub a b = some (a - b) := if_pos h

end SimulationVerifier

open SimulationVerifier

/-! ### Nodes -/

namespace ReplayedNode
variable {n : ReplayedNode}

theorem noPanic_add (n : ReplayedNode) (id : Uuid) (size now : Nat) : NoPanic (n.addPacketToBuffer id size now) := by
  unfold addPacketToBuffer
  refine Tracked.stopsAs_trackIf.bind fun _ _ => ?_
  split_ifs
  · exact Tracked.stopsAs_stop (by simp)
  · exact Tracked.stopsAs_pure

theorem noPanic_remove (h : n.Sound) (id : Uuid) : NoPanic (n.removePacketFromBuffer id) := by
  unfold removePacketFromBuffer
  refine (noPanic_tryFatal _ _).bind fun p hp => ?_
  have hlookup : n.packets.lookup id = some p := (within_tryFatal_iff (P := fun _ => True)).1 ⟨hp, fun _ _ => trivial⟩
  exact (noPanic_unwrap (checkedSub_of_le (h.le_usage hlookup))).bind fun _ _ => Tracked.stopsAs_pure

theorem noPanic_received (n : ReplayedNode) (s : PacketInNode) (now : Nat) : NoPanic (n.packetReceived s now) := by
  unfold packetReceived
  simp only
  split_ifs
  · exact Tracked.stopsAs_trackIf.bind fun _ _ => Tracked.stopsAs_pure
  · exact noPanic_add _ _ _ _

theorem noPanic_sent (h : n.Sound) (id : Uuid) : NoPanic (n.packetSent id) := by
  unfold packetSent
  refine Tracked.stopsAs_trackIf.bind fun _ _ => (noPanic_remove h id).bind fun _ _ => ?_
  exact Tracked.stopsAs_trackIf.bind fun _ _ => Tracked.stopsAs_pure

theorem noPanic_dropped (h : n.Sound) (s : PacketDropped) : NoPanic (n.packetDropped s) := by
  unfold packetDropped
  refine (noPanic_remove h s.packetId).bind fun _ _ => ?_
  cases s.reason <;> exact Tracked.stopsAs_pure

theorem noPanic_delivered (h : n.Sound) (id : Uuid) : NoPanic (n.packetDeliveredToAppLayer id) := by
  unfold packetDeliveredToAppLayer
  exact (noPanic_remove h id).bind fun _ _ => Tracked.stopsAs_pure

theorem noPanic_delayed (n : ReplayedNode) (id : Uuid) (delay : Nat) : NoPanic (n.packetHasExtraDelay id delay) := by
  unfold packetHasExtraDelay
  exact (noPanic_tryFatal _ _).bind fun _ _ => Tracked.stopsAs_pure

end ReplayedNode

/-! ### Steps -/

/-- The packets in flight are on links that the verifier knows, and were sent by `now`. -/
def Replay.FlightsKnown (v : SimulationVerifier) (now : Nat) (r : Replay) : Prop :=
  ∀ id f, r.inFlightPackets.lookup id = some f → (v.linkMetadata.lookup f.linkId).isSome ∧ f.sentAtRelative ≤ now

namespace SimulationVerifier
variable {v : SimulationVerifier} {r r' : Replay} {now : Nat} {P : NonFatalError → Prop}

theorem lookup_of_tryFatal {α : Type} {o : Option α} {e : FatalError} {a : α} (h : (tryFatal o e).result = .ok a) :
    o = some a := (within_tryFatal_iff (P := fun _ => True)).1 ⟨h, fun _ _ => trivial⟩

theorem packetInNode_noPanic (hflights : r.FlightsKnown v now) (s : PacketInNode) : NoPanic (v.packetInNode r now s) := by
  unfold packetInNode
  cases hf : r.inFlightPackets.lookup s.packetId with
  | some f =>
    obtain ⟨hknown, hsent⟩ := hflights _ f hf
    obtain ⟨metadata, hmetadata⟩ := Option.isSome_iff_exists.1 hknown
    refine (noPanic_unwrap hmetadata).bind fun _ _ => Tracked.stopsAs_trackIf.bind fun _ _ => ?_
    refine (noPanic_unwrap (checkedSub_of_le hsent)).bind fun _ _ => Tracked.stopsAs_trackIf.bind fun _ _ => ?_
    refine (noPanic_tryFatal _ _).bind fun link _ => ?_
    cases link.lastDownRelative with
    | some lastDown =>
      refine Tracked.stopsAs_trackIf.bind fun _ _ => (noPanic_tryFatal _ _).bind fun n _ => ?_
      exact (n.noPanic_received s now).bind fun _ _ => Tracked.stopsAs_pure
    | none =>
      refine (noPanic_tryFatal _ _).bind fun n _ => ?_
      exact (n.noPanic_received s now).bind fun _ _ => Tracked.stopsAs_pure
  | none =>
    refine Tracked.stopsAs_trackIf.bind fun _ _ => (noPanic_tryFatal _ _).bind fun n _ => ?_
    exact (n.noPanic_add _ _ _).bind fun _ _ => Tracked.stopsAs_pure

theorem packetInTransit_noPanic (hsound : r.Sound v) (s : PacketInTransit) : NoPanic (v.packetInTransit r now s) := by
  unfold packetInTransit
  refine (noPanic_tryFatal _ _).bind fun n hn => ?_
  refine (ReplayedNode.noPanic_sent (hsound.nodes _ n (lookup_of_tryFatal hn)) s.packetId).bind fun _ _ => ?_
  refine (noPanic_tryFatal _ _).bind fun metadata _ => Tracked.stopsAs_trackIf.bind fun _ _ => ?_
  refine (noPanic_tryFatal _ _).bind fun link hlink => Tracked.stopsAs_trackIf.bind fun _ _ => ?_
  obtain ⟨link', usage, hsent, -⟩ := (hsound.links _ link (lookup_of_tryFatal hlink)).packetSent now _ metadata.bandwidthBps
  refine (noPanic_unwrap hsent).bind fun _ _ => ?_
  exact Tracked.stopsAs_trackIf.bind fun _ _ => Tracked.stopsAs_pure

theorem replayKind_noPanic (hsound : r.Sound v) (hflights : r.FlightsKnown v now) (kind : SimulationStepKind) :
    NoPanic (v.replayKind r now kind) := by
  cases kind with
  | packetInNode s => exact packetInNode_noPanic hflights s
  | packetInTransit s => exact packetInTransit_noPanic hsound s
  | packetDuplicated s =>
    refine (noPanic_tryFatal _ _).bind fun n _ => ?_
    exact (ReplayedNode.noPanic_add _ _ _ _).bind fun _ _ => Tracked.stopsAs_pure
  | packetDropped s =>
    refine (noPanic_tryFatal _ _).bind fun n hn => ?_
    exact (ReplayedNode.noPanic_dropped (hsound.nodes _ n (lookup_of_tryFatal hn)) s).bind fun _ _ => Tracked.stopsAs_pure
  | packetLostInTransit s =>
    show NoPanic (packetLostInTransit r s)
    unfold packetLostInTransit
    cases r.inFlightPackets.lookup s.packetId with
    | some f => exact Tracked.stopsAs_pure
    | none => exact Tracked.stopsAs_track.bind fun _ _ => Tracked.stopsAs_pure
  | packetExtraDelay s =>
    refine (noPanic_tryFatal _ _).bind fun n _ => ?_
    exact (n.noPanic_delayed _ _).bind fun _ _ => Tracked.stopsAs_pure
  | packetCongestionEvent s => exact (noPanic_tryFatal _ _).bind fun n _ => Tracked.stopsAs_pure
  | packetDeliveredToApplication s =>
    refine (noPanic_tryFatal _ _).bind fun n hn => ?_
    have hnode := hsound.nodes _ n (lookup_of_tryFatal hn)
    exact (ReplayedNode.noPanic_delivered hnode s.packetId).bind fun _ _ => Tracked.stopsAs_pure
  | networkEvent e =>
    have hlink : ∀ payload, NoPanic (linkEvent r now payload) := by
      intro payload
      unfold linkEvent
      cases payload.status with
      | none => exact Tracked.stopsAs_pure
      | some status => exact (noPanic_tryFatal _ _).bind fun _ _ => Tracked.stopsAs_pure
    have hnode : ∀ (r : Replay) payload, NoPanic (nodeEvent r now payload) := fun r payload =>
      (noPanic_tryFatal _ _).bind fun _ _ => Tracked.stopsAs_pure
    show NoPanic (networkEvent r now e)
    unfold networkEvent
    refine Tracked.StopsAs.bind ?_ fun r₁ _ => ?_
    · cases e.link with
      | none => exact Tracked.stopsAs_pure
      | some payload => exact hlink payload
    · cases e.node with
      | none => exact Tracked.stopsAs_pure
      | some payload => exact hnode r₁ payload

/-! ### Runs -/

variable {spec : NetworkSpec} {steps steps₀ : List SimulationStep}

theorem replayKind_sent {kind : SimulationStepKind} (h : (v.replayKind r now kind).Within P r') {id : Uuid} {f : InFlightPacket}
    (hf : r'.inFlightPackets.lookup id = some f) : r.inFlightPackets.lookup id = some f ∨
      (v.linkMetadata.lookup f.linkId).isSome ∧ f.sentAtRelative = now := by
  have hflights := replayKind_flights h
  have herased : ∀ u, (r.inFlightPackets.erase u).lookup id = some f → r.inFlightPackets.lookup id = some f := by
    intro u hu
    by_cases hid : id = u
    · subst hid
      simp at hu
    · rwa [AList.lookup_erase_ne hid] at hu
  by_cases hkind : ∃ s, kind = .packetInTransit s
  · obtain ⟨s, rfl⟩ := hkind
    obtain ⟨n, packet, n', metadata, link, link', usage, -, -, hmetadata, -, -, -, -, -, rfl⟩ :=
      packetInTransit_within_iff.1 h
    by_cases hid : id = s.packetId
    · subst hid
      rw [AList.lookup_insert] at hf
      obtain rfl := Option.some.inj hf
      exact .inr ⟨by rw [hmetadata]; rfl, rfl⟩
    · rw [AList.lookup_insert_ne hid] at hf
      exact .inl hf
  · left
    generalize r'.inFlightPackets = flights', r'.statsByLink = stats' at hflights hf
    cases hflights with
    | same => exact hf
    | received => exact herased _ hf
    | lost => exact herased _ hf
    | sent f hsent => exact absurd ⟨_, hsent⟩ hkind

theorem flightsKnown_replay (hsorted : steps.Pairwise fun a b => a.relativeTime ≤ b.relativeTime)
    (h : (v.replay v.start steps).Within P r) : r.FlightsKnown v (lastTime steps) := by
  refine replay_induction (I := fun steps r =>
    steps.Pairwise (fun a b => a.relativeTime ≤ b.relativeTime) → r.FlightsKnown v (lastTime steps))
    (fun _ id f hf => ?_) (fun steps r nodes time update _ hr => hr)
    (fun steps step r r' _ hr hkind hsorted id f hf => ?_) h hsorted
  · simp [start, AList.lookup_empty] at hf
  · obtain ⟨hsteps, -, hstep⟩ := List.pairwise_append.1 hsorted
    rw [lastTime_snoc]
    rcases replayKind_sent hkind hf with hf | ⟨hknown, hsent⟩
    · obtain ⟨hknown, hsent⟩ := hr hsteps id f hf
      refine ⟨hknown, hsent.trans ?_⟩
      rcases List.eq_nil_or_concat steps with rfl | ⟨init, last, rfl⟩
      · exact Nat.zero_le _
      · rw [List.concat_eq_append] at hstep ⊢
        rw [lastTime_snoc]
        exact hstep last (by simp) step (by simp)
    · exact ⟨hknown, Nat.le_of_eq hsent⟩

theorem sound_replay (htables : v.Tables spec steps₀) (h : (v.replay v.start steps).Within P r) : r.Sound v := by
  have hnodes : ∀ id n, r.nodes.lookup id = some n → (v.nodeMetadata.lookup id).isSome ∧ n.id = id := by
    refine replay_induction (I := fun _ r => ∀ id n, r.nodes.lookup id = some n →
        (v.nodeMetadata.lookup id).isSome ∧ n.id = id)
      (fun id n hn => ?_) (fun steps r nodes time update hnodes hr id n hn => ?_)
      (fun steps step r r' _ hr hkind id n' hn' => ?_) h
    · obtain ⟨hid, rfl⟩ := (htables.nodes id n).1 hn
      exact ⟨htables.nodeMetadata id hid, rfl⟩
    · obtain ⟨m, usage, hm, rfl⟩ := hnodes.origin hn
      exact hr id m hm
    · obtain ⟨n, hn, hcases⟩ := (replayKind_visits hkind).origin hn'
      have hsame : n'.id = n.id := by
        rcases hcases with ⟨-, hvisit⟩ | ⟨-, rfl⟩
        · exact hvisit.id
        · rfl
      rw [hsame]
      exact hr id n hn
  have hhistory := replay_history htables.new_node htables.new_link h
  exact ⟨fun id n hn => (hhistory.nodes id n hn).sound, fun id l hl => (hhistory.links id l hl).sound,
    fun id n hn => (hnodes id n hn).1, fun id n hn => (hnodes id n hn).2⟩

theorem updateMaxBufferUsage_noPanic (h : r.Sound v) : NoPanic (v.updateMaxBufferUsage r) := by
  obtain ⟨nodes, -, hok⟩ := exists_updateMaxBufferUsage (P := fun _ => True) (fun _ _ _ => trivial) h
  intro stop hstop
  rw [hok.1] at hstop
  simp at hstop

theorem advanceTime_noPanic (h : r.Sound v) (time : Nat) : NoPanic (v.advanceTime r time) := by
  unfold advanceTime
  split_ifs
  · exact (updateMaxBufferUsage_noPanic h).bind fun _ _ => Tracked.stopsAs_pure
  · exact Tracked.stopsAs_pure

/-- The replay of a sorted log does not panic. -/
theorem run_noPanic (htables : v.Tables spec steps₀) : NoPanic v.run := by
  have hstep : ∀ pre step r, pre ++ [step] <+: v.steps → (v.replay v.start pre).result = .ok r → NoPanic (v.replayStep r step) := by
    intro pre step r hpre hr
    have hreplay : (v.replay v.start pre).Within (fun _ => True) r := ⟨hr, fun _ _ => trivial⟩
    have hsound := sound_replay htables hreplay
    have hsorted : (pre ++ [step]).Pairwise fun a b => a.relativeTime ≤ b.relativeTime := htables.sorted.sublist hpre.sublist
    obtain ⟨hsteps, -, hlast⟩ := List.pairwise_append.1 hsorted
    have hflights := flightsKnown_replay hsteps hreplay
    refine (advanceTime_noPanic hsound step.relativeTime).bind fun r₁ hr₁ => ?_
    obtain ⟨nodes, update, hnodes, rfl⟩ := (advanceTime_ensures v r step.relativeTime).result r₁ hr₁
    refine replayKind_noPanic ?_ (fun id f hf => ?_) step.kind
    · exact hsound.usagesUpdated hnodes
    · obtain ⟨hknown, hsent⟩ := hflights id f hf
      refine ⟨hknown, hsent.trans ?_⟩
      rcases List.eq_nil_or_concat pre with rfl | ⟨init, last, rfl⟩
      · exact Nat.zero_le _
      · rw [List.concat_eq_append] at hlast ⊢
        rw [lastTime_snoc]
        exact hlast last (by simp) step (by simp)
  refine (Tracked.StopsAs.fold fun pre step r hpre hr => hstep pre step r hpre hr).bind fun r hr => ?_
  have hreplay : (v.replay v.start v.steps).Within (fun _ => True) r := ⟨hr, fun _ _ => trivial⟩
  unfold finish
  split_ifs
  · exact updateMaxBufferUsage_noPanic (sound_replay htables hreplay)
  · exact Tracked.stopsAs_pure

end SimulationVerifier

/-! ### Bytes -/

/-- The bytes of the packets, where the steps say. -/
def stepBytes (steps : List SimulationStep) : Nat := (steps.map fun step => step.kind.sizeBytes).sum

theorem stepBytes_snoc (steps : List SimulationStep) (step : SimulationStep) :
    stepBytes (steps ++ [step]) = stepBytes steps + step.kind.sizeBytes := by
  simp [stepBytes]

/-- The counters that count a packet by the size that the buffer has. -/
def ReplayedNode.bufferCounters (n : ReplayedNode) : List PacketStats :=
  [n.sentPackets, n.droppedPacketsInjected, n.droppedPacketsBufferFull, n.droppedPacketsBufferCleared]

/-- The bytes that the nodes have sent. -/
def Replay.bytesSent (r : Replay) : Nat := AList.sumOf (·.sentPackets.bytes) r.nodes

/-- The bytes that a link has lost. -/
def LinkStats.bytesLost (stats : LinkStats) : Nat := stats.droppedInTransit.bytes

/-- No sum of bytes exceeds the total: what left a node or is in its buffer came in by a step, and what is in flight, was
lost or is in the window of a link was sent by a node. -/
structure Replay.BytesWithin (r : Replay) (total : Nat) : Prop where
  nodes : AList.sumOf (fun n => n.bytesDeparted + n.bufferUsage) r.nodes ≤ total
  counters : ∀ id n, r.nodes.lookup id = some n → ∀ c ∈ n.stepCounters, c.bytes ≤ total
  flights : AList.sumOf InFlightPacket.sizeBytes r.inFlightPackets + AList.sumOf LinkStats.bytesLost r.statsByLink ≤ r.bytesSent
  links : ∀ id l, r.links.lookup id = some l → l.bandwidthUsageBps ≤ r.bytesSent * 8

/-- None of the additions that a step can make overflows. -/
structure Replay.NoOverflow (r : Replay) (kind : SimulationStepKind) : Prop where
  usage : ∀ id n, r.nodes.lookup id = some n → n.bufferUsage + kind.sizeBytes < 2 ^ 64
  stepCounters : ∀ id n, r.nodes.lookup id = some n → ∀ c ∈ n.stepCounters, c.bytes + kind.sizeBytes < 2 ^ 64
  bufferCounters : ∀ id n, r.nodes.lookup id = some n → ∀ packetId p, n.packets.lookup packetId = some p →
    ∀ c ∈ n.bufferCounters, c.bytes + p.sizeBytes < 2 ^ 64
  links : ∀ id n, r.nodes.lookup id = some n → ∀ packetId p, n.packets.lookup packetId = some p →
    ∀ linkId l, r.links.lookup linkId = some l → l.bandwidthUsageBps + p.sizeBytes * 8 < 2 ^ 64
  lost : ∀ packetId f, r.inFlightPackets.lookup packetId = some f → ∀ linkId stats, r.statsByLink.lookup linkId = some stats →
    stats.droppedInTransit.bytes + f.sizeBytes < 2 ^ 64

theorem ReplayedLink.evict_le (window now : Nat) (packets : List (Nat × Nat)) (usage : Nat) {packets' : List (Nat × Nat)}
    {usage' : Nat} (h : evict window now packets usage = some (packets', usage')) : usage' ≤ usage := by
  induction packets generalizing usage with
  | nil => simp_all [evict]
  | cons x packets ih =>
    obtain ⟨time, bits⟩ := x
    rw [evict] at h
    split_ifs at h
    · obtain ⟨rest, hrest, h⟩ := Option.bind_eq_some_iff.1 h
      have hle := ih rest h
      unfold checkedSub at hrest
      split_ifs at hrest
      have := Option.some.inj hrest
      omega
    · simp only [Option.some.injEq, Prod.mk.injEq] at h
      omega

theorem ReplayedLink.packetSent_le {l l' : ReplayedLink} {now size bandwidthBps usage : Nat}
    (h : l.packetSent now size bandwidthBps = some (l', usage)) : l'.bandwidthUsageBps ≤ l.bandwidthUsageBps + size * 8 := by
  simp only [ReplayedLink.packetSent, Option.bind_eq_bind] at h
  obtain ⟨⟨packets, rest⟩, hevict, h⟩ := Option.bind_eq_some_iff.1 h
  obtain ⟨rfl, -⟩ := Prod.mk.inj (Option.some.inj h)
  have hle := evict_le _ _ _ _ hevict
  simp only
  omega

namespace SimulationVerifier
variable {v : SimulationVerifier} {r r' : Replay} {now total : Nat} {P : NonFatalError → Prop} {kind : SimulationStepKind}

theorem sumOf_visited_le {inFlight : Uuid → Bool} {nodes nodes' : HashMap String ReplayedNode}
    (h : NodesVisit inFlight kind now nodes nodes') {f : ReplayedNode → Nat} {d : Nat}
    (hvisit : ∀ n n', Visit inFlight kind now n n' → f n' ≤ f n + d) :
    AList.sumOf f nodes' ≤ AList.sumOf f nodes + d := by
  cases h with
  | none hid => exact Nat.le_add_right ..
  | @node nodeId n n' hid hn h =>
    have hsum := AList.sumOf_insert_of_some (f := f) n' hn
    have hn' := hvisit n n' h
    omega

theorem le_sumOf_visited {inFlight : Uuid → Bool} {nodes nodes' : HashMap String ReplayedNode}
    (h : NodesVisit inFlight kind now nodes nodes') {f : ReplayedNode → Nat}
    (hvisit : ∀ n n', Visit inFlight kind now n n' → f n ≤ f n') : AList.sumOf f nodes ≤ AList.sumOf f nodes' := by
  cases h with
  | none hid => exact Nat.le_refl _
  | @node nodeId n n' hid hn h =>
    have hsum := AList.sumOf_insert_of_some (f := f) n' hn
    have hn' := hvisit n n' h
    omega

theorem exists_of_mem_counters {n n' : ReplayedNode} {inFlight : Uuid → Bool} (h : Visit inFlight kind now n n')
    {c' : PacketStats} (hc' : c' ∈ n'.stepCounters) : ∃ c ∈ n.stepCounters, c'.bytes ≤ c.bytes + kind.sizeBytes := by
  obtain ⟨i, hi, rfl⟩ := List.getElem_of_mem hc'
  have hlen := h.counters.length_eq
  exact ⟨n.stepCounters[i], List.getElem_mem _, h.counters.get (by omega) hi⟩

theorem bytes_of_flights {flights flights' : HashMap Uuid InFlightPacket} {stats stats' : HashMap String LinkStats}
    (h : FlightsStep kind flights stats flights' stats') (hsends : kind.sends = false) :
    AList.sumOf InFlightPacket.sizeBytes flights' + AList.sumOf LinkStats.bytesLost stats' ≤
      AList.sumOf InFlightPacket.sizeBytes flights + AList.sumOf LinkStats.bytesLost stats := by
  cases h with
  | same => exact Nat.le_refl _
  | received _ _ hf =>
    have herase := AList.sumOf_erase (f := InFlightPacket.sizeBytes) hf
    omega
  | @lost id f linkId _ _ hf =>
    have herase := AList.sumOf_erase (f := InFlightPacket.sizeBytes) hf
    have hlost := AList.sumOf_insert_getD (f := LinkStats.bytesLost) (m := stats) (d := {}) rfl linkId
      { (stats.lookup linkId).getD {} with
        droppedInTransit := ((stats.lookup linkId).getD {}).droppedInTransit.trackOne f.sizeBytes }
    simp only [LinkStats.bytesLost, PacketStats.trackOne] at hlost ⊢
    omega
  | sent f hkind => simp [hkind, SimulationStepKind.sends] at hsends

theorem bytes_of_sent {s : PacketInTransit} (h : (v.packetInTransit r now s).Within P r') :
    ∃ size, r'.bytesSent = r.bytesSent + size ∧
      AList.sumOf InFlightPacket.sizeBytes r'.inFlightPackets ≤ AList.sumOf InFlightPacket.sizeBytes r.inFlightPackets + size ∧
      r'.statsByLink = r.statsByLink ∧
      ∀ id l', r'.links.lookup id = some l' →
        ∃ l, r.links.lookup id = some l ∧ l'.bandwidthUsageBps ≤ l.bandwidthUsageBps + size * 8 := by
  obtain ⟨n, p, n', m, l, l', usage, hn, hsent, -, -, hl, -, hl', -, rfl⟩ := packetInTransit_within_iff.1 h
  obtain ⟨-, -, -, -, rfl⟩ := ReplayedNode.packetSent_within_iff.1 hsent
  refine ⟨p.sizeBytes, ?_, AList.sumOf_insert_le .., rfl, fun id l₁ hl₁ => ?_⟩
  · have hsum := AList.sumOf_insert_of_some (f := (·.sentPackets.bytes)) { n with
      packets := n.packets.erase s.packetId, bufferUsage := n.bufferUsage - p.sizeBytes
      sentPackets := n.sentPackets.trackOne p.sizeBytes } hn
    simp only [PacketStats.trackOne] at hsum
    unfold Replay.bytesSent
    simp only [PacketStats.trackOne]
    omega
  · by_cases hid : id = s.linkId
    · subst hid
      rw [AList.lookup_insert] at hl₁
      obtain rfl := Option.some.inj hl₁
      exact ⟨l, hl, ReplayedLink.packetSent_le hl'⟩
    · rw [AList.lookup_insert_ne hid] at hl₁
      exact ⟨l₁, hl₁, Nat.le_add_right ..⟩

theorem bytesWithin_step (h : r.BytesWithin total) (hsound : r.Sound v) (hkind : (v.replayKind r now kind).Within P r') :
    r'.BytesWithin (total + kind.sizeBytes) := by
  have hvisits := replayKind_visits hkind
  have hsent : r.bytesSent ≤ r'.bytesSent := le_sumOf_visited hvisits fun n n' hvisit => hvisit.sentBytes
  constructor
  case nodes =>
    have hnodes := sumOf_visited_le hvisits (f := fun n => n.bytesDeparted + n.bufferUsage) fun n n' hvisit => hvisit.bytes
    exact hnodes.trans (Nat.add_le_add_right h.nodes _)
  case counters =>
    intro id n' hn' c' hc'
    obtain ⟨n, hn, ⟨-, hvisit⟩ | ⟨-, rfl⟩⟩ := hvisits.origin hn'
    · obtain ⟨c, hc, hle⟩ := exists_of_mem_counters hvisit hc'
      exact hle.trans (Nat.add_le_add_right (h.counters id n hn c hc) _)
    · exact (h.counters id n' hn c' hc').trans (Nat.le_add_right ..)
  case flights =>
    have hflights := h.flights
    by_cases hsends : kind.sends
    · obtain ⟨s, rfl⟩ : ∃ s, kind = .packetInTransit s := by cases kind <;> simp_all [SimulationStepKind.sends]
      obtain ⟨size, hsize, hle, hstats, -⟩ := bytes_of_sent hkind
      rw [hstats]
      omega
    · have hle := bytes_of_flights (replayKind_flights hkind) (by simpa using hsends)
      omega
  case links =>
    intro id l' hl'
    by_cases hsends : kind.sends
    · obtain ⟨s, rfl⟩ : ∃ s, kind = .packetInTransit s := by cases kind <;> simp_all [SimulationStepKind.sends]
      obtain ⟨size, hsize, -, -, hlinks⟩ := bytes_of_sent hkind
      obtain ⟨l, hl, hle⟩ := hlinks id l' hl'
      have hold := h.links id l hl
      omega
    · obtain ⟨l, hl, hvisit⟩ := replayKind_links hsound.links hkind hl'
      rw [(hvisit.window fun s hs => absurd (by rw [hs]; rfl) hsends).2.1]
      have hold := h.links id l hl
      omega

/-- Along a replay, no sum of bytes exceeds what the steps say. -/
theorem bytesWithin_replay {spec : NetworkSpec} {steps steps₀ : List SimulationStep} (htables : v.Tables spec steps₀)
    (h : (v.replay v.start steps).Within P r) : r.BytesWithin (stepBytes steps) := by
  induction steps using List.reverseRecOn generalizing r with
  | nil =>
    obtain rfl := (Tracked.within_pure_iff (P := P)).1 h
    refine ⟨?_, fun id n hn c hc => ?_, ?_, fun id l hl => ?_⟩
    · rw [start, sumOf_start htables.new_node fun id => rfl]
      exact Nat.zero_le _
    · rw [htables.new_node id n hn] at hc
      simp only [ReplayedNode.stepCounters, ReplayedNode.new, List.mem_cons, List.not_mem_nil, or_false, or_self] at hc
      rw [hc]
      exact Nat.zero_le _
    · exact Nat.zero_le _
    · rw [htables.new_link id l hl]
      exact Nat.zero_le _
  | append_singleton steps step ih =>
    obtain ⟨r₀, h₀, hlast⟩ := Tracked.within_fold_append.1 h
    obtain ⟨nodes, update, hnodes, hkind⟩ := replayStep_within (Tracked.within_fold_singleton.1 hlast)
    have hbytes := ih h₀
    have hsound : Replay.Sound v { r₀ with nodes, lastStepTime := step.relativeTime, lastBufferUsageUpdate := update } :=
      (sound_replay htables h₀).usagesUpdated hnodes
    rw [stepBytes_snoc]
    refine bytesWithin_step ⟨?_, fun id n hn c hc => ?_, ?_, ?_⟩ hsound hkind
    · rw [hnodes.sumOf_eq fun _ _ => rfl]
      exact hbytes.nodes
    · obtain ⟨m, usage, hm, rfl⟩ := hnodes.origin hn
      exact hbytes.counters id m hm c hc
    · rw [Replay.bytesSent, hnodes.sumOf_eq fun _ _ => rfl]
      exact hbytes.flights
    · rw [Replay.bytesSent, hnodes.sumOf_eq fun _ _ => rfl]
      exact hbytes.links

theorem noOverflow_of_bytesWithin (h : r.BytesWithin total) (hsound : r.Sound v) (htotal : total + kind.sizeBytes < 2 ^ 61) :
    r.NoOverflow kind := by
  have hnode : ∀ id n, r.nodes.lookup id = some n → n.bytesDeparted + n.bufferUsage ≤ total := fun id n hn =>
    (AList.le_sumOf (f := fun n : ReplayedNode => n.bytesDeparted + n.bufferUsage) hn).trans h.nodes
  have hsent : r.bytesSent + AList.sumOf ReplayedNode.bufferUsage r.nodes ≤ total := by
    refine le_trans (Nat.add_le_add_right (AList.sumOf_mono (g := ReplayedNode.bytesDeparted) (fun n => ?_) r.nodes) _)
      ((AList.sumOf_add _ _ r.nodes).symm.le.trans h.nodes)
    unfold ReplayedNode.bytesDeparted
    omega
  have hbuffered : ∀ id n packetId p, r.nodes.lookup id = some n → n.packets.lookup packetId = some p →
      p.sizeBytes ≤ n.bufferUsage := fun id n packetId p hn hp => (hsound.nodes id n hn).le_usage hp
  constructor
  case usage =>
    intro id n hn
    have := hnode id n hn
    omega
  case stepCounters =>
    intro id n hn c hc
    have := h.counters id n hn c hc
    omega
  case bufferCounters =>
    intro id n hn packetId p hp c hc
    have hle := hnode id n hn
    have hsize := hbuffered id n packetId p hn hp
    have hdeparted : c.bytes ≤ n.bytesDeparted := by
      unfold ReplayedNode.bytesDeparted
      simp only [ReplayedNode.bufferCounters, List.mem_cons, List.not_mem_nil, or_false] at hc
      rcases hc with rfl | rfl | rfl | rfl <;> omega
    omega
  case links =>
    intro id n hn packetId p hp linkId l hl
    have hsize := hbuffered id n packetId p hn hp
    have husage := AList.le_sumOf (f := ReplayedNode.bufferUsage) hn
    have hlink := h.links linkId l hl
    omega
  case lost =>
    intro packetId f hf linkId stats hstats
    have hsize := AList.le_sumOf (f := InFlightPacket.sizeBytes) hf
    have hlost : stats.droppedInTransit.bytes ≤ _ := AList.le_sumOf (f := LinkStats.bytesLost) hstats
    have hflights := h.flights
    omega

end SimulationVerifier

/-- The verifier neither panics nor overflows: it comes to a result, and no step that it replays makes an addition that
overflows. -/
theorem verify_never_panics {spec : NetworkSpec} {steps : List SimulationStep} {order : List String} {v : SimulationVerifier}
    (hnew : SimulationVerifier.new order steps spec = .ok v) (hbytes : stepBytes steps < 2 ^ 61) :
    (∃ result, v.verify = some result) ∧ ∀ pre step r, pre ++ [step] <+: v.steps →
      (v.replay v.start pre).result = .ok r → r.NoOverflow step.kind := by
  have htables := SimulationVerifier.new_tables hnew
  constructor
  · have hrun := SimulationVerifier.run_noPanic htables
    unfold SimulationVerifier.verify
    cases hresult : v.run.result with
    | ok r => exact ⟨_, rfl⟩
    | error stop =>
      cases stop with
      | fatal e => exact ⟨_, rfl⟩
      | panic => exact absurd rfl (hrun _ hresult)
  · intro pre step r hpre hr
    have hreplay : (v.replay v.start pre).Within (fun _ => True) r := ⟨hr, fun _ _ => trivial⟩
    refine SimulationVerifier.noOverflow_of_bytesWithin (SimulationVerifier.bytesWithin_replay htables hreplay)
      (SimulationVerifier.sound_replay htables hreplay) ?_
    rw [← stepBytes_snoc]
    have hperm : stepBytes v.steps = stepBytes steps := by
      rw [htables.steps]
      exact ((List.perm_insertionSort _ steps).map _).sum_eq
    obtain ⟨post, hpost⟩ := hpre
    have hle : stepBytes (pre ++ [step]) ≤ stepBytes v.steps := by
      rw [← hpost]
      simp [stepBytes]
    omega

/-- The first packet is delivered where it is not, and the second one is created twice. -/
def malformed : List SimulationStep :=
  [{ relativeTime := 7, kind := .packetDeliveredToApplication
      { packetId := 1, packetNumber := 0, packetSizeBytes := 128, nodeId := "B" } },
    createdAt "A" 2, createdAt "A" 2]

/-- A malformed log is rejected, without a panic. -/
theorem malformed_never_panics : ∃ v, SimulationVerifier.new ["A", "B"] malformed (hostPair 8000000 0) = .ok v ∧
    (∃ result, v.verify = some result) ∧ ∀ pre step r, pre ++ [step] <+: v.steps →
      (v.replay v.start pre).result = .ok r → r.NoOverflow step.kind := by
  have hnew : ∃ v, SimulationVerifier.new ["A", "B"] malformed (hostPair 8000000 0) = .ok v := ⟨_, rfl⟩
  obtain ⟨v, hnew⟩ := hnew
  exact ⟨v, hnew, verify_never_panics hnew (by decide +kernel)⟩

end QuicWorkbench
