import QuicWorkbench.Proofs.Sends
import QuicWorkbench.Proofs.Replay
import QuicWorkbench.Proofs.Tables
import Mathlib.Algebra.BigOperators.Group.List.Basic

/-!
# Link anomalies

What the anomalies of the links do to a packet on its way, and what the log of a run says about them. A packet can
take one congestion mark, if it starts with ECN support: the next mark fails the assertion of `send`, as does a mark of
a packet without ECN support. And no anomaly is ever recorded, since `forward` calls `track_injected_failures` for
duplicates only.
-/

namespace QuicWorkbench

/-! ### Congestion marks on a path -/

/-- The packet after the sends on the links of a path, which draw these anomalies; none if the assertion on the ECN
codepoint fails at one of them. -/
def crossLinks : List PacketAnomalies → InTransitData → Option InTransitData
  | [], data => some data
  | anomalies :: path, data => (NetworkLink.applyCongestion anomalies data).bind (crossLinks path)

/-- The packet indicates support for ECN, and is not marked. -/
def InTransitData.ecnCapable (d : InTransitData) : Bool := d.transmit.ecn = some .ect0 || d.transmit.ecn = some .ect1

/-- The number of congestion marks that the links of the path apply. -/
def congestionMarks (path : List PacketAnomalies) : Nat := path.countP (·.congestionExperienced)

theorem applyCongestion_of_unmarked {anomalies : PacketAnomalies} (h : anomalies.congestionExperienced = false)
    (data : InTransitData) : NetworkLink.applyCongestion anomalies data = some data := by
  simp [NetworkLink.applyCongestion, h]

theorem applyCongestion_of_marked {anomalies : PacketAnomalies} (h : anomalies.congestionExperienced = true)
    (data : InTransitData) : (data.ecnCapable = false ∧ NetworkLink.applyCongestion anomalies data = none) ∨
      (data.ecnCapable = true ∧ ∃ data', NetworkLink.applyCongestion anomalies data = some data' ∧
        data'.ecnCapable = false) := by
  rw [NetworkLink.applyCongestion, if_pos h, InTransitData.ecnCapable]
  rcases data.transmit.ecn with - | (- | - | -)
  · exact .inl ⟨by decide, by simp⟩
  · exact .inr ⟨by decide, _, if_pos (by decide), by simp [InTransitData.ecnCapable]⟩
  · exact .inr ⟨by decide, _, if_pos (by decide), by simp [InTransitData.ecnCapable]⟩
  · exact .inl ⟨by decide, if_neg (by decide)⟩

/-- The assertion on the ECN codepoint holds along a path exactly if the path applies no congestion mark, or a single
one to a packet with support for ECN. -/
theorem crossLinks_isSome_iff (path : List PacketAnomalies) (data : InTransitData) :
    (crossLinks path data).isSome ↔ congestionMarks path = 0 ∨ data.ecnCapable = true ∧ congestionMarks path = 1 := by
  induction path generalizing data with
  | nil => simp [crossLinks, congestionMarks]
  | cons anomalies path ih =>
    rw [crossLinks, congestionMarks, List.countP_cons, ← congestionMarks]
    cases hmark : anomalies.congestionExperienced with
    | false =>
      rw [applyCongestion_of_unmarked hmark, Option.bind_some, ih]
      simp
    | true =>
      rcases applyCongestion_of_marked hmark data with ⟨hcapable, hnone⟩ | ⟨hcapable, data', hdata', hcapable'⟩
      · rw [hnone, Option.bind_none]
        simp [hcapable]
      · rw [hdata', Option.bind_some, ih]
        simp [hcapable, hcapable']

/-- A path with two marks, and a run in which a packet without ECN support makes the task of a link panic. -/
theorem ecn_assertion_fails : crossLinks [⟨true, 0⟩, ⟨true, 0⟩] HostPair.firstPacket = none ∧
    ∃ net s packet, Reaches false (hostPair 8000000 1) [] net s ∧ packet.data.transmit.ecn = none ∧
      .sendPanicked 0 packet ∈ s.history ∧ s.sanityChecks 0 ∧ s.linkTasks 0 = .panicked := by
  refine ⟨by decide, ?_⟩
  obtain ⟨net, s, hreach, hs⟩ := exists_reaches_of_simulate (hostPair 8000000 1) []
    [.trySend 0 { HostPair.transmit with ecn := none } 1 (HostPair.draws 0), .nodeTask 0 HostPair.rolls, .linkTask 0 0]
    (fun _ s => s.history.any (fun
        | .sendPanicked 0 packet => packet.data.transmit.ecn = none
        | _ => false) && s.sanityChecks 0 && decide (s.linkTasks 0 = .panicked))
    (by decide +kernel)
  simp only [Bool.and_eq_true, decide_eq_true_eq, List.any_eq_true] at hs
  obtain ⟨⟨⟨o, ho, hpanicked⟩, hsane⟩, htask⟩ := hs
  split at hpanicked
  · rename_i packet
    exact ⟨net, s, packet, hreach, by simpa using hpanicked, ho, hsane, htask⟩
  · simp at hpanicked

/-! ### Anomalies in the log -/

/-- When, on which link, and what was sent, oldest first. -/
def State.sends (s : State) : List (Nat × LinkIx × OutgoingPacket) :=
  s.history.filterMap fun
    | .sent t j p => some (t, j, p)
    | _ => none

/-- The step records a congestion mark of the packet at the node. -/
def SimulationStepKind.marks (packetId : Uuid) (nodeId : String) : SimulationStepKind → Bool
  | .packetCongestionEvent s => s.packetId = packetId && s.nodeId = nodeId
  | _ => false

/-- The packets that the statistics of the nodes count as marked. -/
def SimulationStats.congestionExperienced (stats : SimulationStats) : Nat :=
  (stats.statsByNode.entries.map fun e => e.2.congestionExperienced.packets).sum

/-- Every anomaly of a packet that was sent is recorded. -/
structure AnomaliesRecorded (spec : NetworkSpec) (net : InMemoryNetwork) (s : State) : Prop where
  marks : ∀ t j p, (t, j, p) ∈ s.sends → p.anomalies.congestionExperienced = true →
    s.log.countP (fun step => step.kind.marks p.data.id (net.node p.srcNode).id) = 1
  stats : ∀ order v verified, SimulationVerifier.new order s.log spec = .ok v → v.verify = some (.ok verified) →
    verified.stats.congestionExperienced = s.sends.countP fun (_, _, p) => p.anomalies.congestionExperienced
  extraDelays : ∀ t j p, (t, j, p) ∈ s.sends → p.anomalies.extraDelay ≠ 0 →
    ∃ before after, s.log = before ++ ⟨t - net.simulationStart, .packetInTransit (p.inTransitStep net j)⟩ :: after ∧
      ∃ step ∈ before, step.kind = .packetExtraDelay
        { packetId := p.data.id, nodeId := (net.node p.srcNode).id, extraDelay := p.anomalies.extraDelay }

/-- The step records an anomaly of a link. -/
def SimulationStepKind.isAnomaly : SimulationStepKind → Bool
  | .packetCongestionEvent _ | .packetExtraDelay _ => true
  | _ => false

/-- No anomaly is ever recorded. -/
def NoAnomalies (s : State) : Prop := ∀ step ∈ s.log, step.kind.isAnomaly = false

namespace NoAnomalies
variable {net : InMemoryNetwork} {s s' : State} {K : SimulationStepKind → Prop}

theorem logs (h : NoAnomalies s) (hlogs : Logs net K s s') (hK : ∀ kind, K kind → kind.isAnomaly = false) :
    NoAnomalies s' := by
  intro step hstep
  cases hlogs with
  | same heq => exact h step (heq ▸ hstep)
  | step kind hkind heq =>
    rw [heq] at hstep
    rcases List.mem_append.1 hstep with hstep | hstep
    · exact h step hstep
    · rw [List.mem_singleton.1 hstep]
      exact hK kind hkind

theorem preserved (net : InMemoryNetwork) : Preserved net fun σ => NoAnomalies σ.state where
  effect _ _ he h := h.logs he.logs fun kind hkind => by cases kind <;> simp_all [SimulationStepKind.isForwarding,
    SimulationStepKind.isAnomaly]
  link _ _ _ _ he h := h.logs he.logs fun kind hkind => by
    rcases hkind with hkind | ⟨_, _, _, _, _, rfl⟩
    · cases kind <;> simp_all [SimulationStepKind.isForwarding, SimulationStepKind.isAnomaly]
    · rfl
  linkEvent s event h := h.logs (s.linkEvent_logs net event) fun kind hkind => by rw [hkind.1]; rfl
  nodeEvent s event h := h.logs (s.nodeEvent_logs net event) fun kind hkind => by rw [hkind.1]; rfl
  events _ _ h := h

end NoAnomalies

theorem SimulationVerifier.exists_of_mem_statsByNode {r : Replay} {e : (_ : String) × NodeStats}
    (h : e ∈ (simulationStats r).statsByNode.entries) : ∃ n, r.nodes.lookup e.1 = some n ∧ e.2 = n.stats := by
  have hfold : ∀ (entries : List ((_ : String) × ReplayedNode)) (stats : HashMap String NodeStats),
      e ∈ (entries.foldl (fun stats x => stats.insert x.1 x.2.stats) stats).entries →
      e ∈ stats.entries ∨ ∃ x ∈ entries, x.1 = e.1 ∧ e.2 = x.2.stats := by
    intro entries
    induction entries with
    | nil => exact fun stats h => .inl h
    | cons x entries ih =>
      intro stats h
      rcases ih _ h with hmem | ⟨y, hy, hkey, heq⟩
      · rw [AList.entries_insert] at hmem
        rcases List.mem_cons.1 hmem with rfl | hmem
        · exact .inr ⟨x, List.mem_cons_self .., rfl, rfl⟩
        · exact .inl ((List.kerase_sublist _ _).subset hmem)
      · exact .inr ⟨y, List.mem_cons_of_mem _ hy, hkey, heq⟩
  rcases hfold _ _ h with hempty | ⟨⟨id, n⟩, hx, hkey, heq⟩
  · simp at hempty
  · exact ⟨n, hkey ▸ AList.mem_lookup_iff.2 hx, heq⟩

theorem congestionExperienced_eq_zero {s : State} {order : List String} {spec : NetworkSpec} {v : SimulationVerifier}
    {verified : VerifiedSimulation} (hlog : NoAnomalies s) (hnew : SimulationVerifier.new order s.log spec = .ok v)
    (hverify : v.verify = some (.ok verified)) : verified.stats.congestionExperienced = 0 := by
  have htables := SimulationVerifier.new_tables hnew
  obtain ⟨r, ⟨hr, -⟩, hstats⟩ := SimulationVerifier.within_of_verify hverify
  have hcounts : SimulationVerifier.CountsMarks v.steps r :=
    (SimulationVerifier.run_ensures_countsMarks fun id n hn => by rw [((htables.nodes id n).1 hn).2]; rfl).result r hr
  have hnone : ∀ steps : List SimulationStep, (∀ step ∈ steps, step.kind.isAnomaly = false) → ∀ nodeId,
      SimulationVerifier.ecnPacketsAfter steps nodeId = {} := by
    intro steps hsteps nodeId
    induction steps using List.reverseRecOn with
    | nil => rfl
    | append_singleton steps step ih =>
      rw [SimulationVerifier.ecnPacketsAfter_snoc, ih fun x hx => hsteps x (List.mem_append_left _ hx)]
      have hstep := hsteps step (by simp)
      cases hkind : step.kind <;> simp_all [SimulationStepKind.isAnomaly, SimulationStepKind.congestion]
  have hsorted : ∀ step ∈ v.steps, step.kind.isAnomaly = false := by
    intro step hstep
    rw [htables.steps] at hstep
    exact hlog step ((List.perm_insertionSort _ _).mem_iff.1 hstep)
  rw [SimulationStats.congestionExperienced, hstats]
  refine List.sum_eq_zero fun packets hpackets => ?_
  obtain ⟨e, he, rfl⟩ := List.mem_map.1 hpackets
  obtain ⟨n, hn, heq⟩ := SimulationVerifier.exists_of_mem_statsByNode he
  have hecn : n.ecnPackets = {} := (hcounts _ n hn).trans (hnone _ hsorted _)
  rw [heq, ReplayedNode.stats, hecn]

/-- No packet that was sent has an anomaly. -/
def State.Undisturbed (s : State) : Prop :=
  ∀ t j p, (t, j, p) ∈ s.sends → p.anomalies.congestionExperienced = false ∧ p.anomalies.extraDelay = 0

/-- The log of a run records all anomalies of the packets sent exactly if there are none. -/
theorem anomaliesRecorded_iff {disableTimeWarping : Bool} {spec : NetworkSpec} {events : List NetworkEvent}
    {net : InMemoryNetwork} {s : State} (h : Reaches disableTimeWarping spec events net s) :
    AnomaliesRecorded spec net s ↔ s.Undisturbed := by
  have hlog : NoAnomalies s := (NoAnomalies.preserved net).reaches
    (fun now events _ => by simp [NoAnomalies, InMemoryNetwork.initialState]) h
  constructor
  · intro hrecorded t j p hsent
    refine ⟨?_, ?_⟩
    · cases hmark : p.anomalies.congestionExperienced with
      | false => rfl
      | true =>
        have hcount := hrecorded.marks t j p hsent hmark
        have hzero : s.log.countP (fun step => step.kind.marks p.data.id (net.node p.srcNode).id) = 0 := by
          refine List.countP_eq_zero.2 fun step hstep hmarks => ?_
          have hno := hlog step hstep
          cases hkind : step.kind <;> simp [hkind, SimulationStepKind.marks, SimulationStepKind.isAnomaly] at hmarks hno
        omega
    · by_contra hdelay
      obtain ⟨before, after, hsplit, step, hstep, hkind⟩ := hrecorded.extraDelays t j p hsent hdelay
      have hno := hlog step (by rw [hsplit]; exact List.mem_append_left _ hstep)
      simp [hkind, SimulationStepKind.isAnomaly] at hno
  · intro hnone
    refine ⟨fun t j p hsent hmark => ?_, fun order v verified hnew hverify => ?_, fun t j p hsent hdelay => ?_⟩
    · simp [(hnone t j p hsent).1] at hmark
    · rw [congestionExperienced_eq_zero hlog hnew hverify, eq_comm]
      refine List.countP_eq_zero.2 ?_
      rintro ⟨t, j, p⟩ hsent
      simp [(hnone t j p hsent).1]
    · exact absurd (hnone t j p hsent).2 hdelay

/-- The packet that was delivered had no anomaly. -/
theorem anomaliesRecorded_hostPair : ∃ net s, Reaches false (hostPair 8000000 0) [] net s ∧ s.sends.length = 1 ∧
    AnomaliesRecorded (hostPair 8000000 0) net s := by
  obtain ⟨net, s, hreach, hs⟩ := exists_reaches_of_simulate (hostPair 8000000 0) []
    (HostPair.sendFromA 1 ++ [.linkTask 0 0])
    (fun _ s => decide (s.sends.length = 1) &&
      s.sends.all fun (_, _, p) => !p.anomalies.congestionExperienced && p.anomalies.extraDelay = 0)
    (by decide +kernel)
  simp only [Bool.and_eq_true, decide_eq_true_eq, List.all_eq_true] at hs
  obtain ⟨hlen, hall⟩ := hs
  refine ⟨net, s, hreach, hlen, (anomaliesRecorded_iff hreach).2 fun t j p hsent => ?_⟩
  simpa using hall (t, j, p) hsent

/-- A packet is sent with a mark, and the log is verified with no mark in the statistics. -/
theorem mark_not_recorded : ∃ net s v verified, Reaches false (hostPair 8000000 1) [] net s ∧
    s.sends.countP (fun (_, _, p) => p.anomalies.congestionExperienced) = 1 ∧
    SimulationVerifier.new ["A", "B"] s.log (hostPair 8000000 1) = .ok v ∧ v.verify = some (.ok verified) ∧
    verified.stats.congestionExperienced = 0 ∧ ¬ AnomaliesRecorded (hostPair 8000000 1) net s := by
  obtain ⟨net, s, hreach, hs⟩ := exists_reaches_of_simulate (hostPair 8000000 1) []
    (HostPair.sendFromA 1 ++ [.linkTask 0 0])
    (fun _ s => decide (s.sends.countP (fun (_, _, p) => p.anomalies.congestionExperienced) = 1) &&
      SimulationVerifier.verifies (hostPair 8000000 1) ["A", "B"] s.log fun verified =>
        verified.stats.congestionExperienced = 0)
    (by decide +kernel)
  rw [Bool.and_eq_true, decide_eq_true_eq] at hs
  obtain ⟨hmarks, hverifies⟩ := hs
  obtain ⟨v, verified, hnew, hverify, hzero⟩ := SimulationVerifier.exists_verified _ _ _ _ hverifies
  have hzero : verified.stats.congestionExperienced = 0 := of_decide_eq_true hzero
  refine ⟨net, s, v, verified, hreach, hmarks, hnew, hverify, hzero, fun hrecorded => ?_⟩
  have := hrecorded.stats _ v verified hnew hverify
  omega

end QuicWorkbench
