import QuicWorkbench.Proofs.PeakUsage
import QuicWorkbench.Proofs.Topology

/-!
# What a log without errors guarantees

A log that is verified without errors is one in which packets travel as the network allows: over links that are
connected to the nodes and stay up, in no less than the delay, and through nodes that are up and have room.
-/

namespace QuicWorkbench

namespace SimulationVerifier
variable {spec : NetworkSpec} {steps : List SimulationStep} {order : List String} {v : SimulationVerifier}

theorem linkMetadataOf_lookup {ipToNode : HashMap IpAddr String} (links : List NetworkLinkSpec)
    {metadata metadata' : HashMap String LinkMetadata} (h : linkMetadataOf ipToNode links metadata = .ok metadata')
    {id : String} {m : LinkMetadata} (hm : metadata'.lookup id = some m) :
    metadata.lookup id = some m ∨ ∃ l ∈ links, l.id = id ∧ MetadataOf ipToNode l m := by
  induction links generalizing metadata with
  | nil =>
    obtain rfl := Except.ok.inj h
    exact .inl hm
  | cons l links ih =>
    rw [linkMetadataOf] at h
    split at h
    · simp at h
    · simp at h
    · rename_i source target htarget hsource
      rcases ih h with hold | ⟨l', hl', hid, hof⟩
      · by_cases heq : id = l.id
        · subst heq
          rw [AList.lookup_insert] at hold
          obtain rfl := Option.some.inj hold
          exact .inr ⟨l, List.mem_cons_self .., rfl, by assumption, by assumption, rfl, rfl⟩
        · rw [AList.lookup_insert_ne heq] at hold
          exact .inl hold
      · exact .inr ⟨l', List.mem_cons_of_mem _ hl', hid, hof⟩

theorem link_of_metadata (hnew : SimulationVerifier.new order steps spec = .ok v) {linkId : String} {m : LinkMetadata}
    (hm : v.linkMetadata.lookup linkId = some m) : ∃ l ∈ spec.links, l.id = linkId ∧ m.delay = l.delay ∧
      m.bandwidthBps = l.bandwidthBps ∧ (∃ n ∈ spec.nodes, n.id = m.sourceNodeId ∧ l.source ∈ n.addresses) ∧
      ∃ n ∈ spec.nodes, n.id = m.targetNodeId ∧ l.target ∈ n.addresses := by
  have hattached := ((exists_new_iff order steps spec).1 ⟨v, hnew⟩).2
  obtain ⟨ipToNode, hmap, metadata, hmetadata, rfl⟩ := new_eq_ok_iff.1 hnew
  have haddr := (mapNodes_ok _ hmap).2
  rcases linkMetadataOf_lookup _ hmetadata hm with hempty | ⟨l, hl, hid, hsource, htarget, hdelay, hbandwidth⟩
  · simp [AList.lookup_empty] at hempty
  · obtain ⟨⟨n, hn, ha⟩, n', hn', ha'⟩ := hattached l hl
    refine ⟨l, hl, hid, hdelay, hbandwidth, ⟨n, hn, ?_, ha⟩, n', hn', ?_, ha'⟩
    · exact Option.some.inj ((haddr n hn _ ha).symm.trans hsource)
    · exact Option.some.inj ((haddr n' hn' _ ha').symm.trans htarget)

end SimulationVerifier

/-! ### Links -/

/-- The packet is sent by `send` and received by `receive`, and it is in flight in between. -/
structure Flight (steps pre : List SimulationStep) (send : SimulationStep) (mid : List SimulationStep)
    (receive : SimulationStep) (s : PacketInTransit) (a : PacketInNode) : Prop where
  steps : pre ++ send :: mid ++ [receive] <+: steps
  send : send.kind = .packetInTransit s
  receive : receive.kind = .packetInNode a
  packetId : a.packetId = s.packetId
  between : ∀ step ∈ mid, step.kind.flight s.packetId = none

/-- The link of the flight connects the nodes, was up when the packet was sent and did not go down until it was
received, and the packet was in flight for its delay and the extra delay at least. -/
structure Rightful (spec : NetworkSpec) (pre : List SimulationStep) (send : SimulationStep) (mid : List SimulationStep)
    (receive : SimulationStep) (s : PacketInTransit) (a : PacketInNode) (l : NetworkLinkSpec) : Prop where
  source : ∃ n ∈ spec.nodes, n.id = s.nodeId ∧ l.source ∈ n.addresses
  target : ∃ n ∈ spec.nodes, n.id = a.nodeId ∧ l.target ∈ n.addresses
  up : linkStatusAfter pre s.linkId ≠ .down
  delay : send.relativeTime + l.delay + extraDelayAfter pre s.nodeId s.packetId ≤ receive.relativeTime
  stayedUp : ∀ step ∈ pre ++ send :: mid, step.kind.linkStatus s.linkId = some .down → step.relativeTime < send.relativeTime

namespace SimulationVerifier
variable {spec : NetworkSpec} {steps pre mid before : List SimulationStep} {send receive : SimulationStep} {order : List String}
  {v : SimulationVerifier} {r r' : Replay} {P : NonFatalError → Prop}

theorem lookup_flight_of_between {id : Uuid} (h : (v.replay v.start (pre ++ mid)).Within P r)
    (hbetween : ∀ step ∈ mid, step.kind.flight id = none) : ∃ r₀, (v.replay v.start pre).Within P r₀ ∧
      r.inFlightPackets.lookup id = r₀.inFlightPackets.lookup id := by
  induction mid using List.reverseRecOn generalizing r with
  | nil => exact ⟨r, by simpa using h, rfl⟩
  | append_singleton mid step ih =>
    rw [← List.append_assoc] at h
    obtain ⟨r₁, h₁, hlast⟩ := Tracked.within_fold_append.1 h
    obtain ⟨nodes, update, -, hkind⟩ := replayStep_within (Tracked.within_fold_singleton.1 hlast)
    obtain ⟨r₀, h₀, heq⟩ := ih h₁ fun step hstep => hbetween step (List.mem_append_left _ hstep)
    refine ⟨r₀, h₀, Eq.trans ?_ heq⟩
    exact (replayKind_flightStep hkind id).kept (hbetween step (by simp))

theorem CleanAfter.sent (htables : v.Tables spec steps) (h : v.CleanAfter (pre ++ [send]) r) {s : PacketInTransit}
    (hkind : send.kind = .packetInTransit s) : linkStatusAfter pre s.linkId = .up ∧
      ∃ m f, v.linkMetadata.lookup s.linkId = some m ∧ m.sourceNodeId = s.nodeId ∧
        r.inFlightPackets.lookup s.packetId = some f ∧ f.linkId = s.linkId ∧ f.sentAtRelative = send.relativeTime ∧
        f.extraDelay = extraDelayAfter pre s.nodeId s.packetId := by
  obtain ⟨r₀, r₁, -, -, -, hhistory, hreplayed⟩ := replay_snoc_history htables.new_node htables.new_link h
  rw [hkind] at hreplayed
  obtain ⟨n, p, n', m, l, l', usage, hn, hsent, hm, hsource, hl, hup, -, -, rfl⟩ := packetInTransit_within_iff.1 hreplayed
  obtain ⟨-, -, hp, -⟩ := ReplayedNode.packetSent_within_iff.1 hsent
  have hdelay := (hhistory.nodes _ n hn).extraDelay s.packetId
  rw [hp, Option.map_some, Option.getD_some] at hdelay
  have hstatus := (hhistory.links _ l hl).status
  refine ⟨hstatus ▸ by_contra fun hne => hup hne, m, _, hm, ?_, AList.lookup_insert _, rfl, rfl, hdelay⟩
  exact (by_contra fun hne => hsource hne : s.nodeId = m.sourceNodeId).symm

theorem CleanAfter.received (htables : v.Tables spec steps) (h : v.CleanAfter (before ++ [receive]) r) {a : PacketInNode}
    (hkind : receive.kind = .packetInNode a) {f : InFlightPacket}
    (hf : ∀ r₀, v.CleanAfter before r₀ → r₀.inFlightPackets.lookup a.packetId = some f) :
    ∃ m, v.linkMetadata.lookup f.linkId = some m ∧ m.targetNodeId = a.nodeId ∧
      f.sentAtRelative + m.delay + f.extraDelay ≤ receive.relativeTime ∧
      ∀ t ∈ lastDownAfter before f.linkId, t < f.sentAtRelative := by
  obtain ⟨r₀, r₁, h₀, hflights, -, hhistory, hreplayed⟩ := replay_snoc_history htables.new_node htables.new_link h
  rw [hkind] at hreplayed
  have hlookup : r₁.inFlightPackets.lookup a.packetId = some f := by rw [hflights, hf r₀ h₀]
  obtain ⟨m, l, n, n', hm, htarget, hle, hfast, hl, hdown, -⟩ := (packetInNode_within_iff_of_inFlight hlookup).1 hreplayed
  refine ⟨m, hm, (by_contra fun hne => htarget hne : a.nodeId = m.targetNodeId).symm, ?_, fun t ht => ?_⟩
  · have hslow := Nat.not_lt.1 hfast
    omega
  · rw [← (hhistory.links _ l hl).lastDown] at ht
    exact Nat.not_le.1 (hdown t ht)

end SimulationVerifier

/-- The last step of a kind is no earlier than any other, the steps being in order. -/
theorem exists_last_of_mem (C : SimulationStep → Prop) [DecidablePred C] {steps : List SimulationStep}
    (hsorted : steps.Pairwise fun a b => a.relativeTime ≤ b.relativeTime) {step : SimulationStep} (hstep : step ∈ steps)
    (hC : C step) :
    ∃ t ∈ steps.foldl (fun last step => if C step then some step.relativeTime else last) none, step.relativeTime ≤ t := by
  induction steps using List.reverseRecOn with
  | nil => simp at hstep
  | append_singleton steps last ih =>
    obtain ⟨hsteps, -, hlast⟩ := List.pairwise_append.1 hsorted
    rw [List.foldl_append, List.foldl_cons, List.foldl_nil]
    rcases List.mem_append.1 hstep with hmem | hmem
    · split_ifs
      · exact ⟨_, rfl, hlast step hmem last (by simp)⟩
      · exact ih hsteps hmem
    · obtain rfl := List.mem_singleton.1 hmem
      rw [if_pos hC]
      exact ⟨_, rfl, Nat.le_refl _⟩

/-- If a log is verified without errors, every packet that is received in flight was sent over a link that connects the
two nodes and was up, and has stayed up since, no less than its delays ago. -/
theorem flights_rightful {spec : NetworkSpec} {steps : List SimulationStep} {order : List String} {v : SimulationVerifier}
    {verified : VerifiedSimulation} (hnew : SimulationVerifier.new order steps spec = .ok v)
    (hv : v.verify = some (.ok verified)) (herrors : verified.nonFatalErrors = []) {pre mid : List SimulationStep}
    {send receive : SimulationStep} {s : PacketInTransit} {a : PacketInNode} (h : Flight v.steps pre send mid receive s a) :
    ∃ l ∈ spec.links, l.id = s.linkId ∧ Rightful spec pre send mid receive s a l := by
  have htables := SimulationVerifier.new_tables hnew
  obtain ⟨r, hr⟩ := SimulationVerifier.cleanAfter_of_verify hv herrors
  obtain ⟨r₃, h₃⟩ := hr.exists_before h.steps
  obtain ⟨r₂, h₂⟩ := h₃.exists_before (List.prefix_append (pre ++ send :: mid) [receive])
  have hsplit : pre ++ send :: mid = (pre ++ [send]) ++ mid := by simp
  rw [hsplit] at h₂
  obtain ⟨r₁, h₁, -⟩ := SimulationVerifier.lookup_flight_of_between h₂ h.between
  obtain ⟨hup, m, f, hm, hsource, hf, hlink, hsent, hdelay⟩ := SimulationVerifier.CleanAfter.sent htables h₁ h.send
  have hflying : ∀ r₀, v.CleanAfter (pre ++ send :: mid) r₀ → r₀.inFlightPackets.lookup a.packetId = some f := by
    intro r₀ h₀
    rw [hsplit] at h₀
    obtain ⟨r₁', h₁', heq⟩ := SimulationVerifier.lookup_flight_of_between h₀ h.between
    obtain rfl := h₁.unique h₁'
    rw [h.packetId, heq, hf]
  obtain ⟨m', hm', htarget, htime, hdowns⟩ := SimulationVerifier.CleanAfter.received htables h₃ h.receive hflying
  rw [hlink] at hm' hdowns
  obtain rfl := Option.some.inj (hm.symm.trans hm')
  obtain ⟨l, hl, hid, hldelay, -, hlsource, hltarget⟩ := SimulationVerifier.link_of_metadata hnew hm
  refine ⟨l, hl, hid, ?_, ?_, ?_, ?_, ?_⟩
  · rwa [hsource] at hlsource
  · rwa [htarget] at hltarget
  · simp [hup]
  · rw [← hldelay, ← hdelay, ← hsent]
    exact htime
  · intro step hstep hdown
    have hsorted : (pre ++ send :: mid).Pairwise fun a b => a.relativeTime ≤ b.relativeTime := by
      obtain ⟨post, hpost⟩ := h.steps
      have := htables.sorted
      rw [← hpost, List.append_assoc] at this
      exact (List.pairwise_append.1 this).1
    obtain ⟨t, ht, hle⟩ := exists_last_of_mem (fun step => step.kind.linkStatus s.linkId = some .down) hsorted hstep hdown
    have := hdowns t ht
    omega

def firstSend : PacketInTransit := { packetId := 1, nodeId := "A", linkId := "a1b" }

def firstArrival : PacketInNode :=
  { packetId := 1, packetNumber := 0, packetSizeBytes := 128, nodeId := "B", droppedOnArrival := false }

/-- A packet goes from host `A` to host `B`. -/
def oneFlight : List SimulationStep :=
  [createdAt "A" 1, { relativeTime := 0, kind := .packetInTransit firstSend },
    { relativeTime := Duration.fromMillis 5, kind := .packetInNode firstArrival }]

theorem exists_verified_oneFlight : ∃ v verified, SimulationVerifier.new ["A", "B"] oneFlight (hostPair 8000000 0) = .ok v ∧
    v.verify = some (.ok verified) ∧ verified.nonFatalErrors = [] ∧ v.steps = oneFlight := by
  obtain ⟨v, verified, hnew, hv, herrors⟩ := SimulationVerifier.exists_verified (hostPair 8000000 0) ["A", "B"] oneFlight
    (·.nonFatalErrors = []) (by decide +kernel)
  refine ⟨v, verified, hnew, hv, of_decide_eq_true herrors, ?_⟩
  rw [(SimulationVerifier.new_tables hnew).steps]
  decide +kernel

/-- The packet goes over a link from `A` to `B`. -/
theorem flights_rightful_oneFlight : ∃ v verified,
    SimulationVerifier.new ["A", "B"] oneFlight (hostPair 8000000 0) = .ok v ∧ v.verify = some (.ok verified) ∧
    verified.nonFatalErrors = [] ∧ ∃ pre send mid receive,
      Flight v.steps pre send mid receive firstSend firstArrival ∧ ∃ l ∈ (hostPair 8000000 0).links, l.id = "a1b" ∧
        Rightful (hostPair 8000000 0) pre send mid receive firstSend firstArrival l := by
  obtain ⟨v, verified, hnew, hv, herrors, hsteps⟩ := exists_verified_oneFlight
  have hflight : Flight v.steps [createdAt "A" 1] { relativeTime := 0, kind := .packetInTransit firstSend } []
      { relativeTime := Duration.fromMillis 5, kind := .packetInNode firstArrival } firstSend firstArrival := by
    refine ⟨?_, rfl, rfl, rfl, by simp⟩
    rw [hsteps]
    exact List.prefix_rfl
  exact ⟨v, verified, hnew, hv, herrors, _, _, _, _, hflight, flights_rightful hnew hv herrors hflight⟩

/-! ### Nodes -/

/-- Nodes send packets and take packets in while they are up, send no packets that have been in their buffers when
these were cleared, and their buffers have room for the packets in them at the end of every instant. -/
structure NodesRespected (spec : NetworkSpec) (steps : List SimulationStep) : Prop where
  sends : ∀ pre step s, pre ++ [step] <+: steps → step.kind = .packetInTransit s → nodeStatusAfter pre s.nodeId ≠ .down
  arrivals : ∀ pre step nodeId id size, pre ++ [step] <+: steps → bufferOpAt pre step.kind nodeId = .put id size →
    nodeStatusAfter pre nodeId ≠ .down
  clears : ∀ pre step s, pre ++ [step] <+: steps → step.kind = .packetInTransit s →
    ∃ arrivedAt, arrivalAfter pre s.nodeId s.packetId = some arrivedAt ∧
      ∀ clear ∈ pre, clear.kind.nodeId = some s.nodeId → clear.kind.clearsBuffer → clear.relativeTime ≤ arrivedAt
  room : ∀ before after, steps = before ++ after → SimulationVerifier.EndsInstant before after →
    ∀ nodeId n, spec.nodeOf nodeId = some n → residentBytes before nodeId ≤ n.bufferSizeBytes

namespace SimulationVerifier
variable {spec : NetworkSpec} {steps pre : List SimulationStep} {step : SimulationStep} {v : SimulationVerifier} {r r' : Replay}

theorem up_of_put {now : Nat} {kind : SimulationStepKind} (h : (v.replayKind r now kind).Clean r') {nodeId : String}
    (hid : kind.nodeId = some nodeId) {id : Uuid} {size : Nat}
    (hput : kind.bufferOp (fun id => (r.inFlightPackets.lookup id).isSome) = .put id size) :
    ∃ n, r.nodes.lookup nodeId = some n ∧ n.status ≠ .down := by
  cases kind with
  | packetInNode s =>
    obtain rfl := Option.some.inj hid
    cases hf : r.inFlightPackets.lookup s.packetId with
    | some f =>
      obtain ⟨m, l, n, n', -, -, -, -, -, -, hn, hreceived, -⟩ := (packetInNode_within_iff_of_inFlight hf).1 h
      rw [ReplayedNode.packetReceived_within_iff] at hreceived
      split_ifs at hreceived with hdropped
      · simp [SimulationStepKind.bufferOp, hdropped, hf] at hput
      · exact ⟨n, hn, fun hdown => (ReplayedNode.addPacketToBuffer_within_iff.1 hreceived).1 hdown⟩
    | none =>
      obtain ⟨n, n', -, hn, hadded, -⟩ := (packetInNode_within_iff_of_created hf).1 h
      exact ⟨n, hn, fun hdown => (ReplayedNode.addPacketToBuffer_within_iff.1 hadded).1 hdown⟩
  | packetDuplicated s =>
    obtain rfl := Option.some.inj hid
    obtain ⟨n, n', hn, hadded, -⟩ := packetDuplicated_within_iff.1 h
    exact ⟨n, hn, fun hdown => (ReplayedNode.addPacketToBuffer_within_iff.1 hadded).1 hdown⟩
  | _ => simp [SimulationStepKind.bufferOp] at hput

theorem CleanAfter.put (htables : v.Tables spec steps) (h : v.CleanAfter (pre ++ [step]) r) {nodeId : String} {id : Uuid}
    {size : Nat} (hput : bufferOpAt pre step.kind nodeId = .put id size) : nodeStatusAfter pre nodeId ≠ .down := by
  obtain ⟨r₀, r₁, -, -, -, hhistory, hreplayed⟩ := replay_snoc_history htables.new_node htables.new_link h
  unfold bufferOpAt at hput
  split_ifs at hput with hid
  rw [← show (fun id => (r₁.inFlightPackets.lookup id).isSome) = inFlightAfter pre from funext hhistory.flight] at hput
  obtain ⟨n, hn, hup⟩ := up_of_put hreplayed hid hput
  rwa [← (hhistory.nodes nodeId n hn).status]

theorem CleanAfter.sentBy (htables : v.Tables spec steps) (h : v.CleanAfter (pre ++ [step]) r) {s : PacketInTransit}
    (hkind : step.kind = .packetInTransit s) : nodeStatusAfter pre s.nodeId ≠ .down ∧
      ∃ arrivedAt, arrivalAfter pre s.nodeId s.packetId = some arrivedAt ∧
        ∀ t ∈ lastClearAfter pre s.nodeId, t ≤ arrivedAt := by
  obtain ⟨r₀, r₁, -, -, -, hhistory, hreplayed⟩ := replay_snoc_history htables.new_node htables.new_link h
  rw [hkind] at hreplayed
  obtain ⟨n, p, n', m, l, l', usage, hn, hsent, -⟩ := packetInTransit_within_iff.1 hreplayed
  obtain ⟨hup, hclear, hp, -⟩ := ReplayedNode.packetSent_within_iff.1 hsent
  have hnode := hhistory.nodes s.nodeId n hn
  have harrival := hnode.arrival s.packetId
  rw [hp, Option.map_some] at harrival
  refine ⟨hnode.status ▸ hup, p.arrivedAt, harrival.symm, fun t ht => ?_⟩
  rw [← hnode.lastBufferClear] at ht
  exact Nat.not_lt.1 (hclear t ht)

/-- If nothing is reported, no node ever exceeds its buffer. -/
theorem Peaks.fitUntil {P : NonFatalError → Prop} {order : List String} {nodes : HashMap String ReplayedNode}
    (h : Peaks spec P order (seenUsages spec steps) nodes) (hP : ∀ e, ¬ P e) : FitUntil spec order steps := by
  have hfront : ∀ front back, order = front ++ back → FitUntil spec front steps := by
    intro front
    induction front using List.reverseRecOn with
    | nil => simp [FitUntil]
    | append_singleton front nodeId ih =>
      intro back horder
      rw [List.append_assoc] at horder
      have hfit := ih _ horder
      refine fitUntil_append.2 ⟨hfit, fun id hid n hn b hb => ?_⟩
      obtain rfl := List.mem_singleton.1 hid
      refine Nat.not_lt.1 fun hlt => ?_
      rw [← seenUsages_of_fit hfit] at hb
      obtain ⟨usage, hreported⟩ := h.reported front id back horder n hn b hb hlt
      exact hP _ hreported
  exact hfront order [] (by simp)

end SimulationVerifier

/-- If a log is verified without errors, the nodes are up when they send and take in packets, keep their buffers cleared
and have room for what is in them. -/
theorem nodes_respected {spec : NetworkSpec} {steps : List SimulationStep} {order : List String} {v : SimulationVerifier}
    {verified : VerifiedSimulation} (hnew : SimulationVerifier.new order steps spec = .ok v) (horder : NodeOrder spec order)
    (hv : v.verify = some (.ok verified)) (herrors : verified.nonFatalErrors = []) : NodesRespected spec v.steps := by
  have htables := SimulationVerifier.new_tables hnew
  obtain ⟨r, hr⟩ := SimulationVerifier.cleanAfter_of_verify hv herrors
  constructor
  case sends =>
    intro pre step s hpre hkind
    obtain ⟨r₁, h₁⟩ := hr.exists_before hpre
    exact (h₁.sentBy htables hkind).1
  case arrivals =>
    intro pre step nodeId id size hpre hput
    obtain ⟨r₁, h₁⟩ := hr.exists_before hpre
    exact h₁.put htables hput
  case clears =>
    intro pre step s hpre hkind
    obtain ⟨r₁, h₁⟩ := hr.exists_before hpre
    obtain ⟨-, arrivedAt, harrival, hclears⟩ := h₁.sentBy htables hkind
    refine ⟨arrivedAt, harrival, fun clear hclear hid hclears' => ?_⟩
    have hsorted : pre.Pairwise fun a b => a.relativeTime ≤ b.relativeTime :=
      htables.sorted.sublist (((List.prefix_append pre [step]).trans hpre).sublist)
    obtain ⟨t, ht, hle⟩ := exists_last_of_mem (fun step => step.kind.nodeId = some s.nodeId ∧ step.kind.clearsBuffer)
      hsorted hclear ⟨hid, hclears'⟩
    exact hle.trans (hclears t ht)
  case room =>
    intro before after hsplit hends nodeId n hn
    obtain ⟨r', hr', -⟩ := SimulationVerifier.within_of_verify hv
    have hpeaks := SimulationVerifier.peaks_run (SimulationVerifier.new_fresh hnew horder) htables.sorted hr'
    rw [SimulationVerifier.new_nodeOrder hnew, herrors] at hpeaks
    have hfit := hpeaks.fitUntil fun e he => by simp at he
    have hid := (horder.mem_iff nodeId).2 (SimulationVerifier.id_mem_of_nodeOf hn)
    exact hfit nodeId hid n hn _ ⟨before, after, hsplit, hends, rfl⟩

/-- The hosts are up, and have room for the packet. -/
theorem nodes_respected_oneFlight : ∃ v verified,
    SimulationVerifier.new ["A", "B"] oneFlight (hostPair 8000000 0) = .ok v ∧ v.verify = some (.ok verified) ∧
    verified.nonFatalErrors = [] ∧ NodesRespected (hostPair 8000000 0) v.steps := by
  obtain ⟨v, verified, hnew, hv, herrors, -⟩ := exists_verified_oneFlight
  exact ⟨v, verified, hnew, hv, herrors, nodes_respected hnew hostPair_nodeOrder hv herrors⟩

end QuicWorkbench
