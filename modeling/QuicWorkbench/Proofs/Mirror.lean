import QuicWorkbench.Proofs.Effects
import QuicWorkbench.Proofs.Sound

/-!
# The replayed state mirrors the live one

To the verifier a packet is a token: its entry in the buffer of a node, or its entry among the packets in
flight. `Mirror` relates a live state to a replayed one: the replayed state holds exactly the given tokens, nodes
and links are in the state they are in live, and the replayed state is sound. Each kind of step is replayed in a
state that mirrors the live one, as long as the token is where the step says, and then only that token moves.
-/

namespace QuicWorkbench

/-- What the replayed state knows about a packet. -/
inductive Token
  | buffered (nodeId : String) (p : ReplayedPacket)
  | inFlight (f : InFlightPacket)
  deriving DecidableEq

/-- The replayed state holds the packet so. -/
def Replay.Has (r : Replay) (id : Uuid) : Token → Prop
  | .buffered nodeId p => ∃ n, r.nodes.lookup nodeId = some n ∧ n.packets.lookup id = some p
  | .inFlight f => r.inFlightPackets.lookup id = some f

theorem Replay.has_move {r r' : Replay} (n' : ReplayedNode) {id : Uuid} {nodeId : String} {n : ReplayedNode} {t' : Option Token}
    (hn : r.nodes.lookup nodeId = some n) (hnodes : r'.nodes = r.nodes.insert nodeId n')
    (hpackets : ∀ u, u ≠ id → n'.packets.lookup u = n.packets.lookup u)
    (hflights : ∀ u, u ≠ id → r'.inFlightPackets.lookup u = r.inFlightPackets.lookup u)
    (honly : ∀ a p, r.Has id (.buffered a p) → a = nodeId)
    (hbuffer : ∀ a p, t' = some (.buffered a p) ↔ a = nodeId ∧ n'.packets.lookup id = some p)
    (hflight : ∀ f, t' = some (.inFlight f) ↔ r'.inFlightPackets.lookup id = some f) (u : Uuid) (t : Token) :
    r'.Has u t ↔ if u = id then t' = some t else r.Has u t := by
  by_cases hu : u = id
  · subst hu
    rw [if_pos rfl]
    cases t with
    | inFlight f => exact (hflight f).symm
    | buffered a p =>
      rw [hbuffer, Has, hnodes]
      by_cases ha : a = nodeId
      · subst ha
        simp
      · rw [AList.lookup_insert_ne ha]
        constructor
        · exact fun hhas => absurd (honly a p hhas) ha
        · exact fun hhas => absurd hhas.1 ha
  · rw [if_neg hu]
    cases t with
    | inFlight f => rw [Has, Has, hflights u hu]
    | buffered a p =>
      rw [Has, Has, hnodes]
      by_cases ha : a = nodeId
      · subst ha
        simp [hn, hpackets u hu]
      · rw [AList.lookup_insert_ne ha]

/-! ### The links, by the log -/

/-- The status that the step gives the link. -/
def SimulationStepKind.linkStatus (linkId : String) : SimulationStepKind → Option UpdateLinkStatus
  | .networkEvent e => e.link.bind fun payload => if payload.linkId = linkId then payload.status else none
  | _ => none

/-- When the last of the steps that took the link down did. -/
def lastDownAfter (steps : List SimulationStep) (linkId : String) : Option Nat :=
  steps.foldl (fun lastDown step =>
    if step.kind.linkStatus linkId = some .down then some step.relativeTime else lastDown) none

theorem lastDownAfter_snoc (steps : List SimulationStep) (step : SimulationStep) (linkId : String) :
    lastDownAfter (steps ++ [step]) linkId =
      if step.kind.linkStatus linkId = some .down then some step.relativeTime else lastDownAfter steps linkId := by
  simp [lastDownAfter]

theorem lastDownAfter_snoc_of_none {steps : List SimulationStep} {step : SimulationStep} {linkId : String}
    (h : step.kind.linkStatus linkId = none) : lastDownAfter (steps ++ [step]) linkId = lastDownAfter steps linkId := by
  simp [lastDownAfter_snoc, h]

/-! ### What the verifier knows of the network -/

namespace SimulationVerifier

/-- The tables of the verifier are about the network. -/
structure Knows (v : SimulationVerifier) (net : InMemoryNetwork) : Prop where
  linkIds : ∀ j < net.links.length, ∀ j' < net.links.length, (net.link j).id = (net.link j').id → j = j'
  hosts : ∀ i < net.nodes.length, (net.node i).udpEndpoint.isSome → (net.node i).id ∈ v.hostNodes
  links : ∀ j < net.links.length, ∃ m, v.linkMetadata.lookup (net.link j).id = some m ∧ m.delay = (net.link j).delay ∧
    (∀ i < net.nodes.length, (net.link j).source ∈ (net.node i).addresses → m.sourceNodeId = (net.node i).id) ∧
    ∀ i < net.nodes.length, (net.link j).target ∈ (net.node i).addresses → m.targetNodeId = (net.node i).id

theorem knows_of_tables {spec : NetworkSpec} {net : InMemoryNetwork} {steps : List SimulationStep}
    {v : SimulationVerifier} (hnet : InMemoryNetwork.Tables spec net) (hv : v.Tables spec steps) : v.Knows net := by
  constructor
  case linkIds =>
    intro j hj j' hj' heq
    have h := (hnet.linksById (net.link j).id j).2 ⟨hj, rfl⟩
    rw [heq, (hnet.linksById (net.link j').id j').2 ⟨hj', rfl⟩] at h
    exact (Option.some.inj h).symm
  case hosts =>
    intro i hi hhost
    obtain ⟨n, hn, hof⟩ := hnet.of_node hi
    exact (hv.hostNodes _).2 ⟨n, hn, hof.host.1 hhost, hof.id.symm⟩
  case links =>
    intro j hj
    have hmem : net.link j ∈ spec.links := by
      rw [← hnet.links, InMemoryNetwork.link, List.getD_eq_getElem?_getD, List.getElem?_eq_getElem hj, Option.getD_some]
      exact List.getElem_mem hj
    obtain ⟨m, hlookup, hdelay, -, hsource, htarget⟩ := hv.linkMetadata hnet.linkIds (net.link j) hmem
    refine ⟨m, hlookup, hdelay, fun i hi ha => ?_, fun i hi ha => ?_⟩
    · obtain ⟨n, hn, hof⟩ := hnet.of_node hi
      rw [hof.id]
      exact hsource n hn (hof.addresses ▸ ha)
    · obtain ⟨n, hn, hof⟩ := hnet.of_node hi
      rw [hof.id]
      exact htarget n hn (hof.addresses ▸ ha)

end SimulationVerifier

/-! ### The relation -/

structure Mirror (net : InMemoryNetwork) (v : SimulationVerifier) (s : State) (tokens : Uuid → Option Token)
    (r : Replay) : Prop where
  sound : r.Sound v
  has : ∀ id t, r.Has id t ↔ tokens id = some t
  nodes : ∀ i < net.nodes.length, ∃ status, r.nodeState (net.node i).id =
      some (status, (s.nodes i).lastBufferClear.map (· - net.simulationStart)) ∧
    (net.IdUnique (net.node i).id → status = (s.nodes i).status.toUpdate)
  links : ∀ j < net.links.length, r.linkState (net.link j).id =
    some ((s.links j).status.toUpdate, lastDownAfter s.log (net.link j).id)

/-- The errors that do not depend on when a link went down or a buffer was cleared. -/
structure Allows (P : NonFatalError → Prop) : Prop where
  exceedsBufferSize : ∀ nodeId size usage, P (.nodeExceedsBufferSize nodeId size usage)
  downSend : ∀ nodeId id, P (.nodeDownPacketSend nodeId id)
  downReceive : ∀ nodeId id, P (.nodeDownPacketReceive nodeId id)
  exceedsBandwidth : ∀ nodeId linkId id max observed, P (.linkBandwidthExceeded nodeId linkId id max observed)

namespace Mirror
variable {net : InMemoryNetwork} {v : SimulationVerifier} {s s' : State} {tokens : Uuid → Option Token} {r r' : Replay}
  {P : NonFatalError → Prop} {id : Uuid} {i : NodeIx} {j : LinkIx} {t : Nat}

theorem node (h : Mirror net v s tokens r) (hi : i < net.nodes.length) :
    ∃ n, r.nodes.lookup (net.node i).id = some n ∧ (net.IdUnique (net.node i).id → n.status = (s.nodes i).status.toUpdate) ∧
      n.lastBufferClear = (s.nodes i).lastBufferClear.map (· - net.simulationStart) ∧ n.Sound := by
  obtain ⟨status, hstate, hown⟩ := h.nodes i hi
  obtain ⟨n, hn, hstate⟩ := Option.map_eq_some_iff.1 hstate
  obtain ⟨rfl, hclear⟩ := Prod.mk.inj hstate
  exact ⟨n, hn, hown, hclear, h.sound.nodes _ n hn⟩

theorem link (h : Mirror net v s tokens r) (hj : j < net.links.length) :
    ∃ l, r.links.lookup (net.link j).id = some l ∧ l.status = (s.links j).status.toUpdate ∧
      l.lastDownRelative = lastDownAfter s.log (net.link j).id ∧ l.Sound := by
  obtain ⟨l, hl, hstate⟩ := Option.map_eq_some_iff.1 (h.links j hj)
  obtain ⟨hstatus, hdown⟩ := Prod.mk.inj hstate
  exact ⟨l, hl, hstatus, hdown, h.sound.links _ l hl⟩

theorem frame (h : Mirror net v s tokens r) (hnodes : ∀ i, (s'.nodes i).status = (s.nodes i).status)
    (hclears : ∀ i, (s'.nodes i).lastBufferClear = (s.nodes i).lastBufferClear)
    (hlinks : ∀ j, (s'.links j).status = (s.links j).status)
    (hlog : ∀ linkId, lastDownAfter s'.log linkId = lastDownAfter s.log linkId) : Mirror net v s' tokens r where
  sound := h.sound
  has := h.has
  nodes i hi := by rw [hnodes, hclears]; exact h.nodes i hi
  links j hj := by rw [hlinks, hlog]; exact h.links j hj

theorem move (h : Mirror net v s tokens r) {t' : Option Token} (hsound : r'.Sound v)
    (hnodes : r'.nodeState = r.nodeState) (hlinks : r'.linkState = r.linkState)
    (hhas : ∀ u t, r'.Has u t ↔ if u = id then t' = some t else r.Has u t) :
    Mirror net v s (Function.update tokens id t') r' where
  sound := hsound
  has u t := by
    rw [hhas]
    by_cases hu : u = id
    · subst hu
      simp
    · rw [if_neg hu, h.has, Function.update_of_ne hu]
  nodes := by rw [hnodes]; exact h.nodes
  links := by rw [hlinks]; exact h.links

theorem usagesUpdated (h : Mirror net v s tokens r) {nodes : HashMap String ReplayedNode} {time : Nat}
    {update : Option Nat} (hnodes : SimulationVerifier.UsagesUpdated r.nodes nodes) :
    Mirror net v s tokens { r with nodes, lastStepTime := time, lastBufferUsageUpdate := update } := by
  refine ⟨h.sound.usagesUpdated hnodes, fun id t => ?_, fun i hi => ?_, h.links⟩
  · rw [← h.has]
    cases t with
    | inFlight f => rfl
    | buffered a p =>
      rcases hnodes a with ⟨hnone, hnone'⟩ | ⟨n, usage, hn, hm⟩
      · simp [Replay.Has, hnone, hnone']
      · simp [Replay.Has, hn, hm]
  · obtain ⟨status, hstate, hown⟩ := h.nodes i hi
    refine ⟨status, ?_, hown⟩
    rw [← hstate]
    rcases hnodes (net.node i).id with ⟨hnone, hnone'⟩ | ⟨n, usage, hn, hm⟩
    · simp [Replay.nodeState, hnone, hnone']
    · simp [Replay.nodeState, hn, hm]

/-! ### Steps -/

theorem lookup_eq_none (h : Mirror net v s tokens r) (hid : ∀ a p, tokens id ≠ some (.buffered a p)) {nodeId : String}
    {n : ReplayedNode} (hn : r.nodes.lookup nodeId = some n) : n.packets.lookup id = none := by
  cases hp : n.packets.lookup id with
  | none => rfl
  | some p => exact absurd ((h.has id (.buffered nodeId p)).1 ⟨n, hn, hp⟩) (hid nodeId p)

theorem add (h : Mirror net v s tokens r) (n' : ReplayedNode) (p : ReplayedPacket) {nodeId : String} {n : ReplayedNode}
    (hid : ∀ a p, tokens id ≠ some (.buffered a p)) (hn : r.nodes.lookup nodeId = some n)
    (hpackets : n'.packets = n.packets.insert id p) (husage : n'.bufferUsage = n.bufferUsage + p.sizeBytes)
    (hstatus : n'.status = n.status) (hclear : n'.lastBufferClear = n.lastBufferClear) (hnid : n'.id = n.id)
    {flights : HashMap Uuid InFlightPacket} (hflights : flights = r.inFlightPackets ∧ tokens id = none ∨
      flights = r.inFlightPackets.erase id) :
    Mirror net v s (Function.update tokens id (some (.buffered nodeId p)))
      { r with inFlightPackets := flights, nodes := r.nodes.insert nodeId n' } := by
  have hnone : flights.lookup id = none := by
    rcases hflights with ⟨rfl, htoken⟩ | rfl
    · cases hf : r.inFlightPackets.lookup id with
      | none => rfl
      | some f =>
        have := (h.has id (.inFlight f)).1 hf
        simp [htoken] at this
    · simp
  have hother : ∀ u, u ≠ id → flights.lookup u = r.inFlightPackets.lookup u := fun u hu => by
    rcases hflights with ⟨rfl, -⟩ | rfl
    · rfl
    · exact AList.lookup_erase_ne hu
  have hsound := (h.sound.nodes _ n hn).add (h.lookup_eq_none hid hn) hpackets husage
  have hinsert := h.sound.insert_node n' hn hsound hnid
  refine h.move ⟨hinsert.nodes, hinsert.links, hinsert.metadata, hinsert.ids⟩ (Replay.nodeState_insert r n' hn hstatus hclear) rfl
    (Replay.has_move n' hn rfl (fun u hu => ?_) hother (fun a q hq => ?_) (fun a q => ?_) fun f => ?_)
  · rw [hpackets, AList.lookup_insert_ne hu]
  · exact absurd ((h.has id (.buffered a q)).1 hq) (hid a q)
  · rw [hpackets, AList.lookup_insert]
    simp [eq_comm]
  · simp [hnone]

theorem remove (h : Mirror net v s tokens r) {nodeId : String} {n n' : ReplayedNode} {p : ReplayedPacket}
    (hid : tokens id = some (.buffered nodeId p)) (hn : r.nodes.lookup nodeId = some n)
    (hpackets : n'.packets = n.packets.erase id) (husage : n'.bufferUsage = n.bufferUsage - p.sizeBytes)
    (hstatus : n'.status = n.status) (hclear : n'.lastBufferClear = n.lastBufferClear) (hnid : n'.id = n.id) :
    Mirror net v s (Function.update tokens id none) { r with nodes := r.nodes.insert nodeId n' } := by
  have hp : n.packets.lookup id = some p := by
    obtain ⟨m, hm, hp⟩ := (h.has id _).2 hid
    rw [hn] at hm
    exact Option.some.inj hm ▸ hp
  have hsound := (h.sound.nodes _ n hn).remove hp hpackets husage
  refine h.move (h.sound.insert_node n' hn hsound hnid) (Replay.nodeState_insert r n' hn hstatus hclear) rfl
    (Replay.has_move n' hn rfl (fun u hu => ?_) (fun u hu => rfl) (fun a q hq => ?_) (fun a q => ?_) fun f => ?_)
  · rw [hpackets, AList.lookup_erase_ne hu]
  · have := (h.has id (.buffered a q)).1 hq
    rw [hid] at this
    injection this with this
    injection this with this
    exact this.symm
  · simp [hpackets]
  · have hne : ¬ r.inFlightPackets.lookup id = some f := fun hf => by
      have := (h.has id (.inFlight f)).1 hf
      simp [hid] at this
    simp [hne]

theorem lookup_of_token (h : Mirror net v s tokens r) {nodeId : String} {p : ReplayedPacket}
    (hid : tokens id = some (.buffered nodeId p)) : ∃ n, r.nodes.lookup nodeId = some n ∧
      n.packets.lookup id = some p ∧ p.sizeBytes ≤ n.bufferUsage := by
  obtain ⟨n, hn, hp⟩ := (h.has id _).2 hid
  exact ⟨n, hn, hp, (h.sound.nodes _ n hn).le_usage hp⟩

theorem packetCreated (h : Mirror net v s tokens r) (hk : v.Knows net) (hP : Allows P) (hi : i < net.nodes.length)
    (hhost : (net.node i).udpEndpoint.isSome) (hid : tokens id = none) (t number size : Nat) (dropped : Bool) :
    ∃ r', (v.packetInNode r t ⟨id, number, size, (net.node i).id, dropped⟩).Within P r' ∧
      Mirror net v s (Function.update tokens id (some (.buffered (net.node i).id ⟨t, size, 0⟩))) r' := by
  obtain ⟨n, hn, -⟩ := h.node hi
  have hflight : r.inFlightPackets.lookup id = none := by
    cases hf : r.inFlightPackets.lookup id with
    | none => rfl
    | some f =>
      have := (h.has id (.inFlight f)).1 hf
      simp [hid] at this
  have hnone : n.packets.lookup id = none := h.lookup_eq_none (by simp [hid]) hn
  let p : ReplayedPacket := ⟨t, size, 0⟩
  let n' : ReplayedNode := { n with packets := n.packets.insert id p, bufferUsage := n.bufferUsage + size }
  have hadd : (n.addPacketToBuffer id size t).Within P n' :=
    ReplayedNode.addPacketToBuffer_within_iff.2 ⟨fun _ => hP.downReceive .., hnone, rfl⟩
  refine ⟨{ r with nodes := r.nodes.insert (net.node i).id n' }, ?_, ?_⟩
  · exact (SimulationVerifier.packetInNode_within_iff_of_created hflight).2
      ⟨n, n', fun hnot => absurd (hk.hosts i hi hhost) hnot, hn, hadd, rfl⟩
  · exact h.add n' p (by simp [hid]) hn rfl rfl rfl rfl rfl (.inl ⟨rfl, hid⟩)

theorem packetReceived (h : Mirror net v s tokens r) (hk : v.Knows net) (hP : Allows P) (hi : i < net.nodes.length)
    (hj : j < net.links.length) (htarget : (net.link j).target ∈ (net.node i).addresses) {f : InFlightPacket}
    (hid : tokens id = some (.inFlight f)) (hlink : f.linkId = (net.link j).id)
    (htime : f.sentAtRelative + (net.link j).delay + f.extraDelay ≤ t)
    (hoffline : ∀ d, lastDownAfter s.log (net.link j).id = some d → f.sentAtRelative ≤ d →
      P (.offlinePacketReceive (net.node i).id (net.link j).id f.sentAtRelative d))
    (number size : Nat) {dropped : Bool} (hdropped : dropped = (s.nodes i).isDown)
    (hshared : ¬ net.IdUnique (net.node i).id → P (.nodeUpPacketDroppedOnArrival (net.node i).id id)) :
    ∃ r', (v.packetInNode r t ⟨id, number, size, (net.node i).id, dropped⟩).Within P r' ∧
      Mirror net v s (Function.update tokens id
        (if dropped then none else some (.buffered (net.node i).id ⟨t, size, 0⟩))) r' := by
  obtain ⟨n, hn, hstatus, -⟩ := h.node hi
  obtain ⟨l, hl, -, hdown, -⟩ := h.link hj
  obtain ⟨m, hm, hdelay, -, hid'⟩ := hk.links j hj
  have hflight : r.inFlightPackets.lookup id = some f := (h.has id (.inFlight f)).2 hid
  have hnone : n.packets.lookup id = none := h.lookup_eq_none (by simp [hid]) hn
  let s' : PacketInNode := ⟨id, number, size, (net.node i).id, dropped⟩
  -- all the checks of the transmission pass
  have hchecks : ∀ n', (n.packetReceived s' t).Within P n' → (v.packetInNode r t s').Within P
      { r with inFlightPackets := r.inFlightPackets.erase id, nodes := r.nodes.insert (net.node i).id n' } := by
    intro n' hn'
    refine (SimulationVerifier.packetInNode_within_iff_of_inFlight (s := s') hflight).2
      ⟨m, l, n, n', hlink ▸ hm, fun hne => absurd (hid' i hi htarget).symm hne, by omega, fun hfast => ?_, hlink ▸ hl,
        fun d hd hle => ?_, hn, hn', rfl⟩
    · omega
    · rw [hlink]
      exact hoffline d (hdown ▸ hd) hle
  cases dropped with
  | true =>
    have hnid : n.id = (net.node i).id := h.sound.ids _ n hn
    have hdownNode : net.IdUnique (net.node i).id → n.status = .down := fun hown => by
      rw [hstatus hown]
      cases hs : (s.nodes i).status with
      | up => simp [NodeState.isDown, hs] at hdropped
      | down upRx => rfl
    let n' : ReplayedNode := { n.trackReceived s' with droppedPacketsDown := n.droppedPacketsDown.trackOne size }
    have hn' : (n.packetReceived s' t).Within P n' :=
      ReplayedNode.packetReceived_within_iff.2 ⟨fun hup => hnid ▸ hshared fun hown => by simp [hdownNode hown] at hup, rfl⟩
    refine ⟨_, hchecks n' hn', ?_⟩
    have hinsert := h.sound.insert_node n' hn (h.sound.nodes _ n hn) rfl
    refine h.move ⟨hinsert.nodes, hinsert.links, hinsert.metadata, hinsert.ids⟩
      (Replay.nodeState_insert r n' hn rfl rfl) rfl (Replay.has_move n' hn rfl (fun u _ => rfl)
        (fun u hu => AList.lookup_erase_ne hu) (fun a q hq => ?_) (fun a q => ?_) fun f' => ?_)
    · have := (h.has id (.buffered a q)).1 hq
      simp [hid] at this
    · have hpackets : n'.packets.lookup id = none := hnone
      simp [hpackets]
    · simp
  | false =>
    let p : ReplayedPacket := ⟨t, size, 0⟩
    let n' : ReplayedNode := { n.trackReceived s' with
      packets := n.packets.insert id p, bufferUsage := n.bufferUsage + size }
    have hn' : (n.packetReceived s' t).Within P n' :=
      ReplayedNode.packetReceived_within_iff.2
        (ReplayedNode.addPacketToBuffer_within_iff.2 ⟨fun _ => hP.downReceive .., hnone, rfl⟩)
    refine ⟨_, hchecks n' hn', ?_⟩
    exact h.add n' p (by simp [hid]) hn rfl rfl rfl rfl rfl (.inr rfl)

theorem packetLostInTransit (h : Mirror net v s tokens r) {f : InFlightPacket} (hid : tokens id = some (.inFlight f))
    (linkId : String) : ∃ r', (SimulationVerifier.packetLostInTransit r ⟨id, linkId⟩).Within P r' ∧
      Mirror net v s (Function.update tokens id none) r' := by
  have hflight : r.inFlightPackets.lookup id = some f := (h.has id (.inFlight f)).2 hid
  refine ⟨_, SimulationVerifier.packetLostInTransit_within_iff.2 (by simp only [hflight]; rfl), ?_⟩
  refine h.move ⟨h.sound.nodes, h.sound.links, h.sound.metadata, h.sound.ids⟩ rfl rfl fun u t => ?_
  by_cases hu : u = id
  · subst hu
    rw [if_pos rfl]
    cases t with
    | inFlight f' => simp [Replay.Has]
    | buffered a p =>
      have hnot : ¬ r.Has u (.buffered a p) := fun hhas => by
        have := (h.has u _).1 hhas
        simp [hid] at this
      exact iff_of_false hnot (by simp)
  · rw [if_neg hu]
    cases t with
    | inFlight f' => simp [Replay.Has, AList.lookup_erase_ne hu]
    | buffered a p => rfl

theorem packetDropped (h : Mirror net v s tokens r) {nodeId : String} {p : ReplayedPacket}
    (hid : tokens id = some (.buffered nodeId p)) (reason : DropReason) :
    ∃ r', (SimulationVerifier.packetDropped r ⟨id, nodeId, reason⟩).Within P r' ∧
      Mirror net v s (Function.update tokens id none) r' := by
  obtain ⟨n, hn, hp, hle⟩ := h.lookup_of_token hid
  refine ⟨_, SimulationVerifier.packetDropped_within_iff.2
    ⟨n, _, hn, ReplayedNode.packetDropped_within_iff.2 ⟨p, hp, hle, rfl⟩, rfl⟩, ?_⟩
  cases reason <;> exact h.remove hid hn rfl rfl rfl rfl rfl

theorem packetDeliveredToApplication (h : Mirror net v s tokens r) {nodeId : String} {p : ReplayedPacket}
    (hid : tokens id = some (.buffered nodeId p)) (number size : Nat) :
    ∃ r', (SimulationVerifier.packetDeliveredToApplication r ⟨id, number, size, nodeId⟩).Within P r' ∧
      Mirror net v s (Function.update tokens id none) r' := by
  obtain ⟨n, hn, hp, hle⟩ := h.lookup_of_token hid
  refine ⟨_, SimulationVerifier.packetDeliveredToApplication_within_iff.2
    ⟨n, _, hn, ReplayedNode.packetDeliveredToAppLayer_within_iff.2 ⟨p, hp, hle, rfl⟩, rfl⟩, ?_⟩
  exact h.remove hid hn rfl rfl rfl rfl rfl

theorem packetDuplicated (h : Mirror net v s tokens r) (hP : Allows P) (hi : i < net.nodes.length)
    (hid : tokens id = none) (t number size : Nat) :
    ∃ r', (SimulationVerifier.packetDuplicated r t ⟨id, number, size, (net.node i).id⟩).Within P r' ∧
      Mirror net v s (Function.update tokens id (some (.buffered (net.node i).id ⟨t, size, 0⟩))) r' := by
  obtain ⟨n, hn, -⟩ := h.node hi
  have hnone : n.packets.lookup id = none := h.lookup_eq_none (by simp [hid]) hn
  let p : ReplayedPacket := ⟨t, size, 0⟩
  let n' : ReplayedNode := { n with
    duplicatedPackets := n.duplicatedPackets.trackOne size
    packets := n.packets.insert id p, bufferUsage := n.bufferUsage + size }
  have hadd : (n.packetDuplicated ⟨id, number, size, (net.node i).id⟩ t).Within P n' :=
    ReplayedNode.addPacketToBuffer_within_iff.2 ⟨fun _ => hP.downReceive .., hnone, rfl⟩
  refine ⟨_, SimulationVerifier.packetDuplicated_within_iff.2 ⟨n, n', hn, hadd, rfl⟩, ?_⟩
  exact h.add n' p (by simp [hid]) hn rfl rfl rfl rfl rfl (.inl ⟨rfl, hid⟩)

theorem packetInTransit (h : Mirror net v s tokens r) (hk : v.Knows net) (hP : Allows P) (hi : i < net.nodes.length)
    (hj : j < net.links.length) (hsource : (net.link j).source ∈ (net.node i).addresses)
    (hup : (s.links j).status = .up) {p : ReplayedPacket} (hid : tokens id = some (.buffered (net.node i).id p))
    (hsurvived : ∀ c, (s.nodes i).lastBufferClear = some c → p.arrivedAt < c - net.simulationStart →
      P (.packetSurvivedBufferCorruption (net.node i).id id)) (t : Nat) :
    ∃ r', (v.packetInTransit r t ⟨id, (net.node i).id, (net.link j).id⟩).Within P r' ∧
      Mirror net v s (Function.update tokens id
        (some (.inFlight ⟨p.sizeBytes, t, p.extraDelay, (net.link j).id⟩))) r' := by
  obtain ⟨n, hn, -, hclear, -⟩ := h.node hi
  obtain ⟨l, hl, hstatus, hdown, hlsound⟩ := h.link hj
  obtain ⟨m, hm, -, hid', -⟩ := hk.links j hj
  obtain ⟨l', usage, hsent, hlsound', hstatus', hdown'⟩ := hlsound.packetSent t p.sizeBytes m.bandwidthBps
  obtain ⟨n₁, hn₁, hp, hle⟩ := h.lookup_of_token hid
  obtain rfl : n₁ = n := Option.some.inj (hn₁.symm.trans hn)
  have hlup : l.status = .up := by rw [hstatus, hup]; rfl
  let n' : ReplayedNode := { n₁ with
    packets := n₁.packets.erase id, bufferUsage := n₁.bufferUsage - p.sizeBytes
    sentPackets := n₁.sentPackets.trackOne p.sizeBytes }
  have hn' : (n₁.packetSent id).Within P (p, n') := by
    refine ReplayedNode.packetSent_within_iff.2 ⟨fun _ => hP.downSend .., fun c hc hlt => ?_, hp, hle, rfl⟩
    rw [hclear] at hc
    obtain ⟨c', hc', rfl⟩ := Option.map_eq_some_iff.1 hc
    have hnid : n₁.id = (net.node i).id := h.sound.ids _ n₁ hn
    rw [hnid]
    exact hsurvived c' hc' hlt
  let f : InFlightPacket := ⟨p.sizeBytes, t, p.extraDelay, (net.link j).id⟩
  refine ⟨{ r with
    nodes := r.nodes.insert (net.node i).id n'
    links := r.links.insert (net.link j).id l'
    inFlightPackets := r.inFlightPackets.insert id f }, ?_, ?_⟩
  · exact SimulationVerifier.packetInTransit_within_iff.2 ⟨n₁, p, n', m, l, l', usage, hn, hn', hm,
      fun hne => absurd (hid' i hi hsource).symm hne, hl, fun hne => absurd hlup hne, hsent,
      fun _ => hP.exceedsBandwidth .., rfl⟩
  · have hinsert := h.sound.insert_node n' hn ((h.sound.nodes _ n₁ hn).remove hp rfl rfl) rfl
    refine h.move ⟨hinsert.nodes, fun linkId l₁ hl₁ => ?_, hinsert.metadata, hinsert.ids⟩
      (Replay.nodeState_insert r n' hn rfl rfl) (funext fun linkId => ?_)
      (Replay.has_move n' hn rfl (fun u hu => AList.lookup_erase_ne hu) (fun u hu => AList.lookup_insert_ne hu)
        (fun a q hq => ?_) (fun a q => ?_) fun f' => ?_)
    · by_cases hlink : linkId = (net.link j).id
      · subst hlink
        rw [AList.lookup_insert] at hl₁
        exact Option.some.inj hl₁ ▸ hlsound'
      · rw [AList.lookup_insert_ne hlink] at hl₁
        exact h.sound.links linkId l₁ hl₁
    · by_cases hlink : linkId = (net.link j).id
      · subst hlink
        simp [Replay.linkState, hl, hstatus', hdown']
      · simp [Replay.linkState, AList.lookup_insert_ne hlink]
    · have := (h.has id (.buffered a q)).1 hq
      rw [hid] at this
      injection this with this
      injection this with this
      exact this.symm
    · have hpackets : n'.packets.lookup id = none := AList.lookup_erase ..
      simp [hpackets]
    · simp [f, eq_comm]

theorem linkEvent (h : Mirror net v s tokens r) (hk : v.Knows net) (hj : j < net.links.length)
    {payload : LinkEventPayload} (hid : (net.link j).id = payload.linkId)
    (hlog : s'.log = s.log ++ [⟨t, .networkEvent { link := some payload, node := none }⟩])
    (hnodes : s'.nodes = s.nodes)
    (hlinks : ∀ j', (s'.links j').status.toUpdate =
      if j' = j then payload.status.getD (s.links j).status.toUpdate else (s.links j').status.toUpdate) :
    ∃ r', (SimulationVerifier.networkEvent r t { link := some payload, node := none }).Within P r' ∧
      Mirror net v s' tokens r' := by
  obtain ⟨l, hl, hstatus, hdown, hlsound⟩ := h.link hj
  have hstep : ∀ r', (SimulationVerifier.linkEvent r t payload).Within P r' →
      (SimulationVerifier.networkEvent r t { link := some payload, node := none }).Within P r' := fun r' hr' =>
    SimulationVerifier.networkEvent_within_iff.2 ⟨r', by simpa using hr', by simp, by simp, by simp⟩
  have hlast : ∀ linkId, lastDownAfter s'.log linkId =
      if linkId = payload.linkId ∧ payload.status = some .down then some t else lastDownAfter s.log linkId := fun linkId => by
    rw [hlog, lastDownAfter_snoc]
    by_cases hlink : linkId = payload.linkId
    · subst hlink
      simp [SimulationStepKind.linkStatus]
    · simp [SimulationStepKind.linkStatus, hlink, Ne.symm hlink]
  have hother : ∀ j' < net.links.length, j' ≠ j → (net.link j').id ≠ payload.linkId := fun j' hj' hne heq =>
    hne (hk.linkIds j' hj' j hj (heq.trans hid.symm))
  cases hpayload : payload.status with
  | none =>
    refine ⟨r, hstep r (SimulationVerifier.linkEvent_within_iff.2 (by rw [hpayload])), h.sound, h.has, ?_, ?_⟩
    · rw [hnodes]
      exact h.nodes
    · intro j' hj'
      rw [h.links j' hj', hlast, hlinks, hpayload]
      by_cases hjj : j' = j <;> simp [hjj]
  | some status =>
    refine ⟨_, hstep _ (SimulationVerifier.linkEvent_within_iff.2 (by rw [hpayload]; exact ⟨l, hid ▸ hl, rfl⟩)), ?_⟩
    refine ⟨⟨h.sound.nodes, fun linkId l₁ hl₁ => ?_, h.sound.metadata, h.sound.ids⟩, h.has, ?_, fun j' hj' => ?_⟩
    · by_cases hlink : linkId = payload.linkId
      · subst hlink
        rw [AList.lookup_insert] at hl₁
        rw [← Option.some.inj hl₁]
        cases status <;> exact hlsound
      · rw [AList.lookup_insert_ne hlink] at hl₁
        exact h.sound.links linkId l₁ hl₁
    · rw [hnodes]
      exact h.nodes
    · rw [hlast, hlinks, hpayload]
      by_cases hjj : j' = j
      · subst hjj
        have hstate : (Replay.linkState { r with links := r.links.insert payload.linkId (l.setStatus status t) }
            (net.link j').id) = some (status, if status = .down then some t else l.lastDownRelative) := by
          rw [hid]
          cases status <;> simp [Replay.linkState, ReplayedLink.setStatus]
        rw [hstate, hdown]
        cases status <;> simp [hid]
      · have hne := hother j' hj' hjj
        have hold := h.links j' hj'
        rw [if_neg hjj, if_neg (by simp [hne])]
        simpa [Replay.linkState, AList.lookup_insert_ne hne] using hold

theorem nodeEvent (h : Mirror net v s tokens r) (hi : i < net.nodes.length)
    {payload : NodeEventPayload} (hid : (net.node i).id = payload.nodeId) (hown : payload.clearBuffer → net.IdUnique payload.nodeId)
    (hlog : ∀ linkId, lastDownAfter s'.log linkId = lastDownAfter s.log linkId) (hlinks : s'.links = s.links)
    (hnodes : ∀ i', (s'.nodes i').status.toUpdate =
      if i' = i then payload.status.getD (s.nodes i).status.toUpdate else (s.nodes i').status.toUpdate)
    (hclears : ∀ i', (s'.nodes i').lastBufferClear =
      if i' = i ∧ payload.clearBuffer then some s.now else (s.nodes i').lastBufferClear)
    (ht : t = s.now - net.simulationStart) :
    ∃ r', (SimulationVerifier.networkEvent r t { link := none, node := some payload }).Within P r' ∧
      Mirror net v s' tokens r' := by
  subst ht
  obtain ⟨n, hn, hstatus, hclear, hnsound⟩ := h.node hi
  generalize ht : s.now - net.simulationStart = t
  have hhandle : (n.handleEvent payload t).packets = n.packets ∧ (n.handleEvent payload t).bufferUsage = n.bufferUsage ∧
      (n.handleEvent payload t).id = n.id ∧ (n.handleEvent payload t).status = payload.status.getD n.status ∧
      (n.handleEvent payload t).lastBufferClear = if payload.clearBuffer then some t else n.lastBufferClear := by
    obtain ⟨lastDown, heq⟩ := n.handleEvent_eq payload t
    rw [heq]
    exact ⟨rfl, rfl, rfl, rfl, rfl⟩
  obtain ⟨hpackets, husage, hnid, hnstatus, hnclear⟩ := hhandle
  have hsound : (n.handleEvent payload t).Sound := by
    rw [ReplayedNode.Sound, husage, hpackets]
    exact hnsound
  refine ⟨{ r with nodes := r.nodes.insert (net.node i).id (n.handleEvent payload t) }, ?_,
    h.sound.insert_node _ hn hsound hnid, fun u token => ?_, fun i' hi' => ?_, fun j hj => ?_⟩
  · refine SimulationVerifier.networkEvent_within_iff.2 ⟨r, by simp, by simp, ?_, by simp⟩
    rintro payload' hpayload
    obtain rfl := Option.some.inj hpayload
    rw [hid]
    exact SimulationVerifier.nodeEvent_within_iff.2 ⟨n, hid ▸ hn, rfl⟩
  · rw [← h.has]
    cases token with
    | inFlight f => rfl
    | buffered a p =>
      by_cases ha : a = (net.node i).id
      · subst ha
        simp [Replay.Has, hn, hpackets]
      · simp [Replay.Has, AList.lookup_insert_ne ha]
  · rw [hnodes, hclears]
    obtain ⟨status', hstate', hown'⟩ := h.nodes i' hi'
    by_cases hii : i' = i
    · subst hii
      refine ⟨payload.status.getD n.status, ?_, fun hi' => by simp [hstatus hi']⟩
      simp only [Replay.nodeState, AList.lookup_insert, Option.map_some, hnstatus, hnclear, hclear, true_and]
      cases payload.clearBuffer <;> simp [ht]
    · simp only [hii, false_and, ↓reduceIte]
      by_cases hidid : (net.node i').id = (net.node i).id
      · -- another node with the id, so the event does not clear the buffer
        have hkeep : payload.clearBuffer = false := by
          cases hc : payload.clearBuffer with
          | false => rfl
          | true => exact absurd (hown hc i' i hi' hi (hidid.trans hid) hid) hii
        refine ⟨payload.status.getD n.status, ?_, fun hunique => absurd (hunique i' i hi' hi rfl hidid.symm) hii⟩
        rw [Replay.nodeState, hidid, hn, Option.map_some] at hstate'
        obtain ⟨rfl, hclear'⟩ := Prod.mk.inj (Option.some.inj hstate')
        rw [Replay.nodeState, hidid, AList.lookup_insert, Option.map_some, hnstatus, hnclear, hkeep]
        simp [hclear']
      · refine ⟨status', ?_, hown'⟩
        simpa [Replay.nodeState, AList.lookup_insert_ne hidid] using hstate'
  · rw [hlinks, hlog]
    exact h.links j hj

end Mirror

/-! ### The log -/

/-- The log can be replayed, with errors that satisfy `P` only, to a state that mirrors the live one. -/
def Replayed (net : InMemoryNetwork) (v : SimulationVerifier) (P : NonFatalError → Prop) (s : State)
    (tokens : Uuid → Option Token) : Prop :=
  ∃ r, (v.replay v.start s.log).Within P r ∧ Mirror net v s tokens r

namespace Replayed
variable {net : InMemoryNetwork} {v : SimulationVerifier} {s s' : State} {tokens tokens' : Uuid → Option Token}
  {P : NonFatalError → Prop}

theorem frame (h : Replayed net v P s tokens) (hlog : s'.log = s.log)
    (hnodes : ∀ i, (s'.nodes i).status = (s.nodes i).status)
    (hclears : ∀ i, (s'.nodes i).lastBufferClear = (s.nodes i).lastBufferClear)
    (hlinks : ∀ j, (s'.links j).status = (s.links j).status) : Replayed net v P s' tokens := by
  obtain ⟨r, hr, hmirror⟩ := h
  exact ⟨r, hlog ▸ hr, hmirror.frame hnodes hclears hlinks fun linkId => by rw [hlog]⟩

theorem record (h : Replayed net v P s tokens) (hP : Allows P) {step : SimulationStep} (hlog : s'.log = s.log ++ [step])
    (hkind : ∀ r, Mirror net v s tokens r → ∃ r', (v.replayKind r step.relativeTime step.kind).Within P r' ∧
      Mirror net v s' tokens' r') : Replayed net v P s' tokens' := by
  obtain ⟨r, hr, hmirror⟩ := h
  obtain ⟨nodes, update, hnodes, hadvance⟩ :=
    SimulationVerifier.exists_advanceTime hP.exceedsBufferSize hmirror.sound step.relativeTime
  obtain ⟨r', hr', hmirror'⟩ := hkind _ (hmirror.usagesUpdated hnodes)
  refine ⟨r', ?_, hmirror'⟩
  rw [hlog]
  exact hr.fold_snoc (Tracked.within_bind_iff.2 ⟨_, hadvance, hr'⟩)

theorem verify (h : Replayed net v P s tokens) (hP : Allows P) (hv : v.steps = s.log) :
    ∃ verified, v.verify = some (.ok verified) ∧ ∀ e ∈ verified.nonFatalErrors, P e := by
  obtain ⟨r, hr, hmirror⟩ := h
  have hfinish : ∃ r', (v.finish r).Within P r' := by
    unfold SimulationVerifier.finish
    split_ifs
    · obtain ⟨nodes, -, hok⟩ := SimulationVerifier.exists_updateMaxBufferUsage hP.exceedsBufferSize hmirror.sound
      exact ⟨_, hok⟩
    · exact ⟨r, Tracked.within_pure_iff.2 rfl⟩
  obtain ⟨r', hr'⟩ := hfinish
  have hrun : v.run.Within P r' := by
    rw [← hv] at hr
    exact Tracked.within_bind_iff.2 ⟨r, hr, hr'⟩
  refine ⟨{ stats := SimulationVerifier.simulationStats r', nonFatalErrors := v.run.errors }, ?_, hrun.2⟩
  unfold SimulationVerifier.verify
  rw [hrun.1]

end Replayed

end QuicWorkbench
