import QuicWorkbench.Proofs.Replayable
import QuicWorkbench.Proofs.Sends

/-!
# Packets created while their host is down

Such a packet is recorded as dropped on arrival. The step is that of a packet which comes off a link to a node that is
down, but no packet with the id is in flight: the verifier takes it for a packet that the host created, puts it into
the host's buffer, where it stays, and counts no drop.
-/

namespace QuicWorkbench

/-! ### The ids of packets -/

/-- The packet is somewhere, or was accepted once. -/
inductive Scene.Has (σ : Scene) (d : InTransitData) : Prop
  | held (p : Place) (h : (p, d) ∈ σ.held)
  | accepted (k : Nat) (i : NodeIx) (h : .accepted k i d ∈ σ.state.history)
  | inTransit (j : LinkIx) (e : PrioritizedInTransitData) (h : e ∈ (σ.state.links j).inTransit.queue) (hd : e.data = d)
  | inbound (i : NodeIx) (e : PrioritizedInTransitData) (h : e ∈ (σ.state.nodes i).inbound.queue) (hd : e.data = d)

theorem Scene.Has.held_or {σ' : Scene} {d : InTransitData} (hd : σ'.Has d) (σ : Scene)
    (haccepted : ∀ k i, .accepted k i d ∈ σ'.state.history → .accepted k i d ∈ σ.state.history)
    (hinTransit : ∀ j, (σ'.state.links j).inTransit.queue ⊆ (σ.state.links j).inTransit.queue)
    (hinbound : ∀ i, (σ'.state.nodes i).inbound.queue ⊆ (σ.state.nodes i).inbound.queue) :
    (∃ p, (p, d) ∈ σ'.held) ∨ σ.Has d := by
  cases hd with
  | held p hp => exact .inl ⟨p, hp⟩
  | accepted k i hacc => exact .inr (.accepted k i (haccepted k i hacc))
  | inTransit j e he hd => exact .inr (.inTransit j e (hinTransit j he) hd)
  | inbound i e he hd => exact .inr (.inbound i e (hinbound i he) hd)

theorem Scene.Has.of_nothingNew {s s' : State} {held held' : List (Place × InTransitData)} {d : InTransitData}
    (hd : Has ⟨held', s'⟩ d) (h : NothingNew s s') (hheld : ∀ p, (p, d) ∈ held' → ∃ p', (p', d) ∈ held) :
    Has ⟨held, s⟩ d := by
  rcases hd.held_or ⟨held, s⟩ (fun k i => h.accepted k i d) (fun j => h.inTransit j ▸ List.Subset.refl _)
    (fun i => h.inbound i ▸ List.Subset.refl _) with ⟨p, hp⟩ | hhas
  · obtain ⟨p', hp'⟩ := hheld p hp
    exact .held p' hp'
  · exact hhas

theorem Scene.Has.of_record {s s' : State} {p : Place} {d d' : InTransitData} {h h' : List (Place × InTransitData)}
    (hd : Has ⟨h', s'⟩ d')
    (hrest : s'.nodes = s.nodes ∧ s'.links = s.links ∧ s'.linkTasks = s.linkTasks ∧ s'.history = s.history)
    (hheld : h' = h ∨ ∃ p', h' = (p', d) :: h) : Has ⟨(p, d) :: h, s⟩ d' := by
  obtain ⟨hnodes, hlinks, htasks, hhistory⟩ := hrest
  have hnew : NothingNew s s' := by
    refine .of_history (.inl hhistory) (by simp [hlinks]) (by simp [hnodes]) (by simp [hnodes]) fun j c hc => ?_
    rw [State.copies, hlinks, htasks] at hc
    exact .copy hc
  refine hd.of_nothingNew hnew fun p₁ hp₁ => ?_
  rcases hheld with rfl | ⟨p', rfl⟩
  · exact ⟨p₁, List.mem_cons_of_mem _ hp₁⟩
  · rcases List.mem_cons.1 hp₁ with heq | hp₁
    · obtain ⟨rfl, rfl⟩ := Prod.mk.inj heq
      exact ⟨p, List.mem_cons_self ..⟩
    · exact ⟨p₁, List.mem_cons_of_mem _ hp₁⟩

theorem Scene.Has.of_accept {s s' : State} {i : NodeIx} {d₀ d : InTransitData} {h : List (Place × InTransitData)} {k₀ : Nat}
    (hd : Has ⟨h, s'⟩ d) (hhistory : s'.history = s.history ++ [.accepted k₀ i d₀]) (hlinks : s'.links = s.links)
    (hinbound : ∀ i', (s'.nodes i').inbound = (s.nodes i').inbound) : Has ⟨(.node i, d₀) :: h, s⟩ d := by
  cases hd with
  | held p hp => exact .held p (List.mem_cons_of_mem _ hp)
  | accepted k i' hacc =>
    have hacc : .accepted k i' d ∈ s.history ++ [.accepted k₀ i d₀] := hhistory ▸ hacc
    rcases List.mem_append.1 hacc with hacc | hacc
    · exact .accepted k i' hacc
    · obtain ⟨-, -, rfl⟩ := by simpa using hacc
      exact .held (.node i) (List.mem_cons_self ..)
  | inTransit j e he hd => exact .inTransit j e (hlinks ▸ he) hd
  | inbound i' e he hd => exact .inbound i' e (hinbound i' ▸ he) hd

theorem Effect.has {net : InMemoryNetwork} {σ σ' : Scene} (he : Effect net σ σ') {d : InTransitData} (hd : σ'.Has d) :
    σ.Has d ∨ d.id ∈ σ'.state.generated := by
  cases he with
  | advance s duration =>
    exact .inl (hd.of_nothingNew (.of_history (.inl rfl) (fun _ => rfl) (fun _ => rfl) (fun _ _ h => h) fun _ _ h => .copy h)
      fun p hp => ⟨p, hp⟩)
  | abandon h h' s hsub => exact .inl (hd.of_nothingNew (.refl s) fun p hp => ⟨p, hsub.subset hp⟩)
  | dropOnArrival h s p i d => exact .inl (hd.of_record ⟨rfl, rfl, rfl, rfl⟩ (.inl rfl))
  | enter h s p i d => exact .inl (hd.of_record ⟨rfl, rfl, rfl, rfl⟩ (.inr ⟨_, rfl⟩))
  | loseInTransit h s j sent d => exact .inl (hd.of_record ⟨rfl, rfl, rfl, rfl⟩ (.inl rfl))
  | dropRandomly h s i d => exact .inl (hd.of_record ⟨rfl, rfl, rfl, rfl⟩ (.inl rfl))
  | introduce h s i d => exact .inl (hd.of_record ⟨rfl, rfl, rfl, rfl⟩ (.inr ⟨_, rfl⟩))
  | dropBecauseBufferFull h s i d => exact .inl (hd.of_record ⟨rfl, rfl, rfl, rfl⟩ (.inl rfl))
  | read h s i d => exact .inl (hd.of_record ⟨rfl, rfl, rfl, rfl⟩ (.inl rfl))
  | create h s i endpoint transmit uuid =>
    have hnew : uuid ∈ s.generated ++ [uuid] := by simp
    rcases hd.held_or ⟨h, s⟩ (fun k i hacc => hacc) (fun j => List.Subset.refl _) (fun i => List.Subset.refl _)
      with ⟨p, hp⟩ | hhas
    · rcases List.mem_cons.1 hp with heq | hp
      · obtain ⟨rfl, rfl⟩ := Prod.mk.inj heq
        exact .inr hnew
      · exact .inl (.held p hp)
    · exact .inl hhas
  | duplicate h s i d₀ uuid =>
    have hnew : uuid ∈ s.generated ++ [uuid] := by simp
    rcases hd.held_or ⟨(.node i, d₀) :: h, s⟩ (fun k i hacc => hacc) (fun j => List.Subset.refl _)
      (fun i => List.Subset.refl _) with ⟨p, hp⟩ | hhas
    · rcases List.mem_cons.1 hp with heq | hp
      · obtain ⟨rfl, rfl⟩ := Prod.mk.inj heq
        exact .inl (.held _ (List.mem_cons_self ..))
      · rcases List.mem_cons.1 hp with heq | hp
        · obtain ⟨rfl, rfl⟩ := Prod.mk.inj heq
          exact .inr hnew
        · exact .inl (.held p (List.mem_cons_of_mem _ hp))
    · exact .inl hhas
  | sendInbound h s i d₀ slot =>
    left
    cases hd with
    | held p hp => exact .held p (List.mem_cons_of_mem _ hp)
    | accepted k i hacc => exact .accepted k i hacc
    | inTransit j e he hd => exact .inTransit j e he hd
    | inbound i' e he hd =>
      by_cases hi : i' = i
      · subst hi
        have he : e ∈ MaxHeap.push slot ⟨d₀, s.now, 0⟩ (s.nodes i').inbound.queue := by
          simpa [State.sendInbound, State.setNode, InboundQueue.send] using he
        rcases MaxHeap.mem_push.1 he with rfl | he
        · exact .held (.node i') (by rw [← hd]; exact List.mem_cons_self ..)
        · exact .inbound i' e he hd
      · exact .inbound i' e (by simpa [State.sendInbound, State.setNode, hi] using he) hd
  | accept h s i d₀ buffer hbuffer htask =>
    exact .inl (hd.of_accept rfl rfl fun i' => s.inbound_pushOutbound_accept i buffer d₀ _ i')
  | acceptInVain h s i d₀ buffer hbuffer htask =>
    exact .inl (hd.of_accept rfl rfl fun i' => s.inbound_accept i buffer d₀ i')
  | takeInTransit h s j q delivery batch htask hperm hdue =>
    have hq : q.queue ⊆ (s.links j).inTransit.queue := fun e he => hperm.symm.subset (List.mem_append_right _ he)
    have hinTransit : ∀ j', (((s.setInTransit j q).setForwarder j (.awaiting delivery)).links j').inTransit.queue ⊆
        (s.links j').inTransit.queue := by
      intro j'
      by_cases hj : j' = j
      · subst hj
        simpa [State.setInTransit, State.setForwarder, State.setLink] using hq
      · simp [State.setInTransit, State.setForwarder, State.setLink, hj]
    rcases hd.held_or ⟨h, s⟩ (fun k i hacc => hacc) hinTransit (fun i => List.Subset.refl _) with ⟨p, hp⟩ | hhas
    · rcases List.mem_append.1 hp with hp | hp
      · obtain ⟨e, he, heq⟩ := List.mem_map.1 hp
        obtain ⟨rfl, rfl⟩ := Prod.mk.inj heq
        exact .inl (.inTransit j e (hperm.symm.subset (List.mem_append_left _ he)) rfl)
      · exact .inl (.held p hp)
    · exact .inl hhas
  | panicForwarder h s j =>
    rcases hd.held_or ⟨h, s⟩ (fun k i hacc => hacc) (fun j => List.Subset.refl _) (fun i => List.Subset.refl _)
      with ⟨p, hp⟩ | hhas
    · exact .inl (.held p hp)
    · exact .inl hhas
  | takeInbound h s i q delivery batch hperm =>
    have hq : q.queue ⊆ (s.nodes i).inbound.queue := fun e he => hperm.symm.subset (List.mem_append_right _ he)
    have hinbound : ∀ i', ((s.setNode i { s.nodes i with inbound := q }).nodes i').inbound.queue ⊆
        (s.nodes i').inbound.queue := by
      intro i'
      by_cases hi : i' = i
      · subst hi
        simpa [State.setNode] using hq
      · simp [State.setNode, hi]
    rcases hd.held_or ⟨h, s⟩ (fun k i hacc => hacc) (fun j => List.Subset.refl _) hinbound with ⟨p, hp⟩ | hhas
    · rcases List.mem_append.1 hp with hp | hp
      · obtain ⟨e, he, heq⟩ := List.mem_map.1 hp
        obtain ⟨rfl, rfl⟩ := Prod.mk.inj heq
        exact .inl (.inbound i e (hperm.symm.subset (List.mem_append_left _ he)) rfl)
      · exact .inl (.held p hp)
    · exact .inl hhas
  | offer h s i packet outbound links rolls htask hnext =>
    exact .inl (hd.of_nothingNew (.offer hnext) fun p hp => ⟨p, hp⟩)
  | panicOffer h s i packet outbound links done rest j rolls htask hnext =>
    exact .inl (hd.of_nothingNew ((NothingNew.offer hnext).trans (.endNodeTask _ i .panicked)) fun p hp => ⟨p, hp⟩)
  | endNodeTask h s i task => exact .inl (hd.of_nothingNew (.endNodeTask s i task) fun p hp => ⟨p, hp⟩)

theorem LinkEffect.has {net : InMemoryNetwork} {s s' : State} {j : LinkIx} (he : LinkEffect net j s s')
    (hstays : StaysInv net s) {d : InTransitData} (hd : Scene.Has ⟨[], s'⟩ d) : ∃ d', Scene.Has ⟨[], s⟩ d' ∧ d'.id = d.id := by
  have hinTransit : ∀ j' e, e ∈ (s'.links j').inTransit.queue → j' ≠ j → e ∈ (s.links j').inTransit.queue := by
    intro j' e hmem hj
    exact he.inTransit_of_ne hj ▸ hmem
  rcases he.sends with ⟨p, slot, hsend⟩ | ⟨hobserves, -, -⟩
  · obtain ⟨c, hcopies, -, -, hid, -⟩ := hsend.copy
    have hcopy : Scene.Has ⟨[], s⟩ c.data := .accepted _ _ (hstays.copy j c (hcopies ▸ List.mem_cons_self ..)).1
    cases hd with
    | held p hp => simp at hp
    | accepted k i hacc =>
      rw [hsend.history] at hacc
      rcases List.mem_append.1 hacc with hacc | hacc
      · exact ⟨d, .accepted k i hacc, rfl⟩
      · simp at hacc
    | inTransit j' e hmem hd =>
      by_cases hj : j' = j
      · subst hj
        rw [show (Scene.mk [] s').state.links j' = s'.links j' from rfl, hsend.inTransit] at hmem
        rcases MaxHeap.mem_push.1 hmem with rfl | hmem
        · exact ⟨c.data, hcopy, by rw [hid, ← hd]⟩
        · exact ⟨d, .inTransit j' e hmem hd, rfl⟩
      · exact ⟨d, .inTransit j' e (hinTransit j' e hmem hj) hd, rfl⟩
    | inbound i e hmem hd => exact ⟨d, .inbound i e (he.inbound i ▸ hmem) hd, rfl⟩
  · have hunsent : s'.history = s.history ∨ ∃ o : Observation, o.isSent = false ∧ s'.history = s.history ++ [o] := by
      rcases hobserves with heq | ⟨o, ho, -, -, heq⟩
      · exact .inl heq
      · exact .inr ⟨o, ho, heq⟩
    have hnew := he.nothingNew hunsent
    exact ⟨d, hd.of_nothingNew hnew fun p hp => by simp at hp, rfl⟩

/-- Every packet has an id that was generated. -/
structure KnownIds (σ : Scene) : Prop where
  has : ∀ d, σ.Has d → d.id ∈ σ.state.generated
  sent : ∀ step ∈ σ.state.log, ∀ s, step.kind = .packetInTransit s → s.packetId ∈ σ.state.generated

namespace KnownIds
variable {net : InMemoryNetwork} {σ σ' : Scene} {s s' : State}

theorem frame (h : KnownIds σ) (hgen : ∀ u ∈ σ.state.generated, u ∈ σ'.state.generated)
    (hhas : ∀ d, σ'.Has d → (∃ d', σ.Has d' ∧ d'.id = d.id) ∨ d.id ∈ σ'.state.generated)
    (hlogs : Logs net (fun kind => ∀ s, kind = .packetInTransit s → s.packetId ∈ σ.state.generated) σ.state σ'.state) :
    KnownIds σ' where
  has d hd := by
    rcases hhas d hd with ⟨d', hd', hid⟩ | hnew
    · exact hgen _ (hid ▸ h.has d' hd')
    · exact hnew
  sent step hstep s hs := by
    cases hlogs with
    | same heq => exact hgen _ (h.sent step (heq ▸ hstep) s hs)
    | step kind hkind heq =>
      rw [heq] at hstep
      rcases List.mem_append.1 hstep with hstep | hstep
      · exact hgen _ (h.sent step hstep s hs)
      · rw [List.mem_singleton.1 hstep] at hs
        exact hgen _ (hkind s hs)

theorem preserved (net : InMemoryNetwork) : Preserved net fun σ => StaysInv net σ.state ∧ KnownIds σ where
  effect σ σ' he h := by
    refine ⟨(StaysInv.preserved net).effect σ σ' he h.1, h.2.frame (fun u hu => he.generated.subset hu) (fun d hd => ?_)
      (he.logs.mono fun kind hkind s hs => by simp [hs, SimulationStepKind.isForwarding] at hkind)⟩
    exact (he.has hd).imp_left fun hd => ⟨d, hd, rfl⟩
  link j s s' hj he h := by
    refine ⟨h.1.linkEffect he, h.2.frame (fun u hu => he.generated ▸ hu) (fun d hd => .inl (he.has h.1 hd))
      (he.logs.mono fun kind hkind s₀ hs => ?_)⟩
    rcases hkind with hkind | ⟨p, p', s₁, hp, -, rfl⟩
    · simp [hs, SimulationStepKind.isForwarding] at hkind
    · obtain rfl := SimulationStepKind.packetInTransit.inj hs
      have hmem : p ∈ s.copies j := hp.copies ▸ List.mem_cons_self ..
      exact h.2.has p.data (.accepted _ _ (h.1.copy j p hmem).1)
  linkEvent s event h := by
    have hf := s.processLinkEvent_frame net event
    refine ⟨h.1.event hf, h.2.frame (fun u hu => hf.generated ▸ hu) (fun d hd => .inl ⟨d, ?_, rfl⟩)
      ((s.linkEvent_logs net event).mono fun kind hkind s₀ hs => by simp [hkind.1] at hs)⟩
    exact hd.of_nothingNew (.of_event hf) fun p hp => ⟨p, hp⟩
  nodeEvent s event h := by
    have hf := s.processNodeEvent_frame net event
    refine ⟨h.1.event hf, h.2.frame (fun u hu => hf.generated ▸ hu) (fun d hd => .inl ⟨d, ?_, rfl⟩)
      ((s.nodeEvent_logs net event).mono fun kind hkind s₀ hs => by simp [hkind.1] at hs)⟩
    exact hd.of_nothingNew (.of_event hf) fun p hp => ⟨p, hp⟩
  events s events h := by
    have hlogs : Logs net (fun kind => ∀ s₀, kind = .packetInTransit s₀ → s₀.packetId ∈ s.generated) s
        { s with events } := .same rfl
    refine ⟨{ h.1 with }, h.2.frame (fun u hu => hu) (fun d hd => .inl ⟨d, ?_, rfl⟩) hlogs⟩
    exact hd.of_nothingNew (.of_history (.inl rfl) (fun _ => rfl) (fun _ => rfl) (fun _ _ h => h) fun _ _ h => .copy h)
      fun p hp => ⟨p, hp⟩

theorem initial (net : InMemoryNetwork) (now : Nat) (events : List NetworkEvent) :
    KnownIds ⟨[], net.initialState now events⟩ where
  has d hd := by
    cases hd with
    | held p hp => simp at hp
    | accepted k i h => simp [InMemoryNetwork.initialState] at h
    | inTransit j e h => simp [InMemoryNetwork.initialState, NetworkLink.new, InboundQueue.new] at h
    | inbound i e h => simp [InMemoryNetwork.initialState, NodeState.new, InboundQueue.new] at h
  sent step hstep := by simp [InMemoryNetwork.initialState] at hstep

end KnownIds

/-! ### The replay of the step -/

theorem exists_sent_of_inFlightAfter {steps : List SimulationStep} {id : Uuid} (h : inFlightAfter steps id = true) :
    ∃ step ∈ steps, ∃ s, step.kind = .packetInTransit s ∧ s.packetId = id := by
  induction steps using List.reverseRecOn with
  | nil => simp [inFlightAfter] at h
  | append_singleton steps step ih =>
    rw [inFlightAfter_snoc] at h
    cases hflight : step.kind.flight id with
    | none =>
      obtain ⟨step', hstep', hs⟩ := ih (by simpa [hflight] using h)
      exact ⟨step', List.mem_append_left _ hstep', hs⟩
    | some b =>
      have hb : b = true := by simpa [hflight] using h
      refine ⟨step, by simp, ?_⟩
      cases hkind : step.kind <;> simp [hkind, hb, SimulationStepKind.flight] at hflight
      exact ⟨_, rfl, hflight⟩

/-- The step behind `before` is replayed as a drop: no reception by a node that is down is reported for the packet, the
node counts one more packet dropped on arrival, and its buffer usage stays as it is. -/
structure ReplayedAsDropped (v : SimulationVerifier) (before : List SimulationStep) (step : SimulationStep)
    (nodeId : String) (id : Uuid) : Prop where
  unreported : ¬ v.Reports (.nodeDownPacketReceive nodeId id)
  counted : ∃ r r' n n', (v.replay v.start before).result = .ok r ∧ (v.replayStep r step).result = .ok r' ∧
    r.nodes.lookup nodeId = some n ∧ r'.nodes.lookup nodeId = some n' ∧
    n'.droppedPacketsDown.packets = n.droppedPacketsDown.packets + 1 ∧ n'.bufferUsage = n.bufferUsage

/-- The replay of a packet that is not in flight adds it to the buffer of its node, dropped on arrival or not. -/
theorem SimulationVerifier.replayStep_of_created {v : SimulationVerifier} {r r' : Replay} {time : Nat} {s : PacketInNode}
    (hflight : r.inFlightPackets.lookup s.packetId = none)
    (h : (v.replayStep r ⟨time, .packetInNode s⟩).result = .ok r') : ∃ n n', r.nodes.lookup s.nodeId = some n ∧
      r'.nodes.lookup s.nodeId = some n' ∧ n'.bufferUsage = n.bufferUsage + s.packetSizeBytes ∧
      n'.droppedPacketsDown = n.droppedPacketsDown := by
  have hwithin : (v.replayStep r ⟨time, .packetInNode s⟩).Within (fun _ => True) r' := ⟨h, fun _ _ => trivial⟩
  obtain ⟨nodes, update, hnodes, hkind⟩ := replayStep_within hwithin
  have hcreated := (packetInNode_within_iff_of_created
    (r := { r with nodes, lastStepTime := time, lastBufferUsageUpdate := update }) (v := v) (s := s) hflight).1 hkind
  obtain ⟨m, n', -, hm, hadded, rfl⟩ := hcreated
  obtain ⟨-, -, rfl⟩ := ReplayedNode.addPacketToBuffer_within_iff.1 hadded
  rcases hnodes s.nodeId with ⟨-, hnone⟩ | ⟨n, usage, hn, hm'⟩
  · rw [show nodes.lookup s.nodeId = some m from hm] at hnone
    simp at hnone
  · obtain rfl := Option.some.inj (hm'.symm.trans hm)
    exact ⟨n, _, hn, AList.lookup_insert _, rfl, rfl⟩

theorem log_grows (net : InMemoryNetwork) (log : List SimulationStep) : Preserved net fun σ => log <+: σ.state.log where
  effect _ _ he h := h.trans he.logs.grows
  link _ _ _ _ he h := h.trans he.logs.grows
  linkEvent s event h := h.trans (s.linkEvent_logs net event).grows
  nodeEvent s event h := h.trans (s.nodeEvent_logs net event).grows
  events _ _ h := h

/-- A host that is down records the packet that its application sends, and nothing else happens to it. -/
theorem State.trySend_of_isDown {net : InMemoryNetwork} {s s' : State} {i : NodeIx} {transmit : OwnedTransmit} {uuid : Uuid}
    {draws : Draws} (hdown : (s.nodes i).isDown) (h : s.trySend net i transmit uuid draws = some s') :
    s'.log = s.log ++ [⟨s.now - net.simulationStart, .packetInNode
      ⟨uuid, s.nextTransmitNumber, transmit.packetSize, (net.node i).id, true⟩⟩] := by
  unfold trySend at h
  split at h
  · simp at h
  · split_ifs at h
    obtain rfl := Option.some.inj h
    rw [forward, if_pos (by exact hdown)]
    rfl

/-- In no run is such a packet replayed as a drop. -/
theorem created_while_down_not_dropped {disableTimeWarping : Bool} {spec : NetworkSpec} {events : List NetworkEvent}
    {net : InMemoryNetwork} {s s' s'' : State} (hreach : Reaches disableTimeWarping spec events net s) {i : NodeIx}
    {transmit : OwnedTransmit} {uuid : Uuid} {draws : Draws} (hdown : (s.nodes i).isDown)
    (hstep : net.step s (.trySend i transmit uuid draws) = some s') (hnew : uuid ∉ s.generated) {as : List Action}
    (hrun : net.machine.run s' as = some s'') {order : List String} {v : SimulationVerifier}
    (hv : SimulationVerifier.new order s''.log spec = .ok v) :
    ∃ step rest, v.steps = s.log ++ step :: rest ∧ step.kind = .packetInNode
        ⟨uuid, s.nextTransmitNumber, transmit.packetSize, (net.node i).id, true⟩ ∧
      ¬ ReplayedAsDropped v s.log step (net.node i).id uuid := by
  have hlog := State.trySend_of_isDown hdown hstep
  obtain ⟨rest, hrest⟩ : s'.log <+: s''.log := (log_grows net s'.log).run (s := s') hrun List.prefix_rfl
  have hsorted : LogInv net s'' := (LogInv.preserved net).run hrun ((LogInv.preserved net).step hstep hreach.logInv)
  have hsteps : v.steps = s''.log := by rw [(SimulationVerifier.new_tables hv).steps, hsorted.insertionSort_eq]
  have hknown : StaysInv net s ∧ KnownIds ⟨[], s⟩ := (KnownIds.preserved net).reaches
    (fun now events _ => ⟨.initial net now events, .initial net now events⟩) hreach
  refine ⟨_, rest, by rw [hsteps, ← hrest, hlog, List.append_assoc]; rfl, rfl, ?_⟩
  rintro ⟨-, r, r', n, n', hr, hr', hn, hn', -, husage⟩
  -- no packet with the id was ever sent
  have hflight : r.inFlightPackets.lookup uuid = none := by
    have hwithin : (v.replay v.start s.log).Within (fun _ => True) r := ⟨hr, fun _ _ => trivial⟩
    have hbefore : (r.inFlightPackets.lookup uuid).isSome = inFlightAfter s.log uuid :=
      SimulationVerifier.flight_replay hwithin
    cases hin : inFlightAfter s.log uuid with
    | false => simpa [hin] using hbefore
    | true =>
      obtain ⟨step, hmem, t, hkind, rfl⟩ := exists_sent_of_inFlightAfter hin
      exact absurd (hknown.2.sent step hmem t hkind) hnew
  obtain ⟨m, m', hm, hm', hadded, -⟩ := SimulationVerifier.replayStep_of_created hflight hr'
  obtain rfl : n = m := Option.some.inj (hn.symm.trans hm)
  obtain rfl : n' = m' := Option.some.inj (hn'.symm.trans hm')
  have hpos := transmit.packetSize_pos
  have hsize : n'.bufferUsage = n.bufferUsage + transmit.packetSize := hadded
  omega

namespace HostPair

/-- `A` is down until 5 ns. -/
def aStartsDown : List NetworkEvent := [nodeEvent 5 "A" (some .up) false]

end HostPair

/-- `A` creates a packet while it is down; the verifier reports it, and counts no drop. -/
theorem created_while_down_reported : ∃ net s v verified, Reaches false (hostPair 8000000 0) HostPair.aStartsDown net s ∧
    (s.log.map (·.kind)).contains (.packetInNode ⟨1, 0, 128, "A", true⟩) ∧
    SimulationVerifier.new ["A", "B"] s.log (hostPair 8000000 0) = .ok v ∧ v.verify = some (.ok verified) ∧
    .nodeDownPacketReceive "A" 1 ∈ verified.nonFatalErrors ∧
    (verified.stats.statsByNode.lookup "A").map (fun stats => (stats.droppedOnArrival.packets, stats.maxBufferUsage)) =
      some (0, 128) := by
  obtain ⟨net, s, hreach, hs⟩ := exists_reaches_of_simulate (hostPair 8000000 0) HostPair.aStartsDown
    [.trySend 0 HostPair.transmit 1 (HostPair.draws 0)]
    (fun _ s => (s.log.map (·.kind)).contains (.packetInNode ⟨1, 0, 128, "A", true⟩) &&
      SimulationVerifier.verifies (hostPair 8000000 0) ["A", "B"] s.log fun verified =>
        decide (.nodeDownPacketReceive "A" 1 ∈ verified.nonFatalErrors) &&
        decide ((verified.stats.statsByNode.lookup "A").map (fun stats => (stats.droppedOnArrival.packets, stats.maxBufferUsage)) =
          some (0, 128)))
    (by decide +kernel)
  rw [Bool.and_eq_true] at hs
  obtain ⟨hcontains, hverifies⟩ := hs
  obtain ⟨v, verified, hnew, hverify, hP⟩ := SimulationVerifier.exists_verified _ _ _ _ hverifies
  rw [Bool.and_eq_true, decide_eq_true_eq, decide_eq_true_eq] at hP
  exact ⟨net, s, v, verified, hreach, hcontains, hnew, hverify, hP.1, hP.2⟩

/-- The first packet that `A` creates. -/
theorem created_while_down_hostPair : ∃ net s s' v, Reaches false (hostPair 8000000 0) HostPair.aStartsDown net s ∧
    (s.nodes 0).isDown ∧ net.step s (.trySend 0 HostPair.transmit 1 (HostPair.draws 0)) = some s' ∧
    SimulationVerifier.new ["A", "B"] s'.log (hostPair 8000000 0) = .ok v ∧
    ∃ step rest, v.steps = s.log ++ step :: rest ∧ ¬ ReplayedAsDropped v s.log step (net.node 0).id 1 := by
  obtain ⟨net, s, hreach, hs⟩ := exists_reaches_of_simulate (hostPair 8000000 0) HostPair.aStartsDown []
    (fun net s => (s.nodes 0).isDown && decide (s.generated = []) &&
      (net.step s (.trySend 0 HostPair.transmit 1 (HostPair.draws 0))).any fun s' : State =>
        (SimulationVerifier.new ["A", "B"] s'.log (hostPair 8000000 0)).isOk)
    (by decide +kernel)
  simp only [Bool.and_eq_true, decide_eq_true_eq, Option.any_eq_true] at hs
  obtain ⟨⟨hdown, hgen⟩, s', hstep, hok⟩ := hs
  obtain ⟨v, hnew⟩ := Except.isOk_iff.1 hok
  obtain ⟨step, rest, hsteps, -, hnot⟩ :=
    created_while_down_not_dropped hreach hdown hstep (by simp [hgen]) (Machine.run_nil ..) hnew
  exact ⟨net, s, s', v, hreach, hdown, hstep, hnew, step, rest, hsteps, hnot⟩

end QuicWorkbench
