import QuicWorkbench.Lib.Travel
import QuicWorkbench.Proofs.Whence

/-!
# What goes with a packet

A property of packets at nodes that survives waiting, crossing a link, being copied and being marked
(`Custody`) holds of every packet that the network hands to a node, if it holds of the packets that the
applications send: where the packet is (`InCustody.places`), and at every arrival in the log
(`InCustody.logged`). The packet ids play no part in this.
-/

namespace QuicWorkbench

/-- A link leads from an address of the one node to the other node. -/
def InMemoryNetwork.Linked (net : InMemoryNetwork) (i : NodeIx) (delay : Nat) (i' : NodeIx) : Prop :=
  ∃ j < net.links.length, (net.link j).delay = delay ∧ (net.link j).source ∈ (net.node i).addresses ∧
    net.nodesByAddr.lookup (net.link j).target = some i'

theorem InMemoryNetwork.lt_length_of_isSome (net : InMemoryNetwork) {i : NodeIx} (h : (net.node i).udpEndpoint.isSome) :
    i < net.nodes.length := by
  by_contra hlt
  rw [node, List.getD_eq_getElem?_getD, List.getElem?_eq_none (Nat.le_of_not_lt hlt)] at h
  simp [default] at h

theorem InMemoryNetwork.Tables.lt_length_of_travels {spec : NetworkSpec} {net : InMemoryNetwork} (htables : net.Tables spec)
    {i i' : NodeIx} {D : Nat} (h : Travels net.Linked i D i') (hi : i < net.nodes.length) : i' < net.nodes.length := by
  cases h with
  | refl => exact hi
  | tail _ hlinked =>
    obtain ⟨j, -, -, -, htarget⟩ := hlinked
    exact (htables.nodesByAddr _ _ htarget).1

/-- `N t i d`, which is said of the packet `d` at the node `i` by the time `t`, goes with the packet. -/
structure Custody (net : InMemoryNetwork) (N : Nat → NodeIx → InTransitData → Prop) : Prop where
  wait : ∀ t t' i d, N t i d → t ≤ t' → N t' i d
  cross : ∀ t t' i i' delay d, N t i d → net.Linked i delay i' → t + delay ≤ t' → N t' i' d
  copy : ∀ t i d uuid, N t i d → N t i { d with id := uuid, duplicate := true }
  mark : ∀ t i d ecn, N t i d → N t i { d with transmit := { d.transmit with ecn } }

/-- What a packet has at its place: on a link, what it had when it was sent at the node that sent it. -/
def Place.Keeps (net : InMemoryNetwork) (N : Nat → NodeIx → InTransitData → Prop) (now : Nat) (d : InTransitData) :
    Place → Prop
  | .created i | .duplicated i | .node i | .stay _ i => N now i d
  | .inbound i => N now i d ∧ (net.node i).udpEndpoint.any (·.addr = d.transmit.destination)
  | .transit j sent => ∃ i, (net.link j).source ∈ (net.node i).addresses ∧ N sent i d

/-- If the step records an arrival, the packet had `N` then and there. -/
def ArrivalKeeps (net : InMemoryNetwork) (N : Nat → NodeIx → InTransitData → Prop) (now : Nat) (step : SimulationStep) :
    Prop :=
  ∀ p, step.kind = .packetInNode p → ∃ i d t, p = State.packetInNodeStep net i d p.droppedOnArrival ∧ N t i d ∧
    t ≤ now ∧ step.relativeTime = t - net.simulationStart

structure InCustody (net : InMemoryNetwork) (N : Nat → NodeIx → InTransitData → Prop) (σ : Scene) : Prop where
  places : ∀ b p d, σ.At b p d → p.Keeps net N σ.state.now d
  delays : ∀ j, ∀ e ∈ (σ.state.links j).inTransit.queue, j < net.links.length ∧ (net.link j).delay ≤ e.delay
  arrived : ∀ j sent d, (.transit j sent, d) ∈ σ.held → j < net.links.length ∧ sent + (net.link j).delay ≤ σ.state.now
  logged : ∀ step ∈ σ.state.log, ArrivalKeeps net N σ.state.now step

namespace InCustody
variable {net : InMemoryNetwork} {N N' : Nat → NodeIx → InTransitData → Prop} {σ σ' : Scene} {s s' : State} {p : Place}
  {d : InTransitData} {i : NodeIx} {held hs : List (Place × InTransitData)}

theorem mono (hN : ∀ t i d, N t i d → N' t i d) (h : InCustody net N σ) : InCustody net N' σ where
  places b p d hd := by
    have := h.places b p d hd
    cases p with
    | inbound i => exact ⟨hN _ _ _ this.1, this.2⟩
    | transit j sent => exact this.imp fun i hi => ⟨hi.1, hN _ _ _ hi.2⟩
    | _ => exact hN _ _ _ this
  delays := h.delays
  arrived := h.arrived
  logged step hstep p hp := by
    obtain ⟨i, d, t, heq, ht⟩ := h.logged step hstep p hp
    exact ⟨i, d, t, heq, hN _ _ _ ht.1, ht.2⟩

theorem initial (net : InMemoryNetwork) (N : Nat → NodeIx → InTransitData → Prop) (now : Nat) (events : List NetworkEvent) :
    InCustody net N ⟨[], net.initialState now events⟩ := by
  refine ⟨?_, fun j e he => ?_, by simp, fun step hstep => by simp [InMemoryNetwork.initialState] at hstep⟩
  · rintro b p d (h | h | h | ⟨h, -⟩)
    · simp at h
    · simp [InMemoryNetwork.initialState, NetworkLink.new, InboundQueue.new] at h
    · simp [InMemoryNetwork.initialState, NodeState.new, InboundQueue.new] at h
    · simp [InMemoryNetwork.initialState] at h
  · simp [InMemoryNetwork.initialState, NetworkLink.new, InboundQueue.new] at he

variable (hN : Custody net N)
include hN

theorem keeps_mono {now now' : Nat} (h : p.Keeps net N now d) (hnow : now ≤ now') : p.Keeps net N now' d := by
  cases p with
  | inbound i => exact ⟨hN.wait _ _ _ _ h.1 hnow, h.2⟩
  | transit j sent => exact h
  | _ => exact hN.wait _ _ _ _ h hnow

theorem transfer (h : InCustody net N σ) (hnow : σ.state.now ≤ σ'.state.now)
    (hplaces : ∀ b p d, σ'.At b p d → (∃ b', σ.At b' p d) ∨ p.Keeps net N σ'.state.now d)
    (hdelays : ∀ j, ∀ e ∈ (σ'.state.links j).inTransit.queue, e ∈ (σ.state.links j).inTransit.queue ∨
      j < net.links.length ∧ (net.link j).delay ≤ e.delay)
    (harrived : ∀ j sent d, (.transit j sent, d) ∈ σ'.held → (.transit j sent, d) ∈ σ.held ∨
      j < net.links.length ∧ sent + (net.link j).delay ≤ σ'.state.now)
    (hlogged : ∀ step ∈ σ'.state.log, step ∈ σ.state.log ∨ ArrivalKeeps net N σ'.state.now step) : InCustody net N σ' where
  places b p d hd := by
    rcases hplaces b p d hd with ⟨b', hold⟩ | hnew
    · exact keeps_mono hN (h.places b' p d hold) hnow
    · exact hnew
  delays j e he := (hdelays j e he).elim (h.delays j e) id
  arrived j sent d hx := by
    rcases harrived j sent d hx with hold | hnew
    · obtain ⟨hj, hle⟩ := h.arrived j sent d hold
      exact ⟨hj, hle.trans hnow⟩
    · exact hnew
  logged step hstep := by
    rcases hlogged step hstep with hold | hnew
    · intro p hp
      obtain ⟨i, d, t, heq, ht, hle, htime⟩ := h.logged step hold p hp
      exact ⟨i, d, t, heq, ht, hle.trans hnow, htime⟩
    · exact hnew

theorem frame {held held' : List (Place × InTransitData)} (h : InCustody net N ⟨held, s⟩) (hq : NothingNew s s')
    (hnow : s'.now = s.now)
    (hheld : ∀ x ∈ held', x ∈ held ∨ x.1.Keeps net N s.now x.2 ∧ ∀ j sent, x.1 ≠ .transit j sent)
    (hlogged : ∀ step ∈ s'.log, step ∈ s.log ∨ ArrivalKeeps net N s.now step) : InCustody net N ⟨held', s'⟩ := by
  refine transfer hN h (Nat.le_of_eq hnow.symm) (fun b p d hd => ?_) (fun j e he => ?_) (fun j sent d hx => ?_)
    fun step hstep => ?_
  · cases b with
    | true =>
      cases hd with
      | held hx =>
        rcases hheld _ hx with hold | ⟨hnew, -⟩
        · exact .inl ⟨true, .held hold⟩
        · exact .inr (hnow ▸ hnew)
    | false => exact .inl ⟨false, hq.at_false hd⟩
  · exact .inl ((hq.inTransit j) ▸ he)
  · rcases hheld _ hx with hold | ⟨-, hne⟩
    · exact .inl hold
    · exact absurd rfl (hne j sent)
  · rw [show (Scene.mk held' s').state.now = s.now from hnow]
    exact hlogged step hstep

theorem record {kind : SimulationStepKind} {held' : List (Place × InTransitData)} (h : InCustody net N ⟨held, s⟩)
    (hheld : ∀ x ∈ held', x ∈ held ∨ x.1.Keeps net N s.now x.2 ∧ ∀ j sent, x.1 ≠ .transit j sent)
    (hkind : ArrivalKeeps net N s.now ⟨s.now - net.simulationStart, kind⟩) : InCustody net N ⟨held', s.record net kind⟩ := by
  refine frame hN h (.of_history (.inl rfl) (fun _ => rfl) (fun _ => rfl) (fun _ _ h => h) fun _ _ h => .copy h) rfl hheld
    fun step hstep => ?_
  rcases List.mem_append.1 hstep with hold | hnew
  · exact .inl hold
  · obtain rfl := List.mem_singleton.1 hnew
    exact .inr hkind

theorem enters (h : InCustody net N ⟨(p, d) :: hs, s⟩) (hp : p.Enters net s i) : N s.now i d := by
  have hkeeps := h.places _ _ _ (.held (List.mem_cons_self ..))
  cases hp with
  | created _ hhost => exact hkeeps
  | transit j sent _ hdown htarget =>
    obtain ⟨i₀, hsource, hsent⟩ := hkeeps
    obtain ⟨hj, harrived⟩ := h.arrived j sent d (List.mem_cons_self ..)
    exact hN.cross _ _ _ _ _ _ hsent ⟨j, hj, rfl, hsource, htarget⟩ harrived

omit hN in
theorem arrivalKeeps (hd : N s.now i d) (dropped : Bool) :
    ArrivalKeeps net N s.now ⟨s.now - net.simulationStart, .packetInNode (State.packetInNodeStep net i d dropped)⟩ := by
  intro p hp
  obtain rfl := SimulationStepKind.packetInNode.inj hp
  exact ⟨i, d, s.now, rfl, hd, Nat.le_refl _, rfl⟩

theorem accepted (h : InCustody net N ⟨(.node i, d) :: hs, s⟩) {k : Nat}
    (hhistory : s'.history = s.history ++ [.accepted k i d]) (hnow : s'.now = s.now) (hlog : s'.log = s.log)
    (hlinks : s'.links = s.links) (hinbound : ∀ i', (s'.nodes i').inbound = (s.nodes i').inbound) :
    InCustody net N ⟨hs, s'⟩ := by
  have hd : N s.now i d := h.places _ _ _ (.held (List.mem_cons_self ..))
  refine transfer hN h (Nat.le_of_eq hnow.symm) (fun b p d' hd' => ?_) (fun j e he => .inl ?_)
    (fun j sent d' hx => .inl (List.mem_cons_of_mem _ hx)) fun step hstep => .inl (hlog ▸ hstep)
  · rcases hd'.of_accepted hhistory hlinks hinbound with hold | ⟨rfl, rfl⟩
    · exact .inl ⟨b, hold.cons _⟩
    · exact .inr (hnow ▸ hd)
  · rw [show (Scene.mk hs s').state.links = s'.links from rfl, hlinks] at he
    exact he

theorem effect (h : InCustody net N σ) (he : Effect net σ σ')
    (hcreate : ∀ i d, (.created i, d) ∈ σ'.held → (.created i, d) ∈ σ.held ∨ N σ.state.now i d) : InCustody net N σ' := by
  cases he with
  | advance s duration =>
    refine transfer hN h (Nat.le_add_right ..) (fun b p d hd => .inl ?_) (fun j e he => .inl he) (by simp)
      fun step hstep => .inl hstep
    cases hd with
    | held hx => simp at hx
    | inTransit he => exact ⟨false, .inTransit he⟩
    | inbound he => exact ⟨false, .inbound he⟩
    | stay hacc hun => exact ⟨false, .stay hacc hun⟩
  | create hs s i endpoint transmit uuid hhost =>
    refine frame hN h (.of_history (.inl rfl) (fun _ => rfl) (fun _ => rfl) (fun _ _ h => h) fun _ _ h => .copy h) rfl
      (fun x hx => ?_) fun step hstep => .inl hstep
    rcases List.mem_cons.1 hx with rfl | hx
    · rcases hcreate i _ (List.mem_cons_self ..) with hold | hnew
      · exact .inl hold
      · exact .inr ⟨hnew, by simp⟩
    · exact .inl hx
  | abandon hs hs' s hsub => exact frame hN h (.refl s) rfl (fun x hx => .inl (hsub.subset hx)) fun step hstep => .inl hstep
  | dropOnArrival hs s p i d hp hdown =>
    exact record hN h (fun x hx => .inl (List.mem_cons_of_mem _ hx)) (arrivalKeeps (enters hN h hp) true)
  | enter hs s p i d hp hup =>
    have hd := enters hN h hp
    refine record hN h (fun x hx => ?_) (arrivalKeeps hd false)
    rcases List.mem_cons.1 hx with rfl | hx
    · exact .inr ⟨hd, by simp⟩
    · exact .inl (List.mem_cons_of_mem _ hx)
  | loseInTransit hs s j sent d hdown =>
    exact record hN h (fun x hx => .inl (List.mem_cons_of_mem _ hx)) fun p hp => by simp at hp
  | dropRandomly hs s i d =>
    exact record hN h (fun x hx => .inl (List.mem_cons_of_mem _ hx)) fun p hp => by simp at hp
  | dropBecauseBufferFull hs s i d hbuffer =>
    exact record hN h (fun x hx => .inl (List.mem_cons_of_mem _ hx)) fun p hp => by simp at hp
  | read hs s i d => exact record hN h (fun x hx => .inl (List.mem_cons_of_mem _ hx)) fun p hp => by simp at hp
  | duplicate hs s i d uuid =>
    have hd : N s.now i d := h.places _ _ _ (.held (List.mem_cons_self ..))
    refine frame hN h (.of_history (.inl rfl) (fun _ => rfl) (fun _ => rfl) (fun _ _ h => h) fun _ _ h => .copy h) rfl
      (fun x hx => ?_) fun step hstep => .inl hstep
    rcases List.mem_cons.1 hx with rfl | hx
    · exact .inl (List.mem_cons_self ..)
    · rcases List.mem_cons.1 hx with rfl | hx
      · exact .inr ⟨hN.copy _ _ _ _ hd, by simp⟩
      · exact .inl (List.mem_cons_of_mem _ hx)
  | introduce hs s i d =>
    have hd : N s.now i d := h.places _ _ _ (.held (List.mem_cons_self ..))
    refine record hN h (fun x hx => ?_) fun p hp => by simp at hp
    rcases List.mem_cons.1 hx with rfl | hx
    · exact .inr ⟨hd, by simp⟩
    · exact .inl (List.mem_cons_of_mem _ hx)
  | sendInbound hs s i d slot hhere =>
    have hd : N s.now i d := h.places _ _ _ (.held (List.mem_cons_self ..))
    refine transfer hN h (Nat.le_refl _) (fun b p d' hd' => ?_) (fun j e he => .inl he)
      (fun j sent d' hx => .inl (List.mem_cons_of_mem _ hx)) fun step hstep => .inl hstep
    rcases hd'.of_sendInbound with hold | ⟨rfl, rfl⟩
    · exact .inl ⟨b, hold.cons _⟩
    · exact .inr ⟨hd, hhere⟩
  | accept hs s i d buffer hbuffer htask =>
    exact accepted hN h rfl rfl rfl rfl fun i' => s.inbound_pushOutbound_accept i buffer d _ i'
  | acceptInVain hs s i d buffer hbuffer htask =>
    exact accepted hN h rfl rfl rfl rfl fun i' => s.inbound_accept i buffer d i'
  | takeInTransit hs s j q delivery batch htask hperm hdue =>
    have hq : ∀ j' e, e ∈ (((s.setInTransit j q).setForwarder j (.awaiting delivery)).links j').inTransit.queue →
        e ∈ (s.links j').inTransit.queue := fun j' e he => by
      by_cases hj : j' = j
      · subst hj
        refine hperm.mem_iff.2 (List.mem_append_right _ ?_)
        simpa [State.setInTransit, State.setForwarder, State.setLink] using he
      · simpa [State.setInTransit, State.setForwarder, State.setLink, hj] using he
    have hbatch : ∀ x ∈ batch.map (·.onLink j), ∃ e ∈ (s.links j).inTransit.queue, x = (.transit j e.sent, e.data) ∧
        e.arrivalTime ≤ s.now := fun x hx => by
      obtain ⟨e, he, rfl⟩ := List.mem_map.1 hx
      exact ⟨e, hperm.mem_iff.2 (List.mem_append_left _ he), rfl, hdue e he⟩
    refine transfer hN h (Nat.le_refl _) (fun b p d hd => .inl (hd.of_takeInTransit hperm))
      (fun j' e he => .inl (hq j' e he)) (fun j' sent d hx => ?_) fun step hstep => .inl hstep
    rcases List.mem_append.1 hx with hx | hx
    · obtain ⟨e, he, heq, hdue⟩ := hbatch _ hx
      obtain ⟨hplace, rfl⟩ := Prod.mk.inj heq
      obtain ⟨rfl, rfl⟩ := Place.transit.inj hplace
      obtain ⟨hj, hdelay⟩ := h.delays j' e he
      refine .inr ⟨hj, le_trans ?_ hdue⟩
      rw [PrioritizedInTransitData.arrivalTime]
      omega
    · exact .inl hx
  | takeInbound hs s i q delivery batch hperm =>
    refine transfer hN h (Nat.le_refl _) (fun b p d hd => .inl (hd.of_takeInbound hperm)) (fun j e he => .inl he)
      (fun j sent d hx => .inl ?_) fun step hstep => .inl hstep
    rcases List.mem_append.1 hx with hx | hx
    · obtain ⟨e, -, heq⟩ := List.mem_map.1 hx
      simp [PrioritizedInTransitData.atHost] at heq
    · exact hx
  | panicForwarder hs s j =>
    exact frame hN h (.of_history (.inl rfl) (fun _ => rfl) (fun _ => rfl) (fun _ _ h => h) fun _ _ h => .copy h) rfl
      (fun x hx => .inl hx) fun step hstep => .inl hstep
  | offer hs s i packet outbound links rolls htask hnext hlinks hall =>
    obtain ⟨hnow, -, hlog⟩ := State.pushCopies_rest net i packet links links rolls (s.takeOutbound i packet outbound links)
    exact frame hN h (.offer hnext) hnow (fun x hx => .inl hx) fun step hstep => .inl (hlog ▸ hstep)
  | panicOffer hs s i packet outbound links done rest j rolls htask hnext hlinks hsplit hpanicked =>
    obtain ⟨hnow, -, hlog⟩ := State.pushCopies_rest net i packet links done rolls (s.takeOutbound i packet outbound links)
    exact frame hN h ((NothingNew.offer hnext).trans (.endNodeTask _ i .panicked)) hnow (fun x hx => .inl hx)
      fun step hstep => .inl (hlog ▸ hstep)
  | endNodeTask hs s i task htask hend =>
    exact frame hN h (.endNodeTask s i task) rfl (fun x hx => .inl hx) fun step hstep => .inl hstep

theorem linkEffect {spec : NetworkSpec} (htables : net.Tables spec) (hstays : StaysInv net s) {j : LinkIx}
    (hj : j < net.links.length) (h : InCustody net N ⟨[], s⟩) (he : LinkEffect net j s s') : InCustody net N ⟨[], s'⟩ := by
  rcases he.moves with ⟨p, s₁, m, d', hp, hun, hsent, hnow, -, hlog⟩ | ⟨hq, hnow, hlog⟩
  · have hd : N s.now p.srcNode p.data := h.places _ _ _ (hp.at_stay hstays hun)
    obtain ⟨ecn, rfl⟩ := hsent.marked
    refine transfer hN h (Nat.le_of_eq hnow.symm) (fun b q d hd' => ?_) (fun j' e he => ?_) (by simp) fun step hstep => ?_
    · rcases hsent.atPlaces b q d hd' with hold | ⟨rfl, rfl⟩
      · exact .inl ⟨b, hold⟩
      · exact .inr ⟨p.srcNode, hp.source_mem htables hstays, hN.mark _ _ _ _ hd⟩
    · rcases hsent.queues j' e he with hold | ⟨rfl, rfl⟩
      · exact .inl hold
      · exact .inr ⟨hj, Nat.le_add_right ..⟩
    · rcases List.mem_append.1 (hlog ▸ hstep) with hold | hnew
      · exact .inl hold
      · obtain rfl := List.mem_singleton.1 hnew
        exact .inr fun q hq => by simp at hq
  · refine frame hN h hq hnow (by simp) fun step hstep => ?_
    rcases hlog with hlog | ⟨p, -, -, -, -, -, hlog⟩
    · exact .inl (hlog ▸ hstep)
    · rcases List.mem_append.1 (hlog ▸ hstep) with hold | hnew
      · exact .inl hold
      · obtain rfl := List.mem_singleton.1 hnew
        exact .inr fun q hq => by simp at hq

theorem processEvent (h : InCustody net N ⟨[], s⟩) (event : NetworkEvent) : InCustody net N ⟨[], s.processEvent net event⟩ := by
  have hgo : ∀ {s' : State} {K : SimulationStepKind → Prop}, State.EventFrame s s' → Logs net K s s' →
      (∀ kind p, K kind → kind ≠ .packetInNode p) → InCustody net N ⟨[], s'⟩ := by
    intro s' K hf hlogs hK
    refine frame hN h (.of_event hf) hf.now (by simp) fun step hstep => ?_
    cases hlogs with
    | same heq => exact .inl (heq ▸ hstep)
    | step kind hkind heq =>
      rcases List.mem_append.1 (heq ▸ hstep) with hold | hnew
      · exact .inl hold
      · obtain rfl := List.mem_singleton.1 hnew
        exact .inr fun p hp => absurd hp (hK kind p hkind)
  unfold State.processEvent
  cases event.kind with
  | link payload =>
    exact hgo (s.processLinkEvent_frame net payload) (s.linkEvent_logs net payload) fun kind p hkind => by simp [hkind.1]
  | node payload =>
    exact hgo (s.processNodeEvent_frame net payload) (s.nodeEvent_logs net payload) fun kind p hkind => by simp [hkind.1]

theorem step {spec : NetworkSpec} {a : Action} (htables : net.Tables spec) (hstays : StaysInv net s)
    (h : InCustody net N ⟨[], s⟩) (hstep : net.step s a = some s')
    (hsend : ∀ i transmit uuid draws endpoint, a = .trySend i transmit uuid draws →
      (net.node i).udpEndpoint = some endpoint → N s.now i (s.inTransitData net i endpoint transmit uuid)) :
    InCustody net N ⟨[], s'⟩ := by
  -- no packet is created in a chain of effects but the one of `try_send`
  have heffects : ∀ {σ σ' : Scene}, KeepingEffects net σ σ' → (∀ i d, (.created i, d) ∈ σ.held → N s.now i d) →
      σ.state.now = s.now → InCustody net N σ → InCustody net N σ' := by
    intro σ σ' hchain hcreated hnow h
    have hI : (∀ i d, (.created i, d) ∈ σ'.held → N s.now i d) ∧ σ'.state.now = s.now ∧ InCustody net N σ' := by
      refine Relation.ReflTransGen.preserves (I := fun σ : Scene => (∀ i d, (.created i, d) ∈ σ.held → N s.now i d) ∧
        σ.state.now = s.now ∧ InCustody net N σ) (fun σ σ' hkeeps hI => ?_) hchain ⟨hcreated, hnow, h⟩
      have huncreated := hkeeps.uncreated
      exact ⟨fun i d hmem => hI.1 i d (huncreated i d hmem), hkeeps.now.trans hI.2.1,
        effect hN hI.2.2 hkeeps.effect fun i d hmem => .inl (huncreated i d hmem)⟩
    exact hI.2.2
  cases a with
  | advance duration =>
    obtain rfl := Option.some.inj hstep
    exact effect hN h (.advance s duration) (by simp)
  | networkEvent =>
    rw [InMemoryNetwork.step] at hstep
    split at hstep
    · simp at hstep
    · rename_i event events hevents
      split_ifs at hstep
      obtain rfl := Option.some.inj hstep
      have h₁ : InCustody net N ⟨[], { s with events }⟩ :=
        frame hN h (.of_history (.inl rfl) (fun _ => rfl) (fun _ => rfl) (fun _ _ h => h) fun _ _ h => .copy h) rfl (by simp)
          fun step hstep => .inl hstep
      exact processEvent hN h₁ event
  | trySend i transmit uuid draws =>
    obtain ⟨endpoint, hhost, hchain⟩ := State.trySend_effects hstep
    have hd := hsend i transmit uuid draws endpoint rfl hhost
    have hcreated : ∀ i' d, (.created i', d) ∈ [(Place.created i, s.inTransitData net i endpoint transmit uuid)] →
        N s.now i' d := fun i' d hmem => by
      obtain ⟨hplace, rfl⟩ := Prod.mk.inj (List.mem_singleton.1 hmem)
      obtain rfl := Place.created.inj hplace
      exact hd
    refine heffects hchain hcreated rfl ?_
    exact effect hN h (.create [] s i endpoint transmit uuid hhost) fun i' d hmem => .inr (hcreated i' d hmem)
  | pollRecv i metaLen =>
    obtain ⟨rest, hchain, -⟩ := State.pollRecv_effects hstep
    have h' := heffects hchain (by simp) rfl h
    exact effect hN h' (.abandon rest [] s' (List.nil_sublist _)) (by simp)
  | nodeTask i rolls =>
    rw [InMemoryNetwork.step] at hstep
    split_ifs at hstep
    exact heffects (State.processBufferForNode_effects hstep) (by simp) rfl h
  | linkTask j slot =>
    rw [InMemoryNetwork.step] at hstep
    split_ifs at hstep with hj
    exact linkEffect hN htables hstays hj h (State.processLinkQueue_effect hstep)
  | forwarder j draws =>
    rw [InMemoryNetwork.step] at hstep
    split_ifs at hstep
    exact heffects (State.forwardPacketsFromLinkToNode_effects hstep) (by simp) rfl h

end InCustody
end QuicWorkbench
