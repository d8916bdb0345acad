import QuicWorkbench.Proofs.Buffer
import QuicWorkbench.Proofs.Replayable
import QuicWorkbench.Proofs.Usage
import Mathlib.Algebra.Order.BigOperators.Group.List

/-!
# The occupancy of buffers

The verifier counts a packet in the buffer of a node from its arrival until it is sent, dropped, or read by the
application. The simulator reserves bytes for outbound packets only. Every packet in a replayed buffer is at the node live
(`Located`): in the hands of the running task, in the outbound buffer, or unread in the inbound queue.
-/

namespace QuicWorkbench

/-- The packet is at the node: the running task has it, it waits unread, or it is in the outbound buffer. -/
inductive Scene.Buffers (σ : Scene) (i : NodeIx) (d : InTransitData) : Prop
  | held {p : Place} (hp : p.atNode = some i) (h : (p, d) ∈ σ.held)
  | inbound {e : PrioritizedInTransitData} (hd : e.data = d) (h : e ∈ (σ.state.nodes i).inbound.queue)
  | outbound {k : Nat} (h : (k, d) ∈ resident i σ.state.history)

/-- The packets in the buffers of the replay are at their nodes. -/
def Located (net : InMemoryNetwork) (v : SimulationVerifier) (σ : Scene) : Prop :=
  ∀ r, (v.replay v.start σ.state.log).result = .ok r → ∀ nodeId id size, r.Buffers nodeId id size →
    ∃ i d, i < net.nodes.length ∧ (net.node i).id = nodeId ∧ d.id = id ∧ d.packetSize = size ∧ σ.Buffers i d

namespace Scene.Buffers
variable {σ σ' : Scene} {held : List (Place × InTransitData)} {s : State} {p : Place} {i : NodeIx} {d d' : InTransitData}

theorem mono (h : σ.Buffers i d) (hheld : ∀ x ∈ σ.held, x.1.atNode.isSome → x ∈ σ'.held)
    (hinbound : ∀ i, ∀ e ∈ (σ.state.nodes i).inbound.queue, e ∈ (σ'.state.nodes i).inbound.queue)
    (hresident : ∀ i, ∀ x ∈ resident i σ.state.history, x ∈ resident i σ'.state.history) : σ'.Buffers i d := by
  cases h with
  | held hp h => exact .held hp (hheld _ h (by simp [hp]))
  | inbound hd h => exact .inbound hd (hinbound i _ h)
  | outbound h => exact .outbound (hresident i _ h)

theorem of_cons (h : Buffers ⟨(p, d) :: held, s⟩ i d') : (p.atNode = some i ∧ d' = d) ∨ Buffers ⟨held, s⟩ i d' := by
  cases h with
  | held hp h =>
    rcases List.mem_cons.1 h with heq | h
    · obtain ⟨rfl, rfl⟩ := Prod.mk.inj heq
      exact .inl ⟨hp, rfl⟩
    · exact .inr (.held hp h)
  | inbound hd h => exact .inr (.inbound hd h)
  | outbound h => exact .inr (.outbound h)

end Scene.Buffers

namespace Located
variable {net : InMemoryNetwork} {v : SimulationVerifier} {σ σ' : Scene} {s s' : State} {held : List (Place × InTransitData)}
  {kind : SimulationStepKind} {t : Nat} {p : Place} {d : InTransitData}

theorem quiet (h : Located net v σ) (hlog : σ'.state.log = σ.state.log) (hhas : ∀ i d, σ.Buffers i d → σ'.Buffers i d) :
    Located net v σ' := by
  intro r hr nodeId id size hbuffers
  obtain ⟨i, d, hi, hnode, hid, hsize, hd⟩ := h r (hlog ▸ hr) nodeId id size hbuffers
  exact ⟨i, d, hi, hnode, hid, hsize, hhas i d hd⟩

theorem record (h : Located net v σ) (kind : SimulationStepKind) (hlog : σ'.state.log = σ.state.log ++ [⟨t, kind⟩])
    (hhas : ∀ i d, σ.Buffers i d → kind.takes = some ((net.node i).id, d.id) ∨ σ'.Buffers i d)
    (hbrings : ∀ r, (v.replay v.start σ.state.log).result = .ok r → ∀ nodeId id size,
      r.brings kind = some (nodeId, id, size) → ∃ i d, i < net.nodes.length ∧ (net.node i).id = nodeId ∧ d.id = id ∧
        d.packetSize = size ∧ σ'.Buffers i d) : Located net v σ' := by
  intro r' hr' nodeId id size hbuffers
  rw [hlog] at hr'
  obtain ⟨r, hr, hstep⟩ := v.replay_snoc_buffers hr'
  rcases hstep nodeId id size hbuffers with ⟨hold, hnot⟩ | hnew
  · obtain ⟨i, d, hi, rfl, rfl, hsize, hd⟩ := h r hr nodeId id size hold
    rcases hhas i d hd with htaken | hd'
    · exact absurd htaken hnot
    · exact ⟨i, d, hi, rfl, rfl, hsize, hd'⟩
  · exact hbrings r hr nodeId id size hnew

theorem arrive (h : Located net v ⟨(p, d) :: held, s⟩) {held' : List (Place × InTransitData)} (hp : p.atNode = none)
    (hsub : ∀ x ∈ held, x ∈ held')
    (hbrings : ∀ r, (v.replay v.start s.log).result = .ok r → ∀ nodeId id size, r.brings kind = some (nodeId, id, size) →
      ∃ i, i < net.nodes.length ∧ nodeId = (net.node i).id ∧ id = d.id ∧ size = d.packetSize ∧ (.node i, d) ∈ held') :
    Located net v ⟨held', s.record net kind⟩ := by
  refine h.record kind rfl (fun i d' hd' => .inr ?_) fun r hr nodeId id size hb => ?_
  · rcases hd'.of_cons with ⟨hi, -⟩ | hd'
    · simp [hp] at hi
    · exact hd'.mono (fun x hx _ => hsub x hx) (fun _ _ he => he) fun _ _ hx => hx
  · obtain ⟨i, hi, rfl, rfl, rfl, hmem⟩ := hbrings r hr nodeId id size hb
    exact ⟨i, d, hi, rfl, rfl, rfl, .held rfl hmem⟩

theorem finish (h : Located net v ⟨(p, d) :: held, s⟩) (hbrings : ∀ r : Replay, r.brings kind = none)
    (htakes : ∀ i, p.atNode = some i → kind.takes = some ((net.node i).id, d.id)) :
    Located net v ⟨held, s.record net kind⟩ := by
  refine h.record kind rfl (fun i d' hd' => ?_) fun r _ nodeId id size hb => ?_
  · rcases hd'.of_cons with ⟨hi, rfl⟩ | hd'
    · exact .inl (htakes i hi)
    · exact .inr (hd'.mono (fun _ hx _ => hx) (fun _ _ he => he) fun _ _ hx => hx)
  · simp [hbrings] at hb

end Located

/-! ### Effects -/

namespace Accounted
variable {net : InMemoryNetwork} {v : SimulationVerifier} {P : NonFatalError → Prop} {σ : Scene}

theorem lt_of_held (h : Accounted net v P σ) {i : NodeIx} {d : InTransitData} (hd : (.node i, d) ∈ σ.held) :
    i < net.nodes.length := by
  obtain ⟨w, hw, -⟩ := h
  obtain ⟨t, ht⟩ := hw.places _ _ _ (.held hd)
  exact hw.valid _ _ ht

theorem inFlight_of_held (h : Accounted net v P σ) {j : LinkIx} {sent : Nat} {d : InTransitData}
    (hd : (.transit j sent, d) ∈ σ.held) {r : Replay} (hr : (v.replay v.start σ.state.log).result = .ok r) :
    (r.inFlightPackets.lookup d.id).isSome := by
  obtain ⟨w, hw, r', hr', hmirror⟩ := h
  obtain ⟨t, ht⟩ := hw.places _ _ _ (.held hd)
  obtain rfl := Except.ok.inj (hr.symm.trans hr'.1)
  have htoken : w.tokens net d.id = some (.inFlight ⟨d.packetSize, sent - net.simulationStart, 0, (net.link j).id⟩) := by
    rw [Whereabouts.tokens, ht]
    rfl
  exact Option.isSome_iff_exists.2 ⟨_, (hmirror.has _ _).2 htoken⟩

end Accounted

theorem mem_resident_iff {i : NodeIx} {k : Nat} {d : InTransitData} {h : List Observation} :
    (k, d) ∈ resident i h ↔ .accepted k i d ∈ h ∧ k ∉ departedStays h := by
  rw [resident, List.mem_filter, mem_acceptedAt, decide_eq_true_eq]

namespace Located
variable {net : InMemoryNetwork} {v : SimulationVerifier} {P : NonFatalError → Prop} {σ σ' : Scene} {s s' : State}

theorem accept {i : NodeIx} {d : InTransitData} {held : List (Place × InTransitData)} {o : Observation}
    (h : Located net v ⟨(.node i, d) :: held, s⟩) (hstays : StaysInv net s) (ho : o = .accepted s.nextStay i d)
    (hlog : s'.log = s.log) (hhistory : s'.history = s.history ++ [o])
    (hinbound : ∀ i, (s'.nodes i).inbound = (s.nodes i).inbound) : Located net v ⟨held, s'⟩ := by
  have hresident : ∀ i', resident i' s'.history = resident i' s.history ++ if i = i' then [(s.nextStay, d)] else [] :=
    fun i' => by rw [hhistory, ho, resident_accepted hstays.nextStay_not_departed]
  refine h.quiet hlog fun i' d' hd' => ?_
  rcases hd'.of_cons with ⟨hi, rfl⟩ | hd'
  · obtain rfl := Option.some.inj hi
    exact .outbound (k := s.nextStay) (by simp [hresident])
  · refine hd'.mono (fun _ hx _ => hx) (fun i'' e he => ?_) fun i'' x hx => ?_
    · exact (hinbound i'').symm ▸ he
    · exact (hresident i'').symm ▸ List.mem_append_left _ hx

theorem offered (h : Located net v σ) (packet : BufferedPacket) (links : List LinkIx) (hheld : σ'.held = σ.held)
    (hlog : σ'.state.log = σ.state.log) (hhistory : σ'.state.history = σ.state.history ++ [.offered packet.stay links])
    (hinbound : ∀ i, (σ'.state.nodes i).inbound.queue = (σ.state.nodes i).inbound.queue) : Located net v σ' := by
  refine h.quiet hlog fun i d hd => hd.mono (fun _ hx _ => hheld ▸ hx) (fun i e he => hinbound i ▸ he) fun i x hx => ?_
  rw [hhistory, resident_other rfl rfl]
  exact hx

theorem keeps (h : Located net v σ) (hstays : StaysInv net σ.state) (hacc : Accounted net v P σ)
    (hacc' : Accounted net v P σ') (hup : ∀ i d, (.created i, d) ∈ σ.held → (σ.state.nodes i).isDown = false)
    (he : Keeps net σ σ') : Located net v σ' := by
  obtain ⟨he, -, hkept, -⟩ := he
  cases he with
  | advance s duration => exact h.quiet rfl fun i d hd => hd.mono (fun _ hx _ => hx) (fun _ _ he => he) fun _ _ hx => hx
  | create h' s i endpoint transmit uuid hhost =>
    exact h.quiet rfl fun i d hd =>
      hd.mono (fun _ hx _ => List.mem_cons_of_mem _ hx) (fun _ _ he => he) fun _ _ hx => hx
  | abandon h' h'' s hsub =>
    exact h.quiet rfl fun i d hd => hd.mono (hkept rfl) (fun _ _ he => he) fun _ _ hx => hx
  | dropOnArrival h' s p i d hp hdown =>
    refine h.arrive hp.atNode (fun _ hx => hx) fun r hr nodeId id size hb => ?_
    cases hp with
    | created _ hhost => simp [hup i d (List.mem_cons_self ..)] at hdown
    | transit j sent _ hlink htarget =>
      simp [Replay.brings, State.packetInNodeStep, hacc.inFlight_of_held (List.mem_cons_self ..) hr] at hb
  | enter h' s p i d hp hup =>
    refine h.arrive hp.atNode (fun _ hx => List.mem_cons_of_mem _ hx) fun r hr nodeId id size hb => ?_
    obtain ⟨rfl, rfl, rfl⟩ := by simpa [Replay.brings, State.packetInNodeStep] using hb
    exact ⟨i, hacc'.lt_of_held (List.mem_cons_self ..), rfl, rfl, rfl, List.mem_cons_self ..⟩
  | loseInTransit h' s j sent d hdown => exact h.finish (fun _ => rfl) (by simp [Place.atNode])
  | sendInbound h' s i d slot hhere =>
    have hqueue : ∀ i', ∀ e, e ∈ ((s.sendInbound i d slot).nodes i').inbound.queue ↔
        e ∈ (s.nodes i').inbound.queue ∨ i' = i ∧ e = ⟨d, s.now, 0⟩ := fun i' e => by
      by_cases hi : i' = i
      · subst hi
        simp [State.sendInbound, State.setNode, InboundQueue.send, MaxHeap.mem_push, or_comm]
      · simp [State.sendInbound, State.setNode, hi]
    refine h.quiet rfl fun i' d' hd' => ?_
    rcases hd'.of_cons with ⟨hi, rfl⟩ | hd'
    · obtain rfl := Option.some.inj hi
      exact .inbound rfl ((hqueue _ _).2 (.inr ⟨rfl, rfl⟩))
    · exact hd'.mono (fun _ hx _ => hx) (fun i'' e he => (hqueue i'' e).2 (.inl he)) fun _ _ hx => hx
  | dropRandomly h' s i d =>
    exact h.finish (fun _ => rfl) fun i' hi => by obtain rfl := Option.some.inj hi; rfl
  | duplicate h' s i d uuid =>
    refine h.quiet rfl fun i' d' hd' => hd'.mono (fun x hx _ => ?_) (fun _ _ he => he) fun _ _ hx => hx
    rcases List.mem_cons.1 hx with rfl | hx
    · exact List.mem_cons_self ..
    · exact List.mem_cons_of_mem _ (List.mem_cons_of_mem _ hx)
  | introduce h' s i d =>
    refine h.arrive rfl (fun _ hx => List.mem_cons_of_mem _ hx) fun r hr nodeId id size hb => ?_
    obtain ⟨rfl, rfl, rfl⟩ := by simpa [Replay.brings, State.genericPacketEvent] using hb
    exact ⟨i, hacc'.lt_of_held (List.mem_cons_self ..), rfl, rfl, rfl, List.mem_cons_self ..⟩
  | dropBecauseBufferFull h' s i d hbuffer =>
    exact h.finish (fun _ => rfl) fun i' hi => by obtain rfl := Option.some.inj hi; rfl
  | accept h' s i d buffer hbuffer htask =>
    exact h.accept hstays rfl rfl rfl fun i' => s.inbound_pushOutbound_accept i buffer d _ i'
  | acceptInVain h' s i d buffer hbuffer htask =>
    exact h.accept hstays rfl rfl rfl fun i' => s.inbound_accept i buffer d i'
  | takeInTransit h' s j q delivery batch htask hperm hdue =>
    exact h.quiet rfl fun i d hd =>
      hd.mono (fun _ hx _ => List.mem_append_right _ hx) (fun _ _ he => he) fun _ _ hx => hx
  | panicForwarder h' s j => exact h.quiet rfl fun i d hd => hd.mono (fun _ hx _ => hx) (fun _ _ he => he) fun _ _ hx => hx
  | takeInbound h' s i q delivery batch hperm =>
    refine h.quiet rfl fun i' d' hd' => ?_
    cases hd' with
    | held hp hx => exact .held hp (List.mem_append_right _ hx)
    | outbound hx => exact .outbound hx
    | @inbound e hd he =>
      by_cases hi : i' = i
      · subst hi
        rcases List.mem_append.1 (hperm.mem_iff.1 he) with he | he
        · exact .held (p := .inbound i') rfl (List.mem_append_left _ (List.mem_map.2 ⟨e, he, by rw [← hd]; rfl⟩))
        · exact .inbound hd (by simpa [State.setNode] using he)
      · exact .inbound hd (by simpa [State.setNode, hi] using he)
  | read h' s i d =>
    exact h.finish (fun _ => rfl) fun i' hi => by obtain rfl := Option.some.inj hi; rfl
  | offer h' s i packet outbound links rolls htask hnext hlinks hall =>
    refine h.offered packet links rfl ?_ ?_ fun i' => ?_
    · show (State.pushCopies ..).log = s.log
      rw [State.pushCopies_eq]
      rfl
    · show (State.pushCopies ..).history = _
      rw [State.pushCopies_eq]
      rfl
    · exact (NothingNew.offer hnext).inbound i'
  | panicOffer h' s i packet outbound links done rest j rolls htask hnext hlinks hsplit hpanicked =>
    refine h.offered packet links rfl ?_ ?_ fun i' => ?_
    · show (State.pushCopies ..).log = s.log
      rw [State.pushCopies_eq]
      rfl
    · show (State.pushCopies ..).history = _
      rw [State.pushCopies_eq]
      rfl
    · exact ((NothingNew.offer hnext).trans (.endNodeTask _ i .panicked)).inbound i'
  | endNodeTask h' s i task htask hend =>
    refine h.quiet rfl fun i' d' hd' => hd'.mono (fun _ hx _ => hx) (fun i'' e he => ?_) fun _ _ hx => hx
    exact ((NothingNew.endNodeTask s i task).inbound i'').symm ▸ he

theorem depart (h : Located net v ⟨[], s⟩) (hstays : StaysInv net s) {j : LinkIx} {p : OutgoingPacket} {o : Observation}
    {kind : SimulationStepKind} {t : Nat} (hp : p ∈ s.copies j) (ho : o.departs = some p.stay)
    (hhistory : s'.history = s.history ++ [o]) (hlog : s'.log = s.log ++ [⟨t, kind⟩])
    (hinbound : ∀ i, (s'.nodes i).inbound = (s.nodes i).inbound)
    (htakes : kind.takes = some ((net.node p.srcNode).id, p.data.id)) (hbrings : ∀ r : Replay, r.brings kind = none) :
    Located net v ⟨[], s'⟩ := by
  refine h.record _ hlog (fun i d hd => ?_) fun r _ nodeId id size hb => by simp [hbrings] at hb
  cases hd with
  | held hp hx => simp at hx
  | inbound hd he => exact .inr (.inbound hd ((hinbound i).symm ▸ he))
  | @outbound k hk =>
    by_cases hstay : k = p.stay
    · subst hstay
      obtain ⟨rfl, rfl⟩ := accepted_unique hstays.acceptedNodup (hstays.copy j p hp).1 (mem_resident_iff.1 hk).1
      exact .inl htakes
    · refine .inr (.outbound (k := k) ?_)
      show (k, d) ∈ resident i s'.history
      rw [hhistory, resident_departed ho]
      exact List.mem_filter.2 ⟨hk, by simpa using hstay⟩

theorem linkEffect (h : Located net v ⟨[], s⟩) (hstays : StaysInv net s) {j : LinkIx} (he : LinkEffect net j s s') :
    Located net v ⟨[], s'⟩ := by
  have hother : ∀ {s' : State} (o : Observation), o.accepts = none → o.departs = none → s'.log = s.log →
      s'.history = s.history ++ [o] → (∀ i, (s'.nodes i).inbound = (s.nodes i).inbound) → Located net v ⟨[], s'⟩ := by
    intro s' o hacc hdep hlog hhistory hinbound
    refine h.quiet hlog fun i d hd => hd.mono (fun _ hx _ => hx) (fun i e he => (hinbound i).symm ▸ he) fun i x hx => ?_
    rw [hhistory, resident_other hacc hdep]
    exact hx
  cases he with
  | park p s₁ task hp =>
    obtain ⟨queue, rfl⟩ := hp.eq_dequeue
    exact h.quiet rfl fun i d hd => hd.mono (fun _ hx _ => hx) (fun _ _ he => he) fun _ _ hx => hx
  | discard p p' s₁ hp =>
    obtain ⟨queue, rfl⟩ := hp.eq_dequeue
    exact hother (.discarded j p') rfl rfl rfl rfl fun _ => rfl
  | panicSend p p' s₁ hp =>
    obtain ⟨queue, rfl⟩ := hp.eq_dequeue
    exact hother (.sendPanicked j p') rfl rfl rfl rfl fun _ => rfl
  | clear p p' s₁ hp hun hcleared =>
    have hcopy : p ∈ s.copies j := hp.copies ▸ List.mem_cons_self ..
    obtain ⟨links, rfl⟩ := hp.ready
    obtain ⟨queue, rfl⟩ := hp.eq_dequeue
    exact h.depart hstays (o := .cleared j { p with preferredLinks := links }) hcopy rfl rfl rfl (fun _ => rfl) rfl
      fun _ => rfl
  | send p p' s₁ data slot hp hun hcleared hsane hdata =>
    have hcopy : p ∈ s.copies j := hp.copies ▸ List.mem_cons_self ..
    obtain ⟨links, rfl⟩ := hp.ready
    obtain ⟨queue, rfl⟩ := hp.eq_dequeue
    have hid : data.id = p.data.id := id_applyCongestion hdata
    refine h.depart hstays (o := .sent s.now j { p with preferredLinks := links, data }) hcopy rfl rfl rfl (fun i => ?_) ?_
      fun _ => rfl
    · by_cases hi : i = p.srcNode <;>
        simp [State.transmit, State.setLinkTask, State.observe, State.setNode, State.setLink, State.setHandled,
          State.dequeue, State.trackPacketInTransit, State.record, hi]
    · simp [SimulationStepKind.takes, hid]

theorem event (h : Located net v ⟨[], s⟩) (hf : State.EventFrame s s') {K : SimulationStepKind → Prop}
    (hlogs : Logs net K s s') (hK : ∀ kind, K kind → ∃ e, kind = .networkEvent e) : Located net v ⟨[], s'⟩ := by
  have hhas : ∀ i d, Scene.Buffers ⟨[], s⟩ i d → Scene.Buffers ⟨[], s'⟩ i d := fun i d hd =>
    hd.mono (fun _ hx _ => hx) (fun i e he => by rw [hf.inbound]; exact he) fun i x hx => by rw [hf.history]; exact hx
  cases hlogs with
  | same hlog => exact h.quiet hlog hhas
  | step kind hkind hlog =>
    obtain ⟨e, rfl⟩ := hK kind hkind
    exact h.record _ hlog (fun i d hd => .inr (hhas i d hd)) fun r _ nodeId id size hb => by simp [Replay.brings] at hb

end Located

/-! ### Usages -/

theorem sum_map_le_of_subset {α : Type} {l l' : List α} (f : α → Nat) (hnodup : l.Nodup) (hsub : l ⊆ l') :
    (l.map f).sum ≤ (l'.map f).sum := by
  obtain ⟨l₁, hperm, hsublist⟩ := List.subperm_of_subset hnodup hsub
  rw [← (hperm.map f).sum_eq]
  exact (hsublist.map f).sum_le_sum fun _ _ => Nat.zero_le _

/-- The bytes that wait unread at the host; the outbound buffer knows nothing of them. -/
def State.unreadBytes (s : State) (i : NodeIx) : Nat := ((s.nodes i).inbound.queue.map (·.data.packetSize)).sum

/-- Between the stretches of tasks, the replayed buffer of a node holds at most what its outbound buffer and its inbound
queue hold. -/
theorem Located.usage_le {net : InMemoryNetwork} {v : SimulationVerifier} {s : State} {P : NonFatalError → Prop} {r : Replay}
    {n : ReplayedNode} {i : NodeIx} (h : Located net v ⟨[], s⟩) (hacc : Accounted net v P ⟨[], s⟩)
    (hunique : ∀ id, net.IdUnique id) (hr : (v.replay v.start s.log).result = .ok r) (hi : i < net.nodes.length)
    (hn : r.nodes.lookup (net.node i).id = some n) : n.bufferUsage ≤ bytes (resident i s.history) + s.unreadBytes i := by
  obtain ⟨w, hw, r', hr', hmirror⟩ := hacc
  obtain rfl := Except.ok.inj (hr.symm.trans hr'.1)
  have husage : n.bufferUsage = bufferedBytes n.packets := hmirror.sound.nodes _ n hn
  let buffered : List (Uuid × Nat) := n.packets.entries.map fun e => (e.1, e.2.sizeBytes)
  let live : List (Uuid × Nat) := (resident i s.history).map (fun x => (x.2.id, x.2.packetSize)) ++
    (s.nodes i).inbound.queue.map fun e => (e.data.id, e.data.packetSize)
  have hnodup : buffered.Nodup := by
    refine List.Nodup.of_map Prod.fst ?_
    rw [List.map_map]
    exact n.packets.nodupKeys
  have hsub : buffered ⊆ live := by
    intro x hx
    obtain ⟨⟨id, p⟩, hp, rfl⟩ := List.mem_map.1 hx
    have hlookup : n.packets.lookup id = some p := AList.mem_lookup_iff.2 hp
    obtain ⟨i', d, hi', hid, rfl, hsize, hd⟩ := h r hr _ id p.sizeBytes ⟨n, hn, p, hlookup, rfl⟩
    obtain rfl := hunique _ i' i hi' hi hid rfl
    refine List.mem_append.2 ?_
    cases hd with
    | held hp hx => simp at hx
    | @outbound k hk => exact .inl (List.mem_map.2 ⟨(k, d), hk, by rw [hsize]⟩)
    | @inbound e hd he => exact .inr (List.mem_map.2 ⟨e, he, by rw [hd, hsize]⟩)
  calc n.bufferUsage = (buffered.map Prod.snd).sum := by rw [husage, bufferedBytes, List.map_map]; rfl
    _ ≤ (live.map Prod.snd).sum := sum_map_le_of_subset Prod.snd hnodup hsub
    _ = bytes (resident i s.history) + s.unreadBytes i := by
      rw [List.map_append, List.sum_append, List.map_map, List.map_map]
      rfl

/-- At every node, what the outbound buffer holds and what waits unread fit the buffer together. -/
def BuffersFit (net : InMemoryNetwork) (s : State) : Prop :=
  ∀ i < net.nodes.length, bytes (resident i s.history) + s.unreadBytes i ≤ (net.node i).capacityBytes

instance (net : InMemoryNetwork) (s : State) : Decidable (BuffersFit net s) := by
  unfold BuffersFit
  infer_instance

/-- When time passes, the buffers fit; no host sends that is down; every poll has slots for what it can be handed. -/
def RespectsBuffers (net : InMemoryNetwork) (s : State) : Action → Prop
  | .advance duration => duration = 0 ∨ BuffersFit net s
  | .trySend i _ _ _ => (s.nodes i).isDown = false
  | .pollRecv i metaLen => ∀ delivery ∈ s.sockets i, delivery.maxTransmits ≤ metaLen
  | _ => True

instance (net : InMemoryNetwork) (s : State) : ∀ a, Decidable (RespectsBuffers net s a)
  | .advance duration => inferInstanceAs (Decidable (duration = 0 ∨ BuffersFit net s))
  | .trySend i _ _ _ => inferInstanceAs (Decidable ((s.nodes i).isDown = false))
  | .pollRecv i metaLen => inferInstanceAs (Decidable (∀ delivery ∈ s.sockets i, delivery.maxTransmits ≤ metaLen))
  | .networkEvent | .nodeTask .. | .linkTask .. | .forwarder .. => isTrue trivial

/-! ### Instants -/

/-- At the end of every instant before now, the replayed nodes fit their buffers. -/
def PastFits (net : InMemoryNetwork) (v : SimulationVerifier) (s : State) : Prop :=
  ∀ before after, s.log = before ++ after → SimulationVerifier.EndsInstant before after →
    (∀ a ∈ before, a.relativeTime < s.now - net.simulationStart) →
    ∀ r, (v.replay v.start before).result = .ok r → v.Fits r.nodes

namespace PastFits
variable {net : InMemoryNetwork} {v : SimulationVerifier} {s s' : State} {K : SimulationStepKind → Prop}

theorem logs (h : PastFits net v s) (hlogs : Logs net K s s') (hnow : s'.now = s.now) : PastFits net v s' := by
  intro before after hsplit hends hpast
  rw [hnow] at hpast
  cases hlogs with
  | same hlog => exact h before after (hlog ▸ hsplit) hends hpast
  | step kind _ hlog =>
    rw [hlog] at hsplit
    rcases List.eq_nil_or_concat after with rfl | ⟨init, last, rfl⟩
    · rw [List.append_nil] at hsplit
      have hlt := hpast ⟨s.now - net.simulationStart, kind⟩ (hsplit ▸ by simp)
      exact absurd hlt (Nat.lt_irrefl _)
    · rw [List.concat_eq_append, ← List.append_assoc] at hsplit
      obtain ⟨hlog, -⟩ := List.append_inj' hsplit rfl
      exact h before init hlog (fun a ha b hb => hends a ha b (by simp [hb])) hpast

theorem all (h : PastFits net v s) (hlog : LogInv net s)
    (hfits : ∀ r, (v.replay v.start s.log).result = .ok r → v.Fits r.nodes) (before after : List SimulationStep)
    (hsplit : s.log = before ++ after) (hends : SimulationVerifier.EndsInstant before after) (r : Replay)
    (hr : (v.replay v.start before).result = .ok r) : v.Fits r.nodes := by
  cases after with
  | nil =>
    rw [List.append_nil] at hsplit
    exact hfits r (hsplit ▸ hr)
  | cons b after =>
    refine h before (b :: after) hsplit hends (fun a ha => ?_) r hr
    have hb := hlog.past b (hsplit ▸ by simp)
    have hlt := hends a ha b (List.mem_cons_self ..)
    omega

theorem advance (h : PastFits net v s) (hlog : LogInv net s) {duration : Nat}
    (hfits : 0 < duration → ∀ r, (v.replay v.start s.log).result = .ok r → v.Fits r.nodes) :
    PastFits net v { s with now := s.now + duration } := by
  intro before after hsplit hends hpast r hr
  rcases Nat.eq_zero_or_pos duration with rfl | hpos
  · exact h before after hsplit hends hpast r hr
  · exact h.all hlog (hfits hpos) before after hsplit hends r hr

end PastFits

/-! ### Runs -/

structure OccupancyInv (net : InMemoryNetwork) (v : SimulationVerifier) (σ : Scene) : Prop where
  replay : ReplayInv net v (MayReport net) σ
  log : LogInv net σ.state
  created : ∀ i d, (.created i, d) ∈ σ.held → (σ.state.nodes i).isDown = false
  located : σ.state.generated.Nodup → Located net v σ
  past : σ.state.generated.Nodup → PastFits net v σ.state

namespace OccupancyInv
variable {net : InMemoryNetwork} {v : SimulationVerifier} {σ σ' : Scene} {s s' : State} {spec : NetworkSpec}
  {steps : List SimulationStep}

section
variable (hk : v.Knows net) (htables : net.Tables spec) (hunique : ∀ id, net.IdUnique id)
include hk htables hunique

theorem keeps (h : OccupancyInv net v σ) (he : Keeps net σ σ') : OccupancyInv net v σ' := by
  have hreplay := (ReplayInv.preserved hk htables).effect σ σ' he.effect h.replay
  have hold : σ'.state.generated.Nodup → σ.state.generated.Nodup := fun hgen => hgen.sublist he.effect.generated.sublist
  have hclears : ∀ log, ClearsUnique net log := fun _ _ _ _ _ _ _ _ => hunique _
  refine ⟨hreplay, (LogInv.preserved net).effect σ σ' he.effect h.log, fun i d hd => ?_, fun hgen => ?_, fun hgen => ?_⟩
  · have hup := h.created i d (he.uncreated i d hd)
    rwa [NodeState.isDown, he.effect.linkFrame.nodeStatus]
  · exact (h.located (hold hgen)).keeps h.replay.stays (h.replay.accounted (hold hgen) (hclears _))
      (hreplay.accounted hgen (hclears _)) h.created he
  · exact (h.past (hold hgen)).logs he.effect.logs he.now

theorem keepingEffects (h : OccupancyInv net v σ) (he : KeepingEffects net σ σ') : OccupancyInv net v σ' :=
  Relation.ReflTransGen.preserves (fun _ _ he h => h.keeps hk htables hunique he) he h

omit hunique

theorem create (h : OccupancyInv net v ⟨[], s⟩) {i : NodeIx} {endpoint : UdpEndpoint} (transmit : OwnedTransmit) (uuid : Uuid)
    (hhost : (net.node i).udpEndpoint = some endpoint) (hup : (s.nodes i).isDown = false) :
    OccupancyInv net v ⟨[(.created i, s.inTransitData net i endpoint transmit uuid)], s.create uuid⟩ := by
  have he : Effect net ⟨[], s⟩ ⟨[(.created i, s.inTransitData net i endpoint transmit uuid)], s.create uuid⟩ :=
    .create [] s i endpoint transmit uuid hhost
  have hold : (s.create uuid).generated.Nodup → s.generated.Nodup := fun hgen => hgen.sublist he.generated.sublist
  refine ⟨(ReplayInv.preserved hk htables).effect _ _ he h.replay, (LogInv.preserved net).effect _ _ he h.log,
    fun i' d hd => ?_, fun hgen => ?_, fun hgen => (h.past (hold hgen)).logs he.logs rfl⟩
  · obtain ⟨rfl, rfl⟩ := by simpa using hd
    exact hup
  · exact (h.located (hold hgen)).quiet rfl fun i' d hd =>
      hd.mono (fun _ hx _ => List.mem_cons_of_mem _ hx) (fun _ _ he => he) fun _ _ hx => hx

theorem linkEffect (h : OccupancyInv net v ⟨[], s⟩) {j : LinkIx} (hj : j < net.links.length) (he : LinkEffect net j s s') :
    OccupancyInv net v ⟨[], s'⟩ where
  replay := (ReplayInv.preserved hk htables).link j s s' hj he h.replay
  log := (LogInv.preserved net).link j s s' hj he h.log
  created := by simp
  located hgen := (h.located (he.generated ▸ hgen)).linkEffect h.replay.stays he
  past hgen := (h.past (he.generated ▸ hgen)).logs he.logs he.frame.now

theorem linkEvent (h : OccupancyInv net v ⟨[], s⟩) (event : LinkEventPayload) :
    OccupancyInv net v ⟨[], s.processLinkEvent net event⟩ := by
  have hf := s.processLinkEvent_frame net event
  have hlogs := s.linkEvent_logs net event
  exact ⟨(ReplayInv.preserved hk htables).linkEvent s event h.replay, (LogInv.preserved net).linkEvent s event h.log,
    by simp, fun hgen => (h.located (hf.generated ▸ hgen)).event hf hlogs fun _ hkind => ⟨_, hkind.1⟩,
    fun hgen => (h.past (hf.generated ▸ hgen)).logs hlogs hf.now⟩

theorem nodeEvent (h : OccupancyInv net v ⟨[], s⟩) (event : NodeEventPayload) :
    OccupancyInv net v ⟨[], s.processNodeEvent net event⟩ := by
  have hf := s.processNodeEvent_frame net event
  have hlogs := s.nodeEvent_logs net event
  exact ⟨(ReplayInv.preserved hk htables).nodeEvent s event h.replay, (LogInv.preserved net).nodeEvent s event h.log,
    by simp, fun hgen => (h.located (hf.generated ▸ hgen)).event hf hlogs fun _ hkind => ⟨_, hkind.1⟩,
    fun hgen => (h.past (hf.generated ▸ hgen)).logs hlogs hf.now⟩

end

theorem events (h : OccupancyInv net v ⟨[], s⟩) (events : List NetworkEvent) :
    OccupancyInv net v ⟨[], { s with events }⟩ where
  replay := h.replay.events events
  log := ⟨h.log.past, h.log.sorted⟩
  created := by simp
  located hgen := (h.located hgen).quiet rfl fun i d hd =>
    hd.mono (fun _ hx _ => hx) (fun _ _ he => he) fun _ _ hx => hx
  past := h.past

theorem fits (htables : net.Tables spec) (hv : v.Tables spec steps) (hunique : ∀ id, net.IdUnique id)
    (h : OccupancyInv net v ⟨[], s⟩) (hgen : s.generated.Nodup) (hfit : BuffersFit net s) {r : Replay}
    (hr : (v.replay v.start s.log).result = .ok r) : v.Fits r.nodes := by
  intro nodeId n m hn hm
  obtain ⟨node, hnode, hid, hsize⟩ := hv.bufferSizes nodeId m hm
  obtain ⟨i, hi, hof⟩ := htables.node_of hnode
  have hacc := h.replay.accounted hgen fun _ _ _ _ _ _ _ => hunique _
  rw [← hid, ← hof.id] at hn
  calc n.bufferUsage ≤ bytes (resident i s.history) + s.unreadBytes i :=
        (h.located hgen).usage_le hacc hunique hr hi hn
    _ ≤ (net.node i).capacityBytes := hfit i hi
    _ = m.bufferSizeBytes := hof.capacityBytes.trans hsize.symm

theorem advance (hk : v.Knows net) (htables : net.Tables spec) (hv : v.Tables spec steps)
    (hunique : ∀ id, net.IdUnique id) (h : OccupancyInv net v ⟨[], s⟩) {duration : Nat}
    (hfit : 0 < duration → BuffersFit net s) : OccupancyInv net v ⟨[], { s with now := s.now + duration }⟩ where
  replay := (ReplayInv.preserved hk htables).effect _ _ (.advance s duration) h.replay
  log := (LogInv.preserved net).effect _ _ (.advance s duration) h.log
  created := by simp
  located hgen := (h.located hgen).quiet rfl fun i d hd =>
    hd.mono (fun _ hx _ => hx) (fun _ _ he => he) fun _ _ hx => hx
  past hgen := (h.past hgen).advance h.log fun hpos r hr => h.fits htables hv hunique hgen (hfit hpos) hr

theorem step (hk : v.Knows net) (htables : net.Tables spec) (hv : v.Tables spec steps) (hunique : ∀ id, net.IdUnique id)
    (h : OccupancyInv net v ⟨[], s⟩) {a : Action} (hC : RespectsBuffers net s a) (hstep : net.step s a = some s') :
    OccupancyInv net v ⟨[], s'⟩ := by
  cases a with
  | advance duration =>
    obtain rfl := Option.some.inj hstep
    exact h.advance hk htables hv hunique fun hpos => hC.resolve_left (Nat.ne_of_gt hpos)
  | networkEvent =>
    rw [InMemoryNetwork.step] at hstep
    split at hstep
    · simp at hstep
    · rename_i event events hevents
      split_ifs at hstep
      obtain rfl := Option.some.inj hstep
      unfold State.processEvent
      cases event.kind with
      | link payload => exact (h.events events).linkEvent hk htables payload
      | node payload => exact (h.events events).nodeEvent hk htables payload
  | trySend i transmit uuid draws =>
    obtain ⟨endpoint, hhost, he⟩ := State.trySend_effects hstep
    exact (h.create hk htables transmit uuid hhost hC).keepingEffects hk htables hunique he
  | pollRecv i metaLen =>
    obtain ⟨rest, he, hrest⟩ := State.pollRecv_effects hstep
    obtain rfl := hrest fun delivery hdelivery => hC delivery hdelivery
    exact h.keepingEffects hk htables hunique he
  | nodeTask i rolls =>
    rw [InMemoryNetwork.step] at hstep
    split_ifs at hstep
    exact h.keepingEffects hk htables hunique (State.processBufferForNode_effects hstep)
  | linkTask j slot =>
    rw [InMemoryNetwork.step] at hstep
    split_ifs at hstep with hj
    exact h.linkEffect hk htables hj (State.processLinkQueue_effect hstep)
  | forwarder j draws =>
    rw [InMemoryNetwork.step] at hstep
    split_ifs at hstep
    exact h.keepingEffects hk htables hunique (State.forwardPacketsFromLinkToNode_effects hstep)

theorem initial (htables : net.Tables spec) (hv : v.Tables spec steps) (now : Nat) (events : List NetworkEvent)
    (hnow : net.simulationStart ≤ now) : OccupancyInv net v ⟨[], net.initialState now events⟩ := by
  -- nothing is in the buffers at the start
  have hempty : ∀ nodeId n, v.start.nodes.lookup nodeId = some n → n = .new nodeId := fun nodeId n hn =>
    ((hv.nodes nodeId n).1 hn).2
  refine ⟨.initial htables hv now events hnow, .initial net now events, by simp, fun _ r hr nodeId id size hbuffers => ?_,
    fun _ before after hsplit _ _ r hr nodeId n m hn hm => ?_⟩
  · obtain rfl := Except.ok.inj hr
    obtain ⟨n, hn, p, hp, -⟩ := hbuffers
    rw [hempty nodeId n hn] at hp
    simp [ReplayedNode.new, AList.lookup_empty] at hp
  · obtain ⟨rfl, rfl⟩ := List.nil_eq_append_iff.1 hsplit
    obtain rfl := Except.ok.inj hr
    rw [hempty nodeId n hn]
    exact Nat.zero_le _

end OccupancyInv

/-! ### Results -/

/-- At the end of every instant every replayed node fits its buffer, and no node is reported to exceed it. -/
structure BuffersRespected (v : SimulationVerifier) : Prop where
  instants : v.InstantsFit
  silent : ∀ nodeId size usage, ¬ v.Reports (.nodeExceedsBufferSize nodeId size usage)

/-- If nothing is buffered at the start, the reports are about the ends of instants. -/
theorem SimulationVerifier.InstantsFit.silent {spec : NetworkSpec} {steps : List SimulationStep} {v : SimulationVerifier}
    (h : v.InstantsFit) (hv : v.Tables spec steps) (hsorted : v.steps.Pairwise fun a b => a.relativeTime ≤ b.relativeTime)
    (nodeId : String) (size usage : Nat) : ¬ v.Reports (.nodeExceedsBufferSize nodeId size usage) := by
  intro hreports
  have hstart : v.FitSoFar v.start.nodes := fun nodeId n m hn _ => by
    obtain ⟨-, rfl⟩ := (hv.nodes nodeId n).1 hn
    exact Nat.zero_le _
  have hnot := (h.run_errors hsorted hstart).errors _ (mem_errors_of_reports hreports)
  simp [NonFatalError.exceedsBufferSize] at hnot

/-- As long as what is unread fits in the buffers beside the outbound packets whenever time passes, no host sends while it
is down, and polls have slots enough, the replay of the log respects the buffers. -/
theorem buffers_respected {spec : NetworkSpec} {networkEvents : NetworkEvents} {net : InMemoryNetwork} {s₀ s : State}
    {simulationStart start now : Nat} {disableTimeWarping : Bool} {order : List String} {v : SimulationVerifier}
    (hnow : simulationStart ≤ now) (hinit : InMemoryNetwork.initializeNetwork spec networkEvents simulationStart start now
      disableTimeWarping = .ok (net, s₀)) (hids : (spec.nodes.map NetworkNodeSpec.id).Nodup) {as : List Action}
    (hrespects : net.machine.Guarded (RespectsBuffers net) s₀ as) (hrun : net.machine.run s₀ as = some s)
    (hfit : BuffersFit net s) (hgen : s.generated.Nodup) (hnew : SimulationVerifier.new order s.log spec = .ok v) :
    BuffersRespected v := by
  have hbuild := (InMemoryNetwork.initializeNetwork_ok hinit).1
  have htables := InMemoryNetwork.buildNetwork_tables hbuild
  have hv := SimulationVerifier.new_tables hnew
  have hk : v.Knows net := SimulationVerifier.knows_of_tables htables hv
  have hunique := htables.idUnique hids
  have hstart : net.simulationStart ≤ now := (InMemoryNetwork.buildNetwork_start hbuild).1 ▸ hnow
  have h₀ : OccupancyInv net v ⟨[], s₀⟩ :=
    InMemoryNetwork.initializeNetwork_induction (I := fun s => OccupancyInv net v ⟨[], s⟩) hinit
      (.initial htables hv now _ hstart) (fun _ payload _ h => h.linkEvent hk htables payload)
      fun _ payload _ h => h.nodeEvent hk htables payload
  have h : OccupancyInv net v ⟨[], s⟩ := Machine.run_invariant_of_guarded (M := net.machine)
    (I := fun s => OccupancyInv net v ⟨[], s⟩) (fun _ _ _ h hC hstep => h.step hk htables hv hunique hC hstep)
    hrespects h₀ hrun
  have hsteps : v.steps = s.log := hv.steps.trans h.log.insertionSort_eq
  have hinstants : v.InstantsFit := by
    intro before after hsplit
    rw [hsteps] at hsplit
    exact (h.past hgen).all h.log (fun r hr => h.fits htables hv hunique hgen hfit hr) before after hsplit
  exact ⟨hinstants, hinstants.silent hv (hsteps ▸ h.log.sorted)⟩

/-- The hosts, with a buffer of 200 bytes at `B`. -/
def smallBuffer : NetworkSpec :=
  { hostPair 8000000 0 with nodes := [HostPair.host "A" [HostPair.a₁, HostPair.a₂] 1000, HostPair.host "B" [HostPair.b] 200] }

namespace HostPair

/-- `A` sends a packet over its first link, which takes 5 ms. -/
def sendOver (uuid : Uuid) : List Action := sendFromA uuid ++ [.linkTask 0 0, .advance (Duration.fromMillis 1)]

/-- Two packets of 128 bytes have arrived at `B`, and its application has read neither. -/
def leaveUnread : List Action :=
  sendOver 1 ++ sendOver 2 ++ [.advance (Duration.fromMillis 4), .forwarder 0 fun _ => draws 0]

/-- A packet waits unread at `B` for a while. -/
def readLate : List Action :=
  sendOver 1 ++ [.advance (Duration.fromMillis 4), .forwarder 0 fun _ => draws 0, .advance 1, .pollRecv 1 1]

end HostPair

/-- The verifier counts both packets in the buffer of `B`, which is too small for them; for the simulator it is empty. -/
theorem unread_packets_exceed_buffer : ∃ net s v, Reaches false smallBuffer [] net s ∧
    (smallBuffer.nodes.map NetworkNodeSpec.id).Nodup ∧ s.generated.Nodup ∧
    (s.nodes 1).outboundBuffer.availableCapacityBytes = 200 ∧ SimulationVerifier.new ["A", "B"] s.log smallBuffer = .ok v ∧
    v.Reports (.nodeExceedsBufferSize "B" 200 256) ∧ ¬ v.InstantsFit := by
  obtain ⟨net, s, hreach, hs⟩ := exists_reaches_of_simulate smallBuffer [] HostPair.leaveUnread
    (fun _ s => decide s.generated.Nodup && decide ((s.nodes 1).outboundBuffer.availableCapacityBytes = 200) &&
      SimulationVerifier.verifies smallBuffer ["A", "B"] s.log
        fun verified => verified.nonFatalErrors.contains (.nodeExceedsBufferSize "B" 200 256))
    (by decide +kernel)
  simp only [Bool.and_eq_true, decide_eq_true_eq] at hs
  obtain ⟨⟨hgen, hempty⟩, hverifies⟩ := hs
  obtain ⟨v, verified, hnew, hverify, hmem⟩ := SimulationVerifier.exists_verified _ _ _ _ hverifies
  have hreports : v.Reports (.nodeExceedsBufferSize "B" 200 256) := by
    rw [SimulationVerifier.Reports, hverify]
    exact List.contains_iff_mem.1 hmem
  have hv := SimulationVerifier.new_tables hnew
  have hsteps : v.steps = s.log := hv.steps.trans hreach.logInv.insertionSort_eq
  exact ⟨net, s, v, hreach, by decide, hgen, hempty, hnew, hreports,
    fun hinstants => hinstants.silent hv (hsteps ▸ hreach.logInv.sorted) _ _ _ hreports⟩

/-- The packet fits the buffer of `B` while it waits. -/
theorem buffers_respected_hostPair : ∃ net s₀ s v, InMemoryNetwork.initializeNetwork smallBuffer
    (.new [] smallBuffer.nodes smallBuffer.links) 0 0 0 false = .ok (net, s₀) ∧
    net.machine.run s₀ HostPair.readLate = some s ∧ SimulationVerifier.new ["A", "B"] s.log smallBuffer = .ok v ∧
    (s.log.map (·.kind)).contains (.packetDeliveredToApplication
      { packetId := 1, packetNumber := 0, packetSizeBytes := 128, nodeId := "B" }) ∧ BuffersRespected v := by
  obtain ⟨net, s₀, s, hinit, hC, hrun, hs⟩ := exists_of_simulateGuarded smallBuffer [] HostPair.readLate RespectsBuffers
    (fun net s => decide (BuffersFit net s) && decide s.generated.Nodup &&
      (s.log.map (·.kind)).contains (.packetDeliveredToApplication
        { packetId := 1, packetNumber := 0, packetSizeBytes := 128, nodeId := "B" }) &&
      (SimulationVerifier.new ["A", "B"] s.log smallBuffer).isOk)
    (by decide +kernel)
  simp only [Bool.and_eq_true, decide_eq_true_eq] at hs
  obtain ⟨⟨⟨hfit, hgen⟩, hdelivered⟩, hok⟩ := hs
  obtain ⟨v, hnew⟩ := Except.isOk_iff.1 hok
  exact ⟨net, s₀, s, v, hinit, hrun, hnew, hdelivered,
    buffers_respected (Nat.le_refl 0) hinit (by decide) hC hrun hfit hgen hnew⟩

end QuicWorkbench
