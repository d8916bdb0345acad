import QuicWorkbench.Proofs.Log
import QuicWorkbench.Proofs.Moves

/-!
# Every packet is accounted for

As long as packet ids are new, the log of a run can be replayed, and then the replayed state knows of every packet
what its whereabouts say (`Accounted`). Each effect moves at most one packet, and the step that it records moves the
token of that packet.
-/

namespace QuicWorkbench

/-- Clear-buffer events only name nodes whose id no other node has. -/
def ClearsUnique (net : InMemoryNetwork) (log : List SimulationStep) : Prop :=
  ∀ step ∈ log, ∀ e payload, step.kind = .networkEvent e → e.node = some payload → payload.clearBuffer →
    net.IdUnique payload.nodeId

/-- What may be reported when a packet comes off a link whose take-down the forwarder did not see, and its arrival is the
last step of the log. -/
def Excused (net : InMemoryNetwork) (P : NonFatalError → Prop) (σ : Scene) (log : List SimulationStep) : Prop :=
  ∀ i j sent d dropped c, (.transit j sent, d) ∈ σ.held → (σ.state.links j).wasDownAfter sent = false →
    log = σ.state.log ++ [⟨σ.state.now - net.simulationStart, .packetInNode (State.packetInNodeStep net i d dropped)⟩] →
    lastDownAfter σ.state.log (net.link j).id = some c → sent - net.simulationStart ≤ c →
    P (.offlinePacketReceive (net.node i).id (net.link j).id (sent - net.simulationStart) c)

/-- Each packet has its place, and the log can be replayed to a state that knows it. -/
def Accounted (net : InMemoryNetwork) (v : SimulationVerifier) (P : NonFatalError → Prop) (σ : Scene) : Prop :=
  ∃ w, PlacesInv net w σ ∧ Replayed net v P σ.state (w.tokens net)

namespace Replayed
variable {net : InMemoryNetwork} {v : SimulationVerifier} {s s' : State} {tokens tokens' : Uuid → Option Token}
  {P P' : NonFatalError → Prop}

theorem mono (h : Replayed net v P s tokens) (hP : ∀ e, P e → P' e) : Replayed net v P' s tokens := by
  obtain ⟨r, hr, hmirror⟩ := h
  exact ⟨r, ⟨hr.1, fun e he => hP e (hr.2 e he)⟩, hmirror⟩

theorem recordMove (h : Replayed net v P s tokens) (hP : Allows P) (kind : SimulationStepKind)
    (hlog : s'.log = s.log ++ [⟨s.now - net.simulationStart, kind⟩]) (hkind : ∀ id, kind.linkStatus id = none)
    (hnodes : ∀ i, (s'.nodes i).status = (s.nodes i).status)
    (hclears : ∀ i, (s'.nodes i).lastBufferClear = (s.nodes i).lastBufferClear)
    (hlinks : ∀ j, (s'.links j).status = (s.links j).status)
    (hmove : ∀ r, Mirror net v s tokens r → ∃ r', (v.replayKind r (s.now - net.simulationStart) kind).Within P r' ∧
      Mirror net v s tokens' r') : Replayed net v P s' tokens' := by
  refine h.record hP hlog fun r hr => ?_
  obtain ⟨r', hr', hmirror⟩ := hmove r hr
  refine ⟨r', hr', hmirror.frame hnodes hclears hlinks fun linkId => ?_⟩
  rw [hlog]
  exact lastDownAfter_snoc_of_none (hkind linkId)

end Replayed

theorem Picks.source_mem {net : InMemoryNetwork} {spec : NetworkSpec} {s s₁ : State} {j : LinkIx} {p : OutgoingPacket}
    {m : State.Move} (h : Picks j s p s₁ m) (htables : net.Tables spec) (hstays : StaysInv net s) :
    (net.link j).source ∈ (net.node p.srcNode).addresses := by
  obtain ⟨hacc, links, hoff, hjl⟩ := hstays.copy j p (h.copies ▸ List.mem_cons_self ..)
  obtain ⟨i, d, hacc', hcand⟩ := hstays.offered _ _ hoff
  obtain ⟨rfl, rfl⟩ := accepted_unique hstays.acceptedNodup hacc hacc'
  exact (htables.of_mem_candidateLinks hcand hjl).2

namespace Accounted
variable {net : InMemoryNetwork} {v : SimulationVerifier} {P P' : NonFatalError → Prop} {σ σ' : Scene} {s s' : State}
  {spec : NetworkSpec} {w : Whereabouts}

theorem mono (h : Accounted net v P σ) (hP : ∀ e, P e → P' e) : Accounted net v P' σ := by
  obtain ⟨w, hw, hr⟩ := h
  exact ⟨w, hw, hr.mono hP⟩

theorem wait {id : Uuid} {e e' : Entry} (hr : Replayed net v P s (w.tokens net)) (hw : w id = some e)
    (htoken : e'.token net = e.token net) :
    Replayed net v P s (Whereabouts.tokens net (Function.update w id (some e'))) := by
  have hsame : Whereabouts.tokens net (Function.update w id (some e')) = w.tokens net := by
    rw [Whereabouts.tokens_update, Option.bind_some, htoken]
    refine Function.update_eq_self_iff.2 ?_
    rw [Whereabouts.tokens, hw, Option.bind_some]
  rw [hsame]
  exact hr

theorem tokens_takeUp (w : Whereabouts) (ids : List Uuid) :
    Whereabouts.tokens net (fun u => (w u).map fun e => if u ∈ ids then { e with held := true } else e) = w.tokens net := by
  funext u
  rw [Whereabouts.tokens, Whereabouts.tokens]
  cases w u with
  | none => rfl
  | some e =>
    rw [Option.map_some, Option.bind_some, Option.bind_some]
    split_ifs <;> rfl

theorem quiet (h : Accounted net v P σ) (hsub : σ'.held.Sublist σ.held) (hq : NothingNew σ.state σ'.state)
    (hf : LinkFrame σ.state σ'.state) (hnow : σ'.state.now = σ.state.now)
    (hgen : σ'.state.generated = σ.state.generated) (hlog : σ'.state.log = σ.state.log) : Accounted net v P σ' := by
  obtain ⟨w, hw, hr⟩ := h
  exact ⟨w, hw.quiet hq hnow hgen hsub, hr.frame hlog hf.nodeStatus hf.lastBufferClear hf.linkStatus⟩

theorem finish (hP : Allows P) {p : Place} {d : InTransitData} {hs : List (Place × InTransitData)}
    {kind : SimulationStepKind} (h : Accounted net v P ⟨(p, d) :: hs, s⟩) (hkind : ∀ id, kind.linkStatus id = none)
    (hmove : ∀ tokens since r, tokens d.id = Entry.token net ⟨true, p, d.packetSize, since⟩ → Mirror net v s tokens r →
      ∃ r', (v.replayKind r (s.now - net.simulationStart) kind).Within P r' ∧
        Mirror net v s (Function.update tokens d.id none) r') : Accounted net v P ⟨hs, s.record net kind⟩ := by
  obtain ⟨w, hw, hr⟩ := h
  obtain ⟨⟨since, hwd⟩, -, -⟩ := hw.head
  have htoken : w.tokens net d.id = Entry.token net ⟨true, p, d.packetSize, since⟩ := by
    rw [Whereabouts.tokens, hwd, Option.bind_some]
  have hnew : NothingNew s (s.record net kind) :=
    .of_history (.inl rfl) (fun _ => rfl) (fun _ => rfl) (fun _ _ h => h) fun _ _ h => .copy h
  refine ⟨Function.update w d.id none, hw.replaceHead hnew rfl rfl (.inl rfl) (by simp) (by simp), ?_⟩
  rw [Whereabouts.tokens_update]
  exact hr.recordMove hP _ rfl hkind (fun _ => rfl) (fun _ => rfl) (fun _ => rfl) fun r hmirror =>
    hmove _ since r htoken hmirror

theorem introduceId {uuid : Uuid} {p : Place} {d : InTransitData} {held held' : List (Place × InTransitData)}
    (h : Accounted net v P ⟨held, s⟩) (hnodup : s'.generated.Nodup) (hid : d.id = uuid)
    (hp : ∃ i, p = .created i ∧ (net.node i).udpEndpoint.isSome ∨ p = .duplicated i ∧ i < net.nodes.length)
    (hheld : held'.Perm ((p, d) :: held)) (hnodes : s'.nodes = s.nodes) (hlinks : s'.links = s.links)
    (hrest : s'.now = s.now ∧ s'.generated = s.generated ++ [uuid] ∧ s'.log = s.log ∧ s'.history = s.history ∧
      s'.linkTasks = s.linkTasks) : Accounted net v P ⟨held', s'⟩ := by
  obtain ⟨w, hw, hr⟩ := h
  obtain ⟨hnow, hgen, hlog, hhistory, htasks⟩ := hrest
  have hnew : uuid ∉ s.generated := by
    rw [hgen, List.nodup_append] at hnodup
    exact fun hmem => hnodup.2.2 _ hmem _ (List.mem_singleton_self _) rfl
  have hnone : w uuid = none := by
    cases hwu : w uuid with
    | none => rfl
    | some e => exact absurd (hw.generated _ _ hwu) hnew
  have hq : NothingNew s s' := by
    refine .of_history (.inl hhistory) (by simp [hlinks]) (by simp [hnodes]) (by simp [hnodes]) fun j c hc => ?_
    rw [State.copies, hlinks, htasks] at hc
    exact .copy hc
  have hvalid : p.Valid net s.now ∧ (∀ j sent, p ≠ .transit j sent) ∧
      ∀ e : Entry, e.place = p → e.token net = none := by
    obtain ⟨i, ⟨rfl, hhost⟩ | ⟨rfl, hi⟩⟩ := hp
    · refine ⟨⟨?_, hhost⟩, by simp, fun e he => by rw [Entry.token, he]⟩
      by_contra hlt
      rw [InMemoryNetwork.node, List.getD_eq_getElem?_getD, List.getElem?_eq_none (Nat.le_of_not_lt hlt)] at hhost
      simp [default] at hhost
    · exact ⟨hi, by simp, fun e he => by rw [Entry.token, he]⟩
  refine ⟨_, hw.introduceId hnew hid hvalid.2.1 hvalid.1 hheld hq hnow hgen, ?_⟩
  have htokens : Whereabouts.tokens net (Function.update w uuid (some ⟨true, p, d.packetSize, s.now⟩)) = w.tokens net := by
    rw [Whereabouts.tokens_update, Option.bind_some, hvalid.2.2 _ rfl]
    refine Function.update_eq_self_iff.2 ?_
    rw [Whereabouts.tokens, hnone, Option.bind_none]
  rw [htokens]
  exact hr.frame hlog (by simp [hnodes]) (by simp [hnodes]) (by simp [hlinks])

variable (hk : v.Knows net) (htables : net.Tables spec) (hP : Allows P)
include hk htables hP

theorem linkEffect {j : LinkIx} (h : Accounted net v P ⟨[], s⟩) (hstays : StaysInv net s) (hj : j < net.links.length)
    (he : LinkEffect net j s s') : Accounted net v P ⟨[], s'⟩ := by
  have hf := he.frame
  have hnew := he.nothingNew
  have hcopies := NothingNew.of_copies he.copies_same
  have hinbound := he.inbound
  have houtbound := he.outbound
  obtain ⟨w, hw, hr⟩ := h
  cases he with
  | park p s₁ task hp =>
    obtain ⟨queue, rfl⟩ := hp.eq_dequeue
    exact ⟨w, hw.quiet (hnew (.inl rfl)) rfl rfl (List.Sublist.refl _),
      hr.frame rfl hf.nodeStatus hf.lastBufferClear hf.linkStatus⟩
  | discard p p' s₁ hp hhandled =>
    obtain ⟨queue, rfl⟩ := hp.eq_dequeue
    exact ⟨w, hw.quiet (hnew (.inr ⟨.discarded j p', rfl, rfl⟩)) rfl rfl (List.Sublist.refl _),
      hr.frame rfl hf.nodeStatus hf.lastBufferClear hf.linkStatus⟩
  | panicSend p p' s₁ hp hun hcleared hpanic =>
    obtain ⟨queue, rfl⟩ := hp.eq_dequeue
    exact ⟨w, hw.quiet (hnew (.inr ⟨.sendPanicked j p', rfl, rfl⟩)) rfl rfl (List.Sublist.refl _),
      hr.frame rfl hf.nodeStatus hf.lastBufferClear hf.linkStatus⟩
  | clear p p' s₁ hp hun hcleared =>
    obtain ⟨hat, hwp⟩ := hw.picked hstays hp hun
    obtain ⟨queue, rfl⟩ := hp.eq_dequeue
    obtain ⟨links, rfl⟩ := hp.ready
    have hinTransit := (hnew (.inr ⟨.cleared j { p with preferredLinks := links }, rfl, rfl⟩)).inTransit
    refine ⟨_, hw.handleStay hat rfl (by rfl) (by rfl) (by rfl) hinbound houtbound hcopies none (j := j) ⟨p.data, 0, 0⟩ 0
      (by simpa using hinTransit) (by simp), ?_⟩
    · rw [Whereabouts.tokens_update]
      refine hr.recordMove hP (.packetDropped ⟨p.data.id, (net.node p.srcNode).id, .bufferCleared⟩) rfl
        (fun _ => rfl) hf.nodeStatus hf.lastBufferClear hf.linkStatus fun r hmirror => ?_
      refine hmirror.packetDropped (p := ⟨p.inNodeSince - net.simulationStart, p.data.packetSize, 0⟩) ?_ _
      rw [Whereabouts.tokens, hwp]
      rfl
  | send p p' s₁ data slot hp hun hcleared hsane hdata =>
    obtain ⟨hat, hwp⟩ := hw.picked hstays hp hun
    have hi : p.srcNode < net.nodes.length := hw.valid _ _ hwp
    have haddr : (net.link j).source ∈ (net.node p.srcNode).addresses := hp.source_mem htables hstays
    obtain ⟨queue, rfl⟩ := hp.eq_dequeue
    obtain ⟨links, rfl⟩ := hp.ready
    have hup : (s.links j).status = .up := by
      have hdown : (s.links j).status.isDown = false := by
        have hsane := hsane
        simp only [State.sanityChecks, Bool.and_eq_true] at hsane
        simpa [State.setHandled, State.dequeue, State.setLink] using hsane.2
      cases hs : (s.links j).status with
      | up => rfl
      | down upRx => simp [hs, LinkStatus.isDown] at hdown
    have hid : data.id = p.data.id := id_applyCongestion hdata
    have hsize : data.packetSize = p.data.packetSize := packetSize_applyCongestion hdata
    have hsurvived : ∀ c, (s.nodes p.srcNode).lastBufferClear = some c →
        p.inNodeSince - net.simulationStart < c - net.simulationStart →
        P (.packetSurvivedBufferCorruption (net.node p.srcNode).id p.data.id) := fun c hc hlt => by
      simp only [State.clearedFromBuffer, NodeState.clearedFromBuffer, hc, decide_eq_false_iff_not] at hcleared
      omega
    refine ⟨_, hw.handleStay hat rfl (by rfl) (by rfl) (by rfl) hinbound houtbound hcopies
      (some ⟨false, .transit j s.now, data.packetSize, p.inNodeSince⟩) (j := j)
      ⟨data, s.now, (net.link j).delay + p.anomalies.extraDelay⟩ slot (fun j' => ?_) (fun e he => ?_), ?_⟩
    · by_cases hjj : j' = j <;>
        simp [State.transmit, State.setLinkTask, State.observe, State.setNode, State.setLink, State.setHandled,
          State.dequeue, State.trackPacketInTransit, State.record, InboundQueue.send, hjj]
    · obtain rfl := Option.some.inj he
      exact ⟨hj, hid, rfl, Nat.le_add_right .., p.inNodeSince, rfl⟩
    · rw [Whereabouts.tokens_update]
      refine hr.recordMove hP (.packetInTransit ⟨data.id, (net.node p.srcNode).id, (net.link j).id⟩) rfl
        (fun _ => rfl) hf.nodeStatus hf.lastBufferClear hf.linkStatus fun r hmirror => ?_
      have htoken : w.tokens net p.data.id = some (.buffered (net.node p.srcNode).id
          ⟨p.inNodeSince - net.simulationStart, p.data.packetSize, 0⟩) := by
        rw [Whereabouts.tokens, hwp]
        rfl
      rw [hid, hsize]
      exact hmirror.packetInTransit hk hP hi hj haddr hup htoken hsurvived _

omit hk in
theorem nodeEvent {event : NodeEventPayload} (h : Accounted net v P ⟨[], s⟩)
    (hclears : ClearsUnique net (s.processNodeEvent net event).log) :
    Accounted net v P ⟨[], s.processNodeEvent net event⟩ := by
  have hf := State.processNodeEvent_frame net s event
  obtain ⟨w, hw, hr⟩ := h
  refine ⟨w, hw.quiet (.of_event hf) hf.now hf.generated (List.Sublist.refl _), ?_⟩
  rcases State.processNodeEvent_cases net s event with heq | ⟨i, s₁, hlookup, hchange, heq⟩
  · rw [heq]
    exact hr
  obtain ⟨hi, hid⟩ := htables.nodesById _ _ hlookup
  rw [heq] at hclears ⊢
  generalize hstatus : event.status = status at hchange
  have hlog : s₁.log = s.log ∧ s₁.links = s.links ∧ s₁.now = s.now := by cases hchange <;> exact ⟨rfl, rfl, rfl⟩
  obtain ⟨hlog, hlinks, hnow⟩ := hlog
  have hnodes : ∀ i', (s₁.nodes i').status.toUpdate =
      (if i' = i then status.getD (s.nodes i).status.toUpdate else (s.nodes i').status.toUpdate) ∧
      (s₁.nodes i').lastBufferClear = (s.nodes i').lastBufferClear := fun i' => by
    cases hchange with
    | same status hsame =>
      refine ⟨?_, rfl⟩
      split_ifs with hii
      · subst hii
        cases status with
        | none => rfl
        | some u => exact (hsame u rfl).symm
      · rfl
    | down hup => by_cases hii : i' = i <;> simp [State.setNode, hii, NodeStatus.toUpdate]
    | up upTx hdown => by_cases hii : i' = i <;> simp [State.setNode, hii, NodeStatus.toUpdate]
  let s' := (if event.clearBuffer then s₁.clearBuffer i else s₁).trackNodeEvent net event
  have hs' : s'.log = s.log ++ [⟨s.now - net.simulationStart, .networkEvent { link := none, node := some event }⟩] ∧
      s'.links = s.links ∧ ∀ i', (s'.nodes i').status = (s₁.nodes i').status ∧ (s'.nodes i').lastBufferClear =
        if i' = i ∧ event.clearBuffer then some s.now else (s₁.nodes i').lastBufferClear := by
    simp only [s', ← hlog, ← hlinks, ← hnow]
    cases event.clearBuffer with
    | false => exact ⟨rfl, rfl, fun i' => ⟨rfl, by simp [State.trackNodeEvent, State.record]⟩⟩
    | true =>
      refine ⟨rfl, rfl, fun i' => ?_⟩
      by_cases hii : i' = i <;>
        simp [State.trackNodeEvent, State.record, State.clearBuffer, State.setNode, NodeState.clearBuffer, hii]
  obtain ⟨hlog', hlinks', hnodes'⟩ := hs'
  show Replayed net v P s' _
  refine hr.record hP hlog' fun r hmirror => ?_
  refine hmirror.nodeEvent hi hid (fun hclear => ?_) (fun linkId => ?_) hlinks' (fun i' => ?_) (fun i' => ?_) rfl
  · exact hclears _ (hlog' ▸ List.mem_append_right _ (List.mem_singleton_self _)) _ event rfl rfl hclear
  · rw [hlog', lastDownAfter_snoc_of_none rfl]
  · rw [(hnodes' i').1, (hnodes i').1, hstatus]
  · rw [(hnodes' i').2, (hnodes i').2]

theorem linkEvent {event : LinkEventPayload} (h : Accounted net v P ⟨[], s⟩) :
    Accounted net v P ⟨[], s.processLinkEvent net event⟩ := by
  have hf := State.processLinkEvent_frame net s event
  obtain ⟨w, hw, hr⟩ := h
  refine ⟨w, hw.quiet (.of_event hf) hf.now hf.generated (List.Sublist.refl _), ?_⟩
  rcases State.processLinkEvent_cases net s event with heq | ⟨j, s₁, hlookup, hchange, heq⟩
  · rw [heq]
    exact hr
  obtain ⟨hj, hid⟩ := (htables.linksById _ _).1 hlookup
  rw [heq]
  generalize hstatus : event.status = status at hchange
  have hsame : s₁.log = s.log ∧ s₁.nodes = s.nodes ∧ s₁.now = s.now := by cases hchange <;> exact ⟨rfl, rfl, rfl⟩
  obtain ⟨hlog, hnodes, hnow⟩ := hsame
  have hlinks : ∀ j', (s₁.links j').status.toUpdate =
      if j' = j then status.getD (s.links j).status.toUpdate else (s.links j').status.toUpdate := fun j' => by
    cases hchange with
    | same status hsame =>
      split_ifs with hjj
      · subst hjj
        cases status with
        | none => rfl
        | some u => exact (hsame u rfl).symm
      · rfl
    | down hup => by_cases hjj : j' = j <;> simp [State.setLink, hjj, LinkStatus.toUpdate]
    | up upTx hdown => by_cases hjj : j' = j <;> simp [State.setLink, hjj, LinkStatus.toUpdate]
  have hlog' : (s₁.trackLinkEvent net event).log =
      s.log ++ [⟨s.now - net.simulationStart, .networkEvent { link := some event, node := none }⟩] := by
    simp only [State.trackLinkEvent, State.record, hlog, hnow]
  refine hr.record hP hlog' fun r hmirror => ?_
  exact hmirror.linkEvent hk hj hid hlog' hnodes (fun j' => hstatus ▸ hlinks j')

variable (hshared : ∀ i id, ¬ net.IdUnique (net.node i).id → P (.nodeUpPacketDroppedOnArrival (net.node i).id id))
include hshared

theorem arrive {p : Place} {i : NodeIx} {d : InTransitData} {hs held' : List (Place × InTransitData)} {dropped : Bool}
    (h : Accounted net v P ⟨(p, d) :: hs, s⟩)
    (hexcused : Excused net P ⟨(p, d) :: hs, s⟩ (s.record net (.packetInNode (State.packetInNodeStep net i d dropped))).log)
    (hp : p.Enters net s i) (hdropped : dropped = (s.nodes i).isDown) (hheld : held' = if dropped then hs else (.node i, d) :: hs) :
    Accounted net v P ⟨held', s.record net (.packetInNode (State.packetInNodeStep net i d dropped))⟩ := by
  obtain ⟨w, hw, hr⟩ := h
  obtain ⟨⟨since, hwd⟩, -, -⟩ := hw.head
  have hvalid := hw.valid _ _ hwd
  have htoken : w.tokens net d.id = Entry.token net ⟨true, p, d.packetSize, since⟩ := by
    rw [Whereabouts.tokens, hwd, Option.bind_some]
  let here : Entry := ⟨true, .node i, d.packetSize, s.now⟩
  -- the entry that the packet has afterwards
  have hgo : ∀ e' : Option Entry, (e' = some here ∨ e' = none ∧ dropped) → i < net.nodes.length →
      Replayed net v P (s.record net (.packetInNode (State.packetInNodeStep net i d dropped)))
        (Function.update (w.tokens net) d.id (e'.bind (Entry.token net))) →
      Accounted net v P ⟨held', s.record net (.packetInNode (State.packetInNodeStep net i d dropped))⟩ := by
    intro e' he' hi hr'
    refine ⟨Function.update w d.id e', ?_, Whereabouts.tokens_update net w d.id e' ▸ hr'⟩
    have hentry : ∀ e, e' = some e → e = here := fun e he => by
      rcases he' with rfl | ⟨rfl, -⟩
      · exact (Option.some.inj he).symm
      · simp at he
    have hnew : NothingNew s (s.record net (.packetInNode (State.packetInNodeStep net i d dropped))) :=
      .of_history (.inl rfl) (fun _ => rfl) (fun _ => rfl) (fun _ _ h => h) fun _ _ h => .copy h
    refine hw.replaceHead hnew rfl rfl ?_ (fun e he => hentry e he ▸ hi) fun e he _ => hentry e he ▸ rfl
    cases dropped with
    | true => exact .inl hheld
    | false =>
      refine .inr ⟨.node i, hheld, by simp, ?_⟩
      rcases he' with rfl | ⟨-, hfalse⟩
      · rfl
      · simp at hfalse
  cases hp with
  | created _ hhost =>
    have htoken : w.tokens net d.id = none := htoken
    refine hgo (some here) (.inl rfl) hvalid.1 (hr.recordMove hP _ rfl (fun _ => rfl) (fun _ => rfl) (fun _ => rfl)
      (fun _ => rfl) fun r hmirror => ?_)
    exact hmirror.packetCreated hk hP hvalid.1 hhost htoken _ d.number d.packetSize dropped
  | transit j sent _ hdown htarget =>
    have htoken : w.tokens net d.id =
        some (.inFlight ⟨d.packetSize, sent - net.simulationStart, 0, (net.link j).id⟩) := htoken
    obtain ⟨hi, haddr⟩ := htables.nodesByAddr _ _ htarget
    obtain ⟨hj, hstart, -⟩ := hvalid
    have harrived : sent + (net.link j).delay ≤ s.now := hw.arrived j sent d (List.mem_cons_self ..)
    have htime : (sent - net.simulationStart) + (net.link j).delay + 0 ≤ s.now - net.simulationStart := by omega
    refine hgo (if dropped then none else some here) ?_ hi (hr.recordMove hP _ rfl (fun _ => rfl) (fun _ => rfl)
      (fun _ => rfl) (fun _ => rfl) fun r hmirror => ?_)
    · cases dropped <;> simp
    · obtain ⟨r', hr', hmirror'⟩ := hmirror.packetReceived hk hP hi hj haddr htoken rfl htime
        (fun c hc hle => hexcused i j sent d dropped c (List.mem_cons_self ..) hdown rfl hc hle) d.number d.packetSize hdropped
        (hshared i d.id)
      refine ⟨r', hr', ?_⟩
      cases dropped <;> exact hmirror'

theorem effect (h : Accounted net v P σ) (hstays : StaysInv net σ.state) (hexcused : Excused net P σ σ'.state.log)
    (hnodup : σ'.state.generated.Nodup) (he : Effect net σ σ') : Accounted net v P σ' := by
  have hf := he.linkFrame
  cases he with
  | advance s duration =>
    obtain ⟨w, hw, hr⟩ := h
    exact ⟨w, hw.advance duration, hr.frame rfl (fun _ => rfl) (fun _ => rfl) fun _ => rfl⟩
  | create h' s i endpoint transmit uuid hhost =>
    exact h.introduceId (d := s.inTransitData net i endpoint transmit uuid) hnodup rfl ⟨i, .inl ⟨rfl, by simp [hhost]⟩⟩
      (.refl _) rfl rfl ⟨rfl, rfl, rfl, rfl, rfl⟩
  | abandon h' h'' s hsub => exact h.quiet hsub (.refl s) hf rfl rfl rfl
  | dropOnArrival h' s p i d hp hdown =>
    exact arrive hk htables hP hshared h hexcused hp hdown.symm rfl
  | enter h' s p i d hp hup => exact arrive hk htables hP hshared h hexcused hp hup.symm rfl
  | loseInTransit h' s j sent d hdown =>
    exact h.finish hP (fun _ => rfl) fun tokens since r htoken hmirror => hmirror.packetLostInTransit htoken _
  | dropRandomly h' s i d =>
    exact h.finish hP (fun _ => rfl) fun tokens since r htoken hmirror => hmirror.packetDropped htoken _
  | dropBecauseBufferFull h' s i d hbuffer =>
    exact h.finish hP (fun _ => rfl) fun tokens since r htoken hmirror => hmirror.packetDropped htoken _
  | read h' s i d =>
    exact h.finish hP (fun _ => rfl) fun tokens since r htoken hmirror =>
      hmirror.packetDeliveredToApplication htoken _ _
  | duplicate h' s i d uuid =>
    have hi : i < net.nodes.length := by
      obtain ⟨w, hw, -⟩ := h
      obtain ⟨⟨since, hwd⟩, -, -⟩ := hw.head
      exact hw.valid _ _ hwd
    exact h.introduceId (d := { d with id := uuid, duplicate := true }) hnodup rfl ⟨i, .inr ⟨rfl, hi⟩⟩ (.swap _ _ _)
      rfl rfl ⟨rfl, rfl, rfl, rfl, rfl⟩
  | introduce h' s i d =>
    obtain ⟨w, hw, hr⟩ := h
    obtain ⟨⟨since, hwd⟩, -, -⟩ := hw.head
    have hi : i < net.nodes.length := hw.valid _ _ hwd
    have htoken : w.tokens net d.id = none := by
      rw [Whereabouts.tokens, hwd]
      rfl
    have hnew : NothingNew s (s.record net (.packetDuplicated (State.genericPacketEvent net i d))) :=
      .of_history (.inl rfl) (fun _ => rfl) (fun _ => rfl) (fun _ _ h => h) fun _ _ h => .copy h
    refine ⟨_, hw.replaceHead hnew rfl rfl (.inr ⟨.node i, rfl, by simp, rfl⟩) (fun e he => ?_) (fun e he _ => ?_), ?_⟩
    · obtain rfl := Option.some.inj he
      exact hi
    · obtain rfl := Option.some.inj he
      rfl
    · rw [Whereabouts.tokens_update]
      exact hr.recordMove hP _ rfl (fun _ => rfl) (fun _ => rfl) (fun _ => rfl) (fun _ => rfl) fun r hmirror =>
        hmirror.packetDuplicated hP hi htoken _ d.number d.packetSize
  | sendInbound h' s i d slot hhere =>
    obtain ⟨w, hw, hr⟩ := h
    obtain ⟨⟨since, hwd⟩, -, -⟩ := hw.head
    refine ⟨_, hw.sendInbound slot hwd, ?_⟩
    exact wait (hr.frame rfl hf.nodeStatus hf.lastBufferClear hf.linkStatus) hwd rfl
  | accept h' s i d buffer hbuffer htask =>
    obtain ⟨w, hw, hr⟩ := h
    obtain ⟨⟨since, hwd⟩, -, -⟩ := hw.head
    obtain rfl : since = s.now := hw.current i d (List.mem_cons_self ..) _ hwd
    refine ⟨_, hw.accept hstays hwd rfl rfl rfl rfl rfl (fun i' => s.inbound_pushOutbound_accept i buffer d _ i')
      fun i' b hb => ?_, ?_⟩
    · rw [State.outbound_pushOutbound_accept] at hb
      rcases List.mem_append.1 hb with hb | hb
      · exact .inl hb
      · split_ifs at hb
        · exact .inr (List.mem_singleton.1 hb)
        · exact absurd hb List.not_mem_nil
    · exact wait (hr.frame rfl hf.nodeStatus hf.lastBufferClear hf.linkStatus) hwd rfl
  | acceptInVain h' s i d buffer hbuffer htask =>
    obtain ⟨w, hw, hr⟩ := h
    obtain ⟨⟨since, hwd⟩, -, -⟩ := hw.head
    obtain rfl : since = s.now := hw.current i d (List.mem_cons_self ..) _ hwd
    refine ⟨_, hw.accept hstays hwd rfl rfl rfl rfl rfl (fun i' => s.inbound_accept i buffer d i')
      fun i' b hb => .inl ?_, ?_⟩
    · rwa [State.outbound_accept] at hb
    · exact wait (hr.frame rfl hf.nodeStatus hf.lastBufferClear hf.linkStatus) hwd rfl
  | takeInTransit h' s j q delivery batch htask hperm hdue =>
    obtain ⟨w, hw, hr⟩ := h
    refine ⟨_, hw.takeInTransit delivery hperm hdue, ?_⟩
    rw [tokens_takeUp]
    exact hr.frame rfl hf.nodeStatus hf.lastBufferClear hf.linkStatus
  | takeInbound h' s i q delivery batch hperm =>
    obtain ⟨w, hw, hr⟩ := h
    refine ⟨_, hw.takeInbound delivery hperm, ?_⟩
    rw [tokens_takeUp]
    exact hr.frame rfl hf.nodeStatus hf.lastBufferClear hf.linkStatus
  | panicForwarder h' s j => exact h.quiet (List.Sublist.refl _) (.of_history (.inl rfl) (fun _ => rfl) (fun _ => rfl)
      (fun _ _ h => h) fun _ _ h => .copy h) hf rfl rfl rfl
  | offer h' s i packet outbound links rolls htask hnext hlinks hall =>
    obtain ⟨hnow, hgen, hlog⟩ := State.pushCopies_rest net i packet links links rolls (s.takeOutbound i packet outbound links)
    exact h.quiet (List.Sublist.refl _) (.offer hnext) hf hnow hgen hlog
  | panicOffer h' s i packet outbound links done rest j rolls htask hnext hlinks hsplit hpanicked =>
    obtain ⟨hnow, hgen, hlog⟩ := State.pushCopies_rest net i packet links done rolls (s.takeOutbound i packet outbound links)
    exact h.quiet (List.Sublist.refl _) ((NothingNew.offer hnext).trans (.endNodeTask _ i .panicked)) hf hnow hgen hlog
  | endNodeTask h' s i task htask hend =>
    exact h.quiet (List.Sublist.refl _) (.endNodeTask s i task) hf rfl rfl rfl

end Accounted

end QuicWorkbench
