import QuicWorkbench.Proofs.Whence
import QuicWorkbench.Proofs.Replayable

/-!
# What the log says about a packet

As long as packet ids are new, the steps of the log about an id are the life of one packet, step by step: it is created
at a host or by a duplication, it goes from node to node along links of the graph, no sooner than their delays allow,
always with the same number and size, and after it was dropped, lost or delivered nothing is said of it. What the log
has told agrees with where the packet is.
-/

namespace QuicWorkbench

/-- The packet that the step is about. -/
def SimulationStepKind.packetId : SimulationStepKind → Option Uuid
  | .packetInNode s => some s.packetId
  | .packetDropped s => some s.packetId
  | .packetLostInTransit s => some s.packetId
  | .packetDuplicated s => some s.packetId
  | .packetExtraDelay s => some s.packetId
  | .packetCongestionEvent s => some s.packetId
  | .packetInTransit s => some s.packetId
  | .packetDeliveredToApplication s => some s.packetId
  | .networkEvent _ => none

/-- What the steps about a packet have told. -/
inductive Stage
  /-- Nothing yet. -/
  | unborn
  | atNode (i : NodeIx) (since number size : Nat)
  | onLink (j : LinkIx) (sent number size : Nat)
  /-- It was dropped, lost or delivered. -/
  | over

/-- What can be told next, at the time. -/
inductive Stage.Next (net : InMemoryNetwork) (id : Uuid) (t : Nat) : Stage → SimulationStepKind → Stage → Prop
  | created (i : NodeIx) (number size : Nat) (hhost : (net.node i).udpEndpoint.isSome) :
      Next net id t .unborn (.packetInNode ⟨id, number, size, (net.node i).id, false⟩) (.atNode i t number size)
  | droppedOnCreation (i : NodeIx) (number size : Nat) (hhost : (net.node i).udpEndpoint.isSome) :
      Next net id t .unborn (.packetInNode ⟨id, number, size, (net.node i).id, true⟩) .over
  | duplicated (i : NodeIx) (number size : Nat) (hi : i < net.nodes.length) :
      Next net id t .unborn (.packetDuplicated ⟨id, number, size, (net.node i).id⟩) (.atNode i t number size)
  | sent (i : NodeIx) (j : LinkIx) (since number size : Nat) (hsince : since ≤ t) (hj : j < net.links.length)
      (hsource : (net.link j).source ∈ (net.node i).addresses) :
      Next net id t (.atNode i since number size) (.packetInTransit ⟨id, (net.node i).id, (net.link j).id⟩)
        (.onLink j t number size)
  | arrived (i : NodeIx) (j : LinkIx) (sent number size : Nat) (htarget : net.nodesByAddr.lookup (net.link j).target = some i)
      (harrived : sent + (net.link j).delay ≤ t) :
      Next net id t (.onLink j sent number size) (.packetInNode ⟨id, number, size, (net.node i).id, false⟩)
        (.atNode i t number size)
  | droppedOnArrival (i : NodeIx) (j : LinkIx) (sent number size : Nat)
      (htarget : net.nodesByAddr.lookup (net.link j).target = some i) (harrived : sent + (net.link j).delay ≤ t) :
      Next net id t (.onLink j sent number size) (.packetInNode ⟨id, number, size, (net.node i).id, true⟩) .over
  | lost (j : LinkIx) (sent number size : Nat) (harrived : sent + (net.link j).delay ≤ t) :
      Next net id t (.onLink j sent number size) (.packetLostInTransit ⟨id, (net.link j).id⟩) .over
  | dropped (i : NodeIx) (since number size : Nat) (reason : DropReason) (hsince : since ≤ t) :
      Next net id t (.atNode i since number size) (.packetDropped ⟨id, (net.node i).id, reason⟩) .over
  | delivered (i : NodeIx) (since number size : Nat) (hsince : since ≤ t) (hhost : (net.node i).udpEndpoint.isSome) :
      Next net id t (.atNode i since number size) (.packetDeliveredToApplication ⟨id, number, size, (net.node i).id⟩) .over

theorem Stage.Next.packetId {net : InMemoryNetwork} {id : Uuid} {t : Nat} {l l' : Stage} {kind : SimulationStepKind}
    (h : l.Next net id t kind l') : kind.packetId = some id := by
  cases h <;> rfl

/-- The steps about the id are a life, and it has come to the stage. -/
inductive Lived (net : InMemoryNetwork) (id : Uuid) : List SimulationStep → Stage → Prop
  | nil : Lived net id [] .unborn
  | other {steps : List SimulationStep} {l : Stage} (step : SimulationStep) (h : Lived net id steps l)
      (hstep : step.kind.packetId ≠ some id) : Lived net id (steps ++ [step]) l
  | next {steps : List SimulationStep} {l l' : Stage} (step : SimulationStep) (h : Lived net id steps l)
      (hstep : l.Next net id step.relativeTime step.kind l') : Lived net id (steps ++ [step]) l'

/-- What the log has told of a packet at the place. -/
def Place.Fits (net : InMemoryNetwork) (now : Nat) (d : InTransitData) : Place → Stage → Prop
  | .created _, l | .duplicated _, l => l = .unborn
  | .node i, l | .stay _ i, l => ∃ since ≤ now - net.simulationStart, l = .atNode i since d.number d.packetSize
  | .inbound i, l => (net.node i).udpEndpoint.isSome ∧
      ∃ since ≤ now - net.simulationStart, l = .atNode i since d.number d.packetSize
  | .transit j sent, l => l = .onLink j (sent - net.simulationStart) d.number d.packetSize

theorem Place.Fits.mono {net : InMemoryNetwork} {now now' : Nat} {d : InTransitData} {p : Place} {l : Stage}
    (h : p.Fits net now d l) (hnow : now ≤ now') : p.Fits net now' d l := by
  have hle : now - net.simulationStart ≤ now' - net.simulationStart := Nat.sub_le_sub_right hnow _
  cases p with
  | node i => exact h.imp fun since hsince => ⟨hsince.1.trans hle, hsince.2⟩
  | stay k i => exact h.imp fun since hsince => ⟨hsince.1.trans hle, hsince.2⟩
  | inbound i => exact ⟨h.1, h.2.imp fun since hsince => ⟨hsince.1.trans hle, hsince.2⟩⟩
  | _ => exact h

/-- The log tells a life of every id, of those that are not generated nothing, and of each packet what its place is. -/
structure Lives (net : InMemoryNetwork) (σ : Scene) : Prop where
  new : ∀ id ∉ σ.state.generated, Lived net id σ.state.log .unborn
  lived : ∀ id, ∃ l, Lived net id σ.state.log l
  fits : ∀ b p d, σ.At b p d → ∃ l, Lived net d.id σ.state.log l ∧ p.Fits net σ.state.now d l

namespace Lives
variable {net : InMemoryNetwork} {σ σ' : Scene} {s s' : State} {held held' hs : List (Place × InTransitData)} {p p' : Place}
  {d : InTransitData} {id : Uuid}

theorem initial (net : InMemoryNetwork) (now : Nat) (events : List NetworkEvent) :
    Lives net ⟨[], net.initialState now events⟩ := by
  refine ⟨fun id hid => .nil, fun id => ⟨_, .nil⟩, ?_⟩
  rintro b p d (h | h | h | ⟨h, -⟩)
  · simp at h
  · simp [InMemoryNetwork.initialState, NetworkLink.new, InboundQueue.new] at h
  · simp [InMemoryNetwork.initialState, NodeState.new, InboundQueue.new] at h
  · simp [InMemoryNetwork.initialState] at h

theorem silent (h : Lives net σ) (hlog : σ'.state.log = σ.state.log ∨
      ∃ step, step.kind.packetId = none ∧ σ'.state.log = σ.state.log ++ [step])
    (hgen : σ.state.generated ⊆ σ'.state.generated)
    (hplaces : ∀ b p d, σ'.At b p d → (∃ b' p', σ.At b' p' d ∧ ∀ l, p'.Fits net σ.state.now d l → p.Fits net σ'.state.now d l) ∨
      d.id ∉ σ.state.generated ∧ p.Fits net σ'.state.now d .unborn) : Lives net σ' := by
  have hlived : ∀ id l, Lived net id σ.state.log l → Lived net id σ'.state.log l := fun id l hl => by
    rcases hlog with hlog | ⟨step, hstep, hlog⟩
    · exact hlog ▸ hl
    · exact hlog ▸ .other step hl (by simp [hstep])
  refine ⟨fun id hid => hlived _ _ (h.new id fun hmem => hid (hgen hmem)), fun id => ?_, fun b p d hd => ?_⟩
  · obtain ⟨l, hl⟩ := h.lived id
    exact ⟨l, hlived _ _ hl⟩
  · rcases hplaces b p d hd with ⟨b', p', hold, hfits⟩ | ⟨hnew, hfits⟩
    · obtain ⟨l, hl, hfit⟩ := h.fits b' p' d hold
      exact ⟨l, hlived _ _ hl, hfits l hfit⟩
    · exact ⟨.unborn, hlived _ _ (h.new _ hnew), hfits⟩

theorem quiet (h : Lives net ⟨held, s⟩) (hq : NothingNew s s') (hlog : s'.log = s.log ∨
      ∃ step, step.kind.packetId = none ∧ s'.log = s.log ++ [step])
    (hnow : s.now ≤ s'.now) (hgen : s'.generated = s.generated) (hheld : held' ⊆ held) : Lives net ⟨held', s'⟩ :=
  h.silent hlog (hgen ▸ List.Subset.refl _) fun b p _ hd =>
    .inl ⟨b, p, hd.of_nothingNew hq hheld, fun _ hfits => hfits.mono hnow⟩

theorem tell (h : Lives net σ) {l l' : Stage} {kind : SimulationStepKind} (hl : Lived net id σ.state.log l)
    (hnext : l.Next net id (σ.state.now - net.simulationStart) kind l') (hid : id ∈ σ'.state.generated)
    (hlog : σ'.state.log = σ.state.log ++ [⟨σ.state.now - net.simulationStart, kind⟩]) (hnow : σ'.state.now = σ.state.now)
    (hgen : σ.state.generated ⊆ σ'.state.generated)
    (hplaces : ∀ b p d, σ'.At b p d → (∃ b', σ.At b' p d) ∧ d.id ≠ id ∨ d.id = id ∧ p.Fits net σ.state.now d l') :
    Lives net σ' := by
  have hother : ∀ id' l, id' ≠ id → Lived net id' σ.state.log l → Lived net id' σ'.state.log l := fun id' l hne hl => by
    rw [hlog]
    exact .other _ hl (by simp [hnext.packetId, hne.symm])
  have hself : Lived net id σ'.state.log l' := by
    rw [hlog]
    exact .next _ hl hnext
  refine ⟨fun id' hid' => ?_, fun id' => ?_, fun b p d hd => ?_⟩
  · refine hother _ _ (fun heq => hid' (heq ▸ hid)) (h.new _ fun hmem => hid' (hgen hmem))
  · by_cases hne : id' = id
    · exact ⟨l', hne ▸ hself⟩
    · obtain ⟨l, hl⟩ := h.lived id'
      exact ⟨l, hother _ _ hne hl⟩
  · rcases hplaces b p d hd with ⟨⟨b', hold⟩, hne⟩ | ⟨rfl, hfits⟩
    · obtain ⟨l, hl, hfit⟩ := h.fits b' p d hold
      exact ⟨l, hother _ _ hne hl, hfit.mono (Nat.le_of_eq hnow.symm)⟩
    · exact ⟨l', hself, hfits.mono (Nat.le_of_eq hnow.symm)⟩

theorem tellHead {w : Whereabouts} {kind : SimulationStepKind} (h : Lives net ⟨(p, d) :: hs, s⟩)
    (hw : PlacesInv net w ⟨(p, d) :: hs, s⟩) (hheld : held' = hs ∨ ∃ p', held' = (p', d) :: hs)
    (hnext : ∀ l, p.Fits net s.now d l → ∃ l', l.Next net d.id (s.now - net.simulationStart) kind l' ∧
      ∀ p', held' = (p', d) :: hs → p'.Fits net s.now d l') : Lives net ⟨held', s.record net kind⟩ := by
  obtain ⟨⟨since, hwd⟩, hne, hqueued⟩ := hw.head
  obtain ⟨l, hl, hfits⟩ := h.fits _ _ _ (.held (List.mem_cons_self ..))
  obtain ⟨l', hnext, hfits'⟩ := hnext l hfits
  have hgen : d.id ∈ s.generated := hw.generated _ _ hwd
  have hnew : NothingNew s (s.record net kind) :=
    .of_history (.inl rfl) (fun _ => rfl) (fun _ => rfl) (fun _ _ h => h) fun _ _ h => .copy h
  -- what is held behind the packet, or waits, has other ids
  have hrest : ∀ b q d', Scene.At ⟨hs, s.record net kind⟩ b q d' → (∃ b', Scene.At ⟨(p, d) :: hs, s⟩ b' q d') ∧ d'.id ≠ d.id := by
    intro b q d' hd'
    have hold : Scene.At ⟨hs, s⟩ b q d' := hd'.of_nothingNew hnew (List.Subset.refl _)
    refine ⟨⟨b, hold.cons _⟩, ?_⟩
    cases b with
    | true =>
      cases hold with
      | held hx => exact hne _ hx
    | false => exact hqueued q d' (hold.cons _)
  refine h.tell hl hnext hgen rfl rfl (List.Subset.refl _) fun b q d' hd' => ?_
  rcases hheld with rfl | ⟨p', rfl⟩
  · exact .inl (hrest b q d' hd')
  · rcases hd'.cons_cases with heq | hd'
    · obtain ⟨rfl, rfl⟩ := Prod.mk.inj heq
      exact .inr ⟨rfl, hfits' _ rfl⟩
    · exact .inl (hrest b q d' hd')

theorem introduceId (h : Lives net ⟨held, s⟩) (hnew : d.id ∉ s.generated) (hsub : held' ⊆ (p, d) :: held)
    (hp : p.Fits net s.now d .unborn) (hq : NothingNew s s') (hnow : s'.now = s.now)
    (hgen : s'.generated = s.generated ++ [d.id]) (hlog : s'.log = s.log) : Lives net ⟨held', s'⟩ := by
  refine h.silent (.inl hlog) (fun id hid => ?_) fun b q d' hd' => ?_
  · rw [show (Scene.mk held' s').state.generated = s'.generated from rfl, hgen]
    exact List.mem_append_left _ hid
  · rcases (hd'.of_nothingNew hq hsub : Scene.At ⟨(p, d) :: held, s⟩ b q d').cons_cases with heq | hold
    · obtain ⟨rfl, rfl⟩ := Prod.mk.inj heq
      exact .inr ⟨hnew, hp.mono (Nat.le_of_eq hnow.symm)⟩
    · exact .inl ⟨b, q, hold, fun _ hfits => hfits.mono (Nat.le_of_eq hnow.symm)⟩

end Lives

/-- As long as packet ids are new, every packet is at one place, and the log tells its life. -/
structure LifeInv (net : InMemoryNetwork) (σ : Scene) : Prop where
  stays : StaysInv net σ.state
  lives : σ.state.generated.Nodup → (∃ w, PlacesInv net w σ) ∧ Lives net σ

namespace LifeInv
variable {net : InMemoryNetwork} {spec : NetworkSpec} {σ σ' : Scene} {s s' : State} {w : Whereabouts} {p : Place} {i : NodeIx}
  {d : InTransitData} {held held' hs : List (Place × InTransitData)}

theorem next_of_enters (hw : PlacesInv net w ⟨(p, d) :: hs, s⟩) (hp : p.Enters net s i) {l : Stage} (hl : p.Fits net s.now d l) :
    l.Next net d.id (s.now - net.simulationStart) (.packetInNode (State.packetInNodeStep net i d true)) .over ∧
    l.Next net d.id (s.now - net.simulationStart) (.packetInNode (State.packetInNodeStep net i d false))
      (.atNode i (s.now - net.simulationStart) d.number d.packetSize) := by
  obtain ⟨⟨since, hwd⟩, -, -⟩ := hw.head
  cases hp with
  | created _ hhost =>
    obtain rfl : l = .unborn := hl
    exact ⟨.droppedOnCreation i _ _ hhost, .created i _ _ hhost⟩
  | transit j sent _ hdown htarget =>
    obtain rfl : l = .onLink j (sent - net.simulationStart) d.number d.packetSize := hl
    obtain ⟨-, hstart, -⟩ := hw.valid _ _ hwd
    have harrived : sent + (net.link j).delay ≤ s.now := hw.arrived j sent d (List.mem_cons_self ..)
    have htime : sent - net.simulationStart + (net.link j).delay ≤ s.now - net.simulationStart := by omega
    exact ⟨.droppedOnArrival i j _ _ _ htarget htime, .arrived i j _ _ _ htarget htime⟩

theorem quiet (h : (∃ w, PlacesInv net w ⟨held, s⟩) ∧ Lives net ⟨held, s⟩) (hq : NothingNew s s') (hnow : s'.now = s.now)
    (hgen : s'.generated = s.generated) (hsub : held'.Sublist held) (hlog : s'.log = s.log ∨
      ∃ step, step.kind.packetId = none ∧ s'.log = s.log ++ [step]) :
    (∃ w, PlacesInv net w ⟨held', s'⟩) ∧ Lives net ⟨held', s'⟩ := by
  obtain ⟨⟨w, hw⟩, hlives⟩ := h
  exact ⟨⟨w, hw.quiet hq hnow hgen hsub⟩, hlives.quiet hq hlog (Nat.le_of_eq hnow.symm) hgen hsub.subset⟩

theorem finish {kind : SimulationStepKind} (h : (∃ w, PlacesInv net w ⟨(p, d) :: hs, s⟩) ∧ Lives net ⟨(p, d) :: hs, s⟩)
    (hnext : ∀ w l, PlacesInv net w ⟨(p, d) :: hs, s⟩ → p.Fits net s.now d l →
      ∃ l', l.Next net d.id (s.now - net.simulationStart) kind l') :
    (∃ w, PlacesInv net w ⟨hs, s.record net kind⟩) ∧ Lives net ⟨hs, s.record net kind⟩ := by
  obtain ⟨⟨w, hw⟩, hlives⟩ := h
  have hnew : NothingNew s (s.record net kind) :=
    .of_history (.inl rfl) (fun _ => rfl) (fun _ => rfl) (fun _ _ h => h) fun _ _ h => .copy h
  have hvalid : ∀ e, (none : Option Entry) = some e → e.place.Valid net s.now := by simp
  refine ⟨⟨_, hw.replaceHead hnew rfl rfl (.inl rfl) hvalid (by simp)⟩, ?_⟩
  refine hlives.tellHead hw (.inl rfl) fun l hl => ?_
  obtain ⟨l', hl'⟩ := hnext w l hw hl
  exact ⟨l', hl', fun p' heq => absurd (congrArg List.length heq) (by simp)⟩

theorem toNode {kind : SimulationStepKind} (h : (∃ w, PlacesInv net w ⟨(p, d) :: hs, s⟩) ∧ Lives net ⟨(p, d) :: hs, s⟩)
    (hi : ∀ w, PlacesInv net w ⟨(p, d) :: hs, s⟩ → i < net.nodes.length)
    (hnext : ∀ w l, PlacesInv net w ⟨(p, d) :: hs, s⟩ → p.Fits net s.now d l → l.Next net d.id (s.now - net.simulationStart)
      kind (.atNode i (s.now - net.simulationStart) d.number d.packetSize)) :
    (∃ w, PlacesInv net w ⟨(.node i, d) :: hs, s.record net kind⟩) ∧ Lives net ⟨(.node i, d) :: hs, s.record net kind⟩ := by
  obtain ⟨⟨w, hw⟩, hlives⟩ := h
  have hnew : NothingNew s (s.record net kind) :=
    .of_history (.inl rfl) (fun _ => rfl) (fun _ => rfl) (fun _ _ h => h) fun _ _ h => .copy h
  refine ⟨⟨_, hw.replaceHead hnew rfl rfl (.inr ⟨.node i, rfl, by simp, rfl⟩) (fun e he => ?_) fun e he _ => ?_⟩, ?_⟩
  · obtain rfl := Option.some.inj he
    exact hi w hw
  · obtain rfl := Option.some.inj he
    rfl
  · refine hlives.tellHead hw (.inr ⟨.node i, rfl⟩) fun l hl => ⟨_, hnext w l hw hl, fun p' heq => ?_⟩
    obtain ⟨rfl, -⟩ : Place.node i = p' ∧ True := by simpa using heq
    exact ⟨_, Nat.le_refl _, rfl⟩

theorem accepted (h : (∃ w, PlacesInv net w ⟨(.node i, d) :: hs, s⟩) ∧ Lives net ⟨(.node i, d) :: hs, s⟩) {k : Nat}
    (hhistory : s'.history = s.history ++ [.accepted k i d]) (hnow : s'.now = s.now) (hlog : s'.log = s.log)
    (hgen : s'.generated = s.generated) (hlinks : s'.links = s.links)
    (hinbound : ∀ i', (s'.nodes i').inbound = (s.nodes i').inbound)
    (hplaces : ∀ w since, PlacesInv net w ⟨(.node i, d) :: hs, s⟩ → w d.id = some ⟨true, .node i, d.packetSize, since⟩ →
      since = s.now → ∃ w', PlacesInv net w' ⟨hs, s'⟩) : (∃ w, PlacesInv net w ⟨hs, s'⟩) ∧ Lives net ⟨hs, s'⟩ := by
  obtain ⟨⟨w, hw⟩, hlives⟩ := h
  obtain ⟨⟨since, hwd⟩, -, -⟩ := hw.head
  refine ⟨hplaces w since hw hwd (hw.current i d (List.mem_cons_self ..) _ hwd), ?_⟩
  refine hlives.silent (.inl hlog) (hgen ▸ List.Subset.refl _) fun b q d' hd' => .inl ?_
  rcases hd'.of_accepted hhistory hlinks hinbound with hold | ⟨rfl, rfl⟩
  · exact ⟨b, q, hold.cons _, fun _ hfits => hfits.mono (Nat.le_of_eq hnow.symm)⟩
  · refine ⟨true, .node i, .held (List.mem_cons_self ..), fun l hfits => ?_⟩
    rw [show (Scene.mk hs s').state.now = s.now from hnow]
    exact hfits

theorem introduceId (hgenerated : s'.generated.Nodup) (h : (∃ w, PlacesInv net w ⟨held, s⟩) ∧ Lives net ⟨held, s⟩)
    (hp : (∃ i, p = .created i ∧ (net.node i).udpEndpoint.isSome) ∨ ∃ i, p = .duplicated i ∧ i < net.nodes.length)
    (hheld : held'.Perm ((p, d) :: held)) (hnodes : s'.nodes = s.nodes) (hlinks : s'.links = s.links)
    (hrest : s'.now = s.now ∧ s'.generated = s.generated ++ [d.id] ∧ s'.log = s.log ∧ s'.history = s.history ∧
      s'.linkTasks = s.linkTasks) : (∃ w, PlacesInv net w ⟨held', s'⟩) ∧ Lives net ⟨held', s'⟩ := by
  obtain ⟨⟨w, hw⟩, hlives⟩ := h
  obtain ⟨hnow, hgen, hlog, hhistory, htasks⟩ := hrest
  have hnew : d.id ∉ s.generated := by
    rw [hgen, List.nodup_append] at hgenerated
    exact fun hmem => hgenerated.2.2 _ hmem _ (List.mem_singleton_self _) rfl
  have hq : NothingNew s s' := by
    refine .of_history (.inl hhistory) (by simp [hlinks]) (by simp [hnodes]) (by simp [hnodes]) fun j c hc => ?_
    rw [State.copies, hlinks, htasks] at hc
    exact .copy hc
  have hvalid : p.Valid net s.now ∧ (∀ j sent, p ≠ .transit j sent) ∧ p.Fits net s.now d .unborn := by
    rcases hp with ⟨i, rfl, hhost⟩ | ⟨i, rfl, hi⟩
    · refine ⟨⟨?_, hhost⟩, by simp, rfl⟩
      by_contra hlt
      rw [InMemoryNetwork.node, List.getD_eq_getElem?_getD, List.getElem?_eq_none (Nat.le_of_not_lt hlt)] at hhost
      simp [default] at hhost
    · exact ⟨hi, by simp, rfl⟩
  exact ⟨⟨_, hw.introduceId hnew rfl hvalid.2.1 hvalid.1 hheld hq hnow hgen⟩,
    hlives.introduceId hnew hheld.subset hvalid.2.2 hq hnow hgen hlog⟩

theorem effect (h : LifeInv net σ) (htables : net.Tables spec) (he : Effect net σ σ') : LifeInv net σ' where
  stays := (StaysInv.preserved net).effect σ σ' he h.stays
  lives hgen := by
    have hstays := h.stays
    have h := h.lives (hgen.sublist he.generated.sublist)
    cases he with
    | advance s duration =>
      obtain ⟨⟨w, hw⟩, hlives⟩ := h
      refine ⟨⟨w, hw.advance duration⟩, hlives.quiet ?_ (.inl rfl) (Nat.le_add_right ..) rfl (List.Subset.refl _)⟩
      exact .of_history (.inl rfl) (fun _ => rfl) (fun _ => rfl) (fun _ _ h => h) fun _ _ h => .copy h
    | create h' s i endpoint transmit uuid hhost =>
      exact introduceId (d := s.inTransitData net i endpoint transmit uuid) hgen h (.inl ⟨i, rfl, by simp [hhost]⟩)
        (.refl _) rfl rfl ⟨rfl, rfl, rfl, rfl, rfl⟩
    | abandon h' h'' s hsub => exact quiet h (.refl s) rfl rfl hsub (.inl rfl)
    | dropOnArrival h' s p i d hp hdown => exact finish h fun w l hw hl => ⟨_, (next_of_enters hw hp hl).1⟩
    | enter h' s p i d hp hup =>
      refine toNode h (fun w hw => ?_) fun w l hw hl => (next_of_enters hw hp hl).2
      obtain ⟨⟨since, hwd⟩, -, -⟩ := hw.head
      have hvalid := hw.valid _ _ hwd
      cases hp with
      | created _ hhost => exact hvalid.1
      | transit j sent _ hdown htarget => exact (htables.nodesByAddr _ _ htarget).1
    | loseInTransit h' s j sent d hdown =>
      refine finish h fun w l hw hl => ⟨.over, ?_⟩
      obtain rfl : l = .onLink j (sent - net.simulationStart) d.number d.packetSize := hl
      obtain ⟨⟨since, hwd⟩, -, -⟩ := hw.head
      obtain ⟨-, hstart, -⟩ := hw.valid _ _ hwd
      have harrived : sent + (net.link j).delay ≤ s.now := hw.arrived j sent d (List.mem_cons_self ..)
      exact .lost j _ _ _ (by omega)
    | dropRandomly h' s i d =>
      refine finish h fun w l hw hl => ⟨.over, ?_⟩
      obtain ⟨since, hsince, rfl⟩ := hl
      exact .dropped i _ _ _ _ hsince
    | dropBecauseBufferFull h' s i d hbuffer =>
      refine finish h fun w l hw hl => ⟨.over, ?_⟩
      obtain ⟨since, hsince, rfl⟩ := hl
      exact .dropped i _ _ _ _ hsince
    | read h' s i d =>
      refine finish h fun w l hw hl => ⟨.over, ?_⟩
      obtain ⟨hhost, since, hsince, rfl⟩ := hl
      exact .delivered i _ _ _ hsince hhost
    | duplicate h' s i d uuid =>
      have hi : i < net.nodes.length := by
        obtain ⟨⟨w, hw⟩, -⟩ := h
        obtain ⟨⟨since, hwd⟩, -, -⟩ := hw.head
        exact hw.valid _ _ hwd
      exact introduceId (d := { d with id := uuid, duplicate := true }) hgen h (.inr ⟨i, rfl, hi⟩) (.swap _ _ _) rfl rfl
        ⟨rfl, rfl, rfl, rfl, rfl⟩
    | introduce h' s i d =>
      have hi : ∀ w, PlacesInv net w ⟨(.duplicated i, d) :: h', s⟩ → i < net.nodes.length := fun w hw => by
        obtain ⟨⟨since, hwd⟩, -, -⟩ := hw.head
        exact hw.valid _ _ hwd
      refine toNode h hi fun w l hw hl => ?_
      obtain rfl : l = .unborn := hl
      exact .duplicated i _ _ (hi w hw)
    | sendInbound h' s i d slot hhere =>
      obtain ⟨⟨w, hw⟩, hlives⟩ := h
      obtain ⟨⟨since, hwd⟩, -, -⟩ := hw.head
      refine ⟨⟨_, hw.sendInbound slot hwd⟩, hlives.silent (.inl rfl) (List.Subset.refl _) fun b q d' hd' => .inl ?_⟩
      rcases hd'.of_sendInbound with hold | ⟨rfl, rfl⟩
      · exact ⟨b, q, hold.cons _, fun _ hfits => hfits⟩
      · exact ⟨true, .node i, .held (List.mem_cons_self ..), fun l hfits => ⟨Option.isSome_of_any hhere, hfits⟩⟩
    | accept h' s i d buffer hbuffer htask =>
      refine accepted h rfl rfl rfl rfl rfl (fun i' => s.inbound_pushOutbound_accept i buffer d _ i')
        fun w since hw hwd hsince => ?_
      subst hsince
      refine ⟨_, hw.accept hstays hwd rfl rfl rfl rfl rfl (fun i' => s.inbound_pushOutbound_accept i buffer d _ i')
        fun i' b hb => ?_⟩
      rw [State.outbound_pushOutbound_accept] at hb
      rcases List.mem_append.1 hb with hb | hb
      · exact .inl hb
      · split_ifs at hb
        · exact .inr (List.mem_singleton.1 hb)
        · exact absurd hb List.not_mem_nil
    | acceptInVain h' s i d buffer hbuffer htask =>
      refine accepted h rfl rfl rfl rfl rfl (fun i' => s.inbound_accept i buffer d i') fun w since hw hwd hsince => ?_
      subst hsince
      refine ⟨_, hw.accept hstays hwd rfl rfl rfl rfl rfl (fun i' => s.inbound_accept i buffer d i') fun i' b hb => .inl ?_⟩
      rwa [State.outbound_accept] at hb
    | takeInTransit h' s j q delivery batch htask hperm hdue =>
      obtain ⟨⟨w, hw⟩, hlives⟩ := h
      refine ⟨⟨_, hw.takeInTransit delivery hperm hdue⟩, hlives.silent (.inl rfl) (List.Subset.refl _) fun b q d hd => .inl ?_⟩
      obtain ⟨b', hold⟩ := hd.of_takeInTransit hperm
      exact ⟨b', q, hold, fun _ hfits => hfits⟩
    | takeInbound h' s i q delivery batch hperm =>
      obtain ⟨⟨w, hw⟩, hlives⟩ := h
      refine ⟨⟨_, hw.takeInbound delivery hperm⟩, hlives.silent (.inl rfl) (List.Subset.refl _) fun b q d hd => .inl ?_⟩
      obtain ⟨b', hold⟩ := hd.of_takeInbound hperm
      exact ⟨b', q, hold, fun _ hfits => hfits⟩
    | panicForwarder h' s j =>
      exact quiet h (.of_history (.inl rfl) (fun _ => rfl) (fun _ => rfl) (fun _ _ h => h) fun _ _ h => .copy h) rfl rfl
        (List.Sublist.refl _) (.inl rfl)
    | offer h' s i packet outbound links rolls htask hnext hlinks hall =>
      obtain ⟨hnow, hgen, hlog⟩ := State.pushCopies_rest net i packet links links rolls (s.takeOutbound i packet outbound links)
      exact quiet h (.offer hnext) hnow hgen (List.Sublist.refl _) (.inl hlog)
    | panicOffer h' s i packet outbound links done rest j rolls htask hnext hlinks hsplit hpanicked =>
      obtain ⟨hnow, hgen, hlog⟩ := State.pushCopies_rest net i packet links done rolls (s.takeOutbound i packet outbound links)
      exact quiet h ((NothingNew.offer hnext).trans (.endNodeTask _ i .panicked)) hnow hgen (List.Sublist.refl _) (.inl hlog)
    | endNodeTask h' s i task htask hend =>
      exact quiet h (.endNodeTask s i task) rfl rfl (List.Sublist.refl _) (.inl rfl)

theorem places_linkEffect {j : LinkIx} (hj : j < net.links.length) (hw : PlacesInv net w ⟨[], s⟩) (hstays : StaysInv net s)
    (he : LinkEffect net j s s') : ∃ w', PlacesInv net w' ⟨[], s'⟩ := by
  have hnew := he.nothingNew
  have hcopies := NothingNew.of_copies he.copies_same
  have hinbound := he.inbound
  have houtbound := he.outbound
  cases he with
  | park p s₁ task hp =>
    obtain ⟨queue, rfl⟩ := hp.eq_dequeue
    exact ⟨w, hw.quiet (hnew (.inl rfl)) rfl rfl (List.Sublist.refl _)⟩
  | discard p p' s₁ hp hhandled =>
    obtain ⟨queue, rfl⟩ := hp.eq_dequeue
    exact ⟨w, hw.quiet (hnew (.inr ⟨.discarded j p', rfl, rfl⟩)) rfl rfl (List.Sublist.refl _)⟩
  | panicSend p p' s₁ hp hun hcleared hpanic =>
    obtain ⟨queue, rfl⟩ := hp.eq_dequeue
    exact ⟨w, hw.quiet (hnew (.inr ⟨.sendPanicked j p', rfl, rfl⟩)) rfl rfl (List.Sublist.refl _)⟩
  | clear p p' s₁ hp hun hcleared =>
    obtain ⟨hat, -⟩ := hw.picked hstays hp hun
    obtain ⟨queue, rfl⟩ := hp.eq_dequeue
    obtain ⟨links, rfl⟩ := hp.ready
    have hinTransit := (hnew (.inr ⟨.cleared j { p with preferredLinks := links }, rfl, rfl⟩)).inTransit
    exact ⟨_, hw.handleStay hat rfl (by rfl) (by rfl) (by rfl) hinbound houtbound hcopies none (j := j) ⟨p.data, 0, 0⟩ 0
      (by simpa using hinTransit) (by simp)⟩
  | send p p' s₁ data slot hp hun hcleared hsane hdata =>
    obtain ⟨hat, -⟩ := hw.picked hstays hp hun
    obtain ⟨queue, rfl⟩ := hp.eq_dequeue
    obtain ⟨links, rfl⟩ := hp.ready
    refine ⟨_, hw.handleStay hat rfl (by rfl) (by rfl) (by rfl) hinbound houtbound hcopies
      (some ⟨false, .transit j s.now, data.packetSize, p.inNodeSince⟩) (j := j)
      ⟨data, s.now, (net.link j).delay + p.anomalies.extraDelay⟩ slot (fun j' => ?_) fun e he => ?_⟩
    · by_cases hjj : j' = j <;>
        simp [State.transmit, State.setLinkTask, State.observe, State.setNode, State.setLink, State.setHandled,
          State.dequeue, State.trackPacketInTransit, State.record, InboundQueue.send, hjj]
    · obtain rfl := Option.some.inj he
      exact ⟨hj, id_applyCongestion hdata, rfl, Nat.le_add_right .., p.inNodeSince, rfl⟩

theorem linkEffect {j : LinkIx} (h : LifeInv net ⟨[], s⟩) (htables : net.Tables spec) (hj : j < net.links.length)
    (he : LinkEffect net j s s') : LifeInv net ⟨[], s'⟩ where
  stays := h.stays.linkEffect he
  lives hgen := by
    obtain ⟨⟨w, hw⟩, hlives⟩ := h.lives (he.generated ▸ hgen)
    have hgen : s'.generated = s.generated := he.generated
    refine ⟨places_linkEffect hj hw h.stays he, ?_⟩
    rcases he.moves with ⟨p, s₁, m, d', hp, hun, hsent, hnow, hhandled, hlog⟩ | ⟨hq, hnow, hlog⟩
    · obtain ⟨hat, hwp⟩ := hw.picked h.stays hp hun
      obtain ⟨ecn, rfl⟩ := hsent.marked
      obtain ⟨l, hl, since, hsince, rfl⟩ := hlives.fits _ _ _ hat
      refine hlives.tell hl (.sent p.srcNode j since _ _ hsince hj (hp.source_mem htables h.stays))
        (hgen ▸ hw.generated _ _ hwp) hlog hnow (hgen ▸ List.Subset.refl _) fun b q d hd => ?_
      rcases hsent.atPlaces b q d hd with hold | ⟨rfl, rfl⟩
      · refine .inl ⟨⟨b, hold⟩, fun hid => ?_⟩
        -- the packet itself is no longer at its stay
        obtain ⟨since', hwd⟩ := hw.places _ _ _ hold
        rw [hid, hwp] at hwd
        obtain ⟨rfl, rfl, -, -⟩ := Entry.mk.inj (Option.some.inj hwd)
        cases hd with
        | stay hacc hun' => exact hun' (by rw [show (Scene.mk [] s').state.history = s'.history from rfl, hhandled]; simp)
      · exact .inr ⟨rfl, rfl⟩
    · rcases hlog with hlog | ⟨p, s₁, m, hp, hun, hhandled, hlog⟩
      · exact hlives.quiet hq (.inl hlog) (Nat.le_of_eq hnow.symm) hgen (List.Subset.refl _)
      · obtain ⟨hat, hwp⟩ := hw.picked h.stays hp hun
        obtain ⟨l, hl, since, hsince, rfl⟩ := hlives.fits _ _ _ hat
        refine hlives.tell hl (.dropped p.srcNode since _ _ .bufferCleared hsince) (hgen ▸ hw.generated _ _ hwp) hlog hnow
          (hgen ▸ List.Subset.refl _) fun b q d hd => .inl ?_
        have hold : Scene.At ⟨[], s⟩ b q d := hd.of_nothingNew hq (List.Subset.refl _)
        refine ⟨⟨b, hold⟩, fun hid => ?_⟩
        obtain ⟨since', hwd⟩ := hw.places _ _ _ hold
        rw [hid, hwp] at hwd
        obtain ⟨rfl, rfl, -, -⟩ := Entry.mk.inj (Option.some.inj hwd)
        cases hd with
        | stay hacc hun' => exact hun' (by rw [show (Scene.mk [] s').state.history = s'.history from rfl, hhandled]; simp)

theorem event {K : SimulationStepKind → Prop} (h : LifeInv net ⟨[], s⟩) (hf : State.EventFrame s s')
    (hlogs : Logs net K s s') (hK : ∀ kind, K kind → kind.packetId = none) : LifeInv net ⟨[], s'⟩ where
  stays := h.stays.event hf
  lives hgen := by
    refine quiet (h.lives (hf.generated ▸ hgen)) (.of_event hf) hf.now hf.generated (List.Sublist.refl _) ?_
    cases hlogs with
    | same heq => exact .inl heq
    | step kind hkind heq => exact .inr ⟨_, hK kind hkind, heq⟩

theorem preserved (htables : net.Tables spec) : Preserved net (LifeInv net) where
  effect _ _ he h := h.effect htables he
  link _ _ _ hj he h := h.linkEffect htables hj he
  linkEvent s payload h := h.event (s.processLinkEvent_frame net payload) (s.linkEvent_logs net payload)
    fun kind hkind => by rw [hkind.1]; rfl
  nodeEvent s payload h := h.event (s.processNodeEvent_frame net payload) (s.nodeEvent_logs net payload)
    fun kind hkind => by rw [hkind.1]; rfl
  events s events h := ⟨{ h.stays with }, fun hgen => quiet (h.lives hgen)
    (.of_history (.inl rfl) (fun _ => rfl) (fun _ => rfl) (fun _ _ h => h) fun _ _ h => .copy h) rfl rfl
    (List.Sublist.refl _) (.inl rfl)⟩

theorem initial (net : InMemoryNetwork) (now : Nat) (events : List NetworkEvent) (hnow : net.simulationStart ≤ now) :
    LifeInv net ⟨[], net.initialState now events⟩ where
  stays := .initial net now events
  lives _ := ⟨⟨fun _ => none, .initial net now events hnow⟩, .initial net now events⟩

end LifeInv

/-- In every state reached with distinct packet ids, the log tells the life of every packet. -/
theorem Reaches.lives {spec : NetworkSpec} {events : List NetworkEvent} {net : InMemoryNetwork} {s : State}
    {disableTimeWarping : Bool} (h : Reaches disableTimeWarping spec events net s) (hgen : s.generated.Nodup) :
    Lives net ⟨[], s⟩ :=
  (((LifeInv.preserved h.tables).reaches (fun now events hnow => .initial net now events hnow) h).lives hgen).2

end QuicWorkbench
